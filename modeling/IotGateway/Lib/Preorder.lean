import Mathlib.Data.List.Nodup
import Mathlib.Logic.Relation

/-!
This module contains walks over forests that are given by the children of each node: a node comes
before what is below it.
-/

namespace Preorder

variable {ι : Type} (children : ι → List ι)

/--
The node and what is below it, down to the depth `n`.
-/
def walk : Nat → ι → List ι
  | 0, i => [i]
  | n + 1, i => i :: (children i).flatMap (walk n)

def ChildOf (p i : ι) : Prop := i ∈ children p

/--
A node is the child of one node, and once. Children are deeper.
-/
structure IsForest (depth : ι → Nat) : Prop where
  nodup : ∀ i, (children i).Nodup
  parent : ∀ i p p', i ∈ children p → i ∈ children p' → p = p'
  deeper : ∀ p i, i ∈ children p → depth p < depth i

variable {children} {depth : ι → Nat}

theorem mem_walk_zero {i j : ι} : j ∈ walk children 0 i ↔ j = i := by
  rw [walk, List.mem_singleton]

theorem mem_walk_succ {n : Nat} {i j : ι}
    : j ∈ walk children (n + 1) i ↔ j = i ∨ ∃ c ∈ children i, j ∈ walk children n c := by
  rw [walk, List.mem_cons, List.mem_flatMap]

open Relation

theorem below_of_mem {n : Nat} {i j : ι} (h : j ∈ walk children n i)
    : ReflTransGen (ChildOf children) i j := by
  induction n generalizing i with
  | zero =>
    rw [mem_walk_zero.mp h]
  | succ n ih =>
    rcases mem_walk_succ.mp h with rfl | ⟨c, hc, hj⟩
    . exact .refl
    . exact (ReflTransGen.single hc).trans (ih hj)

namespace IsForest

theorem depth_le (h : IsForest children depth) {i j : ι}
    (hbelow : ReflTransGen (ChildOf children) i j)
    : depth i ≤ depth j := by
  induction hbelow with
  | refl => exact Nat.le_refl _
  | tail _ hchild ih => exact Nat.le_trans ih (Nat.le_of_lt (h.deeper _ _ hchild))

theorem mem_walk_of_below (h : IsForest children depth) {n : Nat} {i j : ι}
    (hbelow : ReflTransGen (ChildOf children) i j) (hdepth : depth j ≤ depth i + n)
    : j ∈ walk children n i := by
  induction n generalizing i with
  | zero =>
    rcases ReflTransGen.cases_head hbelow with rfl | ⟨c, hc, hcj⟩
    . exact mem_walk_zero.mpr rfl
    . have hdeeper := h.deeper i c hc
      have hle := h.depth_le hcj
      omega
  | succ n ih =>
    rcases ReflTransGen.cases_head hbelow with rfl | ⟨c, hc, hcj⟩
    . exact mem_walk_succ.mpr (.inl rfl)
    . have hdeeper := h.deeper i c hc
      exact mem_walk_succ.mpr (.inr ⟨c, hc, ih hcj (by omega)⟩)

/--
If two nodes are above the same node, one of them is above the other.
-/
theorem comparable (h : IsForest children depth) {i j k : ι}
    (hi : ReflTransGen (ChildOf children) i k)
    (hj : ReflTransGen (ChildOf children) j k)
    : ReflTransGen (ChildOf children) i j ∨ ReflTransGen (ChildOf children) j i := by
  have hunique : Relator.RightUnique (Function.swap (ChildOf children)) :=
    fun a b c hb hc => h.parent a b c hb hc
  have htotal := ReflTransGen.total_of_right_unique hunique (reflTransGen_swap.mpr hi)
    (reflTransGen_swap.mpr hj)
  exact htotal.symm.imp reflTransGen_swap.mp reflTransGen_swap.mp

/--
Nothing is below two children of a node.
-/
theorem eq_of_below (h : IsForest children depth) {p i j k : ι} (hi : i ∈ children p)
    (hj : j ∈ children p)
    (hik : ReflTransGen (ChildOf children) i k) (hjk : ReflTransGen (ChildOf children) j k)
    : i = j := by
  have hsibling {a b : ι} (ha : a ∈ children p) (hb : b ∈ children p)
      (hab : ReflTransGen (ChildOf children) a b) : a = b := by
    rcases ReflTransGen.cases_tail hab with heq | ⟨c, hac, hcb⟩
    . exact heq.symm
    . rw [h.parent b c p hcb hb] at hac
      have hdeeper := h.deeper p a ha
      have hle := h.depth_le hac
      omega
  cases h.comparable hik hjk with
  | inl hij => exact hsibling hi hj hij
  | inr hji => exact (hsibling hj hi hji).symm

theorem nodup_walk (h : IsForest children depth) (n : Nat) (i : ι) : (walk children n i).Nodup := by
  induction n generalizing i with
  | zero => exact List.nodup_singleton i
  | succ n ih =>
    rw [walk, List.nodup_cons, List.nodup_flatMap]
    refine ⟨?_, fun c _ => ih c, ?_⟩
    . intro hmem
      obtain ⟨c, hc, hic⟩ := List.mem_flatMap.mp hmem
      have hdeeper := h.deeper i c hc
      have hle := h.depth_le (below_of_mem hic)
      omega
    . apply (h.nodup i).imp_of_mem
      intro a b ha hb hne k hak hbk
      exact hne (h.eq_of_below ha hb (below_of_mem hak) (below_of_mem hbk))

/--
No node comes before its parent.
-/
theorem pairwise_walk (h : IsForest children depth) (n : Nat) (i : ι)
    : (walk children n i).Pairwise fun j k => j ∉ children k := by
  induction n generalizing i with
  | zero => exact List.pairwise_singleton _ i
  | succ n ih =>
    rw [walk, List.pairwise_cons, List.pairwise_flatMap]
    refine ⟨?_, fun c _ => ih c, ?_⟩
    . intro k hk hchild
      obtain ⟨c, hc, hkc⟩ := List.mem_flatMap.mp hk
      have hdeeper := h.deeper i c hc
      have hle := h.depth_le (below_of_mem hkc)
      have hback := h.deeper k i hchild
      omega
    . apply (h.nodup i).imp_of_mem
      intro a b ha hb hne j hj k hk hchild
      exact hne (h.eq_of_below ha hb (below_of_mem hj) ((below_of_mem hk).tail hchild))

end IsForest

end Preorder
