import Mathlib.Data.List.FinRange
import Mathlib.Order.Lattice

/-!
This module contains tables whose rows carry a stamp. A table is condensed to its newest stamp and the
number of its rows, and it is shown when two tables that differ can be told apart by these.
-/

namespace Stamped

section Lists

variable {α : Type}

theorem foldl_max_le_iff {l : List Int} {a b : Int} : l.foldl max a ≤ b ↔ a ≤ b ∧ ∀ x ∈ l, x ≤ b := by
  induction l generalizing a with
  | nil => simp
  | cons x l ih => simp [ih, and_assoc]

theorem foldl_max_mem {l : List Int} {a : Int} : l.foldl max a = a ∨ l.foldl max a ∈ l := by
  induction l generalizing a with
  | nil => exact Or.inl rfl
  | cons x l ih =>
    rw [List.foldl_cons]
    rcases ih (a := max a x) with h | h
    . rcases le_total a x with hle | hle
      . rw [max_eq_right hle] at h ⊢
        right
        rw [h]
        exact List.mem_cons_self
      . rw [max_eq_left hle] at h ⊢
        exact Or.inl h
    . exact Or.inr (List.mem_cons_of_mem _ h)

theorem countP_le_add {p q r : α → Bool} {l : List α} (h : ∀ a ∈ l, p a → q a ∨ r a)
    : l.countP p ≤ l.countP q + l.countP r := by
  induction l with
  | nil => simp
  | cons a l ih =>
    have hl := ih fun a ha => h a (List.mem_cons_of_mem _ ha)
    have ha := h a List.mem_cons_self
    simp only [List.countP_cons]
    cases hp : p a with
    | false =>
      simp only [Bool.false_eq_true, if_false]
      omega
    | true =>
      rcases ha hp with hq | hr
      . simp only [hq, if_true]
        omega
      . simp only [hr, if_true]
        omega

theorem countP_lt {p q : α → Bool} {l : List α} (h : ∀ a ∈ l, p a → q a) {a : α} (ha : a ∈ l)
    (hq : q a) (hp : ¬p a)
    : l.countP p < l.countP q := by
  induction l with
  | nil => cases ha
  | cons b l ih =>
    have hl : l.countP p ≤ l.countP q :=
      List.countP_mono_left fun a ha => h a (List.mem_cons_of_mem _ ha)
    have hb := h b List.mem_cons_self
    simp only [List.countP_cons]
    rcases List.mem_cons.mp ha with rfl | hmem
    . simp only [hq, hp, if_true, Bool.false_eq_true, if_false]
      omega
    . have hlt := ih (fun a ha => h a (List.mem_cons_of_mem _ ha)) hmem
      by_cases hpb : p b
      . simp only [hpb, hb hpb, if_true]
        omega
      . simp only [hpb, if_false, Bool.false_eq_true]
        omega

end Lists

variable {n : Nat} {ρ : Type} (stamp : ρ → Int)

/--
A table, with `none` where there is no row.
-/
abbrev Rows (n : Nat) (ρ : Type) : Type := Fin n → Option ρ

/--
The newest stamp. It is 0 if there is no row.
-/
def newest (t : Rows n ρ) : Int := (((List.finRange n).filterMap t).map stamp).foldl max 0

def size (t : Rows n ρ) : Nat := (List.finRange n).countP fun i => (t i).isSome

/--
The rows of `t` that `t'` does not have any more.
-/
def removed (t t' : Rows n ρ) : Nat :=
  (List.finRange n).countP fun i => (t i).isSome && (t' i).isNone

variable {stamp} {t t' : Rows n ρ}

theorem stamp_le_newest {i : Fin n} {row : ρ} (h : t i = some row) : stamp row ≤ newest stamp t := by
  have hle := (foldl_max_le_iff.mp (le_refl (newest stamp t))).2
  apply hle
  exact List.mem_map.mpr ⟨row, List.mem_filterMap.mpr ⟨i, List.mem_finRange i, h⟩, rfl⟩

theorem newest_nonneg : 0 ≤ newest stamp t := (foldl_max_le_iff.mp (le_refl (newest stamp t))).1

theorem newest_le {b : Int} (hb : 0 ≤ b) (h : ∀ i row, t i = some row → stamp row ≤ b)
    : newest stamp t ≤ b := by
  apply foldl_max_le_iff.mpr
  refine ⟨hb, ?_⟩
  intro x hx
  obtain ⟨row, hrow, rfl⟩ := List.mem_map.mp hx
  obtain ⟨i, -, hi⟩ := List.mem_filterMap.mp hrow
  exact h i row hi

theorem newest_mem : newest stamp t = 0 ∨ ∃ i row, t i = some row ∧ stamp row = newest stamp t := by
  rcases foldl_max_mem (l := ((List.finRange n).filterMap t).map stamp) (a := 0) with h | h
  . exact Or.inl h
  . obtain ⟨row, hrow, hstamp⟩ := List.mem_map.mp h
    obtain ⟨i, -, hi⟩ := List.mem_filterMap.mp hrow
    exact Or.inr ⟨i, row, hi, hstamp⟩

theorem size_le_add_removed : size t ≤ size t' + removed t t' := by
  apply countP_le_add
  intro i _ hi
  cases h : t' i with
  | none => exact Or.inr (by simp [hi])
  | some row => exact Or.inl rfl

/--
A row that was not there counts.
-/
theorem size_lt_add_removed {i : Fin n} {row : ρ} (hi : t i = none) (hi' : t' i = some row)
    : size t < size t' + removed t t' := by
  have hle : size t ≤ (List.finRange n).countP (fun j => (t' j).isSome && j != i) + removed t t' := by
    apply countP_le_add
    intro j _ hj
    cases h : t' j with
    | none => exact Or.inr (by simp [hj])
    | some row' =>
      left
      have hne : j ≠ i := by
        rintro rfl
        rw [hi] at hj
        cases hj
      simp [hne]
  have hlt : (List.finRange n).countP (fun j => (t' j).isSome && j != i) < size t' := by
    refine countP_lt ?_ (List.mem_finRange i) ?_ ?_
    . intro j _ hj
      exact (Bool.and_eq_true_iff.mp hj).1
    . rw [hi']
      rfl
    . simp
  omega

/--
Rows have been removed only.
-/
theorem size_lt_of_ne (hsame : ∀ i row, t' i = some row → t i = some row) (hdiff : t' ≠ t)
    : size t' < size t := by
  obtain ⟨i, hi⟩ := Function.ne_iff.mp hdiff
  have hnone : t' i = none := by
    cases h : t' i with
    | none => rfl
    | some row => exact absurd (h.trans (hsame i row h).symm) hi
  refine countP_lt ?_ (List.mem_finRange i) ?_ ?_
  . intro j _ hj
    obtain ⟨row, hrow⟩ := Option.isSome_iff_exists.mp hj
    rw [hsame j row hrow]
    rfl
  . rw [hnone] at hi
    exact Option.isSome_iff_ne_none.mpr hi.symm
  . rw [hnone]
    exact Bool.false_ne_true

/--
Every row of `t'` is as it is in `t`, or is a fresh one.
-/
def Follows (fresh : Fin n → ρ → Prop) (t t' : Rows n ρ) : Prop :=
  ∀ i row, t' i = some row → t i = some row ∨ fresh i row

theorem Follows.refl {fresh : Fin n → ρ → Prop} : Follows fresh t t := fun _ _ h => Or.inl h

theorem Follows.trans {fresh : Fin n → ρ → Prop} {t'' : Rows n ρ} (h : Follows fresh t t')
    (h' : Follows fresh t' t'')
    : Follows fresh t t'' := by
  intro i row hrow
  rcases h' i row hrow with hsame | hfresh
  . exact h i row hsame
  . exact Or.inr hfresh

theorem removed_self : removed t t = 0 := by
  apply List.countP_eq_zero.mpr
  intro i _
  cases t i with
  | none => exact Bool.false_ne_true
  | some row => exact Bool.false_ne_true

theorem removed_trans {t'' : Rows n ρ} : removed t t'' ≤ removed t t' + removed t' t'' := by
  apply countP_le_add
  intro i _ hi
  obtain ⟨hsome, hnone⟩ := Bool.and_eq_true_iff.mp hi
  cases h : t' i with
  | none => exact Or.inl (by simp [hsome])
  | some row => exact Or.inr (by simp [hnone])

/--
The newest stamp and the number of rows, added up.
-/
theorem newest_add_size_ne {k : Nat}
    (hfollows : Follows
      (fun i row => newest stamp t + k < stamp row ∨ t i = none ∧ newest stamp t + k ≤ stamp row)
      t t')
    (hremoved : removed t t' ≤ k) (hdiff : t' ≠ t)
    : newest stamp t' + size t' ≠ newest stamp t + size t := by
  by_cases hsame : ∀ i row, t' i = some row → t i = some row
  . have hlt := size_lt_of_ne hsame hdiff
    have hle : newest stamp t' ≤ newest stamp t :=
      newest_le newest_nonneg fun i row hrow => stamp_le_newest (hsame i row hrow)
    omega
  . push Not at hsame
    obtain ⟨i, row, hrow, hne⟩ := hsame
    have hnewest : stamp row ≤ newest stamp t' := stamp_le_newest hrow
    rcases hfollows i row hrow with heq | hlater | ⟨hnone, hlater⟩
    . exact absurd heq hne
    . have hsize : size t ≤ size t' + removed t t' := size_le_add_removed
      omega
    . have hsize := size_lt_add_removed hnone hrow
      omega

/--
The number of rows, and the newest stamp modulo `m`.
-/
theorem size_mul_add_newest_ne {m : Int} (hm : 0 < m)
    (hfollows : Follows
      (fun _ row => newest stamp t < stamp row ∧ stamp row % m ≠ newest stamp t % m) t t')
    (hdiff : t' ≠ t)
    : size t' * m + newest stamp t' % m ≠ size t * m + newest stamp t % m := by
  intro heq
  have hdigits : ∀ u : Rows n ρ, (size u * m + newest stamp u % m) / m = size u := by
    intro u
    rw [Int.add_comm, Int.add_mul_ediv_right _ _ (Int.ne_of_gt hm),
      Int.ediv_eq_zero_of_lt (Int.emod_nonneg _ (Int.ne_of_gt hm)) (Int.emod_lt_of_pos _ hm),
      Int.zero_add]
  have hsize : (size t' : Int) = size t := by
    rw [← hdigits t', ← hdigits t, heq]
  have hmod : newest stamp t' % m = newest stamp t % m := by
    rw [hsize] at heq
    exact Int.add_left_cancel heq
  by_cases hsame : ∀ i row, t' i = some row → t i = some row
  . have hlt := size_lt_of_ne hsame hdiff
    omega
  . push Not at hsame
    obtain ⟨i, row, hrow, hne⟩ := hsame
    have hnewest : stamp row ≤ newest stamp t' := stamp_le_newest hrow
    have hnonneg : 0 ≤ newest stamp t := newest_nonneg
    rcases hfollows i row hrow with hsame | ⟨hlater, -⟩
    . exact hne hsame
    . have hmem : newest stamp t' = 0 ∨ ∃ j row', t' j = some row' ∧ stamp row' = newest stamp t' :=
        newest_mem
      rcases hmem with hzero | ⟨j, row', hrow', hstamp⟩
      . omega
      . rcases hfollows j row' hrow' with hsame | ⟨-, hne'⟩
        . have hle : stamp row' ≤ newest stamp t := stamp_le_newest hsame
          omega
        . rw [hstamp] at hne'
          exact hne' hmod

end Stamped
