import Mathlib.Data.List.Basic
import Mathlib.Logic.Function.Basic

/-!
This module contains terminated strings in a flat memory, as C has them: how a string is read, and
what single stores do to it.
-/

namespace CString

variable {α : Type}

/--
The memory at `a` holds `s` and its terminator.
-/
def IsStr (nul : α) (mem : Nat → α) : Nat → List α → Prop
  | a, [] => mem a = nul
  | a, c :: s => mem a = c ∧ c ≠ nul ∧ IsStr nul mem (a + 1) s

section

variable {nul : α} {mem mem' : Nat → α}

theorem IsStr.congr {a : Nat} {s : List α} (h : IsStr nul mem a s)
    (heq : ∀ i, a ≤ i → i ≤ a + s.length → mem' i = mem i)
    : IsStr nul mem' a s := by
  induction s generalizing a with
  | nil =>
    simp only [IsStr] at h ⊢
    rw [heq a (Nat.le_refl a) (Nat.le_add_right a 0), h]
  | cons c s ih =>
    obtain ⟨hc, hne, hs⟩ := h
    simp only [List.length_cons] at heq
    refine ⟨?_, hne, ?_⟩
    . rw [heq a (Nat.le_refl a) (by omega), hc]
    . apply ih hs
      intro i hge hle
      apply heq i (by omega) (by omega)

theorem IsStr.update {a : Nat} {s : List α} (h : IsStr nul mem a s) {b : Nat} (c : α)
    (hb : b < a ∨ a + s.length < b)
    : IsStr nul (Function.update mem b c) a s := by
  apply h.congr
  intro i hge hle
  apply Function.update_of_ne
  omega

theorem isStr_update_nul (mem : Nat → α) (a : Nat)
    : IsStr nul (Function.update mem a nul) a [] := by
  simp [IsStr]

theorem IsStr.append {a : Nat} {s : List α} (h : IsStr nul mem a s) {c : α} (hc : c ≠ nul)
    : IsStr nul (Function.update (Function.update mem (a + s.length) c) (a + s.length + 1) nul) a
        (s ++ [c]) := by
  induction s generalizing a with
  | nil => simp [IsStr, hc]
  | cons d s ih =>
    obtain ⟨hd, hne, hs⟩ := h
    simp only [List.cons_append, List.length_cons]
    refine ⟨?_, hne, ?_⟩
    . rw [Function.update_of_ne (by omega), Function.update_of_ne (by omega), hd]
    . have := ih hs
      have hadd : a + 1 + s.length = a + (s.length + 1) := by omega
      rwa [hadd] at this

theorem isStr_of_getElem {s : List α} (hnul : nul ∉ s) {a : Nat}
    (h : ∀ i < s.length + 1, mem (a + i) = (s ++ [nul])[i]?.getD nul)
    : IsStr nul mem a s := by
  induction s generalizing a with
  | nil => simpa [IsStr] using h 0 (by simp)
  | cons c s ih =>
    rw [List.mem_cons, not_or] at hnul
    refine ⟨by simpa using h 0 (by simp), Ne.symm hnul.1, ih hnul.2 ?_⟩
    intro i hi
    have hnext := h (i + 1) (by simpa using hi)
    rw [← Nat.add_assoc, Nat.add_right_comm] at hnext
    simpa using hnext

theorem IsStr.head_eq_nul_iff {s : List α} {a : Nat} (h : IsStr nul mem a s)
    : mem a = nul ↔ s = [] := by
  cases s with
  | nil => exact iff_of_true h rfl
  | cons c s =>
    obtain ⟨hc, hne, -⟩ := h
    rw [hc]
    exact iff_of_false hne (List.cons_ne_nil c s)

theorem IsStr.getD {s : List α} {a : Nat} (h : IsStr nul mem a s) {i : Nat} (hi : i < s.length)
    (d : α)
    : mem (a + i) = s.getD i d := by
  induction s generalizing a i with
  | nil => cases hi
  | cons c s ih =>
    obtain ⟨hc, -, hs⟩ := h
    cases i with
    | zero => exact hc
    | succ i =>
      rw [List.getD_cons_succ, ← ih hs (Nat.lt_of_succ_lt_succ hi)]
      congr 1
      omega

end

/--
The two memories agree from `a` up to a common terminator, or up to `bound`.
-/
def SameStr (nul : α) (mem mem' : Nat → α) (bound a : Nat) : Prop :=
  ∃ t, a ≤ t ∧ (∀ i, a ≤ i → i < t → mem i = mem' i) ∧ (mem t = nul ∧ mem' t = nul ∨ bound ≤ t)

section

variable {nul : α} {mem mem' : Nat → α} {bound a : Nat}

theorem sameStr_nul (hmem : mem a = nul) (hmem' : mem' a = nul) : SameStr nul mem mem' bound a :=
  ⟨a, Nat.le_refl a, fun _ hle hlt => absurd hlt (Nat.not_lt_of_le hle), .inl ⟨hmem, hmem'⟩⟩

/--
A store at `b` that does not move the end of the string.
-/
theorem SameStr.store (h : SameStr nul mem mem' bound a) {b : Nat} {c : α}
    (hb : c = nul ∨ bound ≤ b)
    : SameStr nul (Function.update mem b c) (Function.update mem' b c) bound a := by
  obtain ⟨t, hle, hagree, hend⟩ := h
  refine ⟨t, hle, ?_, ?_⟩
  . intro i hi hlt
    by_cases hat : i = b
    . rw [hat, Function.update_self, Function.update_self]
    . rw [Function.update_of_ne hat, Function.update_of_ne hat]
      exact hagree i hi hlt
  . by_cases hat : t = b
    . subst hat
      rw [Function.update_self, Function.update_self]
      rcases hb with hnul | hbound
      . exact .inl ⟨hnul, hnul⟩
      . exact .inr hbound
    . rw [Function.update_of_ne hat, Function.update_of_ne hat]
      exact hend

theorem SameStr.append (h : SameStr nul mem mem' bound a) (b : Nat) (c : α)
    : SameStr nul (Function.update (Function.update mem b c) (b + 1) nul)
        (Function.update (Function.update mem' b c) (b + 1) nul) bound a := by
  by_cases hend : ∃ hb : a ≤ b, ∀ i, a ≤ i → i < b → mem i = mem' i
  . obtain ⟨hb, hagree⟩ := hend
    refine ⟨b + 1, Nat.le_succ_of_le hb, ?_, ?_⟩
    . intro i hi hlt
      have hne : i ≠ b + 1 := Nat.ne_of_lt hlt
      rw [Function.update_of_ne hne, Function.update_of_ne hne]
      by_cases hat : i = b
      . rw [hat, Function.update_self, Function.update_self]
      . rw [Function.update_of_ne hat, Function.update_of_ne hat]
        exact hagree i hi (by omega)
    . left
      rw [Function.update_self, Function.update_self]
      exact ⟨rfl, rfl⟩
  . apply SameStr.store _ (.inl rfl)
    obtain ⟨t, hle, hagree, hat⟩ := h
    have hne : ∀ i, a ≤ i → i ≤ t → i ≠ b := by
      rintro i hi hit rfl
      exact hend ⟨hi, fun j hj hlt => hagree j hj (Nat.lt_of_lt_of_le hlt hit)⟩
    refine ⟨t, hle, ?_, ?_⟩
    . intro i hi hlt
      rw [Function.update_of_ne (hne i hi (Nat.le_of_lt hlt)),
        Function.update_of_ne (hne i hi (Nat.le_of_lt hlt))]
      exact hagree i hi hlt
    . rw [Function.update_of_ne (hne t hle (Nat.le_refl t)),
        Function.update_of_ne (hne t hle (Nat.le_refl t))]
      exact hat

end

variable [DecidableEq α]

/--
The string at address `a`, up to the terminator `nul`, of which at most `fuel` cells are looked at.
-/
def cstr (nul : α) (mem : Nat → α) : Nat → Nat → List α
  | _, 0 => []
  | a, fuel + 1 => if mem a = nul then [] else mem a :: cstr nul mem (a + 1) fuel

def strlen (nul : α) (mem : Nat → α) (a fuel : Nat) : Nat := (cstr nul mem a fuel).length

variable {nul : α} {mem : Nat → α}

theorem exists_of_mem_cstr {a fuel : Nat} {c : α} (h : c ∈ cstr nul mem a fuel) : ∃ i, mem i = c := by
  induction fuel generalizing a with
  | zero => cases h
  | succ fuel ih =>
    rw [cstr] at h
    split at h
    . cases h
    . rcases List.mem_cons.mp h with rfl | htail
      . exact ⟨a, rfl⟩
      . exact ih htail

theorem nul_not_mem_cstr (a fuel : Nat) : nul ∉ cstr nul mem a fuel := by
  induction fuel generalizing a with
  | zero => exact List.not_mem_nil
  | succ fuel ih =>
    rw [cstr]
    split
    . exact List.not_mem_nil
    . next hne =>
      rw [List.mem_cons, not_or]
      exact ⟨Ne.symm hne, ih (a + 1)⟩

theorem IsStr.cstr_take {a : Nat} {s : List α} (h : IsStr nul mem a s) (fuel : Nat)
    : cstr nul mem a fuel = s.take fuel := by
  induction s generalizing a fuel with
  | nil =>
    cases fuel with
    | zero => rfl
    | succ fuel =>
      simp only [IsStr] at h
      simp [cstr, h]
  | cons c s ih =>
    obtain ⟨hc, hne, hs⟩ := h
    cases fuel with
    | zero => rfl
    | succ fuel =>
      simp only [cstr, hc, hne, ↓reduceIte, List.take_succ_cons]
      rw [ih hs]

theorem IsStr.cstr_eq {a fuel : Nat} {s : List α} (h : IsStr nul mem a s) (hfuel : s.length ≤ fuel)
    : cstr nul mem a fuel = s := by
  rw [h.cstr_take, List.take_of_length_le hfuel]

theorem IsStr.strlen_eq {a fuel : Nat} {s : List α} (h : IsStr nul mem a s)
    (hfuel : s.length ≤ fuel)
    : strlen nul mem a fuel = s.length := by
  unfold strlen
  rw [h.cstr_eq hfuel]

/--
What has been read before the fuel was used up is a string.
-/
theorem isStr_cstr {a fuel : Nat} (h : (cstr nul mem a fuel).length < fuel)
    : IsStr nul mem a (cstr nul mem a fuel) := by
  induction fuel generalizing a with
  | zero => simp at h
  | succ fuel ih =>
    simp only [cstr] at h ⊢
    split at h
    . next hnul =>
      rw [if_pos hnul]
      exact hnul
    . next hnul =>
      rw [if_neg hnul]
      simp only [List.length_cons, Nat.add_lt_add_iff_right] at h
      exact ⟨rfl, hnul, ih h⟩

theorem isStr_cstr_of_nul {a fuel n : Nat} (hn : n < fuel) (hnul : mem (a + n) = nul)
    : IsStr nul mem a (cstr nul mem a fuel) ∧ (cstr nul mem a fuel).length ≤ n := by
  have hle : (cstr nul mem a fuel).length ≤ n := by
    induction n generalizing a fuel with
    | zero =>
      cases fuel with
      | zero => simp [cstr]
      | succ fuel => simp [cstr, show mem a = nul by simpa using hnul]
    | succ n ih =>
      cases fuel with
      | zero => simp [cstr]
      | succ fuel =>
        simp only [cstr]
        split
        . simp
        . simp only [List.length_cons, Nat.add_le_add_iff_right]
          apply ih (by omega)
          rw [← hnul]
          congr 1
          omega
  refine ⟨?_, hle⟩
  apply isStr_cstr
  omega

theorem SameStr.cstr_eq {mem' : Nat → α} {bound a : Nat} (h : SameStr nul mem mem' bound a)
    (heq : ∀ i, bound ≤ i → mem i = mem' i) (fuel : Nat)
    : cstr nul mem a fuel = cstr nul mem' a fuel := by
  induction fuel generalizing a with
  | zero => rfl
  | succ fuel ih =>
    obtain ⟨t, hle, hagree, hend⟩ := h
    have ha : mem a = mem' a := by
      cases Nat.lt_or_eq_of_le hle with
      | inl hlt => exact hagree a (Nat.le_refl a) hlt
      | inr hat =>
        subst hat
        rcases hend with ⟨hnul, hnul'⟩ | hbound
        . rw [hnul, hnul']
        . exact heq a hbound
    rw [cstr, cstr, ← ha]
    split
    . rfl
    . next hne =>
      rw [ih]
      cases Nat.lt_or_eq_of_le hle with
      | inl hlt => exact ⟨t, hlt, fun i hi => hagree i (Nat.le_of_succ_le hi), hend⟩
      | inr hat =>
        subst hat
        refine ⟨a + 1, Nat.le_refl _, fun _ hi hlt => absurd hlt (Nat.not_lt_of_le hi), .inr ?_⟩
        rcases hend with ⟨hnul, -⟩ | hbound
        . exact absurd hnul hne
        . exact Nat.le_succ_of_le hbound

end CString
