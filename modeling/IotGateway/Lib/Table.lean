import Mathlib.Data.List.FinRange
import Mathlib.Logic.Function.Basic

/-!
This module contains tables with a fixed number of rows that are searched from the front, and the
keys of their live rows.
-/

namespace Table

variable {α κ : Type} {n : Nat}

/--
The first row with `p`.
-/
def first (p : α → Bool) (t : Fin n → α) : Option (Fin n) :=
  (List.finRange n).find? fun i => p (t i)

theorem first_eq_none_iff {p : α → Bool} {t : Fin n → α}
    : first p t = none ↔ ∀ i, p (t i) = false := by
  simp [first]

theorem first_isSome_iff {p : α → Bool} {t : Fin n → α}
    : (first p t).isSome ↔ ∃ i, p (t i) = true := by
  simp [first]

theorem first_spec {p : α → Bool} {t : Fin n → α} {i : Fin n} (h : first p t = some i)
    : p (t i) = true := by
  apply List.find?_some (p := fun i => p (t i)) h

theorem first_min {p : α → Bool} {t : Fin n → α} {i j : Fin n} (h : first p t = some i)
    (hj : j < i)
    : p (t j) = false := by
  obtain ⟨-, left, right, heq, hleft⟩ := List.find?_eq_some_iff_append.mp h
  have hmem : j ∈ left := by
    have hall : j ∈ left ++ i :: right := by
      rw [← heq]
      exact List.mem_finRange j
    have hsorted : (left ++ i :: right).Pairwise (· < ·) := by
      rw [← heq]
      exact List.pairwise_lt_finRange n
    rcases List.mem_append.mp hall with hmem | hmem
    . exact hmem
    . exfalso
      obtain ⟨-, hright, -⟩ := List.pairwise_append.mp hsorted
      rcases List.mem_cons.mp hmem with rfl | hmem
      . exact lt_irrefl _ hj
      . exact lt_asymm hj (List.rel_of_pairwise_cons hright hmem)
  simpa using hleft j hmem

theorem first_eq_some_iff {p : α → Bool} {t : Fin n → α} {i : Fin n}
    : first p t = some i ↔ p (t i) = true ∧ ∀ j < i, p (t j) = false := by
  constructor
  . intro h
    exact ⟨first_spec h, fun j hj => first_min h hj⟩
  . rintro ⟨hi, hmin⟩
    obtain ⟨k, hk⟩ := Option.isSome_iff_exists.mp (first_isSome_iff.mpr ⟨i, hi⟩)
    rcases lt_trichotomy k i with hlt | rfl | hlt
    . have := hmin k hlt
      rw [first_spec hk] at this
      cases this
    . exact hk
    . have := first_min hk hlt
      rw [hi] at this
      cases this

theorem first_eq_some_of_unique {p : α → Bool} {t : Fin n → α} {i : Fin n} (hi : p (t i) = true)
    (hunique : ∀ j, p (t j) = true → j = i)
    : first p t = some i := by
  rw [first_eq_some_iff]
  refine ⟨hi, ?_⟩
  intro j hj
  by_contra hp
  rw [Bool.not_eq_false] at hp
  exact absurd (hunique j hp) (ne_of_lt hj)

/--
No two rows have the same key. A row that is not live has none.
-/
def Keyed (key : α → Option κ) (t : Fin n → α) : Prop :=
  ∀ i j k, key (t i) = some k → key (t j) = some k → i = j

variable {key : α → Option κ} {t : Fin n → α}

theorem Keyed.update_none (h : Keyed key t) {i : Fin n} {row : α} (hrow : key row = none)
    : Keyed key (Function.update t i row) := by
  intro a b k ha hb
  have hne : ∀ c, key (Function.update t i row c) = some k → c ≠ i := by
    rintro c hc rfl
    rw [Function.update_self, hrow] at hc
    cases hc
  rw [Function.update_of_ne (hne a ha)] at ha
  rw [Function.update_of_ne (hne b hb)] at hb
  exact h a b k ha hb

/--
A row may be written whose key is in no other row.
-/
theorem Keyed.update (h : Keyed key t) {i : Fin n} {row : α}
    (hrow : ∀ j k, j ≠ i → key row = some k → key (t j) ≠ some k)
    : Keyed key (Function.update t i row) := by
  intro a b k ha hb
  by_cases hai : a = i
  . subst hai
    by_contra hne
    rw [Function.update_self] at ha
    rw [Function.update_of_ne (Ne.symm hne)] at hb
    exact hrow b k (Ne.symm hne) ha hb
  . rw [Function.update_of_ne hai] at ha
    by_cases hbi : b = i
    . subst hbi
      rw [Function.update_self] at hb
      exact absurd ha (hrow a k hai hb)
    . rw [Function.update_of_ne hbi] at hb
      exact h a b k ha hb

theorem Keyed.update_same (h : Keyed key t) {i : Fin n} {row : α} (hrow : key row = key (t i))
    : Keyed key (Function.update t i row) := by
  apply h.update
  intro j k hj hk hkey
  rw [hrow] at hk
  exact hj (h j i k hkey hk)

section

variable [DecidableEq κ]

/--
The first live row with a key.
-/
def lookup (key : α → Option κ) (k : κ) (t : Fin n → α) : Option (Fin n) :=
  first (fun row => key row == some k) t

theorem lookup_spec {k : κ} {i : Fin n} (h : lookup key k t = some i) : key (t i) = some k :=
  beq_iff_eq.mp (first_spec h)

theorem lookup_eq_none_iff {k : κ} : lookup key k t = none ↔ ∀ i, key (t i) ≠ some k := by
  simp [lookup, first_eq_none_iff]

theorem lookup_update_self {k : κ} {i : Fin n} {row : α} (hrow : key row = some k)
    (hbefore : ∀ j < i, key (t j) ≠ some k)
    : lookup key k (Function.update t i row) = some i := by
  rw [lookup, first_eq_some_iff, Function.update_self]
  refine ⟨beq_iff_eq.mpr hrow, ?_⟩
  intro j hj
  rw [Function.update_of_ne (ne_of_lt hj)]
  exact beq_eq_false_iff_ne.mpr (hbefore j hj)

theorem Keyed.lookup_eq_some_iff (h : Keyed key t) {k : κ} {i : Fin n}
    : lookup key k t = some i ↔ key (t i) = some k := by
  constructor
  . exact lookup_spec
  . intro hi
    apply first_eq_some_of_unique
    . exact beq_iff_eq.mpr hi
    . intro j hj
      exact h j i k (beq_iff_eq.mp hj) hi

end

end Table
