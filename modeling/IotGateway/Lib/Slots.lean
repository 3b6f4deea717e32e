import IotGateway.Lib.Table
import Mathlib.Data.Fintype.Card
import Mathlib.Data.List.Induction

/-!
This module contains columns of keys where a key that is not there yet is put in the first free slot.
-/

namespace Table

variable {κ : Type} [DecidableEq κ] {n : Nat}

/--
A slot that holds `free` is free.
-/
def place (free : κ) (t : Fin n → κ) (k : κ) : Fin n → κ :=
  match first (· == k) t with
  | some _ => t
  | none =>
    match first (· == free) t with
    | some i => Function.update t i k
    | none => t

def places (free : κ) (t : Fin n → κ) (ks : List κ) : Fin n → κ := ks.foldl (place free) t

def occupied (free : κ) (t : Fin n → κ) : Finset (Fin n) := Finset.univ.filter fun i => t i ≠ free

/--
The keys that are not in the column.
-/
def missing (t : Fin n → κ) (ks : List κ) : Finset κ := ks.toFinset.filter fun k => ∀ i, t i ≠ k

section

variable {free k : κ} {t : Fin n → κ} {i : Fin n}

theorem mem_occupied : i ∈ occupied free t ↔ t i ≠ free := by
  simp [occupied]

theorem occupied_update_of_ne (i : Fin n) (hk : k ≠ free)
    : occupied free (Function.update t i k) = insert i (occupied free t) := by
  ext j
  by_cases hj : j = i
  . simp [mem_occupied, hj, hk]
  . simp [mem_occupied, hj]

theorem occupied_update_free (i : Fin n)
    : occupied free (Function.update t i free) = (occupied free t).erase i := by
  ext j
  by_cases hj : j = i
  . simp [mem_occupied, hj]
  . simp [mem_occupied, hj]

theorem place_of_mem (h : first (· == k) t = some i) : place free t k = t := by
  simp [place, h]

theorem place_of_free (h : first (· == k) t = none) (hfree : first (· == free) t = some i)
    : place free t k = Function.update t i k := by
  simp [place, h, hfree]

theorem first_eq_none_iff_ne : first (· == k) t = none ↔ ∀ i, t i ≠ k := by
  simp [first_eq_none_iff]

theorem first_key (h : first (· == k) t = some i) : t i = k := beq_iff_eq.mp (first_spec h)

theorem place_cases (free : κ) (t : Fin n → κ) (k : κ)
    : place free t k = t
        ∨ ∃ i, t i = free ∧ (∀ j, t j ≠ k) ∧ place free t k = Function.update t i k := by
  match hk : first (· == k) t with
  | some i => exact .inl (place_of_mem hk)
  | none =>
    match hfree : first (· == free) t with
    | some i =>
      exact .inr ⟨i, first_key hfree, first_eq_none_iff_ne.mp hk, place_of_free hk hfree⟩
    | none =>
      left
      simp [place, hk, hfree]

theorem place_occupied (h : t i ≠ free) (k : κ) : place free t k i = t i := by
  rcases place_cases free t k with heq | ⟨j, hj, -, heq⟩
  . rw [heq]
  . rw [heq, Function.update_of_ne]
    rintro rfl
    exact h hj

theorem place_fresh (h : t i = free) (hplace : place free t k i ≠ free)
    : place free t k i = k ∧ ∀ j, t j ≠ k := by
  rcases place_cases free t k with heq | ⟨j, hj, hk, heq⟩
  . rw [heq] at hplace
    exact absurd h hplace
  . by_cases hij : i = j
    . subst hij
      rw [heq, Function.update_self]
      exact ⟨rfl, hk⟩
    . rw [heq, Function.update_of_ne hij] at hplace
      exact absurd h hplace

theorem first_place (h : first (· == k) t = some i) (hk : k ≠ free) (k' : κ)
    : first (· == k) (place free t k') = some i := by
  rcases place_cases free t k' with heq | ⟨j, hj, hk', heq⟩
  . rw [heq]
    exact h
  . obtain ⟨hi, hmin⟩ := first_eq_some_iff.mp h
    have hki : t i = k := beq_iff_eq.mp hi
    rw [heq, first_eq_some_iff]
    constructor
    . rw [Function.update_of_ne]
      . exact hi
      . rintro rfl
        exact hk (hki.symm.trans hj)
    . intro l hl
      by_cases hlj : l = j
      . subst hlj
        rw [Function.update_self, beq_eq_false_iff_ne]
        rintro rfl
        exact hk' i hki
      . rw [Function.update_of_ne hlj]
        exact hmin l hl

theorem place_unique (h : ∀ i j, t i ≠ free → t j = t i → j = i) (k : κ)
    : ∀ i j, place free t k i ≠ free → place free t k j = place free t k i → j = i := by
  intro i j hi hj
  rcases place_cases free t k with heq | ⟨l, hl, hk, heq⟩
  . rw [heq] at hi hj
    exact h i j hi hj
  . rw [heq] at hi hj
    by_cases hil : i = l
    . by_contra hji
      rw [hil, Function.update_self, Function.update_of_ne (hil ▸ hji)] at hj
      exact hk j hj
    . rw [Function.update_of_ne hil] at hi hj
      by_cases hjl : j = l
      . rw [hjl, Function.update_self] at hj
        exact absurd hj.symm (hk i)
      . rw [Function.update_of_ne hjl] at hj
        exact h i j hi hj

theorem first_update_self (h : ∀ j, t j ≠ k) (i : Fin n)
    : first (· == k) (Function.update t i k) = some i := by
  apply first_eq_some_of_unique
  . rw [Function.update_self]
    exact beq_self_eq_true k
  . intro j hj
    by_contra hji
    rw [Function.update_of_ne hji] at hj
    exact h j (beq_iff_eq.mp hj)

end

section

variable {free : κ} {t : Fin n → κ}

theorem places_append_single (ks : List κ) (k : κ)
    : places free t (ks ++ [k]) = place free (places free t ks) k := by
  simp [places]

theorem places_occupied {i : Fin n} (h : t i ≠ free) (ks : List κ) : places free t ks i = t i := by
  induction ks using List.reverseRecOn with
  | nil => rfl
  | append_singleton ks k ih =>
    rw [places_append_single, place_occupied]
    . exact ih
    . rwa [ih]

theorem first_places {k : κ} {i : Fin n} (h : first (· == k) t = some i) (hk : k ≠ free)
    (ks : List κ)
    : first (· == k) (places free t ks) = some i := by
  induction ks using List.reverseRecOn with
  | nil => exact h
  | append_singleton ks k' ih =>
    rw [places_append_single]
    exact first_place ih hk k'

theorem places_fresh {i : Fin n} {ks : List κ} (h : t i = free) (hplaced : places free t ks i ≠ free)
    : places free t ks i ∈ ks
        ∧ (∀ j, t j ≠ places free t ks i)
        ∧ ∀ j, places free t ks j = places free t ks i → j = i := by
  induction ks using List.reverseRecOn with
  | nil => exact absurd h hplaced
  | append_singleton ks k ih =>
    rw [places_append_single] at hplaced ⊢
    by_cases hbefore : places free t ks i = free
    -- The slot has been taken for `k`
    . obtain ⟨hk, habsent⟩ := place_fresh hbefore hplaced
      rw [hk] at hplaced ⊢
      refine ⟨List.mem_append_right ks (List.mem_singleton.mpr rfl), ?_, ?_⟩
      . intro j hj
        apply habsent j
        rw [places_occupied, hj]
        rwa [hj]
      . intro j hj
        rcases place_cases free (places free t ks) k with heq | ⟨l, hl, -, heq⟩
        . rw [heq] at hj
          exact absurd hj (habsent j)
        . rw [heq] at hj hk
          by_cases hil : i = l
          . by_contra hji
            rw [← hil, Function.update_of_ne hji] at hj
            exact habsent j hj
          . rw [Function.update_of_ne hil] at hk
            exact absurd hk (habsent i)
    . obtain ⟨hmem, hold, hunique⟩ := ih hbefore
      rw [place_occupied hbefore]
      refine ⟨List.mem_append_left _ hmem, hold, ?_⟩
      intro j hj
      by_cases hj' : places free t ks j = free
      . rw [← hj] at hbefore
        obtain ⟨hk, habsent⟩ := place_fresh hj' hbefore
        exact absurd (hj.symm.trans hk) (habsent i)
      . rw [place_occupied hj'] at hj
        exact hunique j hj

/--
There is a free slot for a key that is still missing if there is one for each.
-/
theorem exists_free_slot {ks all : List κ} {k : κ}
    (hfits : (occupied free t).card + (missing t all).card ≤ n) (hks : ∀ k ∈ ks, k ∈ all)
    (hk : k ∈ all) (hmissing : ∀ i, places free t ks i ≠ k) (hfree : k ≠ free)
    : ∃ i, places free t ks i = free := by
  by_contra hfull
  push Not at hfull
  have htaken : ∀ i, i ∉ occupied free t → t i = free := by
    intro i hi
    simpa [occupied] using hi
  have hbound : ((occupied free t)ᶜ).card ≤ ((missing t all).erase k).card := by
    apply Finset.card_le_card_of_injOn (places free t ks)
    . intro i hi
      obtain ⟨hmem, hold, -⟩ := places_fresh (htaken i (Finset.mem_compl.mp hi)) (hfull i)
      simp only [Finset.mem_coe, Finset.mem_erase, missing, Finset.mem_filter, List.mem_toFinset]
      exact ⟨hmissing i, hks _ hmem, hold⟩
    . intro i hi j hj heq
      exact (places_fresh (htaken j (Finset.mem_compl.mp hj)) (hfull j)).2.2 i heq
  have hmem : k ∈ missing t all := by
    simp only [missing, Finset.mem_filter, List.mem_toFinset]
    refine ⟨hk, ?_⟩
    intro i hi
    apply hmissing i
    rw [places_occupied, hi]
    rwa [hi]
  have hcompl := Finset.card_compl_add_card (occupied free t)
  rw [Fintype.card_fin] at hcompl
  have hpos := Finset.card_pos.mpr ⟨k, hmem⟩
  rw [Finset.card_erase_of_mem hmem] at hbound
  omega

end

end Table
