import Mathlib.Data.List.Basic

/-!
This module contains what it means that a program stays inside its arrays, for a list of the places
that it reads or writes.
-/

namespace Accesses

/--
`count` elements of an array, from the one with the index `start` on.
-/
structure Access (β : Type) where
  array : β
  start : Nat
  count : Nat
  deriving DecidableEq

variable {β : Type} {size : β → Nat}

/--
An access of nothing is inside wherever it is.
-/
def Inside (size : β → Nat) (accesses : List (Access β)) : Prop :=
  ∀ access ∈ accesses, access.count = 0 ∨ access.start + access.count ≤ size access.array

instance decidableInside (size : β → Nat) (accesses : List (Access β))
    : Decidable (Inside size accesses) :=
  inferInstanceAs (Decidable (∀ access ∈ accesses, _))

@[simp]
theorem inside_nil : Inside size [] := List.forall_mem_nil _

@[simp]
theorem inside_cons {access : Access β} {accesses : List (Access β)}
    : Inside size (access :: accesses)
        ↔ (access.count = 0 ∨ access.start + access.count ≤ size access.array)
          ∧ Inside size accesses :=
  List.forall_mem_cons

@[simp]
theorem inside_append {xs ys : List (Access β)}
    : Inside size (xs ++ ys) ↔ Inside size xs ∧ Inside size ys :=
  List.forall_mem_append

theorem inside_ite {p : Prop} [Decidable p] {xs ys : List (Access β)}
    : Inside size (if p then xs else ys) ↔ (p → Inside size xs) ∧ (¬p → Inside size ys) := by
  split
  . next hp => simp [hp]
  . next hp => simp [hp]

end Accesses
