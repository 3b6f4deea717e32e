/-!
This module contains what it means for requests to lay out a list of values from a position on, piece
by piece.
-/

/--
The first piece starts at `a`, each other one where the piece before it ends, and the pieces are
`values` together. None of them is empty or longer than `k`.
-/
inductive Tiles {β : Type} (k : Nat) : (a : Nat) → (values : List β) → List (Nat × List β) → Prop where
  | nil {a : Nat} : Tiles k a [] []
  | cons {a : Nat} {piece values : List β} {requests : List (Nat × List β)} (hpos : 1 ≤ piece.length)
      (hle : piece.length ≤ k) (hrest : Tiles k (a + piece.length) values requests)
      : Tiles k a (piece ++ values) ((a, piece) :: requests)

namespace Tiles

variable {β : Type} {k a : Nat} {values : List β} {requests : List (Nat × List β)}

theorem inside (h : Tiles k a values requests)
    : ∀ r ∈ requests, a ≤ r.1 ∧ r.1 + r.2.length ≤ a + values.length := by
  induction h with
  | nil =>
    intro r hr
    cases hr
  | @cons a piece values requests _ _ _ ih =>
    intro r hr
    rw [List.length_append]
    cases hr with
    | head =>
      dsimp only
      omega
    | tail _ hr =>
      have := ih r hr
      omega

/--
Another piece can be laid behind the others.
-/
theorem snoc {piece : List β} (h : Tiles k a values requests) (hpos : 1 ≤ piece.length)
    (hle : piece.length ≤ k)
    : Tiles k a (values ++ piece) (requests ++ [(a + values.length, piece)]) := by
  induction h with
  | @nil a =>
    have hone : Tiles k a (piece ++ []) [(a, piece)] := .cons hpos hle .nil
    rw [List.append_nil] at hone
    exact hone
  | @cons a first values requests hfirst hfirst' _ ih =>
    rw [List.append_assoc, List.length_append, ← Nat.add_assoc]
    exact .cons hfirst hfirst' ih

/--
The pieces say what the values are.
-/
theorem flatten (h : Tiles k a values requests) : (requests.map Prod.snd).flatten = values := by
  induction h with
  | nil => rfl
  | cons _ _ _ ih => rw [List.map_cons, List.flatten_cons, ih]

/--
A memory in which the values stand from a position on.
-/
def put (mem : Nat → β) (a : Nat) (values : List β) : Nat → β :=
  fun x => if a ≤ x then (values[x - a]?).getD (mem x) else mem x

theorem put_append (mem : Nat → β) (a : Nat) (xs ys : List β)
    : put (put mem a xs) (a + xs.length) ys = put mem a (xs ++ ys) := by
  funext x
  simp only [put]
  by_cases hx : a ≤ x
  . by_cases hxs : x - a < xs.length
    . rw [if_neg (by omega), if_pos hx, if_pos hx, List.getElem?_append_left hxs]
    . have hnone : xs[x - a]? = none := List.getElem?_eq_none (by omega)
      rw [if_pos (by omega), if_pos hx, if_pos hx, List.getElem?_append_right (by omega), hnone,
        Option.getD_none, Nat.sub_add_eq]
  . rw [if_neg (by omega), if_neg hx, if_neg hx]

theorem put_of_outside {mem : Nat → β} {values : List β} {x : Nat}
    (h : x < a ∨ a + values.length ≤ x)
    : put mem a values x = mem x := by
  unfold put
  split
  . rw [List.getElem?_eq_none (by omega), Option.getD_none]
  . rfl

end Tiles
