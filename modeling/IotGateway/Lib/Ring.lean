import Mathlib.Data.List.Basic
import Mathlib.Logic.Function.Basic

/-!
This module contains what a ring of slots holds, from a slot on, and how it changes when a slot is
written behind it or the first slot is given up.
-/

namespace Ring

variable {α : Type}

/--
The `n` slots from `start` on, in a ring of `cap` slots.
-/
def window (buf : Nat → α) (cap start n : Nat) : List α :=
  (List.range n).map fun i => buf ((start + i) % cap)

@[simp]
theorem window_zero (buf : Nat → α) (cap start : Nat) : window buf cap start 0 = [] := rfl

@[simp]
theorem length_window (buf : Nat → α) (cap start n : Nat) : (window buf cap start n).length = n := by
  simp [window]

theorem window_snoc (buf : Nat → α) (cap start n : Nat)
    : window buf cap start (n + 1) = window buf cap start n ++ [buf ((start + n) % cap)] := by
  simp [window, List.range_succ]

theorem window_cons (buf : Nat → α) (cap start n : Nat)
    : window buf cap start (n + 1) = buf (start % cap) :: window buf cap (start + 1) n := by
  unfold window
  rw [List.range_succ_eq_map, List.map_cons, List.map_map, Nat.add_zero]
  congr 1
  apply List.map_congr_left
  intro i _
  rw [Function.comp_apply, Nat.succ_eq_add_one, Nat.add_assoc, Nat.add_comm 1 i]

theorem window_mod (buf : Nat → α) (cap start n : Nat)
    : window buf cap (start % cap) n = window buf cap start n := by
  unfold window
  apply List.map_congr_left
  intro i _
  rw [Nat.mod_add_mod]

theorem drop_window (buf : Nat → α) (cap start k n : Nat)
    : (window buf cap start (k + n)).drop k = window buf cap (start + k) n := by
  induction k generalizing start with
  | zero => rw [List.drop_zero, Nat.zero_add, Nat.add_zero]
  | succ k ih =>
    rw [Nat.add_right_comm, window_cons, List.drop_succ_cons, ih, Nat.add_right_comm, Nat.add_assoc]

/--
Two slots that are less than a round apart.
-/
theorem slot_ne {cap start i n : Nat} (hi : i < n) (hn : n < cap)
    : (start + i) % cap ≠ (start + n) % cap := by
  intro heq
  have hdiff : (start + n - (start + i)) % cap = 0 := Nat.sub_mod_eq_zero_of_mod_eq heq.symm
  rw [Nat.add_sub_add_left, Nat.mod_eq_of_lt (by omega)] at hdiff
  omega

/--
A slot is written behind the window.
-/
theorem window_push {buf : Nat → α} {cap start n : Nat} (x : α) (h : n < cap)
    : window (Function.update buf ((start + n) % cap) x) cap start (n + 1)
        = window buf cap start n ++ [x] := by
  rw [window_snoc, Function.update_self]
  congr 1
  unfold window
  apply List.map_congr_left
  intro i hi
  exact Function.update_of_ne (slot_ne (List.mem_range.mp hi) h) _ _

end Ring
