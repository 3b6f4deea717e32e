import Mathlib.Data.List.Induction
import Mathlib.Tactic.Ring

/-!
This module contains numbers in positional notation with a fixed number of digits, the highest one
first.
-/

namespace Positional

variable {b n v : Nat} {ds : List Nat}

def digits (b : Nat) : (n v : Nat) → List Nat
  | 0, _ => []
  | n + 1, v => digits b n (v / b) ++ [v % b]

def value (b : Nat) (ds : List Nat) : Nat := ds.foldl (fun v d => v * b + d) 0

@[simp]
theorem value_append (d : Nat) : value b (ds ++ [d]) = value b ds * b + d := by
  simp [value]

@[simp]
theorem length_digits : (digits b n v).length = n := by
  induction n generalizing v with
  | zero => rfl
  | succ n ih => simp [digits, ih]

theorem digits_lt {d : Nat} (hb : 0 < b) (h : d ∈ digits b n v) : d < b := by
  induction n generalizing v with
  | zero => cases h
  | succ n ih =>
    rw [digits, List.mem_append, List.mem_singleton] at h
    rcases h with h | rfl
    . exact ih h
    . exact Nat.mod_lt v hb

theorem value_digits : value b (digits b n v) = v % b ^ n := by
  induction n generalizing v with
  | zero => simp [digits, value, Nat.mod_one]
  | succ n ih =>
    rw [digits, value_append, ih, Nat.pow_succ, Nat.mul_comm (b ^ n) b, Nat.mod_mul]
    ring

theorem digits_value (hds : ∀ d ∈ ds, d < b) : digits b ds.length (value b ds) = ds := by
  induction ds using List.reverseRecOn with
  | nil => rfl
  | append_singleton ds d ih =>
    have hd : d < b := hds d (List.mem_append_right _ List.mem_cons_self)
    have hinit : digits b ds.length (value b ds) = ds :=
      ih fun d hd => hds d (List.mem_append_left _ hd)
    have hdiv : (value b ds * b + d) / b = value b ds := by
      rw [Nat.mul_comm, Nat.mul_add_div (Nat.zero_lt_of_lt hd), Nat.div_eq_of_lt hd, Nat.add_zero]
    have hmod : (value b ds * b + d) % b = d := by
      rw [Nat.mul_comm, Nat.mul_add_mod, Nat.mod_eq_of_lt hd]
    rw [List.length_append, value_append, List.length_singleton, digits, hdiv, hmod, hinit]

theorem value_lt (hds : ∀ d ∈ ds, d < b) : value b ds < b ^ ds.length := by
  induction ds using List.reverseRecOn with
  | nil => simp [value]
  | append_singleton ds d ih =>
    have hd : d < b := hds d (List.mem_append_right _ List.mem_cons_self)
    have hinit : value b ds < b ^ ds.length := ih fun d hd => hds d (List.mem_append_left _ hd)
    rw [value_append, List.length_append, List.length_singleton, Nat.pow_succ]
    calc
      value b ds * b + d < value b ds * b + b := Nat.add_lt_add_left hd _
      _ = (value b ds + 1) * b := by ring
      _ ≤ b ^ ds.length * b := Nat.mul_le_mul_right b hinit

end Positional
