import Mathlib.Algebra.BigOperators.Ring.Finset
import Mathlib.Algebra.Order.BigOperators.Group.Finset
import Mathlib.Data.Nat.Digits.Lemmas

/-!
This module contains numbers in BCD, and sums of their digits with other weights than the powers of
ten.
-/

namespace Bcd

open Finset

/--
The hexadecimal digits of `n` read as decimal ones.
-/
def value (n : Nat) : Nat := Nat.ofDigits 10 (Nat.digits 16 n)

def Valid (n : Nat) : Prop := ∀ digit ∈ Nat.digits 16 n, digit ≤ 9

def digit (n i : Nat) : Nat := n / 16 ^ i % 16

theorem value_eq (n : Nat) : value n = n % 16 + 10 * value (n / 16) := by
  cases Nat.eq_zero_or_pos n with
  | inl hzero =>
    subst hzero
    rfl
  | inr hpos =>
    rw [value, Nat.digits_def' (by decide) hpos, Nat.ofDigits_cons, value]

theorem digit_succ (n i : Nat) : digit n (i + 1) = digit (n / 16) i := by
  rw [digit, digit, Nat.div_div_eq_div_mul, Nat.pow_succ, Nat.mul_comm]

theorem digit_mod (n : Nat) {i k : Nat} (h : i < k) : digit (n % 16 ^ k) i = digit n i := by
  have hpow : 16 ^ k = 16 ^ i * 16 ^ (k - i) := by rw [← Nat.pow_add, Nat.add_sub_cancel' h.le]
  have hdvd : 16 ∣ 16 ^ (k - i) := dvd_pow_self 16 (by omega)
  rw [digit, hpow, Nat.mod_mul_right_div_self, Nat.mod_mod_of_dvd _ hdvd, digit]

theorem value_eq_sum {n k : Nat} (h : n < 16 ^ k) : value n = ∑ i ∈ range k, digit n i * 10 ^ i := by
  induction k generalizing n with
  | zero =>
    have hzero : n = 0 := by omega
    subst hzero
    rfl
  | succ k ih =>
    have hdiv : n / 16 < 16 ^ k := Nat.div_lt_of_lt_mul (by rwa [Nat.pow_succ, Nat.mul_comm] at h)
    have hfirst : digit n 0 * 10 ^ 0 = n % 16 := by simp [digit]
    rw [value_eq, ih hdiv, sum_range_succ', hfirst, mul_sum, Nat.add_comm]
    congr 1
    apply sum_congr rfl
    intro i _
    rw [digit_succ, Nat.pow_succ]
    ring

theorem Valid.digit_le {n : Nat} (h : Valid n) (i : Nat) : digit n i ≤ 9 := by
  rw [digit, ← Nat.getD_digits n i (by decide), List.getD_eq_getElem?_getD]
  cases hget : (Nat.digits 16 n)[i]? with
  | none => exact Nat.zero_le 9
  | some d => exact h d (List.mem_of_getElem? hget)

theorem Valid.mod_le {n : Nat} (h : Valid n) : n % 16 ≤ 9 := by
  have hdigit := h.digit_le 0
  rwa [digit, Nat.pow_zero, Nat.div_one] at hdigit

theorem Valid.div {n : Nat} (h : Valid n) : Valid (n / 16) := by
  intro d hd
  cases Nat.eq_zero_or_pos n with
  | inl hzero =>
    subst hzero
    simp at hd
  | inr hpos =>
    apply h d
    rw [Nat.digits_def' (by decide) hpos]
    exact List.mem_cons_of_mem _ hd

theorem Valid.value_lt {n k : Nat} (h : Valid n) (hlt : n < 16 ^ k) : value n < 10 ^ k := by
  induction k generalizing n with
  | zero =>
    have hzero : n = 0 := by omega
    subst hzero
    decide
  | succ k ih =>
    have hdiv : n / 16 < 16 ^ k := Nat.div_lt_of_lt_mul (by rwa [Nat.pow_succ, Nat.mul_comm] at hlt)
    have hlast := h.mod_le
    have hvalue := ih h.div hdiv
    rw [value_eq, Nat.pow_succ]
    omega

theorem Valid.value_lt_value {m n : Nat} (h : Valid m) (hlt : m < n) : value m < value n := by
  induction n using Nat.strongRecOn generalizing m with
  | ind n ih =>
    have hlast := h.mod_le
    rw [value_eq m, value_eq n]
    cases Nat.lt_or_ge (m / 16) (n / 16) with
    | inl hdiv =>
      have hvalue := ih (n / 16) (by omega) h.div hdiv
      omega
    | inr hdiv =>
      have hsame : m / 16 = n / 16 := by omega
      rw [hsame]
      omega

theorem Valid.value_mono {m n : Nat} (h : Valid m) (hle : m ≤ n) : value m ≤ value n := by
  cases Nat.lt_or_eq_of_le hle with
  | inl hlt => exact (h.value_lt_value hlt).le
  | inr heq => rw [heq]

theorem lt_iff_digit_eq_zero {n j k : Nat} (hlt : n < 16 ^ k)
    : n < 16 ^ j ↔ ∀ i, j ≤ i → i < k → digit n i = 0 := by
  constructor
  . intro hj i hji _
    rw [digit, Nat.div_eq_of_lt (Nat.lt_of_lt_of_le hj (Nat.pow_le_pow_right (by decide) hji))]
  . induction k with
    | zero => exact fun _ => Nat.lt_of_lt_of_le hlt (Nat.pow_le_pow_right (by decide) (Nat.zero_le j))
    | succ k ih =>
      intro hzero
      cases Nat.lt_or_ge k j with
      | inl hkj => exact Nat.lt_of_lt_of_le hlt (Nat.pow_le_pow_right (by decide) hkj)
      | inr hjk =>
        have htop : n / 16 ^ k < 16 := Nat.div_lt_of_lt_mul (by rwa [Nat.pow_succ] at hlt)
        have hdigit := hzero k hjk (Nat.lt_succ_self k)
        rw [digit, Nat.mod_eq_of_lt htop] at hdigit
        have hk : n < 16 ^ k := (Nat.div_eq_zero_iff_lt (by positivity)).mp hdigit
        exact ih hk fun i hji hik => hzero i hji (Nat.lt_succ_of_lt hik)

section

variable {n k : Nat} {weight : Nat → Nat}

theorem sum_le_value (hlt : n < 16 ^ k) (hweight : ∀ i < k, weight i ≤ 10 ^ i)
    : ∑ i ∈ range k, digit n i * weight i ≤ value n := by
  rw [value_eq_sum hlt]
  exact sum_le_sum fun i hi => Nat.mul_le_mul_left _ (hweight i (mem_range.mp hi))

/--
Too small a weight is made up for by no other one.
-/
theorem sum_eq_value_iff (hlt : n < 16 ^ k) (hweight : ∀ i < k, weight i ≤ 10 ^ i)
    : ∑ i ∈ range k, digit n i * weight i = value n
        ↔ ∀ i < k, weight i = 10 ^ i ∨ digit n i = 0 := by
  have hle : ∀ i ∈ range k, digit n i * weight i ≤ digit n i * 10 ^ i :=
    fun i hi => Nat.mul_le_mul_left _ (hweight i (mem_range.mp hi))
  rw [value_eq_sum hlt, sum_eq_sum_iff_of_le hle]
  simp only [mem_range, mul_eq_mul_left_iff]

end

end Bcd
