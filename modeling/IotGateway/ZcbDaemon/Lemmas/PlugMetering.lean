import IotGateway.Lib.Bcd
import IotGateway.NewDb.Lemmas.Tables
import IotGateway.ZcbDaemon.Lemmas.Attributes
import IotGateway.ZcbDaemon.Lemmas.PlugIsolation

/-!
This module contains proofs about the arithmetic of the plug data: for which reports the power and the
energy sum in the tables are those that the plug has measured.
-/

namespace ZcbDaemon.Plug

open NewDb Machine Finset

/--
What an electricity meter reports of the energy that has been delivered.
-/
structure Metering where
  bcd : Bool
  eSummationDelivered : Nat
  eMultiplier : Nat
  eDivisor : Nat

namespace Metering

structure Valid (x : Metering) : Prop where
  summation : x.eSummationDelivered < 2 ^ 48
  digits : x.bcd = true → Bcd.Valid x.eSummationDelivered
  multiplier : 0 < x.eMultiplier ∧ x.eMultiplier < 2 ^ 24
  divisor : 0 < x.eDivisor ∧ x.eDivisor < 2 ^ 24

def units (x : Metering) : Nat :=
  if x.bcd then Bcd.value x.eSummationDelivered else x.eSummationDelivered

/--
In Watt/hour
-/
def energy (x : Metering) : Nat := x.units * x.eMultiplier * 1000 / x.eDivisor

def Fits (x : Metering) : Prop := x.energy < 2 ^ 31

def unitOfMeasure (x : Metering) : UInt64 :=
  if x.bcd then E_CLD_SM_UOM_KILO_WATTS_BCD else E_CLD_SM_UOM_KILO_WATTS

/--
The variables after such a report with the demand `demand`.
-/
def meter (x : Metering) (demand : Int) : Meter where
  eSummationDelivered := extended (.ofNat x.eSummationDelivered)
  eInstantaneousDemand := extended (.ofInt demand)
  eMeteringDeviceType := extended E_CLD_SM_MDT_ELECTRIC
  eUnitOfMeasure := extended x.unitOfMeasure
  eMultiplier := extended (.ofNat x.eMultiplier)
  eDivisor := extended (.ofNat x.eDivisor)

end Metering

/--
The value that has been reported last for an attribute.
-/
def lastData (reports : List Report) (u16AttributeID : UInt16) : Option UInt64 :=
  (reports.reverse.find? fun r => r.u16AttributeID = u16AttributeID).map Report.u64Data

def IsDemand (plug : UInt64) (r : Report) : Prop :=
  r.u64IEEEAddress = plug ∧ r.u16AttributeID = E_ZB_ATTRIBUTEID_SM_INSTANTANEOUS_DEMAND

/--
The last report is a demand of the plug. What has been reported last for the other attributes is `x`.
-/
structure Delivered (plug : UInt64) (reports : List Report) (x : Metering) (demand : Int) : Prop where
  last : ∃ before r, reports = before ++ [r] ∧ IsDemand plug r
  demand : lastData reports E_ZB_ATTRIBUTEID_SM_INSTANTANEOUS_DEMAND = some (.ofInt demand)
  type : lastData reports E_ZB_ATTRIBUTEID_SM_METERING_DEVICE_TYPE = some E_CLD_SM_MDT_ELECTRIC
  unit : lastData reports E_ZB_ATTRIBUTEID_SM_UNIT_OF_MEASURE = some x.unitOfMeasure
  multiplier : lastData reports E_ZB_ATTRIBUTEID_SM_MULTIPLIER = some (.ofNat x.eMultiplier)
  divisor : lastData reports E_ZB_ATTRIBUTEID_SM_DIVISOR = some (.ofNat x.eDivisor)
  summation : lastData reports E_ZB_ATTRIBUTEID_SM_CURRENT_SUMMATION_DELIVERED
    = some (.ofNat x.eSummationDelivered)

theorem lastData_append (reports : List Report) (r : Report) (u16AttributeID : UInt16)
    : lastData (reports ++ [r]) u16AttributeID
        = if r.u16AttributeID = u16AttributeID then some r.u64Data
          else lastData reports u16AttributeID := by
  rw [lastData, List.reverse_append, List.reverse_singleton, List.singleton_append,
    List.find?_cons]
  by_cases h : r.u16AttributeID = u16AttributeID
  . rw [if_pos h, decide_eq_true h]
    rfl
  . rw [if_neg h, decide_eq_false h]
    rfl

theorem lastValues_append (reports : List Report) (r : Report)
    : lastValues (reports ++ [r]) = (lastValues reports).assign r.u16AttributeID r.u64Data := by
  rw [lastValues, List.foldl_append]
  rfl

theorem lastValues_eq (reports : List Report)
    : lastValues reports
        = { eSummationDelivered :=
              (lastData reports E_ZB_ATTRIBUTEID_SM_CURRENT_SUMMATION_DELIVERED).elim 0 extended
            eInstantaneousDemand :=
              (lastData reports E_ZB_ATTRIBUTEID_SM_INSTANTANEOUS_DEMAND).elim 0 extended
            eMeteringDeviceType :=
              (lastData reports E_ZB_ATTRIBUTEID_SM_METERING_DEVICE_TYPE).elim (-1) extended
            eUnitOfMeasure :=
              (lastData reports E_ZB_ATTRIBUTEID_SM_UNIT_OF_MEASURE).elim (-1) extended
            eMultiplier := (lastData reports E_ZB_ATTRIBUTEID_SM_MULTIPLIER).elim 0 extended
            eDivisor := (lastData reports E_ZB_ATTRIBUTEID_SM_DIVISOR).elim 0 extended } := by
  induction reports using List.reverseRecOn with
  | nil => rfl
  | append_singleton reports r ih =>
    rw [lastValues_append, ih]
    simp only [lastData_append]
    by_cases htype : r.u16AttributeID = E_ZB_ATTRIBUTEID_SM_METERING_DEVICE_TYPE
    . rw [htype]
      rfl
    by_cases hunit : r.u16AttributeID = E_ZB_ATTRIBUTEID_SM_UNIT_OF_MEASURE
    . rw [hunit]
      rfl
    by_cases hmultiplier : r.u16AttributeID = E_ZB_ATTRIBUTEID_SM_MULTIPLIER
    . rw [hmultiplier]
      rfl
    by_cases hdivisor : r.u16AttributeID = E_ZB_ATTRIBUTEID_SM_DIVISOR
    . rw [hdivisor]
      rfl
    by_cases hsummation : r.u16AttributeID = E_ZB_ATTRIBUTEID_SM_CURRENT_SUMMATION_DELIVERED
    . rw [hsummation]
      rfl
    by_cases hdemand : r.u16AttributeID = E_ZB_ATTRIBUTEID_SM_INSTANTANEOUS_DEMAND
    . rw [hdemand]
      rfl
    rw [Meter.assign, if_neg htype, if_neg hunit, if_neg hmultiplier, if_neg hdivisor,
      if_neg hsummation, if_neg hdemand]
    simp only [if_neg htype, if_neg hunit, if_neg hmultiplier, if_neg hdivisor, if_neg hsummation,
      if_neg hdemand]

theorem Delivered.lastValues_eq {plug : UInt64} {reports : List Report} {x : Metering} {demand : Int}
    (h : Delivered plug reports x demand)
    : lastValues reports = x.meter demand := by
  rw [Plug.lastValues_eq, h.demand, h.type, h.unit, h.multiplier, h.divisor, h.summation]
  rfl

theorem asInt_eq (value : UInt64) : (asInt value).toInt = Int.bmod value.toNat (2 ^ 32) := by
  have hlow : value.toUInt32.toNat = value.toNat % 2 ^ 32 := UInt64.toNat_toUInt32 value
  rw [asInt, toInt32_toInt, hlow]
  simp only [Int.bmod_def]
  omega

theorem extended_toNat (value : UInt64)
    : ((extended value).toNat : Int) = Int.bmod value.toNat (2 ^ 32) % 2 ^ 64 := by
  rw [extended, toUInt64_toNat, Int32.toInt_toInt64, asInt_eq]

/--
The sign of the lower half is repeated in the upper one.
-/
theorem extended_ofNat_eq {n : Nat} (h : n < 2 ^ 48)
    : (extended (.ofNat n)).toNat
        = if n % 2 ^ 32 < 2 ^ 31 then n % 2 ^ 32 else 2 ^ 64 - 2 ^ 32 + n % 2 ^ 32 := by
  have hvalue : (UInt64.ofNat n).toNat = n :=
    UInt64.toNat_ofNat_of_lt' (Nat.lt_trans h (by decide))
  have hextended := extended_toNat (.ofNat n)
  rw [hvalue, Int.bmod_def] at hextended
  split <;> omega

theorem extended_ofNat {n : Nat} (h : n < 2 ^ 31) : (extended (.ofNat n)).toNat = n := by
  have hlow : n % 2 ^ 32 = n := Nat.mod_eq_of_lt (Nat.lt_trans h (by decide))
  rw [extended_ofNat_eq (Nat.lt_trans h (by decide)), hlow, if_pos h]

theorem extended_ofInt {v : Int} (h : -2 ^ 31 ≤ v ∧ v < 2 ^ 31)
    : ((extended (.ofInt v)).toNat : Int) = v % 2 ^ 64 := by
  have hvalue : ((UInt64.ofInt v).toNat : Int) = v % 2 ^ 64 := eq_ofInt_iff.mp rfl
  rw [extended_toNat, hvalue, Int.bmod_def]
  omega

/--
The product wraps, and what does not fit an `int` is cut off.
-/
theorem scaled_toInt (m : Meter) (value : UInt64)
    : (asInt (m.scaled value)).toInt
        = max 0 (Int.bmod ((value.toNat * m.eMultiplier.toNat * 1000 % 2 ^ 64 / m.eDivisor.toNat : Nat))
            (2 ^ 32)) := by
  have hquotient : (value * m.eMultiplier * 1000 / m.eDivisor).toNat
      = value.toNat * m.eMultiplier.toNat * 1000 % 2 ^ 64 / m.eDivisor.toNat := by
    rw [UInt64.toNat_div, UInt64.toNat_mul, UInt64.toNat_mul, Nat.mod_mul_mod]
    rfl
  have hint := asInt_eq (value * m.eMultiplier * 1000 / m.eDivisor)
  rw [hquotient] at hint
  rw [Meter.scaled, ← hint]
  split
  . next hneg => exact (max_eq_left hneg.le).symm
  . next hpos => exact (max_eq_right (Int.not_lt.mp hpos)).symm

/--
What the loop over the digits makes of a digit.
-/
def readDigit (digit : Nat) : Nat := if 9 < digit then 0 else digit

def weight (i : Nat) : Nat := if i = 0 then 1 else i * 10

theorem digit_toNat (eSummationDelivered : UInt64) {i : Nat} (hi : i < 12)
    : ((eSummationDelivered >>> (i * 4).toUInt64) &&& 0xF).toNat
        = Bcd.digit eSummationDelivered.toNat i := by
  have hshift : (i * 4).toUInt64.toNat % 64 = i * 4 := by
    have hle : i * 4 < 2 ^ 64 := by omega
    rw [Nat.toUInt64, UInt64.toNat_ofNat_of_lt' hle, Nat.mod_eq_of_lt (by omega)]
  have hpow : 2 ^ (i * 4) = 16 ^ i := by rw [Nat.mul_comm, Nat.pow_mul]
  rw [UInt64.toNat_and, UInt64.toNat_shiftRight, hshift, Nat.shiftRight_eq_div_pow, hpow]
  exact Nat.and_two_pow_sub_one_eq_mod _ 4

theorem readDigit_le (digit : Nat) : readDigit digit ≤ 9 := by
  unfold readDigit
  split
  . exact Nat.zero_le 9
  . omega

/--
One pass of the loop.
-/
def addDigit (eSummationDelivered eSumDeliv : UInt64) (i : Nat) : UInt64 :=
  let digit := (eSummationDelivered >>> (i * 4).toUInt64) &&& 0xF
  let digit := if 9 < digit then 0 else digit
  if i = 0 then eSumDeliv + digit else eSumDeliv + digit * (i * 10).toUInt64

theorem addDigit_toNat (eSummationDelivered : UInt64) {eSumDeliv : UInt64} {i : Nat}
    (hle : eSumDeliv.toNat ≤ i * 1080) (hi : i < 12)
    : (addDigit eSummationDelivered eSumDeliv i).toNat
        = eSumDeliv.toNat + readDigit (Bcd.digit eSummationDelivered.toNat i) * weight i := by
  have hnine := readDigit_le (Bcd.digit eSummationDelivered.toNat i)
  have hread : (if (9 : UInt64) < (eSummationDelivered >>> (i * 4).toUInt64) &&& 0xF then 0
        else (eSummationDelivered >>> (i * 4).toUInt64) &&& 0xF).toNat
      = readDigit (Bcd.digit eSummationDelivered.toNat i) := by
    rw [readDigit, ← digit_toNat _ hi, apply_ite UInt64.toNat]
    rfl
  have hweight : (i * 10).toUInt64.toNat = i * 10 := by
    have hlt : i * 10 < 2 ^ 64 := by omega
    exact UInt64.toNat_ofNat_of_lt' hlt
  have hmul : readDigit (Bcd.digit eSummationDelivered.toNat i) * (i * 10) ≤ 9 * (12 * 10) :=
    Nat.mul_le_mul hnine (by omega)
  simp only [addDigit, weight]
  split
  . rw [UInt64.toNat_add, hread, Nat.mul_one, Nat.mod_eq_of_lt (by omega)]
  . rw [UInt64.toNat_add, UInt64.toNat_mul, hread, hweight, Nat.mod_eq_of_lt (a := _ * _) (by omega),
      Nat.mod_eq_of_lt (by omega)]

theorem bcdDigits_toNat (eSummationDelivered : UInt64)
    : (bcdDigits eSummationDelivered).toNat
        = ∑ i ∈ range 12, readDigit (Bcd.digit eSummationDelivered.toNat i) * weight i := by
  -- No sum of digits wraps.
  suffices h : ∀ n ≤ 12,
      ((List.range n).foldl (addDigit eSummationDelivered) 0).toNat
        = ∑ i ∈ range n, readDigit (Bcd.digit eSummationDelivered.toNat i) * weight i
      ∧ ((List.range n).foldl (addDigit eSummationDelivered) 0).toNat ≤ n * 1080 from
    (h 12 (Nat.le_refl 12)).1
  intro n
  induction n with
  | zero => exact fun _ => ⟨rfl, Nat.le_refl 0⟩
  | succ n ih =>
    intro hn
    obtain ⟨hsum, hle⟩ := ih (by omega)
    have hadd := addDigit_toNat eSummationDelivered hle hn
    have hterm : readDigit (Bcd.digit eSummationDelivered.toNat n) * weight n ≤ 9 * (12 * 10) := by
      apply Nat.mul_le_mul (readDigit_le _)
      unfold weight
      split <;> omega
    rw [List.range_succ, List.foldl_append, List.foldl_cons, List.foldl_nil, sum_range_succ, hadd]
    exact ⟨by rw [hsum], by omega⟩

/--
The weights of the digits that are in an `int`.
-/
def kept (i : Nat) : Nat := if i < 8 then weight i else 0

def counted (summation : Nat) : Nat := ∑ i ∈ range 12, Bcd.digit summation i * kept i

/--
The digits of a sign that has been extended are no decimal ones.
-/
theorem bcdDigits_extended {summation : Nat} (hlt : summation < 2 ^ 48)
    (hvalid : Bcd.Valid summation)
    : (bcdDigits (extended (.ofNat summation))).toNat = counted summation := by
  have hextended := extended_ofNat_eq hlt
  rw [bcdDigits_toNat, counted]
  generalize (extended (.ofNat summation)).toNat = e at hextended
  have hlow : e % 16 ^ 8 = summation % 16 ^ 8 := by
    split at hextended <;> omega
  have hhigh : e / 16 ^ 8 = 0 ∨ e / 16 ^ 8 = 2 ^ 32 - 1 := by
    split at hextended <;> omega
  apply sum_congr rfl
  intro i hi
  have hi : i < 12 := mem_range.mp hi
  by_cases hlt : i < 8
  . have hdigit : Bcd.digit e i = Bcd.digit summation i := by
      rw [← Bcd.digit_mod e hlt, hlow, Bcd.digit_mod _ hlt]
    rw [kept, if_pos hlt, hdigit, readDigit, if_neg (Nat.not_lt.mpr (hvalid.digit_le i))]
  . have hones : ∀ j < 4, readDigit ((2 ^ 32 - 1) / 16 ^ j % 16) = 0 := by
      decide
    have hread : readDigit (Bcd.digit e i) = 0 := by
      obtain ⟨j, rfl⟩ := Nat.exists_eq_add_of_le (Nat.not_lt.mp hlt)
      rw [Bcd.digit, Nat.pow_add, ← Nat.div_div_eq_div_mul]
      cases hhigh with
      | inl hzero =>
        rw [hzero, Nat.zero_div]
        rfl
      | inr hsign =>
        rw [hsign]
        exact hones j (by omega)
    rw [kept, if_neg hlt, hread, Nat.zero_mul, Nat.mul_zero]

theorem kept_le : ∀ i < 12, kept i ≤ 10 ^ i := by
  decide

theorem counted_le_value {summation : Nat} (hlt : summation < 2 ^ 48)
    : counted summation ≤ Bcd.value summation :=
  Bcd.sum_le_value hlt kept_le

theorem counted_le {summation : Nat} (hvalid : Bcd.Valid summation) : counted summation ≤ 2529 :=
  calc
    counted summation ≤ ∑ i ∈ range 12, 9 * kept i :=
      sum_le_sum fun i _ => Nat.mul_le_mul_right _ (hvalid.digit_le i)
    _ = 2529 := by decide

/--
The second digit is the last one that counts with its power of ten.
-/
theorem counted_eq_value_iff {summation : Nat} (hlt : summation < 2 ^ 48)
    : counted summation = Bcd.value summation ↔ summation < 0x100 := by
  have hweights : ∀ i < 12, kept i = 10 ^ i ↔ i < 2 := by
    decide
  have hsmall := Bcd.lt_iff_digit_eq_zero (n := summation) (j := 2) (k := 12) hlt
  rw [counted, Bcd.sum_eq_value_iff hlt kept_le]
  constructor
  . intro h
    apply hsmall.mpr
    intro i hi hi'
    exact (h i hi').resolve_left fun hweight => absurd ((hweights i hi').mp hweight) (by omega)
  . intro h i hi
    by_cases hi' : i < 2
    . exact .inl ((hweights i hi).mpr hi')
    . exact .inr (hsmall.mp h i (Nat.not_lt.mp hi') hi)

namespace Metering

/--
What the code multiplies.
-/
def read (x : Metering) : Nat :=
  if x.bcd then counted x.eSummationDelivered else (extended (.ofNat x.eSummationDelivered)).toNat

/--
An `int` of what is left of a product of 64 bits.
-/
def cut (x : Metering) (value : Nat) : Int :=
  max 0 (Int.bmod ((value * x.eMultiplier * 1000 % 2 ^ 64 / x.eDivisor : Nat)) (2 ^ 32))

theorem Valid.reading_eq {x : Metering} (h : x.Valid) (demand : Int)
    : (x.meter demand).reading
        = some (x.cut (extended (.ofInt demand)).toNat, x.cut x.read) := by
  have hmultiplier : (x.meter demand).eMultiplier.toNat = x.eMultiplier :=
    extended_ofNat (Nat.lt_trans h.multiplier.2 (by decide))
  have hdivisor : (x.meter demand).eDivisor.toNat = x.eDivisor :=
    extended_ofNat (Nat.lt_trans h.divisor.2 (by decide))
  have hscaled (value : UInt64)
      : (asInt ((x.meter demand).scaled value)).toInt = x.cut value.toNat := by
    rw [scaled_toInt, hmultiplier, hdivisor]
    rfl
  have hmultiplier_ne : (x.meter demand).eMultiplier ≠ 0 := by
    intro hzero
    rw [hzero] at hmultiplier
    exact absurd hmultiplier h.multiplier.1.ne
  have hdivisor_ne : (x.meter demand).eDivisor ≠ 0 := by
    intro hzero
    rw [hzero] at hdivisor
    exact absurd hdivisor h.divisor.1.ne
  have htype : (x.meter demand).eMeteringDeviceType = E_CLD_SM_MDT_ELECTRIC := rfl
  have hpower : (x.meter demand).eInstantaneousDemand = extended (.ofInt demand) := rfl
  rw [Meter.reading, htype, if_neg hmultiplier_ne, if_neg hdivisor_ne, read]
  simp only [hscaled, hpower]
  cases hbcd : x.bcd with
  | false =>
    have hunit : (x.meter demand).eUnitOfMeasure = E_CLD_SM_UOM_KILO_WATTS := by
      rw [meter, unitOfMeasure, hbcd]
      rfl
    rw [hunit, if_pos ⟨trivial, .inl rfl⟩]
    rfl
  | true =>
    have hunit : (x.meter demand).eUnitOfMeasure = E_CLD_SM_UOM_KILO_WATTS_BCD := by
      rw [meter, unitOfMeasure, hbcd]
      rfl
    rw [hunit, if_pos ⟨trivial, .inr rfl⟩, if_pos rfl, ← bcdDigits_extended h.summation (h.digits hbcd)]
    rfl

theorem bmod_of_lt {quotient : Nat} (h : quotient < 2 ^ 31)
    : max 0 (Int.bmod quotient (2 ^ 32)) = quotient := by
  rw [Int.bmod_def]
  omega

theorem bmod_le_zero_iff (quotient : Nat)
    : max 0 (Int.bmod quotient (2 ^ 32)) = 0
        ↔ quotient % 2 ^ 32 = 0 ∨ 2 ^ 31 ≤ quotient % 2 ^ 32 := by
  rw [Int.bmod_def]
  omega

theorem cut_eq {x : Metering} {value : Nat} (hdivisor : x.eDivisor < 2 ^ 24) (hpos : 0 < x.eDivisor)
    (hfits : value * x.eMultiplier * 1000 / x.eDivisor < 2 ^ 31)
    : x.cut value = (value * x.eMultiplier * 1000 / x.eDivisor : Nat) := by
  have hlt := (Nat.div_lt_iff_lt_mul hpos).mp hfits
  unfold cut
  generalize value * x.eMultiplier * 1000 = product at *
  have hproduct : product % 2 ^ 64 = product := Nat.mod_eq_of_lt (by omega)
  rw [hproduct]
  exact bmod_of_lt hfits

theorem cut_eq_zero_iff (x : Metering) {demand : Int} {value : Nat}
    (hvalue : (value : Int) = demand % 2 ^ 64) (hpos : 0 < x.eDivisor)
    : x.cut value = 0
        ↔ demand * x.eMultiplier * 1000 % 2 ^ 64 % (x.eDivisor * 2 ^ 32) < x.eDivisor
          ∨ x.eDivisor * 2 ^ 31 ≤ demand * x.eMultiplier * 1000 % 2 ^ 64 % (x.eDivisor * 2 ^ 32) := by
  have hproduct : ((value * x.eMultiplier * 1000 % 2 ^ 64 : Nat) : Int)
      = demand * x.eMultiplier * 1000 % 2 ^ 64 := by
    simp only [Int.natCast_emod, Int.natCast_mul, hvalue]
    exact ((Int.mod_modEq demand _).mul_right _).mul_right _
  have hrest (product : Nat)
      : product / x.eDivisor % 2 ^ 32 = product % (x.eDivisor * 2 ^ 32) / x.eDivisor :=
    (Nat.mod_mul_right_div_self _ _ _).symm
  unfold cut
  rw [← hproduct]
  generalize value * x.eMultiplier * 1000 % 2 ^ 64 = product
  have hcast : (product : Int) % (x.eDivisor * 2 ^ 32) = (product % (x.eDivisor * 2 ^ 32) : Nat) :=
    (Int.natCast_emod _ _).symm
  have hzero : product % (x.eDivisor * 2 ^ 32) / x.eDivisor = 0
      ↔ product % (x.eDivisor * 2 ^ 32) < x.eDivisor :=
    Nat.div_eq_zero_iff_lt hpos
  have hhalf : 2 ^ 31 ≤ product % (x.eDivisor * 2 ^ 32) / x.eDivisor
      ↔ 2 ^ 31 * x.eDivisor ≤ product % (x.eDivisor * 2 ^ 32) :=
    Nat.le_div_iff_mul_le hpos
  rw [bmod_le_zero_iff, hrest, hzero, hhalf, hcast]
  omega

/--
A summation in 31 bits or one of two BCD digits. A binary one of 46 bits can be too large to fit with
any divisor.
-/
def Countable (bcd : Bool) (summation : Nat) : Prop :=
  if bcd then
    summation < 0x100
  else
    summation < 2 ^ 31 ∨ 2 ^ 31 * (2 ^ 24 - 1) ≤ 1000 * summation

theorem Valid.cut_read {x : Metering} (h : x.Valid) (hfits : x.Fits)
    (hcountable : Countable x.bcd x.eSummationDelivered)
    : x.cut x.read = x.energy := by
  have hread : x.read = x.units := by
    unfold read units
    unfold Countable at hcountable
    split
    . next hbcd =>
      rw [if_pos hbcd] at hcountable
      exact (counted_eq_value_iff h.summation).mpr hcountable
    . next hbcd =>
      rw [if_neg hbcd] at hcountable
      cases hcountable with
      | inl hlt => exact extended_ofNat hlt
      | inr hlarge =>
        have hunits : x.units = x.eSummationDelivered := if_neg hbcd
        have hlt := (Nat.div_lt_iff_lt_mul h.divisor.1).mp hfits
        rw [hunits] at hlt
        have hone : x.eSummationDelivered ≤ x.eSummationDelivered * x.eMultiplier :=
          Nat.le_mul_of_pos_right _ h.multiplier.1
        have hdivisor := h.divisor.2
        omega
  rw [energy, ← hread]
  apply cut_eq h.divisor.2 h.divisor.1
  rw [hread]
  exact hfits

theorem valid_of_divisor {bcd : Bool} {summation eDivisor : Nat} (hlt : summation < 2 ^ 48)
    (hvalid : bcd = true → Bcd.Valid summation) (hdivisor : 0 < eDivisor ∧ eDivisor < 2 ^ 24)
    : Valid ⟨bcd, summation, 1, eDivisor⟩ :=
  ⟨hlt, hvalid, show 0 < 1 ∧ 1 < 2 ^ 24 by decide, hdivisor⟩

theorem div_lt_div {a b n : Nat} (hpos : 0 < n) (h : a + n ≤ b) : a / n < b / n :=
  calc
    a / n < a / n + 1 := Nat.lt_succ_self _
    _ = (a + n) / n := (Nat.add_div_right a hpos).symm
    _ ≤ b / n := Nat.div_le_div_right h

theorem cut_negative_le {t eDivisor : Nat} (hdivisor : eDivisor = 2 ^ 24 - 1) (ht : t ≤ 2 ^ 31)
    : max 0 (Int.bmod ((2 ^ 64 - t * 1000) / eDivisor : Nat) (2 ^ 32)) ≤ 2 ^ 16 := by
  have hpos : 0 < eDivisor := by omega
  have hle : (2 ^ 64 - t * 1000) / eDivisor < 2 ^ 40 + 2 ^ 16 + 1 := by
    rw [Nat.div_lt_iff_lt_mul hpos]
    omega
  have hge : 2 ^ 40 - 2 ^ 31 ≤ (2 ^ 64 - t * 1000) / eDivisor := by
    rw [Nat.le_div_iff_mul_le hpos]
    omega
  generalize (2 ^ 64 - t * 1000) / eDivisor = quotient at hle hge ⊢
  have hcut : quotient % 2 ^ 32 ≤ 2 ^ 16 ∨ 2 ^ 31 ≤ quotient % 2 ^ 32 := by omega
  rw [Int.bmod_def]
  omega

/--
With the largest divisor a large summation can fit, but it is not what is stored.
-/
theorem cut_read_ne_binary {summation eDivisor : Nat} (hdivisor : eDivisor = 2 ^ 24 - 1)
    (hlarge : 2 ^ 31 ≤ summation) (hfits : 1000 * summation < 2 ^ 31 * (2 ^ 24 - 1))
    : let x : Metering := ⟨false, summation, 1, eDivisor⟩
      x.Fits ∧ x.cut x.read ≠ x.energy := by
  have hpos : 0 < eDivisor := by omega
  have hextended := extended_ofNat_eq (n := summation) (by omega)
  constructor
  . show summation * 1 * 1000 / eDivisor < 2 ^ 31
    rw [Nat.div_lt_iff_lt_mul hpos]
    omega
  show max 0 (Int.bmod (((extended (.ofNat summation)).toNat * 1 * 1000 % 2 ^ 64 / eDivisor : Nat))
    (2 ^ 32)) ≠ ((summation * 1 * 1000 / eDivisor : Nat) : Int)
  rw [hextended]
  split
  . next hsign =>
    have hproduct : summation % 2 ^ 32 * 1 * 1000 % 2 ^ 64 = summation % 2 ^ 32 * 1000 := by omega
    have hless : summation % 2 ^ 32 * 1000 / eDivisor < summation * 1 * 1000 / eDivisor :=
      div_lt_div hpos (by omega)
    have hsmall : summation % 2 ^ 32 * 1000 / eDivisor < 2 ^ 31 := by
      rw [Nat.div_lt_iff_lt_mul hpos]
      omega
    rw [hproduct, bmod_of_lt hsmall]
    omega
  . next hsign =>
    have hproduct : (2 ^ 64 - 2 ^ 32 + summation % 2 ^ 32) * 1 * 1000 % 2 ^ 64
        = 2 ^ 64 - (2 ^ 32 - summation % 2 ^ 32) * 1000 := by
      omega
    have hstored : 2 ^ 16 + 1 ≤ summation * 1 * 1000 / eDivisor := by
      rw [Nat.le_div_iff_mul_le hpos]
      omega
    have hcut := cut_negative_le hdivisor (show 2 ^ 32 - summation % 2 ^ 32 ≤ 2 ^ 31 by omega)
    rw [hproduct]
    omega

theorem cut_read_ne_bcd {summation eDivisor : Nat} (hlt : summation < 2 ^ 48)
    (hvalid : Bcd.Valid summation) (hlarge : 0x100 ≤ summation)
    (hdivisor : eDivisor = if Bcd.value summation < 2 ^ 31 then 1000 else 2 ^ 24 - 1)
    : let x : Metering := ⟨true, summation, 1, eDivisor⟩
      x.Fits ∧ x.cut x.read ≠ x.energy := by
  have hless : counted summation < Bcd.value summation := by
    apply Nat.lt_of_le_of_ne (counted_le_value hlt)
    intro heq
    exact absurd ((counted_eq_value_iff hlt).mp heq) (Nat.not_lt.mpr hlarge)
  have hvalue : Bcd.value summation < 10 ^ 12 := hvalid.value_lt hlt
  have hbound : 0 < eDivisor ∧ eDivisor < 2 ^ 24 := by
    rw [hdivisor]
    split <;> decide
  have hfits : Bcd.value summation * 1 * 1000 / eDivisor < 2 ^ 31 := by
    rw [Nat.div_lt_iff_lt_mul hbound.1]
    split at hdivisor <;> omega
  have hquotient : counted summation * 1 * 1000 / eDivisor
      < Bcd.value summation * 1 * 1000 / eDivisor := by
    have hsum := counted_le hvalid
    apply div_lt_div hbound.1
    split at hdivisor <;> omega
  have hcut : cut ⟨true, summation, 1, eDivisor⟩ (counted summation)
      = (counted summation * 1 * 1000 / eDivisor : Nat) :=
    cut_eq hbound.2 hbound.1 (Nat.lt_trans hquotient hfits)
  refine ⟨hfits, ?_⟩
  show cut ⟨true, summation, 1, eDivisor⟩ (counted summation)
    ≠ ((Bcd.value summation * 1 * 1000 / eDivisor : Nat) : Int)
  rw [hcut]
  omega

end Metering

theorem stored_isSome {db : Db} (hindexed : Indexed db) {plug : UInt64}
    (hplug : (stored db plug).isSome) (reports : List Report)
    : (stored (exec step { db } reports).db plug).isSome := by
  induction reports using List.reverseRecOn with
  | nil => exact hplug
  | append_singleton reports r ih =>
    rw [stored_exec_append hindexed]
    split
    . rwa [Option.isSome_map]
    . exact ih

/--
What is stored for a plug after its demand has been handled
-/
theorem Delivered.stored_eq {db : Db} (hindexed : Indexed db) {plug : UInt64}
    (hplug : (stored db plug).isSome) {reports : List Report} {x : Metering} {demand : Int}
    (h : Delivered plug reports x demand) (hvalid : x.Valid)
    : stored (exec step { db } reports).db plug
        = some (x.cut (extended (.ofInt demand)).toNat, x.cut x.read) := by
  have hvalues := h.lastValues_eq
  obtain ⟨before, r, rfl, hplugr, hdemand⟩ := h.last
  obtain ⟨reading, hreading⟩ := Option.isSome_iff_exists.mp (stored_isSome hindexed hplug before)
  rw [stored_exec_append hindexed, if_pos ⟨hplugr, hdemand⟩, hvalues, hvalid.reading_eq, hreading]
  rfl

/--
A report of a plug with its demand as the last attribute
-/
def deliver (plug : UInt64) (clock : Clock) (x : Metering) (demand : Int) : List Report :=
  [⟨plug, E_ZB_ATTRIBUTEID_SM_METERING_DEVICE_TYPE, E_CLD_SM_MDT_ELECTRIC, clock⟩,
    ⟨plug, E_ZB_ATTRIBUTEID_SM_UNIT_OF_MEASURE, x.unitOfMeasure, clock⟩,
    ⟨plug, E_ZB_ATTRIBUTEID_SM_MULTIPLIER, .ofNat x.eMultiplier, clock⟩,
    ⟨plug, E_ZB_ATTRIBUTEID_SM_DIVISOR, .ofNat x.eDivisor, clock⟩,
    ⟨plug, E_ZB_ATTRIBUTEID_SM_CURRENT_SUMMATION_DELIVERED, .ofNat x.eSummationDelivered, clock⟩,
    ⟨plug, E_ZB_ATTRIBUTEID_SM_INSTANTANEOUS_DEMAND, .ofInt demand, clock⟩]

theorem delivered_deliver (plug : UInt64) (clock : Clock) (x : Metering) (demand : Int)
    : Delivered plug (deliver plug clock x demand) x demand where
  last := ⟨(deliver plug clock x demand).take 5, _, rfl, rfl, rfl⟩
  demand := rfl
  type := rfl
  unit := rfl
  multiplier := rfl
  divisor := rfl
  summation := rfl

/--
With every multiplier and divisor, the sum is right if it fits.
-/
def Metered (db : Db) (plug : UInt64) (bcd : Bool) (eSummationDelivered : Nat) : Prop :=
  ∀ reports eMultiplier eDivisor demand,
    let x : Metering := { bcd, eSummationDelivered, eMultiplier, eDivisor }
    Delivered plug reports x demand → x.Valid → x.Fits →
      (stored (exec step { db } reports).db plug).map Prod.snd = some (x.energy : Int)

theorem metered_iff {db : Db} (hindexed : Indexed db) {plug : UInt64}
    (hplug : (stored db plug).isSome) {bcd : Bool} {eSummationDelivered : Nat}
    (hlt : eSummationDelivered < 2 ^ 48) (hvalid : bcd = true → Bcd.Valid eSummationDelivered)
    : Metered db plug bcd eSummationDelivered ↔ Metering.Countable bcd eSummationDelivered := by
  constructor
  . intro h
    have hall (eDivisor : Nat) (hdivisor : 0 < eDivisor ∧ eDivisor < 2 ^ 24)
        : let x : Metering := ⟨bcd, eSummationDelivered, 1, eDivisor⟩
          ¬ (x.Fits ∧ x.cut x.read ≠ x.energy) := by
      rintro x ⟨hfits, hne⟩
      have hx : x.Valid := Metering.valid_of_divisor hlt hvalid hdivisor
      have hdelivered := delivered_deliver plug noon x 0
      have hsum := h _ 1 eDivisor 0 hdelivered hx hfits
      rw [hdelivered.stored_eq hindexed hplug hx, Option.map_some] at hsum
      exact hne (Option.some.inj hsum)
    cases bcd with
    | false =>
      by_contra hnot
      have hnot : ¬ (eSummationDelivered < 2 ^ 31
          ∨ 2 ^ 31 * (2 ^ 24 - 1) ≤ 1000 * eSummationDelivered) :=
        hnot
      have hlarge : 2 ^ 31 ≤ eSummationDelivered
          ∧ 1000 * eSummationDelivered < 2 ^ 31 * (2 ^ 24 - 1) := by
        omega
      exact hall _ (by decide) (Metering.cut_read_ne_binary rfl hlarge.1 hlarge.2)
    | true =>
      by_contra hnot
      have hlarge : 0x100 ≤ eSummationDelivered := Nat.not_lt.mp hnot
      refine hall _ ?_ (Metering.cut_read_ne_bcd hlt (hvalid rfl) hlarge rfl)
      split <;> decide
  . intro hcountable reports eMultiplier eDivisor demand x hdelivered hx hfits
    rw [hdelivered.stored_eq hindexed hplug hx, Option.map_some, hx.cut_read hfits hcountable]

/--
The remainders for which the quotient of a product that has wrapped is no positive `int`.
-/
def Metering.NoPower (x : Metering) (demand : Int) : Prop :=
  demand * x.eMultiplier * 1000 % 2 ^ 64 % (x.eDivisor * 2 ^ 32) < x.eDivisor
    ∨ x.eDivisor * 2 ^ 31 ≤ demand * x.eMultiplier * 1000 % 2 ^ 64 % (x.eDivisor * 2 ^ 32)

/--
Whenever the plug reports its demand, the multiplier and the divisor are these, the result fits and
the summation is one that is multiplied rightly. The summation does not fall.
-/
structure Rising (plug : UInt64) (bcd : Bool) (eMultiplier eDivisor : Nat) (run : List Report)
    : Prop where
  delivered : ∀ before r, before ++ [r] <+: run → IsDemand plug r →
    ∃ eSummationDelivered demand,
      let x : Metering := { bcd, eSummationDelivered, eMultiplier, eDivisor }
      Delivered plug (before ++ [r]) x demand ∧ x.Valid ∧ x.Fits
        ∧ Metering.Countable bcd eSummationDelivered
  rising : ∀ reports reports' eSummationDelivered eSummationDelivered' demand demand',
    reports <+: reports' → reports' <+: run →
    Delivered plug reports { bcd, eSummationDelivered, eMultiplier, eDivisor } demand →
    Delivered plug reports'
      { bcd, eSummationDelivered := eSummationDelivered', eMultiplier, eDivisor } demand' →
    eSummationDelivered ≤ eSummationDelivered'

/--
From the first demand of the plug on, its sum does not fall.
-/
def NeverFalls (db : Db) (plug : UInt64) (run : List Report) : Prop :=
  ∀ before r reports, before ++ [r] <+: reports → reports <+: run → IsDemand plug r →
    ∃ sum sum', (stored (exec step { db } (before ++ [r])).db plug).map Prod.snd = some sum
      ∧ (stored (exec step { db } reports).db plug).map Prod.snd = some sum' ∧ sum ≤ sum'

theorem Metering.energy_mono {bcd : Bool} {eMultiplier eDivisor a b : Nat}
    (ha : bcd = true → Bcd.Valid a) (hle : a ≤ b)
    : energy ⟨bcd, a, eMultiplier, eDivisor⟩ ≤ energy ⟨bcd, b, eMultiplier, eDivisor⟩ := by
  have hunits : units ⟨bcd, a, eMultiplier, eDivisor⟩ ≤ units ⟨bcd, b, eMultiplier, eDivisor⟩ := by
    cases bcd with
    | false => exact hle
    | true => exact (ha rfl).value_mono hle
  exact Nat.div_le_div_right (Nat.mul_le_mul_right _ (Nat.mul_le_mul_right _ hunits))

section

variable {db : Db} {plug : UInt64} {bcd : Bool} {eMultiplier eDivisor : Nat} {run : List Report}

/--
The sum is that of the last demand.
-/
theorem exists_last_demand (hindexed : Indexed db) {before : List Report} {r : Report}
    (hdemand : IsDemand plug r) (after : List Report) (hrun : before ++ [r] ++ after <+: run)
    : ∃ before' r', before ++ [r] <+: before' ++ [r'] ∧ before' ++ [r'] <+: run ∧ IsDemand plug r'
        ∧ stored (exec step { db } (before ++ [r] ++ after)).db plug
          = stored (exec step { db } (before' ++ [r'])).db plug := by
  induction after using List.reverseRecOn with
  | nil =>
    rw [List.append_nil] at hrun ⊢
    exact ⟨before, r, List.prefix_rfl, hrun, hdemand, rfl⟩
  | append_singleton after next ih =>
    rw [← List.append_assoc] at hrun ⊢
    have hbefore := (List.prefix_append (before ++ [r] ++ after) [next]).trans hrun
    by_cases hnext : IsDemand plug next
    . exact ⟨before ++ [r] ++ after, next, by simp [List.append_assoc], hrun, hnext, rfl⟩
    . obtain ⟨before', r', hprefix, hrun', hdemand', hstored⟩ := ih hbefore
      refine ⟨before', r', hprefix, hrun', hdemand', ?_⟩
      have hother : ¬ (next.u64IEEEAddress = plug
          ∧ next.u16AttributeID = E_ZB_ATTRIBUTEID_SM_INSTANTANEOUS_DEMAND) :=
        hnext
      rw [stored_exec_append hindexed, if_neg hother, hstored]

theorem Rising.neverFalls (h : Rising plug bcd eMultiplier eDivisor run) (hindexed : Indexed db)
    (hplug : (stored db plug).isSome)
    : NeverFalls db plug run := by
  intro before r reports hprefix hrun hdemand
  obtain ⟨after, rfl⟩ := hprefix
  obtain ⟨before', r', hprefix', hrun', hdemand', hstored⟩ :=
    exists_last_demand hindexed hdemand after hrun
  obtain ⟨a, demand, hdelivered, hvalid, hfits, hcountable⟩ :=
    h.delivered before r (hprefix'.trans hrun') hdemand
  obtain ⟨b, demand', hdelivered', hvalid', hfits', hcountable'⟩ :=
    h.delivered before' r' hrun' hdemand'
  have hle : a ≤ b := h.rising _ _ _ _ _ _ hprefix' hrun' hdelivered hdelivered'
  rw [hstored, hdelivered.stored_eq hindexed hplug hvalid,
    hdelivered'.stored_eq hindexed hplug hvalid', Option.map_some, Option.map_some,
    hvalid.cut_read hfits hcountable, hvalid'.cut_read hfits' hcountable']
  refine ⟨_, _, rfl, rfl, ?_⟩
  exact Int.ofNat_le.mpr (Metering.energy_mono hvalid.digits hle)

end

/--
The sum is right for summations that an `int` holds, or for those of two BCD digits, and a negative
demand is stored as 0 for some remainders only.
-/
theorem plugData_iff {db : Db} {ms : List Mutation} (hreach : db = ms.foldl Mutation.apply Db.init)
    {plug : UInt64} (hplug : (stored db plug).isSome)
    : (∀ bcd eSummationDelivered, eSummationDelivered < 2 ^ 48 →
        (bcd = true → Bcd.Valid eSummationDelivered) →
        (Metered db plug bcd eSummationDelivered
          ↔ Metering.Countable bcd eSummationDelivered))
      ∧ (∀ reports x demand, Delivered plug reports x demand → x.Valid → -2 ^ 31 ≤ demand →
        demand < 0 →
        ((stored (exec step { db } reports).db plug).map Prod.fst = some 0 ↔ x.NoPower demand))
      ∧ ∀ bcd eMultiplier eDivisor run, Rising plug bcd eMultiplier eDivisor run →
        NeverFalls db plug run := by
  have hindexed : Indexed db := hreach ▸ reachable_indexed ms
  refine ⟨?_, ?_, ?_⟩
  . intro bcd eSummationDelivered hlt hvalid
    exact metered_iff hindexed hplug hlt hvalid
  . intro reports x demand hdelivered hvalid hlow hneg
    have hvalue := extended_ofInt ⟨hlow, Int.lt_trans hneg (by decide)⟩
    rw [hdelivered.stored_eq hindexed hplug hvalid, Option.map_some, Option.some_inj]
    exact x.cut_eq_zero_iff hvalue hvalid.divisor.1
  . intro bcd eMultiplier eDivisor run h
    exact h.neverFalls hindexed hplug

/--
The tables with one plug in them
-/
def plugged : Db := [Mutation.newDevice (macOf 0x00158D0000350F30) 1].foldl Mutation.apply Db.init

theorem plugged_isSome : (stored plugged 0x00158D0000350F30).isSome := by
  decide

theorem digits_of_99 : Bcd.Valid 0x99 := by
  intro digit hdigit
  have hdigits : Nat.digits 16 0x99 = [9, 9] := by norm_num
  rw [hdigits] at hdigit
  simp at hdigit
  omega

theorem plugData_plugged
    : Metered plugged 0x00158D0000350F30 true 0x99 ↔ Metering.Countable true 0x99 :=
  (plugData_iff rfl plugged_isSome).1 true 0x99 (by decide) fun _ => digits_of_99

/--
What is stored after the one report of the plug
-/
def storedAfter (x : Metering) (demand : Int) : Option (Int × Int) :=
  stored (exec step { db := plugged } (deliver 0x00158D0000350F30 noon x demand)).db
    0x00158D0000350F30

/--
A sum of 100 in BCD, one of 2 ^ 31 and a demand of -1
-/
theorem plugData_wrong
    : ((⟨true, 0x100, 1, 1000⟩ : Metering).energy = 100
        ∧ storedAfter ⟨true, 0x100, 1, 1000⟩ 0 = some (0, 20))
      ∧ ((⟨false, 2 ^ 31, 1, 2000⟩ : Metering).energy = 1073741824
        ∧ storedAfter ⟨false, 2 ^ 31, 1, 2000⟩ 0 = some (0, 1709396983))
      ∧ storedAfter ⟨false, 5, 1, 1000⟩ (-1) = some (1271310318, 5) := by
  have hvalue : Bcd.value 0x100 = 100 := by
    have hdigits : Nat.digits 16 0x100 = [0, 0, 1] := by norm_num
    rw [Bcd.value, hdigits]
    rfl
  refine ⟨⟨?_, by decide +kernel⟩, ⟨by decide, by decide +kernel⟩, by decide +kernel⟩
  show Bcd.value 0x100 * 1 * 1000 / 1000 = 100
  rw [hvalue]

end ZcbDaemon.Plug
