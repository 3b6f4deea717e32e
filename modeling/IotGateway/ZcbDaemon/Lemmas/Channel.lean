import IotGateway.ZcbDaemon.Impl.Channel

/-!
This module says when the loop finds a channel of the mask.
-/

namespace ZcbDaemon

namespace Channel

variable {mask : Int32} {r i k : Nat}

/--
The bit of pass `i`.
-/
def HasBit (mask : Int32) (r i : Nat) : Prop := mask.toBitVec.getLsbD ((i + r) % 32) = true

theorem addInt_of_le (h : ((i + r : Nat) : Int) ≤ INT_MAX)
    : addInt i r = some ((i + r : Nat) : Int) := by
  have hmin : INT_MIN ≤ ((i + r : Nat) : Int) := Int.le_trans (by decide) (Int.natCast_nonneg _)
  unfold addInt
  rw [← Int.natCast_add, if_pos ⟨hmin, h⟩]

theorem addInt_of_lt (h : INT_MAX < ((i + r : Nat) : Int)) : addInt i r = none := by
  unfold addInt
  rw [← Int.natCast_add, if_neg fun hboth => Int.not_le.mpr h hboth.2]

theorem oneShl_of_lt {bit : Nat} (h : bit < 32) : oneShl bit = some (1#32 <<< bit) := by
  unfold oneShl
  rw [if_pos ⟨Int.natCast_nonneg _, by omega⟩, Int.toNat_natCast]

theorem and_one_ne_zero (bits : BitVec 32) {bit : Nat} (h : bit < 32)
    : bits &&& (1#32 <<< bit) ≠ 0 ↔ bits.getLsbD bit = true := by
  have hand : bits &&& (1#32 <<< bit)
      = if bits.getLsbD bit then BitVec.twoPow 32 bit else 0#32 := BitVec.and_twoPow bits bit
  have hpow : BitVec.twoPow 32 bit ≠ 0#32 := by
    intro hzero
    have hself : (BitVec.twoPow 32 bit).getLsbD bit = true := by
      rw [BitVec.getLsbD_twoPow]
      simp [h]
    rw [hzero, BitVec.getLsbD_zero] at hself
    cases hself
  rw [hand]
  split
  . next hbit => exact iff_of_true hpow hbit
  . next hbit => exact iff_of_false (fun hne => hne rfl) hbit

theorem search_of_le (hi : i < 32) (h : ((i + r : Nat) : Int) ≤ INT_MAX)
    : search mask r i
      = if mask.toBitVec.getLsbD ((i + r) % 32) then
          ⟨[((i + r) % 32 : Nat)], some ((i + r) % 32 : Nat)⟩
        else
          ⟨((i + r) % 32 : Nat) :: (search mask r (i + 1)).bits, (search mask r (i + 1)).chan⟩ := by
  have hbit : (i + r) % 32 < 32 := Nat.mod_lt _ (by decide)
  have hmod : (((i + r : Nat) : Int)).tmod 32 = ((i + r) % 32 : Nat) := rfl
  rw [search, if_pos hi, addInt_of_le h]
  simp only [hmod, oneShl_of_lt hbit, and_one_ne_zero _ hbit]

theorem search_of_lt (hi : i < 32) (h : INT_MAX < ((i + r : Nat) : Int))
    : search mask r i = ⟨[], none⟩ := by
  rw [search, if_pos hi, addInt_of_lt h]

/--
All bit numbers are computed modulo 32.
-/
theorem bits_bounds (mask : Int32) (r i : Nat)
    : ∀ bit ∈ (search mask r i).bits, 0 ≤ bit ∧ bit < 32 := by
  by_cases hi : i < 32
  . by_cases hle : ((i + r : Nat) : Int) ≤ INT_MAX
    . have hbit : 0 ≤ (((i + r) % 32 : Nat) : Int) ∧ (((i + r) % 32 : Nat) : Int) < 32 := by omega
      have hrest := bits_bounds mask r (i + 1)
      rw [search_of_le hi hle]
      split
      . intro bit hmem
        rw [List.mem_singleton.mp hmem]
        exact hbit
      . exact List.forall_mem_cons.mpr ⟨hbit, hrest⟩
    . rw [search_of_lt hi (Int.not_le.mp hle)]
      exact List.forall_mem_nil _
  . rw [search, if_neg hi]
    exact List.forall_mem_nil _
termination_by 32 - i

/--
The passes before the first one with a bit of the mask go on.
-/
theorem search_skip (hik : i ≤ k) (hk : k < 32) (hle : ((k + r : Nat) : Int) ≤ INT_MAX + 1)
    (hclear : ∀ j < k, ¬HasBit mask r j)
    : (search mask r i).chan = (search mask r k).chan := by
  induction hik using Nat.decreasingInduction with
  | self => rfl
  | of_succ i hik ih =>
    have hi : ((i + r : Nat) : Int) ≤ INT_MAX := by omega
    have hnot : ¬mask.toBitVec.getLsbD ((i + r) % 32) = true := hclear i hik
    rw [search_of_le (by omega) hi, if_neg hnot]
    exact ih

theorem exists_bit (hmask : mask ≠ 0) (r : Nat) : ∃ i, i < 32 ∧ HasBit mask r i := by
  have hbit : ∃ bit, bit < 32 ∧ mask.toBitVec.getLsbD bit = true := by
    by_contra hnone
    push Not at hnone
    apply hmask
    apply Int32.toBitVec_inj.mp
    apply BitVec.eq_of_getLsbD_eq
    intro bit hlt
    show _ = (0#32).getLsbD bit
    rw [BitVec.getLsbD_zero]
    exact Bool.eq_false_iff.mpr (hnone bit hlt)
  obtain ⟨bit, hlt, hset⟩ := hbit
  refine ⟨(bit + 32 - r % 32) % 32, Nat.mod_lt _ (by decide), ?_⟩
  have hpass : ((bit + 32 - r % 32) % 32 + r) % 32 = bit := by omega
  unfold HasBit
  rw [hpass]
  exact hset

/--
The first pass with a bit of the mask.
-/
theorem exists_first (hmask : mask ≠ 0) (r : Nat)
    : ∃ i, i < 32 ∧ HasBit mask r i ∧ ∀ j < i, ¬HasBit mask r j := by
  classical
  have hbit := exists_bit hmask r
  refine ⟨Nat.find hbit, (Nat.find_spec hbit).1, (Nat.find_spec hbit).2, ?_⟩
  intro j hj hset
  exact Nat.find_min hbit hj ⟨Nat.lt_trans hj (Nat.find_spec hbit).1, hset⟩

/--
That pass decides, unless the sum leaves the `int`s before it.
-/
theorem search_chan (hk : k < 32) (hset : HasBit mask r k) (hfirst : ∀ j < k, ¬HasBit mask r j)
    (hr : r ≤ RAND_MAX)
    : (search mask r 0).chan
      = if ((k + r : Nat) : Int) ≤ INT_MAX then some (((k + r) % 32 : Nat) : Int) else none := by
  unfold RAND_MAX at hr
  split
  . next hle =>
    have hbit : mask.toBitVec.getLsbD ((k + r) % 32) = true := hset
    rw [search_skip (Nat.zero_le k) hk (by omega) hfirst, search_of_le hk hle, if_pos hbit]
  . next hgt =>
    unfold INT_MAX at hgt
    -- the pass in which the sum is one more than the largest `int`
    have hlast : ((2147483648 - r + r : Nat) : Int) = INT_MAX + 1 := by
      unfold INT_MAX
      omega
    have hbefore : ∀ j < 2147483648 - r, ¬HasBit mask r j := fun j hj => hfirst j (by omega)
    rw [search_skip (Nat.zero_le _) (by omega) (Int.le_of_eq hlast) hbefore,
      search_of_lt (by omega) (by omega)]

/--
The bit numbers are those of an `int`, no sum overflows and the channel is one of the mask.
-/
structure Chosen (mask : Int32) (r : Nat) : Prop where
  bits : ∀ bit ∈ (search mask r 0).bits, 0 ≤ bit ∧ bit < 32
  chan : ∃ chan : Nat, (search mask r 0).chan = some (chan : Int) ∧ chan < 32
    ∧ mask.toBitVec.getLsbD chan = true

/--
The sum cannot overflow, or there is a bit of the mask before it does.
-/
def InReach (mask : Int32) (r : Nat) : Prop :=
  r + 31 ≤ RAND_MAX ∨ ∃ bit, r % 32 ≤ bit ∧ bit < 32 ∧ mask.toBitVec.getLsbD bit = true

theorem inReach_iff (hk : k < 32) (hset : HasBit mask r k) (hfirst : ∀ j < k, ¬HasBit mask r j)
    (hr : r ≤ RAND_MAX)
    : InReach mask r ↔ ((k + r : Nat) : Int) ≤ INT_MAX := by
  unfold InReach RAND_MAX INT_MAX at *
  constructor
  . rintro (hsmall | ⟨bit, hle, hlt, hbit⟩)
    . omega
    . have hpass : (bit - r % 32 + r) % 32 = bit := by omega
      have hfound : HasBit mask r (bit - r % 32) := by
        unfold HasBit
        rw [hpass]
        exact hbit
      have hkbit : k ≤ bit - r % 32 := Nat.le_of_not_lt fun hlt => hfirst _ hlt hfound
      omega
  . intro hle
    by_cases hsmall : r + 31 ≤ 2147483647
    . exact .inl hsmall
    . exact .inr ⟨(k + r) % 32, by omega, Nat.mod_lt _ (by decide), hset⟩

/--
A channel of the mask is chosen exactly if the sum stays an `int` up to it.
-/
theorem chosen_iff (hmask : mask ≠ 0) (hr : r ≤ RAND_MAX) : Chosen mask r ↔ InReach mask r := by
  obtain ⟨k, hk, hset, hfirst⟩ := exists_first hmask r
  have hchan := search_chan hk hset hfirst hr
  rw [inReach_iff hk hset hfirst hr]
  constructor
  . intro hchosen
    obtain ⟨chan, hsome, -, -⟩ := hchosen.chan
    by_contra hgt
    rw [hchan, if_neg hgt] at hsome
    cases hsome
  . intro hle
    rw [if_pos hle] at hchan
    exact ⟨bits_bounds mask r 0, (k + r) % 32, hchan, Nat.mod_lt _ (by decide), hset⟩

theorem chosen_five : Chosen 0x800 5 ↔ InReach 0x800 5 :=
  chosen_iff (by decide) (by decide)

/--
The first sum of the second pass overflows.
-/
theorem not_chosen_randMax : ¬∀ mask r, mask ≠ 0 → r ≤ RAND_MAX → Chosen mask r := by
  intro h
  obtain ⟨chan, hsome, -, -⟩ := (h 1 RAND_MAX (by decide) (Nat.le_refl _)).chan
  have hfirst : search 1 RAND_MAX 0 = ⟨[31], none⟩ := by
    rw [search_of_le (by decide) (by decide), search_of_lt (by decide) (by decide)]
    decide
  rw [hfirst] at hsome
  cases hsome

/--
Within reach it is the channel of the node message.
-/
theorem search_eq_channel (hmask : mask ≠ 0) (hr : r ≤ RAND_MAX) (hreach : InReach mask r)
    : (search mask r 0).chan = some (channel mask r : Int) := by
  obtain ⟨k, hk, hset, hfirst⟩ := exists_first hmask r
  have hfind : (List.range 32).find? (fun i => mask.toBitVec.getLsbD ((i + r) % 32)) = some k := by
    rw [List.find?_range_eq_some]
    refine ⟨hset, List.mem_range.mpr hk, ?_⟩
    intro j hj
    have hclear := hfirst j hj
    unfold HasBit at hclear
    rw [Bool.eq_false_iff.mpr hclear]
    rfl
  have hchannel : channel mask r = (k + r) % 32 := by
    show (((List.range 32).map fun i => (i + r) % 32).find? _).getD 15 = _
    rw [List.find?_map]
    show (((List.range 32).find? fun i => mask.toBitVec.getLsbD ((i + r) % 32)).map _).getD 15 = _
    rw [hfind]
    rfl
  rw [search_chan hk hset hfirst hr, if_pos ((inReach_iff hk hset hfirst hr).mp hreach), hchannel]

end Channel

end ZcbDaemon
