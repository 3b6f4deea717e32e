import IotGateway.Common.Impl.Nibbles
import IotGateway.Lib.Positional
import Mathlib.Data.List.Basic

/-!
This module contains the round trips between bytes, numbers and strings of nibbles.
-/

namespace Nibbles

open Positional

variable {c d : Char} {src : Text} {b : List Int8} {n : Nat} {u64 : UInt64}

def IsNibble (c : Char) : Prop :=
  ('0' ≤ c ∧ c ≤ '9') ∨ ('A' ≤ c ∧ c ≤ 'F') ∨ ('a' ≤ c ∧ c ≤ 'f')

instance decidableIsNibble (c : Char) : Decidable (IsNibble c) :=
  inferInstanceAs (Decidable (_ ∨ _))

/--
What is known of a nibble and its number.
-/
structure Reads (c : Char) : Prop where
  nonneg : 0 ≤ nibble2num c
  lt : nibble2num c < 16
  upper : num2nibble (nibble2num c) = c.toUpper
  notNul : c ≠ '\x00'

instance decidableReads (c : Char) : Decidable (Reads c) :=
  decidable_of_iff
    (0 ≤ nibble2num c ∧ nibble2num c < 16 ∧ num2nibble (nibble2num c) = c.toUpper ∧ c ≠ '\x00')
    ⟨fun h => ⟨h.1, h.2.1, h.2.2.1, h.2.2.2⟩, fun h => ⟨h.1, h.2, h.3, h.4⟩⟩

theorem IsNibble.reads (h : IsNibble c) : Reads c := by
  have hall : ∀ n < 128, IsNibble (Char.ofNat n) → Reads (Char.ofNat n) := by decide
  have hsmall : c.toNat < 128 := by
    unfold IsNibble at h
    simp only [Char.le_def, UInt32.le_iff_toNat_le] at h
    rcases h with ⟨-, h⟩ | ⟨-, h⟩ | ⟨-, h⟩
    . exact Nat.lt_of_le_of_lt h (by decide)
    . exact Nat.lt_of_le_of_lt h (by decide)
    . exact Nat.lt_of_le_of_lt h (by decide)
  have hc := hall c.toNat hsmall
  rw [Char.ofNat_toNat] at hc
  exact hc h

theorem num2nibble_reads {d : Nat} (h : d < 16)
    : nibble2num (num2nibble d) = d ∧ IsNibble (num2nibble d) := by
  have hall : ∀ d < 16, nibble2num (num2nibble (d : Nat)) = (d : Nat)
      ∧ IsNibble (num2nibble (d : Nat)) := by
    decide
  exact hall d h

section Bytes

/--
The bytes of the pairs of nibbles.
-/
def decode : Text → List Int8
  | c :: d :: src => Int8.ofInt (nibble2num c * 2 ^ 4 + nibble2num d) :: decode src
  | _ => []

/--
At an even index the loop starts a byte.
-/
theorem nibbles_eq_decode {i : Nat} {val : Int} (hi : i % 2 = 0) (src : Text)
    : nibbles i val src = decode src := by
  induction src using decode.induct generalizing i val with
  | case1 c d src ih =>
    have heven : i &&& 1 = 0 := by rw [Nat.and_one_is_mod, hi]
    have hodd : (i + 1) &&& 1 ≠ 0 := by
      rw [Nat.and_one_is_mod]
      omega
    rw [nibbles, if_pos heven, nibbles, if_neg hodd, decode]
    dsimp only
    rw [ih (by omega)]
  | case2 src hsrc =>
    cases src with
    | nil => rfl
    | cons c src =>
      cases src with
      | nil =>
        have heven : i &&& 1 = 0 := by rw [Nat.and_one_is_mod, hi]
        rw [nibbles, if_pos heven]
        rfl
      | cons d src => exact absurd rfl (hsrc c d src)

theorem decode_hex2nibblestr (b : List Int8) : decode (hex2nibblestr b) = b := by
  have hall : ∀ bits : BitVec 8,
      decode (hex2nibblestr [Int8.ofBitVec bits]) = [Int8.ofBitVec bits] := by
    decide
  induction b with
  | nil => rfl
  | cons byte b ih =>
    have hfirst : decode (hex2nibblestr [byte]) = [byte] := hall byte.toBitVec
    have happend : decode (hex2nibblestr [byte]) ++ decode (hex2nibblestr b) = [byte] ++ b := by
      rw [hfirst, ih]
    exact happend

theorem length_hex2nibblestr (b : List Int8) : (hex2nibblestr b).length = 2 * b.length := by
  induction b with
  | nil => rfl
  | cons byte b ih =>
    show (hex2nibblestr b).length + 1 + 1 = 2 * (b.length + 1)
    omega

theorem hex2nibblestr_decode (hsrc : ∀ c ∈ src, IsNibble c) (heven : src.length % 2 = 0)
    : hex2nibblestr (decode src) = src.map Char.toUpper := by
  have hall : ∀ c d : Fin 16, hex2nibblestr [Int8.ofInt ((c : Nat) * 2 ^ 4 + (d : Nat))]
      = [num2nibble (c : Nat), num2nibble (d : Nat)] := by
    decide
  have hfin : ∀ c ∈ src, ∃ n : Fin 16, nibble2num c = (n : Nat) := by
    intro c hc
    obtain ⟨hnonneg, hlt, -, -⟩ := (hsrc c hc).reads
    exact ⟨⟨(nibble2num c).toNat, by omega⟩, (Int.toNat_of_nonneg hnonneg).symm⟩
  induction src using decode.induct with
  | case1 c d src ih =>
    have hc := List.mem_cons_self (a := c) (l := d :: src)
    have hd := List.mem_cons_of_mem c (List.mem_cons_self (a := d) (l := src))
    have hrest : ∀ x ∈ src, x ∈ c :: d :: src := fun x hx =>
      List.mem_cons_of_mem c (List.mem_cons_of_mem d hx)
    rw [List.length_cons, List.length_cons] at heven
    have hsplit := ih (fun x hx => hsrc x (hrest x hx)) (by omega)
      (fun x hx => hfin x (hrest x hx))
    obtain ⟨high, hhigh⟩ := hfin c hc
    obtain ⟨low, hlow⟩ := hfin d hd
    have hbyte : hex2nibblestr [Int8.ofInt (nibble2num c * 2 ^ 4 + nibble2num d)]
        = [c.toUpper, d.toUpper] := by
      rw [← (hsrc c hc).reads.upper, ← (hsrc d hd).reads.upper, hhigh, hlow]
      exact hall high low
    have happend : hex2nibblestr [Int8.ofInt (nibble2num c * 2 ^ 4 + nibble2num d)]
        ++ hex2nibblestr (decode src) = [c.toUpper, d.toUpper] ++ src.map Char.toUpper := by
      rw [hbyte, hsplit]
    exact happend
  | case2 src hpair =>
    cases src with
    | nil => rfl
    | cons c src =>
      cases src with
      | nil => simp at heven
      | cons d src => exact absurd rfl (hpair c d src)

theorem nibblestr2hex_hex2nibblestr {dstlen : Int} (dst b : List Int8) (h : b.length ≤ dstlen)
    : nibblestr2hex (some dst) dstlen (some (hex2nibblestr b)) (2 * b.length : Nat)
      = (1, some (List.replicate (dstlen - b.length).toNat 0 ++ b)) := by
  have hhexbytes : ((2 * b.length : Nat) : Int).tdiv 2 = b.length := by
    rw [Int.tdiv_eq_ediv_of_nonneg (by omega)]
    omega
  have hall : (hex2nibblestr b).take ((2 * b.length : Nat) : Int).toNat = hex2nibblestr b := by
    apply List.take_of_length_le
    rw [length_hex2nibblestr]
    omega
  unfold nibblestr2hex
  dsimp only
  rw [hhexbytes, if_neg (by omega), hall, nibbles_eq_decode rfl, decode_hex2nibblestr]

theorem hex2nibblestr_nibblestr2hex (dst : List Int8) (hsrc : ∀ c ∈ src, IsNibble c)
    (heven : src.length % 2 = 0)
    : ∃ bytes, nibblestr2hex (some dst) (src.length / 2 : Nat) (some src) src.length
        = (1, some bytes)
      ∧ hex2nibblestr bytes = src.map Char.toUpper := by
  have hhexbytes : (src.length : Int).tdiv 2 = (src.length / 2 : Nat) := by
    rw [Int.tdiv_eq_ediv_of_nonneg (by omega)]
    omega
  refine ⟨decode src, ?_, hex2nibblestr_decode hsrc heven⟩
  unfold nibblestr2hex
  dsimp only
  rw [hhexbytes, if_neg (by omega), Int.sub_self, Int.toNat_natCast, List.take_length,
    nibbles_eq_decode rfl]
  rfl

end Bytes

section Numbers

theorem writeNibbles_eq (n : Nat) (u64 : UInt64) (written : Text)
    : writeNibbles n u64 written
      = (digits 16 n u64.toNat).map (fun d => num2nibble (d : Nat)) ++ written := by
  induction n generalizing u64 written with
  | zero => rfl
  | succ n ih =>
    have hdiv : (u64 >>> 4).toNat = u64.toNat / 16 := by
      simp [UInt64.toNat_shiftRight, Nat.shiftRight_eq_div_pow]
    have hmod : (u64 &&& 0x0F).toNat = u64.toNat % 16 := by
      rw [UInt64.toNat_and]
      exact Nat.and_two_pow_sub_one_eq_mod u64.toNat 4
    rw [writeNibbles, ih, hdiv, hmod, digits, List.map_append, List.append_assoc]
    rfl

/--
The number of a nibble as a digit.
-/
def digitOf (c : Char) : Nat := (nibble2num c).toNat

theorem ofNat_foldl {v w : Nat} (h : UInt64.ofNat v = UInt64.ofNat w) (ds : List Nat)
    : UInt64.ofNat (ds.foldl (fun v d => v * 16 + d) v)
      = UInt64.ofNat (ds.foldl (fun v d => v * 16 + d) w) := by
  induction ds generalizing v w with
  | nil => exact h
  | cons d ds ih =>
    apply ih
    rw [UInt64.ofNat_add, UInt64.ofNat_mul, h, ← UInt64.ofNat_mul, ← UInt64.ofNat_add]

theorem readNibbles_eq (hsrc : ∀ c ∈ src, IsNibble c) (hlength : src.length ≤ n)
    : readNibbles n src u64
      = UInt64.ofNat ((src.map digitOf).foldl (fun v d => v * 16 + d) u64.toNat) := by
  induction src generalizing n u64 with
  | nil =>
    cases n with
    | zero => simp [readNibbles]
    | succ n => simp [readNibbles]
  | cons c src ih =>
    cases n with
    | zero => simp at hlength
    | succ n =>
      obtain ⟨hnonneg, hlt, -, hnul⟩ := (hsrc c List.mem_cons_self).reads
      have hrest : readNibbles n src ((u64 <<< 4) + UInt64.ofInt (nibble2num c)) = _ :=
        ih (fun d hd => hsrc d (List.mem_cons_of_mem c hd)) (by simpa using hlength)
      rw [readNibbles, if_neg hnul, hrest, List.map_cons, List.foldl_cons]
      apply ofNat_foldl
      have hdigit : UInt64.ofInt (nibble2num c) = UInt64.ofNat (digitOf c) := by
        unfold digitOf UInt64.ofInt
        rw [Int.emod_eq_of_lt hnonneg (by omega)]
      rw [UInt64.ofNat_toNat, hdigit, UInt64.ofNat_add, UInt64.ofNat_mul, UInt64.ofNat_toNat]
      congr 1
      apply UInt64.toNat_inj.mp
      simp [UInt64.toNat_shiftLeft, UInt64.toNat_mul, Nat.shiftLeft_eq]

theorem nibblestr2u64_u642nibblestr (u64 : UInt64) : nibblestr2u64 (u642nibblestr u64) = u64 := by
  have hdigits : ∀ d ∈ digits 16 16 u64.toNat, d < 16 := fun d hd => digits_lt (by decide) hd
  have hsrc : ∀ c ∈ (digits 16 16 u64.toNat).map (fun d => num2nibble (d : Nat)), IsNibble c := by
    intro c hc
    obtain ⟨d, hd, rfl⟩ := List.mem_map.mp hc
    exact (num2nibble_reads (hdigits d hd)).2
  have hback : ((digits 16 16 u64.toNat).map (fun d => num2nibble (d : Nat))).map digitOf
      = digits 16 16 u64.toNat := by
    rw [List.map_map, List.map_congr_left (g := id), List.map_id]
    intro d hd
    show (nibble2num (num2nibble (d : Nat))).toNat = d
    rw [(num2nibble_reads (hdigits d hd)).1, Int.toNat_natCast]
  unfold nibblestr2u64 u642nibblestr
  rw [writeNibbles_eq, List.append_nil, readNibbles_eq hsrc (by simp), hback]
  show UInt64.ofNat (value 16 (digits 16 16 u64.toNat)) = u64
  have hlt : u64.toNat < 16 ^ 16 := u64.toNat_lt
  rw [value_digits, Nat.mod_eq_of_lt hlt, UInt64.ofNat_toNat]

theorem u642nibblestr_nibblestr2u64 (hsrc : ∀ c ∈ src, IsNibble c) (hlength : src.length = 16)
    : u642nibblestr (nibblestr2u64 src) = src.map Char.toUpper := by
  have hdigits : ∀ d ∈ src.map digitOf, d < 16 := by
    intro d hd
    obtain ⟨c, hc, rfl⟩ := List.mem_map.mp hd
    obtain ⟨hnonneg, hlt, -, -⟩ := (hsrc c hc).reads
    unfold digitOf
    omega
  have hlt := value_lt hdigits
  have hback := digits_value hdigits
  rw [List.length_map, hlength] at hlt hback
  unfold nibblestr2u64 u642nibblestr
  rw [writeNibbles_eq, List.append_nil, readNibbles_eq hsrc hlength.le]
  show (digits 16 16 (UInt64.ofNat (value 16 (src.map digitOf))).toNat).map _ = _
  rw [UInt64.toNat_ofNat_of_lt' hlt, hback, List.map_map]
  apply List.map_congr_left
  intro c hc
  obtain ⟨hnonneg, -, hupper, -⟩ := (hsrc c hc).reads
  rw [← hupper]
  show num2nibble ((nibble2num c).toNat : Nat) = _
  rw [Int.toNat_of_nonneg hnonneg]

end Numbers

/--
The round trips of bytes, of strings of nibbles and of numbers.
-/
theorem nibbles_roundTrip {dstlen : Int} (dst b : List Int8) (hdstlen : b.length ≤ dstlen)
    (src : Text) (hsrc : ∀ c ∈ src, IsNibble c) (heven : src.length % 2 = 0) (u64 : UInt64)
    : nibblestr2hex (some dst) dstlen (some (hex2nibblestr b)) (2 * b.length : Nat)
        = (1, some (List.replicate (dstlen - b.length).toNat 0 ++ b))
      ∧ (∃ bytes, nibblestr2hex (some dst) (src.length / 2 : Nat) (some src) src.length
          = (1, some bytes)
        ∧ hex2nibblestr bytes = src.map Char.toUpper)
      ∧ nibblestr2u64 (u642nibblestr u64) = u64
      ∧ (src.length = 16 → u642nibblestr (nibblestr2u64 src) = src.map Char.toUpper) :=
  ⟨nibblestr2hex_hex2nibblestr dst b hdstlen, hex2nibblestr_nibblestr2hex dst hsrc heven,
    nibblestr2u64_u642nibblestr u64, u642nibblestr_nibblestr2u64 hsrc⟩

theorem nibbles_roundTrip_mac
    : nibblestr2hex (some []) 4 (some (hex2nibblestr [-1, 18])) 4 = (1, some [0, 0, -1, 18])
      ∧ (∃ bytes, nibblestr2hex (some []) 8 (some "00158d0000123aBc".toList) 16 = (1, some bytes)
        ∧ hex2nibblestr bytes = "00158D0000123ABC".toList)
      ∧ nibblestr2u64 (u642nibblestr 0xFFFFFFFFFFFFFFFF) = 0xFFFFFFFFFFFFFFFF
      ∧ (16 = 16 → u642nibblestr (nibblestr2u64 "00158d0000123aBc".toList)
        = "00158D0000123ABC".toList) :=
  nibbles_roundTrip [] [-1, 18] (by decide) "00158d0000123aBc".toList (by decide) (by decide)
    0xFFFFFFFFFFFFFFFF

end Nibbles
