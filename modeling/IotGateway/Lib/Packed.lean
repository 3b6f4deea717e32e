import Mathlib.Algebra.Ring.Nat
import Mathlib.Data.List.Basic

/-!
This module contains packed structures of unsigned fields in the memory of a little endian host, and
how they are read in network byte order.
-/

namespace Packed

/--
The bytes of a value in memory, the least significant one first.
-/
def bytes : (width : Nat) → (value : Nat) → List UInt8
  | 0, _ => []
  | width + 1, value => UInt8.ofNat value :: bytes width (value / 256)

/--
The value that the host reads from bytes.
-/
def host : List UInt8 → Nat
  | [] => 0
  | b :: bs => b.toNat + 256 * host bs

/--
The value that bytes stand for if the most significant one comes first.
-/
def network (bs : List UInt8) : Nat := host bs.reverse

/--
The value with its bytes in the opposite order.
-/
def swap (width value : Nat) : Nat := host (bytes width value).reverse

/--
A field with its width in bytes, and its value as the host stores it.
-/
structure Field where
  width : Nat
  value : Nat

def u8 (value : UInt8) : Field := ⟨1, value.toNat⟩

def u16 (value : UInt16) : Field := ⟨2, value.toNat⟩

def u32 (value : UInt32) : Field := ⟨4, value.toNat⟩

def u64 (value : UInt64) : Field := ⟨8, value.toNat⟩

def htons (value : UInt16) : UInt16 := UInt16.ofNat (swap 2 value.toNat)

def htobe64 (value : UInt64) : UInt64 := UInt64.ofNat (swap 8 value.toNat)

def layout (fields : List Field) : List UInt8 := fields.flatMap fun f => bytes f.width f.value

/--
The values of the fields of a message with these widths.
-/
def decode : (widths : List Nat) → List UInt8 → List Nat
  | [], _ => []
  | width :: widths, bs => network (bs.take width) :: decode widths (bs.drop width)

@[simp]
theorem length_bytes (width value : Nat) : (bytes width value).length = width := by
  induction width generalizing value with
  | zero => rfl
  | succ width ih => rw [bytes, List.length_cons, ih]

theorem host_bytes (width value : Nat) : host (bytes width value) = value % 256 ^ width := by
  induction width generalizing value with
  | zero => rw [bytes, host, Nat.pow_zero, Nat.mod_one]
  | succ width ih =>
    have hmod : value % 256 ^ (width + 1) = value % 256 + 256 * (value / 256 % 256 ^ width) := by
      rw [Nat.pow_succ', Nat.mod_mul]
    rw [bytes, host, ih, UInt8.toNat_ofNat', hmod]

theorem bytes_host (bs : List UInt8) : bytes bs.length (host bs) = bs := by
  induction bs with
  | nil => rfl
  | cons b bs ih =>
    have hdiv : (b.toNat + 256 * host bs) / 256 = host bs := by
      have hb := b.toNat_lt
      omega
    have hmod : UInt8.ofNat (b.toNat + 256 * host bs) = b := by
      apply UInt8.toNat_inj.mp
      have hb := b.toNat_lt
      rw [UInt8.toNat_ofNat']
      omega
    rw [List.length_cons, host, bytes, hdiv, hmod, ih]

theorem bytes_swap (width value : Nat)
    : bytes width (swap width value) = (bytes width value).reverse := by
  have hlength : (bytes width value).reverse.length = width := by
    rw [List.length_reverse, length_bytes]
  calc
    bytes width (swap width value)
      = bytes (bytes width value).reverse.length (host (bytes width value).reverse) := by
      rw [hlength, swap]
    _ = (bytes width value).reverse := bytes_host _

theorem host_lt (bs : List UInt8) : host bs < 256 ^ bs.length := by
  induction bs with
  | nil => exact Nat.one_pos
  | cons b bs ih =>
    have hb := b.toNat_lt
    rw [host, List.length_cons, Nat.pow_succ]
    omega

theorem swap_lt (width value : Nat) : swap width value < 256 ^ width := by
  have hlt := host_lt (bytes width value).reverse
  rwa [List.length_reverse, length_bytes] at hlt

/--
A field that has been swapped arrives as it was.
-/
theorem network_swap (width value : Nat)
    : network (bytes width (swap width value)) = value % 256 ^ width := by
  rw [bytes_swap, network, List.reverse_reverse, host_bytes]

theorem network_byte (value : Nat) : network (bytes 1 value) = value % 256 := by
  rw [network, bytes, bytes, List.reverse_singleton, host, host, UInt8.toNat_ofNat', Nat.mul_zero,
    Nat.add_zero]

@[simp]
theorem network_u8 (value : UInt8) : network (bytes 1 value.toNat) = value.toNat := by
  rw [network_byte, Nat.mod_eq_of_lt value.toNat_lt]

@[simp]
theorem network_htons (value : UInt16) : network (bytes 2 (htons value).toNat) = value.toNat := by
  have hwidth : 256 ^ 2 = 2 ^ 16 := by decide
  have hswap : (htons value).toNat = swap 2 value.toNat := by
    have hlt := swap_lt 2 value.toNat
    rw [hwidth] at hlt
    rw [htons, UInt16.toNat_ofNat', Nat.mod_eq_of_lt hlt]
  rw [hswap, network_swap, hwidth, Nat.mod_eq_of_lt value.toNat_lt]

theorem decode_layout (fields : List Field)
    : decode (fields.map Field.width) (layout fields)
        = fields.map fun f => network (bytes f.width f.value) := by
  induction fields with
  | nil => rfl
  | cons f fields ih =>
    have hlength := length_bytes f.width f.value
    have htake : (layout (f :: fields)).take f.width = bytes f.width f.value :=
      List.take_left' hlength
    have hdrop : (layout (f :: fields)).drop f.width = layout fields := List.drop_left' hlength
    rw [List.map_cons, decode, htake, hdrop, ih, List.map_cons]

theorem length_layout (fields : List Field)
    : (layout fields).length = (fields.map Field.width).sum := by
  simp only [layout, List.length_flatMap, length_bytes]

end Packed
