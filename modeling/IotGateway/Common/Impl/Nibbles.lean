import Mathlib.Algebra.Ring.Int.Defs
import Mathlib.Algebra.Ring.Nat
import Mathlib.Data.List.Basic

/-!
This module contains the conversions between bytes, numbers and strings of nibbles.
-/

namespace Nibbles

abbrev Text := List Char

def nibble2num (c : Char) : Int :=
  if '0' ≤ c ∧ c ≤ '9' then
    c.toNat - '0'.toNat
  else if 'A' ≤ c ∧ c ≤ 'F' then
    c.toNat - 'A'.toNat + 10
  else if 'a' ≤ c ∧ c ≤ 'f' then
    c.toNat - 'a'.toNat + 10
  else
    0

def num2nibble (num : Int) : Char :=
  if num < 0 ∨ 16 < num then
    '0'
  else if num < 10 then
    Char.ofNat (num + '0'.toNat).toNat
  else
    Char.ofNat (num - 10 + 'A'.toNat).toNat

/--
Process src nibbles. `i` is the index of the next one.
-/
def nibbles (i : Nat) (val : Int) : (src : Text) → List Int8
  | [] => []
  | c :: src =>
    if i &&& 1 = 0 then
      nibbles (i + 1) (nibble2num c) src
    else
      let val := val * 2 ^ 4 + nibble2num c
      Int8.ofInt val :: nibbles (i + 1) val src

/--
The return value with what is at `dst` afterwards. The first `srclen` characters of `src` are read.
-/
def nibblestr2hex (dst : Option (List Int8)) (dstlen : Int) (src : Option Text) (srclen : Int)
    : Int × Option (List Int8) :=
  match dst, src with
  | some _, some src =>
    -- Check srclen: must be an even number, and hexbytes between 0 and dstlen
    let hexbytes := srclen.tdiv 2
    if srclen < 0 ∨ dstlen < hexbytes ∨ srclen % 2 = 1 then
      (0, dst)
    else
      -- Zero leading (hex)
      let leading := List.replicate (dstlen - hexbytes).toNat 0
      (1, some (leading ++ nibbles 0 0 (src.take srclen.toNat)))
  | _, _ => (0, dst)

/--
A `char` is signed.
-/
def hex2nibblestr (src : List Int8) : Text :=
  src.flatMap fun b =>
    [num2nibble ((b.toInt32 >>> (4 : Int32)) &&& (0x0F : Int32)).toInt,
      num2nibble (b.toInt32 &&& (0x0F : Int32)).toInt]

/--
The loop of `nibblestr2u64`, with the number of characters that it reads at most.
-/
def readNibbles : Nat → Text → UInt64 → UInt64
  | 0, _, u64 => u64
  | _, [], u64 => u64
  | n + 1, c :: nibblestr, u64 =>
    if c = '\x00' then
      u64
    else
      readNibbles n nibblestr ((u64 <<< 4) + UInt64.ofInt (nibble2num c))

def nibblestr2u64 (nibblestr : Text) : UInt64 := readNibbles 16 nibblestr 0

/--
The loop of `u642nibblestr`, which writes from the end. `written` is what is there already.
-/
def writeNibbles : Nat → UInt64 → (written : Text) → Text
  | 0, _, written => written
  | n + 1, u64, written => writeNibbles n (u64 >>> 4) (num2nibble (u64 &&& 0x0F).toNat :: written)

def u642nibblestr (u64 : UInt64) : Text := writeNibbles 16 u64 []

end Nibbles
