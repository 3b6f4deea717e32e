import Mathlib.Logic.Function.Basic

/-!
This module contains the constants and the data of the serial link: the control characters, the
static variables of the receiver and the message buffer of the reader thread.
-/

namespace SerialLink

def SL_START_CHAR : UInt8 := 0x01
def SL_ESC_CHAR : UInt8 := 0x02
def SL_END_CHAR : UInt8 := 0x03

@[simp]
theorem esc_ne_start : SL_ESC_CHAR ≠ SL_START_CHAR := by decide

@[simp]
theorem end_ne_start : SL_END_CHAR ≠ SL_START_CHAR := by decide

@[simp]
theorem end_ne_esc : SL_END_CHAR ≠ SL_ESC_CHAR := by decide

def SL_MAX_MESSAGE_LENGTH : UInt16 := 256

def SL_MAX_MESSAGE_QUEUES : Nat := 3

def E_SL_MSG_STATUS : UInt16 := 0x8000
def E_SL_MSG_LOG : UInt16 := 0x8001
def E_SL_MSG_MANAGEMENT_LQI_RESPONSE : UInt16 := 0x804E

/--
`teSL_Status`
-/
inductive Status where
  | ok
  | error
  | noMessage
  | errorSerial
  | errorNoMem
  deriving DecidableEq, Repr

/--
`teSL_RxState`
-/
inductive RxState where
  | waitStart
  | waitTypeMsb
  | waitTypeLsb
  | waitLenMsb
  | waitLenLsb
  | waitCrc
  | waitData
  deriving DecidableEq, Repr

/--
The static variables of `eSL_ReadMessage`, which outlive a call.
-/
structure Decoder where
  eRxState : RxState
  u8CRC : UInt8
  u16Bytes : UInt16
  bInEsc : Bool

/--
`tsSL_Message`, the caller's buffer. `au8Message` is the memory from the buffer on: the code under
it gets a pointer and a maximal length, so whether an index stays inside the
`SL_MAX_MESSAGE_LENGTH` bytes of the buffer is a property to prove.
-/
structure Message where
  u16Type : UInt16
  u16Length : UInt16
  au8Message : Nat → UInt8

/--
The bytes of the message that its length announces.
-/
def Message.payload (m : Message) : List UInt8 :=
  (List.range m.u16Length.toNat).map m.au8Message

def msb (w : UInt16) : UInt8 := ((w >>> 8) &&& 0xff).toUInt8

def lsb (w : UInt16) : UInt8 := (w &&& 0xff).toUInt8

/--
The 16 bit value the receiver assembles from two bytes.
-/
def word (hi lo : UInt8) : UInt16 := (hi.toUInt16 <<< 8) + lo.toUInt16

theorem word_toNat (hi lo : UInt8)
    : (word hi lo).toNat = 256 * hi.toNat + lo.toNat := by
  have hhi := hi.toNat_lt
  have hlo := lo.toNat_lt
  unfold word
  simp only [UInt16.toNat_add, UInt16.toNat_shiftLeft, UInt8.toNat_toUInt16, UInt16.reduceToNat,
    Nat.reduceMod, Nat.shiftLeft_eq, Nat.reducePow]
  omega

theorem msb_toNat (w : UInt16) : (msb w).toNat = w.toNat / 256 := by
  have hw := w.toNat_lt
  have hand : w.toNat >>> 8 &&& 255 = w.toNat / 256 % 256 := by
    rw [Nat.shiftRight_eq_div_pow]
    exact Nat.and_two_pow_sub_one_eq_mod (w.toNat / 2 ^ 8) 8
  unfold msb
  simp only [UInt16.toNat_toUInt8, UInt16.toNat_and, UInt16.toNat_shiftRight, UInt16.reduceToNat,
    Nat.reduceMod, hand]
  omega

theorem lsb_toNat (w : UInt16) : (lsb w).toNat = w.toNat % 256 := by
  have hand : w.toNat &&& 255 = w.toNat % 256 := Nat.and_two_pow_sub_one_eq_mod w.toNat 8
  unfold lsb
  simp only [UInt16.toNat_toUInt8, UInt16.toNat_and, UInt16.reduceToNat, hand]
  omega

@[simp]
theorem word_msb_lsb (w : UInt16) : word (msb w) (lsb w) = w := by
  apply UInt16.toNat_inj.mp
  rw [word_toNat, msb_toNat, lsb_toNat]
  omega

@[simp]
theorem msb_word (hi lo : UInt8) : msb (word hi lo) = hi := by
  have hlo := lo.toNat_lt
  apply UInt8.toNat_inj.mp
  rw [msb_toNat, word_toNat]
  omega

@[simp]
theorem lsb_word (hi lo : UInt8) : lsb (word hi lo) = lo := by
  have hlo := lo.toNat_lt
  apply UInt8.toNat_inj.mp
  rw [lsb_toNat, word_toNat]
  omega

end SerialLink
