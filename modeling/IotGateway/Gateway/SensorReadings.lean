import IotGateway.Common.Lemmas.MessageQueue
import IotGateway.Dbp.Lemmas.Receiver
import IotGateway.SecureJoiner.Lemmas.Response
import IotGateway.ZcbDaemon.Lemmas.Attributes

/-!
This module follows the readings of sensors from the reports of the nodes through the queue to the
clients of the DBP server.
-/

namespace Gateway.SensorReadings

open NewDb Json Machine MessageQueue ZcbDaemon FieldParser
open Dbp.Client (hex padded dbp_swap_uint16 temp_parent)
open Dbp.Receiver (zigbee_msg_receiver reports packed_data dbp_init)

inductive Quantity where
  | tmp
  | hum
  | als
  deriving DecidableEq

def Quantity.name : Quantity → String
  | .tmp => "tmp"
  | .hum => "hum"
  | .als => "als"

structure Reading where
  u64IEEEAddress : UInt64
  quantity : Quantity
  data : Int32

namespace Reading

def mac (r : Reading) : String := (Plug.macOf r.u64IEEEAddress).1

def value (r : Reading) (quantity : Quantity) : Int32 := if r.quantity = quantity then r.data else -1

/--
The message that is forwarded to DBP.
-/
def object (r : Reading) : Object :=
  jsonSensor (-1) r.mac none (-1) (-1) (r.value .tmp) (r.value .hum) (-1) (-1) (-1) (-1)
    (r.value .als) Attrs.INT_MIN Attrs.INT_MIN Attrs.INT_MIN (-1)

/--
The lower two bytes of a number, the lowest one first.
-/
def littleEndian (data : Int32) : Dbp.Client.Text :=
  hex 2 (data.toInt % 256).toNat ++ hex 2 (data.toInt / 256 % 256).toNat

/--
How the quantities are shown to the clients.
-/
def digits (c : Dbp.Receiver.Conditions) (r : Reading) : Dbp.Client.Text :=
  match r.quantity with
  | .tmp => "0105".toList ++ littleEndian r.data
  | .hum => "01".toList ++ hex 4 (packed_data 0x0f00 (c.percent (UInt16.ofInt r.data.toInt))).toNat
  | .als => "0108".toList ++ littleEndian r.data

/--
What the clients get. A number below zero is not a reading.
-/
def lines (c : Dbp.Receiver.Conditions) (r : Reading) : List Dbp.Client.Text :=
  if c.connected ∧ 0 ≤ r.data then
    ["dbp state ".toList ++ hex 8 c.time ++ [' '] ++ r.mac.toList ++ [' '] ++ r.digits c ++ [' ']
      ++ temp_parent ++ "\r\n".toList]
  else
    []

end Reading

section Forwarded

variable (a : Attribute) (clock : Plug.Clock) (s : Host)

/--
The message for a device that is in the table.
-/
def message (quantity : Quantity) : List Object :=
  let u64IEEEAddress := zcbNodeGetExtendedAddress a.u16ShortAddress s.db
  if (newDbGetDevice s.db (Plug.macOf u64IEEEAddress)).isSome then
    [Reading.object { u64IEEEAddress, quantity, data := Plug.asInt a.u64Data }]
  else
    []

end Forwarded

section Line

/--
The clients get the two bytes of a number with 16 bits as the node has sent them, a negative one
too.
-/
theorem littleEndian_report {r : AttributeReport}
    (htype : r.u8Type = E_ZCL_INT16 ∨ r.u8Type = E_ZCL_UINT16)
    : 0 ≤ Plug.asInt r.attribute.u64Data
      ∧ Reading.littleEndian (Plug.asInt r.attribute.u64Data)
          = hex 2 (r.uData 1).toNat ++ hex 2 (r.uData 0).toNat := by
  have hdata : (attributeData r.u8Type r.uData).toNat = bigEndian r.uData 2 := by
    rcases htype with h | h
    . rw [h]
      exact attributeData_toNat (show ZclType.int16 ≠ .int24 by decide) r.uData
    . rw [h]
      exact attributeData_toNat (show ZclType.uint16 ≠ .int24 by decide) r.uData
  have hbytes : bigEndian r.uData 2 = (r.uData 0).toNat * 256 + (r.uData 1).toNat := by
    rw [bigEndian, bigEndian, bigEndian, Nat.zero_mul, Nat.zero_add]
  have h0 := (r.uData 0).toNat_lt
  have h1 := (r.uData 1).toNat_lt
  have hvalue : (Plug.asInt r.attribute.u64Data).toInt
      = (r.uData 0).toNat * 256 + (r.uData 1).toNat := by
    have hsmall : r.attribute.u64Data.toNat < 2 ^ 31 := by
      show (attributeData r.u8Type r.uData).toNat < 2 ^ 31
      omega
    rw [asInt_toInt hsmall]
    show ((attributeData r.u8Type r.uData).toNat : Int) = _
    omega
  constructor
  . rw [Int32.le_iff_toInt_le, hvalue]
    show (0 : Int) ≤ _
    omega
  . unfold Reading.littleEndian
    rw [hvalue]
    congr 2
    . omega
    . omega

theorem length_mac (r : Reading) : r.mac.toList.length = 16 :=
  u642nibblestr_length r.u64IEEEAddress

theorem clean_mac (r : Reading) : Clean r.mac := by
  apply SecureJoiner.nibblestr_clean

theorem members_object (r : Reading)
    : r.object.members = [string "mac" r.mac] ++ ifInt (0 ≤ r.data) r.quantity.name r.data := by
  obtain ⟨u64IEEEAddress, quantity, data⟩ := r
  have hneg (name : String) : ifInt (0 ≤ (-1 : Int32)) name (-1) = [] := rfl
  have hmin (name : String)
      : ifInt (Attrs.INT_MIN != Int32.minValue) name Attrs.INT_MIN = [] := rfl
  have hnone (name : String) : ifString name none = [] := rfl
  unfold Reading.object jsonSensor Reading.value
  cases quantity with
  | tmp =>
    simp only [hneg, hmin, hnone, List.nil_append, List.append_nil, if_true, reduceCtorEq, if_false]
    rfl
  | hum =>
    simp only [hneg, hmin, hnone, List.nil_append, List.append_nil, if_true, reduceCtorEq, if_false]
    rfl
  | als =>
    simp only [hneg, hmin, hnone, List.nil_append, List.append_nil, if_true, reduceCtorEq, if_false]
    rfl

theorem sendable_object (r : Reading) : Sendable r.object := by
  have hmac : Word r.mac := by
    refine ⟨⟨stringText_of_clean (clean_mac r), ?_⟩, ?_⟩
    . rw [length_mac]
      decide
    . rw [length_mac]
      decide
  have hname : briefName r.quantity.name = true := by
    cases r.quantity <;> decide
  have hsmall := (small_string "mac" (by decide) hmac).append
    (small_ifInt r.quantity.name hname (0 ≤ r.data) r.data)
  rw [← members_object] at hsmall
  apply sendable_of_small hsmall
  . show briefName "sensor" = true
    decide
  . rw [members_object]
    apply List.cons_ne_nil
  . decide
  . decide

section

variable (r : Reading)

end

end Line

/--
A message that another process or thread writes to the queue, such as the thread that receives
locations.
-/
structure OtherMessage where
  text : Message
  object : Object
  spells : Spells text object
  short : text.length ≤ MAXMESSAGESIZE - 2

inductive Mail where
  | reading (r : Reading)
  | other (m : OtherMessage)

namespace Mail

def text : Mail → Message
  | reading r => r.object.message
  | other m => m.text

def object : Mail → Object
  | reading r => r.object
  | other m => m.object

/--
What the clients get.
-/
def lines (c : Dbp.Receiver.Conditions) : Mail → List Dbp.Client.Text
  | reading r => r.lines c
  | other m => reports c m.object

end Mail

/--
A node reports an attribute, something else happens to the ZCB daemon or its tables, another message
is written, or the DBP server calls `msgrcv`. `sent` is whether `msgsnd` succeeds.
-/
inductive Input where
  | report (pvMessage : Nat → UInt8) (clock : Plug.Clock) (sent : Bool)
  | change (s : Plug.State)
  | write (m : OtherMessage) (sent : Bool)
  | read (failed : Bool) (c : Dbp.Receiver.Conditions)

def Input.offers : Input → List Dbp.Receiver.Conditions
  | .read _ c => [c]
  | _ => []

theorem Mail.length_text (m : Mail) : m.text.length ≤ MAXMESSAGESIZE - 2 := by
  cases m with
  | reading r => exact (sendable_object r).spells.2
  | other m => exact m.short

theorem Mail.queueWrite_text (m : Mail) (sent : Bool)
    : (queueWrite sent m.text []).1 = if sent then [m.text] else [] := by
  unfold queueWrite
  rw [if_neg (Nat.not_lt.mpr m.length_text)]
  split
  . rfl
  . rfl

end Gateway.SensorReadings
