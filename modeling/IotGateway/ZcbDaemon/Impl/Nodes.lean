import IotGateway.NewDb.Impl.Tables

/-!
This module contains the updates of the node table that the ZCB daemon makes when nodes announce
themselves and leave.
-/

namespace ZcbDaemon

open NewDb

def SIMPLE_DESCR_UNKNOWN : Int := 0xFFFF

def num2nibble (num : Nat) : Char :=
  if 16 < num then
    '0'
  else if num < 10 then
    Char.ofNat (num + '0'.toNat)
  else
    Char.ofNat (num - 10 + 'A'.toNat)

/--
The last `i` nibbles of a number in front of a text.
-/
def nibbles : (i : Nat) → Nat → List Char → List Char
  | 0, _, text => text
  | i + 1, num, text => nibbles i (num / 16) (num2nibble (num % 16) :: text)

def u642nibblestr (u64 : UInt64) : String := String.ofList (nibbles 16 u64.toNat [])

/--
The result is 0 only if a row has been added. The clock is read again by each function on the table.
-/
def zcbAddNode (shortAddress : UInt16) (extendedAddress : UInt64) (now now' : Int) (db : Db)
    : Db × Int :=
  let mac := u642nibblestr extendedAddress
  match newDbGetZcbSaddr db shortAddress.toNat with
  | some zcb => ((newDbSetZcb db { zcb with status := .joined, mac } now).1, 1)
  | none =>
    match newDbGetZcb db mac with
    | some zcb =>
      ((newDbSetZcb db { zcb with status := .joined, saddr := shortAddress.toNat } now).1, 1)
    | none =>
      match newDbGetNewZcb db mac now with
      | (db, some zcb) =>
        let zcb : Zcb :=
          { zcb with status := .joined, saddr := shortAddress.toNat, type := SIMPLE_DESCR_UNKNOWN }
        ((newDbSetZcb db zcb now').1, 0)
      | (db, none) => (db, 1)

def zcbNodeGetShortAddress (mac : String) (db : Db) : UInt16 :=
  match newDbGetZcb db mac with
  | some zcb => UInt16.ofInt zcb.saddr
  | none => 0xFFFF

def zcbNodeLeft (extendedAddress : UInt64) (keep : Bool) (now : Int) (db : Db) : Db × Int :=
  match newDbGetZcb db (u642nibblestr extendedAddress) with
  | some zcb => ((newDbSetZcb db { zcb with status := if keep then .left else .free } now).1, 1)
  | none => (db, 0)

def zcbNodeSetDeviceID (shortAddress deviceID : UInt16) (now : Int) (db : Db) : Db × Int :=
  match newDbGetZcbSaddr db shortAddress.toNat with
  | some zcb =>
    -- Only act when a change is necessary
    if zcb.type ≠ deviceID.toNat then
      ((newDbSetZcb db { zcb with type := deviceID.toNat } now).1, 1)
    else
      (db, 1)
  | none => (db, 0)

/--
What the network tells about its nodes.
-/
inductive NodeEvent where
  | announce (shortAddress : UInt16) (extendedAddress : UInt64) (now now' : Int)
  | leave (extendedAddress : UInt64) (keep : Bool) (now : Int)
  | deviceID (shortAddress deviceID : UInt16) (now : Int)

def nodeStep (db : Db) : NodeEvent → Db
  | .announce shortAddress extendedAddress now now' =>
    (zcbAddNode shortAddress extendedAddress now now' db).1
  | .leave extendedAddress keep now => (zcbNodeLeft extendedAddress keep now db).1
  | .deviceID shortAddress deviceID now => (zcbNodeSetDeviceID shortAddress deviceID now db).1

end ZcbDaemon
