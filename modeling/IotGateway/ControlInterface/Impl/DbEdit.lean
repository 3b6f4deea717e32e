import IotGateway.ControlInterface.Impl.Devices
import IotGateway.Json.Impl.Parser

/-!
This module contains the commands that edit the database by hand.
-/

namespace ControlInterface

open NewDb IotError

def Atoi0 (string : String) : Int := if string = "" then 0 else Json.atoi string.toList

/--
Only the parent of a device can be edited. The row is written back in any case.
-/
def tableEdit (table : String) (id : Int) (col val : String) (now : Int) (db : Db) : Db :=
  if table = "devices" then
    match newDbGetDeviceId db id with
    | some dev =>
      let dev := if col = "par" then { dev with par := Atoi0 val } else dev
      (newDbSetDevice db dev now).1
    | none => db
  else
    db

inductive DbEditCommand where
  | add (mac : Text) (dev : Int) (type : String)
  | rem (mac : Text)
  | clr (clr : Text)
  | table (table : Text) (id : Int) (col val : Text)

def dbEditCommand (attrs : Attrs) : Except Int (Option DbEditCommand) :=
  match attrs.parsingGetStringAttr0 "add" with
  | some mac =>
    let dev := (attrs.parsingGetIntAttr "dev").toInt
    if DEVICE_DEV_UNKNOWN < dev then
      .ok (some (.add mac dev (attrs.parsingGetStringAttr "ty")))
    else
      .error IOT_ERROR_DEVICE_MISSING
  | none =>
  match attrs.parsingGetStringAttr0 "rem" with
  | some mac => .ok (some (.rem mac))
  | none =>
  match attrs.parsingGetStringAttr0 "clr" with
  | some clr => .ok (some (.clr clr))
  | none =>
  match attrs.parsingGetStringAttr0 "table" with
  | some table =>
    let id := (attrs.parsingGetIntAttr "id").toInt
    match attrs.parsingGetStringAttr0 "col", attrs.parsingGetStringAttr0 "val" with
    | some col, some val => .ok (if 0 ≤ id then some (.table table id col val) else none)
    | _, _ => .ok none
  | none => .ok none

/--
The devices that are cleared.
-/
def clearMode (clr : String) : Option EmptyMode :=
  if clr = "climate" then
    some .climate
  else if clr = "lamps" then
    some .lamps
  else if clr = "plugs" then
    some .plugs
  else if clr = "devices" then
    some .all
  else
    none

def clear (clr : String) (now : Int) (db : Db) : Db :=
  match clearMode clr with
  | some .all => newDbEmptyPlugHist (newDbEmptyDevices db .all now) now
  | some mode => newDbEmptyDevices db mode now
  | none =>
    if clr = "system" then
      newDbEmptySystem db now
    else if clr = "zcb" then
      newDbEmptyZcb db now
    else if clr = "plughistory" then
      newDbEmptyPlugHist db now
    else
      db

/--
The last component is what `iotError` is set to.
-/
def dbEditRun (cmd : DbEditCommand) (now now' : Int) (db : Db) : Db × Int :=
  match cmd with
  | .add mac dev type =>
    let error :=
      if (newDbGetDevice db mac).isSome then IOT_ERROR_ALREADY_EXISTING_MAC else IOT_ERROR_NONE
    (((dbEditAdd mac dev type).run now now' db).1, error)
  | .rem mac =>
    match newDbDeleteDevice db mac now with
    | (db, true) => (db, IOT_ERROR_NONE)
    | (db, false) => (db, IOT_ERROR_NON_EXISTING_MAC)
  | .clr clr => (clear clr now db, IOT_ERROR_NONE)
  | .table table id col val => (tableEdit table id col val now db, IOT_ERROR_NONE)

def dbEditHandle (attrs : Attrs) (now now' : Int) (db : Db) : Db × Int :=
  match dbEditCommand attrs with
  | .error error => (db, error)
  | .ok none => (db, IOT_ERROR_NONE)
  | .ok (some cmd) => dbEditRun cmd now now' db

end ControlInterface
