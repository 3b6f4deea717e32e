import IotGateway.Common.Parsing
import IotGateway.NewDb.Impl.Tables

/-!
This module contains what the daemons do to one device: they copy its row out, change the copy and
copy it back in, and some of them add the device if there is no row. Each access of the table is a
critical section of its own.
-/

namespace NewDb

/--
A change of the copy, which keeps the row and the key. Only what `saves` holds of is copied back.
-/
structure Update where
  apply : Device → Device
  saves : Device → Bool := fun _ => true
  apply_id : ∀ dev, (apply dev).id = dev.id
  apply_mac : ∀ dev, (apply dev).mac = dev.mac

/--
`found` is for a device that is in the table, `fresh` for the new row of one that is not.
-/
structure Edit where
  mac : Text
  found : Update
  fresh : Option Update := none

/--
The accesses one after the other. The result is the index of the row, -1 if there is none.
-/
def Edit.run (edit : Edit) (now now' : Int) (db : Db) : Db × Int :=
  match newDbGetDevice db edit.mac with
  | some device =>
    let device := edit.found.apply device
    if edit.found.saves device then
      ((newDbSetDevice db device now').1, device.id)
    else
      (db, device.id)
  | none =>
    match edit.fresh with
    | none => (db, -1)
    | some fresh =>
      match newDbGetNewDevice db edit.mac now with
      | (db, some device) => ((newDbSetDevice db (fresh.apply device) now').1, device.id)
      | (db, none) => (db, -1)

/--
Where a process stands between two accesses.
-/
inductive Pc where
  | idle
  | missing (mac : Text) (fresh : Update)
  | writing (copy : Device) (update : Update)

/--
One access by process `p`.
-/
inductive Access where
  | get (p : Nat) (edit : Edit)
  | getNew (p : Nat) (now : Int)
  | set (p : Nat) (now : Int)

/--
Any number of processes on one database.
-/
structure Processes where
  db : Db
  pc : Nat → Pc

def Processes.goto (s : Processes) (p : Nat) (pc : Pc) : Processes :=
  { s with pc := Function.update s.pc p pc }

/--
An access that the process does not make where it stands does nothing.
-/
def Processes.access (s : Processes) : Access → Processes
  | .get p edit =>
    match s.pc p with
    | .idle =>
      match newDbGetDevice s.db edit.mac with
      | some device =>
        if edit.found.saves (edit.found.apply device) then
          s.goto p (.writing device edit.found)
        else
          s
      | none =>
        match edit.fresh with
        | none => s
        | some fresh => s.goto p (.missing edit.mac fresh)
    | _ => s
  | .getNew p now =>
    match s.pc p with
    | .missing mac fresh =>
      match newDbGetNewDevice s.db mac now with
      | (db, some device) => { s with db }.goto p (.writing device fresh)
      | (db, none) => { s with db }.goto p .idle
    | _ => s
  | .set p now =>
    match s.pc p with
    | .writing copy update =>
      { s with db := (newDbSetDevice s.db (update.apply copy) now).1 }.goto p .idle
    | _ => s

end NewDb
