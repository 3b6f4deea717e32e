import IotGateway.ControlInterface.Impl.Devices
import IotGateway.Lib.Machine
import IotGateway.NewDb.Lemmas.Edit
import IotGateway.ZcbDaemon.Impl.Devices

/-!
This module contains the processes that update devices while others add and delete some, beside the
table in which each update is made at once.
-/

namespace Gateway

open NewDb

/--
An access of one of the processes, or one call by somebody else.
-/
inductive UpdateStep where
  | access (a : Access)
  | newDevice (mac : Text) (now : Int)
  | deleteDevice (mac : Text) (now : Int)

/--
`ideal` has the table in which an update changes the device as it is when it is copied in, if it is
still there. `born` counts the changes of a row's key, `taken` has the count of a process' copy.
-/
structure Ledger where
  processes : Processes
  ideal : Db
  born : Fin NEWDB_MAX_DEVICES → Nat
  taken : Nat → Nat

def Ledger.start (db : Db) : Ledger where
  processes := { db, pc := fun _ => .idle }
  ideal := db
  born := fun _ => 0
  taken := fun _ => 0

def UpdateStep.run (s : Processes) : UpdateStep → Processes
  | .access a => s.access a
  | .newDevice mac now => { s with db := (newDbGetNewDevice s.db mac now).1 }
  | .deleteDevice mac now => { s with db := (newDbDeleteDevice s.db mac now).1 }

/--
Rows that differ in their time of update only.
-/
def SameRow (a b : Device) : Prop := { a with lastupdate := 0 } = { b with lastupdate := 0 }

instance (a b : Device) : Decidable (SameRow a b) := inferInstanceAs (Decidable (_ = _))

/--
When a copy is copied in, the device is still in the row, and what has been written to the row since
is in fields that the update sets.
-/
def Undisturbed (l : Ledger) : UpdateStep → Prop
  | .access (.set p _) =>
    match l.processes.pc p with
    | .writing copy update =>
      ∀ i : Fin NEWDB_MAX_DEVICES, copy.id = i →
        l.born i = l.taken p
          ∧ SameRow (update.apply copy) (update.apply (l.processes.db.devices i))
    | _ => True
  | .access (.get _ _) => True
  | .access (.getNew _ _) => True
  | .newDevice _ _ => True
  | .deleteDevice _ _ => True

instance decidableUndisturbed (l : Ledger) : (step : UpdateStep) → Decidable (Undisturbed l step)
  | .access (.set p now) =>
    match hpc : l.processes.pc p with
    | .writing copy update =>
      decidable_of_iff (∀ i : Fin NEWDB_MAX_DEVICES, copy.id = i →
          l.born i = l.taken p
            ∧ SameRow (update.apply copy) (update.apply (l.processes.db.devices i)))
        (by simp only [Undisturbed, hpc])
    | .idle => isTrue (by simp only [Undisturbed, hpc])
    | .missing _ _ => isTrue (by simp only [Undisturbed, hpc])
  | .access (.get _ _) => isTrue trivial
  | .access (.getNew _ _) => isTrue trivial
  | .newDevice _ _ => isTrue trivial
  | .deleteDevice _ _ => isTrue trivial

structure Ledger.Inv (l : Ledger) : Prop where
  sound : l.processes.Sound
  devices : l.processes.db.devices = l.ideal.devices

def sensorMac : Text := ⟨"00158D0000350F1B", by decide⟩

/--
The sensor reports while its location is set, after which it is removed and another device gets its
row.
-/
def reported : List UpdateStep :=
  [.newDevice sensorMac 1,
    .access (.get 0 (ZcbDaemon.zcbHandleSensor sensorMac 2100 (-1) (-1) (-1) (-1))),
    .access (.set 0 2),
    .access (.get 1 (ControlInterface.sensorHandle sensorMac none 3 4 0)), .access (.set 1 2),
    .deleteDevice sensorMac 3, .newDevice ⟨"00158D000035AB04", by decide⟩ 4]

end Gateway
