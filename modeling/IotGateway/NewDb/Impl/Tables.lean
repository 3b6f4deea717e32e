import IotGateway.NewDb.Basic

/-!
This module contains the functions on the tables. `now` is what the clock shows in a call, and what
a function copies out into a structure of its caller it returns.
-/

namespace NewDb

open Table

section

variable {α : Type} {n : Nat}

/--
The row with the index `id` is written as a whole.
-/
def setRow (t : Fin n → α) (id : Int) (row : α) : Option (Fin n → α) :=
  (rowOf n id).map fun i => Function.update t i row

end

section

variable (db : Db)

def newDbGetSystem (name : String) : Option System :=
  (first (fun sys => sys.name == name) db.system).map db.system

def newDbGetNewSystem (name : String) (now : Int) : Db × Option System :=
  match first (fun sys => sys.name == "") db.system with
  | some i =>
    let sys : System :=
      { id := i, lastupdate := now, name := newDbStrNcpy "" (some name) LEN_SYSNM }
    ({ db with
        system := Function.update db.system i sys
        numwrites := db.numwrites + 1
        lastupdate_sys := now }, some sys)
  | none => (db, none)

def newDbSetSystem (sys : System) (now : Int) : Db × Bool :=
  match setRow db.system sys.id { sys with lastupdate := now } with
  | some system => ({ db with system, numwrites := db.numwrites + 1, lastupdate_sys := now }, true)
  | none => (db, false)

def newDbSystemSaveIntval (name : String) (intval now now' : Int) : Db × Bool :=
  match newDbGetSystem db name with
  | some sys => newDbSetSystem db { sys with intval, strval := "" } now'
  | none =>
    match newDbGetNewSystem db name now with
    | (db, some sys) => newDbSetSystem db { sys with intval, strval := "" } now'
    | (db, none) => (db, false)

def newDbEmptySystem (now : Int) : Db :=
  { db with
    system := fun i => { db.system i with id := i, name := "" }
    numwrites := db.numwrites + 1
    lastupdate_sys := now }

def newDbDeleteSystem (name : String) (now : Int) : Db × Bool :=
  match first (fun sys => sys.name == name) db.system with
  | some i =>
    ({ db with
        system := Function.update db.system i { db.system i with name := "" }
        numwrites := db.numwrites + 1
        lastupdate_sys := now }, true)
  | none => (db, false)

def newDbGetDevice (mac : String) : Option Device :=
  (first (fun dev => dev.mac == mac) db.devices).map db.devices

def newDbGetDeviceId (id : Int) : Option Device := (rowOf NEWDB_MAX_DEVICES id).map db.devices

/--
A row of zeros with the index and the key.
-/
def newDevice (i : Fin NEWDB_MAX_DEVICES) (mac : String) (now : Int) : Device :=
  { id := i, mac := newDbStrNcpy "" (some mac) LEN_MAC_NIBBLE, lastupdate := now }

def newDbGetNewDevice (mac : String) (now : Int) : Db × Option Device :=
  match first (fun dev => dev.mac == "") db.devices with
  | some i =>
    ({ db with
        devices := Function.update db.devices i (newDevice i mac now)
        numwrites := db.numwrites + 1
        lastupdate_devices := now }, some (newDevice i mac now))
  | none => (db, none)

def newDbSetDevice (dev : Device) (now : Int) : Db × Bool :=
  match setRow db.devices dev.id { dev with lastupdate := now } with
  | some devices =>
    ({ db with devices, numwrites := db.numwrites + 1, lastupdate_devices := now }, true)
  | none => (db, false)

def newDbDeviceGetMac (id : Int) : Option String :=
  (rowOf NEWDB_MAX_DEVICES id).map fun i => (db.devices i).mac

def EmptyMode.selects (mode : EmptyMode) (dev : Int) : Bool :=
  match mode with
  | .all => true
  | .climate => DEVICE_DEV_MANAGER ≤ dev && dev ≤ DEVICE_DEV_PUMP
  | .lamps => dev == DEVICE_DEV_LAMP
  | .plugs => dev == DEVICE_DEV_PLUG
  | .switches => false

def newDbEmptyDevices (mode : EmptyMode) (now : Int) : Db :=
  { db with
    devices := fun i =>
      let dev := db.devices i
      { dev with id := i, mac := if mode.selects dev.dev then "" else dev.mac }
    numwrites := db.numwrites + 1
    lastupdate_devices := now }

def newDbDeleteDevice (mac : String) (now : Int) : Db × Bool :=
  match first (fun dev => dev.mac == mac) db.devices with
  | some i =>
    ({ db with
        devices := Function.update db.devices i { db.devices i with mac := "" }
        numwrites := db.numwrites + 1
        lastupdate_devices := now }, true)
  | none => (db, false)

def Device.setClear (dev : Device) : Device :=
  if dev.mac = "" then dev else { dev with flags := dev.flags ||| FLAG_TOPO_CLEAR }

/--
This is not counted as a write.
-/
def newDbDevicesSetClearFlag : Db := { db with devices := fun i => (db.devices i).setClear }

def Device.removeClear (dev : Device) : Device :=
  if dev.flags &&& FLAG_TOPO_CLEAR ≠ 0 then { dev with mac := "" } else dev

def newDbDevicesRemoveWithClearFlag : Db :=
  { db with devices := fun i => (db.devices i).removeClear }

/--
What the scan of the history has found.
-/
structure PlugHistScan where
  firstempty : Option (Fin NEWDB_MAX_PLUGHIST) := none
  matching : Option (Fin NEWDB_MAX_PLUGHIST) := none
  oldest : Option (Fin NEWDB_MAX_PLUGHIST) := none
  ts : Int := -1

def PlugHistScan.next (mac : String) (min : Int) (scan : PlugHistScan)
    (i : Fin NEWDB_MAX_PLUGHIST) : PlugHistScan :=
  let hist := db.plughist i
  if scan.matching.isSome then
    scan
  else if hist.mac = "" then
    { scan with firstempty := scan.firstempty <|> some i }
  else
    let scan :=
      if scan.ts < 0 ∨ hist.lastupdate < scan.ts then
        { scan with ts := hist.lastupdate, oldest := some i }
      else
        scan
    if Int.tdiv hist.lastupdate 60 = min ∧ hist.mac = mac then
      { scan with matching := some i }
    else
      scan

def newDbGetMatchingOrNewPlugHist (mac : String) (min now : Int) : Db × Option PlugHist :=
  let scan := (List.finRange NEWDB_MAX_PLUGHIST).foldl (PlugHistScan.next db mac min) {}
  match scan.matching <|> scan.firstempty <|> scan.oldest with
  | some i =>
    let hist : PlugHist :=
      { id := i, mac := newDbStrNcpy "" (some mac) LEN_MAC_NIBBLE, lastupdate := now }
    ({ db with
        plughist := Function.update db.plughist i hist
        numwrites := db.numwrites + 1
        lastupdate_plughist := now }, some hist)
  | none => (db, none)

def newDbSetPlugHist (hist : PlugHist) (now : Int) : Db × Bool :=
  match setRow db.plughist hist.id { hist with lastupdate := now } with
  | some plughist =>
    ({ db with plughist, numwrites := db.numwrites + 1, lastupdate_plughist := now }, true)
  | none => (db, false)

def newDbEmptyPlugHist (now : Int) : Db :=
  { db with
    plughist := fun i => { db.plughist i with id := i, mac := "" }
    numwrites := db.numwrites + 1
    lastupdate_plughist := now }

def newDbDeletePlugHist (id : Int) (now : Int) : Db × Bool :=
  match rowOf NEWDB_MAX_PLUGHIST id with
  | some i =>
    ({ db with
        plughist := Function.update db.plughist i { db.plughist i with mac := "" }
        numwrites := db.numwrites + 1
        lastupdate_plughist := now }, true)
  | none => (db, false)

/--
Goes on with the next row as long as the call-back returns true.
-/
def loopRows {σ ρ : Type} (callback : ρ → σ → σ × Bool) : List ρ → σ → σ × Bool
  | [], s => (s, true)
  | row :: rows, s =>
    match callback row s with
    | (s, true) => loopRows callback rows s
    | (s, false) => (s, false)

def newDbLoopPlugHist {σ : Type} (mac : String) (plugHistCb : PlugHist → σ → σ × Bool) (s : σ)
    : σ × Bool :=
  let rows := (List.finRange NEWDB_MAX_PLUGHIST).map db.plughist
  loopRows plugHistCb (rows.filter fun hist => hist.mac = mac) s

def newDbGetZcb (mac : String) : Option Zcb :=
  (first (fun zcb => zcb.status != .free && zcb.mac == mac) db.zcb).map db.zcb

def newDbGetZcbSaddr (saddr : Int) : Option Zcb :=
  (first (fun zcb => zcb.status != .free && zcb.saddr == saddr) db.zcb).map db.zcb

/--
What the search for a slot has found.
-/
structure ZcbScan where
  added : Bool := false
  index : Option (Fin NEWDB_MAX_ZCB) := none
  oldest : Int

def ZcbScan.next (scan : ZcbScan) (i : Fin NEWDB_MAX_ZCB) : ZcbScan :=
  if scan.added then
    scan
  else if (db.zcb i).status = .free then
    { scan with added := true, index := some i }
  else if (db.zcb i).lastupdate < scan.oldest then
    { scan with oldest := (db.zcb i).lastupdate, index := some i }
  else
    scan

/--
If there is no free slot then the oldest one is overwritten, but what is returned is `added`.
-/
def newDbGetNewZcb (mac : String) (now : Int) : Db × Option Zcb :=
  let scan := (List.finRange NEWDB_MAX_ZCB).foldl (ZcbScan.next db) { oldest := now }
  match scan.index with
  | some i =>
    let zcb : Zcb :=
      { id := i, status := .used, mac := newDbStrNcpy "" (some mac) LEN_MAC_NIBBLE,
        lastupdate := now }
    ({ db with
        zcb := Function.update db.zcb i zcb
        numwrites := db.numwrites + 1
        lastupdate_zcb := now }, if scan.added then some zcb else none)
  | none => (db, none)

def newDbSetZcb (zcb : Zcb) (now : Int) : Db × Bool :=
  match setRow db.zcb zcb.id { zcb with lastupdate := now } with
  | some table => ({ db with zcb := table, numwrites := db.numwrites + 1, lastupdate_zcb := now }, true)
  | none => (db, false)

def newDbEmptyZcb (now : Int) : Db :=
  { db with
    zcb := fun i => { db.zcb i with id := i, status := .free }
    numwrites := db.numwrites + 1
    lastupdate_zcb := now }

end

/--
The calls that may change the tables.
-/
inductive Mutation where
  | newSystem (name : String) (now : Int)
  | setSystem (sys : System) (now : Int)
  | emptySystem (now : Int)
  | deleteSystem (name : String) (now : Int)
  | newDevice (mac : String) (now : Int)
  | setDevice (dev : Device) (now : Int)
  | emptyDevices (mode : EmptyMode) (now : Int)
  | deleteDevice (mac : String) (now : Int)
  | setClearFlag
  | removeWithClearFlag
  | newPlugHist (mac : String) (min now : Int)
  | setPlugHist (hist : PlugHist) (now : Int)
  | emptyPlugHist (now : Int)
  | deletePlugHist (id now : Int)
  | newZcb (mac : String) (now : Int)
  | setZcb (zcb : Zcb) (now : Int)
  | emptyZcb (now : Int)

def Mutation.apply (db : Db) : Mutation → Db
  | .newSystem name now => (newDbGetNewSystem db name now).1
  | .setSystem sys now => (newDbSetSystem db sys now).1
  | .emptySystem now => newDbEmptySystem db now
  | .deleteSystem name now => (newDbDeleteSystem db name now).1
  | .newDevice mac now => (newDbGetNewDevice db mac now).1
  | .setDevice dev now => (newDbSetDevice db dev now).1
  | .emptyDevices mode now => newDbEmptyDevices db mode now
  | .deleteDevice mac now => (newDbDeleteDevice db mac now).1
  | .setClearFlag => newDbDevicesSetClearFlag db
  | .removeWithClearFlag => newDbDevicesRemoveWithClearFlag db
  | .newPlugHist mac min now => (newDbGetMatchingOrNewPlugHist db mac min now).1
  | .setPlugHist hist now => (newDbSetPlugHist db hist now).1
  | .emptyPlugHist now => newDbEmptyPlugHist db now
  | .deletePlugHist id now => (newDbDeletePlugHist db id now).1
  | .newZcb mac now => (newDbGetNewZcb db mac now).1
  | .setZcb zcb now => (newDbSetZcb db zcb now).1
  | .emptyZcb now => newDbEmptyZcb db now

end NewDb
