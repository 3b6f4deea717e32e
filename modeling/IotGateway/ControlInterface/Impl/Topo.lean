import IotGateway.ControlInterface.Impl.Devices

/-!
This module contains the topology commands of the control interface.
-/

namespace ControlInterface

open NewDb IotError

/--
The static variables that remember the devices declared last. They are row ids.
-/
structure TopoState where
  currentManager : Int := 0
  currentUI : Int := 0
  currentSensor : Int := 0

inductive DeviceKind where
  | man
  | ui
  | sen
  | pmp
  | lmp
  | plg
  deriving DecidableEq

structure Declaration where
  kind : DeviceKind
  mac : Text
  nm : Text
  ty : Option Text := none
  sid : Int32 := 0

def Declaration.edit (d : Declaration) (s : TopoState) : Edit :=
  match d.kind with
  | .man => addManager d.mac d.nm (d.ty.map (·.1))
  | .ui => addUi d.mac d.nm s.currentManager
  | .sen => addSensor d.mac d.nm s.currentUI
  | .pmp => addPump d.mac d.nm s.currentSensor d.sid.toInt
  | .lmp => addLamp d.mac d.nm (d.ty.map (·.1))
  | .plg => addPlug d.mac d.nm

/--
What is remembered when the device has got the row `id`.
-/
def DeviceKind.after (kind : DeviceKind) (id : Int) (s : TopoState) : TopoState :=
  match kind with
  | .man => { currentManager := id, currentUI := -1, currentSensor := -1 }
  -- For combi devices
  | .ui => { s with currentUI := id, currentSensor := id }
  | .sen => { s with currentSensor := id }
  | .pmp | .lmp | .plg => s

inductive TopoCommand where
  | clearall
  | endconf
  | upload
  | declare (d : Declaration)

/--
The declaration in a command with a name, if it names a device.
-/
def declaration (attrs : Attrs) (nm : Text) : Option Declaration :=
  match attrs.parsingGetStringAttr0 "man" with
  | some mac =>
    some { kind := .man, mac := mac.upper, nm, ty := attrs.parsingGetStringAttr0 "ty" }
  | none =>
  match attrs.parsingGetStringAttr0 "ui" with
  | some mac => some { kind := .ui, mac := mac.upper, nm }
  | none =>
  match attrs.parsingGetStringAttr0 "sen" with
  | some mac => some { kind := .sen, mac := mac.upper, nm }
  | none =>
  match attrs.parsingGetStringAttr0 "pmp" with
  | some mac => some { kind := .pmp, mac := mac.upper, nm, sid := attrs.parsingGetIntAttr "sid" }
  | none =>
  match attrs.parsingGetStringAttr0 "lmp" with
  | some mac =>
    some { kind := .lmp, mac := mac.upper, nm, ty := attrs.parsingGetStringAttr0 "ty" }
  | none =>
  match attrs.parsingGetStringAttr0 "plg" with
  | some mac => some { kind := .plg, mac := mac.upper, nm }
  | none => none

def topoCommand (attrs : Attrs) : Except Int (Option TopoCommand) :=
  match attrs.parsingGetStringAttr0 "cmd" with
  | some cmd =>
    if cmd = "clearall" then
      .ok (some .clearall)
    else if cmd = "endconf" then
      .ok (some .endconf)
    else if cmd = "upload" then
      .ok (some .upload)
    else
      .error IOT_ERROR_TOPO_ILLEGAL_CMD
  | none =>
    match attrs.parsingGetStringAttr0 "nm" with
    | some nm => .ok ((declaration attrs nm).map .declare)
    | none => .error IOT_ERROR_TOPO_MISSING_NAME

/--
What a command does to the tables. `uploadTopo` follows `endconf` and `upload`.
-/
def topoRun (cmd : TopoCommand) (now now' : Int) (s : TopoState) (db : Db) : TopoState × Db :=
  match cmd with
  | .clearall =>
    ({ currentManager := -1, currentUI := -1, currentSensor := -1 }, newDbDevicesSetClearFlag db)
  | .endconf => (s, newDbDevicesRemoveWithClearFlag db)
  | .upload => (s, db)
  | .declare d =>
    let (db, id) := (d.edit s).run now now' db
    (d.kind.after id s, db)

/--
The last component is what `iotError` is set to. `uploadTopo` may set it later.
-/
def topoHandle (attrs : Attrs) (now now' : Int) (s : TopoState) (db : Db) : TopoState × Db × Int :=
  match topoCommand attrs with
  | .error error => (s, db, error)
  | .ok none => (s, db, IOT_ERROR_NONE)
  | .ok (some cmd) =>
    let (s, db) := topoRun cmd now now' s db
    (s, db, IOT_ERROR_NONE)

/--
A declaration with what the clock shows when the two accesses are made.
-/
structure Timed where
  declaration : Declaration
  now : Int
  now' : Int

def declareAll : List Timed → TopoState → Db → TopoState × Db
  | [], s, db => (s, db)
  | t :: rest, s, db =>
    let (s, db) := topoRun (.declare t.declaration) t.now t.now' s db
    declareAll rest s db

/--
The tables after all is cleared, the devices are declared and the configuration ends.
-/
def topoSession (declarations : List Timed) (s : TopoState) (db : Db) : Db :=
  let (s, db) := topoRun .clearall 0 0 s db
  let (s, db) := declareAll declarations s db
  (topoRun .endconf 0 0 s db).2

end ControlInterface
