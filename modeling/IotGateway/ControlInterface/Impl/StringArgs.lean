import IotGateway.ControlInterface.Impl.Commands

/-!
This module contains the members of a command that its handler gives to string functions, in the
order in which it does so. A string function that is given `NULL` does not return.
-/

namespace ControlInterface

open NewDb

/--
A `char *`, with `none` for `NULL`.
-/
abbrev Pointer : Type := Option String

/--
`parsingGetStringAttr0`
-/
def member (attrs : Attrs) (name : String) : Pointer := (attrs.parsingGetStringAttr0 name).map (·.1)

/--
What is passed on by code that checks for `NULL` first.
-/
def guarded (string : Pointer) : List Pointer := if string.isSome then [string] else []

/--
`known` is what is copied to the row of a device that exists, `fresh` what a new one makes use of.
The functions of the database check the MAC address.
-/
def addArgs (db : Db) (mac : Text) (known : Device → List Pointer) (fresh : List Pointer)
    : List Pointer :=
  guarded (some mac) ++
    match newDbGetDevice db mac with
    | some device => known device
    | none =>
      match (newDbGetNewDevice db mac 0).2 with
      | some _ => guarded (some mac) ++ fresh
      | none => []

/--
The type of a new lamp is compared with those that have other defaults, also if there is none.
-/
def Declaration.args (d : Declaration) (db : Db) : List Pointer :=
  let nm := guarded (some d.nm)
  let ty : Pointer := d.ty.map (·.1)
  match d.kind with
  | .man => addArgs db d.mac (fun _ => nm ++ guarded ty) (nm ++ guarded ty)
  | .ui | .pmp | .plg => addArgs db d.mac (fun _ => nm) nm
  | .sen =>
    let renamed := fun (device : Device) =>
      device.dev = DEVICE_DEV_UNKNOWN ∨ device.dev = DEVICE_DEV_SENSOR
    addArgs db d.mac (fun device => if renamed device then nm else []) nm
  | .lmp => addArgs db d.mac (fun _ => nm ++ guarded ty) (nm ++ guarded ty ++ [ty])

def topoArgs (attrs : Attrs) (db : Db) : List Pointer :=
  match attrs.parsingGetStringAttr0 "cmd" with
  | some cmd => [some cmd.1]
  | none =>
    match attrs.parsingGetStringAttr0 "nm" with
    | some nm =>
      match declaration attrs nm with
      -- `strtoupper`
      | some d => some d.mac.1 :: d.args db
      | none => []
    | none => []

/--
A type that is not given is an empty string here. The manager and the lamp compare it.
-/
def dbEditArgs (attrs : Attrs) (db : Db) : List Pointer :=
  match dbEditCommand attrs with
  | .ok (some (.add mac dev type)) =>
    let compared := dev = DEVICE_DEV_MANAGER ∨ dev = DEVICE_DEV_LAMP
    addArgs db mac (fun _ => []) (guarded (some type) ++ if compared then [some type] else [])
  | .ok (some (.rem mac)) => guarded (some mac)
  | .ok (some (.clr clr)) => [some clr.1]
  | .ok (some (.table table id col val)) =>
    [some table.1] ++
      if table.1 = "devices" ∧ (newDbGetDeviceId db id).isSome then
        [some col.1] ++ if col.1 = "par" then guarded (some val) else []
      else
        []
  | .ok none | .error _ => []

def dbgetArgs (attrs : Attrs) : List Pointer :=
  match attrs.parsingGetStringAttr0 "mac" with
  -- `strtoupper` and `newDbGetDevice`
  | some mac => [some mac.1] ++ guarded (some mac.upper)
  | none => []

def ctrlArgs (attrs : Attrs) (db : Db) : List Pointer :=
  let cmd := member attrs "cmd"
  match attrs.parsingGetStringAttr0 "mac" with
  | some mac =>
    let mac : Pointer := some mac.upper
    [mac, mac] ++ guarded mac ++
      match newDbGetDevice db (mac.getD "") with
      | some device =>
        if device.dev = DEVICE_DEV_UI ∨ device.dev = DEVICE_DEV_UISENSOR then
          [mac]
        else if device.dev = DEVICE_DEV_PLUG then
          -- `newDbStrNcpy` and `jsonPlugCmd`
          if cmd.isSome then guarded cmd ++ [mac] ++ guarded cmd else []
        else if device.dev = DEVICE_DEV_LAMP then
          -- `newDbStrNcpy` and `jsonLampToZigbee`
          guarded cmd ++ [mac] ++ guarded cmd
        else
          []
      | none => []
  | none => []

def CMD_SYSTEM_SET_HOSTNAME : Int32 := 2
def CMD_SYSTEM_SET_SSID : Int32 := 3
def CMD_SYSTEM_SET_CHANNEL : Int32 := 4
def CMD_SYSTEM_SET_TIMEZONE : Int32 := 5
def CMD_SYSTEM_SET_ZONENAME : Int32 := 6

/--
`sethostname` is given the length too. All of them edit an option of a configuration file.
-/
def systemArgs (attrs : Attrs) (system : Int32) : List Pointer :=
  let strval := guarded (member attrs "strval")
  if system = CMD_SYSTEM_SET_HOSTNAME then
    strval ++ strval
  else if system = CMD_SYSTEM_SET_SSID ∨ system = CMD_SYSTEM_SET_CHANNEL
      ∨ system = CMD_SYSTEM_SET_TIMEZONE ∨ system = CMD_SYSTEM_SET_ZONENAME then
    strval
  else
    []

def cmdArgs (attrs : Attrs) : List Pointer :=
  let system := attrs.parsingGetIntAttr "system"
  if 0 ≤ attrs.parsingGetIntAttr "reset" ∨ 0 ≤ attrs.parsingGetIntAttr "resetrsp"
      ∨ 0 ≤ attrs.parsingGetIntAttr "getversion" then
    []
  else if 0 ≤ attrs.parsingGetIntAttr "duration" then
    -- `jsonCmdSetPermitJoin` has a default
    [some ((member attrs "setpermit").getD "1")]
  else if 0 ≤ attrs.parsingGetIntAttr "nfcmode" then
    []
  else if 0 ≤ system then
    systemArgs attrs system
  else
    -- The log, `AtoiHex` and `jsonCmdSetChannelMask`
    let strval := guarded (member attrs "chanmask")
    strval ++ strval ++ strval

/--
`jsonLampGroup` does not check the MAC address that it formats.
-/
def lmpArgs (attrs : Attrs) : List Pointer :=
  let grp := member attrs "grp"
  let scn := member attrs "scn"
  if grp.isSome ∨ 0 < attrs.parsingGetIntAttr "grpid" ∨ scn.isSome
      ∨ 0 < attrs.parsingGetIntAttr "scnid" then
    [member attrs "mac"] ++ guarded grp ++ guarded scn
  else
    []

/--
`jsonGroup` compares the command only if there is no color.
-/
def grpArgs (attrs : Attrs) : List Pointer :=
  let cmd := guarded (member attrs "cmd")
  let colored := 0 ≤ attrs.parsingGetIntAttr "rgb" ∨ 0 ≤ attrs.parsingGetIntAttr "kelvin"
  (if colored then [] else cmd) ++ guarded (member attrs "scn") ++ cmd

def sensorArgs (attrs : Attrs) (db : Db) : List Pointer :=
  match attrs.parsingGetStringAttr0 "mac" with
  | some mac =>
    guarded (some mac) ++
      if (newDbGetDevice db mac).isSome then guarded (member attrs "nm") else []
  | none => []

/--
The names of the scripts.
-/
def procArgs (attrs : Attrs) : List Pointer :=
  let start := member attrs "start"
  let stop := member attrs "stop"
  let restart := member attrs "restart"
  if start.isSome then
    [start]
  else if stop.isSome then
    [stop]
  else if restart.isSome then
    [restart, restart]
  else
    []

def Command.args (cmd : Command) (db : Db) : List Pointer :=
  if cmd.name = "dbget" then
    dbgetArgs cmd.attrs
  else if cmd.name = "dbedit" then
    dbEditArgs cmd.attrs db
  else if cmd.name = "ctrl" then
    ctrlArgs cmd.attrs db
  else if cmd.name = "cmd" then
    cmdArgs cmd.attrs
  else if cmd.name = "lmp" then
    lmpArgs cmd.attrs
  else if cmd.name = "grp" then
    grpArgs cmd.attrs
  else if cmd.name = "sensor" then
    sensorArgs cmd.attrs db
  else if cmd.name = "tp" ∨ cmd.name = "tp+" then
    topoArgs cmd.attrs db
  else if cmd.name = "proc" then
    procArgs cmd.attrs
  else
    []

/--
The handler ends, with what it returns and the response of the dispatcher, unless a string function
does not return.
-/
def Client.handled (rgb2xy kelvin2xy : Int32 → Int32 × Int32) (cmd : Command) (s : Client)
    : Option (Client × Int × Option Reply) :=
  if none ∈ cmd.args s.db then
    none
  else
    let (s, ret, failed) := s.dispatch rgb2xy kelvin2xy cmd
    some (s, ret, Client.respond cmd s.iotError ret failed)

end ControlInterface
