import IotGateway.Json.Basic

/-!
This module contains the JSON message constructors. Each of them starts a message with the name of an
object and then adds members to it.
-/

namespace Json

def MAXJSONMESSAGE : Nat := 500
def MAXNAMEVALUE : Nat := 160

/--
What is formatted behind a name. `null` is a `NULL` that is given to `%s`.
-/
inductive Arg where
  | int (value : Int32)
  | string (value : String)
  | null
  deriving DecidableEq

structure Member where
  name : String
  value : Arg
  deriving DecidableEq

/--
`%d`
-/
def decimal (value : Int32) : List Char :=
  if value.toInt < 0 then
    '-' :: Nat.toDigits 10 value.toInt.natAbs
  else
    Nat.toDigits 10 value.toInt.natAbs

def Arg.text : Arg → List Char
  | .int value => decimal value
  | .string value => '"' :: value.toList ++ ['"']
  | .null => "\"(null)\"".toList

def catString (string : List Char) (jsonMessage : List Char) : List Char :=
  if jsonMessage.length + string.length < MAXJSONMESSAGE then jsonMessage ++ string else jsonMessage

def catName (name : String) (jsonMessage : List Char) : List Char :=
  catString ('"' :: name.toList ++ ['"']) jsonMessage

/--
The string that `catNameValueInt` and `catNameValueString` format.
-/
def Member.text (m : Member) : List Char := '"' :: m.name.toList ++ ['"', ':'] ++ m.value.text

def catNameValue (m : Member) (jsonMessage : List Char) : List Char := catString m.text jsonMessage

/--
What a constructor makes a message of: the name of the object, the members in the order in which they
are added, and whether it has overrun a buffer of its own.
-/
structure Object where
  name : String
  members : List Member
  overrun : Bool := false

def catMembers : List Member → List Char → List Char
  | [], jsonMessage => jsonMessage
  | [m], jsonMessage => catNameValue m jsonMessage
  | m :: members, jsonMessage =>
    catMembers members (catString ", ".toList (catNameValue m jsonMessage))

/--
The calls of the `cat` functions that all constructors consist of.
-/
def Object.message (o : Object) : List Char :=
  let jsonMessage := catName o.name []
  let jsonMessage := catString " : \x7b ".toList jsonMessage
  let jsonMessage := catMembers o.members jsonMessage
  catString " \x7d\n".toList jsonMessage

def int (name : String) (value : Int32) : Member := ⟨name, .int value⟩

def string (name : String) (value : String) : Member := ⟨name, .string value⟩

/--
A string argument that is compared with `NULL`.
-/
def ifString (name : String) : Option String → List Member
  | some value => [string name value]
  | none => []

def ifInt (present : Bool) (name : String) (value : Int32) : List Member :=
  if present then [int name value] else []

/--
A string argument that is compared with `0` by `>=`, which holds of every pointer.
-/
def stringOrNull (name : String) : Option String → Member
  | some value => string name value
  | none => ⟨name, .null⟩

def jsonCmd (name : String) (value : Int32) : Object where
  name := "cmd"
  members := [int name value]

def jsonCmdString (name : String) (value : String) : Object where
  name := "cmd"
  members := [string name value]

def jsonZcb (name : String) (value : Int32) : Object where
  name := "zcb"
  members := [int name value]

def jsonZcbString (name : String) (value : String) : Object where
  name := "zcb"
  members := [string name value]

def jsonCmdGetStatus : Object := jsonCmd "getstatus" 1

def jsonZcbStatus (status : Int32) : Object := jsonZcb "status" status

def jsonZcbLog (text : String) : Object := jsonZcbString "log" text

def jsonCmdReset (mode : Int32) : Object := jsonCmd "reset" mode

def jsonZcbResetRsp (ret : Int32) : Object := jsonZcb "resetrsp" ret

def jsonCmdResetRsp (ret : Int32) : Object := jsonCmd "resetrsp" ret

def jsonCmdStartNetwork : Object := jsonCmd "startnwk" 1

def jsonZcbStartRsp (ret : Int32) : Object := jsonZcb "startrsp" ret

def jsonCmdErase : Object := jsonCmd "erase" 1

def jsonCmdSystem (system : Int32) (strval : Option String) : Object where
  name := "cmd"
  members := [int "system" system] ++ ifString "strval" strval

def jsonZcbAnnounce (mac dev : String) (ty : Option String) : Object where
  name := "zcb"
  members := [string "joined" mac, string "dev" dev] ++ ifString "ty" ty

def jsonCmdGetVersion : Object := jsonCmd "getversion" 1

/--
The version is formatted in a buffer of 20 characters first.
-/
def jsonZcbVersion (major minor : Int32) : Object :=
  let buf := 'r' :: decimal major ++ '.' :: decimal minor
  { jsonZcbString "version" (String.ofList buf) with overrun := decide (20 ≤ buf.length) }

def jsonCmdNfcmode (nfcMode : Int32) : Object := jsonCmd "nfcmode" nfcMode

def jsonCmdSetExtPan (extPanID : String) : Object := jsonCmdString "setextpanid" extPanID

def jsonCmdSetChannelMask (channelMask : String) : Object := jsonCmdString "chanmask" channelMask

def jsonZcbChanMaskRsp (channelMask : String) : Object := jsonZcbString "chanrsp" channelMask

def jsonZcbChanRsp (channel : Int32) : Object := jsonZcb "chanrsp" channel

def jsonCmdSetDeviceType (devType : Int32) : Object := jsonCmd "setdevicetype" devType

def jsonCmdGetPermitJoin : Object := jsonCmd "getpermit" 1

def jsonZcbRspPermitJoin (status : Int32) : Object := jsonZcb "permit" status

def jsonCmdSetPermitJoin (target : Option String) (duration : Int32) : Object where
  name := "cmd"
  members := [string "setpermit" (target.getD "1"), int "duration" duration]

def jsonCmdAuthorizeRequest (mac linkkey : String) : Object where
  name := "cmd"
  members := [string "authorize" mac, string "linkkey" linkkey]

def jsonZcbAuthorizeResponse (mac nwKey mic tcAddress : String) (keySeq channel : Int32)
    (pan extPan : String) : Object where
  name := "zcb"
  members :=
    [string "authorize" mac, string "key" nwKey, string "mic" mic, string "tcaddr" tcAddress,
      int "keyseq" keySeq, int "chan" channel, string "pan" pan, string "extpan" extPan]

def jsonTls (label val : String) : Object where
  name := "tls"
  members := [string label val]

def jsonLinkInfo (nw_version nw_type nw_profile : Int32) (mac linkkey : String) : Object where
  name := "linkinfo"
  members :=
    [int "version" nw_version, int "type" nw_type, int "profile" nw_profile, string "mac" mac,
      string "linkkey" linkkey]

def jsonJoinSecure (channel keysequence : Int32)
    (pan extendedPan networkKey mic tcAddress : String) : Object where
  name := "joinsecure"
  members :=
    [int "chan" channel, int "keyseq" keysequence, string "pan" pan, string "extpan" extendedPan,
      string "nwkey" networkKey, string "mic" mic, string "tcaddr" tcAddress]

def jsonManager (id : Int32) (mac : String) (nm : Option String) (rm : Int32) (ty : Option String)
    (joined : Int32) : Object where
  name := "manager"
  members :=
    ifInt (0 ≤ id) "id" id ++ [string "mac" mac] ++ ifString "nm" nm ++ ifInt (0 ≤ rm) "rm" rm
      ++ ifString "ty" ty ++ ifInt (0 ≤ joined) "jnd" joined

def jsonUI (id : Int32) (mac : String) (nm : Option String) (rm man heat cool joined : Int32)
    : Object where
  name := "ui"
  members :=
    ifInt (0 ≤ id) "id" id ++ [string "mac" mac] ++ ifString "nm" nm ++ ifInt (0 ≤ rm) "rm" rm
      ++ ifInt (0 ≤ man) "man" man ++ ifInt (0 ≤ heat) "heat" heat ++ ifInt (0 ≤ cool) "cool" cool
      ++ ifInt (0 ≤ joined) "jnd" joined

def jsonUiCtrl (mac : String) (heat cool : Int32) : Object where
  name := "ctrl"
  members := [string "mac" mac] ++ ifInt (0 ≤ heat) "heat" heat ++ ifInt (0 ≤ cool) "cool" cool

def jsonSensor (id : Int32) (mac : String) (nm : Option String)
    (rm ui tmp hum prs co2 bat batl als xloc yloc zloc joined : Int32) : Object where
  name := "sensor"
  members :=
    ifInt (0 ≤ id) "id" id ++ [string "mac" mac] ++ ifString "nm" nm ++ ifInt (0 ≤ rm) "rm" rm
      ++ ifInt (0 ≤ ui) "ui" ui ++ ifInt (0 ≤ tmp) "tmp" tmp ++ ifInt (0 ≤ hum) "hum" hum
      ++ ifInt (0 ≤ prs) "prs" prs ++ ifInt (0 ≤ co2) "co2" co2 ++ ifInt (0 ≤ bat) "bat" bat
      ++ ifInt (0 ≤ batl) "batl" batl ++ ifInt (0 ≤ als) "als" als
      ++ ifInt (xloc != Int32.minValue) "xloc" xloc ++ ifInt (yloc != Int32.minValue) "yloc" yloc
      ++ ifInt (zloc != Int32.minValue) "zloc" zloc ++ ifInt (0 ≤ joined) "jnd" joined

def jsonPump (id : Int32) (mac : String) (nm : Option String) (rm sen sid : Int32)
    (cmd : Option String) (lvl joined : Int32) : Object where
  name := "pmp"
  members :=
    ifInt (0 ≤ id) "id" id ++ [string "mac" mac] ++ ifString "nm" nm ++ ifInt (0 ≤ rm) "rm" rm
      ++ ifInt (0 ≤ sen) "sen" sen ++ ifInt (0 ≤ sid) "sid" sid ++ ifString "cmd" cmd
      ++ ifInt (0 ≤ lvl) "lvl" lvl ++ ifInt (0 ≤ joined) "jnd" joined

def jsonLampInternal (id : Int32) (mac : String) (nm : Option String) (rm : Int32)
    (ty cmd : Option String) (lvl rgb kelvin xcr ycr joined : Int32) : Object where
  name := "lmp"
  members :=
    ifInt (0 ≤ id) "id" id ++ [string "mac" mac] ++ ifString "nm" nm ++ ifInt (0 ≤ rm) "rm" rm
      ++ ifString "ty" ty ++ ifString "cmd" cmd ++ ifInt (0 ≤ lvl) "lvl" lvl
      ++ ifInt (0 ≤ rgb) "rgb" rgb ++ ifInt (0 ≤ kelvin) "kelvin" kelvin
      ++ ifInt (0 ≤ xcr) "xcr" xcr ++ ifInt (0 ≤ ycr) "ycr" ycr ++ ifInt (0 ≤ joined) "jnd" joined

def jsonLamp (id : Int32) (mac : String) (nm : Option String) (rm : Int32) (ty cmd : Option String)
    (lvl rgb kelvin joined : Int32) : Object :=
  jsonLampInternal id mac nm rm ty cmd lvl rgb kelvin (-1) (-1) joined

def jsonLamp_xyY (id : Int32) (mac : String) (nm : Option String) (rm : Int32)
    (ty cmd : Option String) (lvl xcr ycr joined : Int32) : Object :=
  jsonLampInternal id mac nm rm ty cmd lvl (-1) (-1) xcr ycr joined

def jsonPlug (id : Int32) (mac : String) (nm : Option String) (rm : Int32) (cmd : Option String)
    (act sum h24 joined autoinsert : Int32) : Object where
  name := "plg"
  members :=
    ifInt (0 ≤ id) "id" id ++ [string "mac" mac] ++ ifString "nm" nm ++ ifInt (0 ≤ rm) "rm" rm
      ++ ifString "cmd" cmd ++ ifInt (0 ≤ act) "act" act ++ ifInt (0 ≤ sum) "sum" sum
      ++ ifInt (0 ≤ h24) "h24" h24 ++ ifInt (0 ≤ joined) "jnd" joined
      ++ ifInt (0 ≤ autoinsert) "autoinsert" autoinsert

def jsonPlugCmd (mac : String) (cmd : Option String) : Object :=
  jsonPlug (-1) mac none (-1) cmd (-1) (-1) (-1) (-1) (-1)

def jsonAct (mac : String) (sid : Int32) (cmd : Option String) (lvl : Int32) : Object where
  name := "act"
  members :=
    [string "mac" mac] ++ ifInt (0 ≤ sid) "sid" sid ++ ifString "cmd" cmd ++ ifInt (0 ≤ lvl) "lvl" lvl

def jsonControl (mac : String) (cmd : Option String) (_sid lvl rgb kelvin heat cool : Int32)
    : Object where
  name := "ctrl"
  members :=
    [string "mac" mac] ++ ifString "cmd" cmd ++ ifInt (0 ≤ lvl) "lvl" lvl
      ++ ifInt (0 ≤ rgb) "rgb" rgb ++ ifInt (0 ≤ kelvin) "kelvin" kelvin
      ++ ifInt (0 ≤ heat) "heat" heat ++ ifInt (0 ≤ cool) "cool" cool

section

-- The conversions between color spaces compute with floating point numbers.
variable (rgb2xy kelvin2xy : Int32 → Int32 × Int32)

def jsonLampToZigbee (mac : String) (cmd : Option String) (lvl rgb kelvin : Int32) : Object where
  name := "lmp"
  members :=
    let lvl := if (0 ≤ kelvin ∨ 0 ≤ rgb) ∧ lvl < 0 then 100 else lvl
    let color :=
      if kelvin = 0 ∧ rgb = 0 then
        [int "xcr" (rgb2xy 0xFFFFFF).1, int "ycr" (rgb2xy 0xFFFFFF).2]
      else if 0 ≤ kelvin then
        [int "kelvin" kelvin]
      else if 0 ≤ rgb then
        [int "xcr" (rgb2xy rgb).1, int "ycr" (rgb2xy rgb).2]
      else
        []
    [string "mac" mac] ++ ifString "cmd" cmd ++ ifInt (0 ≤ lvl) "lvl" lvl ++ color

def jsonGroup (grpid : Int32) (scn : Option String) (scnid : Int32) (cmd : Option String)
    (lvl rgb kelvin xcr ycr : Int32) : Object where
  name := "grp"
  members :=
    let full := if 0 ≤ lvl then lvl else 100
    let (lvl, xcr, ycr) :=
      if 0 ≤ rgb then
        (full, rgb2xy rgb)
      else if 0 ≤ kelvin then
        (full, kelvin2xy kelvin)
      else
        match cmd with
        | some cmd => (if cmd = "on" then full else -1, xcr, ycr)
        | none => (lvl, xcr, ycr)
    [int "grpid" grpid] ++ ifString "scn" scn ++ ifInt (0 ≤ scnid) "scnid" scnid
      ++ ifString "cmd" cmd ++ ifInt (0 ≤ lvl) "lvl" lvl ++ ifInt (0 ≤ xcr) "xcr" xcr
      ++ ifInt (0 ≤ ycr) "ycr" ycr

end

def jsonClimateWater (mac : String) (out ret : Int32) : Object where
  name := "status"
  members := [string "cmh" mac] ++ ifInt (0 ≤ out) "out" out ++ ifInt (0 ≤ ret) "ret" ret

def jsonClimateBurner (mac : String) (burner : Option String) (power : Int32) : Object where
  name := "status"
  members :=
    [string "cmh" mac] ++ [stringOrNull "burner" burner] ++ ifInt (0 ≤ power) "power" power

def jsonClimateCooler (mac : String) (cooler : Option String) (power : Int32) : Object where
  name := "status"
  members :=
    [string "cmc" mac] ++ [stringOrNull "cooler" cooler] ++ ifInt (0 ≤ power) "power" power

def jsonTp (cmd : String) : Object where
  name := "tp"
  members := [string "cmd" cmd]

def jsonTopoClear : Object := jsonTp "clearall"

def jsonTopoClearTopo : Object := jsonTp "cleartopo"

def jsonTopoEnd : Object := jsonTp "endconf"

def jsonTopoGet : Object := jsonTp "getconf"

def jsonTopoUpload : Object := jsonTp "upload"

def jsonTopoStatus (status : Int32) : Object where
  name := "tp"
  members := [int "status" status]

def jsonTopoAddDevice (device mac : String) (name type : Option String) (sid : Int32) : Object where
  name := "tp+"
  members :=
    [string device mac] ++ ifString "nm" name ++ ifString "ty" type ++ ifInt (0 < sid) "sid" sid

def jsonTopoAddManager (mac : String) (name type : Option String) : Object :=
  jsonTopoAddDevice "man" mac name type 0

def jsonTopoAddUI (mac : String) (name : Option String) : Object :=
  jsonTopoAddDevice "ui" mac name none 0

def jsonTopoAddSensor (mac : String) (name : Option String) : Object :=
  jsonTopoAddDevice "sen" mac name none 0

def jsonTopoAddPump (mac : String) (name : Option String) (sid : Int32) : Object :=
  jsonTopoAddDevice "pmp" mac name none sid

def jsonTopoAddPlug (mac : String) (name : Option String) : Object :=
  jsonTopoAddDevice "plg" mac name none 0

def jsonTopoAddLamp (mac : String) (name type : Option String) : Object :=
  jsonTopoAddDevice "lmp" mac name type 0

def jsonTopoAddNone : Object where
  name := "tp+"
  members := [string "cmd" "none"]

def jsonTopoResponse (errcode : Int32) : Object where
  name := "tprsp"
  members := [int "errcode" errcode]

def jsonTunnelOpen (mac : String) : Object where
  name := "tunnel"
  members := [string "open" mac]

def jsonTunnelClose : Object where
  name := "tunnel"
  members := [int "close" 0]

def jsonDbGet (mac : String) : Object where
  name := "dbget"
  members := [string "mac" mac]

def jsonDbGetRoom (room ts : Int32) : Object where
  name := "dbget"
  members := [int "room" room] ++ ifInt (0 < ts) "ts" ts

def jsonDbGetBegin (ts : Int32) : Object where
  name := "dbget"
  members := [int "begin" ts]

def jsonDbGetEnd (count : Int32) : Object where
  name := "dbget"
  members := [int "end" count]

def jsonDbEditAdd (mac : String) (dev : Int32) (ty : Option String) : Object where
  name := "dbedit"
  members := [string "add" mac, int "dev" dev] ++ ifString "ty" ty

def jsonDbEditRem (mac : String) : Object where
  name := "dbedit"
  members := [string "rem" mac]

def jsonDbEditClr (clr : String) : Object where
  name := "dbedit"
  members := [string "clr" clr]

def jsonLampGroup (mac : String) (grp : Option String) (grpid : Int32) (scn : Option String)
    (scnid : Int32) : Object where
  name := "lmp"
  members :=
    [string "mac" mac] ++ ifString "grp" grp ++ ifInt (0 < grpid) "grpid" grpid
      ++ ifString "scn" scn ++ ifInt (0 < scnid) "scnid" scnid

def jsonGwProperties (name : String) (ifversion : Int32) : Object where
  name := "gateway"
  members := [string "name" name, int "ifversion" ifversion]

def jsonProcStart (proc : String) : Object where
  name := "proc"
  members := [string "start" proc]

def jsonProcStop (proc : String) : Object where
  name := "proc"
  members := [string "stop" proc]

def jsonProcRestart (proc : String) : Object where
  name := "proc"
  members := [string "restart" proc]

end Json
