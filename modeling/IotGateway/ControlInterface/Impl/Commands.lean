import IotGateway.ControlInterface.Impl.Ctrl
import IotGateway.ControlInterface.Impl.DbEdit
import IotGateway.ControlInterface.Impl.Topo
import IotGateway.ControlInterface.Impl.Upload
import IotGateway.NewDb.Impl.PlugReadings

/-!
This module contains the handlers of the commands of a client with what they return, the global
variable `iotError` that they use, and the dispatcher that answers the client.
-/

namespace ControlInterface

open NewDb Json IotError

/--
What a call of `queueOpen` or `queueWrite` makes of `iotError`.
-/
inductive QueueResult where
  | ok
  | create
  | open
  | write
  | bufsize
  deriving DecidableEq

def QueueResult.iotError (r : QueueResult) (iotError : Int) : Int :=
  match r with
  | .ok => iotError
  | .create => IOT_ERROR_QUEUE_CREATE
  | .open => IOT_ERROR_QUEUE_OPEN
  | .write => IOT_ERROR_QUEUE_WRITE
  | .bufsize => IOT_ERROR_QUEUE_BUFSIZE

/--
The queue to the ZCB daemon: how the next calls go, the messages in it and `iotError`.
-/
structure Queue where
  results : List QueueResult
  sent : List Object := []
  iotError : Int

def Queue.queueOpen (q : Queue) : Queue × Bool :=
  let r := q.results.headD .ok
  ({ q with results := q.results.tail, iotError := r.iotError q.iotError }, r = .ok)

def Queue.queueWrite (message : Object) (q : Queue) : Queue :=
  let r := q.results.headD .ok
  { results := q.results.tail
    sent := if r = .ok then q.sent ++ [message] else q.sent
    iotError := r.iotError q.iotError }

def Queue.queueWriteOneMessage (q : Queue) (message : Object) : Queue :=
  match q.queueOpen with
  | (q, true) => q.queueWrite message
  | (q, false) => q

/--
What a handler may change, but for the variables of a topology upload. `responses` is what it has
sent to the client.
-/
structure Handler where
  db : Db
  queue : Queue
  responses : List Object := []

/--
The surroundings of a command: what other processes have done to the tables before it, what the clock
shows, how the calls of the queue and `socketWrite` go, and those of an upload.
-/
structure Surroundings where
  others : List Mutation := []
  now : Int := 0
  now' : Int := 0
  queue : List QueueResult := []
  socketWrite : Bool := true
  schedule : Schedule
  topodevs : List TopoDev := []

def isHexDigit (c : Char) : Bool := c.isDigit || 'a' ≤ c && c ≤ 'f' || 'A' ≤ c && c ≤ 'F'

def hexDigit (c : Char) : Nat :=
  if c.isDigit then c.toNat - 48 else if 'a' ≤ c then c.toNat - 87 else c.toNat - 55

/--
`strtol( string, NULL, 16 )` in an `int`, for texts that do not overflow a `long`.
-/
def AtoiHex (string : String) : Int :=
  if string = "" then
    -1
  else
    let text := string.toList.dropWhile Char.isWhitespace
    let (sign, text) : Int × List Char :=
      match text with
      | '-' :: text => (-1, text)
      | '+' :: text => (1, text)
      | text => (1, text)
    let text :=
      match text with
      | '0' :: x :: c :: rest => if (x = 'x' ∨ x = 'X') ∧ isHexDigit c then c :: rest else text
      | text => text
    let value := (text.takeWhile isHexDigit).foldl (fun n c => n * 16 + hexDigit c) 0
    (Int32.ofInt (sign * value)).toInt

/--
`%08x`
-/
def hex8 (value : Int) : String :=
  let digits := Nat.toDigits 16 (Int32.ofInt value).toUInt32.toNat
  String.ofList (List.replicate (8 - digits.length) '0' ++ digits)

def newDbSystemGetInt (db : Db) (name : String) : Int :=
  match newDbGetSystem db name with
  | some sys => sys.intval
  | none => -1

section

variable (rgb2xy kelvin2xy : Int32 → Int32 × Int32) (env : Surroundings) (attrs : Attrs)

/--
`iotError == IOT_ERROR_NONE`, as an integer
-/
def Handler.noError (s : Handler) : Int := if s.queue.iotError = IOT_ERROR_NONE then 1 else 0

def Handler.fail (error : Int) (s : Handler) : Handler :=
  { s with queue := { s.queue with iotError := error } }

def Handler.write (s : Handler) (message : Object) : Handler :=
  { s with queue := s.queue.queueWriteOneMessage message }

/--
What the commands make of a device with the column `dev`, as responses or an error.
-/
def dbgetDevice (db : Db) (device : Device) : Except Int (List Object) :=
  let joined : Int32 :=
    if device.flags.msb then -1 else if device.flags &&& FLAG_DEV_JOINED ≠ 0 then 1 else 0
  let ui :=
    jsonUI (-1) device.mac none (-1) (-1) (Int32.ofInt device.heat) (Int32.ofInt device.cool) joined
  let sensor :=
    jsonSensor (-1) device.mac none (-1) (-1) (Int32.ofInt device.tmp) (Int32.ofInt device.hum)
      (Int32.ofInt device.prs) (Int32.ofInt device.co2) (Int32.ofInt device.bat)
      (Int32.ofInt device.batl) (Int32.ofInt device.als) (Int32.ofInt device.xloc)
      (Int32.ofInt device.yloc) (Int32.ofInt device.zloc) joined
  if device.dev = DEVICE_DEV_MANAGER then
    .ok [jsonManager (-1) device.mac none (-1) none joined]
  else if device.dev = DEVICE_DEV_UISENSOR then
    .ok [ui, sensor]
  else if device.dev = DEVICE_DEV_UI then
    .ok [ui]
  else if device.dev = DEVICE_DEV_SENSOR then
    .ok [sensor]
  else if device.dev = DEVICE_DEV_PUMP then
    .ok
      [jsonPump (-1) device.mac none (-1) (-1) (Int32.ofInt device.sid) (some device.cmd)
        (Int32.ofInt device.lvl) joined]
  else if device.dev = DEVICE_DEV_LAMP then
    .ok
      [jsonLamp (-1) device.mac none (-1) none (some device.cmd) (Int32.ofInt device.lvl)
        (Int32.ofInt device.rgb) (Int32.ofInt device.kelvin) joined]
  else if device.dev = DEVICE_DEV_PLUG then
    let dayHistory := plugGetHistory db device.mac env.now 60 24
    let plug_h24 := dayHistory 0 - dayHistory 23
    .ok
      [jsonPlug (-1) device.mac none (-1) (some device.cmd) (Int32.ofInt device.act)
        (Int32.ofInt device.sum) (Int32.ofInt plug_h24) joined (-1)]
  else if device.dev = DEVICE_DEV_SWITCH then
    .ok []
  else if device.dev < 0 then
    .error IOT_ERROR_NON_EXISTING_MAC
  else
    .error IOT_ERROR_DEVICE_HAS_NO_GET

/--
The responses to one command always fit into the buffer. A device that is not there is no error.
-/
def Handler.dbgetHandle (s : Handler) : Handler × Int :=
  let found :=
    match attrs.parsingGetStringAttr0 "mac" with
    | some mac =>
      match newDbGetDevice s.db mac.upper with
      | some device => dbgetDevice env s.db device
      | none => .ok []
    | none => .error IOT_ERROR_NO_MAC
  let s :=
    match found with
    | .ok [] => s
    | .ok responses =>
      if env.socketWrite then
        { s with responses := s.responses ++ responses }
      else
        s.fail IOT_ERROR_SOCKET_WRITE
    | .error error => s.fail error
  (s, s.noError)

/--
The global variable is set if the command fails.
-/
def Handler.dbEditHandle (s : Handler) : Handler × Int :=
  let (db, error) := ControlInterface.dbEditHandle attrs env.now env.now' s.db
  let s := { s with db }
  let s := if error ≠ IOT_ERROR_NONE then s.fail error else s
  (s, s.noError)

/--
The three messages are written in one go.
-/
def Handler.tunnel (tunnelManager : Int) (tunnelMessage : Object) (s : Handler) : Handler :=
  if 0 ≤ tunnelManager then
    match newDbDeviceGetMac s.db tunnelManager with
    | some tunnelMac =>
      match s.queue.queueOpen with
      | (queue, true) =>
        let queue := queue.queueWrite (jsonTunnelOpen tunnelMac)
        { s with queue := (queue.queueWrite tunnelMessage).queueWrite jsonTunnelClose }
      | (queue, false) => { s with queue }
    | none => s.fail IOT_ERROR_NON_EXISTING_MAC
  else
    s

def Handler.control (control : Control) (s : Handler) : Handler :=
  let s := control.messages.foldl Handler.write s
  let db := if control.changed then (newDbSetDevice s.db control.device env.now).1 else s.db
  { s with db }.tunnel control.tunnelManager control.tunnelMessage

def Handler.ctrlHandle (s : Handler) : Handler × Int :=
  let s := s.fail IOT_ERROR_NONE
  let s :=
    match attrs.parsingGetStringAttr0 "mac" with
    | some mac =>
      match newDbGetDevice s.db mac.upper with
      | some device => s.control env (controlDevice rgb2xy attrs mac.upper device)
      | none => s.fail IOT_ERROR_NON_EXISTING_MAC
    | none => s.fail IOT_ERROR_NO_MAC
  (s, s.noError)

/--
A factory reset sets a channel mask that there is and starts the network.
-/
def Handler.resetrsp (s : Handler) : Handler :=
  let chanmask := newDbSystemGetInt s.db "chanmask"
  let s := if 0 < chanmask then s.write (jsonCmdSetChannelMask (hex8 chanmask)) else s
  s.write jsonCmdStartNetwork

/--
The last step of some commands.
-/
def Handler.message (s : Handler) (message : Object) : Handler × Int :=
  let s := s.write message
  (s, s.noError)

/--
The commands for the operating system (`system`) are left out.
-/
def Handler.cmdHandle (s : Handler) : Handler × Int :=
  let reset := attrs.parsingGetIntAttr "reset"
  let resetrsp := attrs.parsingGetIntAttr "resetrsp"
  let duration := attrs.parsingGetIntAttr "duration"
  let nfcmode := attrs.parsingGetIntAttr "nfcmode"
  if 0 ≤ reset then
    (s.write (jsonCmdReset reset), 0)
  else if 0 ≤ resetrsp then
    (if resetrsp = 0 then s.resetrsp else s, 0)
  else if 0 ≤ attrs.parsingGetIntAttr "getversion" then
    s.message jsonCmdGetVersion
  else if 0 ≤ duration then
    let db :=
      if 0 < duration then
        (newDbSystemSaveIntval s.db "permit" (env.now + duration.toInt) env.now env.now').1
      else
        (newDbDeleteSystem s.db "permit" env.now).1
    let target := (attrs.parsingGetStringAttr0 "setpermit").map (·.1)
    { s with db }.message (jsonCmdSetPermitJoin target duration)
  else if 0 ≤ nfcmode then
    ({ s with db := (newDbSystemSaveIntval s.db "nfcmode" nfcmode.toInt env.now env.now').1 }, 0)
  else if 0 ≤ attrs.parsingGetIntAttr "system" then
    (s, 0)
  else
    match attrs.parsingGetStringAttr0 "chanmask" with
    | some strval =>
      let db := (newDbSystemSaveIntval s.db "chanmask" (AtoiHex strval) env.now env.now').1
      { s with db }.message (jsonCmdSetChannelMask strval)
    | none => (s, 0)

/--
A `mac` that is not there is printed as `(null)`.
-/
def Handler.lmpHandle (s : Handler) : Handler × Int :=
  let mac := (attrs.parsingGetStringAttr0 "mac").map (·.1)
  let grp := (attrs.parsingGetStringAttr0 "grp").map (·.1)
  let scn := (attrs.parsingGetStringAttr0 "scn").map (·.1)
  let grpid := attrs.parsingGetIntAttr "grpid"
  let scnid := attrs.parsingGetIntAttr "scnid"
  let s :=
    if grp.isSome ∨ 0 < grpid ∨ scn.isSome ∨ 0 < scnid then
      s.write (jsonLampGroup (mac.getD "(null)") grp grpid scn scnid)
    else
      s
  (s, s.noError)

def Handler.grpHandle (s : Handler) : Handler × Int :=
  let cmd := (attrs.parsingGetStringAttr0 "cmd").map (·.1)
  let scn := (attrs.parsingGetStringAttr0 "scn").map (·.1)
  s.message
    (jsonGroup rgb2xy kelvin2xy (attrs.parsingGetIntAttr "grpid") scn
      (attrs.parsingGetIntAttr "scnid") cmd (attrs.parsingGetIntAttr "lvl")
      (attrs.parsingGetIntAttr "rgb") (attrs.parsingGetIntAttr "kelvin")
      (attrs.parsingGetIntAttr "xcr") (attrs.parsingGetIntAttr "ycr"))

/--
A device that is not there is no error.
-/
def Handler.sensorHandle (s : Handler) : Handler × Int :=
  let s :=
    match attrs.parsingGetStringAttr0 "mac" with
    | some mac =>
      let edit :=
        ControlInterface.sensorHandle mac (attrs.parsingGetStringAttr0 "nm")
          (attrs.parsingGetIntAttr "xloc") (attrs.parsingGetIntAttr "yloc")
          (attrs.parsingGetIntAttr "zloc")
      { s with db := (edit.run env.now env.now' s.db).1 }
    | none => s
  (s, s.noError)

/--
The processes are controlled by the operating system.
-/
def Handler.procHandle (s : Handler) : Handler × Int := (s, 0)

end

/--
The variables of the process that handles a client. The tables and `iotError` are those of `upload`.
-/
structure Client where
  topo : TopoState := {}
  upload : Upload

def Client.db (s : Client) : Db := s.upload.db

def Client.iotError (s : Client) : Int := s.upload.gen.iotError

def Client.setDb (db : Db) (s : Client) : Client := { s with upload := { s.upload with db } }

def Client.fail (error : Int) (s : Client) : Client := { s with upload := s.upload.fail error }

/--
`handle` does not use the variables of an upload.
-/
def Client.handle (env : Surroundings) (handle : Handler → Handler × Int) (s : Client)
    : Client × Int :=
  let queue := { results := env.queue, iotError := s.iotError }
  let (h, ret) := handle { db := s.db, queue }
  ((s.setDb h.db).fail h.queue.iotError, ret)

def Client.topoUpload (env : Surroundings) (s : Client) : Client × Int :=
  let (upload, error) := uploadTopo env.schedule env.topodevs s.upload
  if error ≠ IOT_ERROR_NONE then ({ s with upload }.fail error, -1) else ({ s with upload }, 1)

def Client.topoHandle (env : Surroundings) (attrs : Attrs) (s : Client) : Client × Int :=
  match topoCommand attrs with
  | .error error => (s.fail error, -1)
  | .ok none => (s, 0)
  | .ok (some cmd) =>
    let (topo, db) := topoRun cmd env.now env.now' s.topo s.db
    let s := { s.setDb db with topo }
    match cmd with
    | .endconf | .upload => s.topoUpload env
    | .clearall | .declare _ => (s, 0)

/--
The replies of the dispatcher.
-/
inductive Reply where
  | jsonTopoStatus (status : Int32)
  | jsonError (error : Int)
  deriving DecidableEq

def Reply.message : Reply → List Char
  | .jsonTopoStatus status => (Json.jsonTopoStatus status).message
  | .jsonError error => catString ['\n'] (catNameValue (int "error" (Int32.ofInt error)) [])

/--
A command with its attributes.
-/
structure Command where
  name : String
  attrs : Attrs
  env : Surroundings

/--
What `iotError` is when the handler has ended, and the response of the dispatcher.
-/
structure Answer where
  iotError : Int
  response : Option Reply
  deriving DecidableEq

section

variable (rgb2xy kelvin2xy : Int32 → Int32 × Int32)

/--
The handler with the comparison of what it returns that makes an error of it.
-/
def Client.dispatch (cmd : Command) (s : Client) : Client × Int × Bool :=
  let not := fun (r : Client × Int) => (r.1, r.2, decide (r.2 = 0))
  let negative := fun (r : Client × Int) => (r.1, r.2, decide (r.2 < 0))
  let env := cmd.env
  let attrs := cmd.attrs
  if cmd.name = "dbget" then
    not (s.handle env (Handler.dbgetHandle env attrs))
  else if cmd.name = "dbedit" then
    not (s.handle env (Handler.dbEditHandle env attrs))
  else if cmd.name = "ctrl" then
    negative (s.handle env (Handler.ctrlHandle rgb2xy env attrs))
  else if cmd.name = "cmd" then
    negative (s.handle env (Handler.cmdHandle env attrs))
  else if cmd.name = "lmp" then
    negative (s.handle env (Handler.lmpHandle attrs))
  else if cmd.name = "grp" then
    negative (s.handle env (Handler.grpHandle rgb2xy kelvin2xy attrs))
  else if cmd.name = "sensor" then
    negative (s.handle env (Handler.sensorHandle env attrs))
  else if cmd.name = "tp" ∨ cmd.name = "tp+" then
    negative (s.topoHandle env attrs)
  else if cmd.name = "proc" then
    not (s.handle env Handler.procHandle)
  else
    (s, 0, false)

def Client.respond (cmd : Command) (iotError ret : Int) (failed : Bool) : Option Reply :=
  let error := if failed then iotError else IOT_ERROR_NONE
  if (cmd.name = "tp" ∨ cmd.name = "tp+") ∧ 0 < ret then
    some (.jsonTopoStatus 1)
  else if error ≠ IOT_ERROR_NONE then
    some (.jsonError error)
  else
    none

/--
`iotError` is reset after each object.
-/
def ci_onObjectComplete (s : Client) (cmd : Command) : Client × List Answer :=
  let s := s.setDb (cmd.env.others.foldl Mutation.apply s.db)
  let (s, ret, failed) := s.dispatch rgb2xy kelvin2xy cmd
  (s.fail IOT_ERROR_NONE,
    [{ iotError := s.iotError, response := Client.respond cmd s.iotError ret failed }])

end

end ControlInterface
