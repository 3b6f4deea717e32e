import IotGateway.ControlInterface.Impl.TopoGen
import IotGateway.Json.Impl.Parser
import IotGateway.NewDb.Impl.Tables

/-!
This module contains the upload of the topology. The commands go to the ZCB one at a time, and what
the node answers comes back through the queue of the control interface.
-/

namespace ControlInterface

open NewDb IotError Json

def MAX_RETRIES : Nat := 3

def INT_MAX : Int := 2147483647

/--
A topology response. `answers` only remembers which try of which command the node has answered, it is
not in the text. It is `none` for a command of another upload.
-/
structure Response where
  errcode : Int32
  answers : Option (Nat × Nat)
  deriving DecidableEq

def Response.text (r : Response) : List Char := (jsonTopoResponse r.errcode).message

/--
What an upload does to the queues, with the index of the command and the number of the try.
-/
inductive UploadEvent where
  | flush (r : Response)
  | write (i t : Nat) (text : List Char) (ok : Bool)
  | read (i t : Nat) (r : Response)
  deriving DecidableEq

/--
What other processes do to the tables before an access, and what the clock shows then.
-/
structure Turn where
  others : List Mutation := []
  now : Int := 0
  now' : Int := 0

def Turn.pass (turn : Turn) (db : Db) : Db := turn.others.foldl Mutation.apply db

/--
All that an upload does not decide itself. A queue that does not open sets `iotError`. What is read
after a try is any response or none, so that responses are late, lost, repeated and out of order.
-/
structure Schedule where
  lock : Nat → Turn := fun _ => {}
  zcbQueue : Except Int Unit := .ok ()
  controlQueue : Except Int Unit := .ok ()
  flushed : List Response := []
  writes : Nat → Nat → Bool := fun _ _ => true
  reads : Nat → Nat → Option Response
  getDevice : Nat → Turn := fun _ => {}
  setDevice : Nat → Turn := fun _ => {}
  unlock : Turn := {}

/--
The variables that an upload uses, and what it has done to the queues.
-/
structure Upload where
  parser : ParserData
  topoOk : Bool
  errcode : Int
  gen : TopoGen
  db : Db
  log : List UploadEvent

/--
The callbacks `tr_onObjectStart`, `tr_onObjectComplete` and `tr_onInteger`. The others only print.
-/
def trOn (s : Upload) (event : Event) : Upload :=
  match event with
  | .objectStart _ => { s with errcode := INT_MAX }
  | .objectComplete name =>
    if name = "tprsp".toList then { s with topoOk := decide (s.errcode = 0) } else s
  | .integer name value => if name = "errcode".toList then { s with errcode := value } else s
  | _ => s

def Upload.eat (s : Upload) (c : Char) : Upload :=
  let parser := jsonEat s.parser c
  (parser.events.drop s.parser.events.length).foldl trOn { s with parser }

def Upload.fail (error : Int) (s : Upload) : Upload :=
  { s with gen := { s.gen with iotError := error } }

/--
One pass of the loop in `lockTopoUpload`.
-/
def lockTry (turn : Turn) (db : Db) : Db × Bool :=
  let db := turn.pass db
  match newDbGetSystem db "topobusy" with
  | some sys =>
    if sys.intval = 0 then
      newDbSetSystem db { sys with intval := 1 } turn.now'
    -- Recover from old lock
    else if 60 < turn.now - sys.lastupdate then
      newDbSetSystem db { sys with intval := 1 } turn.now'
    else
      (db, false)
  | none => newDbSystemSaveIntval db "topobusy" 1 turn.now turn.now'

def lockTopoUpload (turns : Nat → Turn) : Nat → Db → Db × Bool
  | 0, db => (db, false)
  | wait + 1, db =>
    match lockTry (turns wait) db with
    | (db, true) => (db, true)
    | (db, false) => lockTopoUpload turns wait db

section

variable (sch : Schedule)

/--
`uploadTopo` does not use what `queueWrite` returns.
-/
def Upload.queueWrite (i t : Nat) (text : List Char) (s : Upload) : Upload :=
  let s := { s with log := s.log ++ [.write i t text (sch.writes i t)] }
  if sch.writes i t then s else s.fail IOT_ERROR_QUEUE_WRITE

def uploadTry (i t : Nat) (cmd : TopoString) (s : Upload) : Upload × Int :=
  let s := s.queueWrite sch i t cmd.text
  match sch.reads i t with
  | some r =>
    (r.text.foldl Upload.eat { s with log := s.log ++ [.read i t r] }, IOT_ERROR_NONE)
  | none => (s, IOT_ERROR_TOPO_TIMEOUT)

/--
The tries of a command, with the number of them that are left.
-/
def uploadTries (i : Nat) (cmd : TopoString) : Nat → Upload → Upload × Int
  | 0, s => (s, IOT_ERROR_NONE)
  | retries + 1, s =>
    let (s, error) := uploadTry sch i (MAX_RETRIES - (retries + 1)) cmd s
    if s.errcode = INT_MAX ∧ 0 < retries then uploadTries i cmd retries s else (s, error)

/--
The addressed manager is alive.
-/
def setJoined (i : Nat) (manId : Int) (s : Upload) : Upload :=
  let db := (sch.getDevice i).pass s.db
  match newDbGetDeviceId db manId with
  | some device =>
    if device.flags &&& FLAG_DEV_JOINED = 0 then
      let db := (sch.setDevice i).pass db
      let device := { device with flags := device.flags ||| FLAG_DEV_JOINED }
      { s with db := (newDbSetDevice db device (sch.setDevice i).now').1 }
    else
      { s with db }
  | none => { s with db }

def uploadCommand (i : Nat) (cmd : TopoString) (s : Upload) : Upload × Int :=
  if cmd.ackWait ≠ 0 then
    let (s, error) :=
      uploadTries sch i cmd MAX_RETRIES { s with topoOk := false, errcode := INT_MAX }
    if s.topoOk then
      (setJoined sch i cmd.manId s, error)
    else if error = IOT_ERROR_NONE then
      (s, IOT_ERROR_TOPO_NOT_ACCEPTED)
    else
      (s, error)
  else
    (s.queueWrite sch i 0 cmd.text, IOT_ERROR_NONE)

/--
The commands from the one with the index `i` on.
-/
def uploadCommands (i : Nat) : List TopoString → Upload → Upload × Int
  | [], s => (s, IOT_ERROR_NONE)
  | cmd :: cmds, s =>
    match uploadCommand sch i cmd s with
    | (s, error) => if error = IOT_ERROR_NONE then uploadCommands (i + 1) cmds s else (s, error)

/--
What is done while the upload is locked. Only a queue that does not open is no error of the upload.
-/
def uploadLocked (topodevs : List TopoDev) (s : Upload) : Upload × Int :=
  match sch.zcbQueue with
  | .error error => (s.fail error, IOT_ERROR_NONE)
  | .ok () =>
    match sch.controlQueue with
    | .error error => (s.fail error, IOT_ERROR_NONE)
    | .ok () =>
      let s :=
        { s with
          parser := jsonReset s.parser
          gen := topoGenerate topodevs s.gen
          log := s.log ++ sch.flushed.map .flush }
      uploadCommands sch 0 s.gen.topoStrings s

def uploadTopo (topodevs : List TopoDev) (s : Upload) : Upload × Int :=
  match lockTopoUpload sch.lock 10 s.db with
  | (db, false) => ({ s with db, log := [] }, IOT_ERROR_TOPO_TIMEOUT)
  | (db, true) =>
    let (s, error) := uploadLocked sch topodevs { s with db, log := [] }
    let db := sch.unlock.pass s.db
    let (db, _) := newDbSystemSaveIntval db "topobusy" 0 sch.unlock.now sch.unlock.now'
    ({ s with db }, error)

end

end ControlInterface
