import IotGateway.Common.Impl.Listener
import IotGateway.ControlInterface.Impl.Commands
import IotGateway.Json.Lemmas.Parser
import IotGateway.Lib.Cascade

/-!
This module contains the child process of a client: the fields of the commands, the callbacks of the
parser, and the loop that reads the socket.
-/

namespace ControlInterface

open FieldParser Json Machine NewDb

def INPUTBUFFERLEN : Nat := 200

def topoInit : List Op :=
  registerAll ["sid", "room", "rm"]
    [("nm", 16), ("ty", 8), ("cmd", 12), ("man", 16), ("ui", 16), ("sen", 16), ("pmp", 16),
      ("lmp", 16), ("plg", 16)]

def dbgetInit : List Op := registerAll ["room", "ts"] [("mac", 16)]

def dbEditInit : List Op :=
  registerAll ["dev", "id"]
    [("add", 16), ("rem", 16), ("ty", 8), ("clr", 16), ("table", 10), ("col", 10), ("val", 16)]

def ctrlInit : List Op :=
  registerAll ["heat", "cool", "sid", "lvl", "rgb", "kelvin"] [("mac", 16), ("cmd", 4)]

def sensorInit : List Op := registerAll ["xloc", "yloc", "zloc"] [("mac", 16), ("nm", 16)]

def cmdInit : List Op :=
  registerAll ["reset", "resetrsp", "getversion", "duration", "nfcmode", "system"]
    [("chanmask", 8), ("setpermit", 16), ("strval", 38)]

def lmpInit : List Op := registerAll ["grpid", "scnid"] [("mac", 16), ("grp", 16), ("scn", 16)]

def grpInit : List Op :=
  registerAll ["grpid", "scnid", "lvl", "rgb", "kelvin", "xcr", "ycr"]
    [("mac", 16), ("cmd", 16), ("scn", 16)]

def procInit : List Op := registerAll [] [("start", 16), ("stop", 16), ("restart", 16)]

/--
The calls of `main`, the last one first.
-/
def inits : List Op :=
  procInit ++ grpInit ++ lmpInit ++ cmdInit ++ sensorInit ++ ctrlInit ++ dbEditInit ++ dbgetInit
    ++ topoInit

/--
The variables of the child process behind the parser, and how many objects it has handled.
-/
structure Child where
  fields : Parser := run inits
  client : Client
  handled : Nat := 0

def convertPrintable (c : Char) : Char :=
  if ' ' ≤ c ∧ c ≤ '~' then
    c
  else if c = '\n' then
    c
  else if c = '\r' then
    c
  else
    '.'

/--
What one call of `socketReadWithTimeout` reads.
-/
structure Piece where
  bytes : List Char
  pos : 0 < bytes.length
  le : bytes.length ≤ INPUTBUFFERLEN

section

variable (rgb2xy kelvin2xy : Int32 → Int32 × Int32) (env : Nat → Surroundings)

/--
The handler of a command, unless it is one for the topology.
-/
def Command.handler (cmd : Command) : Option (Handler → Handler × Int) :=
  let env := cmd.env
  let attrs := cmd.attrs
  if cmd.name = "dbget" then
    some (Handler.dbgetHandle env attrs)
  else if cmd.name = "dbedit" then
    some (Handler.dbEditHandle env attrs)
  else if cmd.name = "ctrl" then
    some (Handler.ctrlHandle rgb2xy env attrs)
  else if cmd.name = "cmd" then
    some (Handler.cmdHandle env attrs)
  else if cmd.name = "lmp" then
    some (Handler.lmpHandle attrs)
  else if cmd.name = "grp" then
    some (Handler.grpHandle rgb2xy kelvin2xy attrs)
  else if cmd.name = "sensor" then
    some (Handler.sensorHandle env attrs)
  else if cmd.name = "proc" then
    some Handler.procHandle
  else
    none

/--
What a command sends: the messages that get into the queue, and to the client what the handler
responds and then the answer of the dispatcher.
-/
structure Effect where
  sent : List Object := []
  responses : List Object := []
  answer : Answer

/--
The dispatcher, with what the handler sends. The messages of an upload are in the log of the client.
-/
def Client.command (s : Client) (cmd : Command) : Client × List Effect :=
  let (client, answers) := ci_onObjectComplete rgb2xy kelvin2xy s cmd
  let effect (answer : Answer) : Effect :=
    match cmd.handler rgb2xy kelvin2xy with
    | some handle =>
      let db := cmd.env.others.foldl Mutation.apply s.db
      let h := (handle { db, queue := { results := cmd.env.queue, iotError := s.iotError } }).1
      { sent := h.queue.sent, responses := h.responses, answer }
    | none => { answer }
  (client, answers.map effect)

/--
`env n` are the surroundings of the object that is handled after `n` others.
-/
def onEvent (s : Child) (event : Event) : Child × List Effect :=
  match event with
  | .objectComplete name =>
    let cmd := { name := String.ofList name, attrs := s.fields.attrs, env := env s.handled }
    let (client, effects) := s.client.command rgb2xy kelvin2xy cmd
    ({ s with client, handled := s.handled + 1 }, effects)
  | event => ({ s with fields := listen event s.fields }, [])

/--
One pass of the loop of `handleClient`: the parser with its callbacks reads a piece.
-/
def eatPiece (s : ParserData × Child) (piece : Piece) : (ParserData × Child) × List Effect :=
  let step := cascade eatStep (onEvent rgb2xy kelvin2xy env)
  let socketInputBuffer := piece.bytes.map convertPrintable
  (exec step s socketInputBuffer, trace step s socketInputBuffer)

/--
A client has sent these pieces, and has left or is too slow with the next one. `p` is what the parent
process has left of the parser. The results are what the commands have left behind, and what they
have sent.
-/
def handleClient (p : ParserData) (client : Client) (pieces : List Piece) : Client × List Effect :=
  let start : ParserData × Child := (jsonReset p, { client })
  let step := eatPiece rgb2xy kelvin2xy env
  ((exec step start pieces).2.client, trace step start pieces)

end

end ControlInterface
