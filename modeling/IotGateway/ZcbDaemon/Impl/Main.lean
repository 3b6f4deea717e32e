import IotGateway.Lib.Cascade
import IotGateway.Common.Impl.MessageQueue
import IotGateway.Json.Lemmas.Parser
import IotGateway.ZcbDaemon.Impl.Cmd
import IotGateway.ZcbDaemon.Impl.Lamp
import IotGateway.ZcbDaemon.Impl.Tunnel

/-!
This module contains the main loop of the ZCB daemon: it reads its queue, and hands each JSON object
to the handler of its name.
-/

namespace ZcbDaemon

open NewDb Packed Json NfcDaemon CString Machine MessageQueue

def ZB_ENDPOINT_ONOFF : UInt8 := 1

def INPUTBUFFERLEN : Nat := MAXMESSAGESIZE

/--
What the daemon sends to its node. `neighbourTable` is the request with its first index.
-/
inductive ToNode where
  | request (message : NodeMessage)
  | command (command : Command)
  | log (message : LogMessage)
  | neighbourTable (start : Int)

/--
What the daemon finds when it handles a message: the tables, how the node answers the commands of
`cmd`, what becomes of the other commands, and whether `eSL_SendMessageNoWait` succeeds.
-/
structure Conditions where
  db : Db
  answers : NodeAnswers := {}
  line : Command → Sending
  tunnelOk : Bool := true

/--
The attributes as the handlers get them.
-/
def attrsOf (t : AttrTable) : Attrs where
  parsingGetIntAttr := t.ints
  parsingGetStringAttr := fun name => String.ofList (t.parsingGetStringAttr name)

def eOnOff (line : Command → Sending) (u16ShortAddress : UInt16) (u8Mode : UInt8)
    : UInt8 × Option Command :=
  if 2 < u8Mode then
    -- Illegal value
    (E_ZCB_ERROR, none)
  else
    sendCommand line E_SL_MSG_ONOFF
      [u8 E_ZB_ADDRESS_MODE_SHORT_NO_ACK, u16 (htons u16ShortAddress), u8 ZB_ENDPOINT_ONOFF,
        u8 ZB_ENDPOINT_ONOFF, u8 u8Mode] E_ZCB_OK E_ZCB_COMMS_FAILED

/--
The messages that are sent for a `plg` message.
-/
def plgHandle (line : Command → Sending) (attrs : Attrs) (db : Db) : List Command :=
  match attrs.parsingGetStringAttr0 "mac" with
  | none => []
  | some mac =>
    let u16ShortAddress := zcbNodeGetShortAddress mac.val db
    if u16ShortAddress ≠ 0xFFFF then
      match attrs.parsingGetStringAttr0 "cmd" with
      | some cmd => sent (eOnOff line u16ShortAddress (if cmd.val = "on" then 1 else 0))
      | none => []
    else
      -- Node not found
      []

/--
The setpoints of a user interface go over the tunnel.
-/
def ctrlHandle (attrs : Attrs) (db : Db) (ok : Bool) (tunnel : Tunnel) : Tunnel × List LogMessage :=
  match attrs.parsingGetStringAttr0 "mac" with
  | none => (tunnel, [])
  | some mac =>
    let heat := attrs.parsingGetIntAttr "heat"
    let cool := attrs.parsingGetIntAttr "cool"
    if zcbNodeGetShortAddress mac.val db ≠ 0xFFFF ∧ 0 ≤ heat ∧ 0 ≤ cool then
      let (tunnel, logs, _) := tunnelSend (jsonUiCtrl mac.val heat cool).message ok tunnel
      (tunnel, logs)
    else
      (tunnel, [])

/--
The handler of an object. `cmd` reads the attributes as they lie in memory.
-/
def zcb_onObjectComplete (env : Conditions) (name : String) (t : AttrTable) (attrs : Attrs)
    (tunnel : Tunnel) : Tunnel × List ToNode :=
  if name = "cmd" then
    (tunnel, (cmdHandle env.answers t).map .request)
  else if name = "lmp" then
    (tunnel, (lmpHandle env.line attrs env.db).map .command)
  else if name = "grp" then
    (tunnel, (grpHandle env.line attrs).map .command)
  else if name = "plg" then
    (tunnel, (plgHandle env.line attrs env.db).map .command)
  else if name = "ctrl" then
    let (tunnel, logs) := ctrlHandle attrs env.db env.tunnelOk tunnel
    (tunnel, logs.map .log)
  else if name = "tp" ∨ name = "tp+" then
    let (tunnel, logs, _) := topoHandle attrs env.tunnelOk tunnel
    (tunnel, logs.map .log)
  else if name = "tunnel" then
    (tunnelHandle attrs env.db tunnel, [])
  else
    (tunnel, [])

/--
What the callbacks and the handlers write.
-/
structure Handlers where
  attrs : AttrTable := {}
  tunnel : Tunnel := {}

def onEvent (env : Conditions) (s : Handlers) (event : Event) : Handlers × List ToNode :=
  match event with
  | .objectStart _ => ({ s with attrs := s.attrs.parsingReset }, [])
  | .objectComplete name =>
    let (tunnel, sent) :=
      zcb_onObjectComplete env (String.ofList name) s.attrs (attrsOf s.attrs) s.tunnel
    ({ s with tunnel }, sent)
  | .string name value =>
    ({ s with attrs := parsingStringAttr (String.ofList name) value s.attrs }, [])
  | .integer name value =>
    ({ s with attrs := parsingIntAttr (String.ofList name) (Int32.ofInt value) s.attrs }, [])
  | .arrayStart _ => (s, [])
  | .arrayComplete _ => (s, [])
  | .error _ _ _ => (s, [])

/--
The parser with its callbacks reads one message.
-/
def parse (s : ParserData × Handlers) (message : Conditions × Message)
    : (ParserData × Handlers) × List ToNode :=
  let step := cascade eatStep (onEvent message.1)
  let s := (jsonReset s.1, s.2)
  (exec step s message.2, trace step s message.2)

/--
The queue, the call of `queueReadWithMsecTimeout` that is going on, and the variables of the loop.
-/
structure Main where
  queue : List Message := []
  call : Call := { msec := 4000 }
  start : Int := 0
  reader : ParserData × Handlers

/--
Another process writes to the queue, or the daemon calls `msgrcv`. The result of
`eZCB_NeighbourTableRequest` only counts if the call has timed out.
-/
inductive MainInput where
  | write (sent : Bool) (message : Message)
  | poll (failed : Bool) (env : Conditions) (neighbours : Int)

def mainStep (s : Main) : MainInput → Main × List ToNode
  | .write sent message => ({ s with queue := (queueWrite sent message s.queue).1 }, [])
  | .poll failed env neighbours =>
    let (call, queue) := s.call.poll INPUTBUFFERLEN failed s.queue
    if call.waits then
      ({ s with call, queue }, [])
    else
      -- The loop comes round and calls the function again.
      let s := { s with call := { msec := 4000 }, queue }
      if 0 < call.len then
        let (reader, sent) := parse s.reader (env, call.message)
        ({ s with reader }, sent)
      else
        ({ s with start := if 0 ≤ neighbours then neighbours else 0 }, [.neighbourTable s.start])

end ZcbDaemon
