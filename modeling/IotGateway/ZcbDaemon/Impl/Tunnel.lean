import IotGateway.Common.Parsing
import IotGateway.Json.Impl.Create
import IotGateway.ZcbDaemon.Impl.Nodes

/-!
This module contains the tunnel to a manager and the topology commands that are sent over it.
-/

namespace ZcbDaemon

open NewDb Json IotError

def CLD_APPLIANCE_STATISTICS_ATTR_LOG_MAX_SIZE : Nat := 70

/--
The static variables of `tunnel.c`.
-/
structure Tunnel where
  u16TunnelSaddr : UInt16 := 0
  u32LogId : UInt32 := 0
  deriving DecidableEq

/--
`sLogMessage`
-/
structure LogMessage where
  u16TargetAddress : UInt16
  u32LogId : UInt32
  pu8LogData : List Char
  deriving DecidableEq

def tunnelHandle (attrs : Attrs) (db : Db) (tunnel : Tunnel) : Tunnel :=
  let mac := attrs.parsingGetStringAttr "open"
  let tunnel :=
    if mac ≠ "" then
      let u16ShortAddress := zcbNodeGetShortAddress mac db
      if u16ShortAddress ≠ 0xFFFF then
        { tunnel with u16TunnelSaddr := u16ShortAddress }
      else
        tunnel
    else
      tunnel
  -- `close` is parsed, but does nothing
  tunnel

/--
A long message is sent without its blanks. What is left is cut off where the buffer ends.
-/
def compress (message : List Char) : List Char :=
  if CLD_APPLIANCE_STATISTICS_ATTR_LOG_MAX_SIZE ≤ message.length then
    (message.filter fun c => c != ' ' && c != '\t').take CLD_APPLIANCE_STATISTICS_ATTR_LOG_MAX_SIZE
  else
    message

/--
`ok` is whether `eSL_SendMessageNoWait` succeeds. What is sent is the second component.
-/
def tunnelSend (message : List Char) (ok : Bool) (tunnel : Tunnel)
    : Tunnel × List LogMessage × Bool :=
  let message := compress message
  if CLD_APPLIANCE_STATISTICS_ATTR_LOG_MAX_SIZE ≤ message.length then
    (tunnel, [], false)
  else if tunnel.u16TunnelSaddr ≠ 0 then
    ({ tunnel with u32LogId := tunnel.u32LogId + 1 },
      [{ u16TargetAddress := tunnel.u16TunnelSaddr, u32LogId := tunnel.u32LogId,
         pu8LogData := message }], ok)
  else
    (tunnel, [], false)

/--
The command that goes over the tunnel, or the error if there is none. A command that names no device
has neither.
-/
def topoMessage (attrs : Attrs) : Except Int (Option Object) :=
  match attrs.parsingGetStringAttr0 "cmd" with
  | some cmd =>
    if cmd = "clearall" then
      .ok (some jsonTopoClear)
    else if cmd = "endconf" then
      .ok (some jsonTopoEnd)
    else
      .error IOT_ERROR_TOPO_ILLEGAL_CMD
  | none =>
    match attrs.parsingGetStringAttr0 "nm" with
    | some nm =>
      match attrs.parsingGetStringAttr0 "man" with
      | some mac => .ok (some (jsonTopoAddManager mac (some nm) (attrs.parsingGetStringAttr0 "ty")))
      | none =>
      match attrs.parsingGetStringAttr0 "ui" with
      | some mac => .ok (some (jsonTopoAddUI mac (some nm)))
      | none =>
      match attrs.parsingGetStringAttr0 "sen" with
      | some mac => .ok (some (jsonTopoAddSensor mac (some nm)))
      | none =>
      match attrs.parsingGetStringAttr0 "pmp" with
      | some mac => .ok (some (jsonTopoAddPump mac (some nm) (attrs.parsingGetIntAttr "sid")))
      | none =>
      match attrs.parsingGetStringAttr0 "lmp" with
      | some mac => .ok (some (jsonTopoAddLamp mac (some nm) (attrs.parsingGetStringAttr0 "ty")))
      | none =>
      match attrs.parsingGetStringAttr0 "plg" with
      | some mac => .ok (some (jsonTopoAddPlug mac (some nm)))
      | none => .ok none
    | none => .error IOT_ERROR_TOPO_MISSING_NAME

/--
The last component is what `iotError` is set to. With an error the result is -1, otherwise 0.
-/
def topoHandle (attrs : Attrs) (ok : Bool) (tunnel : Tunnel) : Tunnel × List LogMessage × Int :=
  match topoMessage attrs with
  | .error error => (tunnel, [], error)
  | .ok none => (tunnel, [], IOT_ERROR_NONE)
  | .ok (some object) =>
    match tunnelSend object.message ok tunnel with
    | (tunnel, sent, true) => (tunnel, sent, IOT_ERROR_NONE)
    | (tunnel, sent, false) => (tunnel, sent, IOT_ERROR_TUNNEL_SEND)

/--
What may happen around the tunnel. `tables` is anything else that is done to the tables.
-/
inductive TunnelEvent where
  | node (ev : NodeEvent)
  | tables (db : Db)
  | tunnel (attrs : Attrs)
  | topo (attrs : Attrs) (ok : Bool)

structure Daemon where
  db : Db
  tunnel : Tunnel := {}

def tunnelStep (s : Daemon) : TunnelEvent → Daemon × List LogMessage
  | .node ev => ({ s with db := nodeStep s.db ev }, [])
  | .tables db => ({ s with db }, [])
  | .tunnel attrs => ({ s with tunnel := tunnelHandle attrs s.db s.tunnel }, [])
  | .topo attrs ok =>
    let (tunnel, sent, _) := topoHandle attrs ok s.tunnel
    ({ s with tunnel }, sent)

end ZcbDaemon
