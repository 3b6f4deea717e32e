import IotGateway.Lib.Accesses
import IotGateway.Lib.Substring
import IotGateway.NewDb.Impl.Tables

/-!
This module contains the parser of the requests of a DBP client, the queries, and the loop that
answers one connection.
-/

namespace Dbp.Client

open Accesses Substring NewDb

/--
What is before the terminator.
-/
abbrev Text := List Char

def MAC_STRING_LEN : Nat := 16

def QUERY_LOC : Text := "loc:".toList
def QUERY_STATE : Text := "stat:".toList
def QUERY_NODE : Text := "mac:".toList
def QUERY_ROUTER : Text := "router:".toList
def QUERY_ROUTER_LOC : Text := "rloc:".toList
def QUERY_PARENT : Text := "parent:".toList
def QUERY_KEEPALIVE : Text := "keepalive:".toList
def QUERY_CLOSE : Text := "close:".toList
def QUERY_PREFIX : Text := "0x".toList

inductive DBP_CMD where
  | LOCATION
  | STATE_REPORT
  | SENSOR_NODES
  | ROUTERS
  | ROUTERS_LOC
  | ROUTERS_MAC
  | KEEP_ALIVE
  | CLOSE_CONNECTION
  | UNKNOWN
  deriving DecidableEq

/--
Dummy Parent Address
-/
def temp_parent : Text := "0123456789ABCDEF".toList

inductive Arr where
  | input
  | mac_addr
  | location
  deriving DecidableEq

def size : Arr → Nat
  | .input => 512
  | .mac_addr => MAC_STRING_LEN + 1
  | .location => 20

/--
`strstr` stops behind the needle, or at the terminator.
-/
def searchAccess (needle input : Text) : Access Arr :=
  { array := .input
    start := 0
    count :=
      match strstr needle input with
      | some found => input.length - found.length + needle.length
      | none => input.length + 1 }

def has (needle input : Text) : Bool := (strstr needle input).isSome

def check_dbp (input : Text) : Bool := (input.take 3).map Char.toLower = "dbp".toList

/--
A command with the `cmd_len` that `get_mac_address` is called with, and what has been searched to
find it.
-/
structure Command where
  cmd : DBP_CMD
  cmd_len : Option Nat
  searched : List Text

/--
command type check
-/
def command (input : Text) : Command :=
  if has QUERY_LOC input then
    if has QUERY_ROUTER_LOC input then
      ⟨.ROUTERS_LOC, some 10, [QUERY_LOC, QUERY_ROUTER_LOC]⟩
    else
      ⟨.LOCATION, some 9, [QUERY_LOC, QUERY_ROUTER_LOC]⟩
  else if has QUERY_STATE input then
    ⟨.STATE_REPORT, some 10, [QUERY_LOC, QUERY_STATE]⟩
  else if has QUERY_NODE input then
    ⟨.SENSOR_NODES, none, [QUERY_LOC, QUERY_STATE, QUERY_NODE]⟩
  else if has QUERY_ROUTER input then
    ⟨.ROUTERS, none, [QUERY_LOC, QUERY_STATE, QUERY_NODE, QUERY_ROUTER]⟩
  else if has QUERY_ROUTER_LOC input then
    -- Not reached: what contains this contains QUERY_LOC
    ⟨.ROUTERS_LOC, some 10,
      [QUERY_LOC, QUERY_STATE, QUERY_NODE, QUERY_ROUTER, QUERY_ROUTER_LOC]⟩
  else if has QUERY_PARENT input then
    ⟨.ROUTERS_MAC, some 12,
      [QUERY_LOC, QUERY_STATE, QUERY_NODE, QUERY_ROUTER, QUERY_ROUTER_LOC, QUERY_PARENT]⟩
  else if has QUERY_KEEPALIVE input then
    ⟨.KEEP_ALIVE, none,
      [QUERY_LOC, QUERY_STATE, QUERY_NODE, QUERY_ROUTER, QUERY_ROUTER_LOC, QUERY_PARENT,
        QUERY_KEEPALIVE]⟩
  else if has QUERY_CLOSE input then
    ⟨.CLOSE_CONNECTION, none,
      [QUERY_LOC, QUERY_STATE, QUERY_NODE, QUERY_ROUTER, QUERY_ROUTER_LOC, QUERY_PARENT,
        QUERY_KEEPALIVE, QUERY_CLOSE]⟩
  else
    ⟨.UNKNOWN, none,
      [QUERY_LOC, QUERY_STATE, QUERY_NODE, QUERY_ROUTER, QUERY_ROUTER_LOC, QUERY_PARENT,
        QUERY_KEEPALIVE, QUERY_CLOSE]⟩

/--
The text that is copied to `mac_addr`.
-/
def get_mac_address (input : Text) (cmd_len : Nat) : Text :=
  match strstr QUERY_PREFIX input with
  | none =>
    -- check whether mac address exists. max cmd length = 11.
    if input.length < cmd_len + 16 then temp_parent else input.drop cmd_len
  | some pos =>
    -- remove 0x and copy mac address
    pos.drop 2

def macAccesses (input : Text) (cmd_len : Nat) : List (Access Arr) :=
  let copied : Access Arr := ⟨.mac_addr, 0, (get_mac_address input cmd_len).length + 1⟩
  searchAccess QUERY_PREFIX input ::
    match strstr QUERY_PREFIX input with
    | none =>
      ⟨.input, 0, input.length + 1⟩ ::
        if input.length < cmd_len + 16 then
          [copied]
        else
          [⟨.input, cmd_len, input.length - cmd_len + 1⟩, copied]
    | some pos => [⟨.input, input.length - pos.length + 2, pos.length - 2 + 1⟩, copied]

/--
What a request meets. `newDbOpen` is whether the database can be opened. `node_list_flag` is set
while another connection waits for the list of the nodes, and `sensor_node_buffer` is what is in the
buffer if this one does not wait. `humidity_result` computes in floating point.
-/
structure Env where
  newDbOpen : Bool
  db : Db
  time : Nat
  node_list_flag : Bool
  sensor_node_buffer : Text
  humidity_result : Int → UInt16

def padded (width : Nat) (digits : Text) : Text :=
  List.replicate (width - digits.length) '0' ++ digits

def hex (width n : Nat) : Text := padded width (Nat.toDigits 16 n)

/--
`%+011d`
-/
def signed (n : Int) : Text := (if n < 0 then '-' else '+') :: padded 10 (Nat.toDigits 10 n.natAbs)

def dbp_swap_uint16 (val : UInt16) : UInt16 := val <<< 8 ||| val >>> 8

/--
What a query writes to the output and to the buffer of the nodes, if it does.
-/
structure Query where
  output : Option Text := none
  nodes : Option Text := none
  accesses : List (Access Arr) := []

section

variable (env : Env) (device : Device)

/--
`device` is what is in the variable before.
-/
def getDevice (mac : Text) : Device := (newDbGetDevice env.db (String.ofList mac)).getD device

def location (device : Device) : Text :=
  if device.nm ≠ "" then device.nm.toList else "NXP".toList

def packed_data (device : Device) : UInt16 :=
  let humidity_result := env.humidity_result device.hum
  ((humidity_result &&& 0x0003) <<< (14 : UInt16)) ||| (0x0f00 : UInt16)
    ||| ((humidity_result >>> (2 : UInt16)) &&& 0x00ff)

def locText (mac : Text) (device : Device) : Text :=
  "dbp loc ".toList ++ hex 8 env.time ++ [' '] ++ mac ++ [' '] ++ signed device.xloc ++ [' ']
    ++ signed device.yloc ++ [' '] ++ signed device.zloc ++ [' '] ++ location device
    ++ "\r\n".toList

def stateText (mac : Text) (device : Device) : Text :=
  "dbp state ".toList ++ hex 8 env.time ++ [' '] ++ mac ++ " 0305".toList
    ++ hex 4 (dbp_swap_uint16 (UInt16.ofInt device.tmp)).toNat ++ "0F".toList
    ++ hex 4 (packed_data env device).toNat ++ "08".toList
    ++ hex 4 (dbp_swap_uint16 (UInt16.ofInt device.als)).toNat ++ [' '] ++ temp_parent
    ++ "\r\n".toList

/--
Nobody calls `database_callback`, so the wait for the nodes ends after a minute.
-/
def query_handle (cmd : DBP_CMD) (mac : Text) : Query :=
  let mac := mac.take MAC_STRING_LEN
  if mac.length ≠ MAC_STRING_LEN ∧ mac ≠ [] then
    { output := some "dbp error mac\r\n".toList }
  else if env.newDbOpen then
    let device := getDevice env device mac
    match cmd with
    | .LOCATION =>
      { output := some (locText env mac device)
        accesses := [⟨.location, 0, (location device).length + 1⟩] }
    | .STATE_REPORT => { output := some (stateText env mac device) }
    | .SENSOR_NODES =>
      if env.node_list_flag then
        {}
      else
        { output := some "dbp node".toList, nodes := some "dbp mac unknown\r\n".toList }
    | .ROUTERS => { output := some "dbp router 'not available'\r\n".toList }
    | .ROUTERS_LOC => { output := some "dbp rloc 'not available'\r\n".toList }
    | .ROUTERS_MAC => { output := some "dbp parent 'not available'\r\n".toList }
    | .KEEP_ALIVE => {}
    | .CLOSE_CONNECTION => { output := some "dbp close".toList }
    | .UNKNOWN => {}
  else
    {}

/--
What `dbp_parse_data` returns, whether it sets `extra`, where it reads and writes, and its query.
-/
structure Parsed where
  ret : Int
  extra : Bool := false
  accesses : List (Access Arr) := []
  query : Query := {}

def dbp_parse_data (input : Text) (input_len output_len : Nat) : Parsed :=
  if input_len ≤ 3 ∨ output_len ≤ 0 then
    { ret := -1 }
  else if !check_dbp input then
    { ret := -1, accesses := [⟨.input, 0, 3⟩] }
  else
    let command := command input
    let mac_addr := (command.cmd_len.map (get_mac_address input)).getD []
    let accesses :=
      ⟨.input, 0, 3⟩ :: command.searched.map (searchAccess · input)
        ++ (command.cmd_len.map (macAccesses input)).getD []
    if command.cmd = .UNKNOWN then
      { ret := -1, accesses }
    else
      { ret := 0
        extra := command.cmd = .SENSOR_NODES
        accesses
        query := query_handle env device command.cmd mac_addr }

end

/--
`char buf[512]`
-/
structure Buffer where
  bytes : Text
  length_eq : bytes.length = 512

def Buffer.zero : Buffer := ⟨List.replicate 512 '\x00', List.length_replicate⟩

/--
What `recv` has received in one piece.
-/
structure Request where
  bytes : Text
  pos : 0 < bytes.length
  le : bytes.length ≤ 512

/--
The rest of the array stays.
-/
def Buffer.recv (buf : Buffer) (request : Request) : Buffer where
  bytes := request.bytes ++ buf.bytes.drop request.bytes.length
  length_eq := by
    have hlength := buf.length_eq
    have hle := request.le
    simp only [List.length_append, List.length_drop]
    omega

/--
The text that starts in the array. `beyond` is what is in memory behind it.
-/
def Buffer.text (buf : Buffer) (beyond : Text) : Text :=
  (buf.bytes ++ beyond).takeWhile (· ≠ '\x00')

/--
The variables of `dbp_client_handler`: `node_cmd` is whether it is not null.
-/
structure Vars where
  buf : Buffer := .zero
  output : Text := []
  node_cmd : Bool := false

/--
A request with what it meets: `device` is what is in the variable of `query_handle` before, and
`beyond` what is in memory behind the buffer.
-/
structure Exchange where
  env : Env
  request : Request
  device : Device
  beyond : Text

structure Reply where
  sent : Text
  closed : Bool := false
  deriving DecidableEq

/--
One pass of the loop, with the variables afterwards if the connection is not closed. There is no
result if something is read or written outside of an array.
-/
def dbp_client_handler (c : Vars) (x : Exchange) : Option (Reply × Option Vars) :=
  let buf := c.buf.recv x.request
  let parsed := dbp_parse_data x.env x.device (buf.text x.beyond) 512 512
  let output := parsed.query.output.getD c.output
  let node_cmd := c.node_cmd || parsed.extra
  if Inside size (parsed.accesses ++ parsed.query.accesses) then
    -- if it is close link command stop here
    if output = "dbp close".toList then
      some ({ sent := [], closed := true }, none)
    else if output = "dbp node".toList then
      let nodes := parsed.query.nodes.getD x.env.sensor_node_buffer
      some ({ sent := if node_cmd then nodes else [] }, some { buf, output, node_cmd })
    else
      some ({ sent := output }, some { buf := .zero, output := [], node_cmd })
  else
    none

/--
The variables after these requests, if nothing has been accessed outside of an array and the
connection is still open.
-/
def run : List Exchange → Vars → Option Vars
  | [], c => some c
  | x :: xs, c => (dbp_client_handler c x).bind fun result => result.2.bind (run xs)

end Dbp.Client
