import IotGateway.Common.Impl.Listener
import IotGateway.Common.Impl.MessageQueue
import IotGateway.Dbp.Impl.Client
import IotGateway.Json.Lemmas.Parser
import IotGateway.Lib.Cascade

/-!
This module contains the thread of the DBP server that reads its queue, and the reports that it sends
to all clients.
-/

namespace Dbp.Receiver

open Client (hex dbp_swap_uint16 query_handle temp_parent)
open FieldParser Json Machine MessageQueue NewDb

def INPUTBUFFERLEN : Nat := MAXMESSAGESIZE

def intAttrs : List String := ["tmp", "hum", "als", "lqi", "bat", "batl", "xloc", "yloc", "zloc"]

def stringAttrs : List (String × Int32) := [("mac", 16), ("nm", 16), ("par", 16)]

def dbp_init : List Op := registerAll intAttrs stringAttrs

/--
What the thread finds when it handles an object: whether there are clients, what a query meets, with
what is in its variable `device` before, and what the clock shows for the voltage of a battery and
for the report after it. `percent` makes a number up to 1023 of a percentage, in floating point.
-/
structure Conditions where
  connected : Bool
  query : Client.Env
  device : Device
  batTime : Nat
  time : Nat
  percent : UInt16 → UInt16

def state (time : Nat) (mac : Client.Text) (stype : String) (data : UInt16) : Client.Text :=
  "dbp state ".toList ++ hex 8 time ++ [' '] ++ mac ++ [' '] ++ stype.toList ++ hex 4 data.toNat
    ++ [' '] ++ temp_parent ++ "\r\n".toList

/--
only 10 bits
-/
def packed_data (stype level : UInt16) : UInt16 :=
  ((level &&& 0x0003) <<< (14 : UInt16)) ||| stype ||| ((level >>> (2 : UInt16)) &&& 0x00ff)

section

variable (c : Conditions) (mac : Client.Text)

/--
The value is cut off to an `int16_t`.
-/
def dbp_report_temp (temp : Int32) : Client.Text :=
  state c.time mac "0105" (dbp_swap_uint16 (UInt16.ofInt temp.toInt))

def dbp_report_rh (rh : UInt16) : Client.Text :=
  state c.time mac "01" (packed_data 0x0f00 (c.percent rh))

def dbp_report_als (als : UInt16) : Client.Text := state c.time mac "0108" (dbp_swap_uint16 als)

def dbp_report_bat_lvl (bat : UInt16) : Client.Text :=
  state c.time mac "01" (packed_data 0x1000 (c.percent bat))

/--
battery voltage unit is millivolt (received data from zigbee is in 100mv)
-/
def dbp_report_bat (bat : UInt16) : Client.Text :=
  state c.batTime mac "0111" (dbp_swap_uint16 (bat * 100))

/--
The text that is sent to the clients, if the function does not return -1.
-/
def update (attrs : Attrs) (name : String) (report : UInt16 → Client.Text) : Option Client.Text :=
  let value := attrs.parsingGetIntAttr name
  if 0 ≤ value then some (report (UInt16.ofInt value.toInt)) else none

variable (attrs : Attrs)

def dbp_update_battery : Option Client.Text := update attrs "bat" (dbp_report_bat c mac)

def dbp_update_battery_lvl : Option Client.Text := update attrs "batl" (dbp_report_bat_lvl c mac)

def dbp_update_illuminance : Option Client.Text := update attrs "als" (dbp_report_als c mac)

def dbp_update_humidity : Option Client.Text := update attrs "hum" (dbp_report_rh c mac)

/--
It may be below zero.
-/
def dbp_update_temperature : Option Client.Text :=
  let value := attrs.parsingGetIntAttr "tmp"
  if value ≠ FieldParser.INT_MIN then some (dbp_report_temp c mac value) else none

/--
If the query writes nothing, the buffer is empty.
-/
def dbp_location_info : List Client.Text :=
  if mac ≠ [] ∧ attrs.parsingGetStringAttr "nm" ≠ "" then
    [(query_handle c.query c.device .LOCATION mac).output.getD []]
  else
    []

/--
The calls of `dbp_send_data_to_clients`.
-/
def dbp_onObjectComplete (name : String) : List Client.Text :=
  if name = "sensor" then
    let mac := (attrs.parsingGetStringAttr "mac").toList
    if attrs.parsingGetStringAttr "nm" ≠ ""
        ∨ attrs.parsingGetIntAttr "xloc" ≠ FieldParser.INT_MIN
        ∨ attrs.parsingGetIntAttr "yloc" ≠ FieldParser.INT_MIN
        ∨ attrs.parsingGetIntAttr "zloc" ≠ FieldParser.INT_MIN then
      dbp_location_info c mac attrs
    else if c.connected then
      -- Only the battery does not end the function
      (dbp_update_battery c mac attrs).toList
        ++ (((dbp_update_battery_lvl c mac attrs).or (dbp_update_illuminance c mac attrs)).or
          ((dbp_update_humidity c mac attrs).or (dbp_update_temperature c mac attrs))).toList
    else
      []
  else
    []

end

def onEvent (c : Conditions) (p : Parser) (event : Json.Event) : Parser × List Client.Text :=
  (listen event p,
    match event with
    | .objectComplete name => dbp_onObjectComplete c p.attrs (String.ofList name)
    | _ => [])

/--
The parser with its callbacks reads one message.
-/
def parse (s : ParserData × Parser) (message : Conditions × Message)
    : (ParserData × Parser) × List Client.Text :=
  let step := cascade eatStep (onEvent message.1)
  let s := (jsonReset s.1, s.2)
  (exec step s message.2, trace step s message.2)

/--
The queue, and the variables of the thread.
-/
structure Thread where
  queue : List Message := []
  reader : ParserData × Parser := (.init, run dbp_init)

/--
Another process or thread writes to the queue, or the thread calls `msgrcv`.
-/
inductive Input where
  | write (sent : Bool) (message : Message)
  | read (failed : Bool) (c : Conditions)

def zigbee_msg_receiver (s : Thread) : Input → Thread × List Client.Text
  | .write sent message => ({ s with queue := (queueWrite sent message s.queue).1 }, [])
  | .read failed c =>
    match queueRead INPUTBUFFERLEN failed s.queue with
    | some (numBytes, message, queue) =>
      let (reader, sent) := parse s.reader (c, message.take numBytes.toNat)
      ({ queue, reader }, sent)
    | none => (s, [])

end Dbp.Receiver
