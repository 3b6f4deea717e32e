import Mathlib.Algebra.Ring.Int.Defs
import Mathlib.Algebra.Ring.Nat
import IotGateway.Dbp.Impl.Client
import IotGateway.Json.Lemmas.Parser

/-!
This module contains the thread that receives locations from a client, the queue to the main thread,
and the thread that feeds the JSON parser from it.
-/

namespace Dbp.LocReceiver

open Client Json Machine

def MAXMESSAGESIZE : Nat := 300

/--
A piece of the stream, and what is in memory behind the buffer when it is received.
-/
structure Piece where
  request : Request
  beyond : Client.Text

/--
remove 1st 0: each byte goes one place down, up to and with the first terminator. The last place of
the buffer keeps its byte.
-/
def removeFirst : Client.Text → Client.Text
  | _ :: d :: rest => if d = '\x00' then d :: d :: rest else d :: removeFirst (d :: rest)
  | rest => rest

/--
The text in the buffer. It has been cleared before the piece is received.
-/
def Piece.text (x : Piece) : Client.Text :=
  (removeFirst (Buffer.zero.recv x.request).bytes ++ x.beyond).takeWhile (· ≠ '\x00')

/--
What is in the queue then.
-/
def queueWrite (message : Client.Text) : List Client.Text :=
  if MAXMESSAGESIZE - 2 < message.length then [] else [message]

/--
send to main() to be processed
-/
def dbp_loc_receiver (pieces : List Piece) : List Client.Text :=
  pieces.flatMap fun x => queueWrite x.text

/--
The events of the parser for the messages in the queue.
-/
def zigbee_msg_receiver : List Client.Text → ParserData → List Json.Event
  | [], _ => []
  | message :: messages, p =>
    trace eatStep (jsonReset p) message
      ++ zigbee_msg_receiver messages (exec eatStep (jsonReset p) message)

/--
A message with its leading byte. It can arrive in one piece.
-/
structure Message where
  lead : Char
  text : Client.Text
  le : text.length ≤ 511

def Message.request (m : Message) : Request where
  bytes := m.lead :: m.text
  pos := Nat.zero_lt_succ _
  le := Nat.succ_le_succ m.le

/--
What the client sends.
-/
def stream (messages : List Message) : Client.Text := messages.flatMap fun m => m.request.bytes

end Dbp.LocReceiver
