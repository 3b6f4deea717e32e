import IotGateway.ControlInterface.Lemmas.Sent
import IotGateway.ZcbDaemon.Lemmas.Main

/-!
This module follows the commands of clients from their sockets through the queue to the handlers of
the ZCB daemon.
-/

namespace Gateway

open Json Machine MessageQueue ZcbDaemon ControlInterface

/--
What the process of a client has from the start, and what the client sends to it. `env n` are the
surroundings of the object that is handled after `n` others.
-/
structure Session where
  parser : ParserData
  client : Client
  env : Nat → Surroundings
  pieces : List Piece

section

variable (rgb2xy kelvin2xy : Int32 → Int32 × Int32)

/--
What the process writes to the queue.
-/
def Session.sent (session : Session) : List Object :=
  (handleClient rgb2xy kelvin2xy session.env session.parser session.client session.pieces).2.flatMap
    Effect.sent

/--
The client sends these objects, with any white space and broken texts around them.
-/
structure Session.Sends (session : Session) (objects : List Object) : Prop where
  stream : Stream (jsonReset session.parser)
    ((session.pieces.flatMap Piece.bytes).map convertPrintable) objects
  macs : Along (replyTo rgb2xy kelvin2xy session.env) (KnowsMacs session.env) (session.client, 0)
    objects

/--
What the handlers make of the objects, one after the other.
-/
def Session.commands (session : Session) (objects : List Object) : List Object :=
  (trace (replyTo rgb2xy kelvin2xy session.env) (session.client, 0) objects).flatMap Effect.sent

variable {session : Session} {objects : List Object}

theorem Session.Sends.sent_eq (h : session.Sends rgb2xy kelvin2xy objects)
    : session.sent rgb2xy kelvin2xy = session.commands rgb2xy kelvin2xy objects := by
  obtain ⟨-, htrace⟩ := eatPiece_stream rgb2xy kelvin2xy session.env session.client h.stream
  unfold Session.sent Session.commands handleClient
  dsimp only
  rw [htrace]

end

section

variable (rgb2xy kelvin2xy : Int32 → Int32 × Int32)

end

end Gateway
