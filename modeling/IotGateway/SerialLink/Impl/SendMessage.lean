import IotGateway.SerialLink.Impl.MessageQueue

/-!
This module contains `eSL_SendMessage` and the wait for the response that follows it, as in
`eZCB_NeighbourTableRequest`, beside the reader thread and a node that answers.
-/

namespace SerialLink

/--
`teSL_Status` as the number it is.
-/
def Status.toUInt8 : Status → UInt8
  | .ok => 0
  | .error => 1
  | .noMessage => 2
  | .errorSerial => 3
  | .errorNoMem => 4

/--
Where the thread that sends the command stands. The last two states are those of its second call of
`eSL_MessageWait`.
-/
inductive SenderPc where
  | writing
  | waitStatus
  | sent
  | waitResponse
  | received (result : WaitResult)
  deriving DecidableEq

/--
`eStatus` is what `eSL_SendMessage` has returned, `line` are the answers the reader thread has not
read yet.
-/
structure Exchange where
  link : Listeners
  sender : SenderPc
  eStatus : Option UInt8
  line : List Message

inductive ExchangeAct where
  | written
  | sent
  | waitResponse
  | received
  | read
  | thread (a : Act)

/--
Call 0 of `eSL_MessageWait` is the one of `eSL_SendMessage`, call 1 the one that follows.
-/
def exchangeArgs (u16Type : UInt16) (call : Nat) : WaitArgs :=
  if call = 0 then
    { u16Type := E_SL_MSG_STATUS, u32WaitTimeout := 500, psStatus := some u16Type }
  else
    { u16Type := E_SL_MSG_MANAGEMENT_LQI_RESPONSE, u32WaitTimeout := 1000, psStatus := none }

section

variable (u16Type : UInt16) (heap : Nat → Nat → UInt8)

/--
What `eSL_SendMessage` returns after its `eSL_MessageWait`: `eStatus`, the first byte of the status
message, which is in memory of its own if there is no copy.
-/
def Listeners.sendResult (s : Listeners) : WaitResult → UInt8
  | .ok _ (.copy k) => s.copyByte heap k 0
  | .ok _ _ => heap 0 0
  | .noMessage => Status.noMessage.toUInt8
  | .error => Status.error.toUInt8

/--
The reader thread has done with the answer that the call waits for.
-/
def Exchange.handled (x : Exchange) (call : Nat) : Bool :=
  match x.link.reader with
  | .idle => x.line.all (fun m => m.u16Type ≠ (exchangeArgs u16Type call).u16Type)
  | _ => false

/--
Steps of the threads inside `eSL_MessageQueue` and `eSL_MessageWait`. The answers come within the
wait time, so a call does not time out before its answer has been handled.
-/
def Exchange.mayStep (x : Exchange) : Act → Bool
  | .queue _ => false
  | .wait _ => false
  | .expire call => x.handled u16Type call
  | _ => true

def Exchange.step (x : Exchange) : ExchangeAct → Option Exchange
  | .written =>
    if x.sender = .writing then
      (x.link.step (exchangeArgs u16Type) heap (.wait 0)).map
        fun link => { x with link, sender := .waitStatus }
    else
      none
  | .sent =>
    match x.sender, x.link.calls 0 with
    | .waitStatus, .returned result =>
      some { x with sender := .sent, eStatus := some (x.link.sendResult heap result) }
    | _, _ => none
  | .waitResponse =>
    if x.sender = .sent ∧ x.eStatus = some Status.ok.toUInt8 then
      (x.link.step (exchangeArgs u16Type) heap (.wait 1)).map
        fun link => { x with link, sender := .waitResponse }
    else
      none
  | .received =>
    match x.sender, x.link.calls 1 with
    | .waitResponse, .returned result => some { x with sender := .received result }
    | _, _ => none
  | .read =>
    -- the node answers once the last byte of the command has been written
    match x.sender, x.line with
    | .writing, _ => none
    | _, [] => none
    | _, m :: line =>
      (x.link.step (exchangeArgs u16Type) heap (.queue m)).map fun link => { x with link, line }
  | .thread a =>
    if x.mayStep u16Type a then
      (x.link.step (exchangeArgs u16Type) heap a).map fun link => { x with link }
    else
      none

end

def Exchange.init (answers : List Message) : Exchange where
  link := .init
  sender := .writing
  eStatus := none
  line := answers

end SerialLink
