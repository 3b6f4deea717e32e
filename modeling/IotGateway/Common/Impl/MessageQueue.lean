import IotGateway.Common.Parsing

/-!
This module contains the message queues between the processes. The messages of a queue lie in the
kernel, the first one to be read comes first. All of them have the same type.
-/

namespace MessageQueue

open IotError

def MAXMESSAGESIZE : Nat := 300
def QREAD_POLL : Int := 50

abbrev Message := List Char

/--
`sent` is whether `msgsnd` succeeds. It waits as long as the queue is full. The error is what
`iotError` is set to.
-/
def queueWrite (sent : Bool) (message : Message) (queue : List Message)
    : List Message × Option Int :=
  if MAXMESSAGESIZE - 2 < message.length then
    (queue, some IOT_ERROR_QUEUE_BUFSIZE)
  else if sent then
    (queue ++ [message], none)
  else
    (queue, some IOT_ERROR_QUEUE_WRITE)

theorem queueWrite_append (sent : Bool) (message : Message) (queue : List Message)
    : (queueWrite sent message queue).1 = queue ++ (queueWrite sent message []).1 := by
  unfold queueWrite
  split
  . rw [List.append_nil]
  . split
    . rfl
    . rw [List.append_nil]

/--
What is copied into a buffer of this size. The terminator comes behind it.
-/
def received (size : Nat) (message : Message) : Message := message.take (size - 1)

/--
`failed` is whether `msgrcv` fails. It waits as long as the queue is empty, then there is no result.
-/
def queueRead (size : Nat) (failed : Bool) (queue : List Message)
    : Option (Int × Message × List Message) :=
  if failed then
    some (-1, [], queue)
  else
    match queue with
    | [] => none
    | message :: queue =>
      some ((received size message).length, received size message, queue)

/--
The variables of a call of `queueReadWithMsecTimeout`.
-/
structure Call where
  len : Int := 0
  msec : Int
  message : Message := []

def Call.waits (call : Call) : Bool := call.len ≤ 0 ∧ 0 < call.msec

/--
One pass of the loop of `queueReadWithMsecTimeout`. `failed` is whether `msgrcv` fails although there
is a message.
-/
def Call.poll (size : Nat) (failed : Bool) (queue : List Message) (call : Call)
    : Call × List Message :=
  match if failed then [] else queue with
  | [] =>
    let msec := call.msec - QREAD_POLL
    ({ call with msec, len := if 0 < msec then 0 else -1 }, queue)
  | message :: rest =>
    let message := received size message
    ({ call with len := message.length, message }, rest)

end MessageQueue
