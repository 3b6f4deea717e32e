import Mathlib.Logic.Function.Basic

/-!
This module contains the queue of `Utils.c`, which any number of threads fill and empty. What a call
does from the lock of the mutex, or from the end of a wait, to the unlock or the next wait is one step.
-/

namespace UtilsQueue

/--
`teUtilsStatus`, as far as it is returned here
-/
inductive Status where
  | ok
  | block
  | timeout
  | failed
  deriving DecidableEq

/--
`tsQueuePrivate` without what the threads wait for. The slots are numbered from 0 on.
-/
structure QueuePrivate (α : Type) where
  apvBuffer : Nat → α
  u32Capacity : UInt32
  u32Size : UInt32
  u32In : UInt32
  u32Out : UInt32
  -- `UTILS_QUEUE_NONBLOCK_INPUT` and `UTILS_QUEUE_NONBLOCK_OUTPUT` in `iFlags`
  nonblockInput : Bool
  nonblockOutput : Bool

variable {α : Type}

/--
`apvBuffer` is what `malloc` returns.
-/
def eUtils_QueueCreate (apvBuffer : Nat → α) (u32MaxCapacity : UInt32)
    (nonblockInput nonblockOutput : Bool) : QueuePrivate α where
  apvBuffer
  u32Capacity := u32MaxCapacity
  u32Size := 0
  u32In := 0
  u32Out := 0
  nonblockInput
  nonblockOutput

def QueuePrivate.put (q : QueuePrivate α) (pvData : α) : QueuePrivate α :=
  { q with
    apvBuffer := Function.update q.apvBuffer q.u32In.toNat pvData
    u32Size := q.u32Size + 1
    u32In := (q.u32In + 1) % q.u32Capacity }

def QueuePrivate.head (q : QueuePrivate α) : α := q.apvBuffer q.u32Out.toNat

def QueuePrivate.take (q : QueuePrivate α) : QueuePrivate α :=
  { q with
    u32Size := q.u32Size - 1
    u32Out := (q.u32Out + 1) % q.u32Capacity }

/--
A call of `eUtils_QueueQueue`, `eUtils_QueueDequeue` or `eUtils_QueueDequeueTimed`
-/
inductive Request (α : Type) where
  | queue (pvData : α)
  | dequeue
  | dequeueTimed

/--
The condition variables.
-/
inductive Cond where
  | spaceAvailable
  | dataAvailable
  deriving DecidableEq

def Request.waitsFor : Request α → Cond
  | .queue _ => .spaceAvailable
  | .dequeue => .dataAvailable
  | .dequeueTimed => .dataAvailable

def Request.broadcasts : Request α → Cond
  | .queue _ => .dataAvailable
  | .dequeue => .spaceAvailable
  | .dequeueTimed => .spaceAvailable

/--
Where a call stands. A `woken` call waits for the mutex before it goes on.
-/
inductive CallPc (α : Type) where
  | idle
  | waiting (request : Request α)
  | woken (request : Request α)
  -- After the unlock
  | broadcast (request : Request α)
  | returned (eStatus : Status)

/--
`enqueued` and `dequeued` record what has been stored and handed out so far, with the call that did
it.
-/
structure State (α : Type) where
  q : QueuePrivate α
  calls : Nat → CallPc α
  enqueued : List (Nat × α)
  dequeued : List (Nat × α)

def State.create (q : QueuePrivate α) : State α where
  q
  calls := fun _ => .idle
  enqueued := []
  dequeued := []

def State.goto (s : State α) (c : Nat) (pc : CallPc α) : State α :=
  { s with calls := Function.update s.calls c pc }

/--
An item is stored.
-/
def State.put (s : State α) (c : Nat) (pvData : α) : State α :=
  { s with
    q := s.q.put pvData
    enqueued := s.enqueued ++ [(c, pvData)] }

/--
An item is handed out.
-/
def State.take (s : State α) (c : Nat) : State α :=
  { s with
    q := s.q.take
    dequeued := s.dequeued ++ [(c, s.q.head)] }

/--
A call goes on with the mutex locked.
-/
def State.enter (s : State α) (c : Nat) (request : Request α) : State α :=
  match request with
  | .queue pvData =>
    if s.q.u32Size = s.q.u32Capacity then
      s.goto c (if s.q.nonblockInput then .returned .block else .waiting request)
    else
      (s.put c pvData).goto c (.broadcast request)
  | .dequeue =>
    if s.q.u32Size = 0 then
      s.goto c (if s.q.nonblockOutput then .returned .block else .waiting request)
    else
      (s.take c).goto c (.broadcast request)
  | .dequeueTimed =>
    if s.q.u32Size = 0 then
      s.goto c (.waiting request)
    else
      (s.take c).goto c (.broadcast request)

def CallPc.wake (cond : Cond) : CallPc α → CallPc α
  | .waiting request => if request.waitsFor = cond then .woken request else .waiting request
  | pc => pc

inductive Event (α : Type) where
  | call (c : Nat) (request : Request α)
  -- A wait may end without a broadcast too
  | wake (c : Nat)
  | resume (c : Nat)
  -- `pthread_cond_timedwait` returns something else than 0
  | expire (c : Nat) (timedOut : Bool)
  | broadcast (c : Nat)

def Event.of : Event α → Nat
  | .call c _ => c
  | .wake c => c
  | .resume c => c
  | .expire c _ => c
  | .broadcast c => c

/--
An event that is not possible where the call stands does nothing.
-/
def State.next (s : State α) (e : Event α) : State α :=
  match e, s.calls e.of with
  | .call c request, .idle => s.enter c request
  | .wake c, .waiting request => s.goto c (.woken request)
  | .resume c, .woken request => s.enter c request
  | .expire c timedOut, .waiting .dequeueTimed =>
    s.goto c (.returned (if timedOut then .timeout else .failed))
  | .broadcast c, .broadcast request =>
    { s with calls := fun c' => (s.calls c').wake request.broadcasts }.goto c (.returned .ok)
  | _, _ => s

end UtilsQueue
