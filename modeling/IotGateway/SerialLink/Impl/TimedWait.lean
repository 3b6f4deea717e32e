import IotGateway.Lib.Timespec
import IotGateway.SerialLink.Basic
import IotGateway.UtilsQueue.Impl

/-!
This module contains the timed waits of `eSL_MessageWait` and `eUtils_QueueDequeueTimed`, with the
point in time until which they wait.
-/

namespace SerialLink

open Clock UtilsQueue

/--
What ends a wait that is valid.
-/
inductive Wakeup where
  | signalled
  | timedOut

inductive WaitReturn where
  | zero
  | ETIMEDOUT
  | EINVAL
  deriving DecidableEq

/--
It refuses a fraction of a second and more.
-/
def pthread_cond_timedwait (abstime : Timespec) (wakeup : Wakeup) : WaitReturn :=
  if abstime.Valid then
    match wakeup with
    | .signalled => .zero
    | .timedOut => .ETIMEDOUT
  else
    .EINVAL

/--
The computation of `sTimeout`, of which the source has two copies.
-/
def timeoutAfter (sNow : Timeval) (ms : UInt32) : Timespec :=
  let tv_sec := sNow.tv_sec + (ms / 1000).toNat
  let tv_nsec := (sNow.tv_usec + (ms % 1000 * 1000).toNat) * 1000
  if 1000000000 < tv_nsec then
    { tv_sec := tv_sec + 1, tv_nsec := tv_nsec - 1000000000 }
  else
    { tv_sec, tv_nsec }

namespace eSL_MessageWait

def sTimeout (sNow : Timeval) (u32WaitTimeout : UInt32) : Timespec :=
  timeoutAfter sNow u32WaitTimeout

/--
What is returned after the wait in a slot.
-/
def eStatus (sNow : Timeval) (u32WaitTimeout : UInt32) (wakeup : Wakeup) : SerialLink.Status :=
  match pthread_cond_timedwait (sTimeout sNow u32WaitTimeout) wakeup with
  | .zero => .ok
  | .ETIMEDOUT => .noMessage
  | .EINVAL => .error

end eSL_MessageWait

namespace eUtils_QueueDequeueTimed

variable {α : Type}

def sTimeout (sNow : Timeval) (u32WaitMs : UInt32) : Timespec := timeoutAfter sNow u32WaitMs

/--
The status if the loop is left after a wait.
-/
def afterWait (sNow : Timeval) (u32WaitMs : UInt32) (wakeup : Wakeup) : Option UtilsQueue.Status :=
  match pthread_cond_timedwait (sTimeout sNow u32WaitMs) wakeup with
  | .zero => none
  | .ETIMEDOUT => some .timeout
  | .EINVAL => some .failed

/--
A turn of the loop: the clock before the wait, what ends it, and the queue after it.
-/
structure Turn (α : Type) where
  sNow : Timeval
  wakeup : Wakeup
  q : QueuePrivate α

/--
The status, the pointer that is stored and the queue. `none` means that the call still waits.
-/
def run (u32WaitMs : UInt32)
    : (q : QueuePrivate α) → List (Turn α)
      → Option (UtilsQueue.Status × Option α × QueuePrivate α)
  | q, [] => if q.u32Size ≠ 0 then some (.ok, some q.head, q.take) else none
  | q, turn :: turns =>
    if q.u32Size ≠ 0 then
      some (.ok, some q.head, q.take)
    else
      match afterWait turn.sNow u32WaitMs turn.wakeup with
      | none => run u32WaitMs turn.q turns
      | some status => some (status, none, turn.q)

end eUtils_QueueDequeueTimed

end SerialLink
