import Mathlib.Logic.Function.Basic

/-!
This module contains the semaphores. A semaphore is made by the first process that looks for it, and
gets its value in a step of its own. The processes are numbered, and each of them does what it does
between a P and the V that follows it outside this module.
-/

namespace Semaphore

/--
What calls `semInit`. An `unlock` is the call that `semPautounlock` makes if `semPtimeout` returns 0.
-/
inductive Caller where
  | semP
  | semPautounlock
  | unlock
  | semV
  deriving DecidableEq

def Caller.startval : Caller → Nat
  | .semP => 1
  | .semPautounlock => 1
  | .unlock => 1
  | .semV => 0

/--
Where a process stands. An `inside` process has completed its P, and `overrun` tells if there has been
an automatic unlock since then.
-/
inductive Pc where
  | idle
  -- In `semInit`, before `semget`
  | create (caller : Caller)
  -- In `semInit`, before `SETVAL`
  | setval (caller : Caller)
  -- Before the `semop`, or the `semtimedop` of `semPtimeout`, that takes the semaphore
  | take (timed : Bool)
  | inside (overrun : Bool)
  -- Before the `semop` of `semV`
  | give
  deriving DecidableEq

/--
What comes after `semInit` has returned `semId`.
-/
def Caller.resume (caller : Caller) (semId : Nat) : Pc :=
  match caller with
  | .semP => if semId = 0 then .inside false else .take false
  | .semPautounlock => if semId = 0 then .create .unlock else .take true
  | .unlock => .inside false
  | .semV => if semId = 0 then .idle else .give

/--
The semaphore of the kernel.
-/
structure Sem where
  semId : Nat
  value : Nat
  deriving DecidableEq

structure State where
  sem : Option Sem
  pc : Nat → Pc

/--
No process has looked for the semaphore yet.
-/
def State.start : State where
  sem := none
  pc := fun _ => .idle

inductive Event where
  -- The call, with its first `semget`
  | semP (p : Nat)
  | semPautounlock (p : Nat)
  | semV (p : Nat)
  -- The `semget` of `semInit`. A new semaphore gets the id `semId`.
  | create (p : Nat) (semId : Nat)
  | createFails (p : Nat)
  | setval (p : Nat)
  | take (p : Nat)
  | timeout (p : Nat)
  | give (p : Nat)
  deriving DecidableEq

def State.goto (s : State) (p : Nat) (pc : Pc) : State := { s with pc := Function.update s.pc p pc }

/--
The first `semget` of a call.
-/
def State.call (s : State) (p : Nat) (found : Pc) (caller : Caller) : State :=
  match s.sem with
  | some _ => s.goto p found
  | none => s.goto p (.create caller)

def Pc.overrun : Pc → Pc
  | .inside _ => .inside true
  | pc => pc

/--
An automatic unlock overruns all that are inside.
-/
def State.setValue (s : State) (caller : Caller) (semId : Nat) : State where
  sem := some { semId, value := caller.startval }
  pc := if caller = .unlock then fun p => (s.pc p).overrun else s.pc

/--
An event that is not possible where the process stands does nothing. A new semaphore has the value 0,
and a P has to wait as long as the value is 0.
-/
def State.next (s : State) : Event → State
  | .semP p => if s.pc p = .idle then s.call p (.take false) .semP else s
  | .semPautounlock p => if s.pc p = .idle then s.call p (.take true) .semPautounlock else s
  | .semV p =>
    match s.pc p with
    | .inside _ => s.call p .give .semV
    | _ => s
  | .create p semId =>
    match s.pc p with
    | .create caller =>
      match s.sem with
      | some _ => s.goto p (.setval caller)
      | none => { s with sem := some { semId, value := 0 } }.goto p (.setval caller)
    | _ => s
  | .createFails p =>
    match s.pc p with
    | .create caller => s.goto p (caller.resume 0)
    | _ => s
  | .setval p =>
    match s.pc p, s.sem with
    | .setval caller, some sem => (s.setValue caller sem.semId).goto p (caller.resume sem.semId)
    | _, _ => s
  | .take p =>
    match s.pc p, s.sem with
    | .take _, some { semId, value := value + 1 } =>
      { s with sem := some { semId, value } }.goto p (.inside false)
    | _, _ => s
  | .timeout p =>
    match s.pc p, s.sem with
    | .take true, some { value := 0, .. } => s.goto p (.create .unlock)
    | _, _ => s
  | .give p =>
    match s.pc p, s.sem with
    | .give, some { semId, value } =>
      { s with sem := some { semId, value := value + 1 } }.goto p .idle
    | _, _ => s

end Semaphore
