import IotGateway.Lib.Table

/-!
This module contains the table of the children of the control interface. The parent goes through its
accept loop in small steps, and its signal handler may run between any two of them.
-/

namespace ControlInterface.Children

open Table

def MAXCHILDREN : Nat := 10

def INT_MAX : Int := 2147483647

/--
A child that has been forked and has not been reaped yet.
-/
structure Proc where
  exited : Bool := false
  killed : Bool := false
  deriving DecidableEq

/--
What `numChildren` has been called for. In the waiting loop `cnt` turns are left.
-/
inductive Use where
  | added
  | waiting (cnt : Nat)
  deriving DecidableEq

/--
Where the parent stands.
-/
inductive Pc where
  -- In `socketAccept`
  | accept
  -- In `addChild`, before the test of `children[i]` and before `children[i] = pid`
  | addChild (pid : Int) (i : Nat)
  | store (pid : Int) (i : Fin MAXCHILDREN)
  -- In `numChildren`, before the test of `children[i]`
  | numChildren (use : Use) (i cnt : Nat)
  -- In `IOT_MSLEEP` of the waiting loop
  | sleep (cnt : Nat)
  -- In `killOldest`, before the test of `children[i]` and before `kill`
  | killOldest (i : Nat) (oldest : Int)
  | signalOldest (pid : Int)
  -- Before the `kill` of a child that has no place in the table
  | signalNew (pid : Int)
  -- In `killAllChildren` of the signal handler, before `children[i]` is read and before `kill`
  | killAllChildren (i : Nat)
  | signalEach (i : Nat) (pid : Int)
  | exited
  deriving DecidableEq

/--
`beyond` is what is in memory before and after the table.
-/
structure State where
  children : Fin MAXCHILDREN → Int
  beyond : Int → Int
  proc : Int → Option Proc
  pc : Pc

def State.start (beyond : Int → Int) : State where
  children := fun _ => 0
  beyond
  proc := fun _ => none
  pc := .accept

inductive Event where
  -- A connection is accepted and `fork` returns a new pid
  | fork (pid : Int)
  | exit (pid : Int)
  -- A turn of the loop in the handler of `SIGCHLD`, in which `waitpid` returns `pid`
  | reap (pid : Int)
  -- `SIGTERM` or `SIGINT`
  | quit
  -- The parent goes on
  | step
  deriving DecidableEq

def remChild (children : Fin MAXCHILDREN → Int) (pid : Int) : Fin MAXCHILDREN → Int :=
  match first (· == pid) children with
  | some i => Function.update children i 0
  | none => children

/--
`children[index]`
-/
def State.read (s : State) (index : Int) : Int :=
  if h : 0 ≤ index ∧ index < MAXCHILDREN then s.children ⟨index.toNat, by omega⟩ else s.beyond index

/--
`SIGKILL` to the process `pid`.
-/
def State.kill (s : State) (pid : Int) : State :=
  { s with
    proc := Function.update s.proc pid ((s.proc pid).map fun proc => { proc with killed := true }) }

/--
What is done with the number of the children.
-/
def Use.next (use : Use) (num : Nat) : Pc :=
  match use with
  | .added => if num ≥ MAXCHILDREN then .sleep 50 else .accept
  | .waiting cnt => if num ≥ MAXCHILDREN then .sleep cnt else .accept

def State.step (s : State) : State :=
  match s.pc with
  | .accept | .exited => s
  | .addChild pid i =>
    if h : i < MAXCHILDREN then
      if s.children ⟨i, h⟩ = 0 then
        { s with pc := .store pid ⟨i, h⟩ }
      else
        { s with pc := .addChild pid (i + 1) }
    else
      -- HAZARD - Too many children: kill the new one
      { s with pc := .signalNew pid }
  | .store pid i =>
    { s with children := Function.update s.children i pid, pc := .numChildren .added 0 0 }
  | .numChildren use i cnt =>
    if h : i < MAXCHILDREN then
      if s.children ⟨i, h⟩ = 0 then
        { s with pc := .numChildren use (i + 1) cnt }
      else
        { s with pc := .numChildren use (i + 1) (cnt + 1) }
    else
      { s with pc := use.next cnt }
  | .sleep cnt =>
    match cnt with
    | cnt + 1 => { s with pc := .numChildren (.waiting cnt) 0 0 }
    -- No child stopped within 10 secs
    | 0 => { s with pc := .killOldest 0 INT_MAX }
  | .killOldest i oldest =>
    if h : i < MAXCHILDREN then
      if s.children ⟨i, h⟩ < oldest then
        { s with pc := .killOldest (i + 1) (s.children ⟨i, h⟩) }
      else
        { s with pc := .killOldest (i + 1) oldest }
    else if oldest = INT_MAX then
      { s with pc := .accept }
    else
      -- The smallest pid is the index
      { s with pc := .signalOldest (s.read oldest) }
  | .signalOldest pid => { s.kill pid with pc := .accept }
  | .signalNew pid => { s.kill pid with pc := .accept }
  | .killAllChildren i =>
    if h : i < MAXCHILDREN then
      { s with pc := .signalEach i (s.children ⟨i, h⟩) }
    else
      { s with pc := .exited }
  | .signalEach i pid => { s.kill pid with pc := .killAllChildren (i + 1) }

/--
An event that is not possible does nothing. A pid is given to one process at a time.
-/
def State.next (s : State) : Event → State
  | .fork pid =>
    if s.pc = .accept ∧ 0 < pid ∧ s.proc pid = none then
      { s with proc := Function.update s.proc pid (some {}), pc := .addChild pid 0 }
    else
      s
  | .exit pid =>
    { s with
      proc :=
        Function.update s.proc pid ((s.proc pid).map fun proc => { proc with exited := true }) }
  | .reap pid =>
    match s.proc pid with
    | some { exited := true, .. } =>
      { s with
        proc := Function.update s.proc pid none
        children := remChild s.children pid }
    | _ => s
  | .quit => if s.pc = .exited then s else { s with pc := .killAllChildren 0 }
  | .step => s.step

end ControlInterface.Children
