import IotGateway.ControlInterface.Impl.Upload

/-!
This module contains the lock of the topology upload as the processes of the control interface use it
beside each other. The processes are numbered, and each access to the system table is a step of its
own.
-/

namespace ControlInterface.TopoLock

open NewDb

def lockRow (db : Db) : Option System := newDbGetSystem db "topobusy"

/--
What calls `newDbSystemSaveIntval`. In `lockTopoUpload` there are `wait` tries left.
-/
inductive Caller where
  | lockTopoUpload (wait : Nat)
  | unlockTopoUpload
  deriving DecidableEq

def Caller.intval : Caller → Int
  | .lockTopoUpload _ => 1
  | .unlockTopoUpload => 0

/--
Where a process stands, with its own copy of the row.
-/
inductive Pc where
  | idle
  -- In `lockTopoUpload`, before `newDbGetSystem`
  | get (wait : Nat)
  -- Before `time`
  | time (wait : Nat) (sys : System)
  -- Before `newDbSetSystem`
  | set (wait : Nat) (sys : System)
  -- In `newDbSystemSaveIntval`, before `newDbGetSystem`
  | saveGet (caller : Caller)
  -- Before `newDbGetNewSystem`
  | saveNew (caller : Caller)
  -- Before `newDbSetSystem`
  | saveSet (caller : Caller) (sys : System)
  -- Between `lockTopoUpload`, which has succeeded, and `unlockTopoUpload`
  | inside
  deriving DecidableEq

/--
`held` are the processes that have the lock, with the second in which they have taken it. A process is
in it until its `unlockTopoUpload` is done or another process has taken the lock over after the time
limit. It is only there to be reasoned about.
-/
structure State where
  db : Db
  clock : Int
  pc : Nat → Pc
  held : List (Nat × Int)

def State.start (db : Db) (clock : Int) : State where
  db
  clock
  pc := fun _ => .idle
  held := []

inductive Event where
  | lockTopoUpload (p : Nat)
  | unlockTopoUpload (p : Nat)
  -- The process makes its next access
  | step (p : Nat)
  | tick (seconds : Nat)
  deriving DecidableEq

def State.goto (s : State) (p : Nat) (pc : Pc) : State := { s with pc := Function.update s.pc p pc }

/--
The try has failed. The process sleeps for a second if it has another one.
-/
def State.retry (s : State) (p : Nat) : Nat → State
  | 0 => s.goto p .idle
  | wait + 1 => s.goto p (.get wait)

/--
A lock is overrun by a new one if it has exceeded the limit of 60 seconds.
-/
def State.take (s : State) (p : Nat) : State :=
  { s with held := (p, s.clock) :: s.held.filter fun holder => s.clock - holder.2 ≤ 60 }

/--
`okToUpload` is what the access has returned.
-/
def State.locked (s : State) (p wait : Nat) (db : Db) (okToUpload : Bool) : State :=
  if okToUpload then
    ({ s with db }.take p).goto p .inside
  else
    { s with db }.retry p wait

/--
What `newDbSystemSaveIntval` returns matters to `lockTopoUpload` only.
-/
def State.saved (s : State) (p : Nat) (caller : Caller) (db : Db) (ret : Bool) : State :=
  match caller with
  | .lockTopoUpload wait => s.locked p wait db ret
  | .unlockTopoUpload =>
    { s with db, held := s.held.filter fun holder => holder.1 ≠ p }.goto p .idle

/--
The next access of a process.
-/
def State.access (s : State) (p : Nat) : State :=
  match s.pc p with
  | .idle | .inside => s
  | .get wait =>
    match lockRow s.db with
    | some sys =>
      if sys.intval = 0 then
        s.goto p (.set wait { sys with intval := 1 })
      else
        s.goto p (.time wait sys)
    | none => s.goto p (.saveGet (.lockTopoUpload wait))
  | .time wait sys =>
    -- Recover from old lock
    if 60 < s.clock - sys.lastupdate then
      s.goto p (.set wait { sys with intval := 1 })
    else
      s.retry p wait
  | .set wait sys =>
    let (db, okToUpload) := newDbSetSystem s.db sys s.clock
    s.locked p wait db okToUpload
  | .saveGet caller =>
    match lockRow s.db with
    | some sys => s.goto p (.saveSet caller { sys with intval := caller.intval, strval := "" })
    | none => s.goto p (.saveNew caller)
  | .saveNew caller =>
    match newDbGetNewSystem s.db "topobusy" s.clock with
    | (db, some sys) =>
      { s with db }.goto p (.saveSet caller { sys with intval := caller.intval, strval := "" })
    | (db, none) => s.saved p caller db false
  | .saveSet caller sys =>
    let (db, ret) := newDbSetSystem s.db sys s.clock
    s.saved p caller db ret

/--
A call that is not possible where the process stands does nothing.
-/
def State.next (s : State) : Event → State
  | .lockTopoUpload p => if s.pc p = .idle then s.goto p (.get 9) else s
  | .unlockTopoUpload p =>
    if s.pc p = .inside then s.goto p (.saveGet .unlockTopoUpload) else s
  | .step p => s.access p
  | .tick seconds => { s with clock := s.clock + seconds }

end ControlInterface.TopoLock
