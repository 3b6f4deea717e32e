import IotGateway.ControlInterface.Impl.TopoLock
import IotGateway.Lib.Machine
import IotGateway.NewDb.Lemmas.Tables

/-!
This module says which steps keep the lock of the topology upload exclusive. The lock is read in one
access and written in another one, and it is given back without asking who has it.
-/

namespace ControlInterface.TopoLock

open NewDb

/--
One process has the lock at most, not counting those that have been overrun after the time limit, and
as long as it has it the row says so.
-/
structure Exclusive (s : State) : Prop where
  one : s.held.length ≤ 1
  locked : s.held ≠ [] → ∃ sys ∈ lockRow s.db, sys.intval ≠ 0

/--
What a process that takes the lock has to have read.
-/
def Free (s : State) : Prop :=
  ∀ sys ∈ lockRow s.db, sys.intval = 0 ∨ 60 < s.clock - sys.lastupdate

instance (s : State) : Decidable (Free s) :=
  inferInstanceAs (Decidable (∀ sys ∈ lockRow s.db, sys.intval = 0 ∨ 60 < s.clock - sys.lastupdate))

/--
The lock is written as taken if this is still right then, the row is made if there still is none, and
the lock is given back if no other process has taken it over.
-/
def Pc.Permitted (s : State) (p : Nat) : Pc → Prop
  | .set _ _ | .saveSet (.lockTopoUpload _) _ => Free s
  | .saveNew _ => lockRow s.db = none
  | .saveSet .unlockTopoUpload _ => ∀ holder ∈ s.held, holder.1 = p
  | .idle | .get _ | .time _ _ | .saveGet _ | .inside => True

instance (s : State) (p : Nat) : (pc : Pc) → Decidable (pc.Permitted s p)
  | .set _ _ | .saveSet (.lockTopoUpload _) _ => inferInstanceAs (Decidable (Free s))
  | .saveNew _ => inferInstanceAs (Decidable (lockRow s.db = none))
  | .saveSet .unlockTopoUpload _ => inferInstanceAs (Decidable (∀ holder ∈ s.held, holder.1 = p))
  | .idle | .get _ | .time _ _ | .saveGet _ | .inside => inferInstanceAs (Decidable True)

def Permitted (s : State) : Event → Prop
  | .step p => (s.pc p).Permitted s p
  | .lockTopoUpload _ | .unlockTopoUpload _ | .tick _ => True

instance (s : State) : (e : Event) → Decidable (Permitted s e)
  | .step p => inferInstanceAs (Decidable ((s.pc p).Permitted s p))
  | .lockTopoUpload _ | .unlockTopoUpload _ | .tick _ => inferInstanceAs (Decidable True)

/--
The copy goes back to where the row is.
-/
def IsCopy (db : Db) (sys : System) : Prop :=
  ∃ i, Named db "topobusy" i ∧ sys.id = i ∧ sys.name = "topobusy"

def Pc.Sound (db : Db) : Pc → Prop
  | .time _ sys => IsCopy db sys
  | .set _ sys => IsCopy db sys ∧ sys.intval = 1
  | .saveSet caller sys => IsCopy db sys ∧ sys.intval = caller.intval
  | _ => True

structure Inv (s : State) : Prop where
  indexed : SystemIndexed s.db
  sound : ∀ p, (s.pc p).Sound s.db
  one : s.held.length ≤ 1
  stamped : ∀ holder ∈ s.held, ∃ sys ∈ lockRow s.db, sys.intval ≠ 0 ∧ sys.lastupdate = holder.2

theorem Inv.exclusive {s : State} (h : Inv s) : Exclusive s where
  one := h.one
  locked := by
    intro hne
    obtain ⟨holder, hholder⟩ := List.exists_mem_of_ne_nil s.held hne
    obtain ⟨sys, hrow, hintval, -⟩ := h.stamped holder hholder
    exact ⟨sys, hrow, hintval⟩

theorem Inv.start {db : Db} (h : SystemIndexed db) (clock : Int) : Inv (State.start db clock) where
  indexed := h
  sound := fun _ => trivial
  one := Nat.zero_le 1
  stamped := by
    intro holder hholder
    cases hholder

theorem IsCopy.of_row {db : Db} {sys : System} (h : SystemIndexed db) (hrow : lockRow db = some sys)
    : IsCopy db sys := by
  obtain ⟨i, hnamed, rfl⟩ := newDbGetSystem_eq_some_iff.mp hrow
  exact ⟨i, hnamed, h i, (named_iff.mp hnamed).1⟩

/--
The row stays where it is.
-/
theorem Pc.Sound.mono {db db' : Db} {pc : Pc} (h : pc.Sound db)
    (hnamed : ∀ i, Named db "topobusy" i → Named db' "topobusy" i)
    : pc.Sound db' := by
  have hcopy : ∀ sys, IsCopy db sys → IsCopy db' sys := by
    rintro sys ⟨i, hi, hid, hname⟩
    exact ⟨i, hnamed i hi, hid, hname⟩
  cases pc with
  | time wait sys => exact hcopy sys h
  | set wait sys => exact ⟨hcopy sys h.1, h.2⟩
  | saveSet caller sys => exact ⟨hcopy sys h.1, h.2⟩
  | _ => trivial

section

variable {s : State} {p : Nat}

theorem Inv.goto (h : Inv s) {pc : Pc} (hpc : pc.Sound s.db) : Inv (s.goto p pc) where
  indexed := h.indexed
  sound := by
    intro q
    simp only [State.goto]
    by_cases hq : q = p
    . rw [hq, Function.update_self]
      exact hpc
    . rw [Function.update_of_ne hq]
      exact h.sound q
  one := h.one
  stamped := h.stamped

theorem Inv.retry (h : Inv s) (wait : Nat) : Inv (s.retry p wait) := by
  cases wait with
  | zero => exact h.goto trivial
  | succ wait => exact h.goto trivial

/--
The copy is written to its row.
-/
theorem Inv.write (h : Inv s) {sys : System} (hcopy : IsCopy s.db sys)
    : (newDbSetSystem s.db sys s.clock).2 = true
        ∧ SystemIndexed (newDbSetSystem s.db sys s.clock).1
        ∧ (∀ q, (s.pc q).Sound (newDbSetSystem s.db sys s.clock).1)
        ∧ lockRow (newDbSetSystem s.db sys s.clock).1 = some { sys with lastupdate := s.clock } := by
  obtain ⟨i, hnamed, hid, hname⟩ := hcopy
  refine ⟨?_, ?_, ?_, ?_⟩
  . rw [newDbSetSystem_eq s.clock hid]
  . exact h.indexed.apply (.setSystem sys s.clock)
  . intro q
    apply (h.sound q).mono
    intro j hj
    obtain rfl := Option.some.inj (hj.symm.trans hnamed)
    exact hnamed.set s.clock hid hname
  . rw [lockRow, (hnamed.set s.clock hid hname).get, newDbSetSystem_row s.db s.clock hid]

theorem Inv.lock (h : Inv s) {sys : System} {wait : Nat} (hcopy : IsCopy s.db sys)
    (hintval : sys.intval = 1) (hfree : Free s)
    : Inv (s.locked p wait (newDbSetSystem s.db sys s.clock).1
        (newDbSetSystem s.db sys s.clock).2) := by
  obtain ⟨hret, hindexed, hsound, hrow⟩ := h.write hcopy
  rw [State.locked, if_pos hret]
  -- Whoever had the lock has exceeded the limit
  have hkept : s.held.filter (fun holder => decide (s.clock - holder.2 ≤ 60)) = [] := by
    apply List.filter_eq_nil_iff.mpr
    intro holder hholder
    obtain ⟨row, hlock, hne, hstamp⟩ := h.stamped holder hholder
    rcases hfree row hlock with hzero | hlate
    . exact absurd hzero hne
    . rw [← hstamp, decide_eq_true_iff]
      exact Int.not_le.mpr hlate
  rw [State.take]
  simp only [hkept]
  refine Inv.goto ?_ trivial
  refine ⟨hindexed, hsound, Nat.le_refl 1, ?_⟩
  intro holder hholder
  obtain rfl := List.mem_singleton.mp hholder
  refine ⟨_, hrow, ?_, rfl⟩
  simp only [hintval]
  exact Int.one_ne_zero

theorem Inv.unlock (h : Inv s) {sys : System} (hcopy : IsCopy s.db sys)
    (halone : ∀ holder ∈ s.held, holder.1 = p) (ret : Bool)
    : Inv (s.saved p .unlockTopoUpload (newDbSetSystem s.db sys s.clock).1 ret) := by
  obtain ⟨-, hindexed, hsound, -⟩ := h.write hcopy
  have hnobody : s.held.filter (fun holder => decide (holder.1 ≠ p)) = [] := by
    apply List.filter_eq_nil_iff.mpr
    intro holder hholder
    simp [halone holder hholder]
  simp only [State.saved, hnobody]
  refine Inv.goto ?_ trivial
  refine ⟨hindexed, hsound, Nat.zero_le 1, ?_⟩
  intro holder hholder
  cases hholder

/--
If there is no row then no process has the lock.
-/
theorem Inv.held_of_none (h : Inv s) (hnone : lockRow s.db = none) : s.held = [] := by
  apply List.eq_nil_iff_forall_not_mem.mpr
  intro holder hholder
  obtain ⟨sys, hrow, -⟩ := h.stamped holder hholder
  rw [hnone] at hrow
  cases hrow

theorem Inv.create (h : Inv s) {caller : Caller} (hnone : lockRow s.db = none)
    (hpc : s.pc p = .saveNew caller)
    : Inv (s.access p) := by
  have hheld := h.held_of_none hnone
  have hindexed : SystemIndexed (newDbGetNewSystem s.db "topobusy" s.clock).1 :=
    h.indexed.apply (.newSystem "topobusy" s.clock)
  -- No process has a copy yet
  have hsound : ∀ db q, (s.pc q).Sound db := by
    intro db q
    apply (h.sound q).mono
    intro i hi
    have hrow := hi.get
    rw [← lockRow, hnone] at hrow
    cases hrow
  have hinv : ∀ db, SystemIndexed db → Inv { s with db } := by
    intro db hdb
    refine ⟨hdb, hsound db, h.one, ?_⟩
    intro holder hholder
    simp only [hheld] at hholder
    cases hholder
  simp only [State.access, hpc]
  match hnew : newDbGetNewSystem s.db "topobusy" s.clock with
  | (db, some sys) =>
    rw [hnew] at hindexed
    obtain ⟨i, hnamed, -, hid, hname, -⟩ := newDbGetNewSystem_named hnone (by decide) hnew
    apply (hinv db hindexed).goto
    exact ⟨⟨i, hnamed, hid, hname⟩, rfl⟩
  | (db, none) =>
    rw [hnew] at hindexed
    simp only [State.saved]
    cases caller with
    | lockTopoUpload wait =>
      simp only [State.locked, Bool.false_eq_true, if_false]
      exact (hinv db hindexed).retry wait
    | unlockTopoUpload =>
      simp only
      have hfree : s.held.filter (fun holder => decide (holder.1 ≠ p)) = s.held := by
        rw [hheld, List.filter_nil]
      rw [hfree]
      exact (hinv db hindexed).goto trivial

theorem Inv.access (h : Inv s) (hok : Permitted s (.step p)) : Inv (s.access p) := by
  have hsound := h.sound p
  simp only [Permitted] at hok
  cases hpc : s.pc p with
  | idle =>
    simp only [State.access, hpc]
    exact h
  | inside =>
    simp only [State.access, hpc]
    exact h
  | get wait =>
    simp only [State.access, hpc]
    split
    . next sys hrow =>
      have hcopy := IsCopy.of_row h.indexed hrow
      split
      . exact h.goto ⟨hcopy, rfl⟩
      . exact h.goto hcopy
    . exact h.goto trivial
  | time wait sys =>
    rw [hpc] at hsound
    simp only [State.access, hpc]
    split
    . exact h.goto ⟨hsound, rfl⟩
    . exact h.retry wait
  | set wait sys =>
    rw [hpc] at hsound hok
    simp only [State.access, hpc]
    exact h.lock hsound.1 hsound.2 hok
  | saveGet caller =>
    simp only [State.access, hpc]
    split
    . next sys hrow =>
      have hcopy := IsCopy.of_row h.indexed hrow
      exact h.goto ⟨hcopy, rfl⟩
    . exact h.goto trivial
  | saveNew caller =>
    rw [hpc] at hok
    exact h.create hok hpc
  | saveSet caller sys =>
    rw [hpc] at hsound hok
    simp only [State.access, hpc]
    cases caller with
    | lockTopoUpload wait => exact h.lock hsound.1 hsound.2 hok
    | unlockTopoUpload => exact h.unlock hsound.1 hok _

end

theorem Inv.next {s : State} (e : Event) (h : Inv s) (hok : Permitted s e) : Inv (s.next e) := by
  cases e with
  | lockTopoUpload p =>
    simp only [State.next]
    split
    . exact h.goto trivial
    . exact h
  | unlockTopoUpload p =>
    simp only [State.next]
    split
    . exact h.goto trivial
    . exact h
  | step p => exact h.access hok
  | tick seconds => exact ⟨h.indexed, h.sound, h.one, h.stamped⟩

/--
The machine emits nothing.
-/
def step (s : State) (e : Event) : State × List Unit := (s.next e, [])

/--
Whatever calls have been made to the tables before, along every run of permitted steps of any number of
processes the lock is exclusive.
-/
theorem uploads_exclusive (calls : List Mutation) (clock : Int) (events : List Event)
    (hok : Machine.Along step Permitted
      (State.start (calls.foldl Mutation.apply Db.init) clock) events)
    : ∀ before after, events = before ++ after →
        Exclusive (Machine.exec step (State.start (calls.foldl Mutation.apply Db.init) clock)
          before) := by
  have hindexed : ∀ db, SystemIndexed db → SystemIndexed (calls.foldl Mutation.apply db) := by
    clear hok
    induction calls with
    | nil => exact fun _ h => h
    | cons m calls ih => exact fun db h => ih _ (h.apply m)
  rintro before after rfl
  rw [Machine.along_append] at hok
  apply Inv.exclusive
  exact Machine.inv_exec step (fun s e h hok => h.next e hok)
    (Inv.start (hindexed _ Db.init_systemIndexed) clock) hok.1

/--
The accesses of a process that no other process comes between.
-/
def State.alone (s : State) (p : Nat) : Nat → State
  | 0 => s
  | n + 1 => (s.access p).alone p n

section

variable (s : State) (p : Nat) (pc : Pc)

@[simp]
theorem goto_pc : (s.goto p pc).pc p = pc := Function.update_self ..

@[simp]
theorem goto_db : (s.goto p pc).db = s.db := rfl

@[simp]
theorem goto_clock : (s.goto p pc).clock = s.clock := rfl

@[simp]
theorem goto_goto (pc' : Pc) : (s.goto p pc).goto p pc' = s.goto p pc' := by
  simp [State.goto]

@[simp]
theorem goto_db_goto (db : Db) (pc' : Pc)
    : { s.goto p pc with db }.goto p pc' = { s with db }.goto p pc' := by
  simp [State.goto]

@[simp]
theorem goto_retry (wait : Nat) : (s.goto p pc).retry p wait = s.retry p wait := by
  cases wait with
  | zero => exact goto_goto s p pc _
  | succ wait => exact goto_goto s p pc _

@[simp]
theorem goto_locked (wait : Nat) (db : Db) (okToUpload : Bool)
    : (s.goto p pc).locked p wait db okToUpload = s.locked p wait db okToUpload := by
  cases okToUpload with
  | false => exact goto_retry { s with db } p pc wait
  | true => exact goto_goto ({ s with db }.take p) p pc .inside

@[simp]
theorem goto_db_locked (wait : Nat) (db db' : Db) (okToUpload : Bool)
    : { s with db, pc := (s.goto p pc).pc, held := (s.goto p pc).held }.locked p wait db' okToUpload
        = s.locked p wait db' okToUpload :=
  goto_locked s p pc wait db' okToUpload

end

/--
A try of a process that is left alone is one pass of the loop in `lockTopoUpload`.
-/
theorem alone_eq_lockTry (s : State) {p wait : Nat} (hpc : s.pc p = .get wait)
    : ∃ n, s.alone p n
        = s.locked p wait (lockTry { now := s.clock, now' := s.clock } s.db).1
            (lockTry { now := s.clock, now' := s.clock } s.db).2 := by
  have hpass : Turn.pass { now := s.clock, now' := s.clock } s.db = s.db := rfl
  unfold lockTry
  simp only [hpass]
  cases hrow : newDbGetSystem s.db "topobusy" with
  | some sys =>
    have hget : lockRow s.db = some sys := hrow
    by_cases hzero : sys.intval = 0
    . refine ⟨2, ?_⟩
      simp [State.alone, State.access, hpc, hget, hzero]
    . by_cases hold : 60 < s.clock - sys.lastupdate
      . refine ⟨3, ?_⟩
        simp [State.alone, State.access, hpc, hget, hzero, hold]
      . refine ⟨2, ?_⟩
        simp [State.alone, State.access, hpc, hget, hzero, hold, State.locked]
  | none =>
    have hget : lockRow s.db = none := hrow
    unfold newDbSystemSaveIntval
    simp only [hrow]
    match hnew : newDbGetNewSystem s.db "topobusy" s.clock with
    | (db, some sys) =>
      refine ⟨4, ?_⟩
      simp [State.alone, State.access, hpc, hget, hnew, State.saved, Caller.intval]
    | (db, none) =>
      refine ⟨3, ?_⟩
      simp [State.alone, State.access, hpc, hget, hnew, State.saved]

/--
Process 0 uploads. Then process 1 takes the lock and exceeds the limit, and process 2 takes it over.
-/
def uploads : List Event :=
  [.lockTopoUpload 0, .step 0, .step 0, .step 0, .step 0, .unlockTopoUpload 0, .step 0, .step 0,
   .lockTopoUpload 1, .step 1, .step 1, .tick 61, .lockTopoUpload 2, .step 2, .step 2, .step 2]

theorem exclusive_uploads
    : Exclusive (Machine.exec step (State.start Db.init 0) uploads)
        ∧ (Machine.exec step (State.start Db.init 0) uploads).held = [(2, 61)] := by
  constructor
  . apply uploads_exclusive [] 0 uploads _ uploads [] (List.append_nil _).symm
    decide
  . decide

/--
The lock is free.
-/
def free : Db := (newDbSystemSaveIntval Db.init "topobusy" 0 0 0).1

/--
Two processes read that the lock is free before one of them writes.
-/
def bothRead : List Event :=
  [.lockTopoUpload 0, .lockTopoUpload 1, .step 0, .step 1, .step 0, .step 1]

/--
Process 0 exceeds the limit and is overrun by process 1. Then it gives the lock back.
-/
def lateUnlock : List Event :=
  [.lockTopoUpload 0, .step 0, .step 0, .tick 61, .lockTopoUpload 1, .step 1, .step 1, .step 1,
   .unlockTopoUpload 0, .step 0, .step 0]

theorem not_exclusive
    : ¬Exclusive (Machine.exec step (State.start free 0) bothRead)
        ∧ ¬Exclusive (Machine.exec step (State.start free 0) lateUnlock) := by
  constructor
  . intro h
    have htwo : (Machine.exec step (State.start free 0) bothRead).held.length = 2 := by
      decide
    have hone := h.one
    rw [htwo] at hone
    exact absurd hone (by decide)
  . intro h
    obtain ⟨sys, hrow, hne⟩ := h.locked (by decide)
    have hzero : ∀ sys ∈ lockRow (Machine.exec step (State.start free 0) lateUnlock).db,
        sys.intval = 0 := by
      decide
    exact hne (hzero sys hrow)

end ControlInterface.TopoLock
