import IotGateway.ControlInterface.Impl.Children
import IotGateway.Lib.Machine
import Mathlib.Tactic.Common

/-!
This module says which steps keep the table of the children right. A child that is gone before it has
been added stays in the table, and the functions that kill take pids from where there is none.
-/

namespace ControlInterface.Children

open Table

/--
The child that is about to be added.
-/
def Pc.adding : Pc → Option Int
  | .addChild pid _ | .store pid _ => some pid
  | _ => none

/--
The process that `killOldest` or `killAllChildren` is about to signal.
-/
def Pc.signals : Pc → Option Int
  | .signalOldest pid | .signalEach _ pid => some pid
  | _ => none

/--
A child that has been forked need not be in the table yet, or not any more.
-/
def Pc.Pending : Pc → Int → Prop
  | .addChild pid _, q | .store pid _, q | .signalNew pid, q => q = pid
  | .killAllChildren _, _ | .signalEach _ _, _ | .exited, _ => True
  | _, _ => False

/--
The entries are children, at `accept` all children that have not been killed have one entry, and only
children are signalled.
-/
structure Tracks (s : State) : Prop where
  entries : ∀ i, s.children i ≠ 0 → s.proc (s.children i) ≠ none
  listed : s.pc = .accept → ∀ pid proc, s.proc pid = some proc → proc.killed = false →
    ∃! i, s.children i = pid
  signals : ∀ pid, s.pc.signals = some pid → pid ≠ 0 ∧ s.proc pid ≠ none

/--
The smallest pid is the index of an entry in use when `killOldest` takes it for one, and
`killAllChildren` finds all entries in use.
-/
def Pc.Permitted (s : State) : Pc → Prop
  | .killOldest i oldest =>
    MAXCHILDREN ≤ i → oldest ≠ INT_MAX → 0 ≤ oldest ∧ oldest < MAXCHILDREN ∧ s.read oldest ≠ 0
  | .killAllChildren i => ∀ h : i < MAXCHILDREN, s.children ⟨i, h⟩ ≠ 0
  | _ => True

instance (s : State) : (pc : Pc) → Decidable (pc.Permitted s)
  | .killOldest i oldest =>
    inferInstanceAs (Decidable (MAXCHILDREN ≤ i → oldest ≠ INT_MAX →
      0 ≤ oldest ∧ oldest < MAXCHILDREN ∧ s.read oldest ≠ 0))
  | .killAllChildren i =>
    inferInstanceAs (Decidable (∀ h : i < MAXCHILDREN, s.children ⟨i, h⟩ ≠ 0))
  | .accept | .addChild _ _ | .store _ _ | .numChildren _ _ _ | .sleep _ | .signalOldest _
  | .signalNew _ | .signalEach _ _ | .exited => inferInstanceAs (Decidable True)

/--
No child is reaped when it is about to be added or about to be signalled.
-/
def Permitted (s : State) : Event → Prop
  | .reap pid => s.pc.adding ≠ some pid ∧ s.pc.signals ≠ some pid
  | .step => s.pc.Permitted s
  | .fork _ | .exit _ | .quit => True

instance (s : State) : (e : Event) → Decidable (Permitted s e)
  | .reap pid => inferInstanceAs (Decidable (s.pc.adding ≠ some pid ∧ s.pc.signals ≠ some pid))
  | .step => inferInstanceAs (Decidable (s.pc.Permitted s))
  | .fork _ | .exit _ | .quit => inferInstanceAs (Decidable True)

structure Inv (s : State) : Prop where
  pos : ∀ pid, s.proc pid ≠ none → 0 < pid
  entries : ∀ i, s.children i ≠ 0 → s.proc (s.children i) ≠ none
  once : ∀ i j, s.children i = s.children j → s.children i ≠ 0 → i = j
  listed : ∀ pid proc, s.proc pid = some proc → proc.killed = false → ¬s.pc.Pending pid →
    ∃ i, s.children i = pid
  adding : ∀ pid, s.pc.adding = some pid → s.proc pid ≠ none ∧ ∀ i, s.children i ≠ pid
  free : ∀ pid i, s.pc = .store pid i → s.children i = 0
  signals : ∀ pid, s.pc.signals = some pid → s.proc pid ≠ none

theorem Inv.tracks {s : State} (h : Inv s) : Tracks s where
  entries := h.entries
  listed := by
    intro hpc pid proc hproc hkilled
    have hpos : 0 < pid := h.pos pid (by simp [hproc])
    obtain ⟨i, hi⟩ := h.listed pid proc hproc hkilled (by simp [hpc, Pc.Pending])
    refine ⟨i, hi, ?_⟩
    intro j hj
    apply h.once j i (hj.trans hi.symm)
    rw [hj]
    exact ne_of_gt hpos
  signals := by
    intro pid hpid
    have hproc := h.signals pid hpid
    exact ⟨ne_of_gt (h.pos pid hproc), hproc⟩

theorem Inv.start (beyond : Int → Int) : Inv (State.start beyond) where
  pos := fun _ h => absurd rfl h
  entries := fun _ h => absurd rfl h
  once := fun _ _ _ h => absurd rfl h
  listed := by
    intro pid proc hproc
    cases hproc
  adding := by
    intro pid hpid
    cases hpid
  free := by
    intro pid i hpc
    cases hpc
  signals := by
    intro pid hpid
    cases hpid

section

variable {s : State} (h : Inv s)

include h

/--
The parent goes on and changes nothing else.
-/
theorem Inv.goto {pc : Pc} (hpending : ∀ q, s.pc.Pending q → pc.Pending q)
    (hadding : ∀ q, pc.adding = some q → s.pc.adding = some q)
    (hfree : ∀ q i, pc = .store q i → s.children i = 0)
    (hsignals : ∀ q, pc.signals = some q → s.proc q ≠ none)
    : Inv { s with pc } where
  pos := h.pos
  entries := h.entries
  once := h.once
  listed := by
    intro pid proc hproc hkilled hnot
    exact h.listed pid proc hproc hkilled fun hpend => hnot (hpending pid hpend)
  adding := by
    intro pid hpid
    exact h.adding pid (hadding pid hpid)
  free := hfree
  signals := hsignals

/--
The parent goes on to where it adds no child.
-/
theorem Inv.leave {pc : Pc} (hpending : ∀ q, s.pc.Pending q → pc.Pending q)
    (hadding : pc.adding = none) (hsignals : ∀ q, pc.signals = some q → s.proc q ≠ none)
    : Inv { s with pc } := by
  apply h.goto hpending
  . intro q hq
    rw [hadding] at hq
    cases hq
  . rintro q i rfl
    cases hadding
  . exact hsignals

/--
A child is marked, and the mark does not take back that it has been killed.
-/
theorem Inv.mark (pid : Int) {f : Proc → Proc}
    (hf : ∀ proc, (f proc).killed = false → proc.killed = false)
    : Inv { s with proc := Function.update s.proc pid ((s.proc pid).map f) } := by
  have hnone : ∀ q, Function.update s.proc pid ((s.proc pid).map f) q ≠ none ↔ s.proc q ≠ none := by
    intro q
    by_cases hq : q = pid
    . rw [hq, Function.update_self]
      simp
    . rw [Function.update_of_ne hq]
  constructor
  . intro q hq
    exact h.pos q ((hnone q).mp hq)
  . intro i hi
    exact (hnone _).mpr (h.entries i hi)
  . exact h.once
  . intro q proc hproc hkilled hnot
    simp only at hproc
    by_cases hq : q = pid
    . rw [hq, Function.update_self] at hproc
      obtain ⟨proc', hproc', rfl⟩ := Option.map_eq_some_iff.mp hproc
      rw [hq] at hnot ⊢
      exact h.listed pid proc' hproc' (hf proc' hkilled) hnot
    . rw [Function.update_of_ne hq] at hproc
      exact h.listed q proc hproc hkilled hnot
  . intro q hq
    obtain ⟨hproc, hout⟩ := h.adding q hq
    exact ⟨(hnone q).mpr hproc, hout⟩
  . exact h.free
  . intro q hq
    exact (hnone q).mpr (h.signals q hq)

theorem Inv.kill (pid : Int) : Inv (s.kill pid) := by
  apply h.mark pid
  intro proc hkilled
  cases hkilled

/--
The table is searched for one entry, and there is no other one.
-/
theorem Inv.remChild_apply {pid : Int} (hpid : pid ≠ 0) (i : Fin MAXCHILDREN)
    : remChild s.children pid i = if s.children i = pid then 0 else s.children i := by
  unfold remChild
  cases hfirst : first (· == pid) s.children with
  | some j =>
    have hj : s.children j = pid := beq_iff_eq.mp (first_spec hfirst)
    simp only
    by_cases hij : i = j
    . rw [hij, Function.update_self, if_pos hj]
    . rw [Function.update_of_ne hij, if_neg]
      intro hi
      exact hij (h.once i j (hi.trans hj.symm) (by rw [hi]; exact hpid))
  | none =>
    have hi := first_eq_none_iff.mp hfirst i
    rw [if_neg]
    exact beq_eq_false_iff_ne.mp hi

theorem Inv.reap {pid : Int} {proc : Proc} (hproc : s.proc pid = some proc)
    (hadding : s.pc.adding ≠ some pid) (hsignals : s.pc.signals ≠ some pid)
    : Inv { s with
        proc := Function.update s.proc pid none
        children := remChild s.children pid } := by
  have hpos : 0 < pid := h.pos pid (by simp [hproc])
  have hchildren := h.remChild_apply (ne_of_gt hpos)
  have hkeep : ∀ q, q ≠ pid → Function.update s.proc pid none q = s.proc q := by
    intro q hq
    exact Function.update_of_ne hq none s.proc
  have hentry : ∀ i, remChild s.children pid i ≠ 0 →
      remChild s.children pid i = s.children i ∧ s.children i ≠ pid := by
    intro i hi
    rw [hchildren] at hi ⊢
    by_cases heq : s.children i = pid
    . rw [if_pos heq] at hi
      exact absurd rfl hi
    . exact ⟨if_neg heq, heq⟩
  constructor
  . intro q hq
    by_cases hqp : q = pid
    . rw [hqp]
      exact hpos
    . simp only [hkeep q hqp] at hq
      exact h.pos q hq
  . intro i hi
    obtain ⟨hsame, hne⟩ := hentry i hi
    simp only [hsame, hkeep _ hne]
    apply h.entries
    rw [← hsame]
    exact hi
  . intro i j hij hi
    have hj : remChild s.children pid j ≠ 0 := by
      simp only at hij hi
      rw [← hij]
      exact hi
    simp only [(hentry i hi).1, (hentry j hj).1] at hij hi
    exact h.once i j hij hi
  . intro q proc' hproc' hkilled hnot
    simp only at hproc'
    by_cases hqp : q = pid
    . rw [hqp, Function.update_self] at hproc'
      cases hproc'
    . rw [hkeep q hqp] at hproc'
      obtain ⟨i, hi⟩ := h.listed q proc' hproc' hkilled hnot
      refine ⟨i, ?_⟩
      simp only [hchildren, hi, if_neg hqp]
  . intro q hq
    have hqp : q ≠ pid := by
      rintro rfl
      exact hadding hq
    obtain ⟨hq, hout⟩ := h.adding q hq
    simp only [hkeep q hqp]
    refine ⟨hq, ?_⟩
    intro i
    by_cases hzero : remChild s.children pid i = 0
    . rw [hzero]
      exact (ne_of_gt (h.pos q hq)).symm
    . rw [(hentry i hzero).1]
      exact hout i
  . intro q i hpc
    by_contra hne
    exact hne ((hentry i hne).1.trans (h.free q i hpc))
  . intro q hq
    have hqp : q ≠ pid := by
      rintro rfl
      exact hsignals hq
    simp only [hkeep q hqp]
    exact h.signals q hq

theorem Inv.fork {pid : Int} (hpc : s.pc = .accept) (hpos : 0 < pid) (hnew : s.proc pid = none)
    : Inv { s with proc := Function.update s.proc pid (some {}), pc := .addChild pid 0 } := by
  have hout : ∀ i, s.children i ≠ pid := by
    rintro i rfl
    exact h.entries i (ne_of_gt hpos) hnew
  constructor
  . intro q hq
    by_cases hqp : q = pid
    . rw [hqp]
      exact hpos
    . simp only [Function.update_of_ne hqp] at hq
      exact h.pos q hq
  . intro i hi
    simp only [Function.update_of_ne (hout i)]
    exact h.entries i hi
  . exact h.once
  . intro q proc hproc hkilled hnot
    have hqp : q ≠ pid := hnot
    simp only [Function.update_of_ne hqp] at hproc
    apply h.listed q proc hproc hkilled
    rw [hpc]
    exact id
  . intro q hq
    obtain rfl := Option.some.inj hq
    refine ⟨?_, hout⟩
    simp
  . intro q i hstore
    cases hstore
  . intro q hq
    cases hq

theorem Inv.store {pid : Int} {i : Fin MAXCHILDREN} (hpc : s.pc = .store pid i)
    : Inv { s with children := Function.update s.children i pid, pc := .numChildren .added 0 0 } := by
  obtain ⟨hproc, hout⟩ := h.adding pid (by simp [hpc, Pc.adding])
  have hzero := h.free pid i hpc
  constructor
  . exact h.pos
  . intro j hj
    by_cases hji : j = i
    . simpa only [hji, Function.update_self] using hproc
    . simp only [Function.update_of_ne hji] at hj ⊢
      exact h.entries j hj
  . intro j k hjk hj
    by_cases hji : j = i
    . by_cases hki : k = i
      . rw [hji, hki]
      . simp only [hji, Function.update_self, Function.update_of_ne hki] at hjk
        exact absurd hjk.symm (hout k)
    . by_cases hki : k = i
      . simp only [hki, Function.update_self, Function.update_of_ne hji] at hjk
        exact absurd hjk (hout j)
      . simp only [Function.update_of_ne hji, Function.update_of_ne hki] at hjk hj
        exact h.once j k hjk hj
  . intro q proc hq hkilled _
    by_cases hqp : q = pid
    . refine ⟨i, ?_⟩
      simp only [hqp, Function.update_self]
    . obtain ⟨j, hj⟩ := h.listed q proc hq hkilled (by simpa [hpc, Pc.Pending] using hqp)
      have hji : j ≠ i := by
        rintro rfl
        have hpos := h.pos q (by rw [show s.proc q = some proc from hq]; simp)
        rw [← hj, hzero] at hpos
        exact absurd hpos (lt_irrefl 0)
      refine ⟨j, ?_⟩
      simp only [Function.update_of_ne hji]
      exact hj
  . intro q hq
    cases hq
  . intro q j hstore
    cases hstore
  . intro q hq
    cases hq

/--
The child that has no entry is killed.
-/
theorem Inv.signalNew {pid : Int} (hpc : s.pc = .signalNew pid)
    : Inv { s.kill pid with pc := .accept } := by
  have hkill := h.kill pid
  refine ⟨hkill.pos, hkill.entries, hkill.once, ?_, ?_, ?_, ?_⟩
  . intro q proc hproc hkilled _
    apply hkill.listed q proc hproc hkilled
    intro hpend
    have hq : q = pid := by simpa [State.kill, hpc, Pc.Pending] using hpend
    simp only [hq, State.kill, Function.update_self] at hproc
    obtain ⟨proc', -, rfl⟩ := Option.map_eq_some_iff.mp hproc
    cases hkilled
  . rintro q ⟨⟩
  . rintro q i ⟨⟩
  . rintro q ⟨⟩

/--
The smallest pid is the index of an entry in use.
-/
theorem Inv.signalOldest {oldest : Int} (hread : s.read oldest ≠ 0)
    (hindex : 0 ≤ oldest ∧ oldest < MAXCHILDREN)
    : s.proc (s.read oldest) ≠ none := by
  have heq : ∃ i, s.read oldest = s.children i := ⟨⟨oldest.toNat, by omega⟩, dif_pos hindex⟩
  obtain ⟨i, hi⟩ := heq
  rw [hi] at hread ⊢
  exact h.entries i hread

theorem Inv.step (hok : Permitted s .step) : Inv s.step := by
  simp only [Permitted] at hok
  unfold State.step
  cases hpc : s.pc with
  | accept => exact h
  | exited => exact h
  | addChild pid i =>
    have hpending : ∀ q, s.pc.Pending q → q = pid := by simp [hpc, Pc.Pending]
    have hadding : s.pc.adding = some pid := by simp [hpc, Pc.adding]
    simp only
    split
    . split
      . next hzero =>
        apply h.goto
        . exact hpending
        . rintro q ⟨⟩
          exact hadding
        . rintro q i ⟨⟩
          exact hzero
        . rintro q ⟨⟩
      . apply h.goto
        . exact hpending
        . rintro q ⟨⟩
          exact hadding
        . rintro q i ⟨⟩
        . rintro q ⟨⟩
    . refine h.leave ?_ rfl ?_
      . exact hpending
      . rintro q ⟨⟩
  | store pid i => exact h.store hpc
  | numChildren use i cnt =>
    have hpending : ∀ pc : Pc, ∀ q, s.pc.Pending q → pc.Pending q := by simp [hpc, Pc.Pending]
    simp only
    split
    . split
      . apply h.leave (hpending _) rfl
        rintro q ⟨⟩
      . apply h.leave (hpending _) rfl
        rintro q ⟨⟩
    . cases use with
      | added =>
        simp only [Use.next]
        split
        . apply h.leave (hpending _) rfl
          rintro q ⟨⟩
        . apply h.leave (hpending _) rfl
          rintro q ⟨⟩
      | waiting left =>
        simp only [Use.next]
        split
        . apply h.leave (hpending _) rfl
          rintro q ⟨⟩
        . apply h.leave (hpending _) rfl
          rintro q ⟨⟩
  | sleep cnt =>
    have hpending : ∀ pc : Pc, ∀ q, s.pc.Pending q → pc.Pending q := by simp [hpc, Pc.Pending]
    cases cnt with
    | zero =>
      apply h.leave (hpending _) rfl
      rintro q ⟨⟩
    | succ cnt =>
      apply h.leave (hpending _) rfl
      rintro q ⟨⟩
  | killOldest i oldest =>
    have hpending : ∀ pc : Pc, ∀ q, s.pc.Pending q → pc.Pending q := by simp [hpc, Pc.Pending]
    rw [hpc] at hok
    simp only
    split
    . split
      . apply h.leave (hpending _) rfl
        rintro q ⟨⟩
      . apply h.leave (hpending _) rfl
        rintro q ⟨⟩
    . next hi =>
      split
      . apply h.leave (hpending _) rfl
        rintro q ⟨⟩
      . next holdest =>
        obtain ⟨hle, hlt, hread⟩ := hok (Nat.le_of_not_lt hi) holdest
        apply h.leave (hpending _) rfl
        rintro q ⟨⟩
        exact h.signalOldest hread ⟨hle, hlt⟩
  | signalOldest pid =>
    apply (h.kill pid).leave _ rfl
    . rintro q ⟨⟩
    . simp [State.kill, hpc, Pc.Pending]
  | signalNew pid => exact h.signalNew hpc
  | killAllChildren i =>
    rw [hpc] at hok
    simp only
    split
    . next hi =>
      apply h.leave _ rfl
      . rintro q ⟨⟩
        exact h.entries _ (hok hi)
      . intro q _
        trivial
    . apply h.leave _ rfl
      . rintro q ⟨⟩
      . intro q _
        trivial
  | signalEach i pid =>
    apply (h.kill pid).leave _ rfl
    . rintro q ⟨⟩
    . intro q _
      trivial

end

theorem Inv.next {s : State} (e : Event) (h : Inv s) (hok : Permitted s e) : Inv (s.next e) := by
  cases e with
  | fork pid =>
    simp only [State.next]
    split
    . next hfork => exact h.fork hfork.1 hfork.2.1 hfork.2.2
    . exact h
  | exit pid =>
    apply h.mark pid
    exact fun _ hkilled => hkilled
  | reap pid =>
    simp only [State.next]
    split
    . next hproc => exact h.reap hproc hok.1 hok.2
    . exact h
  | quit =>
    simp only [State.next]
    split
    . exact h
    . apply h.leave _ rfl
      . rintro q ⟨⟩
      . intro q _
        trivial
  | step => exact h.step hok

/--
The machine emits nothing.
-/
def step (s : State) (e : Event) : State × List Unit := (s.next e, [])

/--
Along every run of permitted steps the table keeps track of the children.
-/
theorem tracks_of_permitted (beyond : Int → Int) (events : List Event)
    (hok : Machine.Along step Permitted (State.start beyond) events)
    : ∀ before after, events = before ++ after →
        Tracks (Machine.exec step (State.start beyond) before) := by
  rintro before after rfl
  rw [Machine.along_append] at hok
  apply Inv.tracks
  exact Machine.inv_exec step (fun s e h hok => h.next e hok) (Inv.start beyond) hok.1

/--
A connection is accepted, and the parent goes on until it waits again.
-/
def connect (pid : Int) : List Event := .fork pid :: List.replicate 22 .step

/--
A child is added and ends. Then ten others are added, and the parent is told to stop.
-/
def stopped : List Event :=
  connect 101 ++ [.exit 101, .reap 101]
    ++ (List.range 10).flatMap (fun k => connect (201 + k)) ++ .quit :: List.replicate 21 .step

theorem tracks_stopped
    : Tracks (Machine.exec step (State.start fun _ => 0) stopped)
        ∧ (Machine.exec step (State.start fun _ => 0) stopped).proc 210
          = some { exited := false, killed := true } := by
  constructor
  . apply tracks_of_permitted (fun _ => 0) stopped _ stopped [] (List.append_nil _).symm
    decide +kernel
  . decide +kernel

/--
A child ends before it has been added.
-/
def earlyExit : List Event := [.fork 101, .exit 101, .reap 101, .step, .step]

/--
None of ten children ends within 10 seconds.
-/
def noneEnds : List Event :=
  (List.range 10).flatMap (fun k => connect (201 + k)) ++ List.replicate 612 .step

theorem not_tracks
    : ¬Tracks (Machine.exec step (State.start fun _ => 0) earlyExit)
        ∧ ¬Tracks (Machine.exec step (State.start fun _ => 0) noneEnds)
        ∧ ¬Tracks (Machine.exec step (State.start fun _ => 0) [.quit, .step]) := by
  refine ⟨?_, ?_, ?_⟩
  . intro h
    refine h.entries ⟨0, by decide⟩ ?_ ?_
    . decide +kernel
    . decide +kernel
  . intro h
    refine (h.signals 0 ?_).1 rfl
    decide +kernel
  . intro h
    refine (h.signals 0 ?_).1 rfl
    decide +kernel

end ControlInterface.Children
