import IotGateway.Lib.Machine
import IotGateway.NewLog.Lemmas.Loop

/-!
This module contains a reader that comes back to `newLogLoop` with the index that it has got, while
other programs add to the log and empty it.
-/

namespace NewLog

/--
The log, the index that the reader has got, and the lines that are still to be presented to it:
those that have been added since it has started, that it has not been presented, and that have not
been removed.
-/
structure Session where
  log : Log
  startIndex : Int
  pending : List OneLog

inductive Event where
  | add (a : Add)
  | empty
  -- `cb` tells which calls of the callback return something else than 0
  | poll (cb : Nat → Bool)

/--
What a poll presents, and what it should present.
-/
structure Poll where
  presented : List OneLog
  expected : List OneLog

namespace Session

/--
A reader starts with all lines of the log, or with what comes next.
-/
def start (l : Log) (all : Bool) : Session where
  log := l
  startIndex := if all then -1 else newLogGetIndex l
  pending := if all then l.last l.cnt.toNat else []

def step (s : Session) : Event → Session × List Poll
  | .add a => ({ s with log := a.run s.log, pending := s.pending ++ a.lines }, [])
  | .empty => ({ s with log := newLogEmpty s.log, pending := [] }, [])
  | .poll cb =>
    let r := newLogLoop NEWLOG_FROM_NONE s.startIndex cb s.log
    let p := present cb 0 s.pending
    ({ s with startIndex := r.2, pending := p.2 }, [Poll.mk r.1 p.1])

/--
The lines to be presented fit in the ring with one slot left, and the log is emptied at a reader
that is back at the first slot or has not been presented anything.
-/
def Permitted (s : Session) : Event → Prop
  | .add a => (s.pending ++ a.lines).length < NEWLOG_MAX_LOGS
  | .empty => s.startIndex ≤ 0
  | .poll _ => True

structure Inv (s : Session) : Prop where
  fits : s.pending.length < NEWLOG_MAX_LOGS
  last : s.log.last s.pending.length = s.pending
  position :
    s.startIndex = -1 ∧ s.log.cnt = s.pending.length ∨ s.startIndex = s.log.first s.pending.length

variable {s : Session}

theorem inv_start {l : Log} {all : Bool} (hcnt : 0 ≤ l.cnt)
    (hall : all = true → l.cnt < NEWLOG_MAX_LOGS)
    : (start l all).Inv := by
  have hlt := l.index_lt
  cases all with
  | true =>
    have hlength : (l.last l.cnt.toNat).length = l.cnt.toNat := Ring.length_window _ _ _ _
    have hfits := hall rfl
    constructor
    . show (l.last l.cnt.toNat).length < _
      omega
    . show l.last (l.last l.cnt.toNat).length = l.last l.cnt.toNat
      rw [hlength]
    . refine Or.inl ⟨rfl, ?_⟩
      show l.cnt = (l.last l.cnt.toNat).length
      omega
  | false =>
    constructor
    . show 0 < NEWLOG_MAX_LOGS
      decide
    . rfl
    . show newLogGetIndex l = -1 ∧ l.cnt = 0 ∨ newLogGetIndex l = l.first 0
      rw [newLogGetIndex, Log.first_zero]
      split
      . exact Or.inr rfl
      . exact Or.inl ⟨rfl, by omega⟩

theorem Inv.loopCount (h : s.Inv) : s.log.loopCount s.startIndex = s.pending.length := by
  have hlt := s.log.index_lt
  have hfits := h.fits
  rcases h.position with ⟨hstart, hcnt⟩ | hstart
  . rw [hstart, Log.loopCount, if_pos (by decide), hcnt,
      Int.tmod_eq_of_lt (Int.natCast_nonneg _) (Int.ofNat_lt.mpr hfits)]
  . simp only [Log.loopCount, hstart, Log.first, NEWLOG_MAX_LOGS] at *
    omega

theorem Inv.loop (h : s.Inv) (cb : Nat → Bool)
    : newLogLoop NEWLOG_FROM_NONE s.startIndex cb s.log
        = ((present cb 0 s.pending).1,
            (((s.log.first s.pending.length + (present cb 0 s.pending).1.length)
              % NEWLOG_MAX_LOGS : Nat) : Int)) := by
  rw [newLogLoop_eq _ _ _ h.fits h.loopCount, h.last]

theorem Inv.add (h : s.Inv) {a : Add} (hok : (s.pending ++ a.lines).length < NEWLOG_MAX_LOGS)
    : (s.step (.add a)).1.Inv := by
  simp only [Session.step]
  rw [a.run_eq s.log]
  have hfits := hok
  rw [List.length_append] at hfits
  constructor
  . exact hok
  . show (a.lines.foldl Log.store s.log).last (s.pending ++ a.lines).length = _
    rw [List.length_append, Log.last_stores _ _ (Nat.le_of_lt hfits), h.last]
  . show s.startIndex = -1 ∧ (a.lines.foldl Log.store s.log).cnt = (s.pending ++ a.lines).length
      ∨ s.startIndex = (a.lines.foldl Log.store s.log).first (s.pending ++ a.lines).length
    rw [List.length_append]
    rcases h.position with ⟨hstart, hcnt⟩ | hstart
    . left
      have hmax : s.pending.length + a.lines.length < 2 ^ 31 := Nat.lt_trans hfits (by decide)
      have hint : s.log.cnt = toInt s.log.cnt := by rw [hcnt, toInt_of_lt (by omega)]
      rw [Log.cnt_stores _ _ hint, hcnt, ← Int.natCast_add, toInt_of_lt hmax]
      exact ⟨hstart, rfl⟩
    . right
      rw [Log.first_stores _ _ (Nat.le_of_lt hfits), hstart]

theorem Inv.empty (h : s.Inv) (hok : s.startIndex ≤ 0) : (s.step .empty).1.Inv := by
  constructor
  . show 0 < NEWLOG_MAX_LOGS
    decide
  . rfl
  . show s.startIndex = -1 ∧ (0 : Int) = 0 ∨ s.startIndex = (newLogEmpty s.log).first 0
    rw [Log.first_zero]
    rcases h.position with ⟨hstart, -⟩ | hstart
    . exact Or.inl ⟨hstart, rfl⟩
    . right
      show s.startIndex = 0
      omega

theorem Inv.poll (h : s.Inv) (cb : Nat → Bool) : (s.step (.poll cb)).1.Inv := by
  have hfits := h.fits
  have hsnd := present_snd cb 0 s.pending
  have hle : (present cb 0 s.pending).1.length ≤ s.pending.length := by
    have happend := congrArg List.length (present_append cb 0 s.pending)
    rw [List.length_append] at happend
    omega
  have hlength : (present cb 0 s.pending).2.length
      = s.pending.length - (present cb 0 s.pending).1.length := by
    rw [hsnd, List.length_drop]
  constructor
  . show (present cb 0 s.pending).2.length < _
    omega
  . show s.log.last (present cb 0 s.pending).2.length = (present cb 0 s.pending).2
    rw [hlength, ← s.log.drop_last hle (Nat.le_of_lt hfits), h.last, hsnd]
  . right
    show (newLogLoop _ _ _ _).2 = _
    rw [h.loop]
    show (((_ + (present cb 0 s.pending).1.length) % _ : Nat) : Int)
      = s.log.first (present cb 0 s.pending).2.length
    rw [hlength, ← s.log.first_sub hle (Nat.le_of_lt hfits)]

theorem Inv.step (h : s.Inv) (e : Event) (hok : s.Permitted e) : (s.step e).1.Inv := by
  cases e with
  | add a => exact h.add hok
  | empty => exact h.empty hok
  | poll cb => exact h.poll cb

def added : Event → List OneLog
  | .add a => a.lines
  | _ => []

theorem step_add_pending (s : Session) (a : Add)
    : (s.step (.add a)).1.pending = s.pending ++ a.lines := rfl

theorem expected_append_step (s : Session) {e : Event} (hempty : e ≠ .empty)
    : (s.step e).2.flatMap Poll.expected ++ (s.step e).1.pending = s.pending ++ added e := by
  cases e with
  | add a =>
    rw [step_add_pending]
    exact List.nil_append (s.pending ++ a.lines)
  | empty => exact absurd rfl hempty
  | poll cb =>
    show [Poll.mk _ (present cb 0 s.pending).1].flatMap Poll.expected
      ++ (present cb 0 s.pending).2 = s.pending ++ []
    rw [List.flatMap_singleton, present_append, List.append_nil]

/--
As long as the log is not emptied, every line that is added should be presented once and in order,
up to those that are still pending.
-/
theorem expected_append_pending (s : Session) {events : List Event}
    (hempty : ∀ e ∈ events, e ≠ .empty)
    : (Machine.trace step s events).flatMap Poll.expected ++ (Machine.exec step s events).pending
        = s.pending ++ events.flatMap added := by
  induction events generalizing s with
  | nil => exact (List.append_nil _).symm
  | cons e events ih =>
    have hstep := s.expected_append_step (hempty e List.mem_cons_self)
    have hrest := ih (s.step e).1 fun e he => hempty e (List.mem_cons_of_mem _ he)
    rw [Machine.trace_cons, Machine.exec_cons, List.flatMap_append, List.append_assoc, hrest,
      ← List.append_assoc, hstep, List.append_assoc, List.flatMap_cons]

/--
Along every run of permitted steps the reader is presented exactly what it should be presented.
-/
theorem presented_of_permitted {l : Log} {all : Bool} (hcnt : 0 ≤ l.cnt)
    (hall : all = true → l.cnt < NEWLOG_MAX_LOGS) (events : List Event)
    (hok : Machine.Along step Permitted (start l all) events)
    : ∀ o ∈ Machine.trace step (start l all) events, o.presented = o.expected := by
  refine Machine.forall_trace step (fun s e h hok => h.step e hok) ?_ (inv_start hcnt hall) hok
  intro s e h _ o ho
  cases e with
  | add a => cases ho
  | empty => cases ho
  | poll cb =>
    obtain rfl := List.mem_singleton.mp ho
    exact congrArg Prod.fst (h.loop cb)

/--
A line is added and presented.
-/
theorem presented_shortText
    : (0 : Int) ≤ Log.create.cnt ∧ (true = true → Log.create.cnt < NEWLOG_MAX_LOGS) ∧
        ∀ o ∈ Machine.trace step (start .create true) [.add shortText, .poll fun _ => true],
          o.presented = o.expected := by
  have hlines : shortText.lines.length < NEWLOG_MAX_LOGS := by
    rw [Add.length_lines (by decide)]
    decide
  exact ⟨by decide, by decide, presented_of_permitted (by decide) (by decide)
    [.add shortText, .poll fun _ => true] ⟨hlines, trivial, trivial⟩⟩

/--
The log is emptied at a reader in the second slot: nothing has been added since then, but the loop
goes once round the ring.
-/
theorem presented_after_empty
    : ¬∀ o ∈ Machine.trace step (start (Log.create.store (shortText.line [65])) false)
          [.empty, .poll fun _ => true],
        o.presented = o.expected := by
  intro h
  have hpoll : (newLogLoop NEWLOG_FROM_NONE 1 (fun _ => true)
      (newLogEmpty (Log.create.store (shortText.line [65])))).1 = [] :=
    h _ (.head _)
  have hcount : (newLogEmpty (Log.create.store (shortText.line [65]))).loopCount 1 = 119 := rfl
  have hlength : (newLogLoop NEWLOG_FROM_NONE 1 (fun _ => true)
      (newLogEmpty (Log.create.store (shortText.line [65])))).1.length = 119 := by
    simp only [newLogLoop, hcount]
    exact length_loopFrom ..
  rw [hpoll] at hlength
  cases hlength

end Session

end NewLog
