import IotGateway.Json.Lemmas.Failure

/-!
This module contains what the callbacks of the parser may rely on: a string ends at its terminator,
and no object is complete before one has been started.
-/

namespace Json

open CString Machine

def Event.isStart : Event → Bool
  | .objectStart _ => true
  | _ => false

def Event.isComplete : Event → Bool
  | .objectComplete _ => true
  | _ => false

/--
The value of a string is one.
-/
def Event.Terminated : Event → Prop
  | .string _ value => NUL ∉ value
  | _ => True

/--
An object is complete only after one has been started, or if one was open before.
-/
def Started : (opened : Bool) → List Event → Prop
  | _, [] => True
  | opened, e :: events => (e.isComplete = true → opened = true) ∧ Started (opened || e.isStart) events

theorem Started.mono {opened opened' : Bool} {events : List Event} (h : Started opened events)
    (hle : opened = true → opened' = true)
    : Started opened' events := by
  induction events generalizing opened opened' with
  | nil => trivial
  | cons e events ih =>
    obtain ⟨he, hrest⟩ := h
    refine ⟨fun hcomplete => hle (he hcomplete), ih hrest ?_⟩
    simp only [Bool.or_eq_true]
    exact Or.imp_left hle

theorem started_append {opened : Bool} {events events' : List Event}
    : Started opened (events ++ events')
      ↔ Started opened events ∧ Started (opened || events.any Event.isStart) events' := by
  induction events generalizing opened with
  | nil => simp [Started]
  | cons e events ih =>
    simp only [List.cons_append, Started, ih, List.any_cons, Bool.or_assoc, and_assoc]

theorem started_of_not_complete {events : List Event} (h : ∀ e ∈ events, e.isComplete = false)
    (opened : Bool)
    : Started opened events := by
  induction events generalizing opened with
  | nil => trivial
  | cons e events ih =>
    constructor
    . rw [h e List.mem_cons_self]
      nofun
    . exact ih (fun e he => h e (List.mem_cons_of_mem _ he)) _

/--
An object is open.
-/
def ParserData.inside (p : ParserData) : Bool := (p.state :: p.states).contains .inObject

/--
What is reported from `p` to `q`.
-/
def Reports (p q : ParserData) : Prop :=
  ∃ events, q.events = p.events ++ events ∧ (∀ e ∈ events, e.Terminated)
    ∧ Started p.inside events ∧ (q.inside = true → (p.inside || events.any Event.isStart) = true)

section

variable {p q r : ParserData}

theorem Reports.trans (hpq : Reports p q) (hqr : Reports q r) : Reports p r := by
  obtain ⟨events, hq, hterm, hstarted, hinside⟩ := hpq
  obtain ⟨events', hr, hterm', hstarted', hinside'⟩ := hqr
  refine ⟨events ++ events', by rw [hr, hq, List.append_assoc], ?_, ?_, ?_⟩
  . intro e he
    rcases List.mem_append.mp he with he | he
    . exact hterm e he
    . exact hterm' e he
  . exact started_append.mpr ⟨hstarted, hstarted'.mono hinside⟩
  . intro h
    rw [List.any_append, ← Bool.or_assoc]
    rcases Bool.or_eq_true_iff.mp (hinside' h) with h | h
    . simp only [hinside h, Bool.true_or]
    . simp only [h, Bool.or_true]

theorem reports_of_inside (hevents : q.events = p.events) (h : q.inside = true → p.inside = true)
    : Reports p q := by
  refine ⟨[], by rw [hevents, List.append_nil], nofun, trivial, ?_⟩
  simpa using h

theorem Reports.refl (p : ParserData) : Reports p p := reports_of_inside rfl id

theorem reports_event {e : Event} (hterm : e.Terminated)
    (hcomplete : e.isComplete = true → p.inside = true)
    : Reports p (p.event e) := by
  refine ⟨[e], rfl, ?_, ⟨hcomplete, trivial⟩, ?_⟩
  . intro e' he'
    rw [List.mem_singleton.mp he']
    exact hterm
  . intro h
    rw [show p.inside = true from h, Bool.true_or]

theorem jsonError_inside (err : Err) (p : ParserData) : (jsonError err p).inside = false := rfl

theorem reports_jsonError (err : Err) (hevents : q.events = p.events)
    : Reports p (jsonError err q) := by
  refine ⟨_, by rw [jsonError_events, hevents], ?_, ?_, ?_⟩
  . intro e he
    rw [List.mem_singleton.mp he]
    trivial
  . exact ⟨nofun, trivial⟩
  . rw [jsonError_inside]
    nofun

theorem reports_setState {st : State} (hst : st.kind = none) : Reports p (setState st p) := by
  have hinside : ∀ q : ParserData, q.state = st → q.states = p.states → q.inside = true →
      p.inside = true := by
    intro q hq hstates
    unfold ParserData.inside
    rw [hq, hstates]
    cases st with
    | inObject | inArray => cases hst
    | _ =>
      simp only [List.contains_cons, Bool.or_eq_true]
      rintro (hst | hmem)
      . cases hst
      . exact .inr hmem
  cases st with
  | inObject | inArray => cases hst
  | _ => exact reports_of_inside rfl (hinside _ rfl rfl)

theorem reports_toState {st : State} (hst : st.kind = none) : Reports p (toState st p) := by
  unfold toState
  dsimp only
  split
  . refine Reports.trans (q := { p with states := p.state :: p.states })
      (reports_of_inside rfl ?_) (reports_setState hst)
    simp [ParserData.inside]
  . exact reports_jsonError _ rfl

theorem reports_upState : Reports p (upState p) := by
  unfold upState
  split
  . next st states hstates =>
    have hpop : ∀ q : ParserData, q.events = p.events → q.state = st → q.states = states →
        Reports p q := by
      intro q hevents hst hq
      apply reports_of_inside hevents
      unfold ParserData.inside
      rw [hst, hq, hstates]
      simp only [List.contains_cons, Bool.or_eq_true]
      exact .inr
    cases st with
    | inObject | inArray =>
      dsimp only
      split
      . exact hpop _ rfl rfl rfl
      . exact reports_jsonError _ rfl
    | _ => exact hpop _ rfl rfl rfl
  . exact reports_jsonError _ rfl

theorem reports_appendName (c : Char) : Reports p (appendName c p) := by
  unfold appendName
  dsimp only
  split
  . exact reports_of_inside rfl id
  . exact reports_jsonError _ rfl

theorem reports_appendValue (c : Char) : Reports p (appendValue c p) := by
  unfold appendValue
  dsimp only
  split
  . exact reports_of_inside rfl id
  . exact reports_jsonError _ rfl

/--
Only errors are reported from `p` to `q`.
-/
def Quiet (p q : ParserData) : Prop :=
  ∃ events, q.events = p.events ++ events ∧ ∀ e ∈ events, e.isError = true

theorem quiet_jsonError (err : Err) (hevents : q.events = p.events)
    : Quiet p (jsonError err q) := by
  refine ⟨_, by rw [jsonError_events, hevents], ?_⟩
  intro e he
  rw [List.mem_singleton.mp he]
  rfl

theorem Quiet.trans (hpq : Quiet p q) (hqr : Quiet q r) : Quiet p r := by
  obtain ⟨events, hq, herr⟩ := hpq
  obtain ⟨events', hr, herr'⟩ := hqr
  refine ⟨events ++ events', by rw [hr, hq, List.append_assoc], ?_⟩
  intro e he
  rcases List.mem_append.mp he with he | he
  . exact herr e he
  . exact herr' e he

theorem quiet_of_events_eq (hevents : q.events = p.events) : Quiet p q :=
  ⟨[], by rw [hevents, List.append_nil], nofun⟩

theorem quiet_setState (st : State) (p : ParserData) : Quiet p (setState st p) := by
  by_cases hst : st.kind.isSome
  . rw [setState_container hst]
    split
    . exact quiet_of_events_eq rfl
    . exact quiet_jsonError _ rfl
  . cases st with
    | inObject | inArray => exact absurd rfl hst
    | _ => exact quiet_of_events_eq rfl

theorem quiet_toState (st : State) (p : ParserData) : Quiet p (toState st p) := by
  unfold toState
  dsimp only
  split
  . exact Quiet.trans (q := { p with states := p.state :: p.states }) (quiet_of_events_eq rfl)
      (quiet_setState st _)
  . exact quiet_jsonError _ rfl

/--
After a start event any object may be open.
-/
theorem reports_start {e : Event} (he : e.isStart = true) (h : Quiet (p.event e) q)
    : Reports p q := by
  obtain ⟨events, hq, herr⟩ := h
  have hstart : (e :: events).any Event.isStart = true := by rw [List.any_cons, he, Bool.true_or]
  refine ⟨e :: events, by rw [hq]; exact List.append_assoc _ [e] events, ?_, ?_, ?_⟩
  . intro e' he'
    rcases List.mem_cons.mp he' with rfl | he'
    . cases e' with
      | objectStart _ => trivial
      | _ => cases he
    . cases e' with
      | error _ _ _ => trivial
      | _ => cases herr _ he'
  . apply started_of_not_complete
    intro e' he'
    rcases List.mem_cons.mp he' with rfl | he'
    . cases e' with
      | objectStart _ => rfl
      | _ => cases he
    . cases e' with
      | error _ _ _ => rfl
      | _ => cases herr _ he'
  . intro _
    rw [hstart, Bool.or_true]

theorem reports_openArray (p : ParserData) : Reports p (toState .toName (setState .inArray p)) := by
  rw [setState_container rfl]
  split
  . refine Reports.trans ?_ (reports_toState rfl)
    refine reports_of_inside ?_ ?_
    . rfl
    simp only [ParserData.inside, ParserData.storeName, List.contains_cons, Bool.or_eq_true]
    rintro (hst | hmem)
    . cases hst
    . exact .inr hmem
  . exact Reports.trans (reports_jsonError .internal rfl) (reports_toState rfl)

theorem reports_eatContainer {close : Char} {complete : Event} {err : Err} (c : Char)
    (hterm : complete.Terminated) (hcomplete : complete.isComplete = true → p.inside = true)
    : Reports p (eatContainer close complete err c p) := by
  unfold eatContainer
  repeat' split
  . exact (reports_event hterm hcomplete).trans reports_upState
  . exact reports_toState rfl
  . exact Reports.trans (q := { p with allowComma := false }) (reports_of_inside rfl id)
      (reports_toState rfl)
  . exact reports_jsonError _ rfl
  . exact Reports.refl p

theorem reports_eatOnce (c : Char) : Reports p (eatOnce c p).1 := by
  cases hst : p.state with
  | inObject =>
    rw [eatOnce_inObject hst]
    apply reports_eatContainer c
    . trivial
    . simp [ParserData.inside, hst]
  | inArray =>
    rw [eatOnce_inArray hst]
    apply reports_eatContainer c
    . trivial
    . exact fun hcomplete => absurd hcomplete Bool.false_ne_true
  | inString =>
    rw [eatOnce_inString hst]
    dsimp only
    repeat' split
    . exact reports_of_inside rfl id
    . exact Reports.trans (q := { p with isSlash := false }) (reports_of_inside rfl id)
        ((reports_appendValue _).trans (reports_appendValue _))
    . have hevent : Reports p (p.event (.string (p.name p.stack) (p.value p.stack))) :=
        reports_event (nul_not_mem_cstr _ _) fun h => absurd h Bool.false_ne_true
      exact hevent.trans (reports_setState rfl)
    . exact reports_appendValue c
  | none =>
    simp only [eatOnce, hst]
    repeat' split
    . apply reports_start (e := .objectStart (p.name p.stack)) rfl
      exact ((quiet_toState _ _).trans (quiet_toState _ _)).trans (quiet_of_events_eq rfl)
    . exact reports_toState rfl
    . exact Reports.refl p
  | toName | toColumn =>
    simp only [eatOnce, hst]
    repeat' split
    . exact reports_setState rfl
    . exact reports_jsonError _ rfl
    . exact Reports.refl p
  | inName =>
    simp only [eatOnce, hst]
    repeat' split
    . exact reports_setState rfl
    . exact reports_appendName c
    . exact reports_jsonError _ rfl
  | toValue =>
    simp only [eatOnce, hst]
    repeat' split
    . refine Reports.trans ?_ (reports_setState (show State.kind .inString = Option.none from rfl))
      refine reports_of_inside ?_ ?_
      . rfl
      . simp [ParserData.inside, hst]
    . exact (reports_appendValue c).trans (reports_setState rfl)
    . have hevent : Reports p (p.event (.arrayStart (p.name p.stack))) :=
        reports_event trivial fun h => absurd h Bool.false_ne_true
      exact hevent.trans (reports_openArray _)
    . apply reports_start (e := .objectStart (p.name p.stack)) rfl
      exact (quiet_setState _ _).trans (quiet_toState _ _)
    . exact reports_jsonError _ rfl
    . exact Reports.refl p
  | inNum =>
    simp only [eatOnce, hst]
    repeat' split
    . exact reports_appendValue c
    . have hevent : Reports p (p.event (.integer (p.name p.stack) (Atoi (p.value p.stack)))) :=
        reports_event trivial fun h => absurd h Bool.false_ne_true
      exact hevent.trans (reports_setState rfl)
  | outValue =>
    simp only [eatOnce, hst]
    repeat' split
    . exact reports_toState rfl
    . exact reports_upState
    . exact Reports.refl p

theorem reports_jsonEat (p : ParserData) (c : Char) : Reports p (jsonEat p c) := by
  rw [jsonEat_eq]
  apply jsonEatNoLog_rule (Reports p) (Reports p)
  . intro q hq _
    exact hq.trans (reports_eatOnce c)
  . intro q hq _
    exact hq.trans (reports_eatOnce c)
  . exact reports_of_inside rfl id

theorem reports_run (p : ParserData) (text : List Char) : Reports p (exec eatStep p text) := by
  induction text generalizing p with
  | nil => exact Reports.refl p
  | cons c text ih => exact (reports_jsonEat p c).trans (ih _)

end

/--
From a reset on, strings are terminated and objects are started before they are complete.
-/
theorem started_trace (p : ParserData) (text : List Char)
    : Started false (trace eatStep (jsonReset p) text)
      ∧ ∀ e ∈ trace eatStep (jsonReset p) text, e.Terminated := by
  obtain ⟨events, hevents, hterm, hstarted, -⟩ := reports_run (jsonReset p) text
  rw [events_exec, List.append_cancel_left_eq] at hevents
  rw [hevents]
  exact ⟨hstarted, hterm⟩

end Json
