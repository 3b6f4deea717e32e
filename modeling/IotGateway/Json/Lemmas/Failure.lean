import IotGateway.Json.Lemmas.Nesting

/-!
This module contains what the parser does not recover from unnoticed: once it has reported an error,
or has saved more states of containers than it has pushed rows, no further text makes up for it.
-/

namespace Json

open Machine

def Event.isError : Event → Bool
  | .error _ _ _ => true
  | _ => false

def Deficit (p : ParserData) : Prop := p.stack < (p.states.filterMap State.kind).length

/--
From `p` to `q` the events grow, and unless one of the new ones is an error a deficit stays.
-/
def Keeps (p q : ParserData) : Prop :=
  ∃ events, q.events = p.events ++ events
    ∧ ((∃ e ∈ events, e.isError = true) ∨ (Deficit p → Deficit q))

section

variable {p q r : ParserData}

theorem Keeps.refl (p : ParserData) : Keeps p p := ⟨[], by simp, .inr id⟩

theorem Keeps.trans (hpq : Keeps p q) (hqr : Keeps q r) : Keeps p r := by
  obtain ⟨events, hq, hpq⟩ := hpq
  obtain ⟨events', hr, hqr⟩ := hqr
  refine ⟨events ++ events', by rw [hr, hq, List.append_assoc], ?_⟩
  rcases hpq with ⟨e, he, herr⟩ | hpq
  . left
    exact ⟨e, List.mem_append_left _ he, herr⟩
  . rcases hqr with ⟨e, he, herr⟩ | hqr
    . left
      exact ⟨e, List.mem_append_right _ he, herr⟩
    . right
      exact hqr ∘ hpq

theorem keeps_event (e : Event) : Keeps p (p.event e) := ⟨[e], rfl, .inr id⟩

theorem keeps_jsonError (err : Err) (hevents : q.events = p.events) : Keeps p (jsonError err q) :=
  ⟨_, by rw [jsonError_events, hevents], .inl ⟨_, List.mem_singleton_self _, rfl⟩⟩

theorem keeps_of_deficit (hevents : q.events = p.events) (h : Deficit p → Deficit q) : Keeps p q :=
  ⟨[], by rw [hevents, List.append_nil], .inr h⟩

theorem keeps_setState {st : State} (hst : st.kind = none) : Keeps p (setState st p) := by
  cases st with
  | inObject | inArray => cases hst
  | _ => exact keeps_of_deficit rfl id

theorem keeps_save (p : ParserData) : Keeps p { p with states := p.state :: p.states } := by
  refine keeps_of_deficit rfl ?_
  intro hlt
  simp only [Deficit, List.filterMap_cons] at hlt ⊢
  split
  . exact hlt
  . rw [List.length_cons]
    exact Nat.lt_succ_of_lt hlt

theorem keeps_toState {st : State} (hst : st.kind = none) : Keeps p (toState st p) := by
  unfold toState
  dsimp only
  split
  . exact (keeps_save p).trans (keeps_setState hst)
  . exact keeps_jsonError _ rfl

theorem keeps_open {st : State} (hst : st.kind.isSome) : Keeps p (toState .toName (setState st p)) := by
  rw [setState_container hst]
  split
  . unfold toState
    dsimp only
    split
    . refine keeps_of_deficit rfl ?_
      intro hlt
      obtain ⟨kind, hkind⟩ := Option.isSome_iff_exists.mp hst
      show p.stack + 1 < ((st :: p.states).filterMap State.kind).length
      rw [List.filterMap_cons_some hkind, List.length_cons]
      exact Nat.succ_lt_succ hlt
    . exact keeps_jsonError _ rfl
  . exact Keeps.trans (keeps_jsonError .internal rfl) (keeps_toState rfl)

theorem keeps_openObject (p : ParserData) : Keeps p (toState .toName (toState .inObject p)) := by
  generalize hq : toState .inObject p = q
  unfold toState at hq
  dsimp only at hq
  split at hq
  . rw [← hq]
    exact (keeps_save p).trans (keeps_open rfl)
  . rw [← hq]
    exact Keeps.trans (keeps_jsonError .internal rfl) (keeps_toState rfl)

theorem keeps_upState : Keeps p (upState p) := by
  unfold upState
  split
  . next st states hstates =>
    have hpop : ∀ q : ParserData, q.events = p.events → q.states = states → st.kind = none →
        q.stack = p.stack → Keeps p q := by
      intro q hevents hq hkind hstack
      refine keeps_of_deficit hevents ?_
      unfold Deficit
      rw [hstates, hq, hstack, List.filterMap_cons_none hkind]
      exact id
    cases st with
    | inObject | inArray =>
      dsimp only
      split
      . next hpos =>
        refine keeps_of_deficit rfl ?_
        simp only [Deficit, hstates, List.filterMap_cons, State.kind, List.length_cons]
        omega
      . exact keeps_jsonError _ rfl
    | _ => exact hpop _ rfl rfl rfl rfl
  . exact keeps_jsonError _ rfl

theorem keeps_appendName (c : Char) : Keeps p (appendName c p) := by
  unfold appendName
  dsimp only
  split
  . exact keeps_of_deficit rfl id
  . exact keeps_jsonError _ rfl

theorem keeps_appendValue (c : Char) : Keeps p (appendValue c p) := by
  unfold appendValue
  dsimp only
  split
  . exact keeps_of_deficit rfl id
  . exact keeps_jsonError _ rfl

theorem keeps_eatContainer (close : Char) (complete : Event) (err : Err) (c : Char)
    : Keeps p (eatContainer close complete err c p) := by
  unfold eatContainer
  repeat' split
  . exact (keeps_event complete).trans keeps_upState
  . exact keeps_toState rfl
  . exact Keeps.trans (q := { p with allowComma := false }) (keeps_of_deficit rfl id)
      (keeps_toState rfl)
  . exact keeps_jsonError _ rfl
  . exact Keeps.refl p

theorem keeps_eatOnce (c : Char) : Keeps p (eatOnce c p).1 := by
  cases hst : p.state with
  | inObject =>
    rw [eatOnce_inObject hst]
    apply keeps_eatContainer
  | inArray =>
    rw [eatOnce_inArray hst]
    apply keeps_eatContainer
  | inString =>
    rw [eatOnce_inString hst]
    dsimp only
    repeat' split
    . exact keeps_of_deficit rfl id
    . exact Keeps.trans (q := { p with isSlash := false }) (keeps_of_deficit rfl id)
        ((keeps_appendValue _).trans (keeps_appendValue _))
    . exact (keeps_event _).trans (keeps_setState rfl)
    . exact keeps_appendValue c
  | none =>
    simp only [eatOnce, hst]
    repeat' split
    . have hopen := keeps_openObject (p.event (.objectStart (p.name p.stack)))
      exact Keeps.trans ((keeps_event _).trans hopen) (keeps_of_deficit rfl id)
    . exact keeps_toState rfl
    . exact Keeps.refl p
  | toName | toColumn =>
    simp only [eatOnce, hst]
    repeat' split
    . exact keeps_setState rfl
    . exact keeps_jsonError _ rfl
    . exact Keeps.refl p
  | inName =>
    simp only [eatOnce, hst]
    repeat' split
    . exact keeps_setState rfl
    . exact keeps_appendName c
    . exact keeps_jsonError _ rfl
  | toValue =>
    simp only [eatOnce, hst]
    repeat' split
    . exact keeps_of_deficit rfl id
    . exact (keeps_appendValue c).trans (keeps_setState rfl)
    . exact (keeps_event _).trans (keeps_open rfl)
    . exact (keeps_event _).trans (keeps_open rfl)
    . exact keeps_jsonError _ rfl
    . exact Keeps.refl p
  | inNum =>
    simp only [eatOnce, hst]
    repeat' split
    . exact keeps_appendValue c
    . exact (keeps_event _).trans (keeps_setState rfl)
  | outValue =>
    simp only [eatOnce, hst]
    repeat' split
    . exact keeps_toState rfl
    . exact keeps_upState
    . exact Keeps.refl p

theorem keeps_jsonEat (p : ParserData) (c : Char) : Keeps p (jsonEat p c) := by
  rw [jsonEat_eq]
  apply jsonEatNoLog_rule (Keeps p) (Keeps p)
  . intro q hq _
    exact hq.trans (keeps_eatOnce c)
  . intro q hq _
    exact hq.trans (keeps_eatOnce c)
  . exact keeps_of_deficit rfl id

theorem keeps_run (p : ParserData) (text : List Char) : Keeps p (exec eatStep p text) := by
  induction text generalizing p with
  | nil => exact Keeps.refl p
  | cons c text ih => exact (keeps_jsonEat p c).trans (ih _)

theorem events_exec (p : ParserData) (text : List Char)
    : (exec eatStep p text).events = p.events ++ trace eatStep p text := by
  induction text generalizing p with
  | nil => simp
  | cons c text ih =>
    obtain ⟨events, hevents, -⟩ := keeps_jsonEat p c
    have hstep : (eatStep p c).2 = events := by
      simp only [eatStep]
      rw [hevents, List.drop_left]
    rw [exec_cons, trace_cons, ih, hstep, ← List.append_assoc, ← hevents]
    rfl

/--
Since the first `n` events there has been an error.
-/
structure Failed (n : Nat) (p : ParserData) : Prop where
  le : n ≤ p.events.length
  error : ∃ e ∈ p.events.drop n, e.isError = true

/--
There has been an error, or there is a deficit.
-/
structure Broken (n : Nat) (p : ParserData) : Prop where
  le : n ≤ p.events.length
  broken : (∃ e ∈ p.events.drop n, e.isError = true) ∨ Deficit p

theorem Failed.broken {n : Nat} (h : Failed n p) : Broken n p := ⟨h.le, .inl h.error⟩

theorem Failed.keeps {n : Nat} (h : Failed n p) (hkeeps : Keeps p q) : Failed n q := by
  obtain ⟨events, hq, -⟩ := hkeeps
  obtain ⟨e, he, herr⟩ := h.error
  refine ⟨?_, e, ?_, herr⟩
  . rw [hq, List.length_append]
    exact Nat.le_add_right_of_le h.le
  . rw [hq, List.drop_append_of_le_length h.le]
    exact List.mem_append_left _ he

theorem Broken.keeps {n : Nat} (h : Broken n p) (hkeeps : Keeps p q) : Broken n q := by
  rcases h.broken with herr | hdeficit
  . exact (Failed.keeps ⟨h.le, herr⟩ hkeeps).broken
  . obtain ⟨events, hq, hkeeps⟩ := hkeeps
    have hdrop : q.events.drop n = p.events.drop n ++ events := by
      rw [hq, List.drop_append_of_le_length h.le]
    refine ⟨?_, ?_⟩
    . rw [hq, List.length_append]
      exact Nat.le_add_right_of_le h.le
    . rcases hkeeps with ⟨e, he, herr⟩ | hdeficit'
      . left
        rw [hdrop]
        exact ⟨e, List.mem_append_right _ he, herr⟩
      . right
        exact hdeficit' hdeficit

theorem failed_jsonError {n : Nat} (hle : n ≤ p.events.length) (err : Err)
    : Failed n (jsonError err p) := by
  refine ⟨?_, .error err err.text p.lastchars, ?_, rfl⟩
  . rw [jsonError_events, List.length_append]
    exact Nat.le_add_right_of_le hle
  . rw [jsonError_events, List.drop_append_of_le_length hle]
    exact List.mem_append_right _ (List.mem_singleton_self _)

theorem failed_jsonEat {n : Nat} (p : ParserData) (c : Char) (h : Failed n p)
    : Failed n (jsonEat p c) := h.keeps (keeps_jsonEat p c)

theorem broken_jsonEat {n : Nat} (p : ParserData) (c : Char) (h : Broken n p)
    : Broken n (jsonEat p c) := h.keeps (keeps_jsonEat p c)

end

end Json
