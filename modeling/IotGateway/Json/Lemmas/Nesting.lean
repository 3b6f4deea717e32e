import IotGateway.Json.Lemmas.Parser

/-!
This module says when the start and complete events are well nested. The rows of `name` that are
pushed and the saved states mirror the containers that the events opened and did not close yet.
-/

namespace Json

open CString Machine

/--
What an event makes of the open containers, the innermost first. There is no result if it completes
another container than that one.
-/
def nest : List (Kind × List Char) → Event → Option (List (Kind × List Char))
  | _, .error _ _ _ => some []
  | opened, .objectStart name => some ((.object, name) :: opened)
  | opened, .arrayStart name => some ((.array, name) :: opened)
  | (kind, name) :: opened, .objectComplete name' =>
    if kind = .object ∧ name = name' then some opened else none
  | (kind, name) :: opened, .arrayComplete name' =>
    if kind = .array ∧ name = name' then some opened else none
  | [], .objectComplete _ => none
  | [], .arrayComplete _ => none
  | opened, .string _ _ => some opened
  | opened, .integer _ _ => some opened

def WellNested (events : List Event) : Prop := (events.foldlM nest []).isSome

/--
The events since `p` turn the open containers `opened` into `opened'`.
-/
def Emits (p : ParserData) (opened : List (Kind × List Char)) (q : ParserData)
    (opened' : List (Kind × List Char)) : Prop :=
  ∃ events, q.events = p.events ++ events ∧ events.foldlM nest opened = some opened'

/--
The rows below `top` hold the names of the innermost open containers.
-/
def Named (mem : Nat → Char) : Nat → List (Kind × List Char) → Prop
  | 0, _ => True
  | _ + 1, [] => False
  | row + 1, (_, name) :: opened =>
    IsStr NUL mem (nameAddr row) name ∧ name.length < MAXNAME ∧ Named mem row opened

/--
The row of a container is no longer pushed when its state comes back from `states`.
-/
def ParserData.top (p : ParserData) : Nat :=
  if p.state.kind.isSome then p.stack + 1 else p.stack

structure Nested (opened : List (Kind × List Char)) (p : ParserData) : Prop where
  kinds : (p.state :: p.states).filterMap State.kind = opened.map Prod.fst
  named : Named p.mem p.top opened
  stack_lt : p.stack < MAXSTACK
  saved : ∀ st ∈ p.states, st.saved = true
  unnamed : p.state = .none → p.mem (nameAddr p.stack) = NUL

/--
The input opens a container whose name fills its row, so that the name of its first member runs on
into it, or it starts a member in the state of the container, whose name is in the row of the
member then.
-/
def Misnames (c : Char) (p : ParserData) : Prop :=
  match p.state with
  | .toValue => (c = '{' ∨ c = '[') ∧ MAXNAME ≤ (p.name p.stack).length
  | .inObject | .inArray => 0 < p.stack ∧ (c = '"' ∨ c = ',' ∧ p.allowComma)
  | .inNum | .outValue =>
    c = '"' ∧ 1 < p.stack
      ∧ ((p.states.dropWhile (· = .outValue)).head?.bind State.kind).isSome
  | _ => False

instance (c : Char) (p : ParserData) : Decidable (Misnames c p) := by
  unfold Misnames
  split
  all_goals infer_instance

section

variable {p q r : ParserData} {opened opened' opened'' : List (Kind × List Char)}

theorem Emits.refl (p : ParserData) (opened : List (Kind × List Char)) : Emits p opened p opened :=
  ⟨[], by simp, rfl⟩

theorem Emits.trans (hpq : Emits p opened q opened') (hqr : Emits q opened' r opened'')
    : Emits p opened r opened'' := by
  obtain ⟨events, hq, hnest⟩ := hpq
  obtain ⟨events', hr, hnest'⟩ := hqr
  refine ⟨events ++ events', ?_, ?_⟩
  . rw [hr, hq, List.append_assoc]
  . rw [List.foldlM_append, hnest]
    exact hnest'

theorem emits_event {e : Event} (h : nest opened e = some opened')
    : Emits p opened (p.event e) opened' := by
  refine ⟨[e], rfl, ?_⟩
  rw [List.foldlM_cons, h]
  rfl

theorem emits_of_events_eq (h : q.events = p.events) : Emits p opened q opened :=
  ⟨[], by rw [h, List.append_nil], rfl⟩

theorem emits_jsonError (err : Err) : Emits p opened (jsonError err p) [] :=
  ⟨[.error err err.text p.lastchars], rfl, rfl⟩

theorem Named.congr {mem mem' : Nat → Char} {top : Nat} (h : Named mem top opened)
    (heq : ∀ a < nameAddr top, mem' a = mem a)
    : Named mem' top opened := by
  induction top generalizing opened with
  | zero => trivial
  | succ row ih =>
    cases opened with
    | nil => exact h
    | cons container opened =>
      obtain ⟨hname, hlen, hrows⟩ := h
      simp only [nameAddr, MAXNAME] at heq hlen ih ⊢
      refine ⟨?_, hlen, ?_⟩
      . apply hname.congr
        intro a _ ha
        apply heq
        simp only [nameAddr, MAXNAME] at ha
        omega
      . apply ih hrows
        intro a ha
        apply heq
        omega

theorem Named.update {mem : Nat → Char} {top a : Nat} (h : Named mem top opened)
    (ha : nameAddr top ≤ a) (c : Char)
    : Named (Function.update mem a c) top opened := by
  apply h.congr
  intro b hb
  apply Function.update_of_ne
  omega

theorem nested_jsonReset (p : ParserData) : Nested [] (jsonReset p) := by
  rw [jsonReset_eq]
  refine ⟨rfl, trivial, Nat.zero_lt_succ _, by simp, ?_⟩
  intro _
  dsimp only
  rw [Function.update_of_ne (by decide), Function.update_self]

theorem nested_jsonError (err : Err)
    : ∃ opened', Emits p opened (jsonError err p) opened' ∧ Nested opened' (jsonError err p) :=
  ⟨[], emits_jsonError err, nested_jsonReset _⟩

theorem nested_setState (h : Nested opened p) (hp : p.state.kind = none) (st : State)
    (hst : st.kind = none) (hne : st ≠ .none)
    : Emits p opened (setState st p) opened ∧ Nested opened (setState st p) := by
  have hnamed : Named p.mem p.stack opened := by
    have := h.named
    rwa [ParserData.top, hp] at this
  have hkinds : (st :: p.states).filterMap State.kind = opened.map Prod.fst := by
    rw [← h.kinds, List.filterMap_cons_none hst, List.filterMap_cons_none hp]
  have htop : ∀ a, nameAddr p.stack ≤ a → Named (Function.update p.mem a NUL) p.stack opened :=
    fun a ha => hnamed.update ha NUL
  cases st with
  | none => exact absurd rfl hne
  | inObject | inArray => cases hst
  | inName =>
    refine ⟨emits_of_events_eq rfl, hkinds, ?_, h.stack_lt, h.saved, by intro h; cases h⟩
    exact htop _ (Nat.le_add_right _ _)
  | toValue =>
    refine ⟨emits_of_events_eq rfl, hkinds, ?_, h.stack_lt, h.saved, by intro h; cases h⟩
    apply htop (valueAddr p.stack + 0)
    have := h.stack_lt
    simp only [nameAddr, valueAddr, MAXNAME, MAXSTACK] at this ⊢
    omega
  | toName | toColumn | inString | inNum | outValue =>
    exact ⟨emits_of_events_eq rfl, hkinds, hnamed, h.stack_lt, h.saved, by intro h; cases h⟩

/--
To a member from outside of one. In the state of a container the row of the member is the one with
the name of the container, so this may be done to the outermost container only.
-/
theorem nested_toState (h : Nested opened p) (hp : p.state.kind = none ∨ p.stack = 0)
    (hsaved : p.state.saved = true) {st : State} (hst : st = .toName ∨ st = .inName)
    : ∃ opened', Emits p opened (toState st p) opened' ∧ Nested opened' (toState st p) := by
  have hnamed : Named p.mem p.stack opened := by
    cases hp with
    | inl hkind =>
      have := h.named
      rwa [ParserData.top, hkind] at this
    | inr hzero =>
      rw [hzero]
      trivial
  have hall := saved_append hsaved h.saved
  unfold toState
  dsimp only
  split
  . rcases hst with rfl | rfl
    . exact ⟨opened, emits_of_events_eq rfl, h.kinds, hnamed, h.stack_lt, hall, by intro h; cases h⟩
    . refine ⟨opened, emits_of_events_eq rfl, h.kinds, ?_, h.stack_lt, hall, by intro h; cases h⟩
      exact hnamed.update (Nat.le_add_right _ _) NUL
  . exact ⟨[], emits_jsonError _, nested_jsonReset _⟩

theorem nested_toName_jsonError (err : Err) (opened : List (Kind × List Char)) (p : ParserData)
    : ∃ opened', Emits p opened (toState .toName (jsonError err p)) opened'
        ∧ Nested opened' (toState .toName (jsonError err p)) := by
  obtain ⟨opened', hemits, hnested⟩ := nested_toState
    (nested_jsonReset (p.event (.error err err.text p.lastchars))) (.inl rfl) rfl (.inl rfl)
  exact ⟨opened', Emits.trans (emits_jsonError err) hemits, hnested⟩

theorem nested_open {kind : Kind} {name : List Char}
    (hkinds : p.states.filterMap State.kind = opened.map Prod.fst)
    (hsaved : ∀ st ∈ p.states, st.saved = true) (hnamed : Named p.mem p.stack opened)
    (hname : IsStr NUL p.mem (nameAddr p.stack) name)
    (hlen : name.length < MAXNAME) (st : State) (hst : st.kind = some kind)
    : ∃ opened', Emits p ((kind, name) :: opened) (toState .toName (setState st p)) opened'
        ∧ Nested opened' (toState .toName (setState st p)) := by
  rw [setState_container (by rw [hst]; rfl)]
  split
  . next hlt =>
    have hst' : st.saved = true := by
      cases st with
      | inObject | inArray => rfl
      | _ => cases hst
    have hall := saved_append (p := { p with state := st }) hst' hsaved
    have hnamed' : Named (Function.update p.mem (nameAddr (p.stack + 1)) NUL) (p.stack + 1)
        ((kind, name) :: opened) := by
      apply Named.update
      . exact ⟨hname, hlen, hnamed⟩
      . exact Nat.le_refl _
    unfold toState
    dsimp only
    split
    . refine ⟨_, emits_of_events_eq rfl, ?_, hnamed', hlt, hall, by intro h; cases h⟩
      show (State.toName :: st :: p.states).filterMap State.kind = _
      rw [List.filterMap_cons_none rfl, List.filterMap_cons_some hst, hkinds]
      rfl
    . exact ⟨[], emits_jsonError _, nested_jsonReset _⟩
  . exact nested_toName_jsonError .internal _ { p with state := st, stack := p.stack + 1 }

theorem nested_upState (hkinds : p.states.filterMap State.kind = opened.map Prod.fst)
    (hsaved : ∀ st ∈ p.states, st.saved = true)
    (hnamed : Named p.mem p.stack opened) (hstack : p.stack < MAXSTACK)
    : ∃ opened', Emits p opened (upState p) opened' ∧ Nested opened' (upState p) := by
  unfold upState
  split
  . next st states hstates =>
    rw [hstates] at hkinds hsaved
    have hall : ∀ st' ∈ states, st'.saved = true :=
      fun st' hmem => hsaved st' (List.mem_cons_of_mem st hmem)
    cases st with
    | inObject | inArray =>
      dsimp only
      split
      . next hpos =>
        refine ⟨opened, emits_of_events_eq rfl, hkinds, ?_, ?_, hall, by intro h; cases h⟩
        . show Named p.mem (p.stack - 1 + 1) opened
          rwa [Nat.sub_add_cancel hpos]
        . show p.stack - 1 < MAXSTACK
          omega
      . exact ⟨[], emits_jsonError _, nested_jsonReset _⟩
    | none =>
      refine ⟨opened, emits_of_events_eq rfl, hkinds, ?_, hstack, hall, ?_⟩
      . exact hnamed.update (Nat.le_add_right _ _) NUL
      . intro _
        exact Function.update_self ..
    | toName | inName | toColumn | toValue | inString | inNum | outValue =>
      exact ⟨opened, emits_of_events_eq rfl, hkinds, hnamed, hstack, hall, by intro h; cases h⟩
  . exact ⟨[], emits_jsonError _, nested_jsonReset _⟩

theorem nested_appendName (h : Nested opened p) (hp : p.state = .inName) (c : Char)
    : ∃ opened', Emits p opened (appendName c p) opened' ∧ Nested opened' (appendName c p) := by
  unfold appendName
  dsimp only
  split
  . refine ⟨opened, emits_of_events_eq rfl, h.kinds, ?_, h.stack_lt, h.saved, ?_⟩
    . have hnamed : Named p.mem p.stack opened := by
        have := h.named
        rwa [ParserData.top, hp] at this
      show Named _ (ParserData.top { p with mem := _, stores := _ }) opened
      rw [ParserData.top, hp]
      exact (hnamed.update (Nat.le_add_right _ _) c).update (Nat.le_add_right _ _) NUL
    . intro hnone
      have : p.state = .none := hnone
      rw [hp] at this
      cases this
  . exact nested_jsonError _

theorem nested_appendValue (h : Nested opened p) (hp : p.state.kind = none) (c : Char)
    : ∃ opened', Emits p opened (appendValue c p) opened' ∧ Nested opened' (appendValue c p)
        ∧ (appendValue c p).state.kind = none := by
  have hstack := h.stack_lt
  have hbehind : nameAddr MAXSTACK ≤ valueAddr p.stack := by
    simp only [nameAddr, valueAddr]
    omega
  have hrow : nameAddr p.stack < nameAddr MAXSTACK := by
    simp only [nameAddr, MAXNAME]
    omega
  unfold appendValue
  dsimp only
  split
  . refine ⟨opened, emits_of_events_eq rfl, ⟨h.kinds, ?_, h.stack_lt, h.saved, ?_⟩, hp⟩
    . have htop : nameAddr p.top ≤ nameAddr MAXSTACK := by
        rw [ParserData.top, hp]
        exact Nat.le_of_lt hrow
      have hvalue : ∀ i, nameAddr p.top ≤ valueAddr p.stack + i := by
        intro i
        omega
      exact (h.named.update (hvalue _) c).update (hvalue _) NUL
    . intro hnone
      show Function.update (Function.update p.mem (valueAddr p.stack + (p.value p.stack).length) c)
        (valueAddr p.stack + ((p.value p.stack).length + 1)) NUL (nameAddr p.stack) = NUL
      rw [Function.update_of_ne (by omega), Function.update_of_ne (by omega)]
      exact h.unnamed hnone
  . obtain ⟨opened', hemits, hnested⟩ := nested_jsonError .valueTooLong
    exact ⟨opened', hemits, hnested, rfl⟩

theorem nested_complete (h : Nested opened p) {kind : Kind} (hp : p.state.kind = some kind)
    {complete : Event}
    (hcomplete : ∀ opened, nest ((kind, p.name p.stack) :: opened) complete = some opened)
    : ∃ opened', Emits p opened (upState (p.event complete)) opened'
        ∧ Nested opened' (upState (p.event complete)) := by
  have hkinds := h.kinds
  have hnamed := h.named
  rw [List.filterMap_cons_some hp] at hkinds
  rw [ParserData.top, hp] at hnamed
  cases opened with
  | nil => cases hkinds
  | cons container opened =>
    obtain ⟨kind', name⟩ := container
    obtain ⟨rfl, hrest⟩ := List.cons.inj hkinds
    obtain ⟨hname, hlen, hrows⟩ := hnamed
    rw [name_eq hname (Nat.le_of_lt hlen)] at hcomplete
    obtain ⟨opened', hemits, hnested⟩ :=
      nested_upState (p := p.event complete) hrest h.saved hrows h.stack_lt
    exact ⟨opened', (emits_event (hcomplete opened)).trans hemits, hnested⟩

theorem nested_eatContainer (h : Nested opened p) {kind : Kind} (hp : p.state.kind = some kind)
    {c : Char} (hfit : ¬ (0 < p.stack ∧ (c = '"' ∨ c = ',' ∧ p.allowComma))) {complete : Event}
    (hcomplete : ∀ opened, nest ((kind, p.name p.stack) :: opened) complete = some opened)
    (close : Char) (err : Err)
    : ∃ opened', Emits p opened (eatContainer close complete err c p) opened'
        ∧ Nested opened' (eatContainer close complete err c p) := by
  have hsaved : p.state.saved = true := by
    generalize p.state = st at hp ⊢
    cases st with
    | inObject | inArray => rfl
    | _ => cases hp
  unfold eatContainer
  repeat' split
  . exact nested_complete h hp hcomplete
  . next hquote =>
    apply nested_toState h ?_ hsaved (.inr rfl)
    right
    apply Nat.eq_zero_of_not_pos
    intro hpos
    exact hfit ⟨hpos, .inl hquote⟩
  . next hcomma =>
    simp only [Bool.and_eq_true, decide_eq_true_eq] at hcomma
    have hzero : p.stack = 0 := by
      apply Nat.eq_zero_of_not_pos
      intro hpos
      exact hfit ⟨hpos, .inr hcomma⟩
    obtain ⟨opened', hemits, hnested⟩ := nested_toState (p := { p with allowComma := false })
      ⟨h.kinds, h.named, h.stack_lt, h.saved, h.unnamed⟩ (.inr hzero) hsaved (.inl rfl)
    exact ⟨opened', hemits, hnested⟩
  . exact nested_jsonError err
  . exact ⟨opened, Emits.refl p opened, h⟩

theorem nested_openObject (h : Nested opened p) (hp : p.state = .none)
    : ∃ opened', Emits p opened
          (toState .toName (toState .inObject (p.event (.objectStart (p.name p.stack))))) opened'
        ∧ Nested opened'
          (toState .toName (toState .inObject (p.event (.objectStart (p.name p.stack))))) := by
  have hname : IsStr NUL p.mem (nameAddr p.stack) [] := h.unnamed hp
  have hnamed := h.named
  rw [ParserData.top, hp] at hnamed
  have hkinds := h.kinds
  rw [hp] at hkinds
  rw [name_eq hname (Nat.zero_le _)]
  have hstart : Emits p opened (p.event (.objectStart [])) ((.object, []) :: opened) :=
    emits_event rfl
  generalize hq : toState .inObject (p.event (.objectStart [])) = q
  unfold toState at hq
  dsimp only at hq
  split at hq
  . rw [← hq]
    obtain ⟨opened', hemits, hnested⟩ := nested_open
      (p := { p.event (.objectStart []) with states := p.state :: p.states })
      (by rw [hp]; exact hkinds) (saved_append (by rw [hp]; rfl) h.saved) hnamed hname
      (Nat.zero_lt_succ _) .inObject rfl
    exact ⟨opened', hstart.trans hemits, hnested⟩
  . rw [← hq]
    obtain ⟨opened', hemits, hnested⟩ := nested_toName_jsonError .internal
      ((.object, []) :: opened) { p.event (.objectStart []) with states := p.state :: p.states }
    exact ⟨opened', hstart.trans hemits, hnested⟩

theorem nested_openValue (h : Nested opened p) (hp : p.state = .toValue)
    (hlen : (p.name p.stack).length < MAXNAME) (kind : Kind) {start : Event}
    (hstart : nest opened start = some ((kind, p.name p.stack) :: opened)) {st : State}
    (hst : st.kind = some kind)
    : ∃ opened', Emits p opened (toState .toName (setState st (p.event start))) opened'
        ∧ Nested opened' (toState .toName (setState st (p.event start))) := by
  have hname : IsStr NUL p.mem (nameAddr p.stack) (p.name p.stack) := by
    apply isStr_cstr
    apply Nat.lt_of_lt_of_le hlen
    decide
  have hnamed := h.named
  rw [ParserData.top, hp] at hnamed
  have hkinds := h.kinds
  rw [hp] at hkinds
  obtain ⟨opened', hemits, hnested⟩ := nested_open (p := p.event start) hkinds h.saved
    hnamed hname hlen st hst
  exact ⟨opened', (emits_event hstart).trans hemits, hnested⟩

/--
One pass: the events go on with what was open, and the rows and the saved states follow them.
-/
theorem nested_eatOnce (h : Nested opened p) {c : Char} (hfit : ¬ Misnames c p)
    : ∃ opened', Emits p opened (eatOnce c p).1 opened' ∧ Nested opened' (eatOnce c p).1 := by
  have herr : ∀ err, ∃ opened', Emits p opened (jsonError err p) opened'
      ∧ Nested opened' (jsonError err p) := fun err => nested_jsonError err
  have hstay : ∃ opened', Emits p opened p opened' ∧ Nested opened' p :=
    ⟨opened, Emits.refl p opened, h⟩
  have hset : ∀ st : State, p.state.kind = none → st.kind = none → st ≠ .none →
      ∃ opened', Emits p opened (setState st p) opened' ∧ Nested opened' (setState st p) :=
    fun st hp hst hne => ⟨opened, nested_setState h hp st hst hne⟩
  cases hst : p.state with
  | none =>
    have hkind : p.state.kind = none := by rw [hst]; rfl
    simp only [eatOnce, hst]
    repeat' split
    . obtain ⟨opened', hemits, hnested⟩ := nested_openObject h hst
      exact ⟨opened', hemits, hnested.kinds, hnested.named, hnested.stack_lt, hnested.saved,
        hnested.unnamed⟩
    . exact nested_toState h (.inl hkind) (by rw [hst]; rfl) (.inr rfl)
    . exact hstay
  | inObject =>
    simp only [Misnames, hst] at hfit
    rw [eatOnce_inObject hst]
    apply nested_eatContainer h (by rw [hst]; rfl) hfit
    intro opened
    simp [nest]
  | toName =>
    have hkind : p.state.kind = none := by rw [hst]; rfl
    simp only [eatOnce, hst]
    repeat' split
    . exact hset _ hkind rfl (by decide)
    . exact herr _
    . exact hstay
  | inName =>
    have hkind : p.state.kind = none := by rw [hst]; rfl
    simp only [eatOnce, hst]
    repeat' split
    . exact hset _ hkind rfl (by decide)
    . exact nested_appendName h hst c
    . exact herr _
  | toColumn =>
    have hkind : p.state.kind = none := by rw [hst]; rfl
    simp only [eatOnce, hst]
    repeat' split
    . exact hset _ hkind rfl (by decide)
    . exact herr _
    . exact hstay
  | toValue =>
    have hkind : p.state.kind = none := by rw [hst]; rfl
    simp only [Misnames, hst] at hfit
    simp only [eatOnce, hst]
    repeat' split
    . have hslash : Nested opened { p with isSlash := false } :=
        ⟨h.kinds, h.named, h.stack_lt, h.saved, h.unnamed⟩
      obtain ⟨hemits, hnested⟩ := nested_setState hslash hkind .inString rfl (by decide)
      rw [hst] at hemits hnested
      exact ⟨opened, hemits, hnested⟩
    . obtain ⟨opened', hemits, hnested, hkind'⟩ := nested_appendValue h hkind c
      obtain ⟨hemits', hnested'⟩ := nested_setState hnested hkind' .inNum rfl (by decide)
      exact ⟨opened', hemits.trans hemits', hnested'⟩
    . next hbracket =>
      apply nested_openValue h hst _ .array rfl rfl
      apply Nat.lt_of_not_le
      intro hlen
      exact hfit ⟨.inr hbracket, hlen⟩
    . next hbrace =>
      apply nested_openValue h hst _ .object rfl rfl
      apply Nat.lt_of_not_le
      intro hlen
      exact hfit ⟨.inl hbrace, hlen⟩
    . exact herr _
    . exact hstay
  | inString =>
    have hkind : p.state.kind = none := by rw [hst]; rfl
    have hslash : ∀ isSlash, Nested opened { p with isSlash } :=
      fun isSlash => ⟨h.kinds, h.named, h.stack_lt, h.saved, h.unnamed⟩
    rw [eatOnce_inString hst]
    dsimp only
    repeat' split
    . exact ⟨opened, emits_of_events_eq rfl, hslash true⟩
    . obtain ⟨opened', hemits, hnested, hkind'⟩ := nested_appendValue (hslash false) hkind '\\'
      obtain ⟨opened'', hemits', hnested', -⟩ := nested_appendValue hnested hkind' c
      exact ⟨opened'', Emits.trans (p := p) hemits hemits', hnested'⟩
    . obtain ⟨hemits, hnested⟩ := nested_setState
        (p := p.event (.string (p.name p.stack) (p.value p.stack)))
        ⟨h.kinds, h.named, h.stack_lt, h.saved, h.unnamed⟩ hkind .outValue rfl (by decide)
      exact ⟨opened, (emits_event rfl).trans hemits, hnested⟩
    . obtain ⟨opened', hemits, hnested, -⟩ := nested_appendValue h hkind c
      exact ⟨opened', hemits, hnested⟩
  | inNum =>
    have hkind : p.state.kind = none := by rw [hst]; rfl
    simp only [eatOnce, hst]
    repeat' split
    . obtain ⟨opened', hemits, hnested, -⟩ := nested_appendValue h hkind c
      exact ⟨opened', hemits, hnested⟩
    . obtain ⟨hemits, hnested⟩ := nested_setState
        (p := p.event (.integer (p.name p.stack) (Atoi (p.value p.stack))))
        ⟨h.kinds, h.named, h.stack_lt, h.saved, h.unnamed⟩ hkind .outValue rfl (by decide)
      exact ⟨opened, (emits_event rfl).trans hemits, hnested⟩
  | inArray =>
    simp only [Misnames, hst] at hfit
    rw [eatOnce_inArray hst]
    apply nested_eatContainer h (by rw [hst]; rfl) hfit
    intro opened
    simp [nest]
  | outValue =>
    have hkind : p.state.kind = none := by rw [hst]; rfl
    have hkinds := h.kinds
    have hnamed := h.named
    rw [List.filterMap_cons_none hkind] at hkinds
    rw [ParserData.top, hkind] at hnamed
    simp only [eatOnce, hst]
    repeat' split
    . exact nested_toState h (.inl hkind) (by rw [hst]; rfl) (.inl rfl)
    . exact nested_upState hkinds h.saved hnamed h.stack_lt
    . exact hstay

end

theorem named_log {p : ParserData} {opened : List (Kind × List Char)} (h : Nested opened p)
    (c : Char)
    : Nested opened (p.log c) := by
  have hstack := h.stack_lt
  have htop : nameAddr p.top ≤ errbufAddr := by
    unfold ParserData.top
    split
    all_goals
      simp only [nameAddr, errbufAddr, MAXNAME, MAXVALUE, MAXSTACK] at hstack ⊢
      omega
  have hrow : nameAddr p.stack < errbufAddr := by
    simp only [nameAddr, errbufAddr, MAXNAME, MAXVALUE, MAXSTACK] at hstack ⊢
    omega
  refine ⟨h.kinds, ?_, h.stack_lt, h.saved, ?_⟩
  . apply h.named.congr
    intro a ha
    have ha' : a < nameAddr p.top := ha
    simp only [ParserData.log]
    split
    . rfl
    . apply Function.update_of_ne
      omega
  . intro hnone
    simp only [ParserData.log]
    split
    . exact h.unnamed hnone
    . rw [Function.update_of_ne (by omega)]
      exact h.unnamed hnone

theorem not_misnames_log {p : ParserData} {opened : List (Kind × List Char)} (h : Nested opened p)
    {c : Char} (hfit : ¬ Misnames c p)
    : ¬ Misnames c (p.log c) := by
  have hstack := h.stack_lt
  cases hst : p.state with
  | toValue =>
    have hst' : (p.log c).state = .toValue := hst
    simp only [Misnames, hst] at hfit
    simp only [Misnames, hst']
    intro hbad
    apply hfit
    refine ⟨hbad.1, ?_⟩
    apply Nat.le_of_not_lt
    intro hlen
    have hname : IsStr NUL p.mem (nameAddr p.stack) (p.name p.stack) := by
      apply isStr_cstr
      apply Nat.lt_of_lt_of_le hlen
      decide
    have heq : (p.log c).name p.stack = p.name p.stack := by
      apply name_eq (isStr_log hname _ c) (Nat.le_of_lt hlen)
      simp only [nameAddr, errbufAddr, MAXNAME, MAXVALUE, MAXSTACK] at hlen hstack ⊢
      omega
    have hlong : MAXNAME ≤ ((p.log c).name p.stack).length := hbad.2
    rw [heq] at hlong
    omega
  | _ =>
    have hst' : (p.log c).state = p.state := rfl
    rw [hst] at hst'
    simp only [Misnames, hst] at hfit
    simp only [Misnames, hst']
    exact hfit

/--
A character that is looked at again meets no other container than the one that it was refused for.
-/
theorem not_misnames_again {p : ParserData} {opened : List (Kind × List Char)}
    (h : Nested opened p) {c : Char} (hfit : ¬ Misnames c p)
    (hagain : (eatOnce c p).2 = true)
    : ¬ Misnames c (eatOnce c p).1 := by
  rcases eatOnce_again hagain with ⟨hst, heq⟩ | ⟨hst, hcomma, heq⟩
  . rw [heq]
    simp only [Misnames, hst] at hfit
    exact hfit
  . rw [heq]
    simp only [Misnames, hst] at hfit
    unfold upState
    split
    . next st states hstates =>
      rw [hstates] at hfit
      cases st with
      | inObject | inArray =>
        dsimp only
        split
        . rintro ⟨hpos, hc⟩
          have hpos' : 0 < p.stack - 1 := hpos
          apply hfit
          refine ⟨?_, by omega, rfl⟩
          rcases hc with hc | hc
          . exact hc
          . exact absurd hc.1 hcomma
        . exact id
      | outValue => exact hfit
      | none => exact id
      | toName | inName | toColumn | toValue | inString | inNum =>
        have := h.saved _ (by rw [hstates]; exact List.mem_cons_self)
        cases this
    . exact id

theorem nested_jsonEat {p : ParserData} {opened : List (Kind × List Char)} (h : Nested opened p)
    {c : Char} (hfit : ¬ Misnames c p)
    : ∃ opened', Emits p opened (jsonEat p c) opened' ∧ Nested opened' (jsonEat p c) := by
  rw [jsonEat_eq]
  apply jsonEatNoLog_rule
    (fun q => (∃ opened', Emits p opened q opened' ∧ Nested opened' q) ∧ ¬ Misnames c q)
    (fun q => ∃ opened', Emits p opened q opened' ∧ Nested opened' q)
  . intro q hq hagain
    obtain ⟨⟨opened', hemits, hnested⟩, hfit⟩ := hq
    obtain ⟨opened'', hemits', hnested'⟩ := nested_eatOnce hnested hfit
    exact ⟨⟨opened'', hemits.trans hemits', hnested'⟩, not_misnames_again hnested hfit hagain⟩
  . intro q hq _
    obtain ⟨⟨opened', hemits, hnested⟩, hfit⟩ := hq
    obtain ⟨opened'', hemits', hnested'⟩ := nested_eatOnce hnested hfit
    exact ⟨opened'', hemits.trans hemits', hnested'⟩
  . exact ⟨⟨opened, emits_of_events_eq rfl, named_log h c⟩, not_misnames_log h hfit⟩

theorem nested_trace {p : ParserData} {opened : List (Kind × List Char)} (h : Nested opened p)
    {chars : List Char} (hfit : Along eatStep (fun p c => ¬ Misnames c p) p chars)
    : ((trace eatStep p chars).foldlM nest opened).isSome := by
  induction chars generalizing p opened with
  | nil => rfl
  | cons c chars ih =>
    obtain ⟨hc, hrest⟩ := hfit
    obtain ⟨opened', ⟨events, hevents, hnest⟩, hnested⟩ := nested_jsonEat h hc
    have hstep : (eatStep p c).2 = events := by
      simp only [eatStep]
      rw [hevents, List.drop_left]
    rw [trace_cons, hstep, List.foldlM_append, hnest]
    exact ih hnested hrest

/--
In every run that opens no container with a name that fills its row, and that starts no member in
the state of a container but the outermost one, every complete event belongs to the last open start
event.
-/
theorem wellNested_of_not_misnames (p : ParserData) (chars : List Char)
    (h : Along eatStep (fun p c => ¬ Misnames c p) (jsonReset p) chars)
    : WellNested (trace eatStep (jsonReset p) chars) :=
  nested_trace (nested_jsonReset p) h

/--
Containers as later members and at the end of each other.
-/
theorem wellNested_of_not_misnames_array
    : WellNested (trace eatStep (jsonReset .init)
        "\x7b\"a\":1,\"b\":[\"c\":2,\"d\":\x7b\"e\":\"x\"\x7d],\"f\":-3\x7d".toList) :=
  wellNested_of_not_misnames .init _ (by decide)

/--
The name of `p` is overwritten by the one of its second member, as its first one is an object.
-/
theorem complete_misnamed
    : ¬ ∀ chars, WellNested (trace eatStep (jsonReset .init) chars) := by
  intro h
  have := h "\x7b\"p\":\x7b\"a\":\x7b\"b\":1\x7d,\"c\":2\x7d\x7d".toList
  revert this
  unfold WellNested
  decide

end Json
