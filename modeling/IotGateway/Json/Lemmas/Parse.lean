import IotGateway.Json.Lemmas.Tokens
import IotGateway.Json.Lemmas.Traversal

/-!
This module says which texts the parser reads right, by induction on what they stand for.
-/

namespace Json

open CString Machine

section

variable {p : ParserData} {st : State} {opened : List (Kind × List Char)} {states : List State}
  {events : List Event} {name : List Char} {kind : Kind} {n : Nat}

theorem eatOnce_opening (h : At .toValue opened states events p) (hname : NameIs name p)
    (kind : Kind)
    : eatOnce kind.opening p
        =
      (toState .toName (setState kind.state (p.event (kind.start name))), false) := by
  have hrow := name_eq hname.1 (Nat.le_of_lt hname.2)
  cases kind with
  | object =>
    have hnum : isNum '{' = false := by decide
    have hsign : isSign '{' = false := by decide
    simp [eatOnce, h.state_eq, Kind.opening, Kind.start, Kind.state, hnum, hsign, hrow]
  | array =>
    have hnum : isNum '[' = false := by decide
    have hsign : isSign '[' = false := by decide
    simp [eatOnce, h.state_eq, Kind.opening, Kind.start, Kind.state, hnum, hsign, hrow]

theorem jsonEat_opening (h : Ready opened states events name p) (kind : Kind)
    : jsonEat p kind.opening
        =
      toState .toName (setState kind.state ((p.log kind.opening).event (kind.start name))) := by
  apply jsonEat_once
  apply eatOnce_opening (h.position.log _)
  exact h.name.log h.position.stack_lt _

theorem at_push (h : At st opened states events p) (hst : st.kind = none) (hname : NameIs name p)
    (hstack : opened.length + 1 < MAXSTACK) (hstates : states.length + 1 < MAXSTATES) (kind : Kind)
    (hslash : p.isSlash = false)
    : At .toName ((kind, name) :: opened) (kind.state :: states) events
        (toState .toName (setState kind.state p)) := by
  have hlen := h.stack_eq hst
  rw [← hlen] at hstack
  rw [setState_container (by simp), if_pos hstack]
  have hroom : p.states.length + 1 < MAXSTATES := by rwa [h.states_eq]
  unfold toState
  dsimp only
  rw [if_pos (by exact hroom)]
  refine ⟨rfl, ?_, h.events_eq, ?_, ?_, hstack, fun _ => hslash, ?_,
    (by intro hnone; cases hnone), ?_⟩
  . show kind.state :: p.states = _
    rw [h.states_eq]
  . show p.stack + 1 = _
    rw [hlen]
    rfl
  . have hcount := h.count
    rw [List.filterMap_cons_none hst] at hcount
    rw [List.filterMap_cons_none rfl, List.filterMap_cons_some (kind_state kind),
      List.length_cons, hcount]
    rfl
  . show Named (Function.update p.mem (nameAddr (p.stack + 1) + 0) NUL) (opened.length + 1)
      ((kind, name) :: opened)
    obtain ⟨hstr, hshort⟩ := hname
    rw [hlen] at hstr ⊢
    apply Named.update
    . exact ⟨hstr, hshort, h.named⟩
    . exact Nat.le_refl _
  . show Function.update p.mem (nameAddr (p.stack + 1) + 0) NUL (valueAddr 0) = NUL
    simp only [MAXSTACK] at hstack
    rw [Function.update_of_ne]
    . exact h.value
    . simp only [nameAddr, valueAddr, MAXNAME, MAXSTACK]
      omega

theorem reads_open (hstack : opened.length + 1 < MAXSTACK) (hstates : states.length + 1 < MAXSTATES)
    (kind : Kind)
    : Reads (Ready opened states events name) [[kind.opening]]
        (At .toName ((kind, name) :: opened) (kind.state :: states)
          (events ++ [kind.start name])) := by
  refine eats_token blank_ready ?_
  intro p h
  have hlog := h.position.log kind.opening
  show At .toName _ _ _ (jsonEat p kind.opening)
  rw [jsonEat_opening h]
  exact at_push (hlog.event _) rfl (h.name.log h.position.stack_lt _) hstack hstates kind
    (hlog.slash (by decide))

theorem reads_open_failed (hn : n ≤ events.length)
    (h : ¬ (opened.length + 1 < MAXSTACK ∧ states.length + 1 < MAXSTATES)) (kind : Kind)
    : Reads (Ready opened states events name) [[kind.opening]] (Failed n) := by
  refine eats_token blank_ready ?_
  intro p hready
  have hlog := (hready.position.log kind.opening).event (kind.start name)
  show Failed n (jsonEat p kind.opening)
  rw [jsonEat_opening hready, setState_container (by simp)]
  generalize (p.log kind.opening).event (kind.start name) = q at hlog
  have hle : n ≤ q.events.length := by
    rw [hlog.events_eq, List.length_append]
    omega
  have hlen := hlog.stack_eq rfl
  split
  . next hlt =>
    rw [hlen] at hlt
    unfold toState
    dsimp only
    rw [if_neg]
    . apply failed_jsonError
      exact hle
    . intro hroom
      apply h
      refine ⟨hlt, ?_⟩
      rw [← hlog.states_eq]
      exact hroom
  . apply Failed.keeps _ (keeps_toState rfl)
    apply failed_jsonError
    exact hle

theorem jsonEatNoLog_comma (h : At .outValue opened states events p)
    : jsonEatNoLog ',' p = toState .toName p := by
  have hblank : isWhiteSpace ',' = false := by decide
  rw [jsonEatNoLog_eq]
  simp [eatOnce, h.state_eq, hblank]

theorem reads_comma (hstates : states.length + 1 < MAXSTATES)
    : Reads (Valued opened states events) [[',']]
        (At .toName opened (.outValue :: states) events) := by
  refine eats_token blank_valued ?_
  intro p h
  obtain ⟨q, hq, heat⟩ := h.settle (c := ',') (by decide)
  show At .toName _ _ _ (jsonEat p ',')
  rw [heat, jsonEatNoLog_comma hq]
  exact (at_toState hq rfl hstates (.inl rfl) (hq.slash (by decide))).2

theorem reads_comma_failed (hn : n ≤ events.length) (hstates : ¬ states.length + 1 < MAXSTATES)
    : Reads (Valued opened states events) [[',']] (Failed n) := by
  refine eats_token blank_valued ?_
  intro p h
  obtain ⟨q, hq, heat⟩ := h.settle (c := ',') (by decide)
  show Failed n (jsonEat p ',')
  rw [heat, jsonEatNoLog_comma hq]
  unfold toState
  dsimp only
  rw [if_neg]
  . apply failed_jsonError
    show n ≤ q.events.length
    rwa [hq.events_eq]
  . show ¬ q.states.length + 1 < MAXSTATES
    rwa [hq.states_eq]

/--
In the state of a container its row is popped. The comma does not push it again.
-/
theorem reads_comma_popped (hn : n ≤ events.length) (kind : Kind)
    : Reads (At kind.state opened states events) [[',']] (Broken n) := by
  refine eats_token (blank_at (by cases kind <;> rfl)) ?_
  intro p h
  have hlog := h.log ','
  have hclose : ',' ≠ kind.closing := by cases kind <;> decide
  have hblank : isWhiteSpace ',' = false := by decide
  have hle : n ≤ (p.log ',').events.length := by rwa [hlog.events_eq]
  show Broken n (jsonEat p ',')
  have heat : ∃ complete err,
      jsonEat p ',' = eatContainer kind.closing complete err ',' (p.log ',') := by
    cases kind with
    | object => exact ⟨_, _, jsonEat_once (eatOnce_inObject hlog.state_eq ',')⟩
    | array => exact ⟨_, _, jsonEat_once (eatOnce_inArray hlog.state_eq ',')⟩
  obtain ⟨complete, err, heat⟩ := heat
  rw [heat]
  unfold eatContainer
  rw [if_neg hclose, if_neg (by decide)]
  split
  . unfold toState
    dsimp only
    split
    . refine ⟨hle, .inr ?_⟩
      show (p.log ',').stack < (((p.log ',').state :: (p.log ',').states).filterMap State.kind).length
      rw [hlog.state_eq, hlog.states_eq, hlog.count, ← hlog.stack_succ (by simp)]
      exact Nat.lt_succ_self _
    . exact (failed_jsonError hle _).broken
  . rw [if_pos (by rw [hblank]; rfl)]
    exact (failed_jsonError hle _).broken

theorem at_upState (hstates : p.states = st :: states) (hevents : p.events = events)
    (hstack : p.stack = opened.length)
    (hcount : ((st :: states).filterMap State.kind).length = opened.length)
    (hlt : p.stack < MAXSTACK) (hslash : p.isSlash = false) (hnamed : Named p.mem opened.length opened)
    (hvalue : p.mem (valueAddr 0) = NUL)
    : At st opened states events (upState p) := by
  unfold upState
  rw [hstates]
  cases st with
  | inObject | inArray =>
    have hpos : 0 < p.stack := by
      rw [hstack, ← hcount]
      exact Nat.zero_lt_succ _
    dsimp only
    rw [if_pos hpos]
    refine ⟨rfl, rfl, hevents, ?_, hcount, ?_, fun _ => hslash, hnamed,
      (by intro hnone; cases hnone), hvalue⟩
    . show p.stack - 1 + 1 = _
      rw [Nat.sub_add_cancel hpos, hstack]
    . show p.stack - 1 < MAXSTACK
      omega
  | none =>
    have hbelow : nameAddr opened.length ≤ nameAddr p.stack + 0 := by rw [hstack]; exact Nat.le_refl _
    refine ⟨rfl, rfl, hevents, hstack, hcount, hlt, fun _ => hslash, hnamed.update hbelow NUL,
      fun _ => Function.update_self .., ?_⟩
    show Function.update p.mem (nameAddr p.stack + 0) NUL (valueAddr 0) = NUL
    rw [Function.update_of_ne]
    . exact hvalue
    . simp only [nameAddr, valueAddr, MAXNAME, MAXSTACK] at hlt ⊢
      omega
  | toName | inName | toColumn | toValue | inString | inNum | outValue =>
    exact ⟨rfl, rfl, hevents, hstack, hcount, hlt, fun _ => hslash, hnamed,
      (by intro hnone; cases hnone), hvalue⟩

theorem at_complete (h : At kind.state ((kind, name) :: opened) (st :: states) events p)
    : At st opened states (events ++ [kind.complete name]) (jsonEatNoLog kind.closing p) := by
  obtain ⟨hname, hlen, hrows⟩ := h.named
  have hstack : p.stack = opened.length := Nat.succ.inj (h.stack_succ (by simp))
  have hrow : p.name p.stack = name := by
    rw [hstack]
    exact name_eq hname (Nat.le_of_lt hlen)
  have heat : eatOnce kind.closing p = (upState (p.event (kind.complete name)), false) := by
    cases kind with
    | object =>
      rw [eatOnce_inObject h.state_eq, hrow]
      rfl
    | array =>
      rw [eatOnce_inArray h.state_eq, hrow]
      rfl
  rw [jsonEatNoLog_eq, heat]
  have hcount := h.count
  rw [List.filterMap_cons_some (kind_state kind), List.length_cons, List.length_cons] at hcount
  apply at_upState (p := p.event (kind.complete name)) h.states_eq
  . show p.events ++ _ = _
    rw [h.events_eq]
  . exact hstack
  . exact Nat.succ.inj hcount
  . exact h.stack_lt
  . apply h.slash
    cases kind <;> decide
  . exact hrows
  . exact h.value

/--
The closing bracket first takes the states off that the commas saved.
-/
theorem at_close {j : Nat}
    (h : At .outValue ((kind, name) :: opened)
      (List.replicate j .outValue ++ kind.state :: st :: states) events p)
    : At st opened states (events ++ [kind.complete name]) (jsonEatNoLog kind.closing p) := by
  have hpass : ∀ q : ParserData, q.state = .outValue → jsonEatNoLog kind.closing q
      = jsonEatNoLog kind.closing (upState q) := by
    intro q hq
    have hblank : isWhiteSpace kind.closing = false := by cases kind <;> decide
    have hcomma : kind.closing ≠ ',' := by cases kind <;> decide
    rw [jsonEatNoLog_eq]
    simp [eatOnce, hq, hblank, hcomma]
  have hcount := h.count
  induction j generalizing p with
  | zero =>
    rw [hpass p h.state_eq]
    apply at_complete
    exact at_upState h.states_eq h.events_eq (h.stack_eq rfl) hcount h.stack_lt
      (h.slash (by decide)) h.named h.value
  | succ j ih =>
    rw [hpass p h.state_eq]
    have hup := at_upState h.states_eq h.events_eq (h.stack_eq rfl) hcount h.stack_lt
      (h.slash (by decide)) h.named h.value
    exact ih hup hup.count

/--
Behind the last member of a container.
-/
def Ended (kind : Kind) (name : List Char) (opened : List (Kind × List Char)) (states : List State)
    (events : List Event) (p : ParserData) : Prop :=
  (∃ j, Valued ((kind, name) :: opened) (List.replicate j .outValue ++ kind.state :: states) events p)
    ∨ At kind.state ((kind, name) :: opened) states events p

theorem reads_close
    : Reads (Ended kind name opened (st :: states) events) [[kind.closing]]
        (At st opened states (events ++ [kind.complete name])) := by
  apply eats_token
  . rintro p c (⟨j, h⟩ | h) hc
    . exact .inl ⟨j, blank_valued p c h hc⟩
    . exact .inr (blank_at (by cases kind <;> rfl) p c h hc)
  . rintro p (⟨j, h⟩ | h)
    . obtain ⟨q, hq, heat⟩ := h.settle (c := kind.closing) (by cases kind <;> decide)
      show At st opened states _ (jsonEat p kind.closing)
      rw [heat]
      exact at_close hq
    . show At st opened states _ (jsonEat p kind.closing)
      rw [jsonEat_eq]
      exact at_complete (h.log _)

/--
The tokens are read right if `ok` holds, and else the parser goes `bad`.
-/
structure Settles (ok : Prop) (P : ParserData → Prop) (tokens : List (List Char))
    (Q bad : ParserData → Prop) : Prop where
  reads : ok → Reads P tokens Q
  breaks : ¬ ok → Reads P tokens bad

variable {P Q R bad : ParserData → Prop} {tokens xs ys : List (List Char)} {ok ok' : Prop}

theorem Reads.settles (h : Reads P tokens Q) : Settles True P tokens Q bad :=
  ⟨fun _ => h, fun hno => absurd trivial hno⟩

/--
Nothing that is read later makes up for what went bad.
-/
theorem Settles.append (hxs : Settles ok P xs Q bad) (hbad : ∀ p c, bad p → bad (jsonEat p c))
    (hys : ok → Settles ok' Q ys R bad)
    : Settles (ok ∧ ok') P (xs ++ ys) R bad := by
  constructor
  . rintro ⟨h, h'⟩
    exact Eats.append (hxs.reads h) ((hys h).reads h')
  . intro hno
    by_cases h : ok
    . have h' : ¬ ok' := fun h' => hno ⟨h, h'⟩
      exact Eats.append (hxs.reads h) ((hys h).breaks h')
    . exact Eats.append (hxs.breaks h) (eats_of_step hbad ys)

theorem Settles.congr (h : Settles ok P tokens Q bad) (hiff : ok' ↔ ok)
    : Settles ok' P tokens Q bad :=
  ⟨fun hok => h.reads (hiff.mp hok), fun hno => h.breaks (mt hiff.mpr hno)⟩

theorem Settles.weaken (h : Settles ok P tokens Q bad) (hweak : ∀ p, Q p → R p)
    : Settles ok P tokens R bad :=
  ⟨fun hok p hp text htext => hweak _ (h.reads hok p hp text htext), h.breaks⟩

theorem Settles.broken (h : Settles ok P tokens Q (Failed n)) : Settles ok P tokens Q (Broken n) :=
  ⟨h.reads, fun hno p hp text htext => (h.breaks hno p hp text htext).broken⟩

/--
Behind a value that was begun with the saved states `st :: states`. A container has taken one off.
-/
def After (value : Value) (opened : List (Kind × List Char)) (st : State) (states : List State)
    (events : List Event) (p : ParserData) : Prop :=
  match value with
  | .container _ _ => At st opened states events p
  | _ => Valued opened (st :: states) events p

/--
Behind a member of a container in which commas have saved `j` states.
-/
def AfterMember (value : Value) (kind : Kind) (opened : List (Kind × List Char)) (j : Nat)
    (states : List State) (events : List Event) : ParserData → Prop :=
  match j with
  | 0 => After value opened kind.state states events
  | j + 1 => After value opened .outValue (List.replicate j .outValue ++ kind.state :: states) events

theorem afterMember_ended {value : Value} {j : Nat}
    (h : AfterMember value kind ((kind, name) :: opened) j states events p)
    : Ended kind name opened states events p := by
  cases j with
  | zero =>
    cases value with
    | container kind' members => exact .inr h
    | string s => exact .inl ⟨0, h⟩
    | integer i => exact .inl ⟨0, h⟩
  | succ j =>
    cases value with
    | container kind' members => exact .inl ⟨j, .inl h⟩
    | string s => exact .inl ⟨j + 1, h⟩
    | integer i => exact .inl ⟨j + 1, h⟩

theorem comma_valued (kind : Kind) (name : List Char) (opened : List (Kind × List Char)) (j : Nat)
    (states : List State) {events : List Event} (hn : n ≤ events.length)
    : Settles (states.length + 1 + (j + 1) < MAXSTATES)
        (Valued ((kind, name) :: opened) (List.replicate j .outValue ++ kind.state :: states) events)
        [[',']]
        (At .toName ((kind, name) :: opened)
          (List.replicate (j + 1) .outValue ++ kind.state :: states) events)
        (Failed n) := by
  have hlength : (List.replicate j State.outValue ++ kind.state :: states).length + 1
      = states.length + 1 + (j + 1) := by
    rw [List.length_append, List.length_replicate, List.length_cons]
    omega
  rw [← hlength]
  exact ⟨reads_comma, reads_comma_failed hn⟩

/--
The comma behind a member. It must not follow a container that is the first member, and it needs
room to save a state unless it follows a container.
-/
theorem comma_settles (value : Value) (kind : Kind) (name : List Char)
    (opened : List (Kind × List Char)) (j : Nat) (states : List State) {events : List Event}
    (hn : n ≤ events.length) {first : Bool} (hfirst : first = true ↔ j = 0)
    : let j' := if value.isContainer then j else j + 1
      Settles
        (¬ (first = true ∧ value.isContainer = true) ∧ states.length + 1 + j' < MAXSTATES)
        (AfterMember value kind ((kind, name) :: opened) j states events) [[',']]
        (At .toName ((kind, name) :: opened) (List.replicate j' .outValue ++ kind.state :: states)
          events) (Broken n) := by
  have hvalued := fun j => (comma_valued kind name opened j states hn).broken
  by_cases hcontainer : value.isContainer = true
  . cases value with
    | string s | integer i => cases hcontainer
    | container kind' members =>
      cases j with
      | zero =>
        have hbad : first = true := hfirst.mpr rfl
        exact ⟨fun h => absurd ⟨hbad, rfl⟩ h.1, fun _ => reads_comma_popped hn kind⟩
      | succ j =>
        have hgood : first ≠ true := fun h => by cases hfirst.mp h
        refine Settles.congr ⟨fun h p hp => ?_, fun h p hp => ?_⟩ (and_iff_right (fun h => hgood h.1))
        . exact (hvalued j).reads h p (.inl hp)
        . exact (hvalued j).breaks h p (.inl hp)
  . have hafter : AfterMember value kind ((kind, name) :: opened) j states events
        = Valued ((kind, name) :: opened) (List.replicate j .outValue ++ kind.state :: states)
          events := by
      cases value with
      | container kind' members => exact absurd rfl hcontainer
      | string s | integer i =>
        cases j with
        | zero => rfl
        | succ j => rfl
    rw [hafter, if_neg hcontainer]
    exact (hvalued j).congr (and_iff_right fun h => hcontainer h.2)

end

theorem member_start (name : Name) (opened : List (Kind × List Char)) (states : List State)
    (events : List Event) (bad : ParserData → Prop)
    : Settles True (At .toName opened states events) [quoted name.text, [':']]
        (Ready opened states events name.text) bad :=
  Reads.settles (Eats.append (reads_name name) reads_column)

/--
A value as a member. The saved state that it returns to depends on the commas before it.
-/
theorem settles_member {value : Value} {n : Nat} {events : List Event}
    (h : ∀ (opened : List (Kind × List Char)) (st : State) (states : List State)
      (events : List Event) (name : List Char) (n : Nat), n ≤ events.length →
      opened ≠ [] ∨ value.isContainer = true →
      Settles (value.Fits (states.length + 1) opened.length ∧ value.Regular)
        (Ready opened (st :: states) events name) value.tokens
        (After value opened st states (events ++ value.events atoiOf name)) (Broken n))
    (kind : Kind) (name : List Char) (opened : List (Kind × List Char)) (j : Nat)
    (states : List State) (name' : List Char) (hn : n ≤ events.length)
    : Settles (value.Fits (states.length + 1 + j) (opened.length + 1) ∧ value.Regular)
        (Ready ((kind, name) :: opened) (List.replicate j .outValue ++ kind.state :: states) events
          name')
        value.tokens
        (AfterMember value kind ((kind, name) :: opened) j states
          (events ++ value.events atoiOf name')) (Broken n) := by
  cases j with
  | zero => exact h _ kind.state states events name' n hn (.inl (List.cons_ne_nil _ _))
  | succ j =>
    have hmember := h ((kind, name) :: opened) .outValue
      (List.replicate j .outValue ++ kind.state :: states) events name' n hn
      (.inl (List.cons_ne_nil _ _))
    have hlength : (List.replicate j State.outValue ++ kind.state :: states).length + 1
        = states.length + 1 + (j + 1) := by
      rw [List.length_append, List.length_replicate, List.length_cons]
      omega
    rw [hlength] at hmember
    exact hmember

mutual

theorem value_settles (value : Value) (opened : List (Kind × List Char)) (st : State)
    (states : List State) (events : List Event) (name : List Char) (n : Nat)
    (hn : n ≤ events.length) (hopened : opened ≠ [] ∨ value.isContainer = true)
    : Settles (value.Fits (states.length + 1) opened.length ∧ value.Regular)
        (Ready opened (st :: states) events name) value.tokens
        (After value opened st states (events ++ value.events atoiOf name)) (Broken n) := by
  match value with
  | .string s =>
    have hne : opened ≠ [] := by simpa [Value.isContainer] using hopened
    exact (reads_string s hne).settles.congr (by simp [Value.Fits, Value.Regular])
  | .integer i =>
    have hne : opened ≠ [] := by simpa [Value.isContainer] using hopened
    exact (reads_integer i hne).settles.congr (by simp [Value.Fits, Value.Regular])
  | .container kind members =>
    have hn' : n ≤ (events ++ [kind.start name]).length := by
      rw [List.length_append]
      omega
    have hopen : Settles (opened.length + 1 < MAXSTACK ∧ (st :: states).length + 1 < MAXSTATES)
        (Ready opened (st :: states) events name) [[kind.opening]]
        (At .toName ((kind, name) :: opened) (kind.state :: st :: states)
          (events ++ [kind.start name])) (Broken n) :=
      Settles.broken ⟨fun h => reads_open h.1 h.2 kind, fun h => reads_open_failed hn h kind⟩
    have hmembers := members_settle members kind name opened 0 (st :: states)
      (events ++ [kind.start name]) n true hn' (by simp)
    have hclose : Settles True
        (Ended kind name opened (st :: states)
          (events ++ [kind.start name] ++ members.events atoiOf))
        [[kind.closing]]
        (At st opened states
          (events ++ [kind.start name] ++ members.events atoiOf ++ [kind.complete name])) (Broken n) :=
      reads_close.settles
    have hall := (hopen.append broken_jsonEat fun _ => hmembers).append broken_jsonEat fun _ => hclose
    have hevents : events ++ (Value.container kind members).events atoiOf name
        = events ++ [kind.start name] ++ members.events atoiOf ++ [kind.complete name] := by
      rw [Value.events]
      simp
    have htokens : (Value.container kind members).tokens
        = [[kind.opening]] ++ members.tokens ++ [[kind.closing]] := by
      rw [Value.tokens]
      rfl
    rw [hevents, htokens]
    apply hall.congr
    simp only [Value.Fits, Value.Regular, List.length_cons, Nat.add_zero, and_true, and_assoc]

theorem members_settle (members : Members) (kind : Kind) (name : List Char)
    (opened : List (Kind × List Char)) (j : Nat) (states : List State) (events : List Event)
    (n : Nat) (first : Bool) (hn : n ≤ events.length) (hfirst : first = true ↔ j = 0)
    : Settles (members.Fits (states.length + 1 + j) (opened.length + 1) ∧ members.Regular first)
        (At .toName ((kind, name) :: opened) (List.replicate j .outValue ++ kind.state :: states)
          events)
        members.tokens (Ended kind name opened states (events ++ members.events atoiOf)) (Broken n) := by
  match members with
  | .one name' value =>
    have hstart := member_start name' ((kind, name) :: opened)
      (List.replicate j .outValue ++ kind.state :: states) events (Broken n)
    have hvalue := settles_member (value_settles value) kind name opened j states name'.text hn
    apply ((hstart.append broken_jsonEat fun _ => hvalue).weaken fun p hp => afterMember_ended hp).congr
    simp only [Members.Fits, Members.Regular, true_and]
  | .more name' value rest =>
    have hn' : n ≤ (events ++ value.events atoiOf name'.text).length := by
      rw [List.length_append]
      omega
    have hstart := member_start name' ((kind, name) :: opened)
      (List.replicate j .outValue ++ kind.state :: states) events (Broken n)
    have hvalue := settles_member (value_settles value) kind name opened j states name'.text hn
    have hcomma := comma_settles value kind name opened j states hn' hfirst
    -- Behind the comma a state has been saved, so that this is no longer the first member.
    have hrest : ¬ (first = true ∧ value.isContainer = true) →
        (false = true ↔ (if value.isContainer then j else j + 1) = 0) := by
      intro hgood
      simp only [Bool.false_eq_true, false_iff]
      split
      . next hcontainer =>
        intro hzero
        exact hgood ⟨hfirst.mpr hzero, hcontainer⟩
      . exact Nat.succ_ne_zero j
    have hall := ((hstart.append broken_jsonEat fun _ => hvalue).append broken_jsonEat fun _ =>
      hcomma).append broken_jsonEat fun h =>
      members_settle rest kind name opened _ states _ n false hn' (hrest h.2.1)
    have hevents : events ++ (Members.more name' value rest).events atoiOf
        = events ++ value.events atoiOf name'.text ++ rest.events atoiOf := by
      rw [Members.events]
      simp
    rw [hevents, Members.tokens]
    apply hall.congr
    have hstates : (if value.isContainer then states.length + 1 + j else states.length + 1 + j + 1)
        = states.length + 1 + (if value.isContainer then j else j + 1) := by
      split <;> rfl
    simp only [Members.Fits, Members.Regular, hstates, true_and]
    constructor
    . rintro ⟨⟨hfits, hroom, hfits'⟩, hgood, hregular, hregular'⟩
      exact ⟨⟨⟨hfits, hregular⟩, hgood, hroom⟩, hfits', hregular'⟩
    . rintro ⟨⟨⟨hfits, hregular⟩, hgood, hroom⟩, hfits', hregular'⟩
      exact ⟨⟨hfits, hroom, hfits'⟩, hgood, hregular, hregular'⟩

end

theorem reads_docOpen {events : List Event}
    : Reads (At .none [] [] events) [[Kind.object.opening]]
        (At .toName [(.object, [])] [.inObject, .none] (events ++ [.objectStart []])) := by
  refine eats_token (blank_at rfl) ?_
  intro p h
  have hlog := h.log '{'
  have hname : NameIs [] (p.log '{') := ⟨hlog.unnamed rfl, Nat.zero_lt_succ _⟩
  have heat : jsonEat p '{' = { toState .toName (toState .inObject
      ((p.log '{').event (.objectStart []))) with allowComma := false } := by
    apply jsonEat_once
    simp [eatOnce, hlog.state_eq, name_eq hname.1 (Nat.zero_le _)]
  generalize hq : (p.log '{').event (.objectStart []) = q at heat
  have hat : At .none [] [.none] (events ++ [.objectStart []]) { q with states := [.none] } := by
    have hevent := hlog.event (.objectStart [])
    rw [hq] at hevent
    exact ⟨hevent.state_eq, rfl, hevent.events_eq, hevent.top, rfl, hevent.stack_lt, hevent.slash,
      trivial, hevent.unnamed, hevent.value⟩
  have hsave : toState .inObject q = setState .inObject { q with states := [.none] } := by
    have hstate : q.state = .none := by rw [← hq]; exact hlog.state_eq
    have hstates : q.states = [] := by rw [← hq]; exact hlog.states_eq
    unfold toState
    rw [hstate, hstates]
    rfl
  have hpush := at_push hat rfl (by rw [← hq]; exact hname) (by decide) (by decide) .object
    (hat.slash (by decide))
  show At .toName _ _ _ (jsonEat p '{')
  rw [heat, hsave]
  exact ⟨hpush.state_eq, hpush.states_eq, hpush.events_eq, hpush.top, hpush.count, hpush.stack_lt,
    hpush.slash, hpush.named, hpush.unnamed, hpush.value⟩

theorem doc_settles (d : Doc) {events : List Event} {n : Nat} (hn : n ≤ events.length)
    : Settles (d.Fits ∧ d.Regular) (At .none [] [] events) d.tokens
        (At .none [] [] (events ++ d.events atoiOf)) (Broken n) := by
  obtain ⟨name, members⟩ := d
  cases name with
  | some name =>
    have hstart : Settles True (At .none [] [] events) [quoted name.text, [':']]
        (Ready [] [.none] events name.text) (Broken n) :=
      Reads.settles (Eats.append (reads_docName name) reads_column)
    have hvalue := value_settles (.container .object members) [] .none [] events name.text n hn
      (.inr rfl)
    apply (hstart.append broken_jsonEat fun _ => hvalue).congr
    simp only [Doc.Fits, Doc.Regular, Value.Regular, List.length_nil, Nat.zero_add, true_and]
  | none =>
    have hn' : n ≤ (events ++ [Event.objectStart []]).length := by
      rw [List.length_append]
      omega
    have hstart : Settles True (At .none [] [] events) [[Kind.object.opening]]
        (At .toName [(.object, [])] [.inObject, .none] (events ++ [.objectStart []])) (Broken n) :=
      reads_docOpen.settles
    have hmembers := members_settle members .object [] [] 0 [.none] (events ++ [.objectStart []]) n
      true hn' (by simp)
    have hclose : Settles True
        (Ended .object [] [] [.none] (events ++ [.objectStart []] ++ members.events atoiOf))
        [[Kind.object.closing]]
        (At .none [] []
          (events ++ [.objectStart []] ++ members.events atoiOf ++ [.objectComplete []])) (Broken n) :=
      reads_close.settles
    have hall := (hstart.append broken_jsonEat fun _ => hmembers).append broken_jsonEat fun _ => hclose
    have hevents : events ++ Doc.events atoiOf ⟨none, members⟩
        = events ++ [.objectStart []] ++ members.events atoiOf ++ [.objectComplete []] := by
      simp [Doc.events, Value.events, Doc.nameText, Kind.start, Kind.complete]
    have htokens : Doc.tokens ⟨none, members⟩
        = [[Kind.object.opening]] ++ members.tokens ++ [[Kind.object.closing]] := by
      rw [Doc.tokens, Value.tokens]
      rfl
    rw [hevents, htokens]
    apply hall.congr
    have hroom : 0 + 1 < MAXSTACK ∧ 1 + 1 < MAXSTATES := by decide
    simp only [Doc.Fits, Doc.Regular, Value.Fits, hroom.1, hroom.2, true_and, and_true]
    rfl

/--
`jsonReset` leaves the parser like this. The permission for a comma is granted anew wherever it is
asked for, and the rest only feeds the texts of errors.
-/
structure Fresh (p : ParserData) : Prop where
  state : p.state = .none
  states : p.states = []
  stack : p.stack = 0
  slash : p.isSlash = false
  name : p.name 0 = []
  value : p.value 0 = []

/--
From `jsonReset` on the parser reports the events of the object and nothing else, and comes back to
where it was.
-/
structure Correct (p : ParserData) (d : Doc) (text : List Char) : Prop where
  events : trace eatStep (jsonReset p) text = d.events Numeral.value
  fresh : Fresh (exec eatStep (jsonReset p) text)

theorem At.fresh {p : ParserData} {events : List Event} (h : At .none [] [] events p) : Fresh p := by
  have hstack := h.stack_eq rfl
  refine ⟨h.state_eq, h.states_eq, hstack, h.slash (by decide), ?_, ?_⟩
  . apply name_eq
    . have := h.unnamed rfl
      rwa [hstack] at this
    . exact Nat.zero_le _
  . exact value_eq h.value (Nat.zero_le _)

theorem at_jsonReset (p : ParserData) : At .none [] [] p.events (jsonReset p) := by
  rw [jsonReset_eq]
  refine ⟨rfl, rfl, rfl, rfl, rfl, Nat.zero_lt_succ _, fun _ => rfl, trivial, fun _ => ?_, ?_⟩
  . show Function.update (Function.update p.mem (nameAddr 0) NUL) (valueAddr 0) NUL (nameAddr 0) = NUL
    rw [Function.update_of_ne (by decide), Function.update_self]
  . show Function.update (Function.update p.mem (nameAddr 0) NUL) (valueAddr 0) NUL (valueAddr 0) = NUL
    rw [Function.update_self]

theorem not_broken_of_correct {p : ParserData} {d : Doc} {text : List Char} (h : Correct p d text)
    : ¬ Broken p.events.length (exec eatStep (jsonReset p) text) := by
  intro hbroken
  have hevents := events_exec (jsonReset p) text
  rw [h.events] at hevents
  rcases hbroken.broken with ⟨e, he, herr⟩ | hdeficit
  . rw [hevents] at he
    have hmem : e ∈ d.events Numeral.value := by
      rwa [show (jsonReset p).events = p.events from rfl, List.drop_left] at he
    have hno : e.isError = false := value_isError _ _ _ e hmem
    rw [hno] at herr
    cases herr
  . unfold Deficit at hdeficit
    rw [h.fresh.stack, h.fresh.states] at hdeficit
    exact Nat.lt_irrefl 0 hdeficit

/--
An object is read right exactly if it has room, no container is the first of several members and
the integers are integers of the program.
-/
theorem correct_iff (p : ParserData) {d : Doc} {text : List Char} (htext : d.IsText text)
    : Correct p d text ↔ (d.Fits ∧ d.Regular) ∧ ∀ n ∈ d.members.numerals, n.IsInt := by
  obtain ⟨body, space, rfl, hbody, hspace⟩ := htext
  have hsettles := doc_settles d (Nat.le_refl p.events.length)
  have hstart := at_jsonReset p
  have hread : d.Fits ∧ d.Regular →
      At .none [] [] (p.events ++ d.events atoiOf) (exec eatStep (jsonReset p) (body ++ space)) := by
    intro hok
    rw [exec_append]
    exact exec_blanks (blank_at rfl) (hsettles.reads hok _ hstart body hbody) hspace
  have htrace : d.Fits ∧ d.Regular →
      trace eatStep (jsonReset p) (body ++ space) = d.events atoiOf := by
    intro hok
    have hevents := events_exec (jsonReset p) (body ++ space)
    rw [(hread hok).events_eq] at hevents
    exact (List.append_cancel_left hevents).symm
  constructor
  . intro hcorrect
    have hok : d.Fits ∧ d.Regular := by
      by_contra hno
      apply not_broken_of_correct hcorrect
      have hbroken := hsettles.breaks hno _ hstart body hbody
      rw [exec_append]
      exact hbroken.keeps (keeps_run _ _)
    refine ⟨hok, ?_⟩
    rw [← events_atoiOf_iff, ← htrace hok]
    exact hcorrect.events
  . rintro ⟨hok, hint⟩
    refine ⟨?_, (hread hok).fresh⟩
    rw [htrace hok]
    exact (events_atoiOf_iff d).mpr hint

/--
The texts within the limits of the parser that it reads right.
-/
theorem correct_iff_regular (p : ParserData) (d : Doc) (text : List Char) (htext : d.IsText text)
    (hfits : d.Fits)
    : Correct p d text ↔ d.Regular ∧ ∀ n ∈ d.members.numerals, n.IsInt := by
  rw [correct_iff p htext]
  constructor
  . rintro ⟨⟨-, hregular⟩, hint⟩
    exact ⟨hregular, hint⟩
  . rintro ⟨hregular, hint⟩
    exact ⟨⟨hfits, hregular⟩, hint⟩

/--
`"d":{"a":-1,"b":["c":+2]}`
-/
def arrayLast : Doc where
  name := some ⟨['d'], by decide, by decide⟩
  members :=
    .more ⟨['a'], by decide, by decide⟩
      (.integer ⟨.minus, ['1'], by decide, by decide, by decide⟩)
      (.one ⟨['b'], by decide, by decide⟩
        (.container .array
          (.one ⟨['c'], by decide, by decide⟩
            (.integer ⟨.plus, ['2'], by decide, by decide, by decide⟩))))

theorem correct_iff_regular_arrayLast : Correct .init arrayLast arrayLast.tokens.flatten := by
  apply (correct_iff_regular .init arrayLast arrayLast.tokens.flatten (isText_flatten arrayLast)
    _).mpr
  . refine ⟨⟨by simp [Value.isContainer], trivial, trivial⟩, ?_⟩
    intro n hn
    simp only [arrayLast, Members.numerals, Value.numerals, List.cons_append, List.nil_append,
      List.mem_cons, List.not_mem_nil, or_false] at hn
    rcases hn with rfl | rfl
    . exact ⟨by decide, by decide⟩
    . exact ⟨by decide, by decide⟩
  . simp [arrayLast, Doc.Fits, Value.Fits, Members.Fits, Value.isContainer, MAXSTACK, MAXSTATES]

/--
`{"a":{"b":1},"c":2}`
-/
def objectFirst : Doc where
  name := none
  members :=
    .more ⟨['a'], by decide, by decide⟩
      (.container .object
        (.one ⟨['b'], by decide, by decide⟩
          (.integer ⟨.none, ['1'], by decide, by decide, by decide⟩)))
      (.one ⟨['c'], by decide, by decide⟩
        (.integer ⟨.none, ['2'], by decide, by decide, by decide⟩))

/--
The second member makes the parser report an internal error.
-/
theorem objectFirst_not_correct
    : ¬ ∀ d text, Doc.IsText d text → d.Fits → Correct .init d text := by
  intro h
  have hcorrect := h objectFirst objectFirst.tokens.flatten (isText_flatten objectFirst)
    (by simp [objectFirst, Doc.Fits, Value.Fits, Members.Fits, Value.isContainer, MAXSTACK,
      MAXSTATES])
  have hevents := hcorrect.events
  revert hevents
  decide +kernel

end Json
