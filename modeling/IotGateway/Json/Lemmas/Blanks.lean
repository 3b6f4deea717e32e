import IotGateway.Json.Lemmas.Tokens

/-!
This module says when the parser does not miss the blanks that are taken out of a text.
-/

namespace Json

open CString Machine

/--
A relation between two parsers that stays whatever a pass is made of, for characters that are `ok`.
-/
structure Kept (ok : Char → Prop) (R : ParserData → ParserData → Prop) : Prop where
  nul : ok NUL
  slash : ok '\\'
  agree : ∀ {p q}, R p q → q.state = p.state ∧ q.states = p.states ∧ q.allowComma = p.allowComma
    ∧ q.isSlash = p.isSlash ∧ q.stack = p.stack ∧ q.mem = p.mem
  onState : ∀ {p q}, R p q → ∀ state, R { p with state } { q with state }
  onStates : ∀ {p q}, R p q → ∀ states, R { p with states } { q with states }
  onComma : ∀ {p q}, R p q → ∀ allowComma, R { p with allowComma } { q with allowComma }
  onSlash : ∀ {p q}, R p q → ∀ isSlash, R { p with isSlash } { q with isSlash }
  onStack : ∀ {p q}, R p q → ∀ stack, R { p with stack } { q with stack }
  storeName : ∀ {p q}, R p q → ∀ {c}, ok c → ∀ index, R (p.storeName index c) (q.storeName index c)
  storeValue : ∀ {p q}, R p q → ∀ {c}, ok c → ∀ index,
    R (p.storeValue index c) (q.storeValue index c)
  event : ∀ {p q}, R p q → ∀ e, (∀ name value, e = .string name value → value = p.value p.stack) →
    R (p.event e) (q.event e)
  jsonError : ∀ {p q}, R p q → ∀ err, R (jsonError err p) (jsonError err q)
  log : ∀ {p q}, R p q → ∀ {c}, ok c → R (p.log c) (q.log c)

namespace Kept

variable {ok : Char → Prop} {R : ParserData → ParserData → Prop} {p q : ParserData} {c : Char}

theorem name_eq (k : Kept ok R) (h : R p q) : q.name q.stack = p.name p.stack := by
  obtain ⟨-, -, -, -, hstack, hmem⟩ := k.agree h
  unfold ParserData.name
  rw [hstack, hmem]

theorem value_eq (k : Kept ok R) (h : R p q) : q.value q.stack = p.value p.stack := by
  obtain ⟨-, -, -, -, hstack, hmem⟩ := k.agree h
  unfold ParserData.value
  rw [hstack, hmem]

/--
All events but those of strings.
-/
theorem tell (k : Kept ok R) (h : R p q) (e : Event) (he : ∀ name value, e ≠ .string name value)
    : R (p.event e) (q.event e) :=
  k.event h e fun name value heq => absurd heq (he name value)

theorem appendName (k : Kept ok R) (h : R p q) (hc : ok c)
    : R (Json.appendName c p) (Json.appendName c q) := by
  unfold Json.appendName
  simp only [k.name_eq h]
  split
  . exact k.storeName (k.storeName h hc _) k.nul _
  . exact k.jsonError h _

theorem appendValue (k : Kept ok R) (h : R p q) (hc : ok c)
    : R (Json.appendValue c p) (Json.appendValue c q) := by
  unfold Json.appendValue
  simp only [k.value_eq h]
  split
  . exact k.storeValue (k.storeValue h hc _) k.nul _
  . exact k.jsonError h _

theorem enter (k : Kept ok R) (h : R p q) (st : State) : R (setState st p) (setState st q) := by
  have hstate := k.onState h st
  cases st with
  | inName => exact k.storeName hstate k.nul 0
  | toValue => exact k.storeValue hstate k.nul 0
  | inObject | inArray =>
    obtain ⟨-, -, -, -, hstack, -⟩ := k.agree h
    have hpush := k.onStack hstate (p.stack + 1)
    unfold Json.setState
    simp only [hstack]
    split
    . exact k.storeName hpush k.nul 0
    . exact k.jsonError hpush _
  | none | toName | toColumn | inString | inNum | outValue => exact hstate

theorem toState (k : Kept ok R) (h : R p q) (st : State)
    : R (Json.toState st p) (Json.toState st q) := by
  obtain ⟨hstate, hstates, -⟩ := k.agree h
  have hpush := k.onStates h (p.state :: p.states)
  unfold Json.toState
  simp only [hstate, hstates]
  split
  . exact k.enter hpush st
  . exact k.jsonError hpush _

theorem upState (k : Kept ok R) (h : R p q) : R (Json.upState p) (Json.upState q) := by
  obtain ⟨-, hstates, -, -, hstack, -⟩ := k.agree h
  unfold Json.upState
  rw [hstates]
  cases p.states with
  | nil => exact k.jsonError h _
  | cons st states =>
    have hpop := k.onStates (k.onState h st) states
    cases st with
    | inObject | inArray =>
      simp only [hstack]
      split
      . exact k.onComma (k.onStack hpop (p.stack - 1)) true
      . exact k.jsonError hpop _
    | none => exact k.storeName hpop k.nul 0
    | toName | inName | toColumn | toValue | inString | inNum | outValue => exact hpop

theorem eatContainer (k : Kept ok R) (h : R p q) (close : Char) (complete : Event)
    (hcomplete : ∀ name value, complete ≠ .string name value) (err : Err) (c : Char)
    : R (Json.eatContainer close complete err c p) (Json.eatContainer close complete err c q) := by
  obtain ⟨-, -, hcomma, -⟩ := k.agree h
  unfold Json.eatContainer
  rw [hcomma]
  split_ifs
  . exact k.upState (k.tell h complete hcomplete)
  . exact k.toState h _
  . exact k.toState (k.onComma h false) _
  . exact k.jsonError h _
  . exact h

theorem eatOnce (k : Kept ok R) (h : R p q) (hc : ok c)
    : R (Json.eatOnce c p).1 (Json.eatOnce c q).1 ∧ (Json.eatOnce c q).2 = (Json.eatOnce c p).2 := by
  obtain ⟨hstate, -, -, hslash, -⟩ := k.agree h
  have hname := k.name_eq h
  have hvalue := k.value_eq h
  cases hst : p.state with
  | inObject =>
    rw [eatOnce_inObject hst, eatOnce_inObject (hstate.trans hst), hname]
    exact ⟨k.eatContainer h _ (.objectComplete _) (by simp) _ c, rfl⟩
  | inArray =>
    rw [eatOnce_inArray hst, eatOnce_inArray (hstate.trans hst), hname]
    exact ⟨k.eatContainer h _ (.arrayComplete _) (by simp) _ c, rfl⟩
  | inString =>
    rw [eatOnce_inString hst, eatOnce_inString (hstate.trans hst), hname, hvalue, hslash]
    refine ⟨?_, rfl⟩
    dsimp only
    split_ifs
    . exact k.onSlash h true
    . exact k.appendValue (k.appendValue (k.onSlash h false) k.slash) hc
    . refine k.enter (k.event h _ ?_) _
      rintro name value heq
      obtain ⟨-, rfl⟩ := Event.string.inj heq
      rfl
    . exact k.appendValue h hc
  | toValue =>
    rw [eatOnce_toValue hst, eatOnce_toValue (hstate.trans hst), hname]
    refine ⟨?_, rfl⟩
    dsimp only
    split_ifs
    . exact k.enter (k.onSlash h false) _
    . exact k.enter (k.appendValue h hc) _
    . exact k.toState (k.enter (k.tell h (.arrayStart _) (by simp)) _) _
    . exact k.toState (k.enter (k.tell h (.objectStart _) (by simp)) _) _
    . exact k.jsonError h _
    . exact h
  | none =>
    simp only [Json.eatOnce, hst, hstate.trans hst, hname]
    split_ifs
    . exact ⟨k.onComma (k.toState (k.toState (k.tell h (.objectStart _) (by simp)) _) _) false, rfl⟩
    . exact ⟨k.toState h _, rfl⟩
    . exact ⟨h, rfl⟩
  | toName =>
    simp only [Json.eatOnce, hst, hstate.trans hst]
    split_ifs
    . exact ⟨k.enter h .inName, rfl⟩
    . exact ⟨k.jsonError h _, rfl⟩
    . exact ⟨h, rfl⟩
  | inName =>
    simp only [Json.eatOnce, hst, hstate.trans hst]
    split_ifs
    . exact ⟨k.enter h .toColumn, rfl⟩
    . exact ⟨k.appendName h hc, rfl⟩
    . exact ⟨k.jsonError h _, rfl⟩
  | toColumn =>
    simp only [Json.eatOnce, hst, hstate.trans hst]
    split_ifs
    . exact ⟨k.enter h .toValue, rfl⟩
    . exact ⟨k.jsonError h _, rfl⟩
    . exact ⟨h, rfl⟩
  | inNum =>
    simp only [Json.eatOnce, hst, hstate.trans hst, hname, hvalue]
    split_ifs
    . exact ⟨k.appendValue h hc, rfl⟩
    . exact ⟨k.enter (k.tell h (.integer _ _) (by simp)) .outValue, rfl⟩
  | outValue =>
    simp only [Json.eatOnce, hst, hstate.trans hst]
    split_ifs
    . exact ⟨k.toState h _, rfl⟩
    . exact ⟨k.upState h, rfl⟩
    . exact ⟨h, rfl⟩

theorem jsonEatNoLog (k : Kept ok R) (h : R p q) (hc : ok c)
    : R (Json.jsonEatNoLog c p) (Json.jsonEatNoLog c q) := by
  generalize hn : p.passes = n
  induction n using Nat.strongRecOn generalizing p q with
  | ind n ih =>
    obtain ⟨honce, hagain⟩ := k.eatOnce h hc
    rw [jsonEatNoLog_eq c p, jsonEatNoLog_eq c q, hagain]
    split
    . next hnext =>
      apply ih (Json.eatOnce c p).1.passes
      . rw [← hn]
        exact passes_eatOnce_lt hnext
      . exact honce
      . rfl
    . exact honce

/--
A relation that stays in all parts of a pass stays.
-/
theorem jsonEat (k : Kept ok R) (h : R p q) (hc : ok c) : R (Json.jsonEat p c) (Json.jsonEat q c) := by
  rw [jsonEat_eq, jsonEat_eq]
  exact k.jsonEatNoLog (k.log h hc) hc

end Kept

def isSolid (c : Char) : Bool := c != ' ' && c != '\t'

/--
Without what an error tells of the characters before it.
-/
def Event.blind : Event → Event
  | .error err errtext _ => .error err errtext []
  | e => e

/--
The parsers differ in the number of characters since the last error, and in what their errors tell.
-/
def Alike (p q : ParserData) : Prop :=
  ∃ numchars events, q = { p with numchars, events }
    ∧ events.map Event.blind = p.events.map Event.blind

theorem alike_kept : Kept (fun _ => True) Alike where
  nul := trivial
  slash := trivial
  agree := by
    rintro p _ ⟨numchars, events, rfl, -⟩
    exact ⟨rfl, rfl, rfl, rfl, rfl, rfl⟩
  onState := by
    rintro p _ ⟨numchars, events, rfl, hevents⟩ state
    exact ⟨numchars, events, rfl, hevents⟩
  onStates := by
    rintro p _ ⟨numchars, events, rfl, hevents⟩ states
    exact ⟨numchars, events, rfl, hevents⟩
  onComma := by
    rintro p _ ⟨numchars, events, rfl, hevents⟩ allowComma
    exact ⟨numchars, events, rfl, hevents⟩
  onSlash := by
    rintro p _ ⟨numchars, events, rfl, hevents⟩ isSlash
    exact ⟨numchars, events, rfl, hevents⟩
  onStack := by
    rintro p _ ⟨numchars, events, rfl, hevents⟩ stack
    exact ⟨numchars, events, rfl, hevents⟩
  storeName := by
    rintro p _ ⟨numchars, events, rfl, hevents⟩ c - index
    exact ⟨numchars, events, rfl, hevents⟩
  storeValue := by
    rintro p _ ⟨numchars, events, rfl, hevents⟩ c - index
    exact ⟨numchars, events, rfl, hevents⟩
  event := by
    rintro p _ ⟨numchars, events, rfl, hevents⟩ e -
    refine ⟨numchars, events ++ [e], rfl, ?_⟩
    simp only [ParserData.event, List.map_append, hevents]
  jsonError := by
    rintro p _ ⟨numchars, events, rfl, hevents⟩ err
    unfold jsonError
    rw [jsonReset_eq, jsonReset_eq]
    refine ⟨0, _, rfl, ?_⟩
    simp only [ParserData.event, List.map_append, List.map_cons, List.map_nil, hevents, Event.blind]
  log := by
    rintro p _ ⟨numchars, events, rfl, hevents⟩ c -
    exact ⟨numchars + 1, events, rfl, hevents⟩

section

variable {p q : ParserData}

theorem Alike.refl (p : ParserData) : Alike p p := ⟨p.numchars, p.events, rfl, rfl⟩

theorem Alike.jsonEat (h : Alike p q) (c : Char) : Alike (jsonEat p c) (jsonEat q c) :=
  alike_kept.jsonEat h trivial

/--
The strings that an event would tell end in their rows.
-/
def Rowed (p : ParserData) : Prop :=
  p.stack < MAXSTACK ∧ (∃ name, NameIs name p) ∧ ∃ value, ValueIs value p

/--
The end of a number.
-/
def settle (p : ParserData) : ParserData :=
  setState .outValue (p.event (.integer (p.name p.stack) (Atoi (p.value p.stack))))

theorem jsonEat_settle (hst : p.state = .inNum) (hrow : Rowed p) {c : Char} (hc : isNum c = false)
    : jsonEat p c = jsonEat (settle p) c := by
  obtain ⟨hstack, ⟨name, hname⟩, value, hvalue⟩ := hrow
  have hname' : (p.log c).name (p.log c).stack = p.name p.stack := by
    rw [name_eq (hname.log hstack c).1 (Nat.le_of_lt hname.2), name_eq hname.1 (Nat.le_of_lt hname.2)]
  have hvalue' : (p.log c).value (p.log c).stack = p.value p.stack := by
    rw [value_eq (hvalue.log hstack c).1 (Nat.le_of_lt hvalue.2),
      value_eq hvalue.1 (Nat.le_of_lt hvalue.2)]
  have honce : eatOnce c (p.log c) = ((settle p).log c, true) := by
    have hst' : (p.log c).state = .inNum := hst
    simp only [eatOnce, hst', hc, Bool.false_eq_true, if_false]
    show (setState .outValue ((p.log c).event
      (.integer ((p.log c).name (p.log c).stack) (Atoi ((p.log c).value (p.log c).stack)))), true)
      = _
    rw [hname', hvalue']
    rfl
  rw [jsonEat_eq, jsonEatNoLog_eq, honce, jsonEat_eq]
  rfl

/--
The next character after the blanks does not continue a number.
-/
def NumberEnds (text : List Char) : Prop :=
  ∃ c after, text.dropWhile (fun c => !isSolid c) = c :: after ∧ isNum c = false

/--
A blank before `text` is skipped, also if the one after a number is missing.
-/
def Skips (p : ParserData) (text : List Char) : Prop :=
  match p.state with
  | .inName | .inString => False
  | .inNum => Rowed p ∧ NumberEnds text
  | _ => True

def SkipsBlanks (p : ParserData) : List Char → Prop
  | [] => True
  | c :: text => (isSolid c = false → Skips p text) ∧ SkipsBlanks (jsonEat p c) text

/--
The parser on the left has read blanks after a number.
-/
def Pending (p q : ParserData) (text : List Char) : Prop :=
  q.state = .inNum ∧ Rowed q ∧ Alike p (settle q) ∧ NumberEnds text

theorem Alike.rowed (h : Alike p q) (hrow : Rowed p) : Rowed q := by
  obtain ⟨numchars, events, rfl, -⟩ := h
  exact hrow

theorem Alike.state_eq (h : Alike p q) : q.state = p.state := (alike_kept.agree h).1

theorem Alike.settle (h : Alike p q) : Alike (Json.settle p) (Json.settle q) := by
  unfold Json.settle
  rw [alike_kept.name_eq h, alike_kept.value_eq h]
  exact alike_kept.enter (alike_kept.tell h (.integer _ _) (by simp)) _

theorem not_solid {c : Char} (hc : isSolid c = false)
    : isWhiteSpace c = true ∧ isNum c = false ∧ isValidNameChar c = false := by
  have hcases : c = ' ' ∨ c = '\t' := by
    by_cases hspace : c = ' '
    . exact .inl hspace
    . simpa [isSolid, hspace] using hc
  rcases hcases with rfl | rfl
  . decide
  . decide

theorem Alike.jsonEat_blank (h : Alike p q) (hst : p.state.quiet = true) {c : Char}
    (hc : isSolid c = false)
    : Alike (Json.jsonEat p c) q := by
  rw [Json.jsonEat_blank hst ((not_solid hc).1)]
  obtain ⟨numchars, events, rfl, hevents⟩ := h
  refine ⟨numchars, events, ?_, hevents⟩
  simp [ParserData.log, (not_solid hc).1]

/--
The parser that reads a text and the one that reads it without the blanks stay alike.
-/
theorem alike_exec {text : List Char} (hskips : SkipsBlanks p text)
    (h : Alike p q ∨ Pending p q text)
    : Alike (exec eatStep p text) (exec eatStep q (text.filter isSolid)) := by
  induction text generalizing p q with
  | nil =>
    rcases h with h | ⟨-, -, -, c, after, hnext, -⟩
    . exact h
    . cases hnext
  | cons c text ih =>
    obtain ⟨hblank, hskips⟩ := hskips
    cases hsolid : isSolid c with
    | true =>
      rw [List.filter_cons_of_pos hsolid]
      apply ih hskips
      left
      rcases h with h | ⟨hst, hrow, h, d, after, hnext, hd⟩
      . exact h.jsonEat c
      . rw [List.dropWhile_cons_of_neg (by simp [hsolid])] at hnext
        obtain ⟨rfl, -⟩ := List.cons.inj hnext
        show Alike (Json.jsonEat p c) (Json.jsonEat q c)
        rw [jsonEat_settle hst hrow hd]
        exact h.jsonEat c
    | false =>
      rw [List.filter_cons_of_neg (by simp [hsolid])]
      apply ih hskips
      rcases h with h | ⟨hst, hrow, h, hends⟩
      . have hskip := hblank hsolid
        cases hst : p.state with
        | inName | inString =>
          simp only [Skips, hst] at hskip
        | inNum =>
          simp only [Skips, hst] at hskip
          obtain ⟨hrow, hends⟩ := hskip
          right
          refine ⟨h.state_eq.trans hst, h.rowed hrow, ?_, hends⟩
          show Alike (Json.jsonEat p c) (Json.settle q)
          rw [jsonEat_settle hst hrow (not_solid hsolid).2.1]
          exact h.settle.jsonEat_blank rfl hsolid
        | none | inObject | toName | toColumn | toValue | inArray | outValue =>
          left
          exact h.jsonEat_blank (by rw [hst]; rfl) hsolid
      . right
        refine ⟨hst, hrow, ?_, ?_⟩
        . have hquiet : p.state.quiet = true := by
            rw [← h.state_eq]
            rfl
          exact h.jsonEat_blank hquiet hsolid
        . obtain ⟨d, after, hnext, hd⟩ := hends
          rw [List.dropWhile_cons_of_pos (by simp [hsolid])] at hnext
          exact ⟨d, after, hnext, hd⟩

theorem blind_isError (e : Event) : e.blind.isError = e.isError := by
  cases e with
  | error | objectStart | objectComplete | arrayStart | arrayComplete | string | integer => rfl

theorem blind_eq {e : Event} (h : e.isError = false) : e.blind = e := by
  cases e with
  | error => cases h
  | objectStart | objectComplete | arrayStart | arrayComplete | string | integer => rfl

theorem map_blind_eq {events : List Event} (h : ∀ e ∈ events, e.isError = false)
    : events.map Event.blind = events := by
  rw [List.map_congr_left fun e he => blind_eq (h e he), List.map_id']

/--
If no error is reported, the events are the same without the blanks.
-/
theorem trace_solid {text : List Char} (hskips : SkipsBlanks p text)
    (hnoerror : ∀ e ∈ trace eatStep p text, e.isError = false)
    : trace eatStep p (text.filter isSolid) = trace eatStep p text := by
  obtain ⟨numchars, events, hexec, hevents⟩ := alike_exec hskips (.inl (Alike.refl p))
  have hsolid : p.events ++ trace eatStep p (text.filter isSolid) = events := by
    rw [← events_exec, hexec]
  rw [events_exec] at hevents
  rw [← hsolid, List.map_append, List.map_append, List.append_cancel_left_eq,
    map_blind_eq hnoerror] at hevents
  rw [← hevents, map_blind_eq]
  intro e he
  rw [← blind_isError]
  apply hnoerror
  rw [← hevents]
  exact List.mem_map_of_mem he

def Event.Solid : Event → Prop
  | .string _ value => ∀ c ∈ value, isSolid c = true
  | _ => True

/--
No blank is in the memory, and none has been told of in a string.
-/
structure Solid (p : ParserData) : Prop where
  mem : ∀ a, isSolid (p.mem a) = true
  events : ∀ e ∈ p.events, e.Solid

theorem Solid.store (h : Solid p) {a : Nat} {c : Char} (hc : isSolid c = true)
    (hmem : q.mem = Function.update p.mem a c) (hevents : q.events = p.events)
    : Solid q := by
  refine ⟨?_, ?_⟩
  . intro b
    rw [hmem, Function.update_apply]
    split
    . exact hc
    . exact h.mem b
  . rw [hevents]
    exact h.events

theorem Solid.event (h : Solid p) {e : Event} (he : e.Solid) : Solid (p.event e) := by
  refine ⟨h.mem, ?_⟩
  intro e' he'
  rcases List.mem_append.mp he' with hold | hnew
  . exact h.events e' hold
  . rw [List.mem_singleton.mp hnew]
    exact he

theorem Solid.value (h : Solid p) (row : Nat) : ∀ c ∈ p.value row, isSolid c = true := by
  intro c hc
  obtain ⟨a, rfl⟩ := exists_of_mem_cstr hc
  exact h.mem a

theorem solid_nul : isSolid NUL = true := by decide

theorem Solid.jsonReset (h : Solid p) : Solid (Json.jsonReset p) := by
  have hname : Solid { p with mem := Function.update p.mem (nameAddr 0) NUL } :=
    h.store solid_nul rfl rfl
  rw [jsonReset_eq]
  exact hname.store solid_nul rfl rfl

theorem Solid.log (h : Solid p) {c : Char} (hc : isSolid c = true) : Solid (p.log c) := by
  cases hspace : isWhiteSpace c with
  | true => exact ⟨by simpa [ParserData.log, hspace] using h.mem, h.events⟩
  | false => exact h.store hc (by simp [ParserData.log, hspace]; rfl) rfl

theorem solid_kept : Kept (isSolid · = true) fun p q => q = p ∧ Solid p where
  nul := solid_nul
  slash := by decide
  agree := by
    rintro p _ ⟨rfl, -⟩
    exact ⟨rfl, rfl, rfl, rfl, rfl, rfl⟩
  onState := by
    rintro p _ ⟨rfl, h⟩ state
    exact ⟨rfl, h.mem, h.events⟩
  onStates := by
    rintro p _ ⟨rfl, h⟩ states
    exact ⟨rfl, h.mem, h.events⟩
  onComma := by
    rintro p _ ⟨rfl, h⟩ allowComma
    exact ⟨rfl, h.mem, h.events⟩
  onSlash := by
    rintro p _ ⟨rfl, h⟩ isSlash
    exact ⟨rfl, h.mem, h.events⟩
  onStack := by
    rintro p _ ⟨rfl, h⟩ stack
    exact ⟨rfl, h.mem, h.events⟩
  storeName := by
    rintro p _ ⟨rfl, h⟩ c hc index
    exact ⟨rfl, h.store hc rfl rfl⟩
  storeValue := by
    rintro p _ ⟨rfl, h⟩ c hc index
    exact ⟨rfl, h.store hc rfl rfl⟩
  event := by
    rintro p _ ⟨rfl, h⟩ e hstring
    refine ⟨rfl, h.event ?_⟩
    cases e with
    | string name value =>
      rw [hstring name value rfl]
      exact h.value _
    | _ => trivial
  jsonError := by
    rintro p _ ⟨rfl, h⟩ err
    exact ⟨rfl, Solid.jsonReset (h.event trivial)⟩
  log := by
    rintro p _ ⟨rfl, h⟩ c hc
    exact ⟨rfl, h.log hc⟩

/--
A text without blanks has no string with a blank.
-/
theorem solid_trace {text : List Char} (htext : ∀ c ∈ text, isSolid c = true)
    : ∀ e ∈ trace eatStep (jsonReset .init) text, e.Solid := by
  have hinit : Solid .init := ⟨fun _ => solid_nul, by simp [ParserData.init]⟩
  have hexec : ∀ p, Solid p → Solid (exec eatStep p text) := by
    induction text with
    | nil => exact fun p hp => hp
    | cons c text ih =>
      obtain ⟨hc, htext⟩ := List.forall_mem_cons.mp htext
      exact fun p hp => ih htext _ (solid_kept.jsonEat ⟨rfl, hp⟩ hc).2
  intro e he
  apply (hexec _ hinit.jsonReset).events
  rw [events_exec]
  exact List.mem_append_right _ he

end

end Json
