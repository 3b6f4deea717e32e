import IotGateway.Json.Grammar
import IotGateway.Json.Lemmas.Failure

/-!
This module says what the parser makes of a single token, given where it is in the text.
-/

namespace Json

open CString Machine

def Kind.state : Kind → State
  | .object => .inObject
  | .array => .inArray

@[simp]
theorem kind_state (kind : Kind) : kind.state.kind = some kind := by
  cases kind with
  | object => rfl
  | array => rfl

abbrev Reads (P : ParserData → Prop) (tokens : List (List Char)) (Q : ParserData → Prop) : Prop :=
  Eats eatStep (isWhiteSpace · = true) P tokens Q

/--
The parser is in `st` inside of the containers `opened`, has saved `states` and has reported
`events`.
-/
structure At (st : State) (opened : List (Kind × List Char)) (states : List State)
    (events : List Event) (p : ParserData) : Prop where
  state_eq : p.state = st
  states_eq : p.states = states
  events_eq : p.events = events
  top : p.top = opened.length
  count : ((st :: states).filterMap State.kind).length = opened.length
  stack_lt : p.stack < MAXSTACK
  slash : st ≠ .inString → p.isSlash = false
  named : Named p.mem opened.length opened
  unnamed : st = .none → p.mem (nameAddr p.stack) = NUL
  value : p.mem (valueAddr 0) = NUL

def NameIs (name : List Char) (p : ParserData) : Prop :=
  IsStr NUL p.mem (nameAddr p.stack) name ∧ name.length < MAXNAME

def ValueIs (value : List Char) (p : ParserData) : Prop :=
  IsStr NUL p.mem (valueAddr p.stack) value ∧ value.length < MAXVALUE

/--
Behind the colon of a member.
-/
structure Ready (opened : List (Kind × List Char)) (states : List State) (events : List Event)
    (name : List Char) (p : ParserData) : Prop where
  position : At .toValue opened states events p
  name : NameIs name p
  value : ValueIs [] p

/--
In a string, behind the part `value` of it.
-/
structure InString (opened : List (Kind × List Char)) (states : List State) (events : List Event)
    (name value : List Char) (p : ParserData) : Prop where
  position : At .inString opened states events p
  slash : p.isSlash = false
  name : NameIs name p
  value : ValueIs value p

/--
In a numeral, behind the part `value` of it.
-/
structure InNum (opened : List (Kind × List Char)) (states : List State) (events : List Event)
    (name value : List Char) (p : ParserData) : Prop where
  position : At .inNum opened states events p
  name : NameIs name p
  value : ValueIs value p

/--
Behind a string or an integer. The event of an integer may still be due.
-/
def Valued (opened : List (Kind × List Char)) (states : List State) (events : List Event)
    (p : ParserData) : Prop :=
  At .outValue opened states events p
    ∨ ∃ name value before, events = before ++ [.integer name (Atoi value)]
        ∧ InNum opened states before name value p

section

variable {p : ParserData} {st : State} {opened : List (Kind × List Char)} {states : List State}
  {events : List Event} {name value : List Char}

theorem At.stack_eq (h : At st opened states events p) (hst : st.kind = none)
    : p.stack = opened.length := by
  have := h.top
  rwa [ParserData.top, h.state_eq, hst] at this

theorem At.stack_succ (h : At st opened states events p) (hst : st.kind.isSome)
    : p.stack + 1 = opened.length := by
  have := h.top
  rwa [ParserData.top, h.state_eq, if_pos hst] at this

theorem At.move (h : At st opened states events p) (hst : st.kind = none) {q : ParserData}
    {st' : State} (hst' : st'.kind = none) (hne : st' ≠ .none) (hstate : q.state = st')
    (hstates : q.states = states) (hstack : q.stack = p.stack)
    (hslash : st' ≠ .inString → q.isSlash = false)
    (hmem : ∀ a < nameAddr p.stack, q.mem a = p.mem a) (hvalue : q.mem (valueAddr 0) = NUL)
    : At st' opened states q.events q := by
  have hlen := h.stack_eq hst
  refine ⟨hstate, hstates, rfl, ?_, ?_, ?_, hslash, ?_, fun hnone => absurd hnone hne, hvalue⟩
  . rw [ParserData.top, hstate, hst', ← hlen, hstack]
    rfl
  . rw [List.filterMap_cons_none hst', ← h.count, List.filterMap_cons_none hst]
  . rw [hstack]
    exact h.stack_lt
  . apply h.named.congr
    rw [← hlen]
    exact hmem

theorem At.event (h : At st opened states events p) (e : Event)
    : At st opened states (events ++ [e]) (p.event e) := by
  refine ⟨h.state_eq, h.states_eq, ?_, h.top, h.count, h.stack_lt, h.slash, h.named, h.unnamed, h.value⟩
  show p.events ++ [e] = _
  rw [h.events_eq]

theorem At.log (h : At st opened states events p) (c : Char)
    : At st opened states events (p.log c) := by
  have hstack := h.stack_lt
  have hkeep : ∀ a < errbufAddr, (p.log c).mem a = p.mem a := by
    intro a ha
    simp only [ParserData.log]
    split
    . rfl
    . apply Function.update_of_ne
      omega
  have htop : opened.length ≤ MAXSTACK := by
    rw [← h.top, ParserData.top]
    split <;> omega
  simp only [MAXSTACK, MAXNAME, MAXVALUE, errbufAddr] at hstack hkeep htop
  refine ⟨h.state_eq, h.states_eq, h.events_eq, h.top, h.count, h.stack_lt, h.slash, ?_, ?_, ?_⟩
  . apply h.named.congr
    intro a ha
    simp only [nameAddr, MAXNAME] at ha
    exact hkeep a (by omega)
  . intro hnone
    rw [← h.unnamed hnone]
    apply hkeep
    simp only [nameAddr, MAXNAME, ParserData.log]
    omega
  . rw [← h.value]
    apply hkeep
    decide

theorem NameIs.log (h : NameIs name p) (hstack : p.stack < MAXSTACK) (c : Char)
    : NameIs name (p.log c) := by
  refine ⟨isStr_log h.1 ?_ c, h.2⟩
  have := h.2
  simp only [MAXSTACK, MAXNAME, MAXVALUE, nameAddr, errbufAddr] at hstack this ⊢
  omega

theorem ValueIs.log (h : ValueIs value p) (hstack : p.stack < MAXSTACK) (c : Char)
    : ValueIs value (p.log c) := by
  refine ⟨isStr_log h.1 ?_ c, h.2⟩
  have := h.2
  simp only [MAXSTACK, MAXNAME, MAXVALUE, valueAddr, errbufAddr] at hstack this ⊢
  omega

theorem jsonEat_once {c : Char} {q : ParserData} (h : eatOnce c (p.log c) = (q, false))
    : jsonEat p c = q := by
  rw [jsonEat_eq, jsonEatNoLog_eq, h]
  rfl

/--
The states in which white space is skipped.
-/
def State.quiet : State → Bool
  | .inName | .inString | .inNum => false
  | _ => true

theorem eatOnce_blank {c : Char} (hst : p.state.quiet = true) (hc : isWhiteSpace c = true)
    : eatOnce c p = (p, false) := by
  have hcases : c = ' ' ∨ c = '\r' ∨ c = '\n' ∨ c = '\t' := by
    simpa [isWhiteSpace, or_assoc] using hc
  have hquote : c ≠ '"' := by rcases hcases with rfl | rfl | rfl | rfl <;> decide
  have hcomma : c ≠ ',' := by rcases hcases with rfl | rfl | rfl | rfl <;> decide
  cases hstate : p.state with
  | inName | inString | inNum =>
    rw [hstate] at hst
    cases hst
  | inObject =>
    have : c ≠ '}' := by rcases hcases with rfl | rfl | rfl | rfl <;> decide
    simp [eatOnce_inObject hstate, eatContainer, this, hquote, hcomma, hc]
  | inArray =>
    have : c ≠ ']' := by rcases hcases with rfl | rfl | rfl | rfl <;> decide
    simp [eatOnce_inArray hstate, eatContainer, this, hquote, hcomma, hc]
  | none =>
    have : c ≠ '{' := by rcases hcases with rfl | rfl | rfl | rfl <;> decide
    simp [eatOnce, hstate, this, hquote]
  | toName => simp [eatOnce, hstate, hquote, hc]
  | toColumn =>
    have : c ≠ ':' := by rcases hcases with rfl | rfl | rfl | rfl <;> decide
    simp [eatOnce, hstate, this, hc]
  | toValue =>
    have hbrace : c ≠ '{' := by rcases hcases with rfl | rfl | rfl | rfl <;> decide
    have hbracket : c ≠ '[' := by rcases hcases with rfl | rfl | rfl | rfl <;> decide
    have hnum : isNum c = false := by rcases hcases with rfl | rfl | rfl | rfl <;> decide
    have hsign : isSign c = false := by rcases hcases with rfl | rfl | rfl | rfl <;> decide
    simp [eatOnce, hstate, hquote, hbrace, hbracket, hnum, hsign, hc]
  | outValue => simp [eatOnce, hstate, hc]

theorem jsonEat_blank {c : Char} (hst : p.state.quiet = true) (hc : isWhiteSpace c = true)
    : jsonEat p c = p.log c := jsonEat_once (eatOnce_blank hst hc)

theorem at_setState (h : At st opened states events p) (hst : st.kind = none) {st' : State}
    (hst' : st'.kind = none) (hne : st' ≠ .none) (hslash : st' ≠ .inString → p.isSlash = false)
    : At st' opened states events (setState st' p) := by
  have hstack := h.stack_lt
  have hvalue := h.value
  have hevents := h.events_eq
  have hmove := h.move (q := setState st' p) hst hst' hne
  cases st' with
  | none => exact absurd rfl hne
  | inObject | inArray => cases hst'
  | inName =>
    rw [← hevents]
    refine hmove rfl h.states_eq rfl hslash ?_ ?_
    . intro a ha
      show Function.update p.mem (nameAddr p.stack + 0) NUL a = p.mem a
      exact Function.update_of_ne (by omega) ..
    . show Function.update p.mem (nameAddr p.stack + 0) NUL (valueAddr 0) = NUL
      simp only [MAXSTACK, MAXNAME, nameAddr, valueAddr] at hstack hvalue ⊢
      rw [Function.update_of_ne (by omega), hvalue]
  | toValue =>
    rw [← hevents]
    refine hmove rfl h.states_eq rfl hslash ?_ ?_
    . intro a ha
      apply Function.update_of_ne
      simp only [MAXSTACK, MAXNAME, nameAddr, valueAddr] at hstack ha ⊢
      omega
    . show Function.update p.mem (valueAddr p.stack + 0) NUL (valueAddr 0) = NUL
      by_cases hrow : valueAddr 0 = valueAddr p.stack + 0
      . rw [hrow, Function.update_self]
      . rw [Function.update_of_ne hrow, hvalue]
  | toName | toColumn | inString | inNum | outValue =>
    rw [← hevents]
    exact hmove rfl h.states_eq rfl hslash (fun a ha => rfl) hvalue

theorem nameIs_setState (h : NameIs name p) (hstack : p.stack < MAXSTACK) {st : State}
    (hst : st.kind = none) (hname : st ≠ .inName) (hnone : st ≠ .none)
    : NameIs name (setState st p) := by
  have hlen := h.2
  cases st with
  | none => exact absurd rfl hnone
  | inName => exact absurd rfl hname
  | inObject | inArray => cases hst
  | toValue =>
    refine ⟨h.1.update NUL ?_, hlen⟩
    simp only [MAXSTACK, MAXNAME, nameAddr, valueAddr] at hstack hlen ⊢
    omega
  | toName | toColumn | inString | inNum | outValue => exact h

theorem nameIs_inName (p : ParserData) : NameIs [] (setState .inName p) :=
  ⟨isStr_update_nul _ _, Nat.zero_lt_succ _⟩

theorem valueIs_toValue (p : ParserData) : ValueIs [] (setState .toValue p) :=
  ⟨isStr_update_nul _ _, Nat.zero_lt_succ _⟩

theorem at_appendName (h : At .inName opened states events p) (hname : NameIs name p) {c : Char}
    (hc : c ≠ NUL) (hlen : name.length + 1 < MAXNAME)
    : At .inName opened states events (appendName c p) ∧ NameIs (name ++ [c]) (appendName c p) := by
  have hstack := h.stack_lt
  have heq := appendName_eq c hname.1 hname.2
  have hstr := isStr_appendName hname.1 hname.2 hc
  rw [heq] at hstr ⊢
  constructor
  . rw [← h.events_eq]
    refine h.move (q := (p.storeName name.length c).storeName (name.length + 1) NUL) rfl rfl
      (by decide) h.state_eq h.states_eq rfl (fun _ => h.slash (by decide)) ?_ ?_
    . intro a ha
      show Function.update (Function.update p.mem (nameAddr p.stack + name.length) c)
        (nameAddr p.stack + (name.length + 1)) NUL a = p.mem a
      rw [Function.update_of_ne (by omega), Function.update_of_ne (by omega)]
    . show Function.update (Function.update p.mem (nameAddr p.stack + name.length) c)
        (nameAddr p.stack + (name.length + 1)) NUL (valueAddr 0) = NUL
      simp only [MAXSTACK, MAXNAME, nameAddr, valueAddr] at hstack hlen ⊢
      rw [Function.update_of_ne (by omega), Function.update_of_ne (by omega)]
      exact h.value
  . refine ⟨hstr, ?_⟩
    rw [List.length_append, List.length_singleton]
    exact hlen

theorem at_appendValue (h : At st opened states events p) (hst : st.kind = none) (hne : st ≠ .none)
    (hopened : opened ≠ []) (hname : NameIs name p) (hvalue : ValueIs value p) {c : Char}
    (hc : c ≠ NUL) (hlen : value.length + 1 < MAXVALUE)
    : At st opened states events (appendValue c p) ∧ NameIs name (appendValue c p)
        ∧ ValueIs (value ++ [c]) (appendValue c p) := by
  have hstack := h.stack_lt
  have hpos : 0 < p.stack := by
    rw [h.stack_eq hst]
    exact List.length_pos_iff.mpr hopened
  have hbehind : nameAddr p.stack + MAXNAME ≤ valueAddr 0 := by
    simp only [MAXSTACK, MAXNAME, nameAddr, valueAddr] at hstack ⊢
    omega
  have hrow : valueAddr 0 < valueAddr p.stack := by
    simp only [MAXVALUE, valueAddr]
    omega
  have heq := appendValue_eq c hvalue.1 hvalue.2
  have hstr := isStr_appendValue hvalue.1 hvalue.2 hc
  rw [heq] at hstr ⊢
  refine ⟨?_, ⟨?_, hname.2⟩, hstr, ?_⟩
  . rw [← h.events_eq]
    refine h.move (q := (p.storeValue value.length c).storeValue (value.length + 1) NUL) hst hst hne
      h.state_eq h.states_eq rfl h.slash ?_ ?_
    . intro a ha
      show Function.update (Function.update p.mem (valueAddr p.stack + value.length) c)
        (valueAddr p.stack + (value.length + 1)) NUL a = p.mem a
      rw [Function.update_of_ne (by omega), Function.update_of_ne (by omega)]
    . show Function.update (Function.update p.mem (valueAddr p.stack + value.length) c)
        (valueAddr p.stack + (value.length + 1)) NUL (valueAddr 0) = NUL
      rw [Function.update_of_ne (by omega), Function.update_of_ne (by omega)]
      exact h.value
  . have := hname.2
    apply (hname.1.update c _).update NUL _
    . show valueAddr p.stack + value.length < nameAddr p.stack
        ∨ nameAddr p.stack + name.length < valueAddr p.stack + value.length
      omega
    . show valueAddr p.stack + (value.length + 1) < nameAddr p.stack
        ∨ nameAddr p.stack + name.length < valueAddr p.stack + (value.length + 1)
      omega
  . rw [List.length_append, List.length_singleton]
    exact hlen

theorem at_toState (h : At st opened states events p) (hst : st.kind = none)
    (hlen : states.length + 1 < MAXSTATES) {st' : State} (hst' : st' = .toName ∨ st' = .inName)
    (hslash : p.isSlash = false)
    : toState st' p = setState st' { p with states := st :: states }
        ∧ At st' opened (st :: states) events (toState st' p) := by
  have hlen' : p.states.length + 1 < MAXSTATES := by rwa [h.states_eq]
  have heq : toState st' p = setState st' { p with states := st :: states } := by
    unfold toState
    rw [h.state_eq, h.states_eq]
    exact if_pos hlen
  have hsave : At st opened (st :: states) events { p with states := st :: states } := by
    refine ⟨h.state_eq, rfl, h.events_eq, h.top, ?_, h.stack_lt, h.slash, h.named, h.unnamed,
      h.value⟩
    rw [List.filterMap_cons_none hst]
    exact h.count
  refine ⟨heq, ?_⟩
  rw [heq]
  rcases hst' with rfl | rfl
  . exact at_setState hsave hst rfl (by decide) fun _ => hslash
  . exact at_setState hsave hst rfl (by decide) fun _ => hslash

theorem ne_of_isValidNameChar {c : Char} (hc : isValidNameChar c = true) : c ≠ '"' ∧ c ≠ NUL := by
  constructor
  . rintro rfl
    exact absurd hc (by decide)
  . rintro rfl
    exact absurd hc (by decide)

theorem ne_of_isNum {c : Char} (hc : isNum c = true) : c ≠ '"' ∧ c ≠ NUL := by
  constructor
  . rintro rfl
    exact absurd hc (by decide)
  . rintro rfl
    exact absurd hc (by decide)

theorem exec_name {text : List Char} (h : At .inName opened states events p) (hname : NameIs name p)
    (hvalid : ∀ c ∈ text, isValidNameChar c = true) (hlen : (name ++ text).length < MAXNAME)
    : At .inName opened states events (exec eatStep p text)
        ∧ NameIs (name ++ text) (exec eatStep p text) := by
  induction text generalizing p name with
  | nil =>
    rw [List.append_nil]
    exact ⟨h, hname⟩
  | cons c text ih =>
    obtain ⟨hquote, hnul⟩ := ne_of_isValidNameChar (hvalid c List.mem_cons_self)
    have hlog := h.log c
    have heat : jsonEat p c = appendName c (p.log c) := by
      apply jsonEat_once
      simp [eatOnce, hlog.state_eq, hquote, hvalid c List.mem_cons_self]
    have hshort : name.length + 1 < MAXNAME := by
      rw [List.length_append, List.length_cons] at hlen
      omega
    obtain ⟨hat, hname'⟩ := at_appendName hlog (hname.log h.stack_lt c) hnul hshort
    rw [← heat] at hat hname'
    have happend : name ++ c :: text = (name ++ [c]) ++ text := by simp
    rw [happend] at hlen ⊢
    exact ih hat hname' (fun d hd => hvalid d (List.mem_cons_of_mem c hd)) hlen

theorem exec_name_quote (h : At .inName opened states events p) (hname : NameIs [] p) (name : Name)
    : At .toColumn opened states events (exec eatStep p (name.text ++ ['"']))
        ∧ NameIs name.text (exec eatStep p (name.text ++ ['"'])) := by
  obtain ⟨hat, hname⟩ := exec_name h hname name.valid name.short
  rw [exec_append]
  generalize exec eatStep p name.text = q at hat hname
  have hlog := hat.log '"'
  have heat : jsonEat q '"' = setState .toColumn (q.log '"') := by
    apply jsonEat_once
    simp [eatOnce, hlog.state_eq]
  show At .toColumn opened states events (jsonEat q '"') ∧ NameIs name.text (jsonEat q '"')
  rw [heat]
  constructor
  . exact at_setState hlog rfl rfl (by decide) fun _ => hlog.slash (by decide)
  . exact nameIs_setState (hname.log hat.stack_lt '"') hlog.stack_lt rfl (by decide) (by decide)

theorem blank_at (hst : st.quiet = true) (p : ParserData) (c : Char)
    (h : At st opened states events p) (hc : isWhiteSpace c = true)
    : At st opened states events (eatStep p c).1 := by
  show At st opened states events (jsonEat p c)
  rw [jsonEat_blank (by rw [h.state_eq]; exact hst) hc]
  exact h.log c

theorem reads_name (name : Name)
    : Reads (At .toName opened states events) [quoted name.text]
        (fun p => At .toColumn opened states events p ∧ NameIs name.text p) := by
  refine eats_token (blank_at rfl) ?_
  intro p h
  have hlog := h.log '"'
  have heat : jsonEat p '"' = setState .inName (p.log '"') := by
    apply jsonEat_once
    simp [eatOnce, hlog.state_eq]
  have hat : At .inName opened states events (jsonEat p '"') := by
    rw [heat]
    exact at_setState hlog rfl rfl (by decide) fun _ => hlog.slash (by decide)
  apply exec_name_quote hat
  rw [heat]
  apply nameIs_inName

theorem reads_docName (name : Name)
    : Reads (At .none opened [] events) [quoted name.text]
        (fun p => At .toColumn opened [.none] events p ∧ NameIs name.text p) := by
  refine eats_token (blank_at rfl) ?_
  intro p h
  have hlog := h.log '"'
  have heat : jsonEat p '"' = toState .inName (p.log '"') := by
    apply jsonEat_once
    simp [eatOnce, hlog.state_eq]
  obtain ⟨heq, hat⟩ := at_toState hlog rfl (by decide) (.inr rfl) (hlog.slash (by decide))
  rw [← heat] at heq hat
  apply exec_name_quote hat
  rw [heq]
  apply nameIs_inName

theorem reads_column
    : Reads (fun p => At .toColumn opened states events p ∧ NameIs name p) [[':']]
        (Ready opened states events name) := by
  apply eats_token
  . rintro p c ⟨h, hname⟩ hc
    refine ⟨blank_at rfl p c h hc, ?_⟩
    show NameIs name (jsonEat p c)
    rw [jsonEat_blank (by rw [h.state_eq]; rfl) hc]
    exact hname.log h.stack_lt c
  . rintro p ⟨h, hname⟩
    have hlog := h.log ':'
    have heat : jsonEat p ':' = setState .toValue (p.log ':') := by
      apply jsonEat_once
      simp [eatOnce, hlog.state_eq]
    show Ready opened states events name (jsonEat p ':')
    rw [heat]
    refine ⟨?_, ?_, valueIs_toValue _⟩
    . exact at_setState hlog rfl rfl (by decide) fun _ => hlog.slash (by decide)
    . exact nameIs_setState (hname.log h.stack_lt ':') hlog.stack_lt rfl (by decide) (by decide)

theorem blank_ready (p : ParserData) (c : Char) (h : Ready opened states events name p)
    (hc : isWhiteSpace c = true)
    : Ready opened states events name (eatStep p c).1 := by
  have hstack := h.position.stack_lt
  show Ready opened states events name (jsonEat p c)
  rw [jsonEat_blank (by rw [h.position.state_eq]; rfl) hc]
  exact ⟨h.position.log c, h.name.log hstack c, h.value.log hstack c⟩

theorem At.setSlash (h : At .inString opened states events p) (isSlash : Bool)
    : At .inString opened states events { p with isSlash } :=
  ⟨h.state_eq, h.states_eq, h.events_eq, h.top, h.count, h.stack_lt, fun hne => absurd rfl hne,
    h.named, h.unnamed, h.value⟩

theorem InString.append (h : InString opened states events name value p) (hopened : opened ≠ [])
    {c : Char} (hc : c ≠ NUL) (hlen : value.length + 1 < MAXVALUE)
    : InString opened states events name (value ++ [c]) (appendValue c p) := by
  obtain ⟨hat, hname, hvalue⟩ :=
    at_appendValue h.position rfl (by decide) hopened h.name h.value hc hlen
  refine ⟨hat, ?_, hname, hvalue⟩
  rw [appendValue_eq c h.value.1 h.value.2]
  exact h.slash

theorem InString.log (h : InString opened states events name value p) (c : Char)
    : InString opened states events name value (p.log c) :=
  ⟨h.position.log c, h.slash, h.name.log h.position.stack_lt c,
    h.value.log h.position.stack_lt c⟩

theorem exec_string {text : List Char} (hvalid : StringText text) (hopened : opened ≠ [])
    (h : InString opened states events name value p) (hlen : (value ++ text).length < MAXVALUE)
    : InString opened states events name (value ++ text) (exec eatStep p text) := by
  induction hvalid generalizing p value with
  | nil =>
    rw [List.append_nil]
    exact h
  | @plain c text hquote hslash hnul _ ih =>
    have hlog := h.log c
    have hshort : value.length + 1 < MAXVALUE := by
      rw [List.length_append, List.length_cons] at hlen
      omega
    have heat : jsonEat p c = appendValue c (p.log c) := by
      apply jsonEat_once
      rw [eatOnce_inString hlog.position.state_eq]
      simp [hlog.slash, hslash, hquote]
    have happend : value ++ c :: text = (value ++ [c]) ++ text := by simp
    rw [happend] at hlen ⊢
    rw [exec_cons]
    apply ih _ hlen
    show InString opened states events name (value ++ [c]) (jsonEat p c)
    rw [heat]
    exact hlog.append hopened hnul hshort
  | @escaped c text hnul _ ih =>
    have hlog := h.log '\\'
    have hshort : value.length + 2 < MAXVALUE := by
      rw [List.length_append, List.length_cons, List.length_cons] at hlen
      omega
    have hback : jsonEat p '\\' = { p.log '\\' with isSlash := true } := by
      apply jsonEat_once
      rw [eatOnce_inString hlog.position.state_eq]
      simp [hlog.slash]
    generalize hr : ({ p.log '\\' with isSlash := true } : ParserData) = r at hback
    have hslashed : At .inString opened states events r := by
      rw [← hr]
      exact hlog.position.setSlash true
    have hquiet : InString opened states events name value { r.log c with isSlash := false } := by
      refine ⟨(hslashed.log c).setSlash false, rfl, ?_, ?_⟩
      . exact NameIs.log (by rw [← hr]; exact hlog.name) hslashed.stack_lt c
      . exact ValueIs.log (by rw [← hr]; exact hlog.value) hslashed.stack_lt c
    have heat : jsonEat r c = appendValue c (appendValue '\\' { r.log c with isSlash := false }) := by
      apply jsonEat_once
      have hslash : (r.log c).isSlash = true := by rw [← hr]; rfl
      rw [eatOnce_inString (hslashed.log c).state_eq]
      simp [hslash]
    have happend : value ++ '\\' :: c :: text = (value ++ ['\\'] ++ [c]) ++ text := by simp
    rw [happend] at hlen ⊢
    rw [exec_cons, exec_cons]
    apply ih _ hlen
    show InString opened states events name (value ++ ['\\'] ++ [c]) (jsonEat (jsonEat p '\\') c)
    rw [hback, heat]
    apply (hquiet.append hopened (by decide) (by omega)).append hopened hnul
    rw [List.length_append, List.length_singleton]
    exact hshort

theorem reads_string (s : Str) (hopened : opened ≠ [])
    : Reads (Ready opened states events name) [quoted s.text]
        (Valued opened states (events ++ [.string name s.text])) := by
  refine eats_token blank_ready ?_
  intro p h
  have hlog := h.position.log '"'
  have hstack := h.position.stack_lt
  have heat : jsonEat p '"' = { p.log '"' with state := .inString, isSlash := false } := by
    apply jsonEat_once
    simp [eatOnce, hlog.state_eq, setState]
  have hin : InString opened states events name [] (jsonEat p '"') := by
    rw [heat]
    refine ⟨?_, rfl, h.name.log hstack '"', h.value.log hstack '"'⟩
    exact ⟨rfl, hlog.states_eq, hlog.events_eq, hlog.stack_eq rfl, hlog.count, hlog.stack_lt,
      fun _ => rfl, hlog.named, (by intro hnone; cases hnone), hlog.value⟩
  have hend := exec_string s.valid hopened hin s.short
  have hquoted : quoted s.text = '"' :: (s.text ++ ['"']) := rfl
  rw [hquoted, exec_cons, exec_append]
  left
  generalize hq : exec eatStep (eatStep p '"').1 s.text = q
  have hend : InString opened states events name s.text q := by
    rw [← hq]
    exact hend
  have hlog' := hend.log '"'
  have hclose : jsonEat q '"'
      = setState .outValue ((q.log '"').event (.string name s.text)) := by
    apply jsonEat_once
    rw [eatOnce_inString hlog'.position.state_eq, name_eq hlog'.name.1 (Nat.le_of_lt hlog'.name.2),
      value_eq hlog'.value.1 (Nat.le_of_lt hlog'.value.2)]
    simp [hlog'.slash]
  show At .outValue opened states _ (jsonEat q '"')
  rw [hclose]
  exact at_setState (hlog'.position.event _) rfl rfl (by decide) fun _ => hlog'.slash

theorem InNum.append (h : InNum opened states events name value p) (hopened : opened ≠ [])
    {c : Char} (hc : c ≠ NUL) (hlen : value.length + 1 < MAXVALUE)
    : InNum opened states events name (value ++ [c]) (appendValue c p) := by
  obtain ⟨hat, hname, hvalue⟩ :=
    at_appendValue h.position rfl (by decide) hopened h.name h.value hc hlen
  exact ⟨hat, hname, hvalue⟩

theorem InNum.log (h : InNum opened states events name value p) (c : Char)
    : InNum opened states events name value (p.log c) :=
  ⟨h.position.log c, h.name.log h.position.stack_lt c, h.value.log h.position.stack_lt c⟩

theorem exec_digits {digits : List Char} (hvalid : ∀ c ∈ digits, isNum c = true)
    (hopened : opened ≠ []) (h : InNum opened states events name value p)
    (hlen : (value ++ digits).length < MAXVALUE)
    : InNum opened states events name (value ++ digits) (exec eatStep p digits) := by
  induction digits generalizing p value with
  | nil =>
    rw [List.append_nil]
    exact h
  | cons c digits ih =>
    have hc := hvalid c List.mem_cons_self
    have hlog := h.log c
    have hshort : value.length + 1 < MAXVALUE := by
      rw [List.length_append, List.length_cons] at hlen
      omega
    have heat : jsonEat p c = appendValue c (p.log c) := by
      apply jsonEat_once
      simp [eatOnce, hlog.position.state_eq, hc]
    have happend : value ++ c :: digits = (value ++ [c]) ++ digits := by simp
    rw [happend] at hlen ⊢
    rw [exec_cons]
    refine ih (fun d hd => hvalid d (List.mem_cons_of_mem c hd)) ?_ hlen
    show InNum opened states events name (value ++ [c]) (jsonEat p c)
    rw [heat]
    exact hlog.append hopened (ne_of_isNum hc).2 hshort

theorem numeral_text (n : Numeral)
    : ∃ c digits, n.text = c :: digits ∧ (isNum c = true ∨ isSign c = true)
        ∧ ∀ d ∈ digits, isNum d = true := by
  obtain ⟨sign, digits, hvalid, hnonempty, hshort⟩ := n
  cases sign with
  | none =>
    cases digits with
    | nil => exact absurd rfl hnonempty
    | cons c digits =>
      exact ⟨c, digits, rfl, .inl (hvalid c List.mem_cons_self),
        fun d hd => hvalid d (List.mem_cons_of_mem c hd)⟩
  | plus => exact ⟨'+', digits, rfl, .inr (by decide), hvalid⟩
  | minus => exact ⟨'-', digits, rfl, .inr (by decide), hvalid⟩

theorem reads_integer (n : Numeral) (hopened : opened ≠ [])
    : Reads (Ready opened states events name) [n.text]
        (Valued opened states (events ++ [.integer name (Atoi n.text)])) := by
  refine eats_token blank_ready ?_
  intro p h
  obtain ⟨c, digits, htext, hc, hdigits⟩ := numeral_text n
  have hlog := h.position.log c
  have hstack := h.position.stack_lt
  have hquote : c ≠ '"' := by
    rintro rfl
    exact absurd hc (by decide)
  have hnul : c ≠ NUL := by
    rintro rfl
    exact absurd hc (by decide)
  have heat : jsonEat p c = setState .inNum (appendValue c (p.log c)) := by
    apply jsonEat_once
    simp [eatOnce, hlog.state_eq, hquote, hc]
  obtain ⟨hat, hname, hvalue⟩ := at_appendValue hlog rfl (by decide) hopened
    (h.name.log hstack c) (h.value.log hstack c) hnul (by decide)
  have hfirst : InNum opened states events name [c] (jsonEat p c) := by
    rw [heat]
    exact ⟨at_setState hat rfl rfl (by decide) fun _ => hat.slash (by decide), hname, hvalue⟩
  right
  refine ⟨name, n.text, events, rfl, ?_⟩
  rw [htext, exec_cons]
  apply exec_digits hdigits hopened hfirst
  show (c :: digits).length < MAXVALUE
  rw [← htext]
  exact n.short

/--
Whatever ends a value, the event of an integer is reported first.
-/
theorem Valued.settle (h : Valued opened states events p) {c : Char} (hc : isNum c = false)
    : ∃ q, At .outValue opened states events q ∧ jsonEat p c = jsonEatNoLog c q := by
  rcases h with h | ⟨name, value, before, rfl, h⟩
  . exact ⟨p.log c, h.log c, jsonEat_eq p c⟩
  . have hlog := h.log c
    refine ⟨setState .outValue ((p.log c).event (.integer name (Atoi value))), ?_, ?_⟩
    . exact at_setState (hlog.position.event _) rfl rfl (by decide)
        fun _ => hlog.position.slash (by decide)
    . rw [jsonEat_eq, jsonEatNoLog_eq]
      simp [eatOnce, hlog.position.state_eq, hc, name_eq hlog.name.1 (Nat.le_of_lt hlog.name.2),
        value_eq hlog.value.1 (Nat.le_of_lt hlog.value.2)]

theorem blank_valued (p : ParserData) (c : Char) (h : Valued opened states events p)
    (hc : isWhiteSpace c = true)
    : Valued opened states events (eatStep p c).1 := by
  have hnum : isNum c = false := by
    have hcases : c = ' ' ∨ c = '\r' ∨ c = '\n' ∨ c = '\t' := by
      simpa [isWhiteSpace, or_assoc] using hc
    rcases hcases with rfl | rfl | rfl | rfl <;> decide
  obtain ⟨q, hq, heat⟩ := h.settle hnum
  left
  show At .outValue opened states events (jsonEat p c)
  rw [heat, jsonEatNoLog_eq, eatOnce_blank (by rw [hq.state_eq]; rfl) hc]
  exact hq

end

end Json
