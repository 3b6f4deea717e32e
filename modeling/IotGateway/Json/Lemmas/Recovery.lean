import IotGateway.Json.Lemmas.Failure
import IotGateway.Json.Lemmas.Stores

/-!
This module contains how the parser goes on behind an error: which errors leave it as `jsonReset`
does, and that a parser in that state reads every text as a parser does that has just been reset.
-/

namespace Json

open CString
open Machine

/--
The states in which the value is read.
-/
def State.reads : State → Bool
  | .toValue | .inString | .inNum => true
  | _ => false

/--
The memory of `p` and `mem` agree on what the parser can still read.
-/
structure Twin (p : ParserData) (mem : Nat → Char) : Prop where
  errbuf : ∀ i, errbufAddr ≤ i → p.mem i = mem i
  names : ∀ row ≤ p.stack, SameStr NUL p.mem mem errbufAddr (nameAddr row)
  value : p.state.reads = true → SameStr NUL p.mem mem errbufAddr (valueAddr p.stack)
  saved : ∀ st ∈ p.states, st.saved = true

/--
Two parsers that report the same from now on.
-/
def Same (p q : ParserData) : Prop := ∃ mem stores, q = { p with mem, stores } ∧ Twin p mem

def SameValue (p q : ParserData) : Prop :=
  SameStr NUL p.mem q.mem errbufAddr (valueAddr p.stack)

section

variable {p q : ParserData}

theorem update_agree {mem mem' : Nat → Char} (h : ∀ i, errbufAddr ≤ i → mem i = mem' i) (a : Nat)
    (c : Char)
    : ∀ i, errbufAddr ≤ i → Function.update mem a c i = Function.update mem' a c i := by
  intro i hi
  by_cases hat : i = a
  . rw [hat, Function.update_self, Function.update_self]
  . rw [Function.update_of_ne hat, Function.update_of_ne hat, h i hi]

theorem Twin.name_eq {mem : Nat → Char} {stores : List Store} (h : Twin p mem)
    : ParserData.name { p with mem, stores } p.stack = p.name p.stack :=
  ((h.names p.stack (Nat.le_refl _)).cstr_eq h.errbuf memSize).symm

theorem reset_name (mem : Nat → Char)
    : Function.update (Function.update mem (nameAddr 0) NUL) (valueAddr 0) NUL (nameAddr 0) = NUL := by
  rw [Function.update_of_ne (by decide), Function.update_self]

theorem reset_value (mem : Nat → Char)
    : Function.update (Function.update mem (nameAddr 0) NUL) (valueAddr 0) NUL (valueAddr 0) = NUL := by
  rw [Function.update_self]

theorem same_jsonReset {mem : Nat → Char} {stores : List Store}
    (herrbuf : ∀ i, errbufAddr ≤ i → p.mem i = mem i)
    : Same (jsonReset p) (jsonReset { p with mem, stores }) := by
  rw [jsonReset_eq, jsonReset_eq]
  refine ⟨_, _, rfl, update_agree (update_agree herrbuf _ _) _ _, ?_, fun hreads => ?_, by simp⟩
  . intro row hrow
    obtain rfl : row = 0 := Nat.le_zero.mp hrow
    exact sameStr_nul (reset_name p.mem) (reset_name mem)
  . cases hreads

theorem same_jsonError {mem : Nat → Char} {stores : List Store} (err : Err)
    (herrbuf : ∀ i, errbufAddr ≤ i → p.mem i = mem i)
    : Same (jsonError err p) (jsonError err { p with mem, stores }) := by
  have hlast : ParserData.lastchars { p with mem, stores } = p.lastchars := by
    unfold ParserData.lastchars
    simp only [herrbuf _ (Nat.le_add_right errbufAddr _)]
  unfold jsonError
  rw [hlast]
  exact same_jsonReset herrbuf

theorem Same.error (h : Same p q) (err : Err) : Same (jsonError err p) (jsonError err q) := by
  obtain ⟨mem, stores, rfl, h⟩ := h
  exact same_jsonError err h.errbuf

theorem sameValue_jsonError (p q : ParserData) (err : Err)
    : SameValue (jsonError err p) (jsonError err q) := by
  have hnul (p : ParserData) : (jsonError err p).mem (valueAddr 0) = NUL := by
    rw [jsonError, jsonReset_eq]
    exact reset_value p.mem
  exact sameStr_nul (hnul p) (hnul q)

theorem Same.name_eq (h : Same p q) : q.name q.stack = p.name p.stack := by
  obtain ⟨mem, stores, rfl, h⟩ := h
  exact h.name_eq

theorem Same.sameValue (h : Same p q) (hreads : p.state.reads = true) : SameValue p q := by
  obtain ⟨mem, stores, rfl, h⟩ := h
  exact h.value hreads

theorem Same.value_eq (h : Same p q) (hvalue : SameValue p q)
    : q.value q.stack = p.value p.stack := by
  obtain ⟨mem, stores, rfl, h⟩ := h
  have hvalue : SameStr NUL p.mem mem errbufAddr (valueAddr p.stack) := hvalue
  exact (hvalue.cstr_eq h.errbuf memSize).symm

theorem Same.event (h : Same p q) (e : Event) : Same (p.event e) (q.event e) := by
  obtain ⟨mem, stores, rfl, h⟩ := h
  exact ⟨mem, stores, rfl, h.errbuf, h.names, h.value, h.saved⟩

theorem Same.allowComma (h : Same p q) (allowComma : Bool)
    : Same { p with allowComma } { q with allowComma } := by
  obtain ⟨mem, stores, rfl, h⟩ := h
  exact ⟨mem, stores, rfl, h.errbuf, h.names, h.value, h.saved⟩

theorem Same.isSlash (h : Same p q) (isSlash : Bool)
    : Same { p with isSlash } { q with isSlash } := by
  obtain ⟨mem, stores, rfl, h⟩ := h
  exact ⟨mem, stores, rfl, h.errbuf, h.names, h.value, h.saved⟩

/--
A terminator is stored.
-/
theorem Same.nul (h : Same p q) (a : Nat) (stores stores' : List Store)
    : Same { p with mem := Function.update p.mem a NUL, stores }
        { q with mem := Function.update q.mem a NUL, stores := stores' } := by
  obtain ⟨mem, -, rfl, h⟩ := h
  refine ⟨_, _, rfl, update_agree h.errbuf _ _, ?_, ?_, h.saved⟩
  . exact fun row hrow => (h.names row hrow).store (.inl rfl)
  . exact fun hreads => (h.value hreads).store (.inl rfl)

theorem same_setState (h : Same p q) (st : State)
    (hvalue : st = .inString ∨ st = .inNum → SameValue p q)
    : Same (setState st p) (setState st q) := by
  obtain ⟨mem, stores, rfl, h⟩ := h
  have hgoto
      (hst : st.reads = true → SameStr NUL p.mem mem errbufAddr (valueAddr p.stack))
      : Same { p with state := st } { p with state := st, mem, stores } :=
    ⟨mem, stores, rfl, h.errbuf, h.names, hst, h.saved⟩
  have hpush : ∀ q : ParserData, q = { p with state := st, stack := p.stack + 1 } →
      st.reads = false →
      Same (q.storeName 0 NUL) (ParserData.storeName { q with mem, stores } 0 NUL) := by
    rintro q rfl hst
    refine ⟨_, _, rfl, update_agree h.errbuf _ _, ?_, ?_, h.saved⟩
    . intro row hrow
      cases Nat.le_succ_iff.mp hrow with
      | inl hrow => exact (h.names row hrow).store (.inl rfl)
      | inr hrow =>
        rw [hrow]
        apply sameStr_nul
        . exact Function.update_self ..
        . exact Function.update_self ..
    . intro hst'
      cases hst.symm.trans hst'
  cases st with
  | inName => exact (hgoto fun hst => by cases hst).nul _ _ _
  | toValue =>
    refine ⟨_, _, rfl, update_agree h.errbuf _ _, ?_, ?_, h.saved⟩
    . exact fun row hrow => (h.names row hrow).store (.inl rfl)
    . intro _
      apply sameStr_nul
      . exact Function.update_self ..
      . exact Function.update_self ..
  | inString => exact hgoto fun _ => hvalue (.inl rfl)
  | inNum => exact hgoto fun _ => hvalue (.inr rfl)
  | inObject | inArray =>
    unfold setState
    dsimp only
    split
    . exact hpush _ rfl rfl
    . exact same_jsonError _ h.errbuf
  | _ => exact hgoto fun hst => by cases hst

theorem same_toState (h : Same p q) (st : State) (hst : st.reads = false)
    (hsaved : p.state.saved = true)
    : Same (toState st p) (toState st q) := by
  obtain ⟨mem, stores, rfl, h⟩ := h
  unfold toState
  dsimp only
  split
  . apply same_setState
    . exact ⟨mem, stores, rfl, h.errbuf, h.names, h.value, saved_append hsaved h.saved⟩
    . rintro (rfl | rfl)
      . cases hst
      . cases hst
  . exact same_jsonError _ h.errbuf

theorem saved_not_reads {st : State} (h : st.saved = true) : st.reads = false := by
  cases st with
  | toValue | inString | inNum => cases h
  | _ => rfl

theorem same_upState (h : Same p q) : Same (upState p) (upState q) := by
  obtain ⟨mem, stores, rfl, h⟩ := h
  unfold upState
  dsimp only
  split
  . next st states hstates =>
    have hsaved := h.saved
    rw [hstates] at hsaved
    have hrest : ∀ st' ∈ states, st'.saved = true :=
      fun st' hst' => hsaved st' (List.mem_cons_of_mem st hst')
    have hreads : ∀ {P : Prop}, st.reads = true → P := by
      intro P hreads
      rw [saved_not_reads (hsaved st (List.mem_cons_self ..))] at hreads
      cases hreads
    have hpop : Same { p with state := st, states } { p with state := st, states, mem, stores } :=
      ⟨mem, stores, rfl, h.errbuf, h.names, hreads, hrest⟩
    cases st with
    | inObject | inArray =>
      dsimp only
      split
      . refine ⟨mem, stores, rfl, h.errbuf, ?_, hreads, hrest⟩
        exact fun row hrow => h.names row (Nat.le_trans hrow (Nat.sub_le _ _))
      . exact same_jsonError _ h.errbuf
    | none => exact hpop.nul _ _ _
    | _ => exact hpop
  . exact same_jsonError _ h.errbuf

/--
A character and a terminator are stored.
-/
theorem Same.append (h : Same p q) (a : Nat) (c : Char) (stores stores' : List Store)
    : Same
        { p with mem := Function.update (Function.update p.mem a c) (a + 1) NUL, stores }
        { q with mem := Function.update (Function.update q.mem a c) (a + 1) NUL, stores := stores' } := by
  obtain ⟨mem, -, rfl, h⟩ := h
  refine ⟨_, _, rfl, update_agree (update_agree h.errbuf _ _) _ _, ?_, ?_, h.saved⟩
  . exact fun row hrow => (h.names row hrow).append a c
  . exact fun hreads => (h.value hreads).append a c

theorem same_appendName (h : Same p q) (c : Char) : Same (appendName c p) (appendName c q) := by
  have hsame := h
  obtain ⟨mem, stores, rfl, h⟩ := h
  unfold appendName
  dsimp only
  rw [h.name_eq]
  split
  . exact hsame.append _ c _ _
  . exact same_jsonError _ h.errbuf

theorem same_appendValue (h : Same p q) (hvalue : SameValue p q) (c : Char)
    : Same (appendValue c p) (appendValue c q) ∧ SameValue (appendValue c p) (appendValue c q) := by
  have hlen := h.value_eq hvalue
  have hsame := h
  obtain ⟨mem, stores, rfl, h⟩ := h
  unfold appendValue
  dsimp only at hlen ⊢
  rw [hlen]
  split
  . exact ⟨hsame.append _ c _ _, SameStr.append hvalue _ c⟩
  . exact ⟨same_jsonError _ h.errbuf, sameValue_jsonError _ _ _⟩

theorem same_eatContainer (h : Same p q) (hsaved : p.state.saved = true) (close : Char)
    (complete : Event) (err : Err) (c : Char)
    : Same (eatContainer close complete err c p) (eatContainer close complete err c q) := by
  have hsame := h
  obtain ⟨mem, stores, rfl, h⟩ := h
  unfold eatContainer
  dsimp only
  repeat' split
  . exact same_upState (hsame.event complete)
  . exact same_toState hsame _ rfl hsaved
  . exact same_toState (hsame.allowComma false) _ rfl hsaved
  . exact same_jsonError err h.errbuf
  . exact hsame

theorem same_open (h : Same p q) {st : State} (hst : st = .inObject ∨ st = .inArray)
    : Same (toState .toName (setState st p)) (toState .toName (setState st q)) := by
  have hsaved : (setState st p).state.saved = true := saved_push hst p
  refine same_toState (same_setState h st ?_) _ rfl hsaved
  rintro (rfl | rfl)
  . rcases hst with hst | hst <;> cases hst
  . rcases hst with hst | hst <;> cases hst

theorem same_outValue (h : Same p q) : Same (setState .outValue p) (setState .outValue q) :=
  same_setState h .outValue (by simp)

theorem same_eatOnce (h : Same p q) (c : Char)
    : Same (eatOnce c p).1 (eatOnce c q).1 ∧ (eatOnce c q).2 = (eatOnce c p).2 := by
  have hname := h.name_eq
  have hcontrol : q.state = p.state ∧ q.allowComma = p.allowComma ∧ q.isSlash = p.isSlash := by
    obtain ⟨mem, stores, rfl, -⟩ := h
    exact ⟨rfl, rfl, rfl⟩
  obtain ⟨hstate, -, hslash⟩ := hcontrol
  cases hst : p.state with
  | none =>
    have hsaved : p.state.saved = true := by rw [hst]; rfl
    simp only [eatOnce, hst, hstate.trans hst, hname]
    repeat' split
    . refine ⟨?_, rfl⟩
      have hopen := same_toState (h.event (.objectStart (p.name p.stack))) .inObject rfl hsaved
      exact (same_toState hopen .toName rfl (saved_toState_inObject _)).allowComma false
    . exact ⟨same_toState h _ rfl hsaved, rfl⟩
    . exact ⟨h, rfl⟩
  | inObject =>
    have hsaved : p.state.saved = true := by rw [hst]; rfl
    rw [eatOnce_inObject hst, eatOnce_inObject (hstate.trans hst)]
    dsimp only
    rw [hname]
    exact ⟨same_eatContainer h hsaved _ _ _ c, rfl⟩
  | inArray =>
    have hsaved : p.state.saved = true := by rw [hst]; rfl
    rw [eatOnce_inArray hst, eatOnce_inArray (hstate.trans hst)]
    dsimp only
    rw [hname]
    exact ⟨same_eatContainer h hsaved _ _ _ c, rfl⟩
  | toName =>
    simp only [eatOnce, hst, hstate.trans hst]
    repeat' split
    . exact ⟨same_setState h .inName (by simp), rfl⟩
    . exact ⟨h.error _, rfl⟩
    . exact ⟨h, rfl⟩
  | toColumn =>
    simp only [eatOnce, hst, hstate.trans hst]
    repeat' split
    . exact ⟨same_setState h .toValue (by simp), rfl⟩
    . exact ⟨h.error _, rfl⟩
    . exact ⟨h, rfl⟩
  | inName =>
    simp only [eatOnce, hst, hstate.trans hst]
    repeat' split
    . exact ⟨same_setState h .toColumn (by simp), rfl⟩
    . exact ⟨same_appendName h c, rfl⟩
    . exact ⟨h.error _, rfl⟩
  | toValue =>
    have hvalue := h.sameValue (by rw [hst]; rfl)
    rw [eatOnce_toValue hst, eatOnce_toValue (hstate.trans hst), hname]
    refine ⟨?_, rfl⟩
    dsimp only
    repeat' split
    . exact same_setState (h.isSlash false) _ fun _ => hvalue
    . have happend := same_appendValue h hvalue c
      exact same_setState happend.1 _ fun _ => happend.2
    . exact same_open (h.event _) (.inr rfl)
    . exact same_open (h.event _) (.inl rfl)
    . exact h.error _
    . exact h
  | inString =>
    have hvalue := h.sameValue (by rw [hst]; rfl)
    rw [eatOnce_inString hst, eatOnce_inString (hstate.trans hst), hname, h.value_eq hvalue, hslash]
    refine ⟨?_, rfl⟩
    dsimp only
    repeat' split
    . exact h.isSlash true
    . have hslash := same_appendValue (h.isSlash false) hvalue '\\'
      exact (same_appendValue hslash.1 hslash.2 c).1
    . exact same_outValue (h.event _)
    . exact (same_appendValue h hvalue c).1
  | inNum =>
    have hvalue := h.sameValue (by rw [hst]; rfl)
    simp only [eatOnce, hst, hstate.trans hst, hname, h.value_eq hvalue]
    repeat' split
    . exact ⟨(same_appendValue h hvalue c).1, rfl⟩
    . exact ⟨same_outValue (h.event _), rfl⟩
  | outValue =>
    have hsaved : p.state.saved = true := by rw [hst]; rfl
    simp only [eatOnce, hst, hstate.trans hst]
    repeat' split
    . exact ⟨same_toState h _ rfl hsaved, rfl⟩
    . exact ⟨same_upState h, rfl⟩
    . exact ⟨h, rfl⟩

theorem Same.passes_eq (h : Same p q) : q.passes = p.passes := by
  obtain ⟨mem, stores, rfl, -⟩ := h
  rfl

theorem same_jsonEatNoLog (h : Same p q) (c : Char) : Same (jsonEatNoLog c p) (jsonEatNoLog c q) := by
  unfold jsonEatNoLog
  rw [h.passes_eq]
  generalize p.passes = n
  induction n generalizing p q with
  | zero => exact h
  | succ n ih =>
    obtain ⟨hpass, hagain⟩ := same_eatOnce h c
    simp only [jsonEatNoLog.go, hagain]
    split
    . exact ih hpass
    . exact hpass

theorem same_jsonEat (h : Same p q) (c : Char) : Same (jsonEat p c) (jsonEat q c) := by
  rw [jsonEat_eq, jsonEat_eq]
  apply same_jsonEatNoLog
  obtain ⟨mem, stores, rfl, h⟩ := h
  unfold ParserData.log
  dsimp only
  cases isWhiteSpace c with
  | true => exact ⟨mem, stores, rfl, h.errbuf, h.names, h.value, h.saved⟩
  | false =>
    have habove : errbufAddr ≤ errbufAddr + p.errbufIndex := Nat.le_add_right _ _
    refine ⟨_, stores, rfl, update_agree h.errbuf _ c, ?_, ?_, h.saved⟩
    . exact fun row hrow => (h.names row hrow).store (.inr habove)
    . exact fun hreads => (h.value hreads).store (.inr habove)

theorem Same.events_eq (h : Same p q) : q.events = p.events := by
  obtain ⟨mem, stores, rfl, -⟩ := h
  rfl

theorem Same.trace_eq (h : Same p q) (text : List Char)
    : trace eatStep p text = trace eatStep q text := by
  induction text generalizing p q with
  | nil => rfl
  | cons c text ih =>
    have hstep := same_jsonEat h c
    have hevents : (eatStep p c).2 = (eatStep q c).2 := by
      simp only [eatStep, hstep.events_eq, h.events_eq]
    rw [trace_cons, trace_cons, hevents]
    congr 1
    exact ih hstep

end

/--
The state at the bottom is `none`, and no other is.
-/
def Based : List State → Prop
  | [] => False
  | st :: states => if st = .none then states = [] else Based states

theorem based_cons {st : State} (hst : st ≠ .none) {states : List State}
    : Based (st :: states) ↔ Based states := by
  rw [Based, if_neg hst]

theorem based_none {states : List State} : Based (.none :: states) ↔ states = [] := by
  rw [Based, if_pos rfl]

/--
What holds between two characters, also behind an error.
-/
structure Sound (p : ParserData) : Prop where
  based : Based (p.state :: p.states)
  saved : ∀ st ∈ p.states, st.saved = true
  stack_le : p.stack ≤ (p.states.filterMap State.kind).length
  stack_lt : p.stack < MAXSTACK
  blank : p.state = .toValue → p.mem (valueAddr p.stack) = NUL

section

variable {p : ParserData}

theorem sound_jsonReset (p : ParserData) : Sound (jsonReset p) := by
  rw [jsonReset_eq]
  exact ⟨based_none.mpr rfl, by simp, Nat.zero_le _, Nat.zero_lt_succ _, fun hst => by cases hst⟩

theorem sound_jsonError (err : Err) (p : ParserData) : Sound (jsonError err p) := sound_jsonReset _

theorem Sound.event (h : Sound p) (e : Event) : Sound (p.event e) :=
  ⟨h.based, h.saved, h.stack_le, h.stack_lt, h.blank⟩

theorem Sound.based_states (h : Sound p) (hp : p.state ≠ .none) : Based p.states :=
  (based_cons hp).mp h.based

theorem Sound.none_eq (h : Sound p) (hp : p.state = .none) : p.states = [] ∧ p.stack = 0 := by
  have hbased := h.based
  rw [hp, based_none] at hbased
  have hle := h.stack_le
  rw [hbased] at hle
  exact ⟨hbased, Nat.le_zero.mp hle⟩

theorem sound_setState (h : Sound p) (hp : p.state ≠ .none) {st : State} (hkind : st.kind = none)
    (hne : st ≠ .none)
    : Sound (setState st p) := by
  have hbased : Based (st :: p.states) := (based_cons hne).mpr (h.based_states hp)
  cases st with
  | none => exact absurd rfl hne
  | inObject | inArray => cases hkind
  | toValue => exact ⟨hbased, h.saved, h.stack_le, h.stack_lt, fun _ => Function.update_self ..⟩
  | _ => exact ⟨hbased, h.saved, h.stack_le, h.stack_lt, fun hst => by cases hst⟩

theorem sound_toState (h : Sound p) (hsaved : p.state.saved = true) {st : State}
    (hst : st = .toName ∨ st = .inName)
    : Sound (toState st p) := by
  have hbased : Based (st :: p.state :: p.states) := by
    rw [based_cons]
    . exact h.based
    . rcases hst with rfl | rfl <;> decide
  have hle : p.stack ≤ ((p.state :: p.states).filterMap State.kind).length := by
    apply Nat.le_trans h.stack_le
    exact ((List.sublist_cons_self p.state p.states).filterMap State.kind).length_le
  unfold toState
  dsimp only
  split
  . rcases hst with rfl | rfl
    . exact ⟨hbased, saved_append hsaved h.saved, hle, h.stack_lt, fun hst => by cases hst⟩
    . exact ⟨hbased, saved_append hsaved h.saved, hle, h.stack_lt, fun hst => by cases hst⟩
  . exact sound_jsonError _ _

/--
The row is pushed before the state of the container is saved.
-/
theorem sound_push {states : List State} {st : State} (hst : st.kind.isSome)
    (hstates : Based (st :: states)) (hsaved : ∀ st ∈ states, st.saved = true)
    (hle : p.stack ≤ (states.filterMap State.kind).length)
    : Sound (toState .toName (setState st { p with states })) := by
  rw [setState_container hst]
  split
  . next hlt =>
    unfold toState
    dsimp only
    split
    . refine ⟨(based_cons (show State.toName ≠ .none by decide)).mpr hstates, ?_, ?_, hlt,
        fun hst => by cases hst⟩
      . refine saved_append (p := { p with state := st, states }) ?_ hsaved
        cases st with
        | inObject | inArray => rfl
        | _ => cases hst
      . obtain ⟨kind, hkind⟩ := Option.isSome_iff_exists.mp hst
        show p.stack + 1 ≤ ((st :: states).filterMap State.kind).length
        rw [List.filterMap_cons_some hkind, List.length_cons]
        exact Nat.succ_le_succ hle
    . exact sound_jsonError _ _
  . exact sound_toState (sound_jsonError _ _) rfl (.inl rfl)

theorem sound_open (h : Sound p) (hp : p.state ≠ .none) {st : State} (hst : st.kind.isSome)
    (hne : st ≠ .none)
    : Sound (toState .toName (setState st p)) :=
  sound_push hst ((based_cons hne).mpr (h.based_states hp)) h.saved h.stack_le

theorem sound_openObject (h : Sound p) (hp : p.state = .none)
    : Sound (toState .toName (toState .inObject p)) := by
  generalize hq : toState .inObject p = q
  unfold toState at hq
  dsimp only at hq
  split at hq
  . rw [← hq]
    apply sound_push rfl
    . rw [based_cons (by decide)]
      exact h.based
    . apply saved_append _ h.saved
      rw [hp]
      rfl
    . rw [hp]
      exact h.stack_le
  . rw [← hq]
    exact sound_toState (sound_jsonError _ _) rfl (.inl rfl)

theorem sound_upState (h : Sound p) (hp : p.state ≠ .none) : Sound (upState p) := by
  have hbased := h.based_states hp
  have hle := h.stack_le
  have hsaved := h.saved
  have hlt := h.stack_lt
  unfold upState
  split
  . next st states hstates =>
    rw [hstates] at hbased hle hsaved
    have hrest : ∀ st' ∈ states, st'.saved = true :=
      fun st' hst' => hsaved st' (List.mem_cons_of_mem st hst')
    have hst : st.saved = true := hsaved st (List.mem_cons_self ..)
    cases st with
    | inObject | inArray =>
      dsimp only
      split
      . refine ⟨hbased, hrest, ?_, Nat.lt_of_le_of_lt (Nat.sub_le _ _) hlt, fun hst => by cases hst⟩
        have hle : p.stack ≤ (states.filterMap State.kind).length + 1 := hle
        exact Nat.sub_le_of_le_add hle
      . exact sound_jsonError _ _
    | none => exact ⟨hbased, hrest, hle, hlt, fun hst => by cases hst⟩
    | outValue => exact ⟨hbased, hrest, hle, hlt, fun hst => by cases hst⟩
    | toName | inName | toColumn | toValue | inString | inNum => cases hst
  . exact sound_jsonError _ _

theorem sound_appendName (h : Sound p) (hp : p.state ≠ .toValue) (c : Char)
    : Sound (appendName c p) := by
  unfold appendName
  dsimp only
  split
  . exact ⟨h.based, h.saved, h.stack_le, h.stack_lt, fun hst => absurd hst hp⟩
  . exact sound_jsonError _ _

theorem sound_appendValue (h : Sound p) (hp : p.state ≠ .toValue) (c : Char)
    : Sound (appendValue c p) := by
  unfold appendValue
  dsimp only
  split
  . exact ⟨h.based, h.saved, h.stack_le, h.stack_lt, fun hst => absurd hst hp⟩
  . exact sound_jsonError _ _

/--
The first character of a number always has room.
-/
theorem Sound.appendValue_eq (h : Sound p) (hp : p.state = .toValue) (c : Char)
    : appendValue c p = (p.storeValue 0 c).storeValue 1 NUL := by
  have hblank : IsStr NUL p.mem (valueAddr p.stack) [] := h.blank hp
  exact Json.appendValue_eq c hblank (Nat.zero_lt_succ _)

theorem sound_eatContainer (h : Sound p) (hp : p.state ≠ .none) (hsaved : p.state.saved = true)
    (close : Char) (complete : Event) (err : Err) (c : Char)
    : Sound (eatContainer close complete err c p) := by
  unfold eatContainer
  repeat' split
  . exact sound_upState (h.event complete) hp
  . exact sound_toState h hsaved (.inr rfl)
  . have hcomma : Sound { p with allowComma := false } :=
      ⟨h.based, h.saved, h.stack_le, h.stack_lt, h.blank⟩
    exact sound_toState hcomma hsaved (.inl rfl)
  . exact sound_jsonError _ _
  . exact h

theorem sound_eatOnce (h : Sound p) (c : Char) : Sound (eatOnce c p).1 := by
  have hslash (isSlash : Bool) : Sound { p with isSlash } :=
    ⟨h.based, h.saved, h.stack_le, h.stack_lt, h.blank⟩
  cases hst : p.state with
  | none =>
    have hsaved : p.state.saved = true := by rw [hst]; rfl
    simp only [eatOnce, hst]
    repeat' split
    . have hopen := sound_openObject (h.event (.objectStart (p.name p.stack))) hst
      exact ⟨hopen.based, hopen.saved, hopen.stack_le, hopen.stack_lt, hopen.blank⟩
    . exact sound_toState h hsaved (.inr rfl)
    . exact h
  | inObject =>
    rw [eatOnce_inObject hst]
    exact sound_eatContainer h (by rw [hst]; decide) (by rw [hst]; rfl) _ _ _ c
  | inArray =>
    rw [eatOnce_inArray hst]
    exact sound_eatContainer h (by rw [hst]; decide) (by rw [hst]; rfl) _ _ _ c
  | toName | toColumn =>
    simp only [eatOnce, hst]
    repeat' split
    . dsimp only
      apply sound_setState h
      . rw [hst]
        decide
      . rfl
      . decide
    . exact sound_jsonError _ _
    . exact h
  | inName =>
    simp only [eatOnce, hst]
    repeat' split
    . dsimp only
      apply sound_setState h
      . rw [hst]
        decide
      . rfl
      . decide
    . exact sound_appendName h (by rw [hst]; decide) c
    . exact sound_jsonError _ _
  | toValue =>
    have hne : p.state ≠ .none := by rw [hst]; decide
    rw [eatOnce_toValue hst]
    dsimp only
    repeat' split
    . exact sound_setState (hslash false) hne rfl (by decide)
    . rw [h.appendValue_eq hst]
      have hbased : Based (.inNum :: p.states) :=
        (based_cons (by decide)).mpr (h.based_states hne)
      exact ⟨hbased, h.saved, h.stack_le, h.stack_lt, fun hst => by cases hst⟩
    . exact sound_open (h.event _) hne rfl (by decide)
    . exact sound_open (h.event _) hne rfl (by decide)
    . exact sound_jsonError _ _
    . exact h
  | inString =>
    have hne : p.state ≠ .none := by rw [hst]; decide
    have hval : p.state ≠ .toValue := by rw [hst]; decide
    rw [eatOnce_inString hst]
    dsimp only
    repeat' split
    . exact hslash true
    . apply sound_appendValue
      . exact sound_appendValue (hslash false) hval _
      . unfold appendValue
        dsimp only
        split
        . exact hval
        . rw [jsonError_state]
          decide
    . exact sound_setState (h.event _) hne rfl (by decide)
    . exact sound_appendValue h hval c
  | inNum =>
    simp only [eatOnce, hst]
    repeat' split
    . exact sound_appendValue h (by rw [hst]; decide) c
    . dsimp only
      apply sound_setState (h.event _)
      . show p.state ≠ .none
        rw [hst]
        decide
      . rfl
      . decide
  | outValue =>
    simp only [eatOnce, hst]
    repeat' split
    . exact sound_toState h (by rw [hst]; rfl) (.inl rfl)
    . exact sound_upState h (by rw [hst]; decide)
    . exact h

theorem Sound.log (h : Sound p) (c : Char) : Sound (p.log c) := by
  refine ⟨h.based, h.saved, h.stack_le, h.stack_lt, ?_⟩
  intro hst
  have hblank : p.mem (valueAddr p.stack) = NUL := h.blank hst
  have hlt := h.stack_lt
  show (if isWhiteSpace c then p.mem else Function.update p.mem (errbufAddr + p.errbufIndex) c)
    (valueAddr p.stack) = NUL
  split
  . exact hblank
  . rw [Function.update_of_ne]
    . exact hblank
    . simp only [valueAddr, errbufAddr, MAXNAME, MAXVALUE, MAXSTACK] at hlt ⊢
      omega

theorem sound_jsonEat (h : Sound p) (c : Char) : Sound (jsonEat p c) := by
  rw [jsonEat_eq]
  apply jsonEatNoLog_rule Sound Sound
  . exact fun q hq _ => sound_eatOnce hq c
  . exact fun q hq _ => sound_eatOnce hq c
  . exact h.log c

theorem sound_exec (h : Sound p) (text : List Char) : Sound (exec eatStep p text) := by
  induction text generalizing p with
  | nil => exact h
  | cons c text ih => exact ih (sound_jsonEat h c)

end

/--
The fields that `jsonReset` sets are as it sets them, but for `value[0]`.
-/
structure Cleared (p : ParserData) : Prop where
  state : p.state = .none
  states : p.states = []
  stack : p.stack = 0
  allowComma : p.allowComma = false
  isSlash : p.isSlash = false
  errbufIndex : p.errbufIndex = 0
  numchars : p.numchars = 0
  name : p.mem (nameAddr 0) = NUL

/--
From `p` to `q` no error is reported.
-/
def Silent (p q : ParserData) : Prop :=
  ∃ events, q.events = p.events ++ events ∧ ∀ e ∈ events, e.isError = false

section

variable {p q r : ParserData}

theorem cleared_jsonReset (p : ParserData) : Cleared (jsonReset p) := by
  rw [jsonReset_eq]
  exact ⟨rfl, rfl, rfl, rfl, rfl, rfl, rfl, reset_name p.mem⟩

theorem cleared_jsonError (err : Err) (p : ParserData) : Cleared (jsonError err p) :=
  cleared_jsonReset _

theorem Cleared.same (h : Cleared p) : Same p (jsonReset p) := by
  obtain ⟨state, states, allowComma, isSlash, stack, mem, errbufIndex, numchars, events, stores⟩ := p
  obtain ⟨hstate, hstates, hstack, hcomma, hslash, hindex, hnum, hname⟩ := h
  dsimp only at hstate hstates hstack hcomma hslash hindex hnum hname
  subst hstate hstates hstack hcomma hslash hindex hnum
  rw [jsonReset_eq]
  refine ⟨_, _, rfl, ?_, ?_, (fun hreads => by cases hreads), by simp⟩
  . intro i hi
    have hbelow : nameAddr 0 < errbufAddr ∧ valueAddr 0 < errbufAddr := by decide
    rw [Function.update_of_ne (by omega), Function.update_of_ne (by omega)]
  . intro row hrow
    obtain rfl : row = 0 := Nat.le_zero.mp hrow
    exact sameStr_nul hname (reset_name mem)

theorem Silent.refl (p : ParserData) : Silent p p := ⟨[], by simp, by simp⟩

theorem silent_of_eq (h : q.events = p.events) : Silent p q := ⟨[], by simp [h], by simp⟩

theorem Silent.trans (hpq : Silent p q) (hqr : Silent q r) : Silent p r := by
  obtain ⟨events, hq, hpq⟩ := hpq
  obtain ⟨events', hr, hqr⟩ := hqr
  refine ⟨events ++ events', by rw [hr, hq, List.append_assoc], ?_⟩
  intro e he
  rcases List.mem_append.mp he with he | he
  . exact hpq e he
  . exact hqr e he

theorem silent_event {e : Event} (h : e.isError = false) (p : ParserData) : Silent p (p.event e) := by
  refine ⟨[e], rfl, ?_⟩
  intro e' he
  rw [List.mem_singleton.mp he]
  exact h

/--
A step reports no error, or it leaves the parser as `jsonReset` does.
-/
def Fine (p q : ParserData) : Prop := Silent p q ∨ Cleared q

theorem Fine.event {e : Event} (he : e.isError = false) (h : Fine (p.event e) q) : Fine p q :=
  h.imp (silent_event he p).trans id

theorem fine_setState (p : ParserData) {st : State} (hst : st.kind = none)
    : Fine p (setState st p) := by
  left
  cases st with
  | inObject | inArray => cases hst
  | _ => exact silent_of_eq rfl

theorem fine_toState (p : ParserData) {st : State} (hst : st.kind = none)
    : Fine p (toState st p) := by
  unfold toState
  dsimp only
  split
  . exact fine_setState { p with states := p.state :: p.states } hst
  . exact .inr (cleared_jsonError _ _)

theorem fine_upState (p : ParserData) : Fine p (upState p) := by
  unfold upState
  split
  . next st states hstates =>
    cases st with
    | inObject | inArray =>
      dsimp only
      split
      . exact .inl (silent_of_eq rfl)
      . exact .inr (cleared_jsonError _ _)
    | _ => exact .inl (silent_of_eq rfl)
  . exact .inr (cleared_jsonError _ _)

theorem fine_appendName (p : ParserData) (c : Char) : Fine p (appendName c p) := by
  unfold appendName
  dsimp only
  split
  . exact .inl (silent_of_eq rfl)
  . exact .inr (cleared_jsonError _ _)

theorem fine_appendValue (p : ParserData) (c : Char) : Fine p (appendValue c p) := by
  unfold appendValue
  dsimp only
  split
  . exact .inl (silent_of_eq rfl)
  . exact .inr (cleared_jsonError _ _)

/--
If there is no room for the backslash, its character goes into the first row.
-/
theorem fine_escaped (p : ParserData) (c : Char) : Fine p (appendValue c (appendValue '\\' p)) := by
  by_cases hlen : (p.value p.stack).length < MAXVALUE
  . have hslash : Silent p (appendValue '\\' p) := by
      unfold appendValue
      dsimp only
      rw [if_pos hlen]
      exact silent_of_eq rfl
    exact (fine_appendValue _ c).imp hslash.trans id
  . have herror : appendValue '\\' p = jsonError .valueTooLong p := by
      unfold appendValue
      dsimp only
      rw [if_neg hlen]
    have hclear := cleared_jsonError .valueTooLong p
    have hblank : IsStr NUL (jsonError .valueTooLong p).mem
        (valueAddr (jsonError .valueTooLong p).stack) [] := by
      rw [jsonError, jsonReset_eq]
      exact reset_value p.mem
    right
    rw [herror, appendValue_eq c hblank (Nat.zero_lt_succ _)]
    refine ⟨hclear.state, hclear.states, hclear.stack, hclear.allowComma, hclear.isSlash,
      hclear.errbufIndex, hclear.numchars, ?_⟩
    simp only [ParserData.storeValue, jsonError_stack, List.length_nil]
    rw [Function.update_of_ne (by decide), Function.update_of_ne (by decide)]
    exact hclear.name

theorem fine_eatContainer (p : ParserData) (close : Char) {complete : Event}
    (hcomplete : complete.isError = false) (err : Err) (c : Char)
    : Fine p (eatContainer close complete err c p) := by
  unfold eatContainer
  repeat' split
  . exact (fine_upState _).event hcomplete
  . exact fine_toState p rfl
  . exact fine_toState { p with allowComma := false } rfl
  . exact .inr (cleared_jsonError _ _)
  . exact .inl (Silent.refl p)

/--
The parser starts something of its own behind an error: a container is opened for which there is no
row, or behind a value comes the start of an object or of a name, and the container to go back to
has no row.
-/
def Resumes (c : Char) (p : ParserData) : Prop :=
  (p.state = .toValue ∧ (c = '[' ∨ c = '{') ∧ p.stack + 1 = MAXSTACK)
    ∨ ((p.state = .outValue ∨ p.state = .inNum) ∧ (c = '{' ∨ c = '"') ∧ p.stack = 0
      ∧ ((p.states.find? (· ≠ .outValue)).bind State.kind).isSome)

instance (c : Char) (p : ParserData) : Decidable (Resumes c p) :=
  inferInstanceAs (Decidable (_ ∨ _))

theorem fine_open (p : ParserData) {st : State} (hst : st.kind.isSome)
    (hlt : p.stack + 1 < MAXSTACK)
    : Fine p (toState .toName (setState st p)) := by
  rw [setState_container hst, if_pos hlt]
  exact fine_toState _ rfl

theorem fine_openObject (h : Sound p) (hp : p.state = .none)
    : Silent p (toState .toName (toState .inObject p)) := by
  obtain ⟨hstates, hstack⟩ := h.none_eq hp
  have hobject : toState .inObject p
      = ParserData.storeName { p with state := .inObject, states := [.none], stack := 1 } 0 NUL := by
    unfold toState
    dsimp only
    rw [hstates, hp, if_pos (by decide), setState_container rfl]
    dsimp only
    rw [hstack, if_pos (by decide)]
  rw [hobject]
  exact silent_of_eq rfl

theorem upState_spec (h : Sound p) (hp : p.state = .outValue) {c : Char} (hno : ¬ Resumes c p)
    : Silent p (upState p) ∧ (true = true → ¬ Resumes c (upState p))
        ∨ Cleared (upState p) ∧ (true = true → c ≠ '{' ∧ c ≠ '"') := by
  unfold upState
  split
  . next st states hstates =>
    have hskip : p.stack = 0 → st.kind.isSome →
        Cleared (jsonError .internal { p with state := st, states })
          ∧ (true = true → c ≠ '{' ∧ c ≠ '"') := by
      intro hstack hkind
      refine ⟨cleared_jsonError _ _, fun _ => not_or.mp fun hc => hno (.inr ⟨.inl hp, hc, hstack, ?_⟩)⟩
      have hne : st ≠ .outValue := by
        rintro rfl
        cases hkind
      have hfind : (st :: states).find? (· ≠ .outValue) = some st := by simp [hne]
      rw [hstates, hfind]
      exact hkind
    cases st with
    | inObject | inArray =>
      dsimp only
      split
      . left
        refine ⟨silent_of_eq rfl, ?_⟩
        rintro - (⟨hst, -⟩ | ⟨hst | hst, -⟩) <;> cases hst
      . next hpos => exact .inr (hskip (Nat.eq_zero_of_not_pos hpos) rfl)
    | outValue =>
      left
      refine ⟨silent_of_eq rfl, ?_⟩
      rintro - (⟨hst, -⟩ | ⟨-, hc, hstack, hkind⟩)
      . cases hst
      . apply hno
        refine .inr ⟨.inl hp, hc, hstack, ?_⟩
        rw [hstates, List.find?_cons_of_neg (by decide)]
        exact hkind
    | none =>
      left
      refine ⟨silent_of_eq rfl, ?_⟩
      rintro - (⟨hst, -⟩ | ⟨hst | hst, -⟩) <;> cases hst
    | _ =>
      have hsaved := h.saved
      rw [hstates] at hsaved
      cases hsaved _ (List.mem_cons_self ..)
  . next hstates =>
    have hbased := h.based_states (by rw [hp]; decide)
    rw [hstates] at hbased
    cases hbased

/--
One pass, and what a further one starts with.
-/
theorem pass_spec (h : Sound p) {c : Char} (hno : ¬ Resumes c p)
    : Silent p (eatOnce c p).1 ∧ ((eatOnce c p).2 = true → ¬ Resumes c (eatOnce c p).1)
        ∨ Cleared (eatOnce c p).1 ∧ ((eatOnce c p).2 = true → c ≠ '{' ∧ c ≠ '"') := by
  have hlast {q : ParserData} (hq : Fine p q)
      : Silent p (q, false).1 ∧ ((q, false).2 = true → ¬ Resumes c (q, false).1)
        ∨ Cleared (q, false).1 ∧ ((q, false).2 = true → c ≠ '{' ∧ c ≠ '"') :=
    hq.imp (fun hq => ⟨hq, fun hagain => by cases hagain⟩)
      (fun hq => ⟨hq, fun hagain => by cases hagain⟩)
  have herror (err : Err) : Fine p (jsonError err p) := .inr (cleared_jsonError err p)
  cases hst : p.state with
  | none =>
    simp only [eatOnce, hst]
    repeat' split
    . apply hlast
      left
      have hopen := fine_openObject (h.event (.objectStart (p.name p.stack))) hst
      exact ((silent_event rfl p).trans hopen).trans (silent_of_eq rfl)
    . exact hlast (fine_toState p rfl)
    . exact hlast (.inl (Silent.refl p))
  | inObject =>
    rw [eatOnce_inObject hst]
    exact hlast (fine_eatContainer p _ rfl _ c)
  | inArray =>
    rw [eatOnce_inArray hst]
    exact hlast (fine_eatContainer p _ rfl _ c)
  | toName | toColumn =>
    simp only [eatOnce, hst]
    repeat' split
    . exact hlast (fine_setState p rfl)
    . exact hlast (herror _)
    . exact hlast (.inl (Silent.refl p))
  | inName =>
    simp only [eatOnce, hst]
    repeat' split
    . exact hlast (fine_setState p rfl)
    . exact hlast (fine_appendName p c)
    . exact hlast (herror _)
  | toValue =>
    have hlt := h.stack_lt
    have hroom (hc : c = '[' ∨ c = '{') : p.stack + 1 < MAXSTACK := by
      by_contra hge
      exact hno (.inl ⟨hst, hc, by omega⟩)
    rw [eatOnce_toValue hst]
    apply hlast
    repeat' split
    . exact fine_setState _ rfl
    . rw [h.appendValue_eq hst]
      exact .inl (silent_of_eq rfl)
    . next hc =>
      refine Fine.event ?_ (fine_open _ ?_ ?_)
      . rfl
      . rfl
      . exact hroom (.inl hc)
    . next hc =>
      refine Fine.event ?_ (fine_open _ ?_ ?_)
      . rfl
      . rfl
      . exact hroom (.inr hc)
    . exact herror _
    . exact .inl (Silent.refl p)
  | inString =>
    rw [eatOnce_inString hst]
    apply hlast
    repeat' split
    . exact .inl (silent_of_eq rfl)
    . exact fine_escaped { p with isSlash := false } c
    . exact (fine_setState _ rfl).event rfl
    . exact fine_appendValue p c
  | inNum =>
    simp only [eatOnce, hst]
    split
    . exact hlast (fine_appendValue p c)
    . left
      refine ⟨(silent_event rfl p).trans (silent_of_eq rfl), ?_⟩
      rintro - (hvalue | ⟨-, hrest⟩)
      . cases hvalue.1
      . exact hno (.inr ⟨.inr hst, hrest⟩)
  | outValue =>
    simp only [eatOnce, hst]
    split
    . split
      . exact hlast (fine_toState p rfl)
      . exact upState_spec h hst hno
    . exact hlast (.inl (Silent.refl p))

theorem eatOnce_cleared (h : Cleared p) {c : Char} (hc : c ≠ '{' ∧ c ≠ '"')
    : eatOnce c p = (p, false) := by
  simp only [eatOnce, h.state]
  rw [if_neg hc.1, if_neg hc.2]

theorem fine_jsonEat (h : Sound p) {c : Char} (hno : ¬ Resumes c p) : Fine p (jsonEat p c) := by
  rw [jsonEat_eq]
  apply jsonEatNoLog_rule
    (fun q => Sound q ∧ Silent p q ∧ ¬ Resumes c q ∨ Cleared q ∧ c ≠ '{' ∧ c ≠ '"') (Fine p)
  . rintro q (⟨hsound, hsilent, hno⟩ | ⟨hclear, hc⟩) hagain
    . cases pass_spec hsound hno with
      | inl hpass =>
        exact .inl ⟨sound_eatOnce hsound c, hsilent.trans hpass.1, hpass.2 hagain⟩
      | inr hpass => exact .inr ⟨hpass.1, hpass.2 hagain⟩
    . rw [eatOnce_cleared hclear hc] at hagain
      cases hagain
  . rintro q (⟨hsound, hsilent, hno⟩ | ⟨hclear, hc⟩) -
    . exact (pass_spec hsound hno).imp (fun hpass => hsilent.trans hpass.1) (fun hpass => hpass.1)
    . rw [eatOnce_cleared hclear hc]
      exact .inr hclear
  . exact .inl ⟨h.log c, silent_of_eq rfl, hno⟩

theorem Failed.mono {n m : Nat} (h : Failed m q) (hle : n ≤ m) : Failed n q := by
  obtain ⟨e, he, herr⟩ := h.error
  exact ⟨Nat.le_trans hle h.le, e, (List.drop_sublist_drop_left _ hle).subset he, herr⟩

/--
No row for the container: the error is reported, and then its first name is asked for.
-/
theorem open_full (p : ParserData) {st : State} (hst : st.kind.isSome)
    (hfull : p.stack + 1 = MAXSTACK)
    : (toState .toName (setState st p)).state = .toName
        ∧ Failed p.events.length (toState .toName (setState st p)) := by
  rw [setState_container hst, if_neg (by omega)]
  generalize hq : jsonError .internal { p with state := st, stack := p.stack + 1 } = q
  have hstates : q.states = [] := by rw [← hq]; rfl
  have hfailed : Failed p.events.length q := by
    rw [← hq]
    exact failed_jsonError (Nat.le_refl _) _
  unfold toState
  dsimp only
  rw [hstates, List.length_singleton, if_pos (show 1 < MAXSTATES by decide)]
  exact ⟨rfl, hfailed.le, hfailed.error⟩

/--
Behind a value, with a container to go back to that has no row.
-/
structure Stuck (c : Char) (q : ParserData) : Prop where
  state : q.state = .outValue ∨ q.state = .inNum
  char : c = '{' ∨ c = '"'
  stack : q.stack = 0
  kind : ((q.states.find? (· ≠ .outValue)).bind State.kind).isSome

theorem Stuck.chars {c : Char} (h : Stuck c q)
    : c ≠ ',' ∧ isWhiteSpace c = false ∧ isNum c = false := by
  rcases h.char with rfl | rfl <;> decide

theorem Stuck.pass {c : Char} (h : Stuck c q)
    : (eatOnce c q).2 = true
        ∧ (Stuck c (eatOnce c q).1
          ∨ Cleared (eatOnce c q).1 ∧ Failed q.events.length (eatOnce c q).1) := by
  obtain ⟨hcomma, hblank, hnum⟩ := h.chars
  rcases h.state with hst | hst
  . simp only [eatOnce, hst, hblank, hcomma, Bool.not_false, if_true, if_false, true_and]
    have hkind := h.kind
    unfold upState
    split
    . next st states hstates =>
      rw [hstates] at hkind
      cases st with
      | inObject | inArray =>
        dsimp only
        rw [h.stack, if_neg (Nat.lt_irrefl 0)]
        exact .inr ⟨cleared_jsonError _ _, failed_jsonError (Nat.le_refl _) _⟩
      | outValue =>
        rw [List.find?_cons_of_neg (by decide)] at hkind
        exact .inl ⟨.inl rfl, h.char, h.stack, hkind⟩
      | _ => cases hkind
    . next hstates =>
      rw [hstates] at hkind
      cases hkind
  . simp only [eatOnce, hst, hnum, Bool.false_eq_true, if_false, true_and]
    exact .inl ⟨.inl rfl, h.char, h.stack, h.kind⟩

/--
The start of an object or of a name, read by a parser that has just been reset.
-/
theorem cleared_starts (h : Cleared q) {c : Char} (hc : c = '{' ∨ c = '"')
    : (eatOnce c q).1.state ≠ .none ∧ (eatOnce c q).2 = false := by
  simp only [eatOnce, h.state]
  rcases hc with rfl | rfl
  . rw [if_pos rfl]
    simp [toState, setState, ParserData.event, ParserData.storeName, h.states, h.stack, MAXSTATES,
      MAXSTACK]
  . rw [if_neg (by decide), if_pos rfl]
    simp [toState, setState, ParserData.storeName, h.states, MAXSTATES]

theorem jsonEat_resumes {c : Char} (h : Resumes c p)
    : (jsonEat p c).state ≠ .none ∧ Failed p.events.length (jsonEat p c) := by
  rw [jsonEat_eq]
  rcases h with ⟨hst, hc, hfull⟩ | ⟨hst, hc, hstack, hkind⟩
  . have hst' : (p.log c).state = .toValue := hst
    have hfull' : (p.log c).stack + 1 = MAXSTACK := hfull
    rw [jsonEatNoLog_eq, eatOnce_toValue hst']
    have hpush (e : Event) {st : State} (hst : st.kind.isSome)
        : (toState .toName (setState st ((p.log c).event e))).state ≠ .none
          ∧ Failed p.events.length (toState .toName (setState st ((p.log c).event e))) := by
      obtain ⟨hstate, hfailed⟩ := open_full ((p.log c).event e) hst hfull'
      have hlength : ((p.log c).event e).events.length = p.events.length + 1 := List.length_append
      rw [hlength] at hfailed
      exact ⟨by rw [hstate]; decide, hfailed.mono (Nat.le_succ _)⟩
    rcases hc with rfl | rfl
    . exact hpush (.arrayStart _) rfl
    . exact hpush (.objectStart _) rfl
  . apply jsonEatNoLog_rule
      (fun q => Stuck c q ∧ p.events.length ≤ q.events.length ∨ Cleared q ∧ Failed p.events.length q)
      (fun q => q.state ≠ .none ∧ Failed p.events.length q)
    . rintro q (⟨hstuck, hle⟩ | ⟨hclear, hfailed⟩) hagain
      . rcases hstuck.pass.2 with hstuck' | ⟨hclear, hfailed⟩
        . obtain ⟨events, hevents, -⟩ := keeps_eatOnce (p := q) c
          refine .inl ⟨hstuck', ?_⟩
          rw [hevents, List.length_append]
          exact Nat.le_add_right_of_le hle
        . exact .inr ⟨hclear, hfailed.mono hle⟩
      . rw [(cleared_starts hclear hc).2] at hagain
        cases hagain
    . rintro q (⟨hstuck, -⟩ | ⟨hclear, hfailed⟩) hlast
      . rw [hstuck.pass.1] at hlast
        cases hlast
      . exact ⟨(cleared_starts hclear hc).1, hfailed.keeps (keeps_eatOnce c)⟩
    . exact .inl ⟨⟨hst, hc, hstack, hkind⟩, Nat.le_refl _⟩

end

/--
With the next character an error is reported.
-/
def ReportsError (p : ParserData) (c : Char) : Prop := ∃ e ∈ (eatStep p c).2, e.isError = true

/--
The parser is where `jsonReset` leaves it, and reads every text as if it were the first one.
-/
structure Recovered (p : ParserData) : Prop where
  state : p.state = .none
  states : p.states = []
  stack : p.stack = 0
  allowComma : p.allowComma = false
  next : ∀ text, trace eatStep p text = trace eatStep (jsonReset p) text

theorem not_reportsError_of_silent {p : ParserData} {c : Char} (h : Silent p (jsonEat p c))
    : ¬ ReportsError p c := by
  obtain ⟨events, hevents, hno⟩ := h
  rintro ⟨e, he, herr⟩
  simp only [eatStep, hevents, List.drop_left] at he
  rw [hno e he] at herr
  cases herr

/--
Behind an error the parser is recovered, whatever it has read, unless it goes on with something of
its own.
-/
theorem recovered_iff (p : ParserData) (text : List Char) (c : Char)
    : (ReportsError (exec eatStep (jsonReset p) text) c →
          Recovered (jsonEat (exec eatStep (jsonReset p) text) c))
        ↔ ¬ Resumes c (exec eatStep (jsonReset p) text) := by
  have hsound := sound_exec (sound_jsonReset p) text
  generalize exec eatStep (jsonReset p) text = q at hsound
  constructor
  . intro h hresumes
    obtain ⟨hstate, hfailed⟩ := jsonEat_resumes hresumes
    exact hstate (h hfailed.error).state
  . intro hno hreports
    cases fine_jsonEat hsound hno with
    | inl hsilent => exact absurd hreports (not_reportsError_of_silent hsilent)
    | inr hclear =>
      exact ⟨hclear.state, hclear.states, hclear.stack, hclear.allowComma, hclear.same.trace_eq⟩

/--
A fifth container, for which there is no row: the brace is followed by the name of a member.
-/
theorem fifth_not_recovered
    : let p := exec eatStep (jsonReset .init) "\x7b\"a\":\x7b\"b\":\x7b\"c\":\x7b\"d\":".toList
      ReportsError p '{' ∧ (jsonEat p '{').state = .toName ∧ (jsonEat p '{').states = [.none] := by
  dsimp only
  refine ⟨?_, by decide, by decide⟩
  unfold ReportsError
  decide

end Json
