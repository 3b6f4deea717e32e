import Mathlib.Data.List.Induction
import IotGateway.Json.Lemmas.Parser

/-!
This module says when all stores of the parser stay inside their rows: `appendName` and
`appendValue` must not be called on a string that fills its row already.
-/

namespace Json

open CString

def Store.inside : Store → Prop
  | .name row index => row < MAXSTACK ∧ index < MAXNAME
  | .value row index => row < MAXSTACK ∧ index < MAXVALUE

structure Safe (p : ParserData) : Prop where
  stateIndex_lt : p.states.length < MAXSTATES
  stack_lt : p.stack < MAXSTACK
  stores : ∀ s ∈ p.stores, s.inside
  names : ∀ row ≤ p.stack, ∃ i < MAXNAME, p.mem (nameAddr row + i) = NUL
  value : ∃ i < MAXVALUE, p.mem (valueAddr p.stack + i) = NUL

/--
What the parser is told: a character, or to start again.
-/
inductive Input where
  | char (c : Char)
  | reset

def step (p : ParserData) : Input → ParserData
  | .char c => jsonEat p c
  | .reset => jsonReset p

def run (inputs : List Input) : ParserData := inputs.foldl step .init

/--
The input makes the parser append to a string one character short of its row, or to a value two
characters short of it if it is an escaped pair.
-/
def Overfills (p : ParserData) : Input → Prop
  | .reset => False
  | .char c =>
    let len := (p.value p.stack).length
    match p.state with
    | .inName => c ≠ '"' ∧ isValidNameChar c ∧ (p.name p.stack).length + 1 = MAXNAME
    | .toValue => c ≠ '"' ∧ (isNum c || isSign c) ∧ len + 1 = MAXVALUE
    | .inNum => isNum c ∧ len + 1 = MAXVALUE
    | .inString =>
      if p.isSlash then
        len + 1 = MAXVALUE ∨ len + 2 = MAXVALUE
      else
        c ≠ '\\' ∧ c ≠ '"' ∧ len + 1 = MAXVALUE
    | _ => False

/--
Every row holds a terminator.
-/
structure Rows (mem : Nat → Char) : Prop where
  names : ∀ row < MAXSTACK, ∃ i < MAXNAME, mem (nameAddr row + i) = NUL
  values : ∀ row < MAXSTACK, ∃ i < MAXVALUE, mem (valueAddr row + i) = NUL

theorem Rows.nul {mem : Nat → Char} (h : Rows mem) (a : Nat) : Rows (Function.update mem a NUL) := by
  have hkeep : ∀ b, mem b = NUL → Function.update mem a NUL b = NUL := by
    intro b hb
    by_cases hab : b = a
    . rw [hab, Function.update_self]
    . rw [Function.update_of_ne hab, hb]
  constructor
  . intro row hrow
    obtain ⟨i, hi, hnul⟩ := h.names row hrow
    exact ⟨i, hi, hkeep _ hnul⟩
  . intro row hrow
    obtain ⟨i, hi, hnul⟩ := h.values row hrow
    exact ⟨i, hi, hkeep _ hnul⟩

theorem Rows.appendName {mem : Nat → Char} (h : Rows mem) {row len : Nat} (c : Char)
    (hrow : row < MAXSTACK) (hlen : len + 1 < MAXNAME)
    : Rows (Function.update (Function.update mem (nameAddr row + len) c)
        (nameAddr row + (len + 1)) NUL) := by
  simp only [MAXSTACK, MAXNAME] at hrow hlen
  constructor
  . intro row' hrow'
    simp only [MAXSTACK, MAXNAME, nameAddr] at hrow' ⊢
    by_cases hsame : row' = row
    . subst hsame
      exact ⟨len + 1, by omega, Function.update_self ..⟩
    . obtain ⟨i, hi, hnul⟩ := h.names row' hrow'
      simp only [MAXNAME, nameAddr] at hi hnul
      refine ⟨i, hi, ?_⟩
      rw [Function.update_of_ne (by omega), Function.update_of_ne (by omega), hnul]
  . intro row' hrow'
    obtain ⟨i, hi, hnul⟩ := h.values row' hrow'
    simp only [MAXSTACK, MAXNAME, MAXVALUE, nameAddr, valueAddr] at hrow' hi hnul ⊢
    refine ⟨i, hi, ?_⟩
    rw [Function.update_of_ne (by omega), Function.update_of_ne (by omega), hnul]

theorem Rows.appendValue {mem : Nat → Char} (h : Rows mem) {row len : Nat} (c : Char)
    (hrow : row < MAXSTACK) (hlen : len + 1 < MAXVALUE)
    : Rows (Function.update (Function.update mem (valueAddr row + len) c)
        (valueAddr row + (len + 1)) NUL) := by
  simp only [MAXSTACK, MAXVALUE] at hrow hlen
  constructor
  . intro row' hrow'
    obtain ⟨i, hi, hnul⟩ := h.names row' hrow'
    simp only [MAXSTACK, MAXNAME, MAXVALUE, nameAddr, valueAddr] at hrow' hi hnul ⊢
    refine ⟨i, hi, ?_⟩
    rw [Function.update_of_ne (by omega), Function.update_of_ne (by omega), hnul]
  . intro row' hrow'
    simp only [MAXSTACK, MAXNAME, MAXVALUE, valueAddr] at hrow' ⊢
    by_cases hsame : row' = row
    . subst hsame
      exact ⟨len + 1, by omega, Function.update_self ..⟩
    . obtain ⟨i, hi, hnul⟩ := h.values row' hrow'
      simp only [MAXSTACK, MAXNAME, MAXVALUE, valueAddr] at hi hnul
      refine ⟨i, hi, ?_⟩
      rw [Function.update_of_ne (by omega), Function.update_of_ne (by omega), hnul]

theorem Rows.log {mem : Nat → Char} (h : Rows mem) (i : Nat) (c : Char)
    : Rows (Function.update mem (errbufAddr + i) c) := by
  constructor
  . intro row hrow
    obtain ⟨k, hk, hnul⟩ := h.names row hrow
    simp only [MAXSTACK, MAXNAME, MAXVALUE, nameAddr, errbufAddr] at hrow hk hnul ⊢
    refine ⟨k, hk, ?_⟩
    rw [Function.update_of_ne (by omega), hnul]
  . intro row hrow
    obtain ⟨k, hk, hnul⟩ := h.values row hrow
    simp only [MAXSTACK, MAXNAME, MAXVALUE, valueAddr, errbufAddr] at hrow hk hnul ⊢
    refine ⟨k, hk, ?_⟩
    rw [Function.update_of_ne (by omega), hnul]

structure RowsInv (p : ParserData) : Prop where
  stores : ∀ s ∈ p.stores, s.inside
  rows : Rows p.mem

structure ParserInv (p : ParserData) : Prop extends RowsInv p where
  stateIndex_lt : p.states.length < MAXSTATES
  stack_lt : p.stack < MAXSTACK
  saved : ∀ st ∈ p.states, st.saved = true

theorem ParserInv.safe {p : ParserData} (h : ParserInv p) : Safe p := by
  refine ⟨h.stateIndex_lt, h.stack_lt, h.stores, ?_, ?_⟩
  . intro row hrow
    have := h.stack_lt
    exact h.rows.names row (by omega)
  . exact h.rows.values p.stack h.stack_lt

theorem RowsInv.storeName {p : ParserData} (h : RowsInv p) (hstack : p.stack < MAXSTACK)
    : RowsInv (p.storeName 0 NUL) := by
  refine ⟨?_, h.rows.nul _⟩
  intro s hs
  simp only [ParserData.storeName, List.mem_append, List.mem_singleton] at hs
  rcases hs with hs | rfl
  . exact h.stores s hs
  . exact ⟨hstack, by decide⟩

theorem RowsInv.storeValue {p : ParserData} (h : RowsInv p) (hstack : p.stack < MAXSTACK)
    : RowsInv (p.storeValue 0 NUL) := by
  refine ⟨?_, h.rows.nul _⟩
  intro s hs
  simp only [ParserData.storeValue, List.mem_append, List.mem_singleton] at hs
  rcases hs with hs | rfl
  . exact h.stores s hs
  . exact ⟨hstack, by decide⟩

theorem parserInv_jsonReset {p : ParserData} (h : RowsInv p) : ParserInv (jsonReset p) := by
  rw [jsonReset_eq]
  refine ⟨⟨?_, (h.rows.nul _).nul _⟩, Nat.zero_lt_succ _, Nat.zero_lt_succ _, by simp⟩
  intro s hs
  simp only [List.mem_append, List.mem_cons, List.not_mem_nil, or_false] at hs
  rcases hs with hs | rfl | rfl
  . exact h.stores s hs
  . exact ⟨by decide, by decide⟩
  . exact ⟨by decide, by decide⟩

theorem parserInv_jsonError {p : ParserData} (err : Err) (h : RowsInv p)
    : ParserInv (jsonError err p) := by
  apply parserInv_jsonReset
  exact ⟨h.stores, h.rows⟩

theorem ParserInv.event {p : ParserData} (h : ParserInv p) (e : Event) : ParserInv (p.event e) :=
  ⟨⟨h.stores, h.rows⟩, h.stateIndex_lt, h.stack_lt, h.saved⟩

theorem parserInv_push {p : ParserData} (h : ParserInv p) (st : State)
    : ParserInv
        (let p := { p with state := st, stack := p.stack + 1 }
        if p.stack < MAXSTACK then p.storeName 0 NUL else jsonError .internal p) := by
  have hrows : RowsInv { p with state := st, stack := p.stack + 1 } := ⟨h.stores, h.rows⟩
  dsimp only
  split
  . next hlt => exact ⟨hrows.storeName hlt, h.stateIndex_lt, hlt, h.saved⟩
  . apply parserInv_jsonError
    exact hrows

theorem parserInv_setState {p : ParserData} (h : ParserInv p) (st : State)
    : ParserInv (setState st p) := by
  have hrows : RowsInv { p with state := st } := ⟨h.stores, h.rows⟩
  unfold setState
  cases st with
  | inName => exact ⟨hrows.storeName h.stack_lt, h.stateIndex_lt, h.stack_lt, h.saved⟩
  | toValue => exact ⟨hrows.storeValue h.stack_lt, h.stateIndex_lt, h.stack_lt, h.saved⟩
  | inObject | inArray => exact parserInv_push h _
  | _ => exact ⟨⟨h.stores, h.rows⟩, h.stateIndex_lt, h.stack_lt, h.saved⟩

theorem parserInv_toState {p : ParserData} (h : ParserInv p) (hsaved : p.state.saved = true)
    (st : State)
    : ParserInv (toState st p) := by
  unfold toState
  dsimp only
  split
  . next hlt =>
    apply parserInv_setState
    exact ⟨⟨h.stores, h.rows⟩, hlt, h.stack_lt, saved_append hsaved h.saved⟩
  . apply parserInv_jsonError
    exact ⟨h.stores, h.rows⟩

theorem parserInv_upState {p : ParserData} (h : ParserInv p)
    : ParserInv (upState p) ∧ (upState p).state.saved = true := by
  unfold upState
  split
  . next st states hstates =>
    have hlt := h.stateIndex_lt
    have hstack := h.stack_lt
    rw [hstates, List.length_cons] at hlt
    have hlt' : states.length < MAXSTATES := by omega
    have hmem : ∀ st' ∈ states, st'.saved = true := by
      intro st' hst'
      apply h.saved
      rw [hstates]
      exact List.mem_cons_of_mem st hst'
    have hst : st.saved = true := by
      apply h.saved
      rw [hstates]
      exact List.mem_cons_self
    cases st with
    | inObject | inArray =>
      dsimp only
      split
      . exact ⟨⟨⟨h.stores, h.rows⟩, hlt', by dsimp only; omega, hmem⟩, rfl⟩
      . refine ⟨parserInv_jsonError _ ⟨h.stores, h.rows⟩, rfl⟩
    | none =>
      have hstore := RowsInv.storeName (p := { p with state := .none, states })
        ⟨h.stores, h.rows⟩ hstack
      exact ⟨⟨hstore, hlt', hstack, hmem⟩, rfl⟩
    | outValue => exact ⟨⟨⟨h.stores, h.rows⟩, hlt', hstack, hmem⟩, rfl⟩
    | toName | inName | toColumn | toValue | inString | inNum => cases hst
  . exact ⟨parserInv_jsonError _ ⟨h.stores, h.rows⟩, rfl⟩

theorem ParserInv.name_isStr {p : ParserData} (h : ParserInv p)
    : IsStr NUL p.mem (nameAddr p.stack) (p.name p.stack) ∧ (p.name p.stack).length < MAXNAME := by
  obtain ⟨i, hi, hnul⟩ := h.rows.names p.stack h.stack_lt
  have hmem : i < memSize := by
    simp only [MAXNAME, MAXVALUE, MAXSTACK, MAXERRORBUFFER, memSize, errbufAddr] at hi ⊢
    omega
  have hstr := isStr_cstr_of_nul hmem hnul
  exact ⟨hstr.1, Nat.lt_of_le_of_lt hstr.2 hi⟩

theorem ParserInv.value_isStr {p : ParserData} (h : ParserInv p)
    : IsStr NUL p.mem (valueAddr p.stack) (p.value p.stack) ∧ (p.value p.stack).length < MAXVALUE := by
  obtain ⟨i, hi, hnul⟩ := h.rows.values p.stack h.stack_lt
  have hmem : i < memSize := by
    simp only [MAXNAME, MAXVALUE, MAXSTACK, MAXERRORBUFFER, memSize, errbufAddr] at hi ⊢
    omega
  have hstr := isStr_cstr_of_nul hmem hnul
  exact ⟨hstr.1, Nat.lt_of_le_of_lt hstr.2 hi⟩

theorem parserInv_appendName {p : ParserData} (h : ParserInv p) (c : Char)
    (hlen : (p.name p.stack).length + 1 ≠ MAXNAME)
    : ParserInv (appendName c p) := by
  have hname := h.name_isStr.2
  unfold appendName
  dsimp only
  rw [if_pos hname]
  refine ⟨⟨?_, ?_⟩, h.stateIndex_lt, h.stack_lt, h.saved⟩
  . intro s hs
    simp only [ParserData.storeName, List.append_assoc, List.mem_append, List.mem_singleton] at hs
    rcases hs with hs | rfl | rfl
    . exact h.stores s hs
    . exact ⟨h.stack_lt, hname⟩
    . refine ⟨h.stack_lt, ?_⟩
      omega
  . apply h.rows.appendName c h.stack_lt
    omega

theorem parserInv_appendValue {p : ParserData} (h : ParserInv p) (c : Char)
    (hlen : (p.value p.stack).length + 1 ≠ MAXVALUE)
    : ParserInv (appendValue c p) := by
  have hvalue := h.value_isStr.2
  unfold appendValue
  dsimp only
  rw [if_pos hvalue]
  refine ⟨⟨?_, ?_⟩, h.stateIndex_lt, h.stack_lt, h.saved⟩
  . intro s hs
    simp only [ParserData.storeValue, List.append_assoc, List.mem_append, List.mem_singleton] at hs
    rcases hs with hs | rfl | rfl
    . exact h.stores s hs
    . exact ⟨h.stack_lt, hvalue⟩
    . refine ⟨h.stack_lt, ?_⟩
      omega
  . apply h.rows.appendValue c h.stack_lt
    omega

theorem saved_push {st : State} (hst : st = .inObject ∨ st = .inArray) (p : ParserData)
    : (setState st p).state.saved = true := by
  rcases hst with rfl | rfl
  all_goals
    simp only [setState]
    split
    . rfl
    . rfl

theorem saved_toState_inObject (p : ParserData) : (toState .inObject p).state.saved = true := by
  unfold toState
  dsimp only
  split
  . apply saved_push
    exact .inl rfl
  . rfl

theorem parserInv_eatContainer {p : ParserData} (h : ParserInv p) (hsaved : p.state.saved = true)
    (close : Char) (complete : Event) (err : Err) (c : Char)
    : ParserInv (eatContainer close complete err c p) := by
  unfold eatContainer
  repeat' split
  . exact (parserInv_upState (h.event complete)).1
  . apply parserInv_toState h hsaved
  . apply parserInv_toState
    . exact ⟨⟨h.stores, h.rows⟩, h.stateIndex_lt, h.stack_lt, h.saved⟩
    . exact hsaved
  . apply parserInv_jsonError
    exact h.toRowsInv
  . exact h

theorem value_backslash {p : ParserData} (h : ParserInv p)
    (hlen : (p.value p.stack).length + 1 < MAXVALUE)
    : (appendValue '\\' p).value p.stack = p.value p.stack ++ ['\\'] := by
  obtain ⟨hstr, hlt⟩ := h.value_isStr
  apply value_eq (isStr_appendValue hstr hlt (by decide))
  simp only [List.length_append, List.length_singleton]
  omega

theorem parserInv_escaped {p : ParserData} (h : ParserInv p) (c : Char)
    (hlen : (p.value p.stack).length + 2 < MAXVALUE)
    : ParserInv (appendValue c (appendValue '\\' p)) := by
  obtain ⟨hstr, hlt⟩ := h.value_isStr
  apply parserInv_appendValue
  . apply parserInv_appendValue h
    omega
  . rw [appendValue_stack hstr hlt, value_backslash h (by omega), List.length_append,
      List.length_singleton]
    omega

theorem parserInv_eatOnce {c : Char} {p : ParserData} (h : ParserInv p)
    (hfit : ¬ Overfills p (.char c))
    : ParserInv (eatOnce c p).1 := by
  have herr : ∀ err, ParserInv (jsonError err p) := by
    intro err
    apply parserInv_jsonError
    exact h.toRowsInv
  cases hst : p.state with
  | none =>
    have hsaved : p.state.saved = true := by rw [hst]; rfl
    simp only [eatOnce, hst]
    repeat' split
    all_goals dsimp only
    . have hobject : ParserInv (toState .inObject (p.event (.objectStart (p.name p.stack)))) := by
        apply parserInv_toState (h.event _)
        exact hsaved
      have hname := parserInv_toState hobject (saved_toState_inObject _) .toName
      exact ⟨⟨hname.stores, hname.rows⟩, hname.stateIndex_lt, hname.stack_lt, hname.saved⟩
    . apply parserInv_toState h hsaved
    . exact h
  | inObject =>
    rw [eatOnce_inObject hst]
    apply parserInv_eatContainer h
    rw [hst]
    rfl
  | toName =>
    simp only [eatOnce, hst]
    repeat' split
    all_goals dsimp only
    . apply parserInv_setState h
    . apply herr
    . exact h
  | inName =>
    simp only [Overfills, hst] at hfit
    simp only [eatOnce, hst]
    repeat' split
    all_goals dsimp only
    . apply parserInv_setState h
    . next hquote hvalid =>
      apply parserInv_appendName h
      intro hlen
      exact hfit ⟨hquote, hvalid, hlen⟩
    . apply herr
  | toColumn =>
    simp only [eatOnce, hst]
    repeat' split
    all_goals dsimp only
    . apply parserInv_setState h
    . apply herr
    . exact h
  | toValue =>
    simp only [Overfills, hst] at hfit
    simp only [eatOnce, hst]
    repeat' split
    all_goals dsimp only
    . apply parserInv_setState
      exact ⟨⟨h.stores, h.rows⟩, h.stateIndex_lt, h.stack_lt, h.saved⟩
    . next hquote hnum =>
      apply parserInv_setState
      apply parserInv_appendValue h
      intro hlen
      apply hfit
      refine ⟨hquote, ?_, hlen⟩
      simpa using hnum
    . apply parserInv_toState
      . apply parserInv_setState (h.event _)
      . apply saved_push
        exact .inr rfl
    . apply parserInv_toState
      . apply parserInv_setState (h.event _)
      . apply saved_push
        exact .inl rfl
    . apply herr
    . exact h
  | inString =>
    simp only [Overfills, hst] at hfit
    simp only [eatOnce, hst]
    have hlt := h.value_isStr.2
    repeat' split
    all_goals dsimp only
    . exact ⟨⟨h.stores, h.rows⟩, h.stateIndex_lt, h.stack_lt, h.saved⟩
    . next hslash =>
      rw [if_pos hslash] at hfit
      apply parserInv_escaped
      . exact ⟨⟨h.stores, h.rows⟩, h.stateIndex_lt, h.stack_lt, h.saved⟩
      . show (p.value p.stack).length + 2 < MAXVALUE
        omega
    . apply parserInv_setState (h.event _)
    . next hback hslash hquote =>
      rw [if_neg hslash] at hfit
      apply parserInv_appendValue h
      intro hlen
      apply hfit
      refine ⟨?_, hquote, hlen⟩
      intro hc
      apply hback
      simp [hc, hslash]
  | inNum =>
    simp only [Overfills, hst] at hfit
    simp only [eatOnce, hst]
    repeat' split
    all_goals dsimp only
    . next hnum =>
      apply parserInv_appendValue h
      intro hlen
      exact hfit ⟨hnum, hlen⟩
    . apply parserInv_setState (h.event _)
  | inArray =>
    rw [eatOnce_inArray hst]
    apply parserInv_eatContainer h
    rw [hst]
    rfl
  | outValue =>
    have hsaved : p.state.saved = true := by rw [hst]; rfl
    simp only [eatOnce, hst]
    repeat' split
    all_goals dsimp only
    . apply parserInv_toState h hsaved
    . exact (parserInv_upState h).1
    . exact h

theorem saved_of_again {c : Char} {p : ParserData} (h : ParserInv p)
    (hagain : (eatOnce c p).2 = true)
    : (eatOnce c p).1.state.saved = true := by
  rcases eatOnce_again hagain with ⟨-, heq⟩ | ⟨-, -, heq⟩
  . rw [heq]
    rfl
  . rw [heq]
    exact (parserInv_upState h).2

theorem not_overfills_of_saved {p : ParserData} (h : p.state.saved = true) (i : Input)
    : ¬ Overfills p i := by
  cases i with
  | reset => exact id
  | char c =>
    cases hst : p.state with
    | none | inObject | inArray | outValue => simp [Overfills, hst]
    | toName | inName | toColumn | toValue | inString | inNum =>
      rw [hst] at h
      cases h

theorem ParserInv.log {p : ParserData} (h : ParserInv p) (c : Char) : ParserInv (p.log c) := by
  refine ⟨⟨h.stores, ?_⟩, h.stateIndex_lt, h.stack_lt, h.saved⟩
  unfold ParserData.log
  dsimp only
  split
  . exact h.rows
  . exact h.rows.log p.errbufIndex c

theorem overfills_log {p : ParserData} (h : ParserInv p) (c : Char) (i : Input)
    : Overfills (p.log c) i ↔ Overfills p i := by
  have hstack := h.stack_lt
  have hname : (p.log c).name (p.log c).stack = p.name p.stack := by
    obtain ⟨hstr, hlt⟩ := h.name_isStr
    apply name_eq (isStr_log hstr _ c) (Nat.le_of_lt hlt)
    simp only [MAXSTACK, MAXNAME, MAXVALUE, nameAddr, errbufAddr] at hstack hlt ⊢
    omega
  have hvalue : (p.log c).value (p.log c).stack = p.value p.stack := by
    obtain ⟨hstr, hlt⟩ := h.value_isStr
    apply value_eq (isStr_log hstr _ c) (Nat.le_of_lt hlt)
    simp only [MAXSTACK, MAXNAME, MAXVALUE, valueAddr, errbufAddr] at hstack hlt ⊢
    omega
  have hstate : (p.log c).state = p.state := rfl
  have hslash : (p.log c).isSlash = p.isSlash := rfl
  unfold Overfills
  rw [hname, hvalue, hstate, hslash]

theorem parserInv_step {p : ParserData} (h : ParserInv p) {i : Input} (hfit : ¬ Overfills p i)
    : ParserInv (step p i) := by
  cases i with
  | reset => exact parserInv_jsonReset h.toRowsInv
  | char c =>
    show ParserInv (jsonEat p c)
    rw [jsonEat_eq]
    apply jsonEatNoLog_rule (fun p => ParserInv p ∧ ¬ Overfills p (.char c)) ParserInv
    . intro p hp hagain
      have hinv := parserInv_eatOnce hp.1 hp.2
      have hsaved := saved_of_again hp.1 hagain
      exact ⟨hinv, not_overfills_of_saved hsaved _⟩
    . intro p hp _
      exact parserInv_eatOnce hp.1 hp.2
    . refine ⟨h.log c, ?_⟩
      rw [overfills_log h]
      exact hfit

theorem appendName_outside {p : ParserData} (h : ParserInv p) (c : Char)
    (hlen : (p.name p.stack).length + 1 = MAXNAME)
    : .name p.stack MAXNAME ∈ (appendName c p).stores := by
  obtain ⟨hstr, hlt⟩ := h.name_isStr
  rw [appendName_eq c hstr hlt, hlen]
  simp [ParserData.storeName]

theorem appendValue_outside {p : ParserData} (h : ParserInv p) (c : Char)
    (hlen : (p.value p.stack).length + 1 = MAXVALUE)
    : .value p.stack MAXVALUE ∈ (appendValue c p).stores := by
  obtain ⟨hstr, hlt⟩ := h.value_isStr
  rw [appendValue_eq c hstr hlt, hlen]
  simp [ParserData.storeValue]

theorem mem_stores_appendValue {p : ParserData} {s : Store} (h : s ∈ p.stores) (c : Char)
    : s ∈ (appendValue c p).stores := by
  unfold appendValue
  dsimp only
  split
  . simp [ParserData.storeValue, h]
  . simp [jsonError, jsonReset_eq, ParserData.event, h]

/--
Of an escaped pair the backslash or the character behind it goes out of the row.
-/
theorem escaped_outside {p : ParserData} (h : ParserInv p) (c : Char)
    (hover : (p.value p.stack).length + 1 = MAXVALUE ∨ (p.value p.stack).length + 2 = MAXVALUE)
    : ∃ s ∈ (appendValue c (appendValue '\\' p)).stores, ¬ s.inside := by
  have hvalue : ¬ (Store.value p.stack MAXVALUE).inside := fun hin => Nat.lt_irrefl _ hin.2
  cases hover with
  | inl hlen =>
    refine ⟨_, ?_, hvalue⟩
    apply mem_stores_appendValue
    exact appendValue_outside h _ hlen
  | inr hlen =>
    obtain ⟨hstr, hlt⟩ := h.value_isStr
    have hinv : ParserInv (appendValue '\\' p) := by
      apply parserInv_appendValue h
      omega
    have hstack := appendValue_stack (c := '\\') hstr hlt
    have hfirst := value_backslash h (by omega)
    refine ⟨.value (appendValue '\\' p).stack MAXVALUE, ?_, ?_⟩
    . apply appendValue_outside hinv
      rw [hstack, hfirst, List.length_append, List.length_singleton]
      omega
    . rw [hstack]
      exact hvalue

theorem eatOnce_outside {c : Char} {p : ParserData} (h : ParserInv p)
    (hover : Overfills p (.char c))
    : (eatOnce c p).2 = false ∧ ∃ s ∈ (eatOnce c p).1.stores, ¬ s.inside := by
  have hname : ¬ (Store.name p.stack MAXNAME).inside := fun hin => Nat.lt_irrefl _ hin.2
  have hvalue : ¬ (Store.value p.stack MAXVALUE).inside := fun hin => Nat.lt_irrefl _ hin.2
  cases hst : p.state with
  | inName =>
    simp only [Overfills, hst] at hover
    obtain ⟨hquote, hvalid, hlen⟩ := hover
    simp only [eatOnce, hst, if_neg hquote, if_pos hvalid]
    exact ⟨trivial, _, appendName_outside h c hlen, hname⟩
  | toValue =>
    simp only [Overfills, hst] at hover
    obtain ⟨hquote, hnum, hlen⟩ := hover
    simp only [Bool.or_eq_true] at hnum
    simp only [eatOnce, hst, if_neg hquote, Bool.or_eq_true, if_pos hnum]
    exact ⟨trivial, _, appendValue_outside h c hlen, hvalue⟩
  | inNum =>
    simp only [Overfills, hst] at hover
    obtain ⟨hnum, hlen⟩ := hover
    simp only [eatOnce, hst, if_pos hnum]
    exact ⟨trivial, _, appendValue_outside h c hlen, hvalue⟩
  | inString =>
    simp only [Overfills, hst] at hover
    split at hover
    . next hslash =>
      simp only [eatOnce, hst, hslash, Bool.not_true, Bool.false_and, Bool.false_eq_true,
        ↓reduceIte]
      have hinv : ParserInv { p with state := .inString, isSlash := false } :=
        ⟨⟨h.stores, h.rows⟩, h.stateIndex_lt, h.stack_lt, h.saved⟩
      exact ⟨trivial, escaped_outside hinv c hover⟩
    . next hslash =>
      obtain ⟨hback, hquote, hlen⟩ := hover
      simp only [eatOnce, hst, hslash, hback, hquote, Bool.not_false, Bool.true_and,
        decide_false, Bool.false_eq_true, ↓reduceIte]
      exact ⟨trivial, _, appendValue_outside h c hlen, hvalue⟩
  | none | inObject | toName | toColumn | inArray | outValue => simp [Overfills, hst] at hover

theorem not_safe_of_overfills {p : ParserData} (h : ParserInv p) {i : Input}
    (hover : Overfills p i)
    : ¬ Safe (step p i) := by
  cases i with
  | reset => exact absurd hover id
  | char c =>
    have hlog := (overfills_log h c (.char c)).mpr hover
    obtain ⟨hagain, s, hs, hout⟩ := eatOnce_outside (h.log c) hlog
    intro hsafe
    apply hout
    apply hsafe.stores
    show s ∈ (jsonEat p c).stores
    rw [jsonEat_eq, jsonEatNoLog_eq, hagain]
    exact hs

theorem parserInv_init : ParserInv .init := by
  refine ⟨⟨by simp [ParserData.init], ?_⟩, Nat.zero_lt_succ _, Nat.zero_lt_succ _,
    by simp [ParserData.init]⟩
  constructor
  . intro row _
    exact ⟨0, Nat.zero_lt_succ _, rfl⟩
  . intro row _
    exact ⟨0, Nat.zero_lt_succ _, rfl⟩

/--
As long as no input overfills a row, the invariant holds.
-/
theorem parserInv_run {inputs : List Input}
    (hfit : ∀ pre i, pre ++ [i] <+: inputs → ¬ Overfills (run pre) i)
    : ParserInv (run inputs) := by
  induction inputs using List.reverseRecOn with
  | nil => exact parserInv_init
  | append_singleton inputs i ih =>
    have hinv : ParserInv (run inputs) := by
      apply ih
      intro pre j hpre
      apply hfit
      exact hpre.trans (List.prefix_append inputs [i])
    rw [run, List.foldl_concat]
    apply parserInv_step hinv
    apply hfit
    exact List.prefix_refl _

/--
The parser stays inside its bounds exactly as long as no character is appended to a string that
fills its row but for the terminator.
-/
theorem safe_iff_not_overfills (inputs : List Input)
    : (∀ pre, pre <+: inputs → Safe (run pre))
        ↔
      (∀ pre i, pre ++ [i] <+: inputs → ¬ Overfills (run pre) i) := by
  constructor
  . intro hsafe pre
    -- By induction on the length, as the invariant holds before the first bad input only.
    induction hn : pre.length using Nat.strongRecOn generalizing pre with
    | ind n ih =>
      intro i hpre hover
      have hinv : ParserInv (run pre) := by
        apply parserInv_run
        intro pre' j hpre'
        apply ih pre'.length ?_ pre' rfl j
        . exact (hpre'.trans (List.prefix_append pre [i])).trans hpre
        . have := hpre'.length_le
          simp only [List.length_append, List.length_singleton] at this
          omega
      apply not_safe_of_overfills hinv hover
      have := hsafe (pre ++ [i]) hpre
      rwa [run, List.foldl_concat] at this
  . intro hfit pre hpre
    apply ParserInv.safe
    apply parserInv_run
    intro pre' i hpre'
    exact hfit pre' i (hpre'.trans hpre)

/--
The thirtieth character of a name takes the last cell of its row, and the terminator the first cell
of the next one.
-/
theorem name_outside
    : ¬ ∀ pre, pre <+: .reset :: .char '"' :: List.replicate 30 (.char 'n') → Safe (run pre) := by
  intro hsafe
  have hlast := (hsafe _ (List.prefix_refl _)).stores (.name 0 30) (by decide +kernel)
  exact Nat.lt_irrefl 30 hlast.2

end Json
