import IotGateway.Lib.Machine
import IotGateway.Json.Impl.Parser

/-!
This module contains what all later modules use of the parser: its repeated passes over a character
as an equation, and the fields that each helper leaves alone.
-/

namespace Json

open CString

theorem jsonReset_eq (p : ParserData)
    : jsonReset p
        =
      { p with
        state := .none
        states := []
        allowComma := false
        isSlash := false
        stack := 0
        mem := Function.update (Function.update p.mem (nameAddr 0) NUL) (valueAddr 0) NUL
        errbufIndex := 0
        numchars := 0
        stores := p.stores ++ [.name 0 0, .value 0 0] } := by
  simp [jsonReset, ParserData.storeName, ParserData.storeValue]

@[simp]
theorem jsonError_state (err : Err) (p : ParserData) : (jsonError err p).state = .none := rfl

@[simp]
theorem jsonError_states (err : Err) (p : ParserData) : (jsonError err p).states = [] := rfl

@[simp]
theorem jsonError_stack (err : Err) (p : ParserData) : (jsonError err p).stack = 0 := rfl

@[simp]
theorem jsonError_events (err : Err) (p : ParserData)
    : (jsonError err p).events = p.events ++ [.error err err.text p.lastchars] := rfl

/--
The part of `jsonEat` that remembers the character for `jsonError`.
-/
def ParserData.log (c : Char) (p : ParserData) : ParserData :=
  { p with
    numchars := p.numchars + 1
    mem := if isWhiteSpace c then p.mem else Function.update p.mem (errbufAddr + p.errbufIndex) c
    errbufIndex :=
      if isWhiteSpace c then
        p.errbufIndex
      else
        if MAXERRORBUFFER ≤ p.errbufIndex + 1 then 0 else p.errbufIndex + 1 }

theorem jsonEat_eq (p : ParserData) (c : Char) : jsonEat p c = jsonEatNoLog c (p.log c) := by
  unfold jsonEat ParserData.log
  cases isWhiteSpace c with
  | false => simp
  | true => simp

theorem isStr_log {p : ParserData} {a : Nat} {s : List Char} (h : IsStr NUL p.mem a s)
    (ha : a + s.length < errbufAddr) (c : Char)
    : IsStr NUL (p.log c).mem a s := by
  unfold ParserData.log
  dsimp only
  split
  . exact h
  . apply h.update
    omega

theorem name_eq {p : ParserData} {row : Nat} {s : List Char} (h : IsStr NUL p.mem (nameAddr row) s)
    (hlen : s.length ≤ MAXNAME)
    : p.name row = s := by
  apply h.cstr_eq
  simp only [MAXNAME, MAXVALUE, MAXSTACK, MAXERRORBUFFER, memSize, errbufAddr] at hlen ⊢
  omega

theorem value_eq {p : ParserData} {row : Nat} {s : List Char}
    (h : IsStr NUL p.mem (valueAddr row) s) (hlen : s.length ≤ MAXVALUE)
    : p.value row = s := by
  apply h.cstr_eq
  simp only [MAXNAME, MAXVALUE, MAXSTACK, MAXERRORBUFFER, memSize, errbufAddr] at hlen ⊢
  omega

theorem appendName_eq {p : ParserData} {s : List Char} (c : Char)
    (h : IsStr NUL p.mem (nameAddr p.stack) s) (hlen : s.length < MAXNAME)
    : appendName c p = (p.storeName s.length c).storeName (s.length + 1) NUL := by
  unfold appendName
  rw [name_eq h (Nat.le_of_lt hlen)]
  exact if_pos hlen

theorem appendValue_eq {p : ParserData} {s : List Char} (c : Char)
    (h : IsStr NUL p.mem (valueAddr p.stack) s) (hlen : s.length < MAXVALUE)
    : appendValue c p = (p.storeValue s.length c).storeValue (s.length + 1) NUL := by
  unfold appendValue
  rw [value_eq h (Nat.le_of_lt hlen)]
  exact if_pos hlen

theorem appendValue_stack {p : ParserData} {s : List Char} {c : Char}
    (h : IsStr NUL p.mem (valueAddr p.stack) s) (hlen : s.length < MAXVALUE)
    : (appendValue c p).stack = p.stack := by
  rw [appendValue_eq c h hlen]
  rfl

theorem isStr_appendName {p : ParserData} {s : List Char} {c : Char}
    (h : IsStr NUL p.mem (nameAddr p.stack) s) (hlen : s.length < MAXNAME) (hc : c ≠ NUL)
    : IsStr NUL (appendName c p).mem (nameAddr p.stack) (s ++ [c]) := by
  rw [appendName_eq c h hlen]
  exact h.append hc

theorem isStr_appendValue {p : ParserData} {s : List Char} {c : Char}
    (h : IsStr NUL p.mem (valueAddr p.stack) s) (hlen : s.length < MAXVALUE) (hc : c ≠ NUL)
    : IsStr NUL (appendValue c p).mem (valueAddr p.stack) (s ++ [c]) := by
  rw [appendValue_eq c h hlen]
  exact h.append hc

theorem passes_jsonError (err : Err) (p : ParserData) : (jsonError err p).passes = 1 := rfl

theorem upState_passes_lt {p : ParserData} (h : p.state = .outValue)
    : (upState p).passes < p.passes := by
  have hp : p.passes = 2 * p.states.length + 2 := by simp [ParserData.passes, h]
  unfold upState
  split
  . next st states hstates =>
    rw [hp, hstates, List.length_cons]
    cases st with
    | inObject | inArray =>
      dsimp only
      split
      . simp only [ParserData.passes]
        omega
      . rw [passes_jsonError]
        omega
    | _ =>
      simp only [ParserData.passes, ParserData.storeName]
      omega
  . rw [passes_jsonError, hp]
    omega

theorem eatOnce_again {c : Char} {p : ParserData} (h : (eatOnce c p).2 = true)
    : p.state = .inNum
        ∧ (eatOnce c p).1
            =
          setState .outValue (p.event (.integer (p.name p.stack) (Atoi (p.value p.stack))))
      ∨ p.state = .outValue ∧ c ≠ ',' ∧ (eatOnce c p).1 = upState p := by
  cases hst : p.state with
  | inNum =>
    left
    simp only [eatOnce, hst] at h ⊢
    split
    . next hnum => simp [hnum] at h
    . exact ⟨trivial, rfl⟩
  | outValue =>
    right
    simp only [eatOnce, hst] at h ⊢
    split
    . next hws =>
      split
      . next hcomma => rw [if_pos hws, if_pos hcomma] at h; cases h
      . next hcomma => exact ⟨trivial, hcomma, rfl⟩
    . next hws => simp [hws] at h
  | _ =>
    simp only [eatOnce, hst] at h
    exfalso
    revert h
    repeat' split
    all_goals simp

theorem passes_eatOnce_lt {c : Char} {p : ParserData} (h : (eatOnce c p).2 = true)
    : (eatOnce c p).1.passes < p.passes := by
  rcases eatOnce_again h with ⟨hst, heq⟩ | ⟨hst, -, heq⟩
  . rw [heq]
    simp [setState, ParserData.event, ParserData.passes, hst]
  . rw [heq]
    exact upState_passes_lt hst

theorem jsonEatNoLog_go_eq {c : Char} {n m : Nat} {p : ParserData} (hn : p.passes ≤ n)
    (hm : p.passes ≤ m)
    : jsonEatNoLog.go c n p = jsonEatNoLog.go c m p := by
  induction n generalizing m p with
  | zero =>
    have : 1 ≤ p.passes := by
      unfold ParserData.passes
      split <;> omega
    omega
  | succ n ih =>
    cases m with
    | zero =>
      have : 1 ≤ p.passes := by
        unfold ParserData.passes
        split <;> omega
      omega
    | succ m =>
      simp only [jsonEatNoLog.go]
      split
      . next hagain =>
        have := passes_eatOnce_lt hagain
        apply ih
        . omega
        . omega
      . rfl

def State.kind : State → Option Kind
  | .inObject => some .object
  | .inArray => some .array
  | _ => Option.none

theorem setState_container {st : State} (hst : st.kind.isSome) (p : ParserData)
    : setState st p
        =
      if p.stack + 1 < MAXSTACK then
        ParserData.storeName { p with state := st, stack := p.stack + 1 } 0 NUL
      else
        jsonError .internal { p with state := st, stack := p.stack + 1 } := by
  cases st with
  | inObject | inArray => rfl
  | _ => cases hst

/--
The states that `toState` saves.
-/
def State.saved : State → Bool
  | .none | .inObject | .inArray | .outValue => true
  | _ => false

theorem saved_append {p : ParserData} (hsaved : p.state.saved = true)
    (h : ∀ st ∈ p.states, st.saved = true)
    : ∀ st ∈ p.state :: p.states, st.saved = true := by
  intro st hmem
  rcases List.mem_cons.mp hmem with rfl | hmem
  . exact hsaved
  . exact h st hmem

/--
The two containers differ in their bracket, their event and their error.
-/
def eatContainer (close : Char) (complete : Event) (err : Err) (c : Char) (p : ParserData)
    : ParserData :=
  if c = close then
    upState (p.event complete)
  else if c = '"' then
    toState .inName p
  else if c = ',' && p.allowComma then
    toState .toName { p with allowComma := false }
  else if !isWhiteSpace c then
    jsonError err p
  else
    p

theorem eatOnce_inObject {p : ParserData} (h : p.state = .inObject) (c : Char)
    : eatOnce c p
        =
      (eatContainer '}' (.objectComplete (p.name p.stack)) .parseObject c p, false) := by
  unfold eatOnce eatContainer
  split
  all_goals try { next h' => rw [h'] at h; cases h }
  repeat' split
  all_goals rfl

theorem eatOnce_inArray {p : ParserData} (h : p.state = .inArray) (c : Char)
    : eatOnce c p
        =
      (eatContainer ']' (.arrayComplete (p.name p.stack)) .parseArray c p, false) := by
  unfold eatOnce eatContainer
  split
  all_goals try { next h' => rw [h'] at h; cases h }
  repeat' split
  all_goals rfl

theorem eatOnce_inString {p : ParserData} (h : p.state = .inString) (c : Char)
    : eatOnce c p
        =
      (if !p.isSlash && c = '\\' then
        { p with isSlash := true }
      else if p.isSlash then
        appendValue c (appendValue '\\' { p with isSlash := false })
      else if c = '"' then
        setState .outValue (p.event (.string (p.name p.stack) (p.value p.stack)))
      else
        appendValue c p, false) := by
  unfold eatOnce
  split
  all_goals try { next h' => rw [h'] at h; cases h }
  repeat' split
  all_goals rfl

theorem eatOnce_toValue {p : ParserData} (h : p.state = .toValue) (c : Char)
    : eatOnce c p
        =
      (if c = '"' then
        setState .inString { p with isSlash := false }
      else if isNum c || isSign c then
        setState .inNum (appendValue c p)
      else if c = '[' then
        toState .toName (setState .inArray (p.event (.arrayStart (p.name p.stack))))
      else if c = '{' then
        toState .toName (setState .inObject (p.event (.objectStart (p.name p.stack))))
      else if !isWhiteSpace c then
        jsonError .parseValue p
      else
        p, false) := by
  unfold eatOnce
  split
  all_goals try { next h' => rw [h'] at h; cases h }
  repeat' split
  all_goals rfl

theorem jsonEatNoLog_eq (c : Char) (p : ParserData)
    : jsonEatNoLog c p
        =
      if (eatOnce c p).2 then jsonEatNoLog c (eatOnce c p).1 else (eatOnce c p).1 := by
  have hpos : 1 ≤ p.passes := by
    unfold ParserData.passes
    split <;> omega
  obtain ⟨n, hn⟩ : ∃ n, p.passes = n + 1 := ⟨p.passes - 1, by omega⟩
  unfold jsonEatNoLog
  rw [hn]
  simp only [jsonEatNoLog.go]
  split
  . next hagain =>
    have := passes_eatOnce_lt hagain
    apply jsonEatNoLog_go_eq
    . omega
    . exact Nat.le_refl _
  . rfl

/--
The rule for a character: what holds before every pass, and what the last pass makes of it.
-/
theorem jsonEatNoLog_rule (Before After : ParserData → Prop) {c : Char}
    (hagain : ∀ p, Before p → (eatOnce c p).2 = true → Before (eatOnce c p).1)
    (hlast : ∀ p, Before p → (eatOnce c p).2 = false → After (eatOnce c p).1)
    {p : ParserData} (h : Before p)
    : After (jsonEatNoLog c p) := by
  generalize hn : p.passes = n
  induction n using Nat.strongRecOn generalizing p with
  | ind n ih =>
    rw [jsonEatNoLog_eq]
    split
    . next hnext =>
      apply ih (eatOnce c p).1.passes
      . rw [← hn]
        exact passes_eatOnce_lt hnext
      . exact hagain p h hnext
      . rfl
    . next hnext =>
      apply hlast p h
      simpa using hnext

/--
The parser as a machine that reads characters and emits events.
-/
def eatStep (p : ParserData) (c : Char) : ParserData × List Event :=
  (jsonEat p c, (jsonEat p c).events.drop p.events.length)

end Json
