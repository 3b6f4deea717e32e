import IotGateway.Json.Lemmas.Parse

/-!
This module says which objects without containers in them the parser reads right. What it makes of
the others is always an error.
-/

namespace Json

open Machine

inductive Members.Flat : Members → Prop where
  | one {name : Name} {value : Value} (hvalue : value.isContainer = false) : Flat (.one name value)
  | more {name : Name} {value : Value} {rest : Members} (hvalue : value.isContainer = false)
      (hrest : Flat rest) : Flat (.more name value rest)

def Members.count : Members → Nat
  | .one _ _ => 1
  | .more _ _ rest => rest.count + 1

theorem count_pos (members : Members) : 0 < members.count := by
  cases members with
  | one => exact Nat.zero_lt_one
  | more => exact Nat.succ_pos _

theorem scalar_fits {value : Value} (h : value.isContainer = false) (states stack : Nat)
    : value.Fits states stack := by
  cases value with
  | container => cases h
  | string | integer => trivial

/--
Every comma saves a state.
-/
theorem flat_fits_iff {members : Members} (hflat : members.Flat) {states : Nat} (stack : Nat)
    (hstates : states < MAXSTATES)
    : members.Fits states stack ↔ states + members.count ≤ MAXSTATES := by
  induction hflat generalizing states with
  | one hvalue =>
    have hfits := scalar_fits hvalue states stack
    simp only [Members.Fits, Members.count, hfits, true_iff]
    exact hstates
  | @more _ _ rest hvalue _ ih =>
    have hfits := scalar_fits hvalue states stack
    simp only [Members.Fits, Members.count, hfits, hvalue, true_and, Bool.false_eq_true, if_false]
    constructor
    . rintro ⟨hlt, hrest'⟩
      have := (ih hlt).mp hrest'
      omega
    . intro hle
      have hpos := count_pos rest
      have hlt : states + 1 < MAXSTATES := by omega
      refine ⟨hlt, (ih hlt).mpr ?_⟩
      omega

section

variable {opened : List (Kind × List Char)} {states : List State} {events : List Event}
  {name : List Char} {n : Nat}

theorem reads_scalar (states : List State) (events : List Event) (name : List Char) {value : Value}
    (h : value.isContainer = false) (hopened : opened ≠ [])
    : Reads (Ready opened states events name) value.tokens
        (Valued opened states (events ++ value.events atoiOf name)) := by
  cases value with
  | container => cases h
  | string s => exact reads_string s hopened
  | integer i => exact reads_integer i hopened

theorem flat_settles (opened : List (Kind × List Char)) (states : List State) (name : List Char)
    {members : Members} (hflat : members.Flat) (kind : Kind) (j : Nat) (hn : n ≤ events.length)
    : Settles (members.Fits (states.length + 1 + j) (opened.length + 1))
        (At .toName ((kind, name) :: opened) (List.replicate j .outValue ++ kind.state :: states)
          events)
        members.tokens (Ended kind name opened states (events ++ members.events atoiOf)) (Failed n) := by
  induction hflat generalizing j events with
  | @one name' value hscalar =>
    have hstart := member_start name' ((kind, name) :: opened)
      (List.replicate j .outValue ++ kind.state :: states) events (Failed n)
    have hvalue : Settles True _ value.tokens _ (Failed n) :=
      (reads_scalar (List.replicate j .outValue ++ kind.state :: states) events name'.text hscalar
        (List.cons_ne_nil (kind, name) opened)).settles
    apply ((hstart.append failed_jsonEat fun _ => hvalue).weaken fun p hp => .inl ⟨j, hp⟩).congr
    simp only [Members.Fits, scalar_fits hscalar, and_true]
  | @more name' value rest hscalar _ ih =>
    have hn' : n ≤ (events ++ value.events atoiOf name'.text).length := by
      rw [List.length_append]
      omega
    have hstart := member_start name' ((kind, name) :: opened)
      (List.replicate j .outValue ++ kind.state :: states) events (Failed n)
    have hvalue : Settles True _ value.tokens _ (Failed n) :=
      (reads_scalar (List.replicate j .outValue ++ kind.state :: states) events name'.text hscalar
        (List.cons_ne_nil (kind, name) opened)).settles
    have hcomma := comma_valued kind name opened j states hn'
    have hall := ((hstart.append failed_jsonEat fun _ => hvalue).append failed_jsonEat fun _ =>
      hcomma).append failed_jsonEat fun _ => ih (j + 1) hn'
    have hevents : events ++ (Members.more name' value rest).events atoiOf
        = events ++ value.events atoiOf name'.text ++ rest.events atoiOf := by
      rw [Members.events]
      simp
    rw [hevents, Members.tokens]
    apply hall.congr
    simp only [Members.Fits, scalar_fits hscalar, hscalar, true_and, Bool.false_eq_true, if_false]
    rfl

theorem flatDoc_settles (name : Name) {members : Members} (hflat : members.Flat)
    (hn : n ≤ events.length)
    : Settles (members.count ≤ 8) (At .none [] [] events) (Doc.tokens ⟨some name, members⟩)
        (At .none [] [] (events ++ Doc.events atoiOf ⟨some name, members⟩)) (Failed n) := by
  have hn' : n ≤ (events ++ [Event.objectStart name.text]).length := by
    rw [List.length_append]
    omega
  have hstart : Settles True (At .none [] [] events) [quoted name.text, [':']]
      (Ready [] [.none] events name.text) (Failed n) :=
    Reads.settles (Eats.append (reads_docName name) reads_column)
  have hopen : Settles True (Ready [] [.none] events name.text) [[Kind.object.opening]]
      (At .toName [(.object, name.text)] [.inObject, .none] (events ++ [.objectStart name.text]))
      (Failed n) :=
    Reads.settles (reads_open (by decide) (by decide) .object)
  have hmembers := flat_settles [] [.none] name.text hflat .object 0 hn'
  have hclose : Settles True
      (Ended .object name.text [] [.none]
        (events ++ [.objectStart name.text] ++ members.events atoiOf))
      [[Kind.object.closing]]
      (At .none [] []
        (events ++ [.objectStart name.text] ++ members.events atoiOf ++ [.objectComplete name.text]))
      (Failed n) :=
    reads_close.settles
  have hall := ((hstart.append failed_jsonEat fun _ => hopen).append failed_jsonEat fun _ =>
    hmembers).append failed_jsonEat fun _ => hclose
  have hevents : events ++ Doc.events atoiOf ⟨some name, members⟩
      = events ++ [.objectStart name.text] ++ members.events atoiOf
          ++ [.objectComplete name.text] := by
    simp [Doc.events, Value.events, Doc.nameText, Kind.start, Kind.complete]
  have htokens : Doc.tokens ⟨some name, members⟩
      = [quoted name.text, [':']] ++ [[Kind.object.opening]] ++ members.tokens
          ++ [[Kind.object.closing]] := by
    simp [Doc.tokens, Value.tokens]
  rw [hevents, htokens]
  apply hall.congr
  have hfits := flat_fits_iff hflat 1 (show 2 < MAXSTATES by decide)
  simp only [MAXSTATES] at hfits
  show members.count ≤ 8 ↔ ((True ∧ True) ∧ members.Fits 2 1) ∧ True
  rw [hfits]
  simp only [true_and, and_true]
  omega

theorem flatDoc_reads (name : Name) {members : Members} (hflat : members.Flat)
    (hcount : members.count ≤ 8) (hint : ∀ i ∈ members.numerals, i.IsInt) {p : ParserData}
    (hp : At .none [] [] events p) {text : List Char} (htext : Doc.IsText ⟨some name, members⟩ text)
    : At .none [] [] (events ++ Doc.events Numeral.value ⟨some name, members⟩)
        (exec eatStep p text) := by
  obtain ⟨body, space, rfl, hbody, hspace⟩ := htext
  have hsettles := flatDoc_settles name hflat (Nat.le_refl events.length)
  rw [← (events_atoiOf_iff ⟨some name, members⟩).mpr hint, exec_append]
  exact exec_blanks (blank_at rfl) (hsettles.reads hcount p hp body hbody) hspace

end

/--
The parser reads such an object right, or it reports an error.
-/
theorem flatDoc_trace (name : Name) {members : Members} (hflat : members.Flat)
    (hint : ∀ i ∈ members.numerals, i.IsInt) (p : ParserData) {text : List Char}
    (htext : Doc.IsText ⟨some name, members⟩ text)
    : trace eatStep (jsonReset p) text = Doc.events Numeral.value ⟨some name, members⟩
        ∧ members.count ≤ 8
      ∨ (∃ e ∈ trace eatStep (jsonReset p) text, e.isError = true) ∧ 8 < members.count := by
  obtain ⟨body, space, rfl, hbody, hspace⟩ := htext
  have hsettles := flatDoc_settles name hflat (Nat.le_refl p.events.length)
  have hstart := at_jsonReset p
  have hevents := events_exec (jsonReset p) (body ++ space)
  by_cases hcount : members.count ≤ 8
  . left
    refine ⟨?_, hcount⟩
    have hread := flatDoc_reads name hflat hcount hint hstart ⟨body, space, rfl, hbody, hspace⟩
    rw [hread.events_eq] at hevents
    exact (List.append_cancel_left hevents).symm
  . right
    refine ⟨?_, Nat.lt_of_not_le hcount⟩
    have hfailed := (hsettles.breaks hcount _ hstart body hbody).keeps (keeps_run _ space)
    rw [← exec_append] at hfailed
    obtain ⟨e, he, herr⟩ := hfailed.error
    rw [hevents, show (jsonReset p).events = p.events from rfl, List.drop_left] at he
    exact ⟨e, he, herr⟩

end Json
