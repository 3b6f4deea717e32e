import IotGateway.Common.Impl.Listener
import IotGateway.Common.Lemmas.FieldParser
import IotGateway.Json.Lemmas.Objects

/-!
This module says what the handlers of a daemon find in the fields when an object has been read.
-/

namespace FieldParser

open Json Machine

/--
What a callback makes of the attributes, if these calls have registered the fields.
-/
def hear (calls : List Op) (attrs : Attrs) : Event → Attrs
  | .objectStart _ => Attrs.parsingReset
  | .string name value =>
    match Value.ofChars value with
    | some value =>
      if copied (String.ofList name) value calls then
        attrs.parsingStringAttr (String.ofList name) value.text
      else
        attrs
    | none => attrs
  | .integer name value =>
    if String.ofList name ∈ intFields calls then
      attrs.parsingIntAttr (String.ofList name) (Int32.ofInt value)
    else
      attrs
  | .objectComplete _ | .arrayStart _ | .arrayComplete _ | .error _ _ _ => attrs

/--
The attributes of an object: its own members that there are fields for.
-/
def heard (calls : List Op) (o : Object) : Attrs :=
  (o.members.map Member.event).foldl (hear calls) Attrs.parsingReset

/--
The later calls have registered nothing.
-/
structure SameFields (calls h : List Op) : Prop where
  ints : intFields h = intFields calls
  strings : stringFields h = stringFields calls
  limits : ∀ name, limit name h = limit name calls

/--
The fields of the parser are those that these calls have registered.
-/
def Registers (calls : List Op) (p : Parser) : Prop := ∃ h, SameFields calls h ∧ run h = p

section

variable {calls h : List Op} {p : Parser}

theorem registers_run (calls : List Op) : Registers calls (run calls) :=
  ⟨calls, ⟨rfl, rfl, fun _ => rfl⟩, rfl⟩

theorem SameFields.copied_eq (hsame : SameFields calls h) (name : String) (value : Value)
    : copied name value h = copied name value calls := by
  unfold copied
  rw [hsame.strings, hsame.limits]

theorem callback_registers_nothing {event : Event} {op : Op} (hop : callback event = some op)
    : op.newInt = none ∧ op.newString = none ∧ ∀ name, op.length name = none := by
  cases event with
  | objectStart name =>
    obtain rfl := Option.some.inj hop
    exact ⟨rfl, rfl, fun _ => rfl⟩
  | string name value =>
    obtain ⟨v, -, rfl⟩ := Option.map_eq_some_iff.mp hop
    exact ⟨rfl, rfl, fun _ => rfl⟩
  | integer name value =>
    obtain rfl := Option.some.inj hop
    exact ⟨rfl, rfl, fun _ => rfl⟩
  | _ => cases hop

theorem SameFields.callback (hsame : SameFields calls h) {event : Event} {op : Op}
    (hop : callback event = some op)
    : SameFields calls (op :: h) := by
  obtain ⟨hint, hstring, hlength⟩ := callback_registers_nothing hop
  constructor
  . rw [intFields_of_none hint, hsame.ints]
  . rw [stringFields_of_none hstring, hsame.strings]
  . intro name
    rw [limit_of_none (hlength name), hsame.limits]

theorem Registers.listen (hp : Registers calls p) (event : Event)
    : Registers calls (listen event p) := by
  obtain ⟨h, hsame, rfl⟩ := hp
  unfold FieldParser.listen
  rcases hop : FieldParser.callback event with _ | op
  . exact ⟨h, hsame, rfl⟩
  . exact ⟨op :: h, hsame.callback hop, rfl⟩

theorem attrs_int_unknown {name : String} (hname : name ∉ intFields h) (value : Int32)
    : (run (.int name value :: h)).attrs = (run h).attrs := by
  unfold Parser.attrs
  congr 1
  . funext field
    by_cases hfield : field = name
    . have hname' : name ∉ intFields (.int name value :: h) := by
        rw [intFields_of_none rfl]
        exact hname
      rw [hfield, get_int, get_int, lastInt_of_not_mem hname', lastInt_of_not_mem hname,
        if_neg fun hnew => hname' hnew.1, if_neg fun hnew => hname hnew.1]
    . rw [other_int hfield]
  . funext field
    rw [kind_int]

theorem attrs_string_unstored {name : String} {value : Value} (hcopied : copied name value h = false)
    : (run (.string name value :: h)).attrs = (run h).attrs := by
  unfold Parser.attrs
  congr 1
  . funext field
    rw [kind_string]
  . funext field
    by_cases hfield : field = name
    . have hnot : ¬(name = name ∧ copied name value h = true) := fun hboth =>
        absurd (hcopied.symm.trans hboth.2) Bool.false_ne_true
      rw [hfield, get_string, get_string, stringFields_of_none rfl, lastString, if_neg hnot]
    . rw [other_string hfield]

theorem Registers.attrs_listen (hp : Registers calls p) (event : Event)
    : (FieldParser.listen event p).attrs = hear calls p.attrs event := by
  obtain ⟨h, hsame, rfl⟩ := hp
  cases event with
  | objectStart name => exact attrs_reset h
  | integer name value =>
    show (run (.int _ _ :: h)).attrs = _
    unfold hear
    simp only [← hsame.ints]
    split
    . next hname => exact attrs_int hname _
    . next hname => exact attrs_int_unknown hname _
  | string name value =>
    unfold FieldParser.listen FieldParser.callback hear
    rcases hvalue : Value.ofChars value with _ | v
    . simp only [hvalue, Option.map_none]
    . simp only [hvalue, Option.map_some, ← hsame.copied_eq]
      show (run (.string _ _ :: h)).attrs = _
      split
      . next hcopied => exact attrs_string hcopied
      . next hcopied => exact attrs_string_unstored (Bool.eq_false_iff.mpr hcopied)
  | objectComplete name => rfl
  | arrayStart name => rfl
  | arrayComplete name => rfl
  | error error errtext lastchars => rfl

theorem Registers.foldl (hp : Registers calls p) (events : List Event)
    : Registers calls (events.foldl (fun p event => FieldParser.listen event p) p)
      ∧ (events.foldl (fun p event => FieldParser.listen event p) p).attrs
          = events.foldl (hear calls) p.attrs := by
  induction events generalizing p with
  | nil => exact ⟨hp, rfl⟩
  | cons event events ih =>
    rw [List.foldl_cons, List.foldl_cons, ← hp.attrs_listen]
    exact ih (hp.listen event)

/--
What was in the fields before does not matter.
-/
theorem Registers.attrs_object (hp : Registers calls p) (o : Object)
    : ((o.members.map Member.event).foldl (fun p event => FieldParser.listen event p)
          (FieldParser.listen (.objectStart o.name.toList) p)).attrs
      = heard calls o := by
  rw [((hp.listen _).foldl _).2, hp.attrs_listen]
  rfl

end

section

variable {calls : List Op}

end

section

variable {calls : List Op} {attrs : Attrs} {name : String}

theorem hear_int (hname : name ∈ intFields calls) (value : Int32)
    : hear calls attrs (int name value).event = attrs.parsingIntAttr name value := by
  show hear calls attrs (.integer name.toList value.toInt) = _
  unfold hear
  simp only [String.ofList_toList, hname, if_true, Int32.ofInt_toInt]

theorem ofChars_toList {value : String} (hnul : ∀ c ∈ value.toList, c ≠ NUL)
    (hroom : value.length < MAXSTRINGVALUE + 2)
    : ∃ v : Value, Value.ofChars value.toList = some v ∧ v.text = value := by
  have hwhole : value.toList.takeWhile (· ≠ '\x00') = value.toList := by
    apply List.takeWhile_eq_self_iff.mpr
    intro c hc
    exact decide_eq_true (hnul c hc)
  unfold Value.ofChars
  simp only [hwhole, String.length_toList, hroom, dif_pos]
  exact ⟨_, rfl, String.ofList_toList⟩

theorem hear_string {maxlen : Nat} (hname : name ∈ stringFields calls)
    (hlimit : limit name calls = some maxlen) (hmaxlen : maxlen ≤ MAXSTRINGVALUE) {value : String}
    (hnul : ∀ c ∈ value.toList, c ≠ NUL) (hlength : value.length ≤ maxlen)
    : hear calls attrs (string name value).event = attrs.parsingStringAttr name value := by
  obtain ⟨v, hv, rfl⟩ := ofChars_toList hnul (by omega)
  have hsize : size_t maxlen = maxlen := by
    unfold MAXSTRINGVALUE at hmaxlen
    rw [size_t_of_nonneg (by omega) (by omega), Int.toNat_natCast]
  have hcopied : copied name v calls = true := by
    unfold copied
    apply decide_eq_true
    refine ⟨hname, maxlen, hlimit, ?_⟩
    rw [hsize]
    exact hlength
  show hear calls attrs (.string name.toList v.text.toList) = _
  unfold hear
  simp only [String.ofList_toList, hv, hcopied, if_true]

end

end FieldParser
