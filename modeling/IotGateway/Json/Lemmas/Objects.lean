import IotGateway.Json.Lemmas.Create

/-!
This module contains the texts that spell an object, and what the parser makes of them.
-/

namespace Json

open Machine

/--
The callbacks for an object without containers in it.
-/
def Object.callbacks (o : Object) : List Event :=
  .objectStart o.name.toList :: o.members.map Member.event ++ [.objectComplete o.name.toList]

/--
The text means the object, however its tokens are spaced, and has no more members than the parser has
room for.
-/
structure Spells (text : List Char) (o : Object) : Prop where
  count : o.members.length ≤ 8
  means : ∃ (name : Name) (members : Members), members.Flat ∧ members.count = o.members.length
    ∧ (∀ n ∈ members.numerals, n.IsInt) ∧ Doc.IsText ⟨some name, members⟩ text
    ∧ Doc.events Numeral.value ⟨some name, members⟩ = o.callbacks

variable {text : List Char} {o : Object}

theorem Spells.trace_eatStep (h : Spells text o) (p : ParserData)
    : trace eatStep (jsonReset p) text = o.callbacks := by
  obtain ⟨name, members, hflat, hcount, hint, htext, hevents⟩ := h.means
  rcases flatDoc_trace name hflat hint p htext with ⟨htrace, -⟩ | ⟨-, hmany⟩
  . rw [htrace, hevents]
  . rw [hcount] at hmany
    exact absurd h.count (Nat.not_le_of_lt hmany)

theorem Spells.reads (h : Spells text o) {events : List Event} {p : ParserData}
    (hp : At .none [] [] events p)
    : At .none [] [] (events ++ o.callbacks) (exec eatStep p text) := by
  obtain ⟨name, members, hflat, hcount, hint, htext, hevents⟩ := h.means
  rw [← hevents]
  apply flatDoc_reads name hflat _ hint hp htext
  rw [hcount]
  exact h.count

theorem Value.string_of_scalar {value : Value} (h : value.isContainer = false)
    {int : Numeral → Int} {name name' text : List Char}
    (hmem : Event.string name text ∈ value.events int name')
    : ∃ s : Str, s.text = text := by
  cases value with
  | string s =>
    simp only [Value.events, List.mem_singleton, Event.string.injEq] at hmem
    exact ⟨s, hmem.2.symm⟩
  | integer n => simp [Value.events] at hmem
  | container kind members => cases h

theorem Members.Flat.string_of_mem {members : Members} (h : members.Flat) {int : Numeral → Int}
    {name text : List Char} (hmem : Event.string name text ∈ members.events int)
    : ∃ s : Str, s.text = text := by
  induction h with
  | one hvalue => exact Value.string_of_scalar hvalue hmem
  | more hvalue _ ih =>
    rcases List.mem_append.mp hmem with hfirst | hrest
    . exact Value.string_of_scalar hvalue hfirst
    . exact ih hrest

/--
The strings of an object that has been read could have been written.
-/
theorem Spells.quotable (h : Spells text o) {name value : List Char}
    (hmem : Event.string name value ∈ o.members.map Member.event)
    : StringText value ∧ value.length < MAXVALUE := by
  obtain ⟨docName, members, hflat, -, -, -, hevents⟩ := h.means
  have hcallbacks : Event.string name value ∈ o.callbacks :=
    List.mem_append_left _ (List.mem_cons_of_mem _ hmem)
  rw [← hevents] at hcallbacks
  simp only [Doc.events, Value.events, Kind.start, Kind.complete, List.mem_append, List.mem_cons,
    List.not_mem_nil, reduceCtorEq, false_or, or_false] at hcallbacks
  obtain ⟨s, rfl⟩ := hflat.string_of_mem hcallbacks
  exact ⟨s.valid, s.short⟩

theorem Spells.ne_nil (h : Spells text o) : text ≠ [] := by
  intro hnil
  have htrace := h.trace_eatStep .init
  rw [hnil, trace_nil] at htrace
  cases htrace

theorem not_nul_of_stringText {text : List Char} (h : StringText text) : ∀ c ∈ text, c ≠ NUL := by
  induction h with
  | nil => exact List.forall_mem_nil _
  | plain _ _ hnul _ ih =>
    rw [List.forall_mem_cons]
    exact ⟨hnul, ih⟩
  | escaped hnul _ ih =>
    rw [List.forall_mem_cons, List.forall_mem_cons]
    exact ⟨by decide, hnul, ih⟩

def shortName (name : String) : Bool := validName name && name.toList.length < MAXNAME

/--
A string that may stand between quotes as it is.
-/
def Quotable (value : String) : Prop := StringText value.toList ∧ value.toList.length < MAXVALUE

structure Member.IsText (m : Member) : Prop where
  name : shortName m.name = true
  value : ∀ value, m.value = .string value → Quotable value

/--
What a constructor may be given, so that its message is a text of the object.
-/
structure Object.IsText (o : Object) : Prop where
  name : shortName o.name = true
  nonempty : o.members ≠ []
  count : o.members.length ≤ 8
  members : ∀ m ∈ o.members, m.IsText

theorem isText_int {name : String} (hname : shortName name = true) (value : Int32)
    : (int name value).IsText := ⟨hname, fun _ hvalue => Arg.noConfusion hvalue⟩

theorem isText_string {name value : String} (hname : shortName name = true)
    (hvalue : Quotable value) : (string name value).IsText := by
  refine ⟨hname, ?_⟩
  intro value' heq
  obtain rfl := Arg.string.inj heq
  exact hvalue

theorem Object.IsText.spells (h : o.IsText) : Spells o.text o := by
  refine ⟨h.count, ?_⟩
  have hnames (m : Member) (hm : m ∈ o.members)
      : validName m.name = true ∧ m.name.toList.length < MAXNAME := by
    have hname := (h.members m hm).name
    rw [shortName, Bool.and_eq_true, decide_eq_true_iff] at hname
    exact hname
  obtain ⟨members, hflat, hcount, htokens, hevents, hint⟩ :=
    exists_members h.nonempty (fun m hm => (hnames m hm).1) (fun m hm => (hnames m hm).2)
      fun m hm => (h.members m hm).value
  obtain ⟨body, htext, hbody⟩ := spaced_object h.nonempty
  have hname := h.name
  rw [shortName, Bool.and_eq_true, decide_eq_true_iff] at hname
  let name : Name := ⟨o.name.toList, List.all_eq_true.mp hname.1, hname.2⟩
  have heq : Doc.tokens ⟨some name, members⟩ = o.tokens := by
    simp [Doc.tokens, Value.tokens, htokens, Object.tokens, name, Kind.opening, Kind.closing]
  refine ⟨name, members, hflat, hcount, hint, ⟨body, ['\n'], htext, ?_, by decide⟩, ?_⟩
  . rw [heq]
    exact hbody
  . simp [Doc.events, Value.events, Doc.nameText, Kind.start, Kind.complete, hevents, name,
      Object.callbacks]

theorem Object.IsText.message_spells (h : o.IsText) (hwhole : o.text.length < MAXJSONMESSAGE)
    : Spells o.message o := by
  rw [message_eq hwhole]
  exact h.spells

/--
The characters that members take up in a message, with their commas.
-/
def room (members : List Member) : Nat := (members.map fun m => m.text.length + 2).sum

theorem room_append (xs ys : List Member) : room (xs ++ ys) = room xs + room ys := by
  unfold room
  rw [List.map_append, List.sum_append]

theorem room_int_le (name : String) (value : Int32)
    : room [int name value] ≤ name.toList.length + 16 := by
  show (int name value).text.length + 2 + 0 ≤ _
  rw [length_memberText]
  have hdecimal := length_decimal_le value
  show name.toList.length + (decimal value).length + 3 + 2 + 0 ≤ _
  omega

theorem room_string (name value : String)
    : room [string name value] = name.toList.length + value.toList.length + 7 := by
  show (string name value).text.length + 2 + 0 = _
  rw [length_memberText]
  show name.toList.length + (Arg.string value).text.length + 3 + 2 + 0 = _
  rw [length_stringText]
  omega

theorem length_text_le (o : Object)
    : o.text.length ≤ o.name.toList.length + room o.members + 10 := by
  rw [length_text]
  have hmembers := length_membersText_le o.members
  unfold room
  omega

/--
At most so many strings and integers, with short names and values.
-/
structure Small (strings ints : Nat) (members : List Member) : Prop where
  isText : ∀ m ∈ members, m.IsText
  count : members.length ≤ strings + ints
  room_le : room members ≤ 58 * strings + 26 * ints

def briefName (name : String) : Bool := shortName name && name.toList.length ≤ 10

/--
A value for a field of a daemon.
-/
structure Word (value : String) : Prop where
  quotable : Quotable value
  short : value.toList.length ≤ 41

section

variable {strings ints strings' ints' : Nat} {xs ys : List Member}

theorem Small.append (hxs : Small strings ints xs) (hys : Small strings' ints' ys)
    : Small (strings + strings') (ints + ints') (xs ++ ys) := by
  obtain ⟨hx, hxcount, hxroom⟩ := hxs
  obtain ⟨hy, hycount, hyroom⟩ := hys
  constructor
  . exact List.forall_mem_append.mpr ⟨hx, hy⟩
  . rw [List.length_append]
    omega
  . rw [room_append]
    omega

theorem small_nil : Small 0 0 [] := ⟨List.forall_mem_nil _, Nat.le_refl 0, Nat.le_refl 0⟩

theorem Small.weaken (h : Small strings ints xs) (hstrings : strings ≤ strings')
    (hints : ints ≤ ints')
    : Small strings' ints' xs := by
  obtain ⟨hx, hcount, hroom⟩ := h
  refine ⟨hx, ?_, ?_⟩
  . omega
  . omega

theorem brief_spec {name : String} (h : briefName name = true)
    : shortName name = true ∧ name.toList.length ≤ 10 := by
  rw [briefName, Bool.and_eq_true, decide_eq_true_iff] at h
  exact h

theorem small_int (name : String) (hname : briefName name = true) (value : Int32)
    : Small 0 1 [int name value] := by
  obtain ⟨hname, hlength⟩ := brief_spec hname
  have hroom := room_int_le name value
  refine ⟨?_, Nat.le_refl 1, ?_⟩
  . intro m hm
    rw [List.mem_singleton.mp hm]
    exact isText_int hname value
  . omega

theorem small_string (name : String) (hname : briefName name = true) {value : String}
    (hvalue : Word value)
    : Small 1 0 [string name value] := by
  obtain ⟨hname, hlength⟩ := brief_spec hname
  have hroom := room_string name value
  have hshort := hvalue.short
  refine ⟨?_, Nat.le_refl 1, ?_⟩
  . intro m hm
    rw [List.mem_singleton.mp hm]
    exact isText_string hname hvalue.quotable
  . omega

theorem small_ifInt (name : String) (hname : briefName name = true) (present : Bool) (value : Int32)
    : Small 0 1 (ifInt present name value) := by
  unfold ifInt
  split
  . apply small_int name hname
  . exact small_nil.weaken (Nat.le_refl 0) (Nat.zero_le 1)

theorem small_ifString (name : String) (hname : briefName name = true) {value : Option String}
    (hvalue : ∀ text ∈ value, Word text)
    : Small 1 0 (ifString name value) := by
  cases value with
  | none => exact small_nil.weaken (Nat.zero_le 1) (Nat.le_refl 0)
  | some text => exact small_string name hname (hvalue text rfl)

/--
Objects with few members are whole messages.
-/
theorem Small.isText_object {o : Object} (h : Small strings ints o.members)
    (hname : briefName o.name = true) (hne : o.members ≠ []) (hcount : strings + ints ≤ 8)
    : o.IsText ∧ o.text.length ≤ 58 * strings + 26 * ints + 20 := by
  obtain ⟨hmembers, hlength, hroom⟩ := h
  obtain ⟨hname, hshort⟩ := brief_spec hname
  have htext := length_text_le o
  refine ⟨⟨hname, hne, Nat.le_trans hlength hcount, hmembers⟩, ?_⟩
  omega

end

end Json
