import IotGateway.Json.Lemmas.Blanks
import IotGateway.Json.Lemmas.Create

/-!
This module says which messages of the constructors the parser reads right without their blanks.
-/

namespace Json

open Machine

theorem solid_of_valid {c : Char} (h : isValidNameChar c = true) : isSolid c = true := by
  cases hsolid : isSolid c with
  | true => rfl
  | false =>
    rw [(not_solid hsolid).2.2] at h
    cases h

theorem solid_of_isNum {c : Char} (h : isNum c = true) : isSolid c = true := by
  cases hsolid : isSolid c with
  | true => rfl
  | false =>
    rw [(not_solid hsolid).2.1] at h
    cases h

theorem solid_decimal (value : Int32) : ∀ c ∈ decimal value, isSolid c = true := by
  obtain ⟨n, htext, -⟩ := exists_numeral value
  rw [← htext, Numeral.text]
  refine List.forall_mem_append.mpr ⟨?_, ?_⟩
  . cases n.sign with
    | none | plus | minus => decide
  . exact fun c hc => solid_of_isNum (n.valid c hc)

theorem solid_quoted {text : List Char} (h : ∀ c ∈ text, isSolid c = true)
    : ∀ c ∈ quoted text, isSolid c = true := by
  exact List.forall_mem_append.mpr ⟨List.forall_mem_cons.mpr ⟨by decide, h⟩, by decide⟩

def Member.Unspaced (m : Member) : Prop :=
  ∀ value, m.value = .string value → ∀ c ∈ value.toList, isSolid c = true

/--
No value has a blank or a tab.
-/
def Object.Unspaced (o : Object) : Prop := ∀ m ∈ o.members, m.Unspaced

theorem Member.Unspaced.value_solid {m : Member} (h : m.Unspaced)
    : ∀ c ∈ m.value.text, isSolid c = true := by
  obtain ⟨name, value⟩ := m
  cases value with
  | int value => exact solid_decimal value
  | string value => exact solid_quoted (h value rfl)
  | null =>
    show ∀ c ∈ "\"(null)\"".toList, isSolid c = true
    decide

theorem memberTokens_solid {ms : List Member} (hnames : NamesValid ms)
    (hunspaced : ∀ m ∈ ms, m.Unspaced)
    : ∀ token ∈ memberTokens ms, ∀ c ∈ token, isSolid c = true := by
  have hmember (m : Member) (hname : validName m.name = true) (hm : m.Unspaced)
      : ∀ token ∈ [quoted m.name.toList, [':'], m.value.text], ∀ c ∈ token, isSolid c = true := by
    have hquoted := solid_quoted fun c hc => solid_of_valid (List.all_eq_true.mp hname c hc)
    exact List.forall_mem_cons.mpr ⟨hquoted, List.forall_mem_cons.mpr
      ⟨by decide, List.forall_mem_cons.mpr ⟨hm.value_solid, List.forall_mem_nil _⟩⟩⟩
  induction ms with
  | nil => exact List.forall_mem_nil _
  | cons m ms ih =>
    obtain ⟨hname, hnames⟩ := List.forall_mem_cons.mp hnames
    obtain ⟨hm, hunspaced⟩ := List.forall_mem_cons.mp hunspaced
    cases ms with
    | nil => exact hmember m hname hm
    | cons m' ms =>
      have hcomma : ∀ token ∈ [[',']], ∀ c ∈ token, isSolid c = true := by decide
      have hfirst := List.forall_mem_append.mpr ⟨hmember m hname hm, hcomma⟩
      exact List.forall_mem_append.mpr ⟨hfirst, ih hnames hunspaced⟩

variable {rgb2xy kelvin2xy : Int32 → Int32 × Int32} {o : Object}

theorem tokens_solid (h : o.Shaped) (hnames : NamesValid o.members) (hunspaced : o.Unspaced)
    : ∀ token ∈ o.tokens, ∀ c ∈ token, isSolid c = true := by
  have hname := solid_quoted fun c hc => solid_of_valid (List.all_eq_true.mp h.name c hc)
  have hopen : ∀ token ∈ [quoted o.name.toList, [':'], ['{']], ∀ c ∈ token, isSolid c = true :=
    List.forall_mem_cons.mpr ⟨hname, by decide⟩
  have hclose : ∀ token ∈ [['}']], ∀ c ∈ token, isSolid c = true := by decide
  have hmembers := List.forall_mem_append.mpr ⟨hopen, memberTokens_solid hnames hunspaced⟩
  exact List.forall_mem_append.mpr ⟨hmembers, hclose⟩

theorem filter_name {name : String} (h : validName name = true)
    : name.toList.filter isSolid = name.toList := by
  rw [List.filter_eq_self]
  exact fun c hc => solid_of_valid (List.all_eq_true.mp h c hc)

/--
A value is not made of blanks.
-/
theorem length_value_pos (value : Arg) : 0 < (value.text.filter isSolid).length := by
  have hsolid : ∃ c ∈ value.text, isSolid c = true := by
    cases value with
    | int value =>
      have hne : decimal value ≠ [] := by
        unfold decimal
        split
        . exact List.cons_ne_nil _ _
        . exact Nat.toDigits_ne_nil
      obtain ⟨c, rest, hcons⟩ := List.exists_cons_of_ne_nil hne
      have hc : c ∈ decimal value := by
        rw [hcons]
        exact List.mem_cons_self
      exact ⟨c, hc, solid_decimal value c hc⟩
    | string value => exact ⟨'"', List.mem_cons_self, by decide⟩
    | null => exact ⟨'"', by decide, by decide⟩
  obtain ⟨c, hc, hsolid⟩ := hsolid
  exact List.length_pos_of_mem (List.mem_filter.mpr ⟨hc, hsolid⟩)

theorem length_solid_member {m : Member} (h : longName m.name = true)
    : 6 ≤ (m.text.filter isSolid).length := by
  obtain ⟨hvalid, hlong⟩ := Bool.and_eq_true_iff.mp h
  have hvalue := length_value_pos m.value
  have htext : m.text.filter isSolid
      = '"' :: m.name.toList ++ ['"', ':'] ++ m.value.text.filter isSolid := by
    rw [Member.text, List.filter_append, List.filter_append, List.filter_cons_of_pos (by decide),
      filter_name hvalid]
    rfl
  rw [htext]
  simp only [List.length_append, List.length_cons, List.length_nil]
  have := of_decide_eq_true hlong
  omega

theorem length_solid_members {ms : List Member} (h : NamesAll longName ms)
    : 7 * ms.length ≤ ((membersText ms).filter isSolid).length + 1 := by
  induction ms with
  | nil => exact Nat.zero_le _
  | cons m ms ih =>
    obtain ⟨hm, hms⟩ := List.forall_mem_cons.mp h
    have hmember := length_solid_member hm
    cases ms with
    | nil =>
      show 7 ≤ (m.text.filter isSolid).length + 1
      omega
    | cons m' ms =>
      have hcomma : (", ".toList.filter isSolid).length = 1 := by decide
      have hrest := ih hms
      have htext : membersText (m :: m' :: ms) = m.text ++ ", ".toList ++ membersText (m' :: ms) := rfl
      simp only [List.length_cons] at hrest ⊢
      rw [htext, List.filter_append, List.filter_append, List.length_append,
        List.length_append]
      omega

/--
A text that is short without its blanks has few members.
-/
theorem count_of_short (h : Built rgb2xy kelvin2xy o) (hshort : (o.text.filter isSolid).length < 70)
    : o.members.length ≤ 8 := by
  obtain ⟨hname, -, -, hnames, -⟩ := built_names h
  rcases hnames with hnames | ⟨label, val, rfl⟩
  . obtain ⟨hvalid, hlong⟩ := Bool.and_eq_true_iff.mp hname
    have hmembers := length_solid_members hnames
    have hopen : (" : \x7b ".toList.filter isSolid).length = 2 := by decide
    have hclose : (" \x7d\n".toList.filter isSolid).length = 2 := by decide
    have hquoted : (('"' :: o.name.toList ++ ['"']).filter isSolid).length
        = o.name.toList.length + 2 := by
      rw [List.filter_append, List.filter_cons_of_pos (by decide), filter_name hvalid]
      simp [isSolid]
    have := of_decide_eq_true hlong
    unfold Object.text at hshort
    simp only [List.filter_append, List.length_append] at hshort hquoted
    omega
  . exact (by decide : 1 ≤ 8)

/--
The blanks in the values are all that counts.
-/
theorem trace_solid_iff (h : Built rgb2xy kelvin2xy o) (hjson : o.IsJson)
    (hshort : (o.text.filter isSolid).length < 70)
    : (∀ p, trace eatStep (jsonReset p) (o.text.filter isSolid) = trace eatStep (jsonReset p) o.text)
      ↔ o.Unspaced := by
  have hshaped := built_shaped h
  have hcount := count_of_short h hshort
  obtain ⟨name, members, hflat, hlength, hint, htokens, htext, hevents⟩ := exists_doc hshaped hjson
  have hreads (p : ParserData) {text : List Char} (htext : Doc.IsText ⟨some name, members⟩ text)
      : trace eatStep (jsonReset p) text = Doc.events Numeral.value ⟨some name, members⟩ := by
    rcases flatDoc_trace name hflat hint p htext with ⟨htrace, -⟩ | ⟨-, hmany⟩
    . exact htrace
    . rw [hlength] at hmany
      exact absurd hcount (Nat.not_le_of_lt hmany)
  constructor
  . intro hsame m hm value hvalue
    have hmem : Event.string m.name.toList value.toList
        ∈ trace eatStep (jsonReset .init) (o.text.filter isSolid) := by
      rw [hsame, hreads .init htext, hevents]
      refine List.mem_append_left _ (List.mem_cons_of_mem _ (List.mem_map.mpr ⟨m, hm, ?_⟩))
      rw [Member.event, hvalue]
    exact solid_trace (fun c hc => (List.mem_filter.mp hc).2) _ hmem
  . intro hunspaced p
    have hsolid := tokens_solid hshaped hjson.names hunspaced
    rw [← htokens] at hsolid
    rw [hreads p htext, hreads p (htext.filter hsolid)]

end Json
