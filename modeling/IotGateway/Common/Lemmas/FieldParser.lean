import IotGateway.Common.Impl.FieldParser
import Mathlib.Data.List.Infix

/-!
This module says when the values of the fields are those of the last events that were accepted.
-/

namespace FieldParser

open Registry

section History

variable {name : String} {value : Value} {h before : List Op} {op : Op}

def Op.newInt : Op → Option String
  | .addInt name => some name
  | _ => none

def Op.newString : Op → Option String
  | .addString name _ => some name
  | _ => none

/--
The fields are the first names that are registered.
-/
def intFields (h : List Op) : List String := named MAXINTATTRS Op.newInt h

def stringFields (h : List Op) : List String := named MAXSTRINGATTRS Op.newString h

def Op.length (name : String) : Op → Option Int
  | .addString name' maxlen => if name' = name then some maxlen.toInt else none
  | _ => none

/--
The largest length that is registered for a name.
-/
def limit (name : String) (h : List Op) : Option Int := (h.filterMap (Op.length name)).max?

/--
The calls up to the last reset.
-/
def atReset : List Op → List Op
  | [] => []
  | .reset :: before => .reset :: before
  | _ :: before => atReset before

/--
The last value since then.
-/
def lastInt (name : String) : List Op → Option Int32
  | [] => none
  | .reset :: _ => none
  | .int name' value :: before =>
    if name' = name ∧ name ∈ intFields before then some value else lastInt name before
  | _ :: before => lastInt name before

def lastString (accepts : String → Value → List Op → Bool) (name : String)
    : List Op → Option String
  | [] => none
  | .reset :: _ => none
  | .string name' value :: before =>
    if name' = name ∧ accepts name value before then
      some value.text
    else
      lastString accepts name before
  | _ :: before => lastString accepts name before

/--
A string is accepted if it is not longer than the largest length.
-/
def accepted (name : String) (value : Value) (before : List Op) : Bool :=
  name ∈ stringFields before ∧ ∃ maxlen ∈ limit name before, (value.text.length : Int) ≤ maxlen

/--
A string is copied if it is not longer than that as a `size_t`.
-/
def copied (name : String) (value : Value) (before : List Op) : Bool :=
  name ∈ stringFields before ∧ ∃ maxlen ∈ limit name before, value.text.length ≤ size_t maxlen

theorem intFields_of_none (hop : op.newInt = none) : intFields (op :: h) = intFields h :=
  named_of_none hop

theorem stringFields_of_none (hop : op.newString = none)
    : stringFields (op :: h) = stringFields h :=
  named_of_none hop

theorem intFields_addInt (name : String) (h : List Op)
    : intFields (.addInt name :: h)
      = if name ∈ intFields h ∨ MAXINTATTRS ≤ (intFields h).length then
          intFields h
        else
          intFields h ++ [name] :=
  named_of_some rfl

theorem stringFields_addString (name : String) (maxlen : Int32) (h : List Op)
    : stringFields (.addString name maxlen :: h)
      = if name ∈ stringFields h ∨ MAXSTRINGATTRS ≤ (stringFields h).length then
          stringFields h
        else
          stringFields h ++ [name] :=
  named_of_some rfl

theorem atReset_subset (h : List Op) : intFields (atReset h) ⊆ intFields h := by
  induction h with
  | nil => exact List.Subset.refl _
  | cons op h ih =>
    cases op with
    | reset => exact List.Subset.refl _
    | _ => exact List.Subset.trans ih (named_subset _ h)

theorem lastInt_of_not_mem (hname : name ∉ intFields h) : lastInt name h = none := by
  induction h with
  | nil => rfl
  | cons op h ih =>
    have hbefore : name ∉ intFields h := fun hmem => hname (named_subset op h hmem)
    cases op with
    | reset => rfl
    | int name' value =>
      unfold lastInt
      rw [if_neg fun hboth => hbefore hboth.2]
      exact ih hbefore
    | _ => exact ih hbefore

theorem lastString_of_not_mem {accepts : String → Value → List Op → Bool}
    (haccepts : ∀ value before, accepts name value before = true → name ∈ stringFields before)
    (hname : name ∉ stringFields h)
    : lastString accepts name h = none := by
  induction h with
  | nil => rfl
  | cons op h ih =>
    have hbefore : name ∉ stringFields h := fun hmem => hname (named_subset op h hmem)
    cases op with
    | reset => rfl
    | string name' value =>
      unfold lastString
      rw [if_neg fun hboth => hbefore (haccepts value h hboth.2)]
      exact ih hbefore
    | _ => exact ih hbefore

theorem mem_of_accepted (haccepted : accepted name value before = true)
    : name ∈ stringFields before := by
  unfold accepted at haccepted
  exact (of_decide_eq_true haccepted).1

theorem mem_of_copied (hcopied : copied name value before = true)
    : name ∈ stringFields before := by
  unfold copied at hcopied
  exact (of_decide_eq_true hcopied).1

theorem limit_of_none (hop : op.length name = none) : limit name (op :: h) = limit name h := by
  unfold limit
  rw [List.filterMap_cons_none hop]

theorem limit_addString (name : String) (maxlen : Int32) (h : List Op)
    : limit name (.addString name maxlen :: h)
      = some ((limit name h).elim maxlen.toInt (max maxlen.toInt)) := by
  have hop : (Op.addString name maxlen).length name = some maxlen.toInt := if_pos rfl
  unfold limit
  rw [List.filterMap_cons_some hop, List.max?_cons]

theorem limit_addString_of_ne {name' : String} (hne : name' ≠ name) (maxlen : Int32)
    : limit name (.addString name' maxlen :: h) = limit name h :=
  limit_of_none (if_neg hne)

/--
It has been registered as an `int`.
-/
theorem limit_bounds {maxlen : Int} (hlimit : limit name h = some maxlen)
    : -2 ^ 31 ≤ maxlen ∧ maxlen < 2 ^ 31 := by
  have hmem : maxlen ∈ h.filterMap (Op.length name) := List.max?_mem hlimit
  obtain ⟨op, -, hop⟩ := List.mem_filterMap.mp hmem
  cases op with
  | addString name' maxlen' =>
    obtain ⟨-, rfl⟩ := Option.ite_some_none_eq_some.mp hop
    exact ⟨maxlen'.le_toInt, maxlen'.toInt_lt⟩
  | _ => cases hop

/--
Each length is registered with its field, unless there is no place for it.
-/
theorem limit_isSome_iff (hplace : name ∈ stringFields h ∨ (stringFields h).length < MAXSTRINGATTRS)
    : (limit name h).isSome = true ↔ name ∈ stringFields h := by
  induction h with
  | nil => exact iff_of_false Bool.false_ne_true List.not_mem_nil
  | cons op h ih =>
    cases op with
    | addString name' maxlen =>
      rw [stringFields_addString] at hplace ⊢
      by_cases hname : name' = name
      . subst hname
        rw [limit_addString]
        refine iff_of_true rfl ?_
        split at hplace
        . next hno =>
          rw [if_pos hno]
          rcases hplace with hmem | hlt
          . exact hmem
          . exact hno.resolve_right (Nat.not_le_of_lt hlt)
        . next hyes =>
          rw [if_neg hyes]
          exact List.mem_append_right _ List.mem_cons_self
      . rw [limit_addString_of_ne hname]
        split at hplace
        . next hno =>
          rw [if_pos hno]
          exact ih hplace
        . next hyes =>
          have hmem : name ∈ stringFields h ++ [name'] ↔ name ∈ stringFields h := by
            rw [List.mem_append, List.mem_singleton]
            exact or_iff_left (Ne.symm hname)
          rw [if_neg hyes, hmem]
          exact ih (.inr (Nat.lt_of_not_le fun hfull => hyes (.inr hfull)))
    | _ =>
      rw [limit_of_none rfl, stringFields_of_none rfl] at *
      exact ih hplace

theorem size_t_of_nonneg {n : Int} (hn : 0 ≤ n) (hlt : n < 2 ^ 31) : size_t n = n.toNat := by
  unfold size_t
  rw [Int.emod_eq_of_lt hn (by omega)]

/--
A negative length is a large one.
-/
theorem le_size_t_of_neg {n : Int} (hn : n < 0) (hle : -2 ^ 31 ≤ n) : 2 ^ 31 ≤ size_t n := by
  unfold size_t
  omega

end History

section Table

variable {h : List Op} {p : Parser}

/--
What is in the place of a field.
-/
def intRow (h : List Op) (name : String) : IntAttr where
  name := name
  value := (lastInt name h).getD (if name ∈ intFields (atReset h) then INT_MIN else 0)

def stringRow (h : List Op) (name : String) : StringAttr where
  name := name
  maxlen := (limit name h).getD 0
  value := (lastString copied name h).getD ""

structure Registered (h : List Op) (p : Parser) : Prop where
  ints : p.parsingIntAttrs.Holds .static ((intFields h).map (intRow h))
  strings : p.parsingStringAttrs.Holds .static ((stringFields h).map (stringRow h))

theorem Registered.num_ints (hp : Registered h p) : p.parsingIntAttrs.num = (intFields h).length :=
  hp.ints.num_eq.trans (List.length_map _)

theorem Registered.num_strings (hp : Registered h p)
    : p.parsingStringAttrs.num = (stringFields h).length :=
  hp.strings.num_eq.trans (List.length_map _)

theorem Registered.exists_int (hp : Registered h p) (name : String)
    : (parsingExistsIntAttr name p).isSome = true ↔ name ∈ intFields h :=
  hp.ints.index_isSome fun _ => decide_eq_true_iff

theorem Registered.exists_string (hp : Registered h p) (name : String)
    : (parsingExistsStringAttr name p).isSome = true ↔ name ∈ stringFields h :=
  hp.strings.index_isSome fun _ => decide_eq_true_iff

theorem intRow_new {name : String} (hname : name ∉ intFields h)
    : intRow h name = { IntAttr.static with name } := by
  have hreset : name ∉ intFields (atReset h) := fun hmem => hname (atReset_subset h hmem)
  unfold intRow
  rw [lastInt_of_not_mem hname, if_neg hreset]
  rfl

theorem stringRow_new {name : String} (hname : name ∉ stringFields h)
    (hlt : (stringFields h).length < MAXSTRINGATTRS) (maxlen : Int32)
    : stringRow (.addString name maxlen :: h) name
      = { StringAttr.static with name, maxlen := maxlen.toInt } := by
  have hlimit : limit name h = none := by
    rw [← Option.not_isSome_iff_eq_none, limit_isSome_iff (.inr hlt)]
    exact hname
  have hlast : lastString copied name (.addString name maxlen :: h) = none := by
    show lastString copied name h = none
    exact lastString_of_not_mem (fun _ _ => mem_of_copied) hname
  unfold stringRow
  rw [limit_addString, hlimit, hlast]
  rfl

theorem registered_init : Registered [] .init := ⟨holds_static, holds_static⟩

theorem Registered.addInt (hp : Registered h p) (name : String)
    : Registered (.addInt name :: h) (parsingAddIntAttr name p).1 := by
  have hstrings : p.parsingStringAttrs.Holds .static
      ((stringFields (.addInt name :: h)).map (stringRow (.addInt name :: h))) := by
    rw [stringFields_of_none rfl]
    exact hp.strings
  have hexists := hp.exists_int name
  have hnum := hp.num_ints
  unfold parsingAddIntAttr
  cases hindex : parsingExistsIntAttr name p with
  | some i =>
    rw [hindex] at hexists
    refine ⟨?_, hstrings⟩
    rw [intFields_addInt, if_pos (.inl (hexists.mp rfl))]
    exact hp.ints
  | none =>
    rw [hindex] at hexists
    have hname : name ∉ intFields h := fun hmem => Bool.false_ne_true (hexists.mpr hmem)
    by_cases hlt : p.parsingIntAttrs.num < MAXINTATTRS
    . have hplace : ¬(name ∈ intFields h ∨ MAXINTATTRS ≤ (intFields h).length) := by
        rw [← hnum]
        exact not_or.mpr ⟨hname, Nat.not_le_of_lt hlt⟩
      simp only [dif_pos hlt]
      refine ⟨?_, hstrings⟩
      have hpush := hp.ints.push (f := fun attr => { attr with name }) hlt
      rw [← intRow_new hname] at hpush
      rw [intFields_addInt, if_neg hplace, List.map_append]
      exact hpush
    . simp only [dif_neg hlt]
      refine ⟨?_, hstrings⟩
      rw [intFields_addInt, if_pos (.inr (hnum ▸ Nat.le_of_not_lt hlt))]
      exact hp.ints

theorem stringRow_addString_of_ne {name field : String} (hne : field ≠ name) (maxlen : Int32)
    : stringRow (.addString name maxlen :: h) field = stringRow h field := by
  unfold stringRow
  rw [limit_addString_of_ne (Ne.symm hne)]
  rfl

/--
A field that is there already keeps the larger length.
-/
theorem stringRow_addString {name : String} (hname : name ∈ stringFields h) (maxlen : Int32)
    : stringRow (.addString name maxlen :: h) name
      = if (stringRow h name).maxlen < maxlen.toInt then
          { stringRow h name with maxlen := maxlen.toInt }
        else
          stringRow h name := by
  obtain ⟨known, hknown⟩ := Option.isSome_iff_exists.mp ((limit_isSome_iff (.inl hname)).mpr hname)
  have hlast : lastString copied name (.addString name maxlen :: h) = lastString copied name h :=
    rfl
  unfold stringRow
  rw [limit_addString, hlast, hknown]
  show (⟨name, max maxlen.toInt known, _⟩ : StringAttr)
    = if known < maxlen.toInt then ⟨name, maxlen.toInt, _⟩ else ⟨name, known, _⟩
  split
  . next hlt => rw [Int.max_eq_left (Int.le_of_lt hlt)]
  . next hle => rw [Int.max_eq_right (Int.not_lt.mp hle)]

theorem Registered.addString (hp : Registered h p) (name : String) (maxlen : Int32)
    : Registered (.addString name maxlen :: h) (parsingAddStringAttr name maxlen p).1 := by
  have hints : p.parsingIntAttrs.Holds .static
      ((intFields (.addString name maxlen :: h)).map (intRow (.addString name maxlen :: h))) := by
    rw [intFields_of_none rfl]
    exact hp.ints
  have hexists := hp.exists_string name
  have hnum := hp.num_strings
  unfold parsingAddStringAttr
  cases hindex : parsingExistsStringAttr name p with
  | some i =>
    rw [hindex] at hexists
    have hname := hexists.mp rfl
    refine ⟨hints, ?_⟩
    have hrow : ∀ field ∈ stringFields h, decide ((stringRow h field).name = name) = true →
        stringRow (.addString name maxlen :: h) field
          = if (stringRow h field).maxlen < maxlen.toInt then
              { stringRow h field with maxlen := maxlen.toInt }
            else
              stringRow h field := by
      intro field _ hfield
      obtain rfl : field = name := of_decide_eq_true hfield
      exact stringRow_addString hname maxlen
    have hupdate := hp.strings.update (p := fun attr => attr.name = name)
      (f := fun attr =>
        if attr.maxlen < maxlen.toInt then { attr with maxlen := maxlen.toInt } else attr)
      (stringRow (.addString name maxlen :: h)) (nodup_named _) (fun _ => of_decide_eq_true)
      hrow fun field _ hfield => stringRow_addString_of_ne (of_decide_eq_false hfield) maxlen
    have hi : p.parsingStringAttrs.index (fun attr => attr.name = name) = some i := hindex
    rw [hi] at hupdate
    rw [stringFields_addString, if_pos (.inl hname)]
    exact hupdate
  | none =>
    rw [hindex] at hexists
    have hname : name ∉ stringFields h := fun hmem => Bool.false_ne_true (hexists.mpr hmem)
    have hrows : (stringFields h).map (stringRow (.addString name maxlen :: h))
        = (stringFields h).map (stringRow h) := by
      apply List.map_congr_left
      intro field hfield
      apply stringRow_addString_of_ne
      rintro rfl
      exact hname hfield
    by_cases hlt : p.parsingStringAttrs.num < MAXSTRINGATTRS
    . have hlt' : (stringFields h).length < MAXSTRINGATTRS := hnum ▸ hlt
      have hplace : ¬(name ∈ stringFields h ∨ MAXSTRINGATTRS ≤ (stringFields h).length) :=
        not_or.mpr ⟨hname, Nat.not_le_of_lt hlt'⟩
      simp only [dif_pos hlt]
      refine ⟨hints, ?_⟩
      have hpush := hp.strings.push
        (f := fun attr => { attr with name, maxlen := maxlen.toInt }) hlt
      rw [← stringRow_new hname hlt' maxlen, ← hrows] at hpush
      rw [stringFields_addString, if_neg hplace, List.map_append]
      exact hpush
    . simp only [dif_neg hlt]
      refine ⟨hints, ?_⟩
      rw [stringFields_addString, if_pos (.inr (hnum ▸ Nat.le_of_not_lt hlt)), hrows]
      exact hp.strings

theorem Registered.reset (hp : Registered h p) : Registered (.reset :: h) (parsingReset p) := by
  constructor
  . have hmap := hp.ints.mapUsed (f := fun attr => { attr with value := INT_MIN })
    rw [List.map_map] at hmap
    have hfields : intFields (.reset :: h) = intFields h := intFields_of_none rfl
    have hrows : (intFields h).map (intRow (.reset :: h))
        = (intFields h).map
          ((fun attr : IntAttr => { attr with value := INT_MIN }) ∘ intRow h) := by
      apply List.map_congr_left
      intro name hname
      have hreset : name ∈ intFields (atReset (.reset :: h)) := by
        show name ∈ intFields (.reset :: h)
        rw [hfields]
        exact hname
      unfold intRow
      rw [if_pos hreset]
      rfl
    rw [hfields, hrows]
    exact hmap
  . have hmap := hp.strings.mapUsed (f := fun attr => { attr with value := "" })
    rw [List.map_map] at hmap
    have hrows : stringRow (.reset :: h)
        = (fun attr : StringAttr => { attr with value := "" }) ∘ stringRow h := by
      funext name
      show (⟨name, (limit name (.reset :: h)).getD 0, _⟩ : StringAttr)
        = ⟨name, (limit name h).getD 0, _⟩
      rw [limit_of_none rfl]
      rfl
    rw [stringFields_of_none rfl, hrows]
    exact hmap

theorem Registered.int (hp : Registered h p) (name : String) (value : Int32)
    : Registered (.int name value :: h) (parsingIntAttr name value p).1 := by
  have hrow : ∀ field ∈ intFields h, decide ((intRow h field).name = name) = true →
      intRow (.int name value :: h) field = { intRow h field with value } := by
    intro field hmem hfield
    obtain rfl : field = name := of_decide_eq_true hfield
    unfold intRow lastInt
    rw [if_pos ⟨rfl, hmem⟩]
    rfl
  have hrest : ∀ field ∈ intFields h, decide ((intRow h field).name = name) = false →
      intRow (.int name value :: h) field = intRow h field := by
    intro field _ hfield
    have hne : name ≠ field := Ne.symm (of_decide_eq_false hfield)
    unfold intRow
    rw [lastInt, if_neg fun hboth => hne hboth.1]
    rfl
  have hupdate := hp.ints.update (p := fun attr => attr.name = name)
    (f := fun attr => { attr with value }) (intRow (.int name value :: h)) (nodup_named _)
    (fun _ => of_decide_eq_true) hrow hrest
  constructor
  . rw [intFields_of_none rfl]
    unfold parsingIntAttr
    split
    . next i hindex =>
      rw [hindex] at hupdate
      exact hupdate
    . next hindex =>
      rw [hindex] at hupdate
      exact hupdate
  . have hstrings : (parsingIntAttr name value p).1.parsingStringAttrs = p.parsingStringAttrs := by
      unfold parsingIntAttr
      split <;> rfl
    have hrows : stringRow (.int name value :: h) = stringRow h := by
      funext field
      unfold stringRow
      rw [limit_of_none rfl]
      rfl
    rw [hstrings, stringFields_of_none rfl, hrows]
    exact hp.strings

theorem Registered.string (hp : Registered h p) (name : String) (value : Value)
    : Registered (.string name value :: h) (parsingStringAttr name value p).1 := by
  have hlimit : ∀ field, limit field (.string name value :: h) = limit field h :=
    fun _ => limit_of_none rfl
  have hfits : ∀ field ∈ stringFields h,
      decide ((stringRow h field).name = name
        ∧ value.text.length ≤ size_t (stringRow h field).maxlen)
        = decide (name = field ∧ copied field value h = true) := by
    intro field hfield
    obtain ⟨maxlen, hmaxlen⟩ :=
      Option.isSome_iff_exists.mp ((limit_isSome_iff (.inl hfield)).mpr hfield)
    have hcopied : copied field value h = decide (value.text.length ≤ size_t maxlen) := by
      unfold copied
      simp [hfield, hmaxlen]
    rw [decide_eq_decide, hcopied, decide_eq_true_iff]
    unfold stringRow
    rw [hmaxlen]
    exact and_congr_left fun _ => eq_comm
  have hrow : ∀ field ∈ stringFields h, decide ((stringRow h field).name = name
        ∧ value.text.length ≤ size_t (stringRow h field).maxlen) = true →
      stringRow (.string name value :: h) field
        = { stringRow h field with value := value.text } := by
    intro field hmem hfield
    rw [hfits field hmem] at hfield
    unfold stringRow
    rw [hlimit, lastString, if_pos (of_decide_eq_true hfield)]
    rfl
  have hrest : ∀ field ∈ stringFields h, decide ((stringRow h field).name = name
        ∧ value.text.length ≤ size_t (stringRow h field).maxlen) = false →
      stringRow (.string name value :: h) field = stringRow h field := by
    intro field hmem hfield
    rw [hfits field hmem] at hfield
    unfold stringRow
    rw [hlimit, lastString, if_neg (of_decide_eq_false hfield)]
  have hname : ∀ field, decide ((stringRow h field).name = name
      ∧ value.text.length ≤ size_t (stringRow h field).maxlen) = true →
      field = name := fun _ hboth => (of_decide_eq_true hboth).1
  have hupdate := hp.strings.update
    (p := fun attr => attr.name = name ∧ value.text.length ≤ size_t attr.maxlen)
    (f := fun attr => { attr with value := value.text })
    (stringRow (.string name value :: h)) (nodup_named _) hname hrow hrest
  constructor
  . have hints : (parsingStringAttr name value p).1.parsingIntAttrs = p.parsingIntAttrs := by
      unfold parsingStringAttr
      split <;> rfl
    rw [hints, intFields_of_none rfl]
    exact hp.ints
  . rw [stringFields_of_none rfl]
    unfold parsingStringAttr
    split
    . next i hindex =>
      rw [hindex] at hupdate
      exact hupdate
    . next hindex =>
      rw [hindex] at hupdate
      exact hupdate

/--
The places hold what the calls so far say.
-/
theorem registered_run (h : List Op) : Registered h (run h) := by
  induction h with
  | nil => exact registered_init
  | cons op h ih =>
    cases op with
    | addInt name => exact ih.addInt name
    | addString name maxlen => exact ih.addString name maxlen
    | reset => exact ih.reset
    | int name value => exact ih.int name value
    | string name value => exact ih.string name value

end Table

section Gets

variable {name : String} {h ops : List Op}

/--
A field that is new since the last reset has the value of static memory.
-/
theorem get_int (name : String) (h : List Op)
    : parsingGetIntAttr name (run h)
      = (lastInt name h).getD
          (if name ∈ intFields h ∧ name ∉ intFields (atReset h) then 0 else INT_MIN) := by
  unfold parsingGetIntAttr
  rw [(registered_run h).ints.find fun _ => decide_eq_true_iff]
  by_cases hname : name ∈ intFields h
  . rw [if_pos hname]
    show (lastInt name h).getD (if name ∈ intFields (atReset h) then INT_MIN else 0) = _
    by_cases hreset : name ∈ intFields (atReset h)
    . rw [if_pos hreset, if_neg fun hnew => hnew.2 hreset]
    . rw [if_neg hreset, if_pos ⟨hname, hreset⟩]
  . rw [if_neg hname, if_neg fun hnew => hname hnew.1, lastInt_of_not_mem hname]
    rfl

theorem get_string (name : String) (h : List Op)
    : parsingGetStringAttr name (run h)
      = if name ∈ stringFields h then some ((lastString copied name h).getD "") else none := by
  unfold parsingGetStringAttr
  rw [(registered_run h).strings.find fun _ => decide_eq_true_iff]
  by_cases hname : name ∈ stringFields h
  . rw [if_pos hname, if_pos hname]
    rfl
  . rw [if_neg hname, if_neg hname]

theorem get_string0 (name : String) (p : Parser)
    : parsingGetStringAttr0 name p = (parsingGetStringAttr name p).filter (· ≠ "") := by
  unfold parsingGetStringAttr0 parsingGetStringAttr
  split
  . next attr hattr =>
    show _ = Option.filter _ (some attr.value)
    rw [Option.filter_some]
    simp only [decide_eq_true_eq]
  . rfl

/--
What the calls so far say of the values: the last one that was accepted since the last reset. The
empty string counts as none.
-/
structure Right (h : List Op) : Prop where
  int : ∀ name, parsingGetIntAttr name (run h) = (lastInt name h).getD INT_MIN
  string : ∀ name ∈ stringFields h,
    parsingGetStringAttr name (run h) = some ((lastString accepted name h).getD "")
  string0 : ∀ name,
    parsingGetStringAttr0 name (run h) = (lastString accepted name h).filter (· ≠ "")
  long : ∀ name ∈ stringFields h, ∀ value : Value,
    (∀ maxlen ∈ limit name h, maxlen < value.text.length) →
    parsingGetStringAttr name (run (.string name value :: h)) = parsingGetStringAttr name (run h)
  other : ∀ name field, field ≠ name →
    (∀ value,
      parsingGetIntAttr field (run (.int name value :: h)) = parsingGetIntAttr field (run h))
    ∧ ∀ value, parsingGetStringAttr field (run (.string name value :: h))
      = parsingGetStringAttr field (run h)
  kind : ∀ name field,
    (∀ value,
      parsingGetStringAttr field (run (.int name value :: h)) = parsingGetStringAttr field (run h))
    ∧ ∀ value,
      parsingGetIntAttr field (run (.string name value :: h)) = parsingGetIntAttr field (run h)

/--
Each integer field was registered at the last reset or has been set since then, and no string field
is there with nothing but negative lengths.
-/
structure Ready (h : List Op) : Prop where
  int : ∀ name ∈ intFields h, name ∈ intFields (atReset h) ∨ lastInt name h ≠ none
  limit : ∀ name ∈ stringFields h, ∀ maxlen ∈ limit name h, 0 ≤ maxlen

theorem other_int {name field : String} (hne : field ≠ name) (value : Int32) (h : List Op)
    : parsingGetIntAttr field (run (.int name value :: h)) = parsingGetIntAttr field (run h) := by
  have hlast : lastInt field (.int name value :: h) = lastInt field h := by
    rw [lastInt, if_neg fun hboth => hne hboth.1.symm]
  have hreset : atReset (.int name value :: h) = atReset h := rfl
  rw [get_int, get_int, hlast, hreset, intFields_of_none rfl]

theorem other_string {name field : String} (hne : field ≠ name) (value : Value) (h : List Op)
    : parsingGetStringAttr field (run (.string name value :: h))
      = parsingGetStringAttr field (run h) := by
  have hlast : lastString copied field (.string name value :: h) = lastString copied field h := by
    rw [lastString, if_neg fun hboth => hne hboth.1.symm]
  rw [get_string, get_string, hlast, stringFields_of_none rfl]

theorem kind_int (name field : String) (value : Int32) (h : List Op)
    : parsingGetStringAttr field (run (.int name value :: h))
      = parsingGetStringAttr field (run h) := by
  have hlast : lastString copied field (.int name value :: h) = lastString copied field h := rfl
  rw [get_string, get_string, hlast, stringFields_of_none rfl]

theorem kind_string (name field : String) (value : Value) (h : List Op)
    : parsingGetIntAttr field (run (.string name value :: h))
      = parsingGetIntAttr field (run h) := by
  have hlast : lastInt field (.string name value :: h) = lastInt field h := rfl
  have hreset : atReset (.string name value :: h) = atReset h := rfl
  rw [get_int, get_int, hlast, hreset, intFields_of_none rfl]

/--
A length that is not negative is a `size_t`.
-/
theorem copied_eq_accepted (hlimit : ∀ maxlen ∈ limit name h, 0 ≤ maxlen) (value : Value)
    : copied name value h = accepted name value h := by
  unfold copied accepted
  rw [decide_eq_decide]
  refine and_congr_right fun _ => exists_congr fun maxlen => and_congr_right fun hmaxlen => ?_
  have hnonneg := hlimit maxlen hmaxlen
  rw [size_t_of_nonneg hnonneg (limit_bounds hmaxlen).2]
  omega

theorem lastString_copied (hreset : .reset ∈ h)
    (hready : ∀ before, before <:+ h → .reset ∈ before → Ready before)
    : lastString copied name h = lastString accepted name h := by
  induction h with
  | nil => rfl
  | cons op h ih =>
    cases op with
    | reset => rfl
    | string name' value =>
      have hbefore : Op.reset ∈ h := by simpa using hreset
      have hsuffix : h <:+ .string name' value :: h := List.suffix_cons _ h
      have hlast := ih hbefore fun before hb => hready before (hb.trans hsuffix)
      unfold lastString
      by_cases hname : name ∈ stringFields h
      . rw [copied_eq_accepted ((hready h hsuffix hbefore).limit name hname), hlast]
      . have hcopied : copied name value h = false :=
          Bool.eq_false_iff.mpr fun hyes => hname (mem_of_copied hyes)
        have haccepted : accepted name value h = false :=
          Bool.eq_false_iff.mpr fun hyes => hname (mem_of_accepted hyes)
        rw [hcopied, haccepted, hlast]
    | _ =>
      have hbefore : Op.reset ∈ h := by simpa using hreset
      exact ih hbefore fun before hb => hready before (hb.trans (List.suffix_cons _ h))

theorem right_of_ready (hreset : .reset ∈ h)
    (hready : ∀ before, before <:+ h → .reset ∈ before → Ready before)
    : Right h := by
  have hnow := hready h (List.suffix_refl h) hreset
  have hstring : ∀ field, parsingGetStringAttr field (run h)
      = if field ∈ stringFields h then some ((lastString accepted field h).getD "") else none := by
    intro field
    rw [get_string, lastString_copied hreset hready]
  constructor
  . intro field
    rw [get_int]
    cases hlast : lastInt field h with
    | some value => rfl
    | none =>
      have hnot : ¬(field ∈ intFields h ∧ field ∉ intFields (atReset h)) := by
        rintro ⟨hfield, hnew⟩
        exact (hnow.int field hfield).elim hnew fun hset => hset hlast
      rw [if_neg hnot]
  . intro field hfield
    rw [hstring, if_pos hfield]
  . intro field
    rw [get_string0, hstring]
    split
    . cases lastString accepted field h with
      | none => rfl
      | some text => rfl
    . next hfield =>
      rw [lastString_of_not_mem (fun _ _ => mem_of_accepted) hfield]
  . intro field hfield value hlong
    have hnot : copied field value h = false := by
      rw [copied_eq_accepted (hnow.limit field hfield), Bool.eq_false_iff]
      intro haccepted
      unfold accepted at haccepted
      obtain ⟨-, maxlen, hmaxlen, hle⟩ := of_decide_eq_true haccepted
      have hlt := hlong maxlen hmaxlen
      omega
    have hlast : lastString copied field (.string field value :: h)
        = lastString copied field h := by
      rw [lastString, if_neg fun hboth => by rw [hnot] at hboth; cases hboth.2]
    rw [get_string, get_string, hlast, stringFields_of_none rfl]
  . intro field field' hne
    exact ⟨fun value => other_int hne value h, fun value => other_string hne value h⟩
  . intro field field'
    exact ⟨fun value => kind_int field field' value h,
      fun value => kind_string field field' value h⟩

/--
A string other than the present one.
-/
def another (text : String) : Value :=
  if text = "" then ⟨"x", by decide, by decide⟩ else ⟨"", by decide, by decide⟩

theorem another_ne (text : String) : (another text).text ≠ text := by
  unfold another
  split
  . next hempty =>
    rw [hempty]
    decide
  . next hne => exact Ne.symm hne

theorem ready_of_right (hright : Right h) : Ready h := by
  constructor
  . intro field hfield
    by_contra hnew
    obtain ⟨hreset, hlast⟩ := not_or.mp hnew
    rw [not_not] at hlast
    have hget := hright.int field
    rw [get_int, hlast, if_pos ⟨hfield, hreset⟩] at hget
    exact absurd hget (by decide)
  . intro field hfield maxlen hmaxlen
    by_contra hneg
    obtain ⟨hle, -⟩ := limit_bounds hmaxlen
    have hlarge := le_size_t_of_neg (Int.not_le.mp hneg) hle
    let value := another ((lastString copied field h).getD "")
    have hroom := value.room
    unfold MAXSTRINGVALUE at hroom
    have hcopied : copied field value h = true := by
      unfold copied
      exact decide_eq_true ⟨hfield, maxlen, hmaxlen, by omega⟩
    have hlong : ∀ known ∈ limit field h, known < value.text.length := by
      intro known hknown
      obtain rfl : known = maxlen := Option.mem_unique hknown hmaxlen
      omega
    have hget := hright.long field hfield value hlong
    rw [get_string, get_string, stringFields_of_none rfl, if_pos hfield, if_pos hfield, lastString,
      if_pos ⟨rfl, hcopied⟩] at hget
    exact another_ne _ (Option.some.inj hget)

/--
After the first reset the values are right all the time exactly if all the time each field is ready.
-/
theorem right_iff_ready (ops : List Op)
    : (∀ h, h <:+ ops → .reset ∈ h → Right h) ↔ ∀ h, h <:+ ops → .reset ∈ h → Ready h := by
  constructor
  . intro hright h hh hreset
    exact ready_of_right (hright h hh hreset)
  . intro hready h hh hreset
    exact right_of_ready hreset fun before hb => hready before (hb.trans hh)

/--
An integer field that is registered behind the reset reads 0.
-/
theorem right_not_of_late : ¬∀ h, .reset ∈ h → Right h := by
  intro hright
  have hreset : Op.reset ∈ [.addInt "temp", .reset] := List.mem_cons_of_mem _ List.mem_cons_self
  have hget := (hright _ hreset).int "temp"
  revert hget
  decide +kernel

end Gets

section Attrs

variable {name : String} {h : List Op}

theorem attrs_reset (h : List Op) : (run (.reset :: h)).attrs = Attrs.parsingReset := by
  unfold Parser.attrs Attrs.parsingReset
  congr 1
  . funext name
    have hold : ¬(name ∈ intFields (.reset :: h) ∧ name ∉ intFields (atReset (.reset :: h))) :=
      fun hnew => hnew.2 hnew.1
    rw [get_int, if_neg hold]
    rfl
  . funext name
    rw [get_string]
    split <;> rfl

theorem attrs_int (hname : name ∈ intFields h) (value : Int32)
    : (run (.int name value :: h)).attrs = Attrs.parsingIntAttr name value (run h).attrs := by
  unfold Parser.attrs Attrs.parsingIntAttr
  congr 1
  . funext field
    by_cases hfield : field = name
    . rw [if_pos hfield, hfield, get_int, lastInt, if_pos ⟨rfl, hname⟩]
      rfl
    . rw [if_neg hfield, other_int hfield]
  . funext field
    rw [kind_int]

theorem attrs_string {value : Value} (hcopied : copied name value h = true)
    : (run (.string name value :: h)).attrs
      = Attrs.parsingStringAttr name value.text (run h).attrs := by
  unfold Parser.attrs Attrs.parsingStringAttr
  congr 1
  . funext field
    rw [kind_string]
  . funext field
    by_cases hfield : field = name
    . have hname := mem_of_copied hcopied
      rw [if_pos hfield, hfield, get_string, stringFields_of_none rfl, if_pos hname, lastString,
        if_pos ⟨rfl, hcopied⟩]
      rfl
    . rw [if_neg hfield, other_string hfield]

end Attrs

end FieldParser
