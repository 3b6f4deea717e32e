import IotGateway.ZcbDaemon.Lemmas.Main

/-!
This module says what the handlers of the ZCB daemon find of the members of a message.
-/

namespace ZcbDaemon

open Json

/--
The attributes after more members.
-/
def hearMembers (members : List Member) (attrs : Attrs) : Attrs :=
  (members.map memberOf).foldl MessageMember.hear attrs

section

variable {attrs : Attrs} {name : String}

theorem hearMembers_append (xs ys : List Member)
    : hearMembers (xs ++ ys) attrs = hearMembers ys (hearMembers xs attrs) := by
  unfold hearMembers
  rw [List.map_append, List.foldl_append]

theorem hear_int (hname : name ∈ intNames) (value : Int32)
    : hearMembers [int name value] attrs = attrs.parsingIntAttr name value := by
  show (MessageMember.integer name value.toInt).hear attrs = _
  rw [MessageMember.hear, if_pos hname, Int32.ofInt_toInt]

theorem hear_string {maxlen : Nat} (hname : stringMaxlens.lookup name = some maxlen) {value : String}
    (hvalue : Quotable value)
    : hearMembers [string name value] attrs
      = if value.toList.length ≤ maxlen then attrs.parsingStringAttr name value else attrs := by
  have hcvalue : cvalue value.toList = value.toList := by
    apply List.takeWhile_eq_self_iff.mpr
    intro c hc
    apply decide_eq_true
    exact not_nul_of_stringText hvalue.1 c hc
  show (MessageMember.string name value.toList).hear attrs = _
  rw [MessageMember.hear, hname]
  simp only [hcvalue, String.ofList_toList]

/--
What one more member, which may be missing, makes of the attributes.
-/
def setInt (present : Bool) (name : String) (value : Int32) (attrs : Attrs) : Attrs :=
  if present then attrs.parsingIntAttr name value else attrs

/--
A string that is too long counts as missing.
-/
def setString (maxlen : Nat) (name : String) (value : Option String) (attrs : Attrs) : Attrs :=
  match value.filter fun text => text.toList.length ≤ maxlen with
  | some text => attrs.parsingStringAttr name text
  | none => attrs

theorem hear_ifInt (hname : name ∈ intNames) (present : Bool) (value : Int32)
    : hearMembers (ifInt present name value) attrs = setInt present name value attrs := by
  unfold ifInt setInt
  split
  . apply hear_int hname
  . rfl

theorem hear_ifString {maxlen : Nat} (hname : stringMaxlens.lookup name = some maxlen)
    {value : Option String} (hvalue : ∀ text ∈ value, Quotable text)
    : hearMembers (ifString name value) attrs = setString maxlen name value attrs := by
  cases value with
  | none => rfl
  | some text =>
    show hearMembers [string name text] attrs = _
    rw [hear_string hname (hvalue text rfl), setString, Option.filter_some]
    simp only [decide_eq_true_eq]
    split
    . rfl
    . rfl

/--
A member that the daemon does not know.
-/
theorem hear_unknown (hint : name ∉ intNames) (present : Bool) (value : Int32)
    : hearMembers (ifInt present name value) attrs = attrs := by
  unfold ifInt
  split
  . show (MessageMember.integer name value.toInt).hear attrs = _
    rw [MessageMember.hear, if_neg hint]
  . rfl

end

section

variable (attrs : Attrs) (present : Bool) (maxlen : Nat) (name field : String) (value : Int32)
  (string : Option String)

@[simp]
theorem getInt_setInt
    : (setInt present name value attrs).parsingGetIntAttr field
      = if present ∧ field = name then value else attrs.parsingGetIntAttr field := by
  unfold setInt
  cases present with
  | true => simp only [if_true, Attrs.parsingIntAttr, true_and]
  | false => simp only [Bool.false_eq_true, if_false, false_and]

@[simp]
theorem getString_setInt
    : (setInt present name value attrs).parsingGetStringAttr field
      = attrs.parsingGetStringAttr field := by
  unfold setInt
  split
  . rfl
  . rfl

@[simp]
theorem getInt_setString
    : (setString maxlen name string attrs).parsingGetIntAttr field
      = attrs.parsingGetIntAttr field := by
  unfold setString
  split
  . rfl
  . rfl

@[simp]
theorem getString_setString
    : (setString maxlen name string attrs).parsingGetStringAttr field
      = if field = name then
          (string.filter fun text => text.toList.length ≤ maxlen).getD
            (attrs.parsingGetStringAttr field)
        else
          attrs.parsingGetStringAttr field := by
  unfold setString
  split
  . next text htext =>
    rw [htext]
    rfl
  . next hnone =>
    rw [hnone]
    split
    . rfl
    . rfl

@[simp]
theorem getInt_parsingIntAttr
    : (attrs.parsingIntAttr name value).parsingGetIntAttr field
      = if field = name then value else attrs.parsingGetIntAttr field := rfl

@[simp]
theorem getString_parsingIntAttr
    : (attrs.parsingIntAttr name value).parsingGetStringAttr field
      = attrs.parsingGetStringAttr field := rfl

@[simp]
theorem getInt_parsingReset : Attrs.parsingReset.parsingGetIntAttr field = Attrs.INT_MIN := rfl

@[simp]
theorem getString_parsingReset : Attrs.parsingReset.parsingGetStringAttr field = "" := rfl

end

end ZcbDaemon
