import Mathlib.Data.List.TakeWhile
import IotGateway.Json.Grammar
import IotGateway.Json.Lemmas.Failure

/-!
This module contains what is used of the events of a text: none of them is an error, and they tell
the integers of its numerals. `Atoi` makes the right integer of a numeral if it fits in an `int`.
-/

namespace Json

/--
The integer that the program makes of a numeral.
-/
def atoiOf (n : Numeral) : Int := Atoi n.text

mutual

theorem value_isError (int : Numeral → Int) (name : List Char) (value : Value)
    : ∀ e ∈ value.events int name, e.isError = false := by
  intro e he
  match value with
  | .string s =>
    obtain rfl := List.mem_singleton.mp he
    rfl
  | .integer i =>
    obtain rfl := List.mem_singleton.mp he
    rfl
  | .container kind members =>
    simp only [Value.events, List.cons_append, List.mem_cons, List.mem_append, List.not_mem_nil,
      or_false] at he
    rcases he with rfl | he | rfl
    . cases kind <;> rfl
    . exact members_isError int members e he
    . cases kind <;> rfl

theorem members_isError (int : Numeral → Int) (members : Members)
    : ∀ e ∈ members.events int, e.isError = false := by
  intro e he
  match members with
  | .one name value => exact value_isError int name.text value e he
  | .more name value rest =>
    simp only [Members.events, List.mem_append] at he
    rcases he with he | he
    . exact value_isError int name.text value e he
    . exact members_isError int rest e he

end

mutual

theorem value_events_length (f g : Numeral → Int) (name : List Char) (value : Value)
    : (value.events f name).length = (value.events g name).length := by
  match value with
  | .string s => rfl
  | .integer i => rfl
  | .container kind members => simp [Value.events, members_events_length f g members]

theorem members_events_length (f g : Numeral → Int) (members : Members)
    : (members.events f).length = (members.events g).length := by
  match members with
  | .one name value => exact value_events_length f g name.text value
  | .more name value rest =>
    simp [Members.events, value_events_length f g name.text value, members_events_length f g rest]

end

mutual

theorem value_events_eq_iff (f g : Numeral → Int) (name : List Char) (value : Value)
    : value.events f name = value.events g name ↔ ∀ n ∈ value.numerals, f n = g n := by
  match value with
  | .string s => simp [Value.events, Value.numerals]
  | .integer i => simp [Value.events, Value.numerals]
  | .container kind members =>
    simp only [Value.events, Value.numerals, List.cons_append, List.cons.injEq, true_and,
      List.append_cancel_right_eq]
    exact members_events_eq_iff f g members

theorem members_events_eq_iff (f g : Numeral → Int) (members : Members)
    : members.events f = members.events g ↔ ∀ n ∈ members.numerals, f n = g n := by
  match members with
  | .one name value => exact value_events_eq_iff f g name.text value
  | .more name value rest =>
    simp only [Members.events, Members.numerals, List.mem_append]
    constructor
    . intro heq n hn
      obtain ⟨hvalue, hrest⟩ := List.append_inj heq (value_events_length f g name.text value)
      rcases hn with hn | hn
      . exact (value_events_eq_iff f g name.text value).mp hvalue n hn
      . exact (members_events_eq_iff f g rest).mp hrest n hn
    . intro h
      rw [(value_events_eq_iff f g name.text value).mpr fun n hn => h n (.inl hn),
        (members_events_eq_iff f g rest).mpr fun n hn => h n (.inr hn)]

end

theorem takeWhile_digits {digits : List Char} (h : ∀ c ∈ digits, isNum c = true)
    : digits.takeWhile isNum = digits := List.takeWhile_eq_self_iff.mpr h

theorem isspace_of_isNum {c : Char} (h : isNum c = true) : isspace c = false := by
  simp only [isNum, Bool.and_eq_true, decide_eq_true_eq] at h
  have hlow : 48 ≤ c.toNat := h.1
  simp only [isspace, Bool.or_eq_false_iff, decide_eq_false_iff_not, Bool.and_eq_false_iff]
  constructor
  . rintro rfl
    exact absurd hlow (by decide)
  . omega

/--
`strtol` saturates at 64 bits, and the cast keeps 32 of them.
-/
def clamp (v : Int) : Int := Int.bmod (max (-2 ^ 63) (min (2 ^ 63 - 1) v)) (2 ^ 32)

theorem clamp_eq_iff (v : Int) : clamp v = v ↔ -2 ^ 31 ≤ v ∧ v < 2 ^ 31 := by
  unfold clamp
  constructor
  . intro h
    have hle := Int.le_bmod (x := max (-2 ^ 63) (min (2 ^ 63 - 1) v)) (m := 2 ^ 32) (by decide)
    have hlt := Int.bmod_lt (x := max (-2 ^ 63) (min (2 ^ 63 - 1) v)) (m := 2 ^ 32) (by decide)
    rw [h] at hle hlt
    constructor
    . omega
    . omega
  . rintro ⟨hle, hlt⟩
    have hid : max (-2 ^ 63) (min (2 ^ 63 - 1) v) = v := by omega
    rw [hid]
    apply Int.bmod_eq_of_le
    . omega
    . omega

def signed : List Char → Int
  | '-' :: digits => -(Nat.ofDigitChars 10 (digits.takeWhile isNum) 0 : Int)
  | '+' :: digits => Nat.ofDigitChars 10 (digits.takeWhile isNum) 0
  | digits => Nat.ofDigitChars 10 (digits.takeWhile isNum) 0

theorem atoi_eq {text : List Char} (h : text.dropWhile isspace = text)
    : atoi text = clamp (signed text) := by
  unfold atoi clamp
  rw [h]
  dsimp only
  congr 1
  split
  . rw [signed]
    omega
  . rw [signed]
    omega
  . next hminus hplus =>
    rw [signed.eq_3 _ hminus hplus]
    omega

theorem atoiOf_eq (n : Numeral) : atoiOf n = clamp n.value := by
  obtain ⟨sign, digits, hvalid, hnonempty, hshort⟩ := n
  have htake := takeWhile_digits hvalid
  have hspace : (sign.text ++ digits).dropWhile isspace = sign.text ++ digits := by
    cases sign with
    | none =>
      cases digits with
      | nil => rfl
      | cons c digits =>
        apply List.dropWhile_cons_of_neg
        rw [isspace_of_isNum (hvalid c List.mem_cons_self)]
        exact Bool.false_ne_true
    | plus | minus => rfl
  have hne : sign.text ++ digits ≠ [] := by simp [hnonempty]
  show Atoi (sign.text ++ digits) = _
  unfold Atoi
  rw [if_neg hne, atoi_eq hspace]
  congr 1
  cases sign with
  | plus | minus =>
    simp only [Sign.text, List.cons_append, List.nil_append, signed, htake, Numeral.value]
  | none =>
    simp only [Sign.text, List.nil_append, Numeral.value]
    unfold signed
    split
    . exact absurd (hvalid '-' List.mem_cons_self) (by decide)
    . exact absurd (hvalid '+' List.mem_cons_self) (by decide)
    . rw [htake]

/--
The program makes the right integers of all numerals that are integers of the program.
-/
theorem events_atoiOf_iff (d : Doc)
    : d.events atoiOf = d.events Numeral.value ↔ ∀ n ∈ d.members.numerals, n.IsInt := by
  rw [Doc.events, Doc.events, value_events_eq_iff]
  simp only [Value.numerals, atoiOf_eq, clamp_eq_iff, Numeral.IsInt]

end Json
