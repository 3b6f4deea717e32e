import IotGateway.Lib.Tokens
import IotGateway.Json.Impl.Parser

/-!
This module contains the texts that `json.h` documents and the events that they stand for: an outer
object with or without a name, whose members are strings, integers, objects and arrays.
-/

namespace Json

open Machine

def Kind.opening : Kind → Char
  | .object => '{'
  | .array => '['

def Kind.closing : Kind → Char
  | .object => '}'
  | .array => ']'

def Kind.start : Kind → List Char → Event
  | .object, name => .objectStart name
  | .array, name => .arrayStart name

def Kind.complete : Kind → List Char → Event
  | .object, name => .objectComplete name
  | .array, name => .arrayComplete name

structure Name where
  text : List Char
  valid : ∀ c ∈ text, isValidNameChar c = true
  short : text.length < MAXNAME

/--
What may stand between the quotes of a string.
-/
inductive StringText : List Char → Prop where
  | nil : StringText []
  | plain {c : Char} {text : List Char} (hquote : c ≠ '"') (hslash : c ≠ '\\') (hnul : c ≠ NUL)
      (h : StringText text) : StringText (c :: text)
  | escaped {c : Char} {text : List Char} (hnul : c ≠ NUL) (h : StringText text)
      : StringText ('\\' :: c :: text)

structure Str where
  text : List Char
  valid : StringText text
  short : text.length < MAXVALUE

inductive Sign where
  | none
  | plus
  | minus

def Sign.text : Sign → List Char
  | .none => []
  | .plus => ['+']
  | .minus => ['-']

structure Numeral where
  sign : Sign
  digits : List Char
  valid : ∀ c ∈ digits, isNum c = true
  nonempty : digits ≠ []
  short : (sign.text ++ digits).length < MAXVALUE

def Numeral.text (n : Numeral) : List Char := n.sign.text ++ n.digits

def Numeral.value (n : Numeral) : Int :=
  match n.sign with
  | .minus => -(Nat.ofDigitChars 10 n.digits 0 : Int)
  | _ => Nat.ofDigitChars 10 n.digits 0

mutual

inductive Value where
  | string (s : Str)
  | integer (n : Numeral)
  | container (kind : Kind) (members : Members)

inductive Members where
  | one (name : Name) (value : Value)
  | more (name : Name) (value : Value) (rest : Members)

end

structure Doc where
  name : Option Name
  members : Members

def quoted (text : List Char) : List Char := '"' :: text ++ ['"']

mutual

def Value.tokens : Value → List (List Char)
  | .string s => [quoted s.text]
  | .integer n => [n.text]
  | .container kind members => [kind.opening] :: members.tokens ++ [[kind.closing]]

def Members.tokens : Members → List (List Char)
  | .one name value => [quoted name.text, [':']] ++ value.tokens
  | .more name value rest => [quoted name.text, [':']] ++ value.tokens ++ [[',']] ++ rest.tokens

end

def Doc.tokens (d : Doc) : List (List Char) :=
  match d.name with
  | some name => [quoted name.text, [':']] ++ (Value.container .object d.members).tokens
  | none => (Value.container .object d.members).tokens

/--
The tokens of the object with white space around them.
-/
def Doc.IsText (d : Doc) (text : List Char) : Prop :=
  ∃ body space, text = body ++ space ∧ Spaced (isWhiteSpace · = true) d.tokens body
    ∧ ∀ c ∈ space, isWhiteSpace c = true

theorem isText_flatten (d : Doc) : d.IsText d.tokens.flatten := by
  refine ⟨d.tokens.flatten, [], (List.append_nil _).symm, ?_, by simp⟩
  generalize d.tokens = tokens
  induction tokens with
  | nil => exact Spaced.nil
  | cons token tokens ih =>
    rw [List.flatten_cons, ← List.nil_append token]
    exact Spaced.cons (by simp) ih

theorem Doc.IsText.filter {d : Doc} {text : List Char} {keep : Char → Bool} (h : d.IsText text)
    (hkeep : ∀ token ∈ d.tokens, ∀ c ∈ token, keep c = true)
    : d.IsText (text.filter keep) := by
  obtain ⟨body, space, rfl, hbody, hspace⟩ := h
  refine ⟨_, _, List.filter_append .., hbody.filter hkeep, ?_⟩
  intro c hc
  exact hspace c (List.mem_of_mem_filter hc)

mutual

/--
The events of a value in order, where `int` tells the integer that a numeral stands for.
-/
def Value.events (int : Numeral → Int) (name : List Char) : Value → List Event
  | .string s => [.string name s.text]
  | .integer n => [.integer name (int n)]
  | .container kind members => kind.start name :: members.events int ++ [kind.complete name]

def Members.events (int : Numeral → Int) : Members → List Event
  | .one name value => value.events int name.text
  | .more name value rest => value.events int name.text ++ rest.events int

end

def Doc.nameText (d : Doc) : List Char :=
  match d.name with
  | some name => name.text
  | none => []

/--
The traversal of the text.
-/
def Doc.events (int : Numeral → Int) (d : Doc) : List Event :=
  (Value.container .object d.members).events int d.nameText

def Value.isContainer : Value → Bool
  | .container _ _ => true
  | _ => false

mutual

/--
The nesting is within `MAXSTACK` and the state stack within `MAXSTATES`, when a value is begun with
`states` saved states in `stack` containers. A container saves the state of its parent, and the
comma behind a string or an integer saves one more state.
-/
def Value.Fits (states stack : Nat) : Value → Prop
  | .container _ members =>
    stack + 1 < MAXSTACK ∧ states + 1 < MAXSTATES ∧ members.Fits (states + 1) (stack + 1)
  | _ => True

def Members.Fits (states stack : Nat) : Members → Prop
  | .one _ value => value.Fits states stack
  | .more _ value rest =>
    let states' := if value.isContainer then states else states + 1
    value.Fits states stack ∧ states' < MAXSTATES ∧ rest.Fits states' stack

end

def Doc.Fits (d : Doc) : Prop := (Value.container .object d.members).Fits 1 0

mutual

/--
No container is the first of several members.
-/
def Value.Regular : Value → Prop
  | .container _ members => members.Regular true
  | _ => True

def Members.Regular (first : Bool) : Members → Prop
  | .one _ value => value.Regular
  | .more _ value rest =>
    ¬ (first = true ∧ value.isContainer = true) ∧ value.Regular ∧ rest.Regular false

end

def Doc.Regular (d : Doc) : Prop := d.members.Regular true

mutual

def Value.numerals : Value → List Numeral
  | .string _ => []
  | .integer n => [n]
  | .container _ members => members.numerals

def Members.numerals : Members → List Numeral
  | .one _ value => value.numerals
  | .more _ value rest => value.numerals ++ rest.numerals

end

/--
The numeral stands for an `int` of the program.
-/
def Numeral.IsInt (n : Numeral) : Prop := -2 ^ 31 ≤ n.value ∧ n.value < 2 ^ 31

end Json
