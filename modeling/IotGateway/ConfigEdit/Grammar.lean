import IotGateway.ConfigEdit.Impl
import Mathlib.Data.List.TakeWhile

/-!
This module contains what the lines of a configuration file mean, and what it means that an option of
a section has been given a value.
-/

namespace ConfigEdit

open Substring

def firstWord (line : Text) : Text := (line.dropWhile isSpace).takeWhile fun c => !isSpace c

/--
What is behind the first word.
-/
def afterWord (line : Text) : Text := (line.dropWhile isSpace).dropWhile fun c => !isSpace c

def IsConfig (line : Text) : Prop := firstWord line = "config".toList

def Names (section' line : Text) : Prop :=
  IsConfig line ∧ firstWord (afterWord line) = section'

def IsOption (option line : Text) : Prop :=
  firstWord line = "option".toList ∧ firstWord (afterWord line) = option

def IsEmpty (line : Text) : Prop := firstWord line = []

instance decidableIsConfig (line : Text) : Decidable (IsConfig line) :=
  inferInstanceAs (Decidable (_ = _))

instance decidableNames (section' line : Text) : Decidable (Names section' line) :=
  inferInstanceAs (Decidable (_ ∧ _))

instance decidableIsOption (option line : Text) : Decidable (IsOption option line) :=
  inferInstanceAs (Decidable (_ ∧ _))

instance decidableIsEmpty (line : Text) : Decidable (IsEmpty line) :=
  inferInstanceAs (Decidable (_ = _))

/--
What is before the value of an option.
-/
def headOf (line : Text) : Text :=
  line.take (line.length - ((afterWord (afterWord line)).dropWhile isBlank).length)

/--
An option line up to its value.
-/
def IsHead (option head : Text) : Prop :=
  IsOption option head ∧ afterWord (afterWord head) ≠ []
    ∧ ∀ c ∈ afterWord (afterWord head), isBlank c = true

def IsWord (word : Text) : Prop := word ≠ [] ∧ ∀ c ∈ word, isSpace c = false

/--
A section goes from its `config` line to the first empty line. The tail goes on to the next section.
-/
structure Block where
  head : Text
  body : List Text
  tail : List Text

def Block.lines (b : Block) : List Text := b.head :: (b.body ++ b.tail)

def Block.HasOption (b : Block) (option : Text) : Prop := ∃ line ∈ b.body, IsOption option line

instance Block.decidableHasOption (b : Block) (option : Text) : Decidable (b.HasOption option) :=
  inferInstanceAs (Decidable (∃ line ∈ b.body, IsOption option line))

/--
The lines before the first section, and the sections.
-/
def parse : List Text → List Text × List Block
  | [] => ([], [])
  | line :: rest =>
    if IsConfig line then
      ([], { head := line
             body := (parse rest).1.takeWhile fun line => !decide (IsEmpty line)
             tail := (parse rest).1.dropWhile fun line => !decide (IsEmpty line) } :: (parse rest).2)
    else
      (line :: (parse rest).1, (parse rest).2)

/--
What happens to the lines of a section: each line of the option gets the value, or one is added.
-/
inductive Changed (option strval : Text) (body : List Text) : List Text → Prop where
  | replaced (hoption : ∃ line ∈ body, IsOption option line)
    (hhead : ∀ line ∈ body, IsOption option line → IsHead option (headOf line))
    : Changed option strval body
      (body.map fun line =>
        if IsOption option line then headOf line ++ strval ++ ['\n'] else line)
  | added {head : Text} {before after : List Text} (hoption : ∀ line ∈ body, ¬IsOption option line)
    (hbody : body = before ++ after) (hhead : IsHead option head)
    : Changed option strval body (before ++ (head ++ strval ++ ['\n']) :: after)

/--
The new text is the old one, but for the option in one section of this name.
-/
def Edited (section' option strval text new : Text) : Prop :=
  ∃ before b after body, (parse (lines '\n' text)).2 = before ++ b :: after
    ∧ Names section' b.head ∧ Changed option strval b.body body
    ∧ lines '\n' new = (parse (lines '\n' text)).1 ++ before.flatMap Block.lines
      ++ { b with body }.lines ++ after.flatMap Block.lines

/--
If the editor returns 1 the option has been edited, and otherwise the file is as it was.
-/
def Correct (section' option strval text : Text) (result : Option (Int × Files)) : Prop :=
  ∃ ret files, result = some (ret, files)
    ∧ (ret = 1 → ∃ new, files .filename = some new ∧ Edited section' option strval text new)
    ∧ (ret ≠ 1 → files .filename = some text)

section Parse

variable {line : Text} {lines : List Text} {b : Block}

theorem parse_lines (lines : List Text)
    : (parse lines).1 ++ (parse lines).2.flatMap Block.lines = lines := by
  induction lines with
  | nil => rfl
  | cons line rest ih =>
    unfold parse
    split
    . rw [List.nil_append, List.flatMap_cons, Block.lines, List.takeWhile_append_dropWhile,
        List.cons_append, ih]
    . rw [List.cons_append, ih]

/--
What is known of the lines of a section.
-/
structure Block.Formed (b : Block) : Prop where
  head : IsConfig b.head
  body : ∀ line ∈ b.body, ¬IsEmpty line
  tail : ∀ line rest, b.tail = line :: rest → IsEmpty line

theorem parse_formed (h : b ∈ (parse lines).2) : b.Formed := by
  induction lines with
  | nil => cases h
  | cons first rest ih =>
    unfold parse at h
    split at h
    . next hfirst =>
      cases h with
      | head =>
        constructor
        . exact hfirst
        . intro line hline
          have hnot := List.mem_takeWhile_imp hline
          simpa using hnot
        . intro line rest' htail
          have hnot := List.head?_dropWhile_not (fun line => !decide (IsEmpty line)) (parse rest).1
          dsimp only at htail
          rw [htail] at hnot
          simpa using hnot
      | tail _ h => exact ih h
    . exact ih h

end Parse

end ConfigEdit
