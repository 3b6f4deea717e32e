import IotGateway.Lib.Substring
import Mathlib.Logic.Function.Basic

/-!
This module contains the editor of the configuration files of the gateway.
-/

namespace ConfigEdit

open Substring

abbrev Text := List Char

/--
The files that the editor uses: the one that is edited, the temporary one and the one that keeps the
old text. Their names differ.
-/
inductive File where
  | filename
  | tmpfilename
  | backup
  deriving DecidableEq

abbrev Files := File → Option Text

/--
How the calls of the file system end, those of `fputs` and `rename` by their number.
-/
structure Env where
  fopenIn : Bool
  fopenOut : Bool
  fputs : Nat → Bool
  rename : Nat → Bool
  remove : Bool

/--
What the calls of `fgets` read: no line, and no more than 199 characters. There is room for so many
after the next one.
-/
def fgets : (room : Nat) → Text → List Text
  | _, [] => []
  | 0, c :: text => [c] :: fgets 198 text
  | room + 1, c :: text =>
    if c = '\n' then
      [c] :: fgets 198 text
    else
      match fgets room text with
      | [] => [[c]]
      | line :: rest => (c :: line) :: rest

/--
The part of `line` before its terminator.
-/
def cstr (line : Text) : Text := line.takeWhile (· ≠ '\x00')

def sizeofLine : Nat := 202
/--
The variables of the loop, the text that has been written so far, and the number of calls of `fputs`.
-/
structure Edit where
  ret : Bool := true
  found : Bool := false
  insection : Bool := false
  out : Text := []
  calls : Nat := 0

def isBlank (c : Char) : Bool := c = ' ' ∨ c = '\t'

def isSpace (c : Char) : Bool := isBlank c ∨ c = '\n'

def addedLine (option strval : Text) : Text :=
  "\toption ".toList ++ option ++ [' '] ++ strval ++ ['\n']

section

variable (env : Env) (section' option strval : Text)

/--
What is before the value in a line in which the option has been found.
-/
def headTo (line found : Text) : Text :=
  line.take (line.length - ((found.drop option.length).dropWhile isBlank).length)

/--
`sprintf` writes the value and the end of the line behind the option. It has no result if it writes
behind the array.
-/
def replaceValue (line found : Text) : Option Text :=
  if (headTo option line found).length + strval.length + 2 ≤ sizeofLine then
    some (headTo option line found ++ strval ++ ['\n'])
  else
    none

def fputs (line : Text) (e : Edit) : Edit :=
  { e with
    ret := env.fputs e.calls
    out := if env.fputs e.calls then e.out ++ line else e.out
    calls := e.calls + 1 }

/--
A pass of the loop.
-/
def editLine (line : Text) (e : Edit) : Option Edit :=
  match strstr "config".toList line with
  | some s =>
    -- Check occurance of section name
    some (fputs env line { e with insection := (strstr section' s).isSome })
  | none =>
    match strstr "option".toList line with
    | some s =>
      if e.insection then
        match strstr option s with
        | some s => do
          let line ← replaceValue option strval line s
          some (fputs env line { e with found := true })
        | none => some (fputs env line e)
      else
        some (fputs env line e)
    | none =>
      if line.dropWhile isSpace = [] ∧ e.insection then
        -- Empty line: when in requested section and option not found, then add it now
        some (fputs env line
          { e with
            found := true
            insection := false
            out := if e.found then e.out else e.out ++ addedLine option strval })
      else
        some (fputs env line e)

def editLines : List Text → Edit → Option Edit
  | [], e => some e
  | line :: rest, e =>
    if e.ret then do
      let e ← editLine env section' option strval (cstr line) e
      editLines rest e
    else
      some e

/--
The file has the new name afterwards.
-/
def rename (files : Files) (oldName newName : File) : Files :=
  Function.update (Function.update files newName (files oldName)) oldName none

end

end ConfigEdit
