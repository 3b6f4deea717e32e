import IotGateway.Json.Impl.Parser
import IotGateway.Lib.Accesses
import IotGateway.Lib.Substring

/-!
This module contains how the CGI programs `plugs` and `control` read a form.
-/

namespace Cgi

open Accesses Substring

/--
What is before the terminator.
-/
abbrev Text := List Char

/--
The arrays. `filled` is the part of `postdata` that has been filled.
-/
inductive Arr where
  | formdata_cpy
  | postdata
  | postdata_cpy
  | mac
  | cmd
  | filled
  deriving DecidableEq

def size (filled : Nat) : Arr → Nat
  | .formdata_cpy => 200
  | .postdata => 200
  | .postdata_cpy => 200
  | .mac => 40
  | .cmd => 8
  | .filled => filled

def strpos (haystack needle : Text) : Option Nat :=
  (strstr needle haystack).map fun p => haystack.length - p.length

theorem strpos_lt {haystack needle : Text} {pos : Nat} (hneedle : needle ≠ [])
    (h : strpos haystack needle = some pos) : pos < haystack.length := by
  obtain ⟨p, hp, rfl⟩ := Option.map_eq_some_iff.mp h
  obtain ⟨hsuffix, hprefix⟩ := suffix_of_strstr hp
  have hle := hsuffix.length_le
  have hneedle' := hprefix.length_le
  have hpos := List.length_pos_iff.mpr hneedle
  omega

/--
The calls of `parseNameValue`, and where `postdata` is read and written if the text is in it.
-/
structure Parsed where
  calls : List (Text × Text)
  accesses : List (Access Arr)

/--
`start` is where the text starts in `postdata`.
-/
def parsePostdata (start : Nat) (formdata : Text) : Parsed :=
  match h : strpos formdata ['&'] with
  | some pos =>
    let first := parsePostdata start (formdata.take pos)
    let second := parsePostdata (start + pos + 1) (formdata.drop (pos + 1))
    { calls := first.calls ++ second.calls
      accesses :=
        ⟨.filled, start, pos + 1⟩ :: ⟨.postdata, start + pos, 1⟩
          :: (first.accesses ++ second.accesses) }
  | none =>
    -- One name/value pair
    match strpos formdata ['='] with
    | some pos =>
      { calls := [(formdata.take pos, formdata.drop (pos + 1))]
        accesses := [⟨.filled, start, formdata.length + 1⟩, ⟨.postdata, start + pos, 1⟩] }
    | none => { calls := [], accesses := [⟨.filled, start, formdata.length + 1⟩] }
termination_by formdata.length
decreasing_by
  . have hpos := strpos_lt (List.cons_ne_nil _ _) h
    rw [List.length_take]
    omega
  . have hpos := strpos_lt (List.cons_ne_nil _ _) h
    rw [List.length_drop]
    omega

namespace Plugs

/--
What `parseNameValue` writes into arrays.
-/
def parseNameValue (name value : Text) : List (Access Arr) :=
  if name = "command".toList then
    []
  else if name = "mac".toList then
    [⟨.mac, 0, value.length + 1⟩]
  else if name = "cmd".toList then
    [⟨.cmd, 0, value.length + 1⟩]
  else
    []

end Plugs

namespace Control

/--
All the values are numbers.
-/
def parseNameValue (_name _value : Text) : List (Access Arr) := []

end Control

/--
At most `n - 1` characters are read, and no line. There is no result if nothing is stored.
-/
def fgets (n : Int) (stdin : Text) : Option Text :=
  if n ≤ 0 then
    none
  else if n = 1 then
    some []
  else if stdin = [] then
    none
  else
    some (((lines '\n' stdin).headD []).take (n - 1).toNat)

/--
How much of `postdata` has been filled, and where the arrays have been read and written.
-/
structure Body where
  filled : Nat := 0
  accesses : List (Access Arr) := []

/--
`memory` is the text in `postdata` before. The sum in the call of `fgets` may leave the range.
-/
def readBody (parseNameValue : Text → Text → List (Access Arr)) (lenstr : Option Text)
    (stdin memory : Text) : Body :=
  match lenstr with
  | none => {}
  | some lenstr =>
    let len := Json.Atoi lenstr
    match fgets (Int.bmod (len + 1) (2 ^ 32)) stdin with
    | none =>
      let parsed := parsePostdata 0 memory
      { filled := 0
        accesses :=
          [⟨.filled, 0, memory.length + 1⟩, ⟨.postdata_cpy, 0, memory.length + 1⟩]
            ++ parsed.accesses ++ parsed.calls.flatMap fun call => parseNameValue call.1 call.2 }
    | some stored =>
      let postdata := stored.takeWhile (· ≠ '\x00')
      let parsed := parsePostdata 0 postdata
      { filled := stored.length + 1
        accesses :=
          [⟨.postdata, 0, stored.length + 1⟩, ⟨.filled, 0, postdata.length + 1⟩,
            ⟨.postdata_cpy, 0, postdata.length + 1⟩]
            ++ parsed.accesses ++ parsed.calls.flatMap fun call => parseNameValue call.1 call.2 }

namespace Plugs

/--
`formdata` is the query string.
-/
def readForm (formdata lenstr : Option Text) (stdin memory : Text) : Body :=
  let body := readBody parseNameValue lenstr stdin memory
  let query :=
    match formdata with
    | none => []
    | some formdata =>
      if formdata.length > 0 then
        ⟨.formdata_cpy, 0, formdata.length + 1⟩
          :: (parsePostdata 0 formdata).calls.flatMap fun call => parseNameValue call.1 call.2
      else
        []
  { body with
    accesses := ⟨.formdata_cpy, 0, 1⟩ :: query ++ ⟨.postdata_cpy, 0, 1⟩ :: body.accesses }

end Plugs

namespace Control

def readForm (lenstr : Option Text) (stdin memory : Text) : Body :=
  readBody parseNameValue lenstr stdin memory

end Control

end Cgi
