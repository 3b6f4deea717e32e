import Mathlib.Algebra.Ring.Int.Defs
import Mathlib.Algebra.Ring.Nat
import IotGateway.Lib.CString

/-!
This module contains the constants and the data of the JSON stream parser. The arrays `name`,
`value` and `errbuf` of `parser_data_t` lie one behind the other in one memory, so that a store past
the end of a row goes where it goes in the program.
-/

namespace Json

open CString

def MAXSTATES : Nat := 10
def MAXSTACK : Nat := 5
def MAXERRORBUFFER : Nat := 20
def MAXNAME : Nat := 30
def MAXVALUE : Nat := 160

inductive State where
  | none
  | inObject
  | toName
  | inName
  | toColumn
  | toValue
  | inString
  | inNum
  | inArray
  | outValue
  deriving DecidableEq, Repr

inductive Err where
  | none
  | discard
  | nameTooLong
  | valueTooLong
  | parseObject
  | parseName
  | parseIllName
  | parseAssignment
  | parseValue
  | parseArray
  | internal
  deriving DecidableEq, Repr

/--
`json_errors`
-/
def Err.text : Err → String
  | .none => "none"
  | .discard => "discard"
  | .nameTooLong => "name too long"
  | .valueTooLong => "value too long"
  | .parseObject => "parsing object"
  | .parseName => "parsing name"
  | .parseIllName => "illegal name char"
  | .parseAssignment => "parsing assignment"
  | .parseValue => "parsing value"
  | .parseArray => "parsing array"
  | .internal => "internal error"

/--
The callbacks with their arguments.
-/
inductive Event where
  | error (error : Err) (errtext : String) (lastchars : List Char)
  | objectStart (name : List Char)
  | objectComplete (name : List Char)
  | arrayStart (name : List Char)
  | arrayComplete (name : List Char)
  | string (name value : List Char)
  | integer (name : List Char) (value : Int)
  deriving DecidableEq

/--
The two kinds of containers.
-/
inductive Kind where
  | object
  | array
  deriving DecidableEq

/--
A store into `name[row][index]` or `value[row][index]`.
-/
inductive Store where
  | name (row index : Nat)
  | value (row index : Nat)
  deriving DecidableEq

/--
`parser_data_t`. `states` is the used part of the array of that name, the last entry first, so that
`stateIndex` is its length. `events` and `stores` only remember.
-/
structure ParserData where
  state : State
  states : List State
  allowComma : Bool
  isSlash : Bool
  stack : Nat
  mem : Nat → Char
  errbufIndex : Nat
  numchars : Nat
  events : List Event
  stores : List Store

/--
What holds of the characters of a text is decided along the text, not for all characters that exist.
-/
instance (priority := 2000) decidableForallMem (p : Char → Prop) [DecidablePred p] (text : List Char)
    : Decidable (∀ c ∈ text, p c) := List.decidableBAll p text

def NUL : Char := '\x00'

def nameAddr (row : Nat) : Nat := MAXNAME * row

def valueAddr (row : Nat) : Nat := MAXNAME * MAXSTACK + MAXVALUE * row

def errbufAddr : Nat := (MAXNAME + MAXVALUE) * MAXSTACK

def memSize : Nat := errbufAddr + MAXERRORBUFFER

/--
The string in `name[row]`.
-/
def ParserData.name (p : ParserData) (row : Nat) : List Char := cstr NUL p.mem (nameAddr row) memSize

def ParserData.value (p : ParserData) (row : Nat) : List Char :=
  cstr NUL p.mem (valueAddr row) memSize

/--
Static storage before the first call.
-/
def ParserData.init : ParserData where
  state := .none
  states := []
  allowComma := false
  isSlash := false
  stack := 0
  mem := fun _ => NUL
  errbufIndex := 0
  numchars := 0
  events := []
  stores := []

end Json
