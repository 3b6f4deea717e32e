import Mathlib.Algebra.Ring.Int.Defs
import Mathlib.Algebra.Ring.Nat
import IotGateway.Lib.Registry
import IotGateway.Common.Parsing

/-!
This module contains the fields that the message handlers register and what the parser stores in
them.
-/

namespace FieldParser

def MAXSTRINGATTRS : Nat := 25
def MAXINTATTRS : Nat := 30
def MAXSTRINGVALUE : Nat := 40

def INT_MIN : Int32 := Attrs.INT_MIN

/--
A string that the storage of a field has room for.
-/
structure Value where
  text : String
  nul : '\x00' ∉ text.toList
  room : text.length < MAXSTRINGVALUE + 2

structure IntAttr where
  name : String
  value : Int32
  deriving DecidableEq

structure StringAttr where
  name : String
  maxlen : Int
  value : String
  deriving DecidableEq

/--
What static memory holds at first.
-/
def IntAttr.static : IntAttr := ⟨"", 0⟩
def StringAttr.static : StringAttr := ⟨"", 0, ""⟩

structure Parser where
  parsingIntAttrs : Registry IntAttr MAXINTATTRS
  parsingStringAttrs : Registry StringAttr MAXSTRINGATTRS

def Parser.init : Parser where
  parsingIntAttrs := .static .static
  parsingStringAttrs := .static .static

/--
An `int` that is compared with a `size_t`.
-/
def size_t (n : Int) : Nat := (n % 2 ^ 32).toNat

def parsingExistsIntAttr (name : String) (p : Parser) : Option Nat :=
  p.parsingIntAttrs.index fun attr => attr.name = name

def parsingExistsStringAttr (name : String) (p : Parser) : Option Nat :=
  p.parsingStringAttrs.index fun attr => attr.name = name

/--
Nothing is written to the value of a new field.
-/
def parsingAddIntAttr (name : String) (p : Parser) : Parser × Bool :=
  match parsingExistsIntAttr name p with
  | none =>
    if h : p.parsingIntAttrs.num < MAXINTATTRS then
      let new (attr : IntAttr) : IntAttr := { attr with name }
      ({ p with parsingIntAttrs := p.parsingIntAttrs.push new h }, true)
    else
      (p, false)
  | some _ => (p, false)

def parsingAddStringAttr (name : String) (maxlen : Int32) (p : Parser) : Parser × Bool :=
  match parsingExistsStringAttr name p with
  | none =>
    if h : p.parsingStringAttrs.num < MAXSTRINGATTRS then
      let new (attr : StringAttr) : StringAttr := { attr with name, maxlen := maxlen.toInt }
      ({ p with parsingStringAttrs := p.parsingStringAttrs.push new h }, true)
    else
      (p, false)
  | some num =>
    let longer (attr : StringAttr) : StringAttr :=
      if attr.maxlen < maxlen.toInt then { attr with maxlen := maxlen.toInt } else attr
    ({ p with parsingStringAttrs := p.parsingStringAttrs.modify num longer }, false)

def parsingReset (p : Parser) : Parser where
  parsingIntAttrs := p.parsingIntAttrs.mapUsed fun attr => { attr with value := INT_MIN }
  parsingStringAttrs := p.parsingStringAttrs.mapUsed fun attr => { attr with value := "" }

def parsingIntAttr (name : String) (value : Int32) (p : Parser) : Parser × Bool :=
  match p.parsingIntAttrs.index fun attr => attr.name = name with
  | some i =>
    ({ p with parsingIntAttrs := p.parsingIntAttrs.modify i fun attr => { attr with value } }, true)
  | none => (p, false)

/--
The loop goes on behind a field whose length is too small.
-/
def parsingStringAttr (name : String) (value : Value) (p : Parser) : Parser × Bool :=
  match p.parsingStringAttrs.index fun attr =>
    attr.name = name ∧ value.text.length ≤ size_t attr.maxlen with
  | some i =>
    let strcpy (attr : StringAttr) : StringAttr := { attr with value := value.text }
    ({ p with parsingStringAttrs := p.parsingStringAttrs.modify i strcpy }, true)
  | none => (p, false)

def parsingGetIntAttr (name : String) (p : Parser) : Int32 :=
  match p.parsingIntAttrs.find fun attr => attr.name = name with
  | some attr => attr.value
  | none => INT_MIN

def parsingGetStringAttr (name : String) (p : Parser) : Option String :=
  match p.parsingStringAttrs.find fun attr => attr.name = name with
  | some attr => some attr.value
  | none => none

def parsingGetStringAttr0 (name : String) (p : Parser) : Option String :=
  match p.parsingStringAttrs.find fun attr => attr.name = name with
  | some attr => if attr.value ≠ "" then some attr.value else none
  | none => none

/--
What the handlers get.
-/
def Parser.attrs (p : Parser) : Attrs where
  parsingGetIntAttr := fun name => parsingGetIntAttr name p
  parsingGetStringAttr := fun name => (parsingGetStringAttr name p).getD ""

/--
The calls of the handlers and of the callbacks of the parser.
-/
inductive Op where
  | addInt (name : String)
  | addString (name : String) (maxlen : Int32)
  | reset
  | int (name : String) (value : Int32)
  | string (name : String) (value : Value)

def step : Op → Parser → Parser
  | .addInt name, p => (parsingAddIntAttr name p).1
  | .addString name maxlen, p => (parsingAddStringAttr name maxlen p).1
  | .reset, p => parsingReset p
  | .int name value, p => (parsingIntAttr name value p).1
  | .string name value, p => (parsingStringAttr name value p).1

/--
The last call is the first in the list.
-/
def run : List Op → Parser
  | [] => .init
  | op :: before => step op (run before)

end FieldParser
