/-!
This module contains the attributes of a JSON command as the handlers get them from the parser, and
the values of `iotError` that they set.
-/

/--
A string that is not empty.
-/
abbrev Text : Type := { text : String // text ≠ "" }

theorem map_ne_empty {s : String} (f : Char → Char) (h : s ≠ "")
    : String.ofList (s.toList.map f) ≠ "" := by
  intro hempty
  apply h
  rw [← String.toList_inj] at hempty ⊢
  simpa using hempty

/--
Letters outside of ASCII stay.
-/
def strtoupper (str : String) : String := String.ofList (str.toList.map Char.toUpper)

def Text.upper (str : Text) : Text := ⟨strtoupper str, map_ne_empty Char.toUpper str.2⟩

/--
The values after parsing took place. A string that was not in the command is empty, an integer is
`INT_MIN`.
-/
structure Attrs where
  parsingGetIntAttr : String → Int32
  parsingGetStringAttr : String → String

namespace Attrs

def INT_MIN : Int32 := Int32.minValue

/--
No attribute has been parsed.
-/
def parsingReset : Attrs where
  parsingGetIntAttr := fun _ => INT_MIN
  parsingGetStringAttr := fun _ => ""

def parsingIntAttr (name : String) (value : Int32) (attrs : Attrs) : Attrs :=
  { attrs with
    parsingGetIntAttr := fun attr => if attr = name then value else attrs.parsingGetIntAttr attr }

def parsingStringAttr (name value : String) (attrs : Attrs) : Attrs :=
  { attrs with
    parsingGetStringAttr := fun attr =>
      if attr = name then value else attrs.parsingGetStringAttr attr }

def parsingGetStringAttr0 (attrs : Attrs) (name : String) : Option Text :=
  if h : attrs.parsingGetStringAttr name = "" then
    none
  else
    some ⟨attrs.parsingGetStringAttr name, h⟩

end Attrs

namespace IotError

def IOT_ERROR_NONE : Int := 0
def IOT_ERROR_AUTHORIZE_TIMEOUT : Int := 4
def IOT_ERROR_AUTHORIZE_RESPONSE : Int := 5
def IOT_ERROR_NO_MAC : Int := 11
def IOT_ERROR_NON_EXISTING_MAC : Int := 12
def IOT_ERROR_ALREADY_EXISTING_MAC : Int := 14
def IOT_ERROR_TUNNEL_SEND : Int := 15
def IOT_ERROR_DEVICE_HAS_NO_GET : Int := 20
def IOT_ERROR_DEVICE_HAS_NO_CONTROLS : Int := 21
def IOT_ERROR_DEVICE_MISSING : Int := 22
def IOT_ERROR_TOPO_ILLEGAL_CMD : Int := 30
def IOT_ERROR_TOPO_MISSING_NAME : Int := 31
def IOT_ERROR_TOPO_TIMEOUT : Int := 32
def IOT_ERROR_TOPO_NOT_ACCEPTED : Int := 33
def IOT_ERROR_TOPO_OVERRUN : Int := 34
def IOT_ERROR_QUEUE_CREATE : Int := 60
def IOT_ERROR_QUEUE_OPEN : Int := 61
def IOT_ERROR_QUEUE_WRITE : Int := 63
def IOT_ERROR_QUEUE_BUFSIZE : Int := 66
def IOT_ERROR_SOCKET_WRITE : Int := 72

end IotError
