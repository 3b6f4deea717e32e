import IotGateway.Common.Impl.FieldParser
import IotGateway.Json.Basic

/-!
This module contains the callbacks of the JSON parser that fill the fields of a daemon.
-/

namespace FieldParser

open Json

theorem nul_not_mem_takeWhile (value : List Char)
    : '\x00' ∉ (String.ofList (value.takeWhile (· ≠ '\x00'))).toList := by
  rw [String.toList_ofList]
  intro hmem
  have hne := List.all_eq_true.mp (List.all_takeWhile (p := (· ≠ '\x00')) (l := value)) _ hmem
  simp at hne

theorem length_ofList (value : List Char) : (String.ofList value).length = value.length := by
  rw [← String.length_toList, String.toList_ofList]

/--
What is before the terminator, if the storage of a field has room for it.
-/
def Value.ofChars (value : List Char) : Option Value :=
  let value := value.takeWhile (· ≠ '\x00')
  if h : value.length < MAXSTRINGVALUE + 2 then
    some
      { text := String.ofList value
        nul := nul_not_mem_takeWhile _
        room := by rw [length_ofList]; exact h }
  else
    none

/--
The call that a callback makes. The fields of the daemons are shorter than their storage, so a string
that is too long for that is not stored.
-/
def callback : Event → Option Op
  | .objectStart _ => some .reset
  | .string name value => (Value.ofChars value).map (.string (String.ofList name))
  | .integer name value => some (.int (String.ofList name) (Int32.ofInt value))
  | .objectComplete _ | .arrayStart _ | .arrayComplete _ | .error _ _ _ => none

def listen (event : Event) (p : Parser) : Parser :=
  match callback event with
  | some op => step op p
  | none => p

/--
The calls of an `…Init` function, the last one first. A field with a string has a largest length.
-/
def registerAll (intAttrs : List String) (stringAttrs : List (String × Int32)) : List Op :=
  (intAttrs.map Op.addInt ++ stringAttrs.map fun attr => Op.addString attr.1 attr.2).reverse

end FieldParser
