import IotGateway.SerialLink.Basic

/-!
This module contains the list of callback functions for the messages that arrive.
-/

namespace SerialLink

/--
`tsSL_CallbackEntry`. `φ` are the pointers to callback functions, and `psNext` is the rest of a list.
-/
structure CallbackEntry (φ υ : Type) where
  u16Type : UInt16
  prCallback : φ
  pvUser : υ

section

variable {φ υ : Type}

/--
The new entry behind the last one, which the loop looks for.
-/
def insertAtEnd (psNewEntry : CallbackEntry φ υ)
    : List (CallbackEntry φ υ) → List (CallbackEntry φ υ)
  | [] => [psNewEntry]
  | psCurrentEntry :: psNext => psCurrentEntry :: insertAtEnd psNewEntry psNext

def eSL_AddListener (mallocOk : Bool) (u16Type : UInt16) (prCallback : φ) (pvUser : υ)
    (psListHead : List (CallbackEntry φ υ))
    : Status × List (CallbackEntry φ υ) :=
  if mallocOk then
    (.ok, insertAtEnd { u16Type, prCallback, pvUser } psListHead)
  else
    (.errorNoMem, psListHead)

variable [DecidableEq φ]

/--
At most `fuel` turns of the loop over the entries behind the first one: the entry that is taken out,
if there is one, and the list that is left.
-/
def removeBehind (prCallback : φ)
    : (fuel : Nat) → (psCurrentEntry : CallbackEntry φ υ) → (psNext : List (CallbackEntry φ υ))
      → Option (Option (CallbackEntry φ υ) × List (CallbackEntry φ υ))
  | 0, _, _ => none
  | _ + 1, psCurrentEntry, [] => some (none, [psCurrentEntry])
  | fuel + 1, psCurrentEntry, psNext :: rest =>
    if psNext.prCallback = prCallback then
      some (some psNext, psCurrentEntry :: rest)
    else
      -- psCurrentEntry stays where it is
      removeBehind prCallback fuel psCurrentEntry (psNext :: rest)

/--
What has become of a call: it has read through a null pointer, is still in its loop, or has returned.
-/
inductive Removal (φ υ : Type) where
  | fault
  | running
  | returned (eStatus : Status) (psListHead : List (CallbackEntry φ υ))

def eSL_RemoveListener (_u16Type : UInt16) (prCallback : φ) (psListHead : List (CallbackEntry φ υ))
    (fuel : Nat)
    : Removal φ υ :=
  match psListHead with
  | [] => .fault
  | head :: psNext =>
    if head.prCallback = prCallback then
      .returned .ok psNext
    else
      match removeBehind prCallback fuel head psNext with
      | none => .running
      | some (none, psListHead) => .returned .error psListHead
      | some (some _, psListHead) => .returned .ok psListHead

end

end SerialLink
