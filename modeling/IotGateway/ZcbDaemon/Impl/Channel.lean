import IotGateway.ZcbDaemon.Impl.Cmd

/-!
This module contains the loop that chooses the channel, with the arithmetic of its `int`s.
-/

namespace ZcbDaemon

namespace Channel

def INT_MAX : Int := 2147483647
def INT_MIN : Int := -2147483648
def RAND_MAX : Nat := 2147483647

/--
What does not fit into an `int` is undefined.
-/
def addInt (a b : Int) : Option Int :=
  if INT_MIN ≤ a + b ∧ a + b ≤ INT_MAX then some (a + b) else none

/--
`1 << bit` is undefined for bits that an `int` does not have.
-/
def oneShl (bit : Int) : Option (BitVec 32) :=
  if 0 ≤ bit ∧ bit < 32 then some (1#32 <<< bit.toNat) else none

/--
The bit numbers that are computed, and the channel if the behaviour is defined.
-/
structure Search where
  bits : List Int
  chan : Option Int
  deriving DecidableEq

def search (mask : Int32) (r : Int) (i : Nat) : Search :=
  if i < 32 then
    match addInt i r with
    | none => ⟨[], none⟩
    | some sum =>
      let bit := sum.tmod 32
      match oneShl bit with
      | none => ⟨[bit], none⟩
      | some one =>
        if mask.toBitVec &&& one ≠ 0 then
          ⟨[bit], some bit⟩
        else
          let rest := search mask r (i + 1)
          ⟨bit :: rest.bits, rest.chan⟩
  else
    ⟨[], some 15⟩
termination_by 32 - i

end Channel

end ZcbDaemon
