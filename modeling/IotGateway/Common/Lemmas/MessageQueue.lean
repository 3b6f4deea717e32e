import IotGateway.Common.Impl.MessageQueue
import IotGateway.Json.Lemmas.Objects

/-!
This module says which messages get through a queue to the parser of another process.
-/

namespace MessageQueue

open Json

/--
The message of the object gets through the queue as it is, and the parser reads the object in it.
-/
structure Sendable (o : Object) : Prop where
  isText : o.IsText
  length_le : o.text.length ≤ MAXMESSAGESIZE - 2

theorem Sendable.spells {o : Object} (h : Sendable o)
    : Spells o.message o ∧ o.message.length ≤ MAXMESSAGESIZE - 2 := by
  have hwhole : o.text.length < MAXJSONMESSAGE := Nat.lt_of_le_of_lt h.length_le (by decide)
  refine ⟨h.isText.message_spells hwhole, ?_⟩
  rw [message_eq hwhole]
  exact h.length_le

theorem sendable_of_small {strings ints : Nat} {o : Object} (h : Small strings ints o.members)
    (hname : briefName o.name = true) (hne : o.members ≠ []) (hcount : strings + ints ≤ 8)
    (hroom : 58 * strings + 26 * ints + 20 ≤ MAXMESSAGESIZE - 2)
    : Sendable o := by
  obtain ⟨hisText, hlength⟩ := h.isText_object hname hne hcount
  exact ⟨hisText, Nat.le_trans hlength hroom⟩

end MessageQueue
