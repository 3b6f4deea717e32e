import IotGateway.Common.Lemmas.Listener
import IotGateway.Dbp.Impl.Receiver

/-!
This module contains proofs about the thread that receives the sensor messages: each message that it
takes from the queue is reported with its own members only.
-/

namespace Dbp.Receiver

open FieldParser Json Machine MessageQueue

def Input.arrives : Input → List Message
  | .write sent message => (queueWrite sent message []).1
  | .read _ _ => []

def Input.offers : Input → List Conditions
  | .write _ _ => []
  | .read _ c => [c]

/--
What is reported about an object.
-/
def reports (c : Conditions) (o : Object) : List Client.Text :=
  dbp_onObjectComplete c (heard dbp_init o) o.name

section

variable {c : Conditions}

theorem run_members (p : Parser) (members : List Member)
    : exec (onEvent c) p (members.map Member.event)
        = (members.map Member.event).foldl (fun p event => listen event p) p
      ∧ trace (onEvent c) p (members.map Member.event) = [] := by
  induction members generalizing p with
  | nil => exact ⟨rfl, rfl⟩
  | cons m members ih =>
    obtain ⟨hexec, htrace⟩ := ih (listen m.event p)
    rw [List.map_cons, exec_cons, trace_cons, List.foldl_cons]
    refine ⟨hexec, ?_⟩
    have hsilent : (onEvent c p m.event).2 = [] := by
      unfold Member.event
      split
      . rfl
      . rfl
      . rfl
    rw [hsilent]
    exact htrace

theorem run_object {p : Parser} (hp : Registers dbp_init p) (o : Object)
    : Registers dbp_init (exec (onEvent c) p o.callbacks)
      ∧ trace (onEvent c) p o.callbacks = reports c o := by
  obtain ⟨hexec, htrace⟩ := run_members (c := c) (listen (.objectStart o.name.toList) p) o.members
  have hmembers := (hp.listen (.objectStart o.name.toList)).foldl (o.members.map Member.event)
  have hstart : (onEvent c p (.objectStart o.name.toList)).1
      = listen (.objectStart o.name.toList) p := rfl
  rw [Object.callbacks, List.cons_append, exec_cons, trace_cons, exec_append, trace_append, hstart,
    hexec, htrace]
  constructor
  . exact hmembers.1.listen (.objectComplete o.name.toList)
  . show dbp_onObjectComplete c _ (String.ofList o.name.toList) ++ [] = _
    rw [List.append_nil, hp.attrs_object, String.ofList_toList]
    rfl

end

section

variable {s : Thread} (c : Conditions)

end

end Dbp.Receiver
