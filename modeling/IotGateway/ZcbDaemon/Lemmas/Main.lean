import IotGateway.Json.Lemmas.Objects
import IotGateway.ZcbDaemon.Impl.Main
import IotGateway.ZcbDaemon.Lemmas.Cmd

/-!
This module contains proofs about the main loop of the ZCB daemon: each object that a process has
written to the queue is handled once, in order, and with its own members only.
-/

namespace ZcbDaemon

open Json NfcDaemon Machine MessageQueue

def ToNode.isAnswer : ToNode → Bool
  | .neighbourTable _ => false
  | _ => true

/--
The messages that an input puts into the queue.
-/
def MainInput.arrives : MainInput → List Message
  | .write sent message => (queueWrite sent message []).1
  | .poll _ _ _ => []

/--
What the daemon finds when it calls `msgrcv`.
-/
def MainInput.offers : MainInput → List Conditions
  | .write _ _ => []
  | .poll _ env _ => [env]

/--
What the daemon makes of a message that it takes from the queue.
-/
def readMessage (s : ParserData × Handlers) (message : Conditions × Message)
    : (ParserData × Handlers) × List ToNode :=
  let text := received INPUTBUFFERLEN message.2
  if text = [] then (s, []) else parse s (message.1, text)

theorem isAnswer_onEvent (env : Conditions) (s : Handlers) (event : Event)
    : ∀ out ∈ (onEvent env s event).2, out.isAnswer = true := by
  have hmap {α : Type} (f : α → ToNode) (hf : ∀ x, (f x).isAnswer = true) (xs : List α)
      : ∀ out ∈ xs.map f, out.isAnswer = true := by
    intro out hout
    obtain ⟨x, -, rfl⟩ := List.mem_map.mp hout
    apply hf
  cases event with
  | objectComplete name =>
    simp only [onEvent, zcb_onObjectComplete]
    repeat' split
    all_goals first | exact hmap _ (fun _ => rfl) _ | exact List.forall_mem_nil _
  | _ => exact List.forall_mem_nil _

theorem isAnswer_parse (s : ParserData × Handlers) (message : Conditions × Message)
    : ∀ out ∈ (parse s message).2, out.isAnswer = true := by
  unfold parse
  simp only [trace_cascade]
  generalize trace eatStep (jsonReset s.1) message.2 = events
  generalize s.2 = handlers
  induction events generalizing handlers with
  | nil => exact List.forall_mem_nil _
  | cons event events ih =>
    rw [trace_cons]
    intro out hout
    rcases List.mem_append.mp hout with hfirst | hrest
    . exact isAnswer_onEvent _ _ _ out hfirst
    . exact ih _ out hrest

theorem filter_readMessage (s : ParserData × Handlers) (message : Conditions × Message)
    : (readMessage s message).2.filter ToNode.isAnswer = (readMessage s message).2 := by
  apply List.filter_eq_self.mpr
  unfold readMessage
  simp only
  split
  . apply List.forall_mem_nil
  . apply isAnswer_parse

section

variable {s : Main} {failed : Bool} (env : Conditions) (neighbours : Int)

theorem mainStep_missed (hqueue : (if failed then [] else s.queue) = [])
    : (mainStep s (.poll failed env neighbours)).1.queue = s.queue
      ∧ (mainStep s (.poll failed env neighbours)).1.reader = s.reader
      ∧ (mainStep s (.poll failed env neighbours)).2.filter ToNode.isAnswer = [] := by
  simp only [mainStep, Call.poll, hqueue, Call.waits]
  by_cases hmsec : 0 < s.call.msec - QREAD_POLL
  . simp only [hmsec, if_true, Int.le_refl, true_and, decide_true]
    rfl
  . have hlen : ¬(0 : Int) < -1 := by omega
    simp only [hmsec, hlen, if_false, and_false, decide_false, Bool.false_eq_true]
    exact ⟨trivial, trivial, rfl⟩

theorem mainStep_taken {message : Message} {rest : List Message}
    (hqueue : (if failed then [] else s.queue) = message :: rest)
    : (mainStep s (.poll failed env neighbours)).1.queue = rest
      ∧ (mainStep s (.poll failed env neighbours)).1.reader
          = (readMessage s.reader (env, message)).1
      ∧ (mainStep s (.poll failed env neighbours)).2.filter ToNode.isAnswer
          = (readMessage s.reader (env, message)).2 := by
  rw [← filter_readMessage]
  simp only [mainStep, Call.poll, hqueue, Call.waits, readMessage]
  by_cases htext : received INPUTBUFFERLEN message = []
  . simp only [htext, List.length_nil, Int.natCast_zero, Int.le_refl, true_and, if_true,
      Int.lt_irrefl, if_false]
    split
    . exact ⟨rfl, rfl, rfl⟩
    . exact ⟨rfl, rfl, rfl⟩
  . have hpos : (0 : Int) < ((received INPUTBUFFERLEN message).length : Int) :=
      Int.natCast_pos.mpr (List.length_pos_iff.mpr htext)
    simp only [htext, Int.not_le.mpr hpos, hpos, false_and, decide_false, Bool.false_eq_true,
      if_true, if_false, and_self]

end

/--
One step takes at most one message.
-/
theorem consumes_mainStep (s : Main) (input : MainInput)
    : Consumes mainStep readMessage ToNode.isAnswer Main.queue MainInput.arrives MainInput.offers
        Main.reader s [input] := by
  unfold Consumes
  simp only [List.flatMap_cons, List.flatMap_nil, List.append_nil, exec_cons, exec_nil, trace_cons,
    trace_nil]
  cases input with
  | write sent message =>
    refine ⟨[], ?_, List.Sublist.refl _, rfl, rfl⟩
    exact (queueWrite_append sent message s.queue).symm
  | poll failed env neighbours =>
    simp only [MainInput.arrives, List.append_nil]
    rcases hqueue : (if failed then [] else s.queue) with _ | ⟨message, rest⟩
    . obtain ⟨hrest, hreader, hout⟩ := mainStep_missed env neighbours hqueue
      exact ⟨[], hrest.symm, List.nil_sublist _, hout, hreader⟩
    . obtain ⟨hrest, hreader, hout⟩ := mainStep_taken env neighbours hqueue
      have hhead : s.queue = message :: rest := by
        cases failed with
        | true => cases hqueue
        | false => exact hqueue
      refine ⟨[(env, message)], ?_, List.Sublist.refl _, ?_, hreader⟩
      . rw [hhead, hrest]
        rfl
      . rw [hout, trace_cons, trace_nil, List.append_nil]

/--
A member as the callbacks get it.
-/
def memberOf (m : Member) : MessageMember :=
  match m.value with
  | .int value => .integer m.name value.toInt
  | .string value => .string m.name value.toList
  | .null => .string m.name "(null)".toList

theorem event_memberOf (m : Member) : (memberOf m).event = m.event := by
  obtain ⟨name, value⟩ := m
  cases value with
  | int value => rfl
  | string value => rfl
  | null => rfl

/--
What the daemon does with an object: the handler of its name gets the members that it knows, and
nothing else, except that `cmd` also gets what is behind the ends of the strings.
-/
def answer (s : Handlers) (message : Conditions × Object) : Handlers × List ToNode :=
  let members := message.2.members.map memberOf
  let attrs := handled members s.attrs
  let (tunnel, sent) :=
    zcb_onObjectComplete message.1 message.2.name attrs (heard members) s.tunnel
  ({ attrs, tunnel }, sent)

section

variable (env : Conditions)

theorem onEvent_member (s : Handlers) (m : MessageMember)
    : onEvent env s m.event = ({ s with attrs := m.store s.attrs }, []) := by
  cases m with
  | string name value =>
    simp only [MessageMember.event, onEvent, String.ofList_toList, MessageMember.store]
  | integer name value =>
    simp only [MessageMember.event, onEvent, String.ofList_toList, MessageMember.store]

theorem run_members (s : Handlers) (members : List MessageMember)
    : exec (onEvent env) s (members.map MessageMember.event)
        = { s with attrs := members.foldl MessageMember.store s.attrs }
      ∧ trace (onEvent env) s (members.map MessageMember.event) = [] := by
  induction members generalizing s with
  | nil => exact ⟨rfl, rfl⟩
  | cons m members ih =>
    obtain ⟨hexec, htrace⟩ := ih { s with attrs := m.store s.attrs }
    rw [List.map_cons, exec_cons, trace_cons, onEvent_member, hexec, htrace]
    exact ⟨rfl, rfl⟩

theorem attrsOf_handled (members : List MessageMember) (t : AttrTable)
    : attrsOf (handled members t) = heard members := by
  have hholds := holds_handled members t
  unfold attrsOf
  have hints : (handled members t).ints = (heard members).parsingGetIntAttr := by
    funext name
    apply hholds.ints
  have hstrings : (fun name => String.ofList ((handled members t).parsingGetStringAttr name))
      = (heard members).parsingGetStringAttr := by
    funext name
    rw [hholds.getStringAttr, String.ofList_toList]
  rw [hints, hstrings]

theorem run_object (s : Handlers) (o : Object)
    : exec (onEvent env) s o.callbacks = (answer s (env, o)).1
      ∧ trace (onEvent env) s o.callbacks = (answer s (env, o)).2 := by
  have hevents : o.members.map Member.event
      = (o.members.map memberOf).map MessageMember.event := by
    rw [List.map_map]
    apply List.map_congr_left
    intro m _
    exact (event_memberOf m).symm
  obtain ⟨hexec, htrace⟩ := run_members env { s with attrs := s.attrs.parsingReset }
    (o.members.map memberOf)
  rw [Object.callbacks, hevents, List.cons_append]
  simp only [exec_cons, exec_append, exec_nil, trace_cons, trace_append, trace_nil]
  simp only [onEvent]
  rw [hexec, htrace, String.ofList_toList]
  have hattrs := attrsOf_handled (o.members.map memberOf) s.attrs
  unfold answer
  unfold handled at hattrs ⊢
  simp only [hattrs, List.nil_append, List.append_nil, and_self]

end

/--
A message that spells an object is handled as that object, whatever has been read before.
-/
theorem parse_object (env : Conditions) (s : ParserData × Handlers) {text : Message} {o : Object}
    (h : Spells text o)
    : (parse s (env, text)).1.2 = (answer s.2 (env, o)).1
      ∧ (parse s (env, text)).2 = (answer s.2 (env, o)).2 := by
  unfold parse
  simp only [exec_cascade, trace_cascade]
  rw [h.trace_eatStep]
  apply run_object

theorem readMessage_spells (env : Conditions) (s : ParserData × Handlers) {text : Message}
    {o : Object} (h : Spells text o) (hlength : text.length ≤ MAXMESSAGESIZE - 2)
    : readMessage s (env, text) = parse s (env, text) := by
  have htext : received INPUTBUFFERLEN text = text := by
    apply List.take_of_length_le
    exact Nat.le_trans hlength (by decide)
  unfold readMessage
  simp only [htext, h.ne_nil, if_false]

def eveningEnv : Conditions := { db := NewDb.Db.init, line := fun _ => ⟨.ok, .ok, 0, 0⟩ }

end ZcbDaemon
