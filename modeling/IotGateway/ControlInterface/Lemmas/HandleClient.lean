import IotGateway.Common.Lemmas.Listener
import IotGateway.ControlInterface.Impl.HandleClient
import IotGateway.ControlInterface.Lemmas.Commands
import IotGateway.Json.Lemmas.Stream

/-!
This module contains proofs about the child process of a client: it answers the objects that the
client sends, however the stream comes in.
-/

namespace ControlInterface

open FieldParser IotError Json Machine

section

variable (rgb2xy kelvin2xy : Int32 → Int32 × Int32) (env : Nat → Surroundings)

/--
The handler that sends is the one that the dispatcher calls.
-/
theorem dispatch_handler (s : Client) {cmd : Command} {handle : Handler → Handler × Int}
    (h : cmd.handler rgb2xy kelvin2xy = some handle)
    : (s.dispatch rgb2xy kelvin2xy cmd).1 = (s.handle cmd.env handle).1
      ∧ (s.dispatch rgb2xy kelvin2xy cmd).2.1 = (s.handle cmd.env handle).2 := by
  unfold Command.handler at h
  unfold Client.dispatch
  simp only at h ⊢
  repeat' split at h
  all_goals cases h
  all_goals
    next hname =>
    simp [hname]

/--
What is done with one object after `n` others. The fields have nothing of the others in them.
-/
def replyTo (s : Client × Nat) (o : Object) : (Client × Nat) × List Effect :=
  let cmd := { name := o.name, attrs := heard inits o, env := env s.2 }
  let (client, effects) := s.1.command rgb2xy kelvin2xy cmd
  ((client, s.2 + 1), effects)

/--
The pieces do not matter.
-/
theorem eatPiece_pieces (s : ParserData × Child) (pieces : List Piece)
    : let text := (pieces.flatMap Piece.bytes).map convertPrintable
      let step := cascade eatStep (onEvent rgb2xy kelvin2xy env)
      exec (eatPiece rgb2xy kelvin2xy env) s pieces = exec step s text
        ∧ trace (eatPiece rgb2xy kelvin2xy env) s pieces = trace step s text := by
  dsimp only
  induction pieces generalizing s with
  | nil => exact ⟨rfl, rfl⟩
  | cons piece pieces ih =>
    obtain ⟨hexec, htrace⟩ := ih (eatPiece rgb2xy kelvin2xy env s piece).1
    rw [exec_cons, trace_cons, hexec, htrace, List.flatMap_cons, List.map_append, exec_append,
      trace_append]
    exact ⟨rfl, rfl⟩

/--
The child knows the fields of all commands, has this client, and has handled so many objects.
-/
def Follows (s : Child) (t : Client × Nat) : Prop :=
  Registers inits s.fields ∧ s.client = t.1 ∧ s.handled = t.2

theorem follows_idle {s : Child} {t : Client × Nat} {event : Event} (h : Follows s t)
    (hopen : event.completes = false)
    : Follows (onEvent rgb2xy kelvin2xy env s event).1 t
      ∧ (onEvent rgb2xy kelvin2xy env s event).2 = [] := by
  obtain ⟨hfields, hclient, hhandled⟩ := h
  have hlisten := hfields.listen event
  cases event with
  | objectComplete name => cases hopen
  | _ => exact ⟨⟨hlisten, hclient, hhandled⟩, rfl⟩

theorem exec_members (s : Child) (members : List Member)
    : exec (onEvent rgb2xy kelvin2xy env) s (members.map Member.event)
      = { s with
          fields := (members.map Member.event).foldl (fun p event => listen event p) s.fields } := by
  induction members generalizing s with
  | nil => rfl
  | cons m members ih =>
    have hmember : (onEvent rgb2xy kelvin2xy env s m.event).1
        = { s with fields := listen m.event s.fields } := by
      unfold Member.event
      split
      . rfl
      . rfl
      . rfl
    rw [List.map_cons, exec_cons, hmember, ih]
    rfl

theorem member_completes (m : Member) : m.event.completes = false := by
  unfold Member.event
  split
  . rfl
  . rfl
  . rfl

theorem follows_object {s : Child} {t : Client × Nat} (h : Follows s t) (o : Object)
    : Follows (exec (onEvent rgb2xy kelvin2xy env) s o.callbacks)
        (replyTo rgb2xy kelvin2xy env t o).1
      ∧ trace (onEvent rgb2xy kelvin2xy env) s o.callbacks
          = (replyTo rgb2xy kelvin2xy env t o).2 := by
  obtain ⟨hfields, hclient, hhandled⟩ := h
  obtain ⟨client, handled⟩ := t
  simp only at hclient hhandled
  subst hclient hhandled
  have hopen : ∀ e ∈ Event.objectStart o.name.toList :: o.members.map Member.event,
      e.completes = false := by
    rw [List.forall_mem_cons]
    refine ⟨rfl, ?_⟩
    intro e he
    obtain ⟨m, -, rfl⟩ := List.mem_map.mp he
    apply member_completes
  have hfollows : Follows s (s.client, s.handled) := ⟨hfields, rfl, rfl⟩
  obtain ⟨-, hsilent⟩ := idle_events (R := Follows)
    (fun _ _ _ => follows_idle rgb2xy kelvin2xy env) hopen hfollows
  have hread : exec (onEvent rgb2xy kelvin2xy env) s
        (.objectStart o.name.toList :: o.members.map Member.event)
      = { s with
          fields := (o.members.map Member.event).foldl (fun p event => listen event p)
            (listen (.objectStart o.name.toList) s.fields) } :=
    exec_members rgb2xy kelvin2xy env
      { s with fields := listen (.objectStart o.name.toList) s.fields } o.members
  have hregisters := (hfields.listen (.objectStart o.name.toList)).foldl (o.members.map Member.event)
  have hattrs := hfields.attrs_object o
  rw [Object.callbacks, exec_append, trace_append, hsilent, hread]
  simp only [exec_cons, exec_nil, trace_cons, trace_nil, List.append_nil, List.nil_append]
  unfold onEvent replyTo
  simp only [hattrs, String.ofList_toList]
  exact ⟨⟨hregisters.1, rfl, rfl⟩, trivial⟩

theorem follows_init (client : Client) : Follows { client } (client, 0) := by
  unfold Follows
  simp only [and_true]
  apply registers_run

/--
The loop does with a stream what is done with the objects in it.
-/
theorem eatPiece_stream {p : ParserData} (client : Client) {pieces : List Piece}
    {objects : List Object}
    (h : Stream (jsonReset p) ((pieces.flatMap Piece.bytes).map convertPrintable) objects)
    : (exec (eatPiece rgb2xy kelvin2xy env) (jsonReset p, { client }) pieces).2.client
          = (exec (replyTo rgb2xy kelvin2xy env) (client, 0) objects).1
        ∧ trace (eatPiece rgb2xy kelvin2xy env) (jsonReset p, { client }) pieces
            = trace (replyTo rgb2xy kelvin2xy env) (client, 0) objects := by
  obtain ⟨hexec, htrace⟩ := eatPiece_pieces rgb2xy kelvin2xy env (jsonReset p, { client }) pieces
  obtain ⟨⟨-, hclient, -⟩, hanswers⟩ := h.handle_cascade (R := Follows)
    (fun _ _ _ => follows_idle rgb2xy kelvin2xy env)
    (fun _ _ o hs => follows_object rgb2xy kelvin2xy env hs o)
    (Json.between_jsonReset p) (follows_init client)
  rw [hexec, htrace]
  exact ⟨hclient, hanswers⟩

end

end ControlInterface
