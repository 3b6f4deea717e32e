import IotGateway.Json.Lemmas.Objects
import IotGateway.Json.Lemmas.Recovery
import IotGateway.Lib.Cascade

/-!
This module says what the parser makes of a stream of objects with broken texts between them.
-/

namespace Json

open Machine

def Event.completes : Event → Bool
  | .objectComplete _ => true
  | _ => false

/--
A stream for a parser: the texts of objects, and texts that the parser reports an error for in their
last character, without having completed an object. It does not go on with something of its own
behind the error.
-/
inductive Stream : ParserData → List Char → List Object → Prop where
  | nil {p : ParserData} : Stream p [] []
  | object {p : ParserData} {text texts : List Char} {o : Object} {objects : List Object}
      (hfirst : Spells text o) (hrest : Stream (exec eatStep p text) texts objects)
      : Stream p (text ++ texts) (o :: objects)
  | broken {p : ParserData} {text texts : List Char} {last : Char} {objects : List Object}
      (hreports : ReportsError (exec eatStep p text) last)
      (hresumes : ¬Resumes last (exec eatStep p text))
      (hopen : ∀ e ∈ trace eatStep p (text ++ [last]), e.completes = false)
      (hrest : Stream (exec eatStep p (text ++ [last])) texts objects)
      : Stream p (text ++ [last] ++ texts) objects

theorem Stream.spells {p : ParserData} {text : List Char} {objects : List Object}
    (h : Stream p text objects)
    : ∀ o ∈ objects, ∃ text, Spells text o := by
  induction h with
  | nil => exact List.forall_mem_nil _
  | object hfirst _ ih => exact List.forall_mem_cons.mpr ⟨⟨_, hfirst⟩, ih⟩
  | broken _ _ _ _ ih => exact ih

/--
The parser is between two objects, or goes on as if it were.
-/
structure Between (p : ParserData) : Prop where
  sound : Sound p
  same : ∃ q, Same p q ∧ At .none [] [] q.events q

section

variable {p q : ParserData}

theorem between_of_cleared (hsound : Sound p) (hcleared : Cleared p) : Between p :=
  ⟨hsound, jsonReset p, hcleared.same, at_jsonReset p⟩

theorem between_jsonReset (p : ParserData) : Between (jsonReset p) :=
  between_of_cleared (sound_jsonReset p) (cleared_jsonReset p)

theorem Same.exec (h : Same p q) (text : List Char)
    : Same (exec eatStep p text) (exec eatStep q text) := by
  induction text generalizing p q with
  | nil => exact h
  | cons c text ih => exact ih (same_jsonEat h c)

theorem Between.object (hp : Between p) {text : List Char} {o : Object} (h : Spells text o)
    : trace eatStep p text = o.callbacks ∧ Between (Machine.exec eatStep p text) := by
  obtain ⟨q, hsame, hq⟩ := hp.same
  have hread := h.reads hq
  have htrace : trace eatStep q text = o.callbacks := by
    have hevents := hread.events_eq
    rw [events_exec] at hevents
    exact List.append_cancel_left hevents
  refine ⟨(hsame.trace_eq text).trans htrace, sound_exec hp.sound text, _, hsame.exec text, ?_⟩
  rw [hread.events_eq]
  exact hread

theorem Between.broken (hp : Between p) {text : List Char} {last : Char}
    (hreports : ReportsError (Machine.exec eatStep p text) last)
    (hresumes : ¬Resumes last (Machine.exec eatStep p text))
    : Between (Machine.exec eatStep p (text ++ [last])) := by
  have hsound := sound_exec hp.sound text
  rw [exec_append]
  apply between_of_cleared (sound_jsonEat hsound last)
  cases fine_jsonEat hsound hresumes with
  | inl hsilent => exact absurd hreports (not_reportsError_of_silent hsilent)
  | inr hcleared => exact hcleared

end

section

variable {σ τ ω : Type} {handle : σ → Event → σ × List ω} {reply : τ → Object → τ × List ω}
  {R : σ → τ → Prop}

theorem idle_events
    (hidle : ∀ s t e, R s t → e.completes = false → R (handle s e).1 t ∧ (handle s e).2 = [])
    {events : List Event} (hopen : ∀ e ∈ events, e.completes = false) {s : σ} {t : τ} (hs : R s t)
    : R (Machine.exec handle s events) t ∧ Machine.trace handle s events = [] := by
  induction events generalizing s with
  | nil => exact ⟨hs, rfl⟩
  | cons e events ih =>
    obtain ⟨he, hevents⟩ := List.forall_mem_cons.mp hopen
    obtain ⟨hfirst, hsilent⟩ := hidle s t e hs he
    rw [exec_cons, trace_cons, hsilent]
    exact ih hevents hfirst

/--
The rule for what reads the events of the parser: if it does with the events of one object what is
done with the object, and nothing with other events, then it does with a stream what is done with the
objects in it.
-/
theorem Stream.handle_cascade
    (hidle : ∀ s t e, R s t → e.completes = false → R (handle s e).1 t ∧ (handle s e).2 = [])
    (hobject : ∀ s t o, R s t →
      R (Machine.exec handle s o.callbacks) (reply t o).1
        ∧ Machine.trace handle s o.callbacks = (reply t o).2)
    {p : ParserData} {text : List Char} {objects : List Object} (h : Stream p text objects)
    (hp : Between p) {s : σ} {t : τ} (hs : R s t)
    : R (Machine.exec (cascade eatStep handle) (p, s) text).2 (Machine.exec reply t objects)
      ∧ Machine.trace (cascade eatStep handle) (p, s) text = Machine.trace reply t objects := by
  rw [trace_cascade, exec_cascade]
  induction h generalizing s t with
  | nil => exact ⟨hs, rfl⟩
  | @object p text texts o objects hfirst _ ih =>
    obtain ⟨hevents, hbetween⟩ := hp.object hfirst
    obtain ⟨hnext, hreply⟩ := hobject s t o hs
    obtain ⟨hlast, hrest⟩ := ih hbetween hnext
    rw [trace_append, hevents, trace_append, hreply, exec_cons, trace_cons]
    simp only [exec_append]
    exact ⟨hlast, congrArg _ hrest⟩
  | @broken p text texts last objects hreports hresumes hopen _ ih =>
    obtain ⟨hnext, hsilent⟩ := idle_events hidle hopen hs
    obtain ⟨hlast, hrest⟩ := ih (hp.broken hreports hresumes) hnext
    rw [trace_append eatStep p (text ++ [last]), trace_append handle, hsilent, exec_append handle]
    exact ⟨hlast, hrest⟩

end

end Json
