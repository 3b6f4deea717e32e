import IotGateway.Lib.Machine

/-!
This module contains two machines that read the same inputs, and that do the same as long as the first
one makes good steps.
-/

namespace Machine

variable {σ τ ι ω : Type}

/--
The inputs up to the first step that is not good.
-/
def agreed (step : σ → ι → σ × List ω) (good : σ → ι → Bool) (s : σ) : List ι → List ι
  | [] => []
  | i :: inputs => if good s i then i :: agreed step good (step s i).1 inputs else []

variable (step : σ → ι → σ × List ω) (step' : τ → ι → τ × List ω) (good : σ → ι → Bool)

/--
If a good step emits what the other machine emits and keeps the relation, and any other step emits
something bad, then a run emits what the other machine emits, up to the first bad output.
-/
theorem trace_lockstep (R : σ → τ → Prop) (Bad : List ω → Prop) (ok : ι → Prop)
    (hgood : ∀ s t i, R s t → ok i → good s i → (step s i).2 = (step' t i).2
      ∧ R (step s i).1 (step' t i).1)
    (hbad : ∀ s t i, R s t → ok i → ¬good s i → Bad (step s i).2)
    {s : σ} {t : τ} {inputs : List ι} (hR : R s t) (hok : ∀ i ∈ inputs, ok i)
    : ∃ rest, trace step s inputs = trace step' t (agreed step good s inputs) ++ rest
        ∧ R (exec step s (agreed step good s inputs)) (exec step' t (agreed step good s inputs))
        ∧ (agreed step good s inputs = inputs ∧ rest = []
          ∨ ∃ bad rest', rest = bad ++ rest' ∧ Bad bad) := by
  induction inputs generalizing s t with
  | nil => exact ⟨[], rfl, hR, .inl ⟨rfl, rfl⟩⟩
  | cons i inputs ih =>
    have hi := hok i List.mem_cons_self
    have hinputs : ∀ j ∈ inputs, ok j := fun j hj => hok j (List.mem_cons_of_mem i hj)
    rw [agreed]
    split
    . next hstep =>
      obtain ⟨hout, hnext⟩ := hgood s t i hR hi hstep
      obtain ⟨rest, htrace, hexec, hrest⟩ := ih hnext hinputs
      refine ⟨rest, ?_, hexec, ?_⟩
      . rw [trace_cons, trace_cons, hout, htrace, List.append_assoc]
      . apply hrest.imp_left
        intro h
        rw [h.1]
        exact ⟨rfl, h.2⟩
    . next hstep =>
      refine ⟨_, List.nil_append _, hR, .inr ?_⟩
      exact ⟨_, trace step (step s i).1 inputs, rfl, hbad s t i hR hi hstep⟩

end Machine
