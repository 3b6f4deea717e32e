import IotGateway.Lib.Machine

/-!
This module contains two machines in a row, of which the second one reads what the first one emits,
and a machine that takes its inputs from a mailbox.
-/

namespace Machine

section Cascade

variable {σ τ ι κ ω : Type}

def cascade (first : σ → ι → σ × List κ) (second : τ → κ → τ × List ω) (s : σ × τ) (i : ι)
    : (σ × τ) × List ω :=
  (((first s.1 i).1, exec second s.2 (first s.1 i).2), trace second s.2 (first s.1 i).2)

variable (first : σ → ι → σ × List κ) (second : τ → κ → τ × List ω)

theorem exec_cascade (s : σ) (t : τ) (inputs : List ι)
    : exec (cascade first second) (s, t) inputs
      = (exec first s inputs, exec second t (trace first s inputs)) := by
  induction inputs generalizing s t with
  | nil => rfl
  | cons i inputs ih =>
    rw [exec_cons, exec_cons, trace_cons, exec_append]
    apply ih

theorem trace_cascade (s : σ) (t : τ) (inputs : List ι)
    : trace (cascade first second) (s, t) inputs = trace second t (trace first s inputs) := by
  induction inputs generalizing s t with
  | nil => rfl
  | cons i inputs ih =>
    rw [trace_cons, trace_cons, trace_append]
    apply congrArg
    apply ih

end Cascade

section Mailbox

variable {σ τ ι ω M E : Type}

/--
A run of a machine with a mailbox: what has arrived is taken in order, and each message that is taken
is one input of `handle`, together with something else from the input of that step. Not all outputs
are outputs of `handle`.
-/
def Consumes (step : σ → ι → σ × List ω) (handle : τ → E × M → τ × List ω) (seen : ω → Bool)
    (mailbox : σ → List M) (arrives : ι → List M) (offers : ι → List E) (view : σ → τ) (s : σ)
    (inputs : List ι) : Prop :=
  ∃ taken : List (E × M),
    mailbox s ++ inputs.flatMap arrives = taken.map Prod.snd ++ mailbox (exec step s inputs)
      ∧ (taken.map Prod.fst).Sublist (inputs.flatMap offers)
      ∧ (trace step s inputs).filter seen = trace handle (view s) taken
      ∧ view (exec step s inputs) = exec handle (view s) taken

/--
If each step takes from the mailbox in order, so does a run.
-/
theorem consumes_run {step : σ → ι → σ × List ω} {handle : τ → E × M → τ × List ω}
    {seen : ω → Bool} {mailbox : σ → List M} {arrives : ι → List M} {offers : ι → List E}
    {view : σ → τ}
    (hstep : ∀ s i, Consumes step handle seen mailbox arrives offers view s [i]) (s : σ)
    (inputs : List ι)
    : Consumes step handle seen mailbox arrives offers view s inputs := by
  induction inputs generalizing s with
  | nil => exact ⟨[], List.append_nil _, List.Sublist.refl _, rfl, rfl⟩
  | cons i inputs ih =>
    obtain ⟨now, hnow, hoffers, hseen, hview⟩ := hstep s i
    obtain ⟨later, hlater, hoffers', hseen', hview'⟩ := ih (step s i).1
    simp only [List.flatMap_cons, List.flatMap_nil, List.append_nil, exec_cons, exec_nil,
      trace_cons, trace_nil] at hnow hoffers hseen hview
    refine ⟨now ++ later, ?_, ?_, ?_, ?_⟩
    . rw [List.flatMap_cons, ← List.append_assoc, hnow, List.append_assoc, hlater, List.map_append,
        List.append_assoc]
      rfl
    . rw [List.map_append, List.flatMap_cons]
      apply List.Sublist.append hoffers hoffers'
    . rw [trace_cons, List.filter_append, hseen, hseen', hview, trace_append]
    . rw [exec_cons, hview', hview, exec_append]

end Mailbox

end Machine
