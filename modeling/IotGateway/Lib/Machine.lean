import Mathlib.Data.List.Basic
import Mathlib.Logic.Relation

/-!
This module contains the runs of a deterministic machine that reads inputs and emits outputs, the
runs of a system whose steps may be disabled, and the rules by which a fact about one step becomes a
fact about a whole run.
-/

namespace Machine

variable {σ τ ι ω : Type}

/--
The state after `inputs`.
-/
def exec (step : σ → ι → σ × List ω) (s : σ) : List ι → σ
  | [] => s
  | i :: inputs => exec step (step s i).1 inputs

/--
Everything emitted while reading `inputs`, in order.
-/
def trace (step : σ → ι → σ × List ω) (s : σ) : List ι → List ω
  | [] => []
  | i :: inputs => (step s i).2 ++ trace step (step s i).1 inputs

/--
Every step of the run meets `ok`, which sees the state before the step and the input.
-/
def Along (step : σ → ι → σ × List ω) (ok : σ → ι → Prop) (s : σ) : List ι → Prop
  | [] => True
  | i :: inputs => ok s i ∧ Along step ok (step s i).1 inputs

instance decidableAlong (step : σ → ι → σ × List ω) (ok : σ → ι → Prop)
    [∀ s i, Decidable (ok s i)] (s : σ)
    : (inputs : List ι) → Decidable (Along step ok s inputs)
  | [] => inferInstanceAs (Decidable True)
  | i :: inputs =>
    have := decidableAlong step ok (step s i).1 inputs
    inferInstanceAs (Decidable (ok s i ∧ Along step ok (step s i).1 inputs))

variable (step : σ → ι → σ × List ω)

@[simp]
theorem exec_nil (s : σ) : exec step s [] = s := rfl

@[simp]
theorem exec_cons (s : σ) (i : ι) (inputs : List ι)
    : exec step s (i :: inputs) = exec step (step s i).1 inputs := rfl

@[simp]
theorem trace_nil (s : σ) : trace step s [] = [] := rfl

@[simp]
theorem trace_cons (s : σ) (i : ι) (inputs : List ι)
    : trace step s (i :: inputs) = (step s i).2 ++ trace step (step s i).1 inputs := rfl

@[simp]
theorem exec_append (s : σ) (xs ys : List ι)
    : exec step s (xs ++ ys) = exec step (exec step s xs) ys := by
  induction xs generalizing s with
  | nil => rfl
  | cons x xs ih =>
    simp only [List.cons_append, exec_cons]
    rw [ih]

@[simp]
theorem trace_append (s : σ) (xs ys : List ι)
    : trace step s (xs ++ ys) = trace step s xs ++ trace step (exec step s xs) ys := by
  induction xs generalizing s with
  | nil => rfl
  | cons x xs ih =>
    simp only [List.cons_append, trace_cons, exec_cons, List.append_assoc]
    rw [ih]

theorem along_append (ok : σ → ι → Prop) (s : σ) (xs ys : List ι)
    : Along step ok s (xs ++ ys) ↔ Along step ok s xs ∧ Along step ok (exec step s xs) ys := by
  induction xs generalizing s with
  | nil => simp [Along]
  | cons x xs ih => simp only [List.cons_append, Along, exec_cons, ih, and_assoc]

/--
The invariant rule: what every permitted step preserves holds after every permitted run.
-/
theorem inv_exec {ok : σ → ι → Prop} {Inv : σ → Prop}
    (hstep : ∀ s i, Inv s → ok s i → Inv (step s i).1) {s : σ} {inputs : List ι}
    (hinv : Inv s) (hok : Along step ok s inputs)
    : Inv (exec step s inputs) := by
  induction inputs generalizing s with
  | nil => exact hinv
  | cons i inputs ih =>
    obtain ⟨hi, hrest⟩ := hok
    exact ih (hstep s i hinv hi) hrest

/--
The invariant rule where every step is permitted.
-/
theorem inv_exec_all {Inv : σ → Prop} (hstep : ∀ s i, Inv s → Inv (step s i).1) {s : σ}
    (inputs : List ι) (hinv : Inv s)
    : Inv (exec step s inputs) := by
  induction inputs generalizing s with
  | nil => exact hinv
  | cons i inputs ih => exact ih (hstep s i hinv)

/--
The rule for an exact condition: if a permitted step keeps the invariant and any other step leads to
a state without `P`, then exactly the permitted runs have `P` in every state.
-/
theorem along_iff_forall_exec {ok : σ → ι → Prop} (Inv P : σ → Prop)
    (hstep : ∀ s i, Inv s → ok s i → Inv (step s i).1) (hsafe : ∀ s, Inv s → P s)
    (hbreak : ∀ s i, Inv s → P (step s i).1 → ok s i) {s : σ} {inputs : List ι} (hinv : Inv s)
    : (∀ before after, inputs = before ++ after → P (exec step s before))
      ↔ Along step ok s inputs := by
  induction inputs generalizing s with
  | nil =>
    constructor
    . intro _
      trivial
    . intro _ before after heq
      obtain ⟨rfl, -⟩ := List.append_eq_nil_iff.mp heq.symm
      exact hsafe s hinv
  | cons i inputs ih =>
    constructor
    . intro h
      have hok : ok s i := hbreak s i hinv (h [i] inputs rfl)
      refine ⟨hok, (ih (hstep s i hinv hok)).mp ?_⟩
      intro before after heq
      exact h (i :: before) after (by rw [heq, List.cons_append])
    . rintro ⟨hok, hrest⟩ before after heq
      cases before with
      | nil => exact hsafe s hinv
      | cons j before =>
        obtain ⟨rfl, htail⟩ := List.cons.inj heq
        exact (ih (hstep s i hinv hok)).mpr hrest before after htail

/--
Two conditions that are the same under an invariant permit the same runs.
-/
theorem along_congr {ok ok' : σ → ι → Prop} {Inv : σ → Prop} {inputs : List ι}
    (hstep : ∀ s, ∀ i ∈ inputs, Inv s → Inv (step s i).1)
    (hiff : ∀ s, ∀ i ∈ inputs, Inv s → (ok s i ↔ ok' s i)) {s : σ} (hinv : Inv s)
    : Along step ok s inputs ↔ Along step ok' s inputs := by
  induction inputs generalizing s with
  | nil => exact Iff.rfl
  | cons i inputs ih =>
    refine and_congr (hiff s i List.mem_cons_self hinv) (ih ?_ ?_ ?_)
    . exact fun s j hj => hstep s j (List.mem_cons_of_mem i hj)
    . exact fun s j hj => hiff s j (List.mem_cons_of_mem i hj)
    . exact hstep s i List.mem_cons_self hinv

/--
What the outputs of every permitted step satisfy, all outputs of a permitted run satisfy.
-/
theorem forall_trace {ok : σ → ι → Prop} {Inv : σ → Prop} {P : ω → Prop}
    (hstep : ∀ s i, Inv s → ok s i → Inv (step s i).1)
    (hout : ∀ s i, Inv s → ok s i → ∀ o ∈ (step s i).2, P o) {s : σ} {inputs : List ι}
    (hinv : Inv s) (hok : Along step ok s inputs)
    : ∀ o ∈ trace step s inputs, P o := by
  induction inputs generalizing s with
  | nil => simp
  | cons i inputs ih =>
    obtain ⟨hi, hrest⟩ := hok
    intro o ho
    rw [trace_cons, List.mem_append] at ho
    cases ho with
    | inl h => exact hout s i hinv hi o h
    | inr h => exact ih (hstep s i hinv hi) hrest o h

/--
`s'` is reached from `s` by steps that are enabled and permitted, in any order.
-/
def Reach (step : σ → ι → Option σ) (ok : σ → ι → Prop) : σ → σ → Prop :=
  Relation.ReflTransGen (fun s s' => ∃ i, ok s i ∧ step s i = some s')

/--
The invariant rule for reachable states.
-/
theorem Reach.inv {step : σ → ι → Option σ} {ok : σ → ι → Prop} {Inv : σ → Prop}
    (hstep : ∀ s i s', Inv s → ok s i → step s i = some s' → Inv s') {s s' : σ}
    (hreach : Reach step ok s s') (hinv : Inv s)
    : Inv s' := by
  induction hreach with
  | refl => exact hinv
  | tail _ hlast ih =>
    obtain ⟨i, hok, hnext⟩ := hlast
    exact hstep _ i _ ih hok hnext

/--
If every step is permitted, any sequence of enabled steps will do.
-/
theorem reach_of_foldlM {step : σ → ι → Option σ} {ok : σ → ι → Prop} (hok : ∀ s i, ok s i)
    {inputs : List ι} {s s' : σ} (h : inputs.foldlM step s = some s')
    : Reach step ok s s' := by
  induction inputs generalizing s with
  | nil =>
    obtain rfl := Option.some.inj h
    exact Relation.ReflTransGen.refl
  | cons i inputs ih =>
    rw [List.foldlM_cons] at h
    obtain ⟨t, ht, hrest⟩ := Option.bind_eq_some_iff.mp h
    exact Relation.ReflTransGen.head ⟨i, hok s i, ht⟩ (ih hrest)

end Machine
