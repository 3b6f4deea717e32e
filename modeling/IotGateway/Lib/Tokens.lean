import IotGateway.Lib.Machine

/-!
This module contains texts made of tokens with blanks between them, and the rules for what a machine
does that reads one.
-/

namespace Machine

variable {σ ι ω : Type}

/--
The tokens in order, with blanks before each of them.
-/
inductive Spaced (blank : ι → Prop) : List (List ι) → List ι → Prop where
  | nil : Spaced blank [] []
  | cons {space token text : List ι} {tokens : List (List ι)} (hspace : ∀ i ∈ space, blank i)
      (h : Spaced blank tokens text) : Spaced blank (token :: tokens) (space ++ token ++ text)

theorem Spaced.append {blank : ι → Prop} {xs ys : List (List ι)} {left right : List ι}
    (hxs : Spaced blank xs left) (hys : Spaced blank ys right)
    : Spaced blank (xs ++ ys) (left ++ right) := by
  induction hxs with
  | nil => exact hys
  | cons hspace _ ih =>
    rw [List.append_assoc]
    exact Spaced.cons hspace ih

/--
Blanks may be left out, and characters that are in no token.
-/
theorem Spaced.filter {blank : ι → Prop} {tokens : List (List ι)} {text : List ι} {keep : ι → Bool}
    (h : Spaced blank tokens text) (hkeep : ∀ token ∈ tokens, ∀ i ∈ token, keep i = true)
    : Spaced blank tokens (text.filter keep) := by
  induction h with
  | nil => exact Spaced.nil
  | @cons space token text tokens hspace _ ih =>
    obtain ⟨htoken, hkeep⟩ := List.forall_mem_cons.mp hkeep
    rw [List.filter_append, List.filter_append, List.filter_eq_self.mpr htoken]
    refine Spaced.cons ?_ (ih hkeep)
    intro i hi
    exact hspace i (List.mem_of_mem_filter hi)

theorem spaced_append {blank : ι → Prop} {xs ys : List (List ι)} {text : List ι}
    (h : Spaced blank (xs ++ ys) text)
    : ∃ left right, text = left ++ right ∧ Spaced blank xs left ∧ Spaced blank ys right := by
  induction xs generalizing text with
  | nil => exact ⟨[], text, rfl, Spaced.nil, h⟩
  | cons x xs ih =>
    cases h with
    | cons hspace hrest =>
      next space rest =>
      obtain ⟨left, right, heq, hleft, hright⟩ := ih hrest
      refine ⟨space ++ x ++ left, right, ?_, Spaced.cons hspace hleft, hright⟩
      rw [heq]
      simp

/--
A machine in a state with `P` that reads the tokens comes into one with `Q`, whatever the blanks.
-/
def Eats (step : σ → ι → σ × List ω) (blank : ι → Prop) (P : σ → Prop) (tokens : List (List ι))
    (Q : σ → Prop) : Prop :=
  ∀ s, P s → ∀ text, Spaced blank tokens text → Q (exec step s text)

section

variable {step : σ → ι → σ × List ω} {blank : ι → Prop} {P Q R : σ → Prop}

theorem Eats.append {xs ys : List (List ι)} (hxs : Eats step blank P xs Q)
    (hys : Eats step blank Q ys R)
    : Eats step blank P (xs ++ ys) R := by
  intro s hs text htext
  obtain ⟨left, right, rfl, hleft, hright⟩ := spaced_append htext
  rw [exec_append]
  exact hys _ (hxs s hs left hleft) right hright

theorem exec_blanks (hblank : ∀ s i, P s → blank i → P (step s i).1) {s : σ} (hs : P s)
    {space : List ι} (hspace : ∀ i ∈ space, blank i)
    : P (exec step s space) := by
  induction space generalizing s with
  | nil => exact hs
  | cons i space ih =>
    apply ih (hblank s i hs (hspace i List.mem_cons_self))
    intro j hj
    exact hspace j (List.mem_cons_of_mem i hj)

/--
Blanks before a token must not disturb the precondition.
-/
theorem eats_token (hblank : ∀ s i, P s → blank i → P (step s i).1) {token : List ι}
    (htoken : ∀ s, P s → Q (exec step s token))
    : Eats step blank P [token] Q := by
  intro s hs text htext
  cases htext with
  | cons hspace hrest =>
    cases hrest
    rw [List.append_nil, exec_append]
    exact htoken _ (exec_blanks hblank hs hspace)

/--
What every input preserves, every text does.
-/
theorem eats_of_step (hstep : ∀ s i, P s → P (step s i).1) (tokens : List (List ι))
    : Eats step blank P tokens P := by
  intro s hs text htext
  clear htext
  induction text generalizing s with
  | nil => exact hs
  | cons i text ih => exact ih _ (hstep s i hs)

end

end Machine
