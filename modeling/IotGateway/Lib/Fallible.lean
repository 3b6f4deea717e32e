/-!
This module contains what it means for a program that may fail to return or to fail, with a rule for
each way to build such a program, and what can be said of a program whose failures come before or
after its only change of the state.
-/

namespace Fallible

variable {ε σ α β : Type}

/--
From `s` the program returns `a`, and the state is `s'` then.
-/
def Returns (x : EStateM ε σ α) (s : σ) (a : α) (s' : σ) : Prop := x.run s = .ok a s'

variable {s s' t : σ} {a a' : α} {b : β}

@[simp]
theorem returns_pure : Returns (pure a : EStateM ε σ α) s a' s' ↔ a' = a ∧ s' = s := by
  constructor
  . rintro ⟨⟩
    exact ⟨rfl, rfl⟩
  . rintro ⟨rfl, rfl⟩
    rfl

theorem returns_bind {x : EStateM ε σ α} {f : α → EStateM ε σ β}
    : Returns (x >>= f) s b s' ↔ ∃ a t, Returns x s a t ∧ Returns (f a) t b s' := by
  simp only [Returns, EStateM.run, bind, EStateM.bind]
  cases h : x s with
  | ok a t =>
    constructor
    . intro hf
      exact ⟨a, t, rfl, hf⟩
    . rintro ⟨a', t', heq, hf⟩
      cases heq
      exact hf
  | error e t =>
    constructor
    . rintro ⟨⟩
    . rintro ⟨a', t', heq, -⟩
      cases heq

theorem returns_map {x : EStateM ε σ α} {f : α → β}
    : Returns (f <$> x) s b s' ↔ ∃ a, Returns x s a s' ∧ b = f a := by
  have heq : f <$> x = x >>= fun a => pure (f a) := rfl
  rw [heq, returns_bind]
  constructor
  . rintro ⟨a, t, hx, hpure⟩
    obtain ⟨rfl, rfl⟩ := returns_pure.mp hpure
    exact ⟨a, hx, rfl⟩
  . rintro ⟨a, hx, rfl⟩
    exact ⟨a, s', hx, returns_pure.mpr ⟨rfl, rfl⟩⟩

@[simp]
theorem not_returns_throw {e : ε} : ¬Returns (throw e : EStateM ε σ α) s a s' := by
  rintro ⟨⟩

@[simp]
theorem returns_get : Returns (get : EStateM ε σ σ) s t s' ↔ t = s ∧ s' = s := by
  constructor
  . rintro ⟨⟩
    exact ⟨rfl, rfl⟩
  . rintro ⟨rfl, rfl⟩
    rfl

@[simp]
theorem returns_set {u : Unit} : Returns (set t : EStateM ε σ Unit) s u s' ↔ s' = t := by
  constructor
  . rintro ⟨⟩
    rfl
  . rintro rfl
    rfl

@[simp]
theorem returns_modify {f : σ → σ} {u : Unit}
    : Returns (modify f : EStateM ε σ Unit) s u s' ↔ s' = f s := by
  constructor
  . rintro ⟨⟩
    rfl
  . rintro rfl
    rfl

theorem returns_get_bind {f : σ → EStateM ε σ β} : Returns (get >>= f) s b s' ↔ Returns (f s) s b s' :=
  Iff.rfl

theorem returns_set_bind {f : Unit → EStateM ε σ β}
    : Returns (set t >>= f) s b s' ↔ Returns (f ()) t b s' :=
  Iff.rfl

theorem returns_ite {p : Prop} [Decidable p] {x y : EStateM ε σ α}
    : Returns (if p then x else y) s a s' ↔ (p ∧ Returns x s a s') ∨ (¬p ∧ Returns y s a s') := by
  by_cases h : p
  . simp [h]
  . simp [h]

/--
From `s` the program fails with `e`, and the state is `s'` then.
-/
def Fails (x : EStateM ε σ α) (s : σ) (e : ε) (s' : σ) : Prop := x.run s = .error e s'

theorem fails_bind {x : EStateM ε σ α} {f : α → EStateM ε σ β} {e : ε}
    : Fails (x >>= f) s e s' ↔ Fails x s e s' ∨ ∃ a t, Returns x s a t ∧ Fails (f a) t e s' := by
  simp only [Fails, Returns, EStateM.run, bind, EStateM.bind]
  cases h : x s with
  | ok a t =>
    constructor
    . intro hf
      exact Or.inr ⟨a, t, rfl, hf⟩
    . rintro (hx | ⟨a', t', heq, hf⟩)
      . cases hx
      . cases heq
        exact hf
  | error e' t =>
    constructor
    . intro hx
      cases hx
      exact Or.inl rfl
    . rintro (hx | ⟨a', t', heq, -⟩)
      . cases hx
        rfl
      . cases heq

@[simp]
theorem not_fails_pure {e : ε} : ¬Fails (pure a : EStateM ε σ α) s e s' := by
  rintro ⟨⟩

@[simp]
theorem not_fails_modify {f : σ → σ} {e : ε} : ¬Fails (modify f : EStateM ε σ Unit) s e s' := by
  rintro ⟨⟩

theorem Returns.not_fails {x : EStateM ε σ α} {e : ε} (h : Returns x s a t) : ¬Fails x s e s' := by
  intro hfails
  cases h.symm.trans hfails

theorem Fails.eq {x : EStateM ε σ α} {e e' : ε} (h : Fails x s e t) (h' : Fails x s e' s')
    : s' = t := by
  cases h.symm.trans h'
  rfl

/--
The program changes the state to `t`, and returns `a` if `p` holds and fails if not.
-/
def Checks (x : EStateM ε σ α) (s : σ) (p : Prop) (a : α) (t : σ) : Prop :=
  (p → Returns x s a t) ∧ (¬p → ∃ e, Fails x s e t)

section Checks

variable {x : EStateM ε σ α} {f : α → EStateM ε σ β} {p q : Prop}

theorem checks_pure : Checks (pure a : EStateM ε σ α) s True a s :=
  ⟨fun _ => returns_pure.mpr ⟨rfl, rfl⟩, fun h => absurd trivial h⟩

theorem checks_throw {e : ε} : Checks (throw e : EStateM ε σ α) s False a s :=
  ⟨False.elim, fun _ => ⟨e, rfl⟩⟩

theorem Checks.modify_bind {g : σ → σ} {y : EStateM ε σ β} (hy : Checks y (g s) q b t)
    : Checks (do modify g; y) s q b t := hy

theorem checks_get : Checks (get : EStateM ε σ σ) s True s s :=
  ⟨fun _ => returns_get.mpr ⟨rfl, rfl⟩, fun h => absurd trivial h⟩

theorem Checks.congr (h : Checks x s p a t) (heq : p ↔ q) : Checks x s q a t := by
  rw [propext heq] at h
  exact h

theorem Checks.bind (hx : Checks x s p a t) (hf : Checks (f a) t q b t)
    : Checks (x >>= f) s (p ∧ q) b t := by
  constructor
  . rintro ⟨hp, hq⟩
    exact returns_bind.mpr ⟨a, t, hx.1 hp, hf.1 hq⟩
  . intro hnot
    by_cases hp : p
    . obtain ⟨e, hfails⟩ := hf.2 fun hq => hnot ⟨hp, hq⟩
      exact ⟨e, fails_bind.mpr (Or.inr ⟨a, t, hx.1 hp, hfails⟩)⟩
    . obtain ⟨e, hfails⟩ := hx.2 hp
      exact ⟨e, fails_bind.mpr (Or.inl hfails)⟩

theorem Checks.bind_of_false (hx : Checks x s False a s) : Checks (x >>= f) s False b s := by
  constructor
  . rintro ⟨⟩
  . intro _
    obtain ⟨e, hfails⟩ := hx.2 not_false
    exact ⟨e, fails_bind.mpr (Or.inl hfails)⟩

theorem Checks.ite {c : Prop} [Decidable c] {x : EStateM ε σ Unit} (hx : c → Checks x s p () s)
    : Checks (if c then x else pure ()) s (c → p) () s := by
  by_cases hc : c
  . rw [if_pos hc]
    exact (hx hc).congr ⟨fun hp _ => hp, fun hp => hp hc⟩
  . rw [if_neg hc]
    exact checks_pure.congr ⟨fun _ h => absurd h hc, fun _ => trivial⟩

/--
The program checks `p` without a change, changes the state to `t`, and checks `q`.
-/
def Commits (x : EStateM ε σ α) (s : σ) (p : Prop) (a : α) (q : Prop) (t : σ) : Prop :=
  (¬p → ∃ e, Fails x s e s) ∧ (p → Checks x s q a t)

variable {r : Prop} {u : σ}

theorem Checks.commits (h : Checks x s q a t) : Commits x s True a q t :=
  ⟨fun hnot => absurd trivial hnot, fun _ => h⟩

theorem Checks.commits_of_false (h : Checks x s False a s) : Commits x s False a q t :=
  ⟨h.2, False.elim⟩

theorem Commits.congr (h : Commits x s p a r t) (heq : p ↔ q) : Commits x s q a r t := by
  rw [propext heq] at h
  exact h

theorem Checks.bind_commits (hx : Checks x s p a s) (hf : Commits (f a) s q b r t)
    : Commits (x >>= f) s (p ∧ q) b r t := by
  constructor
  . intro hnot
    by_cases hp : p
    . obtain ⟨e, hfails⟩ := hf.1 fun hq => hnot ⟨hp, hq⟩
      exact ⟨e, fails_bind.mpr (Or.inr ⟨a, s, hx.1 hp, hfails⟩)⟩
    . obtain ⟨e, hfails⟩ := hx.2 hp
      exact ⟨e, fails_bind.mpr (Or.inl hfails)⟩
  . rintro ⟨hp, hq⟩
    have hchecks := hf.2 hq
    constructor
    . intro hr
      exact returns_bind.mpr ⟨a, s, hx.1 hp, hchecks.1 hr⟩
    . intro hr
      obtain ⟨e, hfails⟩ := hchecks.2 hr
      exact ⟨e, fails_bind.mpr (Or.inr ⟨a, s, hx.1 hp, hfails⟩)⟩

/--
A failure leaves `obs` as it was.
-/
def Atomic {τ : Type} (obs : σ → τ) (x : EStateM ε σ α) (s : σ) : Prop :=
  ∀ e s', Fails x s e s' → obs s' = obs s

variable {τ : Type} {obs : σ → τ}

theorem atomic_bind_modify {g : σ → σ}
    : Atomic obs (do let _ ← x; modify g : EStateM ε σ Unit) s ↔ Atomic obs x s := by
  constructor
  . intro h e s' hfails
    exact h e s' (fails_bind.mpr (Or.inl hfails))
  . intro h e s' hfails
    obtain hfails | ⟨a, t, -, hfails⟩ := fails_bind.mp hfails
    . exact h e s' hfails
    . exact absurd hfails not_fails_modify

theorem Checks.atomic_bind_iff (hx : Checks x s p a s)
    : Atomic obs (x >>= f) s ↔ (p → Atomic obs (f a) s) := by
  constructor
  . intro h hp e s' hfails
    exact h e s' (fails_bind.mpr (Or.inr ⟨a, s, hx.1 hp, hfails⟩))
  . intro h e s' hfails
    obtain hfails | ⟨a', t, hreturns, hfails⟩ := fails_bind.mp hfails
    . have hp : ¬p := fun hp => (hx.1 hp).not_fails hfails
      obtain ⟨e', hfails'⟩ := hx.2 hp
      rw [hfails'.eq hfails]
    . have hp : p := by
        by_cases hp : p
        . exact hp
        . obtain ⟨e', hfails'⟩ := hx.2 hp
          exact absurd hfails' hreturns.not_fails
      cases (hx.1 hp).symm.trans hreturns
      exact h hp e s' hfails

theorem Checks.atomic_iff (h : Checks x s p a t) : Atomic obs x s ↔ (¬p → obs t = obs s) := by
  constructor
  . intro hatomic hp
    obtain ⟨e, hfails⟩ := h.2 hp
    exact hatomic e t hfails
  . intro hobs e s' hfails
    have hp : ¬p := fun hp => (h.1 hp).not_fails hfails
    obtain ⟨e', hfails'⟩ := h.2 hp
    rw [hfails'.eq hfails]
    exact hobs hp

theorem Commits.atomic_iff (h : Commits x s p a q t)
    : Atomic obs x s ↔ (p → ¬q → obs t = obs s) := by
  by_cases hp : p
  . rw [(h.2 hp).atomic_iff]
    exact ⟨fun hobs _ => hobs, fun hobs => hobs hp⟩
  . obtain ⟨e, hfails⟩ := h.1 hp
    constructor
    . intro _ hp'
      exact absurd hp' hp
    . intro _ e' s' hfails'
      rw [hfails.eq hfails']

/--
Two changes, one after the other.
-/
theorem Commits.atomic_bind_iff {p' q' : Prop} (hx : Commits x s p a q t)
    (hf : Commits (f a) t p' b q' u)
    : Atomic obs (x >>= f) s ↔
        (p → ¬(q ∧ p') → obs t = obs s) ∧ (p → q → p' → ¬q' → obs u = obs s) := by
  by_cases hp : p
  . by_cases hq : q
    . have hreturns := (hx.2 hp).1 hq
      by_cases hp' : p'
      . constructor
        . intro hatomic
          constructor
          . intro _ hnot
            exact absurd ⟨hq, hp'⟩ hnot
          . intro _ _ _ hq'
            obtain ⟨e, hfails⟩ := (hf.2 hp').2 hq'
            exact hatomic e u (fails_bind.mpr (Or.inr ⟨a, t, hreturns, hfails⟩))
        . rintro ⟨-, hobs⟩ e s' hfails
          obtain hfails | ⟨a', t', hreturns', hfails⟩ := fails_bind.mp hfails
          . exact absurd hfails hreturns.not_fails
          . cases hreturns.symm.trans hreturns'
            have hq' : ¬q' := fun hq' => ((hf.2 hp').1 hq').not_fails hfails
            obtain ⟨e', hfails'⟩ := (hf.2 hp').2 hq'
            rw [hfails'.eq hfails]
            exact hobs hp hq hp' hq'
      . obtain ⟨e, hfails⟩ := hf.1 hp'
        have hbind := fails_bind.mpr (Or.inr ⟨a, t, hreturns, hfails⟩)
        constructor
        . intro hatomic
          exact ⟨fun _ _ => hatomic e t hbind, fun _ _ h => absurd h hp'⟩
        . rintro ⟨hobs, -⟩ e' s' hfails'
          rw [hbind.eq hfails']
          exact hobs hp fun h => hp' h.2
    . obtain ⟨e, hfails⟩ := (hx.2 hp).2 hq
      have hbind : Fails (x >>= f) s e t := fails_bind.mpr (Or.inl hfails)
      constructor
      . intro hatomic
        exact ⟨fun _ _ => hatomic e t hbind, fun _ h => absurd h hq⟩
      . rintro ⟨hobs, -⟩ e' s' hfails'
        rw [hbind.eq hfails']
        exact hobs hp fun h => hq h.1
  . obtain ⟨e, hfails⟩ := hx.1 hp
    have hbind : Fails (x >>= f) s e s := fails_bind.mpr (Or.inl hfails)
    constructor
    . intro _
      exact ⟨fun h => absurd h hp, fun h => absurd h hp⟩
    . intro _ e' s' hfails'
      rw [hbind.eq hfails']

end Checks

end Fallible
