import IotGateway.Lib.Fallible

/-!
This module contains loops of programs that may fail: which passes are reached, and when such a loop
returns or fails. It also contains what it means that a program keeps an invariant, whether it returns
or fails.
-/

namespace Fallible

variable {ε σ α β τ : Type}

/--
`body` is done until it gives `none`. After `passes` passes the loop still runs, this is `running`.
-/
def loop (running : ε) (body : β → EStateM ε σ (Option β)) : (passes : Nat) → β → EStateM ε σ Unit
  | 0, _ => throw running
  | passes + 1, b => do
    match ← body b with
    | some b => loop running body passes b
    | none => pure ()

/--
The pass with the number `i` starts with `b'` in the state `s'`.
-/
inductive Reaches (body : β → EStateM ε σ (Option β)) : (i : Nat) → (b : β) → (s : σ) → (b' : β)
    → (s' : σ) → Prop where
  | first {b : β} {s : σ} : Reaches body 0 b s b s
  | next {i : Nat} {b b₁ b' : β} {s s₁ s' : σ} (hpass : Returns (body b) s (some b₁) s₁)
    (hrest : Reaches body i b₁ s₁ b' s') : Reaches body (i + 1) b s b' s'

section Loop

variable {running e : ε} {body : β → EStateM ε σ (Option β)} {passes i : Nat} {b b' b₁ : β}
  {s s' s₁ : σ} {u : Unit}

theorem reaches_zero : Reaches body 0 b s b' s' ↔ b' = b ∧ s' = s := by
  constructor
  . rintro ⟨⟩
    exact ⟨rfl, rfl⟩
  . rintro ⟨rfl, rfl⟩
    exact .first

theorem reaches_succ
    : Reaches body (i + 1) b s b' s'
        ↔ ∃ b₁ s₁, Returns (body b) s (some b₁) s₁ ∧ Reaches body i b₁ s₁ b' s' := by
  constructor
  . intro h
    cases h with
    | next hpass hrest => exact ⟨_, _, hpass, hrest⟩
  . rintro ⟨b₁, s₁, hpass, hrest⟩
    exact .next hpass hrest

/--
The last pass comes after the others.
-/
theorem Reaches.snoc (h : Reaches body i b s b' s') (hpass : Returns (body b') s' (some b₁) s₁)
    : Reaches body (i + 1) b s b₁ s₁ := by
  induction h with
  | first => exact .next hpass .first
  | next hfirst _ ih => exact .next hfirst (ih hpass)

theorem reaches_snoc
    : Reaches body (i + 1) b s b' s'
        ↔ ∃ b₁ s₁, Reaches body i b s b₁ s₁ ∧ Returns (body b₁) s₁ (some b') s' := by
  constructor
  . intro h
    induction i generalizing b s with
    | zero =>
      obtain ⟨b₁, s₁, hpass, hrest⟩ := reaches_succ.mp h
      obtain ⟨rfl, rfl⟩ := reaches_zero.mp hrest
      exact ⟨b, s, .first, hpass⟩
    | succ i ih =>
      obtain ⟨b₁, s₁, hpass, hrest⟩ := reaches_succ.mp h
      obtain ⟨b₂, s₂, hreaches, hlast⟩ := ih hrest
      exact ⟨b₂, s₂, .next hpass hreaches, hlast⟩
  . rintro ⟨b₁, s₁, hreaches, hlast⟩
    exact hreaches.snoc hlast

theorem returns_loop_iff
    : Returns (loop running body passes b) s u s'
        ↔ ∃ i < passes, ∃ b' t, Reaches body i b s b' t ∧ Returns (body b') t none s' := by
  induction passes generalizing b s with
  | zero => simp [loop]
  | succ passes ih =>
    rw [loop, returns_bind]
    constructor
    . rintro ⟨b₁ | b₁, t, hpass, hrest⟩
      . obtain ⟨-, rfl⟩ := returns_pure.mp hrest
        exact ⟨0, Nat.succ_pos passes, b, s, .first, hpass⟩
      . obtain ⟨i, hi, b', t', hreaches, hlast⟩ := ih.mp hrest
        exact ⟨i + 1, Nat.succ_lt_succ hi, b', t', .next hpass hreaches, hlast⟩
    . rintro ⟨i, hi, b', t, hreaches, hlast⟩
      cases i with
      | zero =>
        obtain ⟨rfl, rfl⟩ := reaches_zero.mp hreaches
        exact ⟨none, s', hlast, returns_pure.mpr ⟨rfl, rfl⟩⟩
      | succ i =>
        obtain ⟨b₁, s₁, hpass, hrest⟩ := reaches_succ.mp hreaches
        exact ⟨some b₁, s₁, hpass, ih.mpr ⟨i, Nat.lt_of_succ_lt_succ hi, b', t, hrest, hlast⟩⟩

theorem fails_loop_iff
    : Fails (loop running body passes b) s e s'
        ↔ (e = running ∧ ∃ b', Reaches body passes b s b' s')
          ∨ ∃ i < passes, ∃ b' t, Reaches body i b s b' t ∧ Fails (body b') t e s' := by
  induction passes generalizing b s with
  | zero =>
    constructor
    . rintro ⟨⟩
      exact .inl ⟨rfl, b, .first⟩
    . rintro (⟨rfl, b', h⟩ | ⟨i, hi, -⟩)
      . obtain ⟨-, rfl⟩ := reaches_zero.mp h
        rfl
      . cases hi
  | succ passes ih =>
    rw [loop, fails_bind]
    constructor
    . rintro (hfails | ⟨b₁ | b₁, t, hpass, hrest⟩)
      . exact .inr ⟨0, Nat.succ_pos passes, b, s, .first, hfails⟩
      . exact absurd hrest not_fails_pure
      . rcases ih.mp hrest with ⟨rfl, b', hreaches⟩ | ⟨i, hi, b', t', hreaches, hlast⟩
        . exact .inl ⟨rfl, b', .next hpass hreaches⟩
        . exact .inr ⟨i + 1, Nat.succ_lt_succ hi, b', t', .next hpass hreaches, hlast⟩
    . rintro (⟨rfl, b', hreaches⟩ | ⟨i, hi, b', t, hreaches, hfails⟩)
      . obtain ⟨b₁, s₁, hpass, hrest⟩ := reaches_succ.mp hreaches
        exact .inr ⟨some b₁, s₁, hpass, ih.mpr (.inl ⟨rfl, b', hrest⟩)⟩
      . cases i with
        | zero =>
          obtain ⟨rfl, rfl⟩ := reaches_zero.mp hreaches
          exact .inl hfails
        | succ i =>
          obtain ⟨b₁, s₁, hpass, hrest⟩ := reaches_succ.mp hreaches
          exact .inr ⟨some b₁, s₁, hpass,
            ih.mpr (.inr ⟨i, Nat.lt_of_succ_lt_succ hi, b', t, hrest, hfails⟩)⟩

end Loop

theorem returns_or_fails (x : EStateM ε σ α) (s : σ)
    : (∃ a s', Returns x s a s') ∨ ∃ e s', Fails x s e s' := by
  cases h : x.run s with
  | ok a s' => exact .inl ⟨a, s', h⟩
  | error e s' => exact .inr ⟨e, s', h⟩

/--
The program keeps the invariant, and it only fails in one of these ways.
-/
structure Preserves (inv : σ → Prop) (err : ε → Prop) (x : EStateM ε σ α) : Prop where
  returns : ∀ {s a s'}, inv s → Returns x s a s' → inv s'
  fails : ∀ {s e s'}, inv s → Fails x s e s' → inv s' ∧ err e

section Preserves

variable {inv : σ → Prop} {err : ε → Prop} {x : EStateM ε σ α} {f : α → EStateM ε σ β}

theorem preserves_pure {a : α} : Preserves inv err (pure a : EStateM ε σ α) where
  returns hinv h := by
    rw [(returns_pure.mp h).2]
    exact hinv
  fails _ h := absurd h not_fails_pure

theorem preserves_throw {e : ε} (he : err e) : Preserves inv err (throw e : EStateM ε σ α) where
  returns _ h := absurd h not_returns_throw
  fails hinv h := by
    cases h
    exact ⟨hinv, he⟩

theorem preserves_modify {g : σ → σ} (hg : ∀ s, inv s → inv (g s))
    : Preserves inv err (modify g : EStateM ε σ Unit) where
  returns hinv h := by
    rw [returns_modify.mp h]
    exact hg _ hinv
  fails _ h := absurd h not_fails_modify

theorem Preserves.bind (hx : Preserves inv err x) (hf : ∀ a, Preserves inv err (f a))
    : Preserves inv err (x >>= f) where
  returns hinv h := by
    obtain ⟨a, t, hreturns, h⟩ := returns_bind.mp h
    exact (hf a).returns (hx.returns hinv hreturns) h
  fails hinv h := by
    obtain hfails | ⟨a, t, hreturns, hfails⟩ := fails_bind.mp h
    . exact hx.fails hinv hfails
    . exact (hf a).fails (hx.returns hinv hreturns) hfails

/--
What follows a `get` has the invariant for the state that it is given.
-/
theorem preserves_get_bind {f : σ → EStateM ε σ β} (hf : ∀ s, inv s → Preserves inv err (f s))
    : Preserves inv err (get >>= f) where
  returns hinv h := (hf _ hinv).returns hinv h
  fails hinv h := (hf _ hinv).fails hinv h

theorem preserves_set_bind {t : σ} {f : Unit → EStateM ε σ β} (ht : inv t)
    (hf : Preserves inv err (f ())) : Preserves inv err (set t >>= f) where
  returns _ h := hf.returns ht h
  fails _ h := hf.fails ht h

theorem Preserves.ite {p : Prop} [Decidable p] {y : EStateM ε σ α} (hx : p → Preserves inv err x)
    (hy : ¬p → Preserves inv err y) : Preserves inv err (if p then x else y) := by
  by_cases hp : p
  . rw [if_pos hp]
    exact hx hp
  . rw [if_neg hp]
    exact hy hp

theorem Preserves.loop {running : ε} {body : β → EStateM ε σ (Option β)} {passes : Nat} {b : β}
    (hbody : ∀ b, Preserves inv err (body b)) (hrunning : err running)
    : Preserves inv err (loop running body passes b) := by
  induction passes generalizing b with
  | zero => exact preserves_throw hrunning
  | succ passes ih =>
    refine (hbody b).bind fun next => ?_
    cases next with
    | none => exact preserves_pure
    | some b => exact ih

/--
Only a loop that still runs fails, if every pass that is reached returns and so does what follows the
last one.
-/
theorem loop_bind_runs_iff {running : ε} {body : β → EStateM ε σ (Option β)} {b : β} {s : σ}
    {y : EStateM ε σ α} (hbody : ∀ b, Preserves (fun _ => True) (· ≠ running) (body b))
    (hy : Preserves (fun _ => True) (· ≠ running) y)
    : (∀ passes e s', Fails (loop running body passes b >>= fun _ => y) s e s' → e = running)
        ↔ ∀ i b' t, Reaches body i b s b' t → ∃ next t', Returns (body b') t next t'
          ∧ (next = none → ∃ a t'', Returns y t' a t'') := by
  constructor
  . intro h i b' t hreaches
    rcases returns_or_fails (body b') t with ⟨next, t', hreturns⟩ | ⟨e, t', hfails⟩
    . refine ⟨next, t', hreturns, ?_⟩
      rintro rfl
      rcases returns_or_fails y t' with hend | ⟨e, t'', hfails⟩
      . exact hend
      . have hloop : Returns (loop running body (i + 1) b) s () t' :=
          returns_loop_iff.mpr ⟨i, Nat.lt_succ_self i, b', t, hreaches, hreturns⟩
        have hrunning := h (i + 1) e t'' (fails_bind.mpr (.inr ⟨(), t', hloop, hfails⟩))
        exact absurd hrunning (hy.fails trivial hfails).2
    . have hloop : Fails (loop running body (i + 1) b) s e t' :=
        fails_loop_iff.mpr (.inr ⟨i, Nat.lt_succ_self i, b', t, hreaches, hfails⟩)
      have hrunning := h (i + 1) e t' (fails_bind.mpr (.inl hloop))
      exact absurd hrunning ((hbody b').fails trivial hfails).2
  . intro h passes e s' hfails
    obtain hloop | ⟨_, t', hloop, hlast⟩ := fails_bind.mp hfails
    . obtain ⟨rfl, -⟩ | ⟨i, -, b', t, hreaches, hpass⟩ := fails_loop_iff.mp hloop
      . rfl
      . obtain ⟨next, t', hreturns, -⟩ := h i b' t hreaches
        exact absurd hpass hreturns.not_fails
    . obtain ⟨i, -, b', t, hreaches, hpass⟩ := returns_loop_iff.mp hloop
      obtain ⟨next, t'', hreturns, hend⟩ := h i b' t hreaches
      cases hpass.symm.trans hreturns
      obtain ⟨a, t₁, hend⟩ := hend rfl
      exact absurd hlast hend.not_fails

end Preserves

end Fallible
