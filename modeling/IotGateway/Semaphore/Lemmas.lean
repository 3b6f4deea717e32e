import IotGateway.Lib.Machine
import IotGateway.Semaphore.Impl
import Mathlib.Tactic.Common

/-!
This module says which steps keep a semaphore exclusive. An automatic unlock gives the semaphore to
the next process without taking it for its own, and so does a process that sets the value of a
semaphore which another one has already used.
-/

namespace Semaphore

/--
Between a P and its V there is one process at most, not counting those that have been overrun.
-/
structure Exclusive (s : State) : Prop where
  value_le : ∀ sem, s.sem = some sem → sem.value ≤ 1
  one : ∀ p q, s.pc p = .inside false → s.pc q = .inside false → p = q

/--
The process has completed its P, and not yet its V.
-/
def Pc.Holds (pc : Pc) : Prop := (∃ overrun, pc = .inside overrun) ∨ pc = .give

/--
The semaphore can be made, it gets an id other than 0, and no value is set as an automatic unlock or
while a process is between its P and its V.
-/
def Permitted (s : State) : Event → Prop
  | .create p semId => ∀ caller, s.pc p = .create caller → s.sem = none → semId ≠ 0
  | .createFails p => ∀ caller, s.pc p ≠ .create caller
  | .setval p => ∀ caller, s.pc p = .setval caller → caller ≠ .unlock ∧ ∀ q, ¬(s.pc q).Holds
  | _ => True

/--
The process has found or made the semaphore.
-/
def Pc.Found : Pc → Prop
  | .setval _ | .take _ | .inside _ | .give => True
  | .idle | .create _ => False

/--
The semaphore is there once for all that hold it.
-/
structure Token (s : State) : Prop where
  semId_ne : ∀ sem, s.sem = some sem → sem.semId ≠ 0
  value_le : ∀ sem, s.sem = some sem → sem.value ≤ 1
  free : ∀ sem, s.sem = some sem → 0 < sem.value → ∀ p, ¬(s.pc p).Holds
  one : ∀ p q, (s.pc p).Holds → (s.pc q).Holds → p = q
  found : ∀ p, (s.pc p).Found → s.sem ≠ none
  notByV : ∀ p, s.pc p ≠ .create .semV ∧ s.pc p ≠ .setval .semV

theorem Token.exclusive {s : State} (h : Token s) : Exclusive s where
  value_le := h.value_le
  one := by
    intro p q hp hq
    exact h.one p q (.inl ⟨false, hp⟩) (.inl ⟨false, hq⟩)

theorem Token.start : Token .start where
  semId_ne := by
    rintro sem ⟨⟩
  value_le := by
    rintro sem ⟨⟩
  free := by
    rintro sem ⟨⟩
  one := by
    rintro p q (⟨overrun, hp⟩ | hp)
    . cases hp
    . cases hp
  found := by
    rintro p ⟨⟩
  notByV := by
    intro p
    constructor
    . rintro ⟨⟩
    . rintro ⟨⟩

/--
One process goes on, and the semaphore may change. If then it is free or this process holds it, no
other one may hold it.
-/
theorem Token.goto {s : State} (h : Token s) {p : Nat} (sem : Option Sem) {pc : Pc}
    (hsemId : ∀ x, sem = some x → x.semId ≠ 0) (hvalue : ∀ x, sem = some x → x.value ≤ 1)
    (hfree : ∀ x, sem = some x → 0 < x.value → ¬pc.Holds)
    (halone : pc.Holds ∨ (∃ x, sem = some x ∧ 0 < x.value) → ∀ q, q ≠ p → ¬(s.pc q).Holds)
    (hfound : pc.Found → sem ≠ none) (hkept : s.sem ≠ none → sem ≠ none)
    (hcreate : pc ≠ .create .semV) (hsetval : pc ≠ .setval .semV)
    : Token ({ s with sem }.goto p pc) where
  semId_ne := hsemId
  value_le := hvalue
  free := by
    intro x hx hpos q
    simp only [State.goto]
    by_cases hq : q = p
    . subst hq
      rw [Function.update_self]
      exact hfree x hx hpos
    . rw [Function.update_of_ne hq]
      exact halone (.inr ⟨x, hx, hpos⟩) q hq
  one := by
    intro q r hq hr
    simp only [State.goto] at hq hr
    by_cases hqp : q = p
    . by_cases hrp : r = p
      . rw [hqp, hrp]
      . rw [hqp, Function.update_self] at hq
        rw [Function.update_of_ne hrp] at hr
        exact absurd hr (halone (.inl hq) r hrp)
    . rw [Function.update_of_ne hqp] at hq
      by_cases hrp : r = p
      . rw [hrp, Function.update_self] at hr
        exact absurd hq (halone (.inl hr) q hqp)
      . rw [Function.update_of_ne hrp] at hr
        exact h.one q r hq hr
  found := by
    intro q hq
    simp only [State.goto] at hq ⊢
    by_cases hqp : q = p
    . subst hqp
      rw [Function.update_self] at hq
      exact hfound hq
    . rw [Function.update_of_ne hqp] at hq
      exact hkept (h.found q hq)
  notByV := by
    intro q
    simp only [State.goto]
    by_cases hqp : q = p
    . subst hqp
      rw [Function.update_self]
      exact ⟨hcreate, hsetval⟩
    . rw [Function.update_of_ne hqp]
      exact h.notByV q

theorem Token.move {s : State} (h : Token s) {p : Nat} {pc : Pc}
    (hholds : pc.Holds → (s.pc p).Holds) (hfound : pc.Found → s.sem ≠ none)
    (hcreate : pc ≠ .create .semV) (hsetval : pc ≠ .setval .semV)
    : Token (s.goto p pc) := by
  apply h.goto s.sem h.semId_ne h.value_le
  . intro sem hsem hpos hpc
    exact h.free sem hsem hpos p (hholds hpc)
  . rintro (hpc | ⟨sem, hsem, hpos⟩) q hq
    . intro hholdsq
      exact hq (h.one q p hholdsq (hholds hpc))
    . exact h.free sem hsem hpos q
  . exact hfound
  . exact id
  . exact hcreate
  . exact hsetval

@[simp]
theorem holds_inside (overrun : Bool) : (Pc.inside overrun).Holds := .inl ⟨overrun, rfl⟩

@[simp]
theorem holds_give : Pc.give.Holds := .inr rfl

@[simp]
theorem not_holds_create (caller : Caller) : ¬(Pc.create caller).Holds := by simp [Pc.Holds]

@[simp]
theorem not_holds_setval (caller : Caller) : ¬(Pc.setval caller).Holds := by simp [Pc.Holds]

@[simp]
theorem not_holds_take (timed : Bool) : ¬(Pc.take timed).Holds := by simp [Pc.Holds]

@[simp]
theorem not_holds_idle : ¬Pc.idle.Holds := by simp [Pc.Holds]

section

variable {s : State} (h : Token s) {p : Nat}

include h

theorem Token.callP {caller : Caller} (hcaller : caller ≠ .semV) (timed : Bool)
    : Token (s.call p (.take timed) caller) := by
  unfold State.call
  split
  . next sem hsem =>
    apply h.move
    . simp
    . simp [hsem]
    . simp
    . simp
  . apply h.move
    . simp
    . rintro ⟨⟩
    . simpa using hcaller
    . simp

theorem Token.callV (hholds : (s.pc p).Holds) (hfound : s.sem ≠ none)
    : Token (s.call p .give .semV) := by
  unfold State.call
  split
  . apply h.move
    . exact fun _ => hholds
    . exact fun _ => hfound
    . simp
    . simp
  . next hnone => exact absurd hnone hfound

/--
The value of a new semaphore is 0, so that no process goes on before its value is set.
-/
theorem Token.create {caller : Caller} (hpc : s.pc p = .create caller) {semId : Nat}
    (hsemId : s.sem = none → semId ≠ 0)
    : Token (s.next (.create p semId)) := by
  have hcaller : caller ≠ .semV := by
    rintro rfl
    exact (h.notByV p).1 hpc
  simp only [State.next, hpc]
  split
  . next sem hsem =>
    apply h.move
    . simp
    . simp [hsem]
    . simp
    . simpa using hcaller
  . next hsem =>
    -- Nobody can hold a semaphore that is not there
    have hnobody : ∀ q, ¬(s.pc q).Holds := by
      intro q hq
      apply h.found q _ hsem
      rcases hq with ⟨overrun, hq⟩ | hq
      . rw [hq]
        trivial
      . rw [hq]
        trivial
    apply h.goto
    . rintro x ⟨⟩
      exact hsemId hsem
    . rintro x ⟨⟩
      exact Nat.zero_le 1
    . rintro x ⟨⟩ hpos
      exact absurd hpos (Nat.lt_irrefl 0)
    . intro _ q _
      exact hnobody q
    . simp
    . simp
    . simp
    . simpa using hcaller

theorem Token.setval {caller : Caller} (hpc : s.pc p = .setval caller) (hunlock : caller ≠ .unlock)
    (hnobody : ∀ q, ¬(s.pc q).Holds)
    : Token (s.next (.setval p)) := by
  have hcaller : caller ≠ .semV := by
    rintro rfl
    exact (h.notByV p).2 hpc
  simp only [State.next, hpc]
  split
  . next caller' sem hcaller' hsem =>
    cases hcaller'
    have hsemId : sem.semId ≠ 0 := h.semId_ne sem hsem
    have hstartval : caller.startval = 1 := by
      cases caller with
      | semV => exact absurd rfl hcaller
      | _ => rfl
    have hresume : ∃ timed, caller.resume sem.semId = .take timed := by
      cases caller with
      | semP => exact ⟨false, if_neg hsemId⟩
      | semPautounlock => exact ⟨true, if_neg hsemId⟩
      | unlock => exact absurd rfl hunlock
      | semV => exact absurd rfl hcaller
    obtain ⟨timed, hresume⟩ := hresume
    rw [hresume, State.setValue, if_neg hunlock, hstartval]
    apply h.goto
    . rintro x ⟨⟩
      exact hsemId
    . rintro x ⟨⟩
      exact Nat.le_refl 1
    . simp
    . intro _ q _
      exact hnobody q
    . simp
    . simp
    . simp
    . simp
  . exact h

theorem Token.take {timed : Bool} (hpc : s.pc p = .take timed) : Token (s.next (.take p)) := by
  simp only [State.next, hpc]
  split
  . next semId value _ hsem =>
    have hsemId : semId ≠ 0 := h.semId_ne _ hsem
    have hone : value + 1 ≤ 1 := h.value_le _ hsem
    have hzero : value = 0 := by omega
    have hnobody := h.free _ hsem (Nat.succ_pos value)
    apply h.goto
    . rintro x ⟨⟩
      exact hsemId
    . rintro x ⟨⟩
      exact Nat.le_of_lt_succ (Nat.lt_succ_of_lt hone)
    . rintro x ⟨⟩ hpos
      exact absurd hzero (Nat.ne_of_gt hpos)
    . intro _ q _
      exact hnobody q
    . simp
    . simp
    . simp
    . simp
  . exact h

theorem Token.give (hpc : s.pc p = .give) : Token (s.next (.give p)) := by
  simp only [State.next, hpc]
  split
  . next semId value _ hsem =>
    have hsemId : semId ≠ 0 := h.semId_ne _ hsem
    have hholds : (s.pc p).Holds := by
      rw [hpc]
      exact holds_give
    have hzero : value = 0 := by
      by_contra hpos
      exact h.free _ hsem (Nat.pos_of_ne_zero hpos) p hholds
    apply h.goto
    . rintro x ⟨⟩
      exact hsemId
    . rintro x ⟨⟩
      simp [hzero]
    . simp
    . rintro _ q hq hholdsq
      exact hq (h.one q p hholdsq hholds)
    . simp
    . simp
    . simp
    . simp
  . exact h

end

theorem Token.next {s : State} (h : Token s) (e : Event) (hok : Permitted s e)
    : Token (s.next e) := by
  cases e with
  | semP p =>
    simp only [State.next]
    split
    . exact h.callP (by simp) false
    . exact h
  | semPautounlock p =>
    simp only [State.next]
    split
    . exact h.callP (by simp) true
    . exact h
  | semV p =>
    simp only [State.next]
    split
    . next overrun hpc =>
      apply h.callV
      . rw [hpc]
        exact holds_inside overrun
      . apply h.found p
        rw [hpc]
        trivial
    . exact h
  | create p semId =>
    rcases hpc : s.pc p with _ | caller | _ | _ | _ | _
    case create => exact h.create hpc (hok caller hpc)
    all_goals
      simp only [State.next, hpc]
      exact h
  | createFails p =>
    simp only [State.next]
    split
    . next caller hpc => exact absurd hpc (hok caller)
    . exact h
  | setval p =>
    rcases hpc : s.pc p with _ | _ | caller | _ | _ | _
    case setval =>
      obtain ⟨hunlock, hnobody⟩ := hok caller hpc
      exact h.setval hpc hunlock hnobody
    all_goals
      simp only [State.next, hpc]
      exact h
  | take p =>
    rcases hpc : s.pc p with _ | _ | _ | timed | _ | _
    case take => exact h.take hpc
    all_goals
      simp only [State.next, hpc]
      exact h
  | timeout p =>
    simp only [State.next]
    split
    . apply h.move
      . simp
      . rintro ⟨⟩
      . simp
      . simp
    . exact h
  | give p =>
    rcases hpc : s.pc p with _ | _ | _ | _ | _ | _
    case give => exact h.give hpc
    all_goals
      simp only [State.next, hpc]
      exact h

/--
The machine emits nothing.
-/
def step (s : State) (e : Event) : State × List Unit := (s.next e, [])

theorem token_of_permitted {events : List Event}
    (hok : Machine.Along step Permitted .start events)
    : Token (Machine.exec step .start events) := by
  exact Machine.inv_exec step (fun s e h hok => h.next e hok) Token.start hok

theorem value_after_semV {s : State} {p semId value : Nat} (hholds : (s.pc p).Holds)
    (hsem : s.sem = some { semId, value })
    : ((s.next (.semV p)).next (.give p)).sem = some { semId, value := value + 1 } := by
  rcases hholds with ⟨overrun, hpc⟩ | hpc
  . simp [State.next, State.call, State.goto, hpc, hsem]
  . simp [State.next, State.goto, hpc, hsem]

/--
After the first value that must not be set there is a V that makes the value greater than 1.
-/
theorem not_exclusive_after_setval {before : List Event}
    (hok : Machine.Along step Permitted .start before) {p : Nat}
    (hforbidden : ¬Permitted (Machine.exec step .start before) (.setval p))
    : ∃ after, ¬Exclusive (Machine.exec step .start (before ++ .setval p :: after)) := by
  have htoken := token_of_permitted hok
  generalize hs : Machine.exec step .start before = s at hforbidden htoken
  obtain ⟨caller, hpc, hbad⟩ : ∃ caller, s.pc p = .setval caller
      ∧ ¬(caller ≠ .unlock ∧ ∀ q, ¬(s.pc q).Holds) := by
    simpa [Permitted] using hforbidden
  have hstartval : caller.startval = 1 := by
    cases caller with
    | semV => exact absurd hpc (htoken.notByV p).2
    | _ => rfl
  obtain ⟨⟨semId, value⟩, hsem⟩ : ∃ sem, s.sem = some sem := by
    apply Option.ne_none_iff_exists'.mp
    apply htoken.found p
    rw [hpc]
    trivial
  have hnext : s.next (.setval p) = (s.setValue caller semId).goto p (caller.resume semId) := by
    simp only [State.next, hpc, hsem]
  -- Someone holds the semaphore, at the latest when the value is set
  obtain ⟨q, hq⟩ : ∃ q, ((s.next (.setval p)).pc q).Holds := by
    rw [hnext]
    by_cases hunlock : caller = .unlock
    . refine ⟨p, ?_⟩
      simp [hunlock, State.goto, Caller.resume]
    . have hheld : ∃ q, (s.pc q).Holds := by
        by_contra hnobody
        exact hbad ⟨hunlock, not_exists.mp hnobody⟩
      obtain ⟨q, hq⟩ := hheld
      have hqp : q ≠ p := by
        rintro rfl
        rw [hpc] at hq
        exact not_holds_setval caller hq
      refine ⟨q, ?_⟩
      simpa [State.goto, Function.update_of_ne hqp, State.setValue, hunlock] using hq
  have hvalue : (s.next (.setval p)).sem = some { semId, value := 1 } := by
    simp only [hnext, State.goto, State.setValue, hstartval]
  refine ⟨[.semV q, .give q], ?_⟩
  intro hexclusive
  rw [Machine.exec_append, hs] at hexclusive
  have htwo := hexclusive.value_le _ (value_after_semV hq hvalue)
  simp at htwo

end Semaphore
