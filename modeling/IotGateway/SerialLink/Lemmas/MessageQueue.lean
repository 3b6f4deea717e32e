import IotGateway.Lib.Machine
import IotGateway.SerialLink.Impl.MessageQueue

/-!
This module says when no message is lost between `eSL_MessageQueue` and `eSL_MessageWait`. A slot
has no mark that says it has been filled, so the reader must not find it a second time before its
caller is back, and the caller must not leave or share it while it is being filled.
-/

namespace SerialLink

open Machine

/--
The call has its hands on the slot.
-/
def CallPc.Parked (pc : CallPc) (i : SlotIndex) : Prop :=
  pc = .waiting i ∨ pc = .signalled i ∨ pc = .expired i

section

variable (args : Nat → WaitArgs) (heap : Nat → Nat → UInt8)

/--
The steps under which the slots are reliable. A message is put only into a slot whose call still
waits, the call does not time out before it is signalled, no call takes a slot in which another one
still is, and no allocation fails over a message that has not been fetched.
-/
def Listeners.Reliable (s : Listeners) : Act → Prop
  | .lookSlot mallocOk =>
    ∀ m i, s.reader = .look m i → s.takes args heap i m = true →
      if mallocOk then
        ∃ c, s.calls c = .waiting i
      else
        ∀ c, s.calls c ≠ .signalled i
  | .expire c => ∀ i, s.calls c = .waiting i → s.reader ≠ .broadcast i
  | .lookFree c _ =>
    ∀ i, s.calls c = .look i → (s.slots i).u16Type = 0 → ∀ c', ¬ (s.calls c').Parked i
  | _ => True

/--
Everything a step can do.
-/
inductive Listeners.Change (s : Listeners) : Act → Listeners → Prop
  | read (a : Act) (reader : ReaderPc) (hold : ∀ i, s.reader ≠ .broadcast i)
      (hnew : ∀ i, reader ≠ .broadcast i)
      : Change s a { s with reader }
  | take (m : Message) (i : SlotIndex) (hreader : s.reader = .look m i)
      (hlock : s.locked i = false) (htakes : s.takes args heap i m = true)
      : Change s (.lookSlot true) (s.fill i m)
  | noMem (m : Message) (i : SlotIndex) (hreader : s.reader = .look m i)
      (htakes : s.takes args heap i m = true)
      : Change s (.lookSlot false)
          { s with locked := Function.update s.locked i true, reader := .idle }
  | broadcast (i : SlotIndex) (hreader : s.reader = .broadcast i)
      : Change s .broadcast (s.signal i)
  | move (a : Act) (c : Nat) (pc : CallPc) (hold : s.calls c = .idle ∨ ∃ i, s.calls c = .look i)
      (hnew : pc = .returned .error ∨ ∃ i, pc = .look i)
      : Change s a { s with calls := Function.update s.calls c pc }
  | register (c tv_usec : Nat) (i : SlotIndex) (hcall : s.calls c = .look i)
      (hfree : (s.slots i).u16Type = 0)
      : Change s (.lookFree c tv_usec)
          { s with
            slots := Function.update s.slots i (s.request args c i)
            calls := Function.update s.calls c (.waiting i)
            registered := Function.update s.registered c s.copies.length }
  | invalid (c tv_usec : Nat) (i : SlotIndex) (slot : Slot) (hcall : s.calls c = .look i)
      (hfree : (s.slots i).u16Type = 0)
      : Change s (.lookFree c tv_usec)
          { s with
            slots := Function.update s.slots i slot
            calls := Function.update s.calls c (.returned .error) }
  | wake (c : Nat) (i : SlotIndex) (hcall : s.calls c = .signalled i)
      : Change s (.wake c)
          { s with
            slots := Function.update s.slots i { s.slots i with u16Type := 0 }
            calls := Function.update s.calls c
              (.returned (.ok (s.slots i).u16Length (s.slots i).pu8Message)) }
  | expire (c : Nat) (i : SlotIndex) (hcall : s.calls c = .waiting i)
      : Change s (.expire c) { s with calls := Function.update s.calls c (.expired i) }
  | giveUp (c : Nat) (i : SlotIndex) (hcall : s.calls c = .expired i)
      : Change s (.giveUp c)
          { s with
            slots := Function.update s.slots i { s.slots i with u16Type := 0 }
            calls := Function.update s.calls c (.returned .noMessage) }

theorem Listeners.change_of_lookSlot {s s' : Listeners} {mallocOk : Bool}
    (h : s.step args heap (.lookSlot mallocOk) = some s')
    : s.Change args heap (.lookSlot mallocOk) s' := by
  simp only [Listeners.step] at h
  split at h
  . next m i hreader =>
    have hold : ∀ i, s.reader ≠ .broadcast i := by simp [hreader]
    split at h
    . simp at h
    . next hlock =>
      split at h
      . next htakes =>
        cases mallocOk with
        | true =>
          obtain rfl := Option.some.inj h
          exact .take m i hreader (by simpa using hlock) htakes
        | false =>
          obtain rfl := Option.some.inj h
          exact .noMem m i hreader htakes
      . split at h
        . obtain rfl := Option.some.inj h
          exact .read _ _ hold (by simp)
        . obtain rfl := Option.some.inj h
          exact .read _ _ hold (by simp)
  . simp at h

theorem Listeners.change_of_lookFree {s s' : Listeners} {c tv_usec : Nat}
    (h : s.step args heap (.lookFree c tv_usec) = some s')
    : s.Change args heap (.lookFree c tv_usec) s' := by
  simp only [Listeners.step] at h
  split at h
  . next i hcall =>
    split at h
    . simp at h
    . split at h
      . next hfree =>
        split at h
        . obtain rfl := Option.some.inj h
          exact .register c tv_usec i hcall hfree
        . obtain rfl := Option.some.inj h
          exact .invalid c tv_usec i _ hcall hfree
      . split at h
        . obtain rfl := Option.some.inj h
          exact .move _ c _ (Or.inr ⟨i, hcall⟩) (Or.inr ⟨_, rfl⟩)
        . obtain rfl := Option.some.inj h
          exact .move _ c _ (Or.inr ⟨i, hcall⟩) (Or.inl rfl)
  . simp at h

theorem Listeners.change_of_step {s s' : Listeners} {a : Act} (h : s.step args heap a = some s')
    : s.Change args heap a s' := by
  cases a with
  | lookSlot mallocOk => exact change_of_lookSlot args heap h
  | lookFree c tv_usec => exact change_of_lookFree args heap h
  | queue m =>
    simp only [Listeners.step] at h
    split at h
    . next hreader =>
      obtain rfl := Option.some.inj h
      exact .read _ _ (by simp [hreader]) (by simp)
    . simp at h
  | broadcast =>
    simp only [Listeners.step] at h
    split at h
    . next i hreader =>
      obtain rfl := Option.some.inj h
      exact .broadcast i hreader
    . simp at h
  | wait c =>
    simp only [Listeners.step] at h
    split at h
    . next hcall =>
      obtain rfl := Option.some.inj h
      exact .move _ c _ (Or.inl hcall) (Or.inr ⟨_, rfl⟩)
    . simp at h
  | wake c =>
    simp only [Listeners.step] at h
    split at h
    . next i hcall =>
      split at h
      . simp at h
      . obtain rfl := Option.some.inj h
        exact .wake c i hcall
    . simp at h
  | expire c =>
    simp only [Listeners.step] at h
    split at h
    . next i hcall =>
      obtain rfl := Option.some.inj h
      exact .expire c i hcall
    . simp at h
  | giveUp c =>
    simp only [Listeners.step] at h
    split at h
    . next i hcall =>
      split at h
      . simp at h
      . obtain rfl := Option.some.inj h
        exact .giveUp c i hcall
    . simp at h

theorem Listeners.step_wait {s : Listeners} {c : Nat} (hcall : s.calls c = .idle)
    : s.step args heap (.wait c)
        = some { s with calls := Function.update s.calls c (.look firstSlot) } := by
  simp only [Listeners.step, hcall]

theorem Listeners.step_register {s : Listeners} {c tv_usec : Nat} {i : SlotIndex}
    (hcall : s.calls c = .look i) (hlock : s.locked i = false) (hfree : (s.slots i).u16Type = 0)
    (hnsec : timeoutNsec (args c).u32WaitTimeout tv_usec < 1000000000)
    : s.step args heap (.lookFree c tv_usec)
        = some { s with
            slots := Function.update s.slots i (s.request args c i)
            calls := Function.update s.calls c (.waiting i)
            registered := Function.update s.registered c s.copies.length } := by
  simp only [Listeners.step, hcall, hlock, hfree, hnsec, Bool.false_eq_true, ↓reduceIte]

theorem Listeners.step_take {s : Listeners} {m : Message} {i : SlotIndex}
    (hreader : s.reader = .look m i) (hlock : s.locked i = false)
    (htakes : s.takes args heap i m = true)
    : s.step args heap (.lookSlot true) = some (s.fill i m) := by
  simp only [Listeners.step, hreader, hlock, htakes, Bool.false_eq_true, ↓reduceIte]

theorem Listeners.step_broadcast {s : Listeners} {i : SlotIndex} (hreader : s.reader = .broadcast i)
    : s.step args heap .broadcast = some (s.signal i) := by
  simp only [Listeners.step, hreader]

theorem Listeners.step_wake {s : Listeners} {c : Nat} {i : SlotIndex}
    (hcall : s.calls c = .signalled i) (hlock : s.locked i = false)
    : s.step args heap (.wake c)
        = some { s with
            slots := Function.update s.slots i { s.slots i with u16Type := 0 }
            calls := Function.update s.calls c
              (.returned (.ok (s.slots i).u16Length (s.slots i).pu8Message)) } := by
  simp only [Listeners.step, hcall, hlock, Bool.false_eq_true, ↓reduceIte]

/--
Copy `k` is a message of length `len` that the call asked for, queued after it took its slot.
-/
def Listeners.Answers (s : Listeners) (c k : Nat) (len : UInt16) : Prop :=
  ∃ m, s.copies[k]? = some m ∧ len = m.u16Length ∧ m.u16Type = (args c).u16Type
    ∧ ((args c).u16Type = E_SL_MSG_STATUS → ∀ t, (args c).psStatus = some t → t = m.statusType)
    ∧ s.registered c ≤ k

/--
The slot says what the call that waits in it has asked for.
-/
def Requests (slot : Slot) (c : Nat) : Prop :=
  slot.u16Type = (args c).u16Type
    ∧ ((args c).u16Type = E_SL_MSG_STATUS →
        slot.pu8Message = if (args c).psStatus = none then .null else .caller c)

/--
The slot has been filled for the call, which is signalled or about to be.
-/
def Listeners.Filled (s : Listeners) (c : Nat) (i : SlotIndex) : Prop :=
  s.calls c = .signalled i ∨ (s.calls c = .waiting i ∧ s.reader = .broadcast i)

def Listeners.Returned (s : Listeners) (c k : Nat) : Prop :=
  ∃ len, s.calls c = .returned (.ok len (.copy k))

def Listeners.Holds (s : Listeners) (c k : Nat) : Prop :=
  s.Returned c k ∨ ∃ i, s.Filled c i ∧ (s.slots i).pu8Message = .copy k

structure Listeners.Inv (s : Listeners) : Prop where
  alone : ∀ c c' i, (s.calls c).Parked i → (s.calls c').Parked i → c = c'
  requests : ∀ c i, s.calls c = .waiting i → s.reader ≠ .broadcast i → Requests args (s.slots i) c
  owner : ∀ i, s.reader = .broadcast i → ∃ c, s.calls c = .waiting i
  latest : ∀ i, s.reader = .broadcast i → (s.slots i).pu8Message = .copy (s.copies.length - 1)
  filled : ∀ c i, s.Filled c i → s.locked i = false
    ∧ ∃ k, (s.slots i).pu8Message = .copy k ∧ s.Answers args c k (s.slots i).u16Length
  returned : ∀ c len p, s.calls c = .returned (.ok len p) →
    ∃ k, p = .copy k ∧ s.Answers args c k len
  registered_le : ∀ c, s.registered c ≤ s.copies.length
  once : ∀ k < s.copies.length, ∃! c, s.Holds c k

theorem CallPc.parked_waiting (i : SlotIndex) : (CallPc.waiting i).Parked i := Or.inl rfl

theorem CallPc.parked_signalled (i : SlotIndex) : (CallPc.signalled i).Parked i :=
  Or.inr (Or.inl rfl)

theorem CallPc.parked_expired (i : SlotIndex) : (CallPc.expired i).Parked i :=
  Or.inr (Or.inr rfl)

theorem Listeners.Filled.parked {s : Listeners} {c : Nat} {i : SlotIndex} (h : s.Filled c i)
    : (s.calls c).Parked i := by
  rcases h with h | ⟨h, -⟩
  . exact Or.inr (Or.inl h)
  . exact Or.inl h

variable {args}

theorem Listeners.Answers.lt {s : Listeners} {c k : Nat} {len : UInt16} (h : s.Answers args c k len)
    : k < s.copies.length := by
  obtain ⟨m, hm, -⟩ := h
  exact (List.getElem?_eq_some_iff.mp hm).1

theorem Listeners.Answers.append {s s' : Listeners} {c k : Nat} {len : UInt16} {m : Message}
    (h : s.Answers args c k len) (hcopies : s'.copies = s.copies ++ [m])
    (hreg : s'.registered c = s.registered c)
    : s'.Answers args c k len := by
  have hlt := h.lt
  obtain ⟨m', hm, hrest⟩ := h
  refine ⟨m', ?_, ?_⟩
  . rw [hcopies, List.getElem?_append_left hlt, hm]
  . rw [hreg]
    exact hrest

theorem Listeners.Answers.congr {s s' : Listeners} {c k : Nat} {len : UInt16}
    (h : s.Answers args c k len) (hcopies : s'.copies = s.copies)
    (hreg : s'.registered c = s.registered c)
    : s'.Answers args c k len := by
  unfold Listeners.Answers at h ⊢
  rwa [hcopies, hreg]

theorem Listeners.Inv.call {s : Listeners} (h : s.Inv args) (c : Nat) (pc : CallPc)
    (slots : SlotIndex → Slot) (registered : Nat → Nat)
    (hslots : ∀ c' j, c' ≠ c → (s.calls c').Parked j → slots j = s.slots j)
    (halone : ∀ c' j, c' ≠ c → pc.Parked j → ¬ (s.calls c').Parked j)
    (hold : ∀ j, s.calls c = .waiting j → s.reader ≠ .broadcast j)
    (hnew : ∀ j, pc = .waiting j → s.reader ≠ .broadcast j ∧ Requests args (slots j) c)
    (hsignalled : ∀ j, pc ≠ .signalled j)
    (hok : ∀ len p, pc = .returned (.ok len p) →
      registered c = s.registered c ∧ ∃ k, p = .copy k ∧ s.Answers args c k len)
    (honce : ∀ k, s.Holds c k ↔ ∃ len, pc = .returned (.ok len (.copy k)))
    (hregistered : ∀ c', c' ≠ c → registered c' = s.registered c')
    (hle : registered c ≤ s.copies.length)
    : Listeners.Inv args
        { s with slots, calls := Function.update s.calls c pc, registered } := by
  have hother : ∀ c', c' ≠ c → Function.update s.calls c pc c' = s.calls c' := by
    intro c' hne
    exact Function.update_of_ne hne pc s.calls
  have hself : Function.update s.calls c pc c = pc := Function.update_self c pc s.calls
  have hnone : ∀ j, ¬ Listeners.Filled
      { s with slots, calls := Function.update s.calls c pc, registered } c j := by
    rintro j (hsig | ⟨hwait, hbroad⟩)
    . exact hsignalled j (hself.symm.trans hsig)
    . exact (hnew j (hself.symm.trans hwait)).1 hbroad
  have hfilled : ∀ c' j, c' ≠ c → (Listeners.Filled
      { s with slots, calls := Function.update s.calls c pc, registered } c' j
      ↔ s.Filled c' j) := by
    intro c' j hne
    simp only [Listeners.Filled, hother c' hne]
  have hholds : ∀ c' k, (Listeners.Holds
      { s with slots, calls := Function.update s.calls c pc, registered } c' k
      ↔ s.Holds c' k) := by
    intro c' k
    by_cases hc : c' = c
    . subst hc
      rw [honce k]
      constructor
      . rintro (⟨len, hret⟩ | ⟨j, hfill, -⟩)
        . exact ⟨len, hself.symm.trans hret⟩
        . exact absurd hfill (hnone j)
      . rintro ⟨len, hret⟩
        exact Or.inl ⟨len, hself.trans hret⟩
    . unfold Listeners.Holds Listeners.Returned
      simp only [hother c' hc, hfilled c' _ hc]
      constructor
      . rintro (hret | ⟨j, hfill, hptr⟩)
        . exact Or.inl hret
        . exact Or.inr ⟨j, hfill, by rwa [← hslots c' j hc hfill.parked]⟩
      . rintro (hret | ⟨j, hfill, hptr⟩)
        . exact Or.inl hret
        . exact Or.inr ⟨j, hfill, by rwa [hslots c' j hc hfill.parked]⟩
  constructor
  . intro c₁ c₂ j h₁ h₂
    by_cases hc₁ : c₁ = c
    . by_cases hc₂ : c₂ = c
      . rw [hc₁, hc₂]
      . subst hc₁
        simp only [hself] at h₁
        simp only [hother c₂ hc₂] at h₂
        exact absurd h₂ (halone c₂ j hc₂ h₁)
    . simp only [hother c₁ hc₁] at h₁
      by_cases hc₂ : c₂ = c
      . subst hc₂
        simp only [hself] at h₂
        exact absurd h₁ (halone c₁ j hc₁ h₂)
      . simp only [hother c₂ hc₂] at h₂
        exact h.alone c₁ c₂ j h₁ h₂
  . intro c' j hwait hbroad
    by_cases hc : c' = c
    . subst hc
      exact (hnew j (hself.symm.trans hwait)).2
    . simp only [hother c' hc] at hwait
      simp only [hslots c' j hc (Or.inl hwait)]
      exact h.requests c' j hwait hbroad
  . intro j hbroad
    obtain ⟨c', hwait⟩ := h.owner j hbroad
    have hc : c' ≠ c := by
      rintro rfl
      exact hold j hwait hbroad
    exact ⟨c', (hother c' hc).trans hwait⟩
  . intro j hbroad
    obtain ⟨c', hwait⟩ := h.owner j hbroad
    have hc : c' ≠ c := by
      rintro rfl
      exact hold j hwait hbroad
    rw [← h.latest j hbroad]
    simp only [hslots c' j hc (Or.inl hwait)]
  . intro c' j hfill
    have hc : c' ≠ c := by
      rintro rfl
      exact hnone j hfill
    have hfill' := (hfilled c' j hc).mp hfill
    obtain ⟨hlock, k, hptr, hans⟩ := h.filled c' j hfill'
    refine ⟨hlock, k, ?_, ?_⟩
    . simp only [hslots c' j hc hfill'.parked, hptr]
    . simp only [hslots c' j hc hfill'.parked]
      exact hans.congr rfl (hregistered c' hc)
  . intro c' len p hret
    by_cases hc : c' = c
    . subst hc
      obtain ⟨hreg, k, hp, hans⟩ := hok len p (hself.symm.trans hret)
      exact ⟨k, hp, hans.congr rfl hreg⟩
    . obtain ⟨k, hp, hans⟩ := h.returned c' len p ((hother c' hc).symm.trans hret)
      exact ⟨k, hp, hans.congr rfl (hregistered c' hc)⟩
  . intro c'
    by_cases hc : c' = c
    . subst hc
      exact hle
    . have := h.registered_le c'
      simpa only [hregistered c' hc]
  . intro k hk
    simp only [hholds]
    exact h.once k hk

variable {heap}

theorem Listeners.takes_requests {s : Listeners} {i : SlotIndex} {c : Nat} {m : Message}
    (hreq : Requests args (s.slots i) c) (htakes : s.takes args heap i m = true)
    : m.u16Type = (args c).u16Type
        ∧ ((args c).u16Type = E_SL_MSG_STATUS →
            ∀ t, (args c).psStatus = some t → t = m.statusType) := by
  obtain ⟨htype, hptr⟩ := hreq
  unfold Listeners.takes at htakes
  simp only [ne_eq, decide_not, Bool.and_eq_true, decide_eq_true_eq, Bool.or_eq_true,
    Bool.not_eq_eq_eq_not, Bool.not_true, decide_eq_false_iff_not] at htakes
  obtain ⟨hm, hstatus⟩ := htakes
  refine ⟨hm.symm.trans htype, ?_⟩
  intro h t ht
  have hp := hptr h
  rw [ht] at hp
  cases hstatus with
  | inl hne => exact absurd (hm.symm.trans (htype.trans h)) hne
  | inr hmatch =>
    simp only [hp, reduceCtorEq, ↓reduceIte, Listeners.waitStatus, ht, decide_eq_true_eq] at hmatch
    exact hmatch

theorem Listeners.Inv.read {s : Listeners} (h : s.Inv args) (reader : ReaderPc)
    (hold : ∀ i, s.reader ≠ .broadcast i) (hnew : ∀ i, reader ≠ .broadcast i)
    : Listeners.Inv args { s with reader } := by
  have hfilled : ∀ c i, Listeners.Filled { s with reader } c i ↔ s.Filled c i := by
    intro c i
    simp only [Listeners.Filled, hold i, hnew i]
  constructor
  . exact h.alone
  . intro c i hwait _
    exact h.requests c i hwait (hold i)
  . intro i hbroad
    exact absurd hbroad (hnew i)
  . intro i hbroad
    exact absurd hbroad (hnew i)
  . intro c i hfill
    exact h.filled c i ((hfilled c i).mp hfill)
  . exact h.returned
  . exact h.registered_le
  . intro k hk
    simp only [Listeners.Holds, hfilled]
    exact h.once k hk

section

variable {s : Listeners} {m : Message} {i : SlotIndex} {c : Nat}

/--
While a call waits in a slot nobody else has been signalled there.
-/
theorem Listeners.Inv.signalled_ne (h : s.Inv args) (hwait : s.calls c = .waiting i) {c' : Nat}
    {j : SlotIndex} (hsig : s.calls c' = .signalled j)
    : j ≠ i := by
  rintro rfl
  have hc := h.alone c' c j (hsig ▸ CallPc.parked_signalled j) (hwait ▸ CallPc.parked_waiting j)
  rw [hc, hwait] at hsig
  cases hsig

theorem Listeners.filled_fill (h : s.Inv args) (hreader : s.reader = .look m i)
    (hwait : s.calls c = .waiting i) (c' : Nat) (j : SlotIndex)
    : (s.fill i m).Filled c' j ↔ (s.Filled c' j ∧ j ≠ i) ∨ (c' = c ∧ j = i) := by
  constructor
  . rintro (hsig | ⟨hwait', hbroad⟩)
    . exact Or.inl ⟨Or.inl hsig, h.signalled_ne hwait hsig⟩
    . cases hbroad
      exact Or.inr ⟨h.alone c' c i (hwait' ▸ CallPc.parked_waiting i)
        (hwait ▸ CallPc.parked_waiting i), rfl⟩
  . rintro (⟨hsig | ⟨-, hbroad⟩, -⟩ | ⟨rfl, rfl⟩)
    . exact Or.inl hsig
    . rw [hreader] at hbroad
      cases hbroad
    . exact Or.inr ⟨hwait, rfl⟩

theorem Listeners.holds_fill (h : s.Inv args) (hreader : s.reader = .look m i)
    (hwait : s.calls c = .waiting i) (c' k : Nat)
    : (s.fill i m).Holds c' k ↔ s.Holds c' k ∨ (c' = c ∧ k = s.copies.length) := by
  unfold Listeners.Holds
  simp only [filled_fill h hreader hwait]
  constructor
  . rintro (hret | ⟨j, ⟨hfill, hj⟩ | ⟨hc, rfl⟩, hptr⟩)
    . exact Or.inl (Or.inl hret)
    . simp only [Listeners.fill, Function.update_of_ne hj] at hptr
      exact Or.inl (Or.inr ⟨j, hfill, hptr⟩)
    . simp only [Listeners.fill, Function.update_self, Pointer.copy.injEq] at hptr
      exact Or.inr ⟨hc, hptr.symm⟩
  . rintro ((hret | ⟨j, hfill, hptr⟩) | ⟨hc, hk⟩)
    . exact Or.inl hret
    . have hj : j ≠ i := by
        rcases hfill with hsig | ⟨-, hbroad⟩
        . exact h.signalled_ne hwait hsig
        . rw [hreader] at hbroad
          cases hbroad
      refine Or.inr ⟨j, Or.inl ⟨hfill, hj⟩, ?_⟩
      simpa only [Listeners.fill, Function.update_of_ne hj] using hptr
    . refine Or.inr ⟨i, Or.inr ⟨hc, rfl⟩, ?_⟩
      simp [Listeners.fill, hk]

theorem Listeners.Holds.lt {k : Nat} (h : s.Inv args) (hholds : s.Holds c k)
    : k < s.copies.length := by
  rcases hholds with ⟨len, hret⟩ | ⟨j, hfill, hptr⟩
  . obtain ⟨k', hk, hans⟩ := h.returned c len _ hret
    cases hk
    exact hans.lt
  . obtain ⟨-, k', hk, hans⟩ := h.filled c j hfill
    rw [hptr] at hk
    cases hk
    exact hans.lt

theorem Listeners.inv_fill (h : s.Inv args) (hreader : s.reader = .look m i)
    (hlock : s.locked i = false) (htakes : s.takes args heap i m = true)
    (hwait : s.calls c = .waiting i)
    : (s.fill i m).Inv args := by
  have hquiet : ∀ j, s.reader ≠ .broadcast j := by simp [hreader]
  constructor
  . exact h.alone
  . intro c' j hwait' hbroad
    have hj : j ≠ i := by
      rintro rfl
      exact hbroad rfl
    simp only [Listeners.fill, Function.update_of_ne hj]
    exact h.requests c' j hwait' (hquiet j)
  . intro j hbroad
    cases hbroad
    exact ⟨c, hwait⟩
  . intro j hbroad
    cases hbroad
    simp [Listeners.fill]
  . intro c' j hfill
    rcases (filled_fill h hreader hwait c' j).mp hfill with ⟨hfill', hj⟩ | ⟨rfl, rfl⟩
    . obtain ⟨hl, k, hptr, hans⟩ := h.filled c' j hfill'
      simp only [Listeners.fill, Function.update_of_ne hj]
      exact ⟨hl, k, hptr, hans.append rfl rfl⟩
    . obtain ⟨htype, hstatus⟩ := takes_requests (h.requests c' j hwait (hquiet j)) htakes
      refine ⟨hlock, s.copies.length, ?_, m, ?_, ?_, htype, hstatus, h.registered_le c'⟩
      . simp [Listeners.fill]
      . simp [Listeners.fill]
      . simp [Listeners.fill]
  . intro c' len p hret
    obtain ⟨k, hp, hans⟩ := h.returned c' len p hret
    exact ⟨k, hp, hans.append rfl rfl⟩
  . intro c'
    have := h.registered_le c'
    simp only [Listeners.fill, List.length_append, List.length_singleton]
    omega
  . intro k hk
    simp only [Listeners.fill, List.length_append, List.length_singleton] at hk
    simp only [holds_fill h hreader hwait]
    by_cases hlast : k = s.copies.length
    . refine ⟨c, Or.inr ⟨rfl, hlast⟩, ?_⟩
      rintro c' (hholds | ⟨hc, -⟩)
      . exact absurd (hholds.lt h) (by omega)
      . exact hc
    . simp only [hlast, and_false, or_false]
      exact h.once k (by omega)

end

theorem Listeners.inv_noMem {s : Listeners} (h : s.Inv args) {m : Message} {i : SlotIndex}
    (hreader : s.reader = .look m i) (hsig : ∀ c, s.calls c ≠ .signalled i)
    : Listeners.Inv args
        { s with locked := Function.update s.locked i true, reader := .idle } := by
  have hread := h.read .idle (by simp [hreader]) (by simp)
  refine { hread with filled := ?_ }
  . intro c j hfill
    obtain ⟨hl, hrest⟩ := hread.filled c j hfill
    refine ⟨?_, hrest⟩
    have hj : j ≠ i := by
      rintro rfl
      rcases hfill with hs | ⟨-, hbroad⟩
      . exact hsig c hs
      . cases hbroad
    simpa only [Function.update_of_ne hj] using hl

theorem Listeners.parked_signal (s : Listeners) (i j : SlotIndex) (c : Nat)
    : ((s.signal i).calls c).Parked j ↔ (s.calls c).Parked j := by
  unfold Listeners.signal CallPc.Parked
  dsimp only
  split
  . next hwait => simp [hwait]
  . rfl

theorem Listeners.waiting_signal {s : Listeners} {i j : SlotIndex} {c : Nat}
    (h : (s.signal i).calls c = .waiting j)
    : s.calls c = .waiting j ∧ j ≠ i := by
  unfold Listeners.signal at h
  dsimp only at h
  split at h
  . cases h
  . next hwait =>
    refine ⟨h, ?_⟩
    rintro rfl
    exact hwait h

theorem Listeners.returned_signal {s : Listeners} {i : SlotIndex} {c : Nat} {result : WaitResult}
    : (s.signal i).calls c = .returned result ↔ s.calls c = .returned result := by
  unfold Listeners.signal
  dsimp only
  split
  . next hwait => simp [hwait]
  . rfl

/--
The signal reaches the call whose slot has been filled and no other one.
-/
theorem Listeners.filled_signal {s : Listeners} {i : SlotIndex} (hreader : s.reader = .broadcast i)
    (c : Nat) (j : SlotIndex)
    : (s.signal i).Filled c j ↔ s.Filled c j := by
  unfold Listeners.Filled Listeners.signal
  simp only [hreader, ReaderPc.broadcast.injEq, reduceCtorEq, and_false, or_false]
  by_cases hwait : s.calls c = .waiting i
  . simp [hwait]
  . rw [if_neg hwait]
    constructor
    . exact Or.inl
    . rintro (hsig | ⟨hwait', rfl⟩)
      . exact hsig
      . exact absurd hwait' hwait

theorem Listeners.inv_signal {s : Listeners} (h : s.Inv args) {i : SlotIndex}
    (hreader : s.reader = .broadcast i)
    : (s.signal i).Inv args := by
  constructor
  . intro c c' j hc hc'
    exact h.alone c c' j ((parked_signal s i j c).mp hc) ((parked_signal s i j c').mp hc')
  . intro c j hwait _
    obtain ⟨hwait', hj⟩ := waiting_signal hwait
    apply h.requests c j hwait'
    rw [hreader]
    simpa using hj.symm
  . intro j hbroad
    cases hbroad
  . intro j hbroad
    cases hbroad
  . intro c j hfill
    exact h.filled c j ((filled_signal hreader c j).mp hfill)
  . intro c len p hret
    exact h.returned c len p (returned_signal.mp hret)
  . exact h.registered_le
  . intro k hk
    simp only [Listeners.Holds, Listeners.Returned, filled_signal hreader, returned_signal]
    exact h.once k hk

theorem Listeners.Inv.not_parked {s : Listeners} (h : s.Inv args) {c : Nat} {i : SlotIndex}
    (hpark : (s.calls c).Parked i) {c' : Nat} (hne : c' ≠ c)
    : ¬ (s.calls c').Parked i :=
  fun hpark' => hne (h.alone c' c i hpark' hpark)

theorem Listeners.Inv.callIn {s : Listeners} (h : s.Inv args) (c : Nat) (i : SlotIndex)
    (pc : CallPc) (slot : Slot) (registered : Nat → Nat)
    (hnobody : ∀ c', c' ≠ c → ¬ (s.calls c').Parked i)
    (hpark : ∀ j, pc.Parked j → j = i)
    (hold : ∀ j, s.calls c = .waiting j → s.reader ≠ .broadcast j)
    (hnew : pc = .waiting i → s.reader ≠ .broadcast i ∧ Requests args slot c)
    (hsignalled : ∀ j, pc ≠ .signalled j)
    (hok : ∀ len p, pc = .returned (.ok len p) →
      registered c = s.registered c ∧ ∃ k, p = .copy k ∧ s.Answers args c k len)
    (honce : ∀ k, s.Holds c k ↔ ∃ len, pc = .returned (.ok len (.copy k)))
    (hregistered : ∀ c', c' ≠ c → registered c' = s.registered c')
    (hle : registered c ≤ s.copies.length)
    : Listeners.Inv args { s with
        slots := Function.update s.slots i slot
        calls := Function.update s.calls c pc
        registered } := by
  apply h.call c pc _ registered _ _ hold _ hsignalled hok honce hregistered hle
  . intro c' j hne hpark'
    have hj : j ≠ i := by
      rintro rfl
      exact hnobody c' hne hpark'
    exact Function.update_of_ne hj _ _
  . intro c' j hne hp
    rw [hpark j hp]
    exact hnobody c' hne
  . intro j hj
    obtain rfl := hpark j (hj ▸ CallPc.parked_waiting j)
    rw [Function.update_self]
    exact hnew hj

theorem Listeners.not_holds {s : Listeners} {c : Nat}
    (hret : ∀ result, s.calls c ≠ .returned result) (hsig : ∀ i, s.calls c ≠ .signalled i)
    (hwait : ∀ i, s.calls c = .waiting i → s.reader ≠ .broadcast i) (k : Nat)
    : ¬ s.Holds c k := by
  rintro (⟨len, h⟩ | ⟨i, h | ⟨h, hbroad⟩, -⟩)
  . exact hret _ h
  . exact hsig i h
  . exact hwait i h hbroad

theorem CallPc.not_parked_returned (result : WaitResult) (i : SlotIndex)
    : ¬ (CallPc.returned result).Parked i := by
  simp [CallPc.Parked]

theorem CallPc.not_parked_look (i j : SlotIndex) : ¬ (CallPc.look i).Parked j := by
  simp [CallPc.Parked]

theorem Listeners.inv_move {s : Listeners} (h : s.Inv args) {c : Nat} {pc : CallPc}
    (hold : s.calls c = .idle ∨ ∃ i, s.calls c = .look i)
    (hnew : pc = .returned .error ∨ ∃ i, pc = .look i)
    : Listeners.Inv args { s with calls := Function.update s.calls c pc } := by
  have hpark : ∀ j, ¬ pc.Parked j := by
    rcases hnew with rfl | ⟨i, rfl⟩
    . exact CallPc.not_parked_returned _
    . exact CallPc.not_parked_look i
  apply h.call c pc s.slots s.registered
  . intros; rfl
  . intro c' j _ hp
    exact absurd hp (hpark j)
  . rcases hold with hc | ⟨j, hc⟩ <;> simp [hc]
  . intro j hj
    exact absurd (hj ▸ CallPc.parked_waiting j) (hpark j)
  . rintro j rfl
    exact hpark j (CallPc.parked_signalled j)
  . rcases hnew with rfl | ⟨j, rfl⟩ <;> simp
  . intro k
    have hnot : ¬ s.Holds c k := by
      rcases hold with hc | ⟨j, hc⟩ <;> apply not_holds <;> simp [hc]
    rcases hnew with rfl | ⟨j, rfl⟩ <;> simp [hnot]
  . intros; rfl
  . exact h.registered_le c

theorem Listeners.requests_request (s : Listeners) (c : Nat) (i : SlotIndex)
    : Requests args (s.request args c i) c := by
  refine ⟨rfl, ?_⟩
  intro hstatus
  simp only [Listeners.request, hstatus, ↓reduceIte]

theorem Listeners.inv_register {s : Listeners} (h : s.Inv args) {c : Nat} {i : SlotIndex}
    (hcall : s.calls c = .look i) (hnobody : ∀ c', ¬ (s.calls c').Parked i)
    : Listeners.Inv args { s with
        slots := Function.update s.slots i (s.request args c i)
        calls := Function.update s.calls c (.waiting i)
        registered := Function.update s.registered c s.copies.length } := by
  apply h.callIn c i (.waiting i) (s.request args c i) _ (fun c' _ => hnobody c')
  . rintro j (hp | hp | hp) <;> cases hp
    rfl
  . simp [hcall]
  . intro _
    refine ⟨?_, s.requests_request c i⟩
    intro hbroad
    obtain ⟨c', hwait⟩ := h.owner i hbroad
    exact hnobody c' (Or.inl hwait)
  . simp
  . simp
  . intro k
    have hnot : ¬ s.Holds c k := by apply not_holds <;> simp [hcall]
    simp [hnot]
  . intro c' hne
    exact Function.update_of_ne hne _ _
  . simp

theorem Listeners.inv_wake {s : Listeners} (h : s.Inv args) {c : Nat} {i : SlotIndex}
    (hcall : s.calls c = .signalled i)
    : Listeners.Inv args { s with
        slots := Function.update s.slots i { s.slots i with u16Type := 0 }
        calls := Function.update s.calls c
          (.returned (.ok (s.slots i).u16Length (s.slots i).pu8Message)) } := by
  obtain ⟨-, k, hptr, hans⟩ := h.filled c i (Or.inl hcall)
  apply h.callIn c i
  . intro c' hne
    exact h.not_parked (hcall ▸ CallPc.parked_signalled i) hne
  . intro j hp
    exact absurd hp (CallPc.not_parked_returned _ j)
  . simp [hcall]
  . simp
  . simp
  . intro len p hret
    cases hret
    exact ⟨rfl, k, hptr, hans⟩
  . intro k'
    constructor
    . rintro (⟨len, hret⟩ | ⟨j, hsig | ⟨hwait, -⟩, hp⟩)
      . simp [hcall] at hret
      . rw [hcall] at hsig
        cases hsig
        exact ⟨(s.slots i).u16Length, by rw [hp]⟩
      . simp [hcall] at hwait
    . rintro ⟨len, hret⟩
      simp only [CallPc.returned.injEq, WaitResult.ok.injEq] at hret
      exact Or.inr ⟨i, Or.inl hcall, hret.2⟩
  . intros; rfl
  . exact h.registered_le c

/--
A call that holds no message leaves, or makes up its mind to.
-/
theorem Listeners.inv_leave {s : Listeners} (h : s.Inv args) {c : Nat} {i : SlotIndex}
    (pc : CallPc) (slot : Slot) (hnobody : ∀ c', c' ≠ c → ¬ (s.calls c').Parked i)
    (hret : ∀ result, s.calls c ≠ .returned result) (hsig : ∀ j, s.calls c ≠ .signalled j)
    (hwait : ∀ j, s.calls c = .waiting j → s.reader ≠ .broadcast j)
    (hpc : pc = .expired i ∨ pc = .returned .noMessage ∨ pc = .returned .error)
    : Listeners.Inv args { s with
        slots := Function.update s.slots i slot
        calls := Function.update s.calls c pc } := by
  apply h.callIn c i pc slot s.registered hnobody
  . intro j hp
    rcases hpc with rfl | rfl | rfl
    . rcases hp with hp | hp | hp <;> cases hp
      rfl
    . exact absurd hp (CallPc.not_parked_returned _ j)
    . exact absurd hp (CallPc.not_parked_returned _ j)
  . exact hwait
  . rcases hpc with rfl | rfl | rfl <;> simp
  . rcases hpc with rfl | rfl | rfl <;> simp
  . rcases hpc with rfl | rfl | rfl <;> simp
  . intro k
    have hnot : ¬ s.Holds c k := not_holds hret hsig hwait k
    rcases hpc with rfl | rfl | rfl <;> simp [hnot]
  . intros; rfl
  . exact h.registered_le c

theorem Listeners.inv_change {s s' : Listeners} {a : Act} (h : s.Inv args)
    (hok : s.Reliable args heap a) (hchange : s.Change args heap a s')
    : s'.Inv args := by
  cases hchange with
  | read _ reader hold hnew => exact h.read reader hold hnew
  | take m i hreader hlock htakes =>
    obtain ⟨c, hwait⟩ := hok m i hreader htakes
    exact inv_fill h hreader hlock htakes hwait
  | noMem m i hreader htakes => exact inv_noMem h hreader (hok m i hreader htakes)
  | broadcast i hreader => exact inv_signal h hreader
  | move _ c pc hold hnew => exact inv_move h hold hnew
  | register c tv_usec i hcall hfree => exact inv_register h hcall (hok i hcall hfree)
  | invalid c tv_usec i slot hcall hfree =>
    apply inv_leave h _ slot (fun c' _ => hok i hcall hfree c')
    . simp [hcall]
    . simp [hcall]
    . simp [hcall]
    . exact Or.inr (Or.inr rfl)
  | wake c i hcall => exact inv_wake h hcall
  | expire c i hcall =>
    have hleave := inv_leave h (.expired i) (s.slots i)
      (fun c' hne => h.not_parked (hcall ▸ CallPc.parked_waiting i) hne)
      (by simp [hcall]) (by simp [hcall]) hok (Or.inl rfl)
    rwa [Function.update_eq_self] at hleave
  | giveUp c i hcall =>
    apply inv_leave h _ _ (fun c' hne => h.not_parked (hcall ▸ CallPc.parked_expired i) hne)
    . simp [hcall]
    . simp [hcall]
    . simp [hcall]
    . exact Or.inr (Or.inl rfl)

theorem Listeners.inv_init (args : Nat → WaitArgs) : Listeners.init.Inv args := by
  constructor
  . rintro c c' i (h | h | h) <;> cases h
  . intro c i h
    cases h
  . intro i h
    cases h
  . intro i h
    cases h
  . rintro c i (h | ⟨h, -⟩) <;> cases h
  . intro c len p h
    cases h
  . intro c
    exact Nat.le_refl 0
  . intro k h
    exact absurd h (Nat.not_lt_zero k)

/--
The call of `eSL_MessageQueue` that made copy `k` has returned `E_SL_OK`.
-/
def Listeners.QueueReturned (s : Listeners) (k : Nat) : Prop :=
  k < s.copies.length ∧ ¬ (k = s.copies.length - 1 ∧ ∃ i, s.reader = .broadcast i)

variable (args heap)

/--
The call has been signalled and its next step returns copy `k`.
-/
def Listeners.Fetches (s : Listeners) (c k : Nat) : Prop :=
  ∃ i s', s.calls c = .signalled i ∧ s.step args heap (.wake c) = some s' ∧ s'.Returned c k

variable {args}

theorem Listeners.Inv.holds_iff {s : Listeners} (h : s.Inv args) {k : Nat} (hk : s.QueueReturned k)
    (c : Nat)
    : s.Holds c k ↔ s.Returned c k ∨ s.Fetches args heap c k := by
  unfold Listeners.Holds
  constructor
  . rintro (hret | ⟨i, hsig | ⟨hwait, hbroad⟩, hptr⟩)
    . exact Or.inl hret
    . right
      have hlock := (h.filled c i (Or.inl hsig)).1
      refine ⟨i, _, hsig, step_wake args heap hsig hlock, ?_⟩
      exact ⟨(s.slots i).u16Length, by simp [hptr]⟩
    . have hlast := h.latest i hbroad
      rw [hptr] at hlast
      cases hlast
      exact absurd ⟨rfl, i, hbroad⟩ hk.2
  . rintro (hret | ⟨i, s', hsig, hstep, len, hret⟩)
    . exact Or.inl hret
    . have hlock := (h.filled c i (Or.inl hsig)).1
      rw [step_wake args heap hsig hlock] at hstep
      obtain rfl := Option.some.inj hstep
      simp only [Function.update_self, CallPc.returned.injEq, WaitResult.ok.injEq] at hret
      exact Or.inr ⟨i, Or.inl hsig, hret.2⟩

variable (args)

/--
As long as all steps are reliable, what was queued is returned to one call, at the latest by its
next step, and a call that returns a message returns one that it asked for and that came later.
-/
theorem Listeners.returned_once {s : Listeners}
    (hrun : Reach (Listeners.step args heap) (Listeners.Reliable args heap) .init s)
    : (∀ k, s.QueueReturned k → ∃! c, s.Returned c k ∨ s.Fetches args heap c k)
        ∧ ((∀ c i, s.calls c ≠ .signalled i) → ∀ k, s.QueueReturned k → ∃! c, s.Returned c k)
        ∧ ∀ c len p, s.calls c = .returned (.ok len p) → ∃ k, p = .copy k ∧ s.Answers args c k len := by
  have hinv : s.Inv args := by
    apply Reach.inv _ hrun (inv_init args)
    intro t a t' ht hok hstep
    exact inv_change ht hok (change_of_step args heap hstep)
  have hreturned : ∀ k, s.QueueReturned k → ∃! c, s.Returned c k ∨ s.Fetches args heap c k := by
    intro k hk
    have hone := hinv.once k hk.1
    simpa only [hinv.holds_iff heap hk] using hone
  refine ⟨hreturned, ?_, hinv.returned⟩
  intro hquiet k hk
  obtain ⟨c, hc, hunique⟩ := hreturned k hk
  refine ⟨c, ?_, ?_⟩
  . rcases hc with hret | ⟨i, -, hsig, -⟩
    . exact hret
    . exact absurd hsig (hquiet c i)
  . intro c' hret
    exact hunique c' (Or.inl hret)

end

/--
All calls wait for the version list, and this is one.
-/
def versionWait : Nat → WaitArgs := fun _ =>
  { u16Type := 0x8010, u32WaitTimeout := 300, psStatus := none }

def versionList : Message := { u16Type := 0x8010, u16Length := 4, au8Message := fun _ => 1 }

def zeroHeap : Nat → Nat → UInt8 := fun _ _ => 0

/--
One call that waits for the version list and gets it.
-/
theorem Listeners.returned_once_version
    : ∃ s, s.calls 0 = .returned (.ok 4 (.copy 0))
        ∧ ∃ k, Pointer.copy 0 = .copy k ∧ Listeners.Answers versionWait s 0 k 4 := by
  have hrun : ∃ s, s.calls 0 = .returned (.ok 4 (.copy 0))
      ∧ Reach (Listeners.step versionWait zeroHeap) (Listeners.Reliable versionWait zeroHeap)
        .init s := by
    have hnobody : ∀ c i, ¬ (Function.update Listeners.init.calls 0 (.look firstSlot) c).Parked i := by
      intro c i
      by_cases hc : c = 0
      . subst hc
        exact CallPc.not_parked_look firstSlot i
      . simp [Listeners.init, CallPc.Parked, hc]
    refine ⟨_, ?_, .head ⟨.wait 0, trivial, step_wait _ _ rfl⟩
      (.head ⟨.lookFree 0 0, fun i _ _ c => hnobody c i, step_register _ _ rfl rfl rfl (by decide)⟩
        (.head ⟨.queue versionList, trivial, rfl⟩
          (.head ⟨.lookSlot true, ?_, step_take _ _ rfl rfl rfl⟩
            (.head ⟨.broadcast, trivial, step_broadcast _ _ rfl⟩
              (.single ⟨.wake 0, trivial, step_wake _ _ rfl rfl⟩)))))⟩
    . rfl
    . intro m i hreader _
      cases hreader
      exact ⟨0, rfl⟩
  obtain ⟨s, hret, hreach⟩ := hrun
  exact ⟨s, hret, (returned_once versionWait zeroHeap hreach).2.2 0 4 (.copy 0) hret⟩

/--
A second message of the same type replaces the first one before the call is back.
-/
theorem Listeners.message_replaced
    : ¬ ∀ (args : Nat → WaitArgs) (heap : Nat → Nat → UInt8) (s : Listeners),
        Reach (Listeners.step args heap) (fun _ _ => True) .init s →
        (∀ c i, s.calls c ≠ .signalled i) → ∀ k, s.QueueReturned k → ∃! c, s.Returned c k := by
  intro h
  obtain ⟨s, hs⟩ : ∃ s, [.wait 0, .lookFree 0 0, .queue versionList, .lookSlot true, .broadcast,
      .queue versionList, .lookSlot true, .broadcast, .wake 0].foldlM
        (Listeners.step versionWait zeroHeap) .init = some s := ⟨_, rfl⟩
  have hcalls : ∀ c, s.calls c = if c = 0 then .returned (.ok 4 (.copy 1)) else .idle := by
    obtain rfl := Option.some.inj hs
    intro c
    by_cases hc : c = 0
    . subst hc
      rfl
    . simp [Listeners.signal, Listeners.fill, Listeners.init, hc]
  have hqueued : s.QueueReturned 0 := by
    obtain rfl := Option.some.inj hs
    refine ⟨by decide, ?_⟩
    rintro ⟨hlast, -⟩
    exact absurd hlast (by decide)
  obtain ⟨c, ⟨len, hret⟩, -⟩ := h versionWait zeroHeap s (reach_of_foldlM (fun _ _ => trivial) hs)
    (by intro c i; rw [hcalls]; split <;> simp) 0 hqueued
  rw [hcalls] at hret
  split at hret <;> simp at hret

end SerialLink
