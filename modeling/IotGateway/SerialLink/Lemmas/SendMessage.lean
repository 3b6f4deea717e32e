import IotGateway.SerialLink.Lemmas.MessageQueue
import IotGateway.SerialLink.Impl.SendMessage

/-!
This module says when the answers to a command reach the thread that has sent it: if the reader
thread finds the call that waits for an answer registered when it comes to the slots with it.
-/

namespace SerialLink

open Machine

/--
The answers of the node to a command.
-/
structure IsExchange (u16Type : UInt16) (answers : List Message) (status response : Message) :
    Prop where
  status_type : status.u16Type = E_SL_MSG_STATUS
  status_command : status.statusType = u16Type
  status_length : 4 ≤ status.u16Length.toNat
  response_type : response.u16Type = E_SL_MSG_MANAGEMENT_LQI_RESPONSE
  order : answers = [status, response] ∨ answers = [response, status]

section

variable (u16Type : UInt16) (heap : Nat → Nat → UInt8)

/--
The reader thread comes to the slots with an answer only when the call that waits for it has taken
one, and neither memory nor the clock makes trouble.
-/
def Exchange.Timely (x : Exchange) : ExchangeAct → Prop
  | .thread (.lookSlot mallocOk) =>
    mallocOk = true ∧ ∀ m i, x.link.reader = .look m i →
      ∃ c, x.link.calls c = .waiting i ∧ (exchangeArgs u16Type c).u16Type = m.u16Type
  | .thread (.lookFree call tv_usec) =>
    timeoutNsec (exchangeArgs u16Type call).u32WaitTimeout tv_usec < 1000000000
  | _ => True

/--
`eSL_SendMessage` has returned nothing but the status, and the next `eSL_MessageWait` nothing but
the response.
-/
def Exchange.Correct (status response : Message) (x : Exchange) : Prop :=
  (∀ eStatus, x.eStatus = some eStatus → eStatus = status.au8Message 0)
    ∧ ∀ result, x.sender = .received result →
        ∃ k, result = .ok response.u16Length (.copy k) ∧ x.link.copies[k]? = some response

/--
`eSL_SendMessage` has returned, and if the status is `E_SL_OK` so has the next `eSL_MessageWait`.
-/
def Exchange.Finished (x : Exchange) : Prop :=
  (x.sender = .sent ∧ x.eStatus ≠ some Status.ok.toUInt8) ∨ ∃ result, x.sender = .received result

end

def ReaderPc.reading : ReaderPc → List Message
  | .look m _ => [m]
  | _ => []

def CallPc.Underway (pc : CallPc) : Prop :=
  pc = .look firstSlot ∨ ∃ i, pc = .waiting i ∨ pc = .signalled i

def CallPc.ReturnedOk (pc : CallPc) : Prop := ∃ len p, pc = .returned (.ok len p)

/--
No answer is lost, and no call gives up or fails.
-/
structure LinkInv (u16Type : UInt16) (answers : List Message) (link : Listeners)
    (line : List Message) : Prop where
  inv : link.Inv (exchangeArgs u16Type)
  unlocked : ∀ i, link.locked i = false
  answers_eq : answers = link.copies ++ link.reader.reading ++ line
  first : ∀ m i, link.reader = .look m i → i = firstSlot
  free : ∀ i, (∀ c, ¬ (link.calls c).Parked i) → (link.slots i).u16Type = 0
  fine : ∀ c, link.calls c = .idle ∨ (link.calls c).Underway ∨ (link.calls c).ReturnedOk
  one : ∀ c c', (link.calls c).Underway → (link.calls c').Underway → c = c'
  two : ∀ c, 2 ≤ c → link.calls c = .idle

/--
How far the sending thread is.
-/
def Phase (status response : Message) (x : Exchange) : Prop :=
  match x.sender with
  | .writing => x.eStatus = none ∧ x.link.calls 0 = .idle ∧ x.link.calls 1 = .idle
  | .waitStatus =>
    x.eStatus = none ∧ x.link.calls 0 ≠ .idle ∧ x.link.calls 1 = .idle
  | .sent =>
    x.eStatus = some (status.au8Message 0) ∧ (x.link.calls 0).ReturnedOk ∧ x.link.calls 1 = .idle
  | .waitResponse =>
    x.eStatus = some (status.au8Message 0) ∧ (x.link.calls 0).ReturnedOk ∧ x.link.calls 1 ≠ .idle
  | .received result =>
    x.eStatus = some (status.au8Message 0) ∧ (x.link.calls 0).ReturnedOk
      ∧ (x.link.calls 1).ReturnedOk
      ∧ ∃ k, result = .ok response.u16Length (.copy k) ∧ x.link.copies[k]? = some response

section

variable {u16Type : UInt16} {answers line : List Message} {status response : Message}
  {link : Listeners}

theorem IsExchange.mem (h : IsExchange u16Type answers status response) (m : Message)
    : m ∈ answers ↔ m = status ∨ m = response := by
  rcases h.order with h | h
  . simp [h]
  . simp [h, or_comm]

theorem LinkInv.mem_answers (h : LinkInv u16Type answers link line) {k : Nat} {m : Message}
    (hm : link.copies[k]? = some m)
    : m ∈ answers := by
  rw [h.answers_eq]
  exact List.mem_append_left _ (List.mem_append_left _ (List.mem_of_getElem? hm))

theorem exchangeArgs_type_ne {c c' : Nat} (hc : c < 2) (hc' : c' < 2)
    (h : (exchangeArgs u16Type c).u16Type = (exchangeArgs u16Type c').u16Type)
    : c = c' := by
  have hne : E_SL_MSG_STATUS ≠ E_SL_MSG_MANAGEMENT_LQI_RESPONSE := by decide
  rcases (by omega : c = 0 ∨ c = 1) with rfl | rfl <;>
    rcases (by omega : c' = 0 ∨ c' = 1) with rfl | rfl <;>
    simp_all [exchangeArgs, Ne.symm]

theorem IsExchange.eq_of_type (h : IsExchange u16Type answers status response) {m : Message}
    (hm : m ∈ answers) {c : Nat} (htype : m.u16Type = (exchangeArgs u16Type c).u16Type)
    : m = if c = 0 then status else response := by
  have hne : E_SL_MSG_STATUS ≠ E_SL_MSG_MANAGEMENT_LQI_RESPONSE := by decide
  rcases (h.mem m).mp hm with rfl | rfl
  . rw [h.status_type] at htype
    by_cases hc : c = 0
    . simp [hc]
    . simp [exchangeArgs, hc, hne] at htype
  . rw [h.response_type] at htype
    by_cases hc : c = 0
    . simp [exchangeArgs, hc, hne.symm] at htype
    . simp [hc]

theorem LinkInv.lt_two (h : LinkInv u16Type answers link line) {c : Nat}
    (hcall : link.calls c ≠ .idle)
    : c < 2 := by
  by_contra hge
  exact hcall (h.two c (by omega))

theorem LinkInv.eq_of_answers (h : LinkInv u16Type answers link line)
    (hex : IsExchange u16Type answers status response) {c k : Nat} {len : UInt16}
    (hans : link.Answers (exchangeArgs u16Type) c k len)
    : link.copies[k]? = some (if c = 0 then status else response)
        ∧ len = (if c = 0 then status else response).u16Length := by
  obtain ⟨m, hm, hlen, htype, -⟩ := hans
  have heq := hex.eq_of_type (h.mem_answers hm) htype
  rw [← heq]
  exact ⟨hm, hlen⟩

theorem LinkInv.not_waiting (h : LinkInv u16Type answers link line)
    (hex : IsExchange u16Type answers status response) (hidle : link.reader = .idle) {c : Nat}
    (hline : ∀ m ∈ line, m.u16Type ≠ (exchangeArgs u16Type c).u16Type) (i : SlotIndex)
    : link.calls c ≠ .waiting i := by
  intro hwait
  have hc : c < 2 := h.lt_two (by simp [hwait])
  have hmem : (if c = 0 then status else response) ∈ answers := by
    rw [hex.mem]
    split <;> simp
  have htype : (if c = 0 then status else response).u16Type = (exchangeArgs u16Type c).u16Type := by
    unfold exchangeArgs
    split
    . exact hex.status_type
    . exact hex.response_type
  rw [h.answers_eq, hidle] at hmem
  simp only [ReaderPc.reading, List.append_nil, List.mem_append] at hmem
  rcases hmem with hcopy | hnew
  . obtain ⟨k, hk, hget⟩ := List.mem_iff_getElem.mp hcopy
    obtain ⟨c', hholds, -⟩ := h.inv.once k hk
    -- the holder waits for the same type, so it is the same call
    have hsame : link.calls c' ≠ .idle ∧ ∃ len, link.Answers (exchangeArgs u16Type) c' k len := by
      rcases hholds with ⟨len, hret⟩ | ⟨j, hfill, hptr⟩
      . obtain ⟨k', hk', hans⟩ := h.inv.returned c' len _ hret
        cases hk'
        exact ⟨by simp [hret], len, hans⟩
      . obtain ⟨-, k', hk', hans⟩ := h.inv.filled c' j hfill
        rw [hptr] at hk'
        cases hk'
        refine ⟨?_, _, hans⟩
        rcases hfill with hs | ⟨hw, -⟩
        . simp [hs]
        . simp [hw]
    obtain ⟨hbusy, len, m, hm, -, hmtype, -⟩ := hsame
    rw [List.getElem?_eq_getElem hk, hget] at hm
    obtain rfl := Option.some.inj hm
    have hcc := exchangeArgs_type_ne (h.lt_two hbusy) hc (hmtype.symm.trans htype)
    subst hcc
    rcases hholds with ⟨len, hret⟩ | ⟨j, hs | ⟨-, hbroad⟩, -⟩
    . simp [hwait] at hret
    . simp [hwait] at hs
    . simp [hidle] at hbroad
  . exact hline _ hnew htype

/--
What no step of the threads inside the two functions undoes.
-/
structure Extends (link link' : Listeners) : Prop where
  idle_iff : ∀ c, link'.calls c = .idle ↔ link.calls c = .idle
  returned : ∀ c, (link.calls c).ReturnedOk → (link'.calls c).ReturnedOk
  copies : ∀ (k : Nat) (m : Message), link.copies[k]? = some m → link'.copies[k]? = some m

def CallPc.rank : CallPc → Nat
  | .look _ => 3
  | .waiting _ => 2
  | .signalled _ => 1
  | _ => 0

def ReaderPc.rank : ReaderPc → Nat
  | .idle => 0
  | .look .. => 2
  | .broadcast _ => 1

/--
How many steps the threads have left inside the two functions.
-/
def Listeners.rank (s : Listeners) : Nat :=
  s.reader.rank + (s.calls 0).rank + (s.calls 1).rank

variable {heap : Nat → Nat → UInt8}

theorem LinkInv.takes (h : LinkInv u16Type answers link line)
    (hex : IsExchange u16Type answers status response) (heap : Nat → Nat → UInt8) {m : Message}
    {i : SlotIndex} {c : Nat}
    (hreader : link.reader = .look m i) (hwait : link.calls c = .waiting i)
    (htype : (exchangeArgs u16Type c).u16Type = m.u16Type)
    : link.takes (exchangeArgs u16Type) heap i m = true := by
  obtain ⟨hslot, hptr⟩ := h.inv.requests c i hwait (by simp [hreader])
  have hm : m ∈ answers := by
    rw [h.answers_eq, hreader]
    simp [ReaderPc.reading]
  have heq := hex.eq_of_type hm htype.symm
  unfold Listeners.takes
  rw [hslot, htype]
  by_cases hc : c = 0
  . subst hc
    have hp := hptr rfl
    simp only [exchangeArgs, ↓reduceIte, reduceCtorEq] at hp
    rw [heq, if_pos rfl, hp]
    simp [Listeners.waitStatus, exchangeArgs, hex.status_command]
  . have hne : m.u16Type ≠ E_SL_MSG_STATUS := by
      rw [← htype, exchangeArgs, if_neg hc]
      decide
    simp [hne]

theorem linkInv_fill (h : LinkInv u16Type answers link line)
    (hex : IsExchange u16Type answers status response) {m : Message} {i : SlotIndex} {c : Nat}
    (hreader : link.reader = .look m i) (hwait : link.calls c = .waiting i)
    (htype : (exchangeArgs u16Type c).u16Type = m.u16Type)
    : LinkInv u16Type answers (link.fill i m) line ∧ Extends link (link.fill i m)
        ∧ (link.fill i m).rank < link.rank := by
  have htakes := h.takes hex (fun _ _ => 0) hreader hwait htype
  refine ⟨⟨?_, h.unlocked, ?_, ?_, ?_, h.fine, h.one, h.two⟩, ?_, ?_⟩
  . exact Listeners.inv_fill h.inv hreader (h.unlocked i) htakes hwait
  . rw [h.answers_eq, hreader]
    simp [Listeners.fill, ReaderPc.reading]
  . intro m' j hlook
    cases hlook
  . intro j hnobody
    by_cases hj : j = i
    . subst hj
      exact absurd (hwait ▸ CallPc.parked_waiting j) (hnobody c)
    . simp only [Listeners.fill, Function.update_of_ne hj]
      exact h.free j hnobody
  . refine ⟨fun _ => Iff.rfl, fun _ hret => hret, ?_⟩
    intro k m' hk
    have hlt := (List.getElem?_eq_some_iff.mp hk).1
    simp only [Listeners.fill, List.getElem?_append_left hlt, hk]
  . simp only [Listeners.rank, Listeners.fill, hreader, ReaderPc.rank]
    omega

theorem CallPc.underway_look : (CallPc.look firstSlot).Underway := Or.inl rfl

theorem CallPc.underway_waiting (i : SlotIndex) : (CallPc.waiting i).Underway :=
  Or.inr ⟨i, Or.inl rfl⟩

theorem CallPc.underway_signalled (i : SlotIndex) : (CallPc.signalled i).Underway :=
  Or.inr ⟨i, Or.inr rfl⟩

theorem CallPc.not_underway_returned (result : WaitResult) : ¬ (CallPc.returned result).Underway := by
  simp [CallPc.Underway]

theorem CallPc.not_underway_idle : ¬ CallPc.idle.Underway := by
  simp [CallPc.Underway]

theorem Listeners.underway_signal (s : Listeners) (i : SlotIndex) (c : Nat)
    : ((s.signal i).calls c).Underway ↔ (s.calls c).Underway := by
  unfold Listeners.signal
  dsimp only
  split
  . next hwait =>
    rw [hwait]
    exact ⟨fun _ => CallPc.underway_waiting i, fun _ => CallPc.underway_signalled i⟩
  . rfl

theorem Listeners.idle_signal (s : Listeners) (i : SlotIndex) (c : Nat)
    : (s.signal i).calls c = .idle ↔ s.calls c = .idle := by
  unfold Listeners.signal
  dsimp only
  split
  . next hwait => simp [hwait]
  . rfl

theorem linkInv_signal (h : LinkInv u16Type answers link line) {i : SlotIndex}
    (hreader : link.reader = .broadcast i)
    : LinkInv u16Type answers (link.signal i) line ∧ Extends link (link.signal i)
        ∧ (link.signal i).rank < link.rank := by
  have hret : ∀ c, ((link.signal i).calls c).ReturnedOk ↔ (link.calls c).ReturnedOk := by
    intro c
    simp only [CallPc.ReturnedOk, Listeners.returned_signal]
  have hrank : ∀ c, ((link.signal i).calls c).rank ≤ (link.calls c).rank := by
    intro c
    unfold Listeners.signal
    dsimp only
    split
    . next hwait => simp [hwait, CallPc.rank]
    . exact Nat.le_refl _
  refine ⟨⟨Listeners.inv_signal h.inv hreader, h.unlocked, ?_, ?_, ?_, ?_, ?_, ?_⟩, ?_, ?_⟩
  . rw [h.answers_eq, hreader]
    simp [Listeners.signal, ReaderPc.reading]
  . intro m j hlook
    cases hlook
  . intro j hnobody
    simp only [Listeners.parked_signal] at hnobody
    exact h.free j hnobody
  . intro c
    simp only [Listeners.idle_signal, Listeners.underway_signal, hret]
    exact h.fine c
  . intro c c'
    simp only [Listeners.underway_signal]
    exact h.one c c'
  . intro c hc
    rw [Listeners.idle_signal]
    exact h.two c hc
  . exact ⟨link.idle_signal i, fun c hc => (hret c).mpr hc, fun _ _ hk => hk⟩
  . have h₀ := hrank 0
    have h₁ := hrank 1
    have hidle : (link.signal i).reader.rank = 0 := rfl
    have hbroad : link.reader.rank = 1 := by rw [hreader]; rfl
    unfold Listeners.rank
    omega

theorem linkInv_call (h : LinkInv u16Type answers link line) {c : Nat} {i : SlotIndex} {slot : Slot}
    {pc : CallPc} {registered : Nat → Nat} (hcall : (link.calls c).Underway)
    (hinv : Listeners.Inv (exchangeArgs u16Type) { link with
      slots := Function.update link.slots i slot
      calls := Function.update link.calls c pc
      registered })
    (hpark : ∀ j, (link.calls c).Parked j → j = i)
    (hpc : pc = .waiting i ∨ (pc.ReturnedOk ∧ slot.u16Type = 0))
    (hrank : pc.rank < (link.calls c).rank)
    : let link' := { link with
        slots := Function.update link.slots i slot
        calls := Function.update link.calls c pc
        registered }
      LinkInv u16Type answers link' line ∧ Extends link link' ∧ link'.rank < link.rank := by
  have hbusy : link.calls c ≠ .idle := by
    intro hidle
    exact CallPc.not_underway_idle (hidle ▸ hcall)
  have hother : ∀ c', c' ≠ c → Function.update link.calls c pc c' = link.calls c' :=
    fun c' hne => Function.update_of_ne hne pc link.calls
  have hself : Function.update link.calls c pc c = pc := Function.update_self c pc link.calls
  have hunder : ∀ c', (Function.update link.calls c pc c').Underway → (link.calls c').Underway := by
    intro c' hc'
    by_cases hne : c' = c
    . rw [hne]
      exact hcall
    . rwa [hother c' hne] at hc'
  refine ⟨⟨hinv, h.unlocked, h.answers_eq, h.first, ?_, ?_, ?_, ?_⟩,
    ⟨?_, ?_, fun _ _ hk => hk⟩, ?_⟩
  . intro j hnobody
    dsimp only at hnobody ⊢
    by_cases hj : j = i
    . subst hj
      rcases hpc with rfl | ⟨-, hzero⟩
      . have := hnobody c
        rw [hself] at this
        exact absurd (CallPc.parked_waiting j) this
      . rwa [Function.update_self]
    . rw [Function.update_of_ne hj]
      apply h.free j
      intro c' hpark'
      by_cases hne : c' = c
      . subst hne
        exact hj (hpark j hpark')
      . have := hnobody c'
        rw [hother c' hne] at this
        exact this hpark'
  . intro c'
    by_cases hne : c' = c
    . subst hne
      simp only [hself]
      rcases hpc with rfl | ⟨hret, -⟩
      . exact Or.inr (Or.inl (CallPc.underway_waiting i))
      . exact Or.inr (Or.inr hret)
    . simp only [hother c' hne]
      exact h.fine c'
  . intro c₁ c₂ h₁ h₂
    exact h.one c₁ c₂ (hunder c₁ h₁) (hunder c₂ h₂)
  . intro c' hc'
    have hne : c' ≠ c := by
      rintro rfl
      exact hbusy (h.two c' hc')
    simp only [hother c' hne]
    exact h.two c' hc'
  . intro c'
    by_cases hne : c' = c
    . subst hne
      simp only [hself, hbusy, iff_false]
      rcases hpc with rfl | ⟨⟨len, p, rfl⟩, -⟩
      . simp
      . simp
    . simp only [hother c' hne]
  . intro c' hret
    have hne : c' ≠ c := by
      rintro rfl
      obtain ⟨len, p, hret⟩ := hret
      rw [hret] at hcall
      exact CallPc.not_underway_returned _ hcall
    simpa only [hother c' hne] using hret
  . rcases (by have := h.lt_two hbusy; omega : c = 0 ∨ c = 1) with rfl | rfl
    . simp only [Listeners.rank, hself, hother 1 (by omega)]
      omega
    . simp only [Listeners.rank, hself, hother 0 (by omega)]
      omega

/--
While a call looks for a slot all slots are free.
-/
theorem LinkInv.not_parked (h : LinkInv u16Type answers link line) {c : Nat} {i : SlotIndex}
    (hcall : link.calls c = .look i) (c' : Nat) (j : SlotIndex)
    : ¬ (link.calls c').Parked j := by
  have hunder : (link.calls c).Underway := by
    rcases h.fine c with hidle | hunder | ⟨len, p, hret⟩
    . simp [hcall] at hidle
    . exact hunder
    . simp [hcall] at hret
  intro hpark
  have hsame : c' = c := by
    rcases h.fine c' with hidle | hunder' | ⟨len, p, hret⟩
    . rw [hidle] at hpark
      rcases hpark with hp | hp | hp <;> cases hp
    . exact h.one c' c hunder' hunder
    . rw [hret] at hpark
      exact absurd hpark (CallPc.not_parked_returned _ j)
  rw [hsame, hcall] at hpark
  exact CallPc.not_parked_look i j hpark

theorem linkInv_register (h : LinkInv u16Type answers link line) {c tv_usec : Nat} {link' : Listeners}
    (hnsec : timeoutNsec (exchangeArgs u16Type c).u32WaitTimeout tv_usec < 1000000000)
    (hstep : link.step (exchangeArgs u16Type) heap (.lookFree c tv_usec) = some link')
    : LinkInv u16Type answers link' line ∧ Extends link link' ∧ link'.rank < link.rank := by
  obtain ⟨i, hcall⟩ : ∃ i, link.calls c = .look i := by
    simp only [Listeners.step] at hstep
    split at hstep
    . next i hcall => exact ⟨i, hcall⟩
    . simp at hstep
  have hnobody := h.not_parked hcall
  have hfree := h.free i (fun c' => hnobody c' i)
  rw [Listeners.step_register _ heap hcall (h.unlocked i) hfree hnsec] at hstep
  obtain rfl := Option.some.inj hstep
  apply linkInv_call h
  . rcases h.fine c with hidle | hunder | ⟨len, p, hret⟩
    . simp [hcall] at hidle
    . exact hunder
    . simp [hcall] at hret
  . exact Listeners.inv_register h.inv hcall (fun c' => hnobody c' i)
  . intro j hpark
    exact absurd hpark (hnobody c j)
  . exact Or.inl rfl
  . rw [hcall]
    exact Nat.lt_succ_self 2

theorem linkInv_wake (h : LinkInv u16Type answers link line) {c : Nat} {link' : Listeners}
    (hstep : link.step (exchangeArgs u16Type) heap (.wake c) = some link')
    : LinkInv u16Type answers link' line ∧ Extends link link' ∧ link'.rank < link.rank := by
  obtain ⟨i, hcall⟩ : ∃ i, link.calls c = .signalled i := by
    simp only [Listeners.step] at hstep
    split at hstep
    . next i hcall => exact ⟨i, hcall⟩
    . simp at hstep
  rw [Listeners.step_wake _ heap hcall (h.unlocked i)] at hstep
  obtain rfl := Option.some.inj hstep
  apply linkInv_call h
  . exact hcall ▸ CallPc.underway_signalled i
  . exact Listeners.inv_wake h.inv hcall
  . intro j hpark
    rw [hcall] at hpark
    rcases hpark with hp | hp | hp <;> cases hp
    rfl
  . exact Or.inr ⟨⟨_, _, rfl⟩, rfl⟩
  . rw [hcall]
    exact Nat.zero_lt_one

/--
Every step inside the two functions keeps the answers, if it comes in time.
-/
theorem linkInv_thread {x : Exchange} (h : LinkInv u16Type answers x.link x.line)
    (hex : IsExchange u16Type answers status response) {a : Act} {link' : Listeners}
    (htimely : x.Timely u16Type (.thread a)) (hmay : x.mayStep u16Type a = true)
    (hstep : x.link.step (exchangeArgs u16Type) heap a = some link')
    : LinkInv u16Type answers link' x.line ∧ Extends x.link link' ∧ link'.rank < x.link.rank := by
  cases a with
  | queue m => simp [Exchange.mayStep] at hmay
  | wait c => simp [Exchange.mayStep] at hmay
  | lookSlot mallocOk =>
    obtain ⟨rfl, hwaiting⟩ := htimely
    cases hreader : x.link.reader with
    | idle => simp [Listeners.step, hreader] at hstep
    | broadcast i => simp [Listeners.step, hreader] at hstep
    | look m i =>
      obtain ⟨c, hwait, htype⟩ := hwaiting m i hreader
      have htakes := h.takes hex heap hreader hwait htype
      rw [Listeners.step_take _ heap hreader (h.unlocked i) htakes] at hstep
      obtain rfl := Option.some.inj hstep
      exact linkInv_fill h hex hreader hwait htype
  | broadcast =>
    cases hreader : x.link.reader with
    | idle => simp [Listeners.step, hreader] at hstep
    | look m i => simp [Listeners.step, hreader] at hstep
    | broadcast i =>
      rw [Listeners.step_broadcast _ heap hreader] at hstep
      obtain rfl := Option.some.inj hstep
      exact linkInv_signal h hreader
  | lookFree c tv_usec => exact linkInv_register h htimely hstep
  | wake c => exact linkInv_wake h hstep
  | expire c =>
    simp only [Exchange.mayStep, Exchange.handled] at hmay
    split at hmay
    . next hidle =>
      have hline : ∀ m ∈ x.line, m.u16Type ≠ (exchangeArgs u16Type c).u16Type := by
        simpa using hmay
      simp only [Listeners.step] at hstep
      split at hstep
      . next i hwait => exact absurd hwait (h.not_waiting hex hidle hline i)
      . simp at hstep
    . simp at hmay
  | giveUp c =>
    simp only [Listeners.step] at hstep
    split at hstep
    . next i hcall =>
      rcases h.fine c with hidle | (hlook | ⟨j, hw | hs⟩) | ⟨len, p, hret⟩
      . simp [hcall] at hidle
      . simp [hcall] at hlook
      . simp [hcall] at hw
      . simp [hcall] at hs
      . simp [hcall] at hret
    . simp at hstep

theorem Extends.phase {x : Exchange} {link' : Listeners} (h : Extends x.link link')
    (hphase : Phase status response x)
    : Phase status response { x with link := link' } := by
  unfold Phase at hphase ⊢
  dsimp only
  split at hphase
  . simpa only [h.idle_iff] using hphase
  . simpa only [h.idle_iff, ne_eq] using hphase
  . obtain ⟨hstatus, hret, hidle⟩ := hphase
    exact ⟨hstatus, h.returned 0 hret, (h.idle_iff 1).mpr hidle⟩
  . obtain ⟨hstatus, hret, hbusy⟩ := hphase
    exact ⟨hstatus, h.returned 0 hret, (h.idle_iff 1).not.mpr hbusy⟩
  . obtain ⟨hstatus, hret, hret', k, hresult, hk⟩ := hphase
    exact ⟨hstatus, h.returned 0 hret, h.returned 1 hret', k, hresult, h.copies k _ hk⟩

theorem CallPc.ReturnedOk.not_underway {pc : CallPc} (h : pc.ReturnedOk) : ¬ pc.Underway := by
  obtain ⟨len, p, rfl⟩ := h
  exact CallPc.not_underway_returned _

theorem linkInv_start (h : LinkInv u16Type answers link line) {c : Nat} {link' : Listeners}
    (hc : c < 2) (hnone : ∀ c', ¬ (link.calls c').Underway)
    (hstep : link.step (exchangeArgs u16Type) heap (.wait c) = some link')
    : LinkInv u16Type answers link' line
        ∧ link'.calls = Function.update link.calls c (.look firstSlot)
        ∧ link'.rank = link.rank + 3 := by
  have hidle : link.calls c = .idle := by
    simp only [Listeners.step] at hstep
    split at hstep
    . next hidle => exact hidle
    . simp at hstep
  rw [Listeners.step_wait _ heap hidle] at hstep
  obtain rfl := Option.some.inj hstep
  have hother : ∀ c', c' ≠ c → Function.update link.calls c (.look firstSlot) c' = link.calls c' :=
    fun c' hne => Function.update_of_ne hne _ link.calls
  refine ⟨⟨?_, h.unlocked, h.answers_eq, h.first, ?_, ?_, ?_, ?_⟩, rfl, ?_⟩
  . exact Listeners.inv_move h.inv (Or.inl hidle) (Or.inr ⟨firstSlot, rfl⟩)
  . intro j hnobody
    apply h.free j
    intro c' hpark
    by_cases hne : c' = c
    . rw [hne, hidle] at hpark
      rcases hpark with hp | hp | hp <;> cases hp
    . have := hnobody c'
      simp only [hother c' hne] at this
      exact this hpark
  . intro c'
    by_cases hne : c' = c
    . subst hne
      simp only [Function.update_self]
      exact Or.inr (Or.inl CallPc.underway_look)
    . simp only [hother c' hne]
      exact h.fine c'
  . intro c₁ c₂ h₁ h₂
    have honly : ∀ c', (Function.update link.calls c (.look firstSlot) c').Underway → c' = c := by
      intro c' hc'
      by_contra hne
      rw [hother c' hne] at hc'
      exact hnone c' hc'
    rw [honly c₁ h₁, honly c₂ h₂]
  . intro c' hge
    have hne : c' ≠ c := by omega
    simp only [hother c' hne]
    exact h.two c' hge
  . rcases (by omega : c = 0 ∨ c = 1) with rfl | rfl
    . simp only [Listeners.rank, Function.update_self, hother 1 (by omega), hidle, CallPc.rank]
      omega
    . simp only [Listeners.rank, Function.update_self, hother 0 (by omega), hidle, CallPc.rank]

theorem LinkInv.not_underway (h : LinkInv u16Type answers link line)
    (h₀ : link.calls 0 = .idle ∨ (link.calls 0).ReturnedOk) (h₁ : link.calls 1 = .idle) (c : Nat)
    : ¬ (link.calls c).Underway := by
  have hidle : ∀ c, link.calls c = .idle → ¬ (link.calls c).Underway := by
    intro c hc
    rw [hc]
    exact CallPc.not_underway_idle
  rcases (by omega : c = 0 ∨ c = 1 ∨ 2 ≤ c) with rfl | rfl | hge
  . rcases h₀ with h₀ | h₀
    . exact hidle 0 h₀
    . exact h₀.not_underway
  . exact hidle 1 h₁
  . exact hidle c (h.two c hge)

theorem linkInv_read {m : Message} (h : LinkInv u16Type answers link (m :: line))
    {link' : Listeners}
    (hstep : link.step (exchangeArgs u16Type) heap (.queue m) = some link')
    : LinkInv u16Type answers link' line ∧ Extends link link' ∧ link'.rank = link.rank + 2 := by
  simp only [Listeners.step] at hstep
  split at hstep
  . next hidle =>
    obtain rfl := Option.some.inj hstep
    refine ⟨⟨?_, h.unlocked, ?_, ?_, h.free, h.fine, h.one, h.two⟩, ?_, ?_⟩
    . exact h.inv.read _ (by simp [hidle]) (by simp)
    . rw [h.answers_eq, hidle]
      simp [ReaderPc.reading]
    . intro m' i hlook
      cases hlook
      rfl
    . exact ⟨fun _ => Iff.rfl, fun _ hret => hret, fun _ _ hk => hk⟩
    . simp only [Listeners.rank, hidle, ReaderPc.rank]
      omega
  . simp at hstep

/--
The status that comes back is the one the node has sent.
-/
theorem LinkInv.sendResult_eq (h : LinkInv u16Type answers link line)
    (hex : IsExchange u16Type answers status response) (heap : Nat → Nat → UInt8) {result : WaitResult}
    (hret : link.calls 0 = .returned result)
    : (link.calls 0).ReturnedOk ∧ link.sendResult heap result = status.au8Message 0 := by
  rcases h.fine 0 with hidle | hunder | ⟨len, p, hok⟩
  . simp [hret] at hidle
  . rw [hret] at hunder
    exact absurd hunder (CallPc.not_underway_returned result)
  . obtain ⟨k, rfl, hans⟩ := h.inv.returned 0 len p hok
    obtain ⟨hk, -⟩ := h.eq_of_answers hex hans
    rw [hret] at hok
    cases hok
    refine ⟨hret ▸ ⟨len, .copy k, rfl⟩, ?_⟩
    have hlen : 0 < status.u16Length.toNat := by
      have := hex.status_length
      omega
    simp only [↓reduceIte] at hk
    simp only [Listeners.sendResult, Listeners.copyByte, hk, hlen, ↓reduceIte]

def SenderPc.rank : SenderPc → Nat
  | .writing => 16
  | .waitStatus => 12
  | .sent => 8
  | .waitResponse => 4
  | .received _ => 0

/--
A bound on the number of steps that are left.
-/
def Exchange.remaining (x : Exchange) : Nat :=
  x.sender.rank + 3 * x.line.length + x.link.rank

/--
A step in time keeps the answers and brings the end nearer.
-/
theorem inv_step {x x' : Exchange} {a : ExchangeAct}
    (hex : IsExchange u16Type answers status response)
    (h : LinkInv u16Type answers x.link x.line ∧ Phase status response x)
    (htimely : x.Timely u16Type a) (hstep : x.step u16Type heap a = some x')
    : (LinkInv u16Type answers x'.link x'.line ∧ Phase status response x')
        ∧ x'.remaining < x.remaining := by
  obtain ⟨hlink, hphase⟩ := h
  cases a with
  | written =>
    simp only [Exchange.step] at hstep
    split at hstep
    . next hsender =>
      obtain ⟨link', hwait, rfl⟩ := Option.map_eq_some_iff.mp hstep
      simp only [Phase, hsender] at hphase
      obtain ⟨hstatus, h₀, h₁⟩ := hphase
      obtain ⟨hlink', hcalls, hrank⟩ :=
        linkInv_start hlink (by omega) (hlink.not_underway (Or.inl h₀) h₁) hwait
      refine ⟨⟨hlink', ?_⟩, ?_⟩
      . simp [Phase, hcalls, hstatus, h₁]
      . simp only [Exchange.remaining, hrank, hsender, SenderPc.rank]
        omega
    . simp at hstep
  | sent =>
    simp only [Exchange.step] at hstep
    split at hstep
    . next result hsender hret =>
      obtain rfl := Option.some.inj hstep
      simp only [Phase, hsender] at hphase
      obtain ⟨hok, hres⟩ := hlink.sendResult_eq hex heap hret
      refine ⟨⟨hlink, by rw [hres], hok, hphase.2.2⟩, ?_⟩
      simp only [Exchange.remaining, hsender, SenderPc.rank]
      omega
    . simp at hstep
  | waitResponse =>
    simp only [Exchange.step] at hstep
    split at hstep
    . next hsender =>
      obtain ⟨link', hwait, rfl⟩ := Option.map_eq_some_iff.mp hstep
      simp only [Phase, hsender.1] at hphase
      obtain ⟨hstatus, h₀, h₁⟩ := hphase
      obtain ⟨hlink', hcalls, hrank⟩ :=
        linkInv_start hlink (by omega) (hlink.not_underway (Or.inr h₀) h₁) hwait
      refine ⟨⟨hlink', ?_⟩, ?_⟩
      . simp [Phase, hcalls, hstatus, h₀]
      . simp only [Exchange.remaining, hrank, hsender.1, SenderPc.rank]
        omega
    . simp at hstep
  | received =>
    simp only [Exchange.step] at hstep
    split at hstep
    . next result hsender hret =>
      obtain rfl := Option.some.inj hstep
      simp only [Phase, hsender] at hphase
      obtain ⟨hstatus, h₀, -⟩ := hphase
      refine ⟨⟨hlink, hstatus, h₀, ?_⟩, by simp only [Exchange.remaining, hsender, SenderPc.rank]; omega⟩
      rcases hlink.fine 1 with hidle | hunder | ⟨len, p, hok⟩
      . simp [hret] at hidle
      . rw [hret] at hunder
        exact absurd hunder (CallPc.not_underway_returned result)
      . refine ⟨⟨len, p, hok⟩, ?_⟩
        obtain ⟨k, rfl, hans⟩ := hlink.inv.returned 1 len p hok
        obtain ⟨hk, hlen⟩ := hlink.eq_of_answers hex hans
        rw [hret] at hok
        cases hok
        exact ⟨k, by simp [hlen], by simpa using hk⟩
    . simp at hstep
  | read =>
    simp only [Exchange.step] at hstep
    split at hstep
    . simp at hstep
    . simp at hstep
    . next m line hline hsender =>
      obtain ⟨link', hqueue, rfl⟩ := Option.map_eq_some_iff.mp hstep
      rw [hline] at hlink
      obtain ⟨hlink', hext, hrank⟩ := linkInv_read hlink hqueue
      refine ⟨⟨hlink', hext.phase hphase⟩, ?_⟩
      simp only [Exchange.remaining, hrank, hline, List.length_cons]
      omega
  | thread a =>
    simp only [Exchange.step] at hstep
    split at hstep
    . next hmay =>
      obtain ⟨link', hthread, rfl⟩ := Option.map_eq_some_iff.mp hstep
      obtain ⟨hlink', hext, hrank⟩ := linkInv_thread hlink hex htimely hmay hthread
      refine ⟨⟨hlink', hext.phase hphase⟩, ?_⟩
      simp only [Exchange.remaining]
      omega
    . simp at hstep

theorem inv_init (answers : List Message)
    : LinkInv u16Type answers (Exchange.init answers).link (Exchange.init answers).line
        ∧ Phase status response (.init answers) := by
  refine ⟨⟨Listeners.inv_init _, fun _ => rfl, rfl, ?_, fun _ _ => rfl, fun _ => Or.inl rfl, ?_,
    fun _ _ => rfl⟩, rfl, rfl, rfl⟩
  . intro m i hlook
    cases hlook
  . intro c c' hc _
    exact absurd hc CallPc.not_underway_idle

theorem Phase.correct {x : Exchange} (h : Phase status response x) : x.Correct status response := by
  unfold Phase at h
  split at h
  . next hsender => simp [Exchange.Correct, h, hsender]
  . next hsender => simp [Exchange.Correct, h, hsender]
  . next hsender => simp [Exchange.Correct, h, hsender]
  . next hsender => simp [Exchange.Correct, h, hsender]
  . next result hsender =>
    obtain ⟨hstatus, -, -, hresult⟩ := h
    refine ⟨?_, ?_⟩
    . simp [hstatus]
    . rintro result' hres
      rw [hsender] at hres
      cases hres
      exact hresult

theorem Exchange.step_thread {x : Exchange} {a : Act} {link' : Listeners}
    (hmay : x.mayStep u16Type a = true)
    (hstep : x.link.step (exchangeArgs u16Type) heap a = some link')
    : x.step u16Type heap (.thread a) = some { x with link := link' } := by
  simp only [Exchange.step, hmay, hstep, ↓reduceIte, Option.map_some]

/--
A call on its way can go on, or the reader thread can.
-/
theorem LinkInv.enabled {x : Exchange} (h : LinkInv u16Type answers x.link x.line)
    (hex : IsExchange u16Type answers status response) (heap : Nat → Nat → UInt8)
    (hsender : x.sender ≠ .writing) {c : Nat}
    (hcall : (x.link.calls c).Underway)
    : ∃ a, x.step u16Type heap a ≠ none := by
  rcases hcall with hlook | ⟨i, hwait | hsig⟩
  . have hfree := h.free firstSlot (fun c' => h.not_parked hlook c' firstSlot)
    have hnsec : timeoutNsec (exchangeArgs u16Type c).u32WaitTimeout 0 < 1000000000 := by
      have hrest := Nat.mod_lt (exchangeArgs u16Type c).u32WaitTimeout (by omega : 0 < 1000)
      unfold timeoutNsec
      dsimp only
      split <;> omega
    have hstep := Listeners.step_register _ heap hlook (h.unlocked firstSlot) hfree hnsec
    exact ⟨.thread (.lookFree c 0), by simp [Exchange.step_thread rfl hstep]⟩
  . cases hreader : x.link.reader with
    | look m j =>
      refine ⟨.thread (.lookSlot true), ?_⟩
      have hlock := h.unlocked j
      simp only [Exchange.step, Exchange.mayStep, Listeners.step, hreader, hlock,
        Bool.false_eq_true, ↓reduceIte, ne_eq, Option.map_eq_none_iff]
      split
      . simp
      . split <;> simp
    | broadcast j =>
      have hstep := Listeners.step_broadcast (exchangeArgs u16Type) heap hreader
      exact ⟨.thread .broadcast, by simp [Exchange.step_thread rfl hstep]⟩
    | idle =>
      cases hline : x.line with
      | nil => exact absurd hwait (h.not_waiting hex hreader (by simp [hline]) i)
      | cons m line =>
        refine ⟨.read, ?_⟩
        cases hs : x.sender with
        | writing => exact absurd hs hsender
        | waitStatus => simp [Exchange.step, Listeners.step, hs, hline, hreader]
        | sent => simp [Exchange.step, Listeners.step, hs, hline, hreader]
        | waitResponse => simp [Exchange.step, Listeners.step, hs, hline, hreader]
        | received result => simp [Exchange.step, Listeners.step, hs, hline, hreader]
  . have hstep := Listeners.step_wake (exchangeArgs u16Type) heap hsig (h.unlocked i)
    exact ⟨.thread (.wake c), by simp [Exchange.step_thread rfl hstep]⟩

/--
When no thread can go on the sending thread has finished.
-/
theorem finished_of_stuck {x : Exchange} (hex : IsExchange u16Type answers status response)
    (hlink : LinkInv u16Type answers x.link x.line) (hphase : Phase status response x)
    (hstuck : ∀ a, x.step u16Type heap a = none)
    : x.Finished := by
  have hgo : ∀ {c}, x.sender ≠ .writing → ¬ (x.link.calls c).Underway := by
    intro c hsender hcall
    obtain ⟨a, ha⟩ := hlink.enabled hex heap hsender hcall
    exact ha (hstuck a)
  cases hsender : x.sender with
  | writing =>
    simp only [Phase, hsender] at hphase
    have := hstuck .written
    simp [Exchange.step, hsender, Listeners.step_wait _ heap hphase.2.1] at this
  | waitStatus =>
    simp only [Phase, hsender] at hphase
    rcases hlink.fine 0 with hidle | hunder | ⟨len, p, hret⟩
    . exact absurd hidle hphase.2.1
    . exact absurd hunder (hgo (by simp [hsender]))
    . have := hstuck .sent
      simp [Exchange.step, hsender, hret] at this
  | sent =>
    simp only [Phase, hsender] at hphase
    refine Or.inl ⟨hsender, ?_⟩
    intro hok
    have := hstuck .waitResponse
    simp [Exchange.step, hsender, hok, Listeners.step_wait _ heap hphase.2.2] at this
  | waitResponse =>
    simp only [Phase, hsender] at hphase
    rcases hlink.fine 1 with hidle | hunder | ⟨len, p, hret⟩
    . exact absurd hidle hphase.2.2
    . exact absurd hunder (hgo (by simp [hsender]))
    . have := hstuck .received
      simp [Exchange.step, hsender, hret] at this
  | received result => exact Or.inr ⟨result, hsender⟩

end

/--
In a run whose steps are all in time the sending thread gets the status and the response and nothing
else, no run goes on for ever, and none ends before the thread has finished.
-/
theorem exchange_correct (u16Type : UInt16) (heap : Nat → Nat → UInt8) {answers : List Message}
    {status response : Message} (hex : IsExchange u16Type answers status response) {x : Exchange}
    (hrun : Reach (Exchange.step u16Type heap) (Exchange.Timely u16Type) (.init answers) x)
    : x.Correct status response
        ∧ ((∀ a, x.step u16Type heap a = none) → x.Finished)
        ∧ ∀ a x', x.Timely u16Type a → x.step u16Type heap a = some x' →
            x'.remaining < x.remaining := by
  have hinv : LinkInv u16Type answers x.link x.line ∧ Phase status response x := by
    apply Reach.inv _ hrun (inv_init answers)
    intro y a y' hy htimely hstep
    exact (inv_step hex hy htimely hstep).1
  refine ⟨hinv.2.correct, finished_of_stuck hex hinv.1 hinv.2, ?_⟩
  intro a x' htimely hstep
  exact (inv_step hex hinv htimely hstep).2

/--
The request for the neighbour table, its status, and the response.
-/
def lqiRequest : UInt16 := 0x004E

def lqiStatus : Message where
  u16Type := 0x8000
  u16Length := 4
  au8Message := fun i => if i = 3 then 0x4E else 0

def lqiResponse : Message where
  u16Type := 0x804E
  u16Length := 5
  au8Message := fun _ => 0

theorem isExchange_lqi {answers : List Message}
    (h : answers = [lqiStatus, lqiResponse] ∨ answers = [lqiResponse, lqiStatus])
    : IsExchange lqiRequest answers lqiStatus lqiResponse :=
  ⟨rfl, by decide, by decide, rfl, h⟩

/--
The status comes when its call waits.
-/
theorem exchange_correct_status
    : ∃ x : Exchange, x.eStatus = some 0 ∧ x.Correct lqiStatus lqiResponse := by
  have hrun : ∃ x : Exchange, x.eStatus = some 0
      ∧ Reach (Exchange.step lqiRequest zeroHeap) (Exchange.Timely lqiRequest)
        (.init [lqiStatus, lqiResponse]) x := by
    refine ⟨_, ?_, .head ⟨.written, trivial, rfl⟩
      (.head ⟨.thread (.lookFree 0 0), ?_,
          Exchange.step_thread rfl (Listeners.step_register _ _ rfl rfl rfl (by decide))⟩
        (.head ⟨.read, trivial, rfl⟩
          (.head ⟨.thread (.lookSlot true), ⟨rfl, ?_⟩,
              Exchange.step_thread rfl (Listeners.step_take _ _ rfl rfl rfl)⟩
            (.head ⟨.thread .broadcast, trivial,
                Exchange.step_thread rfl (Listeners.step_broadcast _ _ rfl)⟩
              (.head ⟨.thread (.wake 0), trivial,
                  Exchange.step_thread rfl (Listeners.step_wake _ _ rfl rfl)⟩
                (.single ⟨.sent, trivial, rfl⟩))))))⟩
    . rfl
    . change timeoutNsec 500 0 < 1000000000
      decide
    . intro m i hreader
      cases hreader
      exact ⟨0, rfl, rfl⟩
  obtain ⟨x, hstatus, hreach⟩ := hrun
  exact ⟨x, hstatus,
    (exchange_correct lqiRequest zeroHeap (isExchange_lqi (Or.inl rfl)) hreach).1⟩

/--
The status comes before its call has taken a slot, and is thrown away.
-/
theorem exchange_status_lost
    : ¬ ∀ (u16Type : UInt16) (heap : Nat → Nat → UInt8) (answers : List Message)
        (status response : Message) (x : Exchange),
        IsExchange u16Type answers status response →
        Reach (Exchange.step u16Type heap) (fun _ _ => True) (.init answers) x →
        x.Correct status response := by
  intro h
  obtain ⟨x, hx⟩ : ∃ x, [.written, .read, .thread (.lookSlot true), .thread (.lookSlot true),
      .thread (.lookSlot true), .thread (.lookFree 0 0), .thread (.expire 0), .thread (.giveUp 0),
      .sent].foldlM (Exchange.step lqiRequest zeroHeap) (.init [lqiStatus, lqiResponse]) = some x :=
    ⟨_, rfl⟩
  have hstatus : x.eStatus = some Status.noMessage.toUInt8 := by
    obtain rfl := Option.some.inj hx
    rfl
  have hcorrect := h lqiRequest zeroHeap _ lqiStatus lqiResponse x (isExchange_lqi (Or.inl rfl))
    (reach_of_foldlM (fun _ _ => trivial) hx)
  exact absurd (hcorrect.1 _ hstatus) (by decide)

end SerialLink
