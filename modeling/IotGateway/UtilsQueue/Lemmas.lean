import IotGateway.Lib.Machine
import IotGateway.Lib.Ring
import IotGateway.UtilsQueue.Impl

/-!
This module contains the proof that the queue is first in first out for all threads together.
-/

namespace UtilsQueue

variable {α : Type}

/--
The stored items.
-/
def QueuePrivate.contents (q : QueuePrivate α) : List α :=
  Ring.window q.apvBuffer q.u32Capacity.toNat q.u32Out.toNat q.u32Size.toNat

structure QueuePrivate.Inv (q : QueuePrivate α) : Prop where
  pos : 0 < q.u32Capacity.toNat
  size : q.u32Size.toNat ≤ q.u32Capacity.toNat
  inSlot : q.u32In.toNat = (q.u32Out.toNat + q.u32Size.toNat) % q.u32Capacity.toNat
  outSlot : q.u32Out.toNat < q.u32Capacity.toNat

namespace QueuePrivate

theorem inv_create {apvBuffer : Nat → α} {u32MaxCapacity : UInt32}
    {nonblockInput nonblockOutput : Bool} (hcap : 1 ≤ u32MaxCapacity)
    : (eUtils_QueueCreate apvBuffer u32MaxCapacity nonblockInput nonblockOutput).Inv := by
  have hpos : 0 < u32MaxCapacity.toNat := UInt32.le_iff_toNat_le.mp hcap
  exact ⟨hpos, Nat.zero_le _, (Nat.zero_mod _).symm, hpos⟩

variable {q : QueuePrivate α}

/--
The slot after a slot, which does not overflow.
-/
theorem next_toNat {slot u32Capacity : UInt32} (h : slot.toNat < u32Capacity.toNat)
    : ((slot + 1) % u32Capacity).toNat = (slot.toNat + 1) % u32Capacity.toNat := by
  have hlt := u32Capacity.toNat_lt
  have hone : (1 : UInt32).toNat = 1 := rfl
  rw [UInt32.toNat_mod, UInt32.toNat_add, hone, Nat.mod_eq_of_lt (b := 2 ^ 32)]
  omega

theorem Inv.inSlot_lt (h : q.Inv) : q.u32In.toNat < q.u32Capacity.toNat := by
  rw [h.inSlot]
  exact Nat.mod_lt _ h.pos

theorem Inv.size_lt (h : q.Inv) (hspace : q.u32Size ≠ q.u32Capacity)
    : q.u32Size.toNat < q.u32Capacity.toNat := by
  have hne : q.u32Size.toNat ≠ q.u32Capacity.toNat := fun heq => hspace (UInt32.toNat_inj.mp heq)
  have hle := h.size
  omega

theorem Inv.size_put (h : q.Inv) (hspace : q.u32Size ≠ q.u32Capacity) (pvData : α)
    : (q.put pvData).u32Size.toNat = q.u32Size.toNat + 1 := by
  have hlt := h.size_lt hspace
  have hcap := q.u32Capacity.toNat_lt
  have hone : (1 : UInt32).toNat = 1 := rfl
  rw [put, UInt32.toNat_add, hone, Nat.mod_eq_of_lt]
  omega

theorem size_take (hdata : q.u32Size ≠ 0) : q.take.u32Size.toNat + 1 = q.u32Size.toNat := by
  have hone : (1 : UInt32).toNat = 1 := rfl
  have hne : q.u32Size.toNat ≠ 0 := fun heq => hdata (UInt32.toNat_inj.mp heq)
  have hle : (1 : UInt32) ≤ q.u32Size := by
    rw [UInt32.le_iff_toNat_le, hone]
    omega
  rw [take, UInt32.toNat_sub_of_le _ _ hle, hone]
  omega

theorem Inv.put (h : q.Inv) (hspace : q.u32Size ≠ q.u32Capacity) (pvData : α)
    : (q.put pvData).Inv := by
  have hlt := h.size_lt hspace
  constructor
  . exact h.pos
  . rw [h.size_put hspace]
    exact hlt
  . rw [h.size_put hspace]
    show ((q.u32In + 1) % q.u32Capacity).toNat = _
    rw [next_toNat h.inSlot_lt, h.inSlot, Nat.mod_add_mod]
    rfl
  . exact h.outSlot

theorem Inv.take (h : q.Inv) (hdata : q.u32Size ≠ 0) : q.take.Inv := by
  have hsize := size_take hdata
  have hout : q.take.u32Out.toNat = (q.u32Out.toNat + 1) % q.u32Capacity.toNat :=
    next_toNat h.outSlot
  constructor
  . exact h.pos
  . have hle := h.size
    show q.take.u32Size.toNat ≤ q.u32Capacity.toNat
    omega
  . show q.u32In.toNat = (q.take.u32Out.toNat + q.take.u32Size.toNat) % q.u32Capacity.toNat
    rw [hout, Nat.mod_add_mod, h.inSlot]
    congr 1
    omega
  . show q.take.u32Out.toNat < q.u32Capacity.toNat
    rw [hout]
    exact Nat.mod_lt _ h.pos

theorem Inv.contents_put (h : q.Inv) (hspace : q.u32Size ≠ q.u32Capacity) (pvData : α)
    : (q.put pvData).contents = q.contents ++ [pvData] := by
  unfold contents
  rw [h.size_put hspace]
  show Ring.window (Function.update q.apvBuffer q.u32In.toNat pvData) _ _ _ = _
  rw [h.inSlot]
  exact Ring.window_push pvData (h.size_lt hspace)

theorem Inv.contents_take (h : q.Inv) (hdata : q.u32Size ≠ 0)
    : q.contents = q.head :: q.take.contents := by
  have hout : q.take.u32Out.toNat = (q.u32Out.toNat + 1) % q.u32Capacity.toNat :=
    next_toNat h.outSlot
  unfold contents
  show _ = q.head :: Ring.window q.apvBuffer q.u32Capacity.toNat q.take.u32Out.toNat
    q.take.u32Size.toNat
  rw [hout, Ring.window_mod, ← size_take hdata, Ring.window_cons, Nat.mod_eq_of_lt h.outSlot]
  rfl

end QueuePrivate

/--
The call has stored its item, or got one.
-/
def CallPc.Done : CallPc α → Prop
  | .broadcast _ => True
  | .returned eStatus => eStatus = .ok
  | _ => False

/--
The calls that have stored an item, and those that have got one.
-/
def State.users (s : State α) : List Nat := s.enqueued.map Prod.fst ++ s.dequeued.map Prod.fst

structure State.Inv (s : State α) : Prop where
  q : s.q.Inv
  fifo : s.enqueued.map Prod.snd = s.dequeued.map Prod.snd ++ s.q.contents
  done : ∀ c, c ∈ s.users ↔ (s.calls c).Done
  once : s.users.Nodup

namespace State

theorem inv_create {q : QueuePrivate α} (h : q.Inv) (hempty : q.contents = [])
    : (State.create q).Inv := by
  constructor
  . exact h
  . exact hempty.symm
  . intro c
    exact ⟨fun hmem => absurd hmem (List.not_mem_nil), False.elim⟩
  . exact List.nodup_nil

variable {s : State α} {c : Nat}

@[simp]
theorem goto_calls_self (pc : CallPc α) : (s.goto c pc).calls c = pc := Function.update_self _ _ _

theorem goto_calls_of_ne {c' : Nat} (hne : c' ≠ c) (pc : CallPc α)
    : (s.goto c pc).calls c' = s.calls c' :=
  Function.update_of_ne hne _ _

/--
A call goes on without an item.
-/
theorem Inv.goto (h : s.Inv) {pc : CallPc α} (hpc : pc.Done ↔ (s.calls c).Done)
    : (s.goto c pc).Inv := by
  constructor
  . exact h.q
  . exact h.fifo
  . intro c'
    refine (h.done c').trans ?_
    by_cases hc : c' = c
    . rw [hc, goto_calls_self]
      exact hpc.symm
    . rw [goto_calls_of_ne hc]
  . exact h.once

theorem done_goto {users : List Nat} (hdone : ∀ c', c' ∈ users ↔ (s.calls c').Done)
    (request : Request α) (c' : Nat)
    : c' = c ∨ c' ∈ users ↔ ((s.goto c (.broadcast request)).calls c').Done := by
  by_cases hc : c' = c
  . rw [hc, goto_calls_self]
    exact ⟨fun _ => trivial, fun _ => Or.inl rfl⟩
  . rw [goto_calls_of_ne hc, ← hdone c']
    exact or_iff_right hc

theorem Inv.put (h : s.Inv) (hspace : s.q.u32Size ≠ s.q.u32Capacity) (hc : ¬(s.calls c).Done)
    (pvData : α) (request : Request α)
    : ((s.put c pvData).goto c (.broadcast request)).Inv := by
  have husers : ((s.put c pvData).goto c (.broadcast request)).users.Perm (c :: s.users) := by
    show (List.map Prod.fst (s.enqueued ++ [(c, pvData)]) ++ _).Perm _
    rw [List.map_append, List.append_assoc]
    exact List.perm_middle
  constructor
  . exact h.q.put hspace pvData
  . show List.map Prod.snd (s.enqueued ++ [(c, pvData)]) = _ ++ (s.q.put pvData).contents
    rw [List.map_append, h.fifo, h.q.contents_put hspace, List.append_assoc]
    rfl
  . intro c'
    rw [husers.mem_iff, List.mem_cons]
    exact done_goto h.done request c'
  . rw [husers.nodup_iff, List.nodup_cons, h.done]
    exact ⟨hc, h.once⟩

theorem Inv.take (h : s.Inv) (hdata : s.q.u32Size ≠ 0) (hc : ¬(s.calls c).Done)
    (request : Request α)
    : ((s.take c).goto c (.broadcast request)).Inv := by
  have husers : ((s.take c).goto c (.broadcast request)).users.Perm (c :: s.users) := by
    show (_ ++ List.map Prod.fst (s.dequeued ++ [(c, s.q.head)])).Perm _
    rw [List.map_append, ← List.append_assoc]
    exact List.perm_append_singleton _ _
  constructor
  . exact h.q.take hdata
  . show List.map Prod.snd s.enqueued
        = List.map Prod.snd (s.dequeued ++ [(c, s.q.head)]) ++ s.q.take.contents
    rw [List.map_append, h.fifo, h.q.contents_take hdata, List.append_assoc]
    rfl
  . intro c'
    rw [husers.mem_iff, List.mem_cons]
    exact done_goto h.done request c'
  . rw [husers.nodup_iff, List.nodup_cons, h.done]
    exact ⟨hc, h.once⟩

theorem Inv.enter (h : s.Inv) (hc : ¬(s.calls c).Done) (request : Request α)
    : (s.enter c request).Inv := by
  have hblock : ∀ nonblock : Bool,
      ¬(if nonblock then CallPc.returned .block else .waiting request).Done := by
    rintro (_ | _)
    . exact False.elim
    . rintro ⟨⟩
  cases request with
  | queue pvData =>
    simp only [State.enter]
    split
    . exact h.goto (iff_of_false (hblock _) hc)
    . next hspace => exact h.put hspace hc pvData _
  | dequeue =>
    simp only [State.enter]
    split
    . exact h.goto (iff_of_false (hblock _) hc)
    . next hdata => exact h.take hdata hc _
  | dequeueTimed =>
    simp only [State.enter]
    split
    . exact h.goto (iff_of_false not_false hc)
    . next hdata => exact h.take hdata hc _

theorem done_wake (cond : Cond) (pc : CallPc α) : (pc.wake cond).Done ↔ pc.Done := by
  cases pc with
  | waiting request =>
    simp only [CallPc.wake]
    split
    . exact Iff.rfl
    . exact Iff.rfl
  | _ => exact Iff.rfl

theorem Inv.wakeAll (h : s.Inv) (cond : Cond)
    : ({ s with calls := fun c => (s.calls c).wake cond } : State α).Inv := by
  constructor
  . exact h.q
  . exact h.fifo
  . intro c
    exact (h.done c).trans (done_wake cond _).symm
  . exact h.once

/--
Every step of every call keeps the invariant.
-/
theorem Inv.next (h : s.Inv) (e : Event α) : (s.next e).Inv := by
  unfold State.next
  split
  . next c request hpc =>
    rw [Event.of] at hpc
    exact h.enter (by rw [hpc]; exact not_false) request
  . next c request hpc =>
    rw [Event.of] at hpc
    exact h.goto (by rw [hpc]; exact Iff.rfl)
  . next c request hpc =>
    rw [Event.of] at hpc
    exact h.enter (by rw [hpc]; exact not_false) request
  . next c timedOut hpc =>
    rw [Event.of] at hpc
    refine h.goto (iff_of_false ?_ (by rw [hpc]; exact not_false))
    cases timedOut with
    | false => rintro ⟨⟩
    | true => rintro ⟨⟩
  . next c request hpc =>
    rw [Event.of] at hpc
    refine (h.wakeAll request.broadcasts).goto (iff_of_true rfl ?_)
    rw [done_wake, hpc]
    trivial
  . exact h

theorem enter_q (s : State α) (c : Nat) (request : Request α)
    : (s.enter c request).q = s.q ∨
        (s.enter c request).q.u32Capacity = s.q.u32Capacity ∧ c ∈ (s.enter c request).users := by
  have hput : ∀ pvData, c ∈ ((s.put c pvData).goto c (.broadcast request)).users := fun pvData =>
    List.mem_append_left _ (List.mem_map.mpr ⟨(c, pvData), List.mem_append_right _ (.head _), rfl⟩)
  have htake : c ∈ ((s.take c).goto c (.broadcast request)).users :=
    List.mem_append_right _
      (List.mem_map.mpr ⟨(c, s.q.head), List.mem_append_right _ (.head _), rfl⟩)
  cases request with
  | queue pvData =>
    simp only [State.enter]
    split
    . exact Or.inl rfl
    . exact Or.inr ⟨rfl, hput pvData⟩
  | dequeue =>
    simp only [State.enter]
    split
    . exact Or.inl rfl
    . exact Or.inr ⟨rfl, htake⟩
  | dequeueTimed =>
    simp only [State.enter]
    split
    . exact Or.inl rfl
    . exact Or.inr ⟨rfl, htake⟩

/--
A step leaves the queue as it is, or its call has not had an item before and has one then.
-/
theorem Inv.next_q (h : s.Inv) (e : Event α)
    : (s.next e).q = s.q ∨
        (s.next e).q.u32Capacity = s.q.u32Capacity
          ∧ e.of ∉ s.users ∧ e.of ∈ (s.next e).users := by
  have henter : ∀ c request, ¬(s.calls c).Done →
      (s.enter c request).q = s.q ∨
        (s.enter c request).q.u32Capacity = s.q.u32Capacity
          ∧ c ∉ s.users ∧ c ∈ (s.enter c request).users := by
    intro c request hc
    rcases enter_q s c request with hq | ⟨hcap, huser⟩
    . exact Or.inl hq
    . exact Or.inr ⟨hcap, fun hmem => hc ((h.done c).mp hmem), huser⟩
  unfold State.next
  split
  . next c request hpc =>
    rw [Event.of] at hpc
    exact henter c request (by rw [hpc]; exact not_false)
  . exact Or.inl rfl
  . next c request hpc =>
    rw [Event.of] at hpc
    exact henter c request (by rw [hpc]; exact not_false)
  . exact Or.inl rfl
  . exact Or.inl rfl
  . exact Or.inl rfl

end State

/--
What holds between the calls and the queue of `u32MaxCapacity` items.
-/
structure State.Fifo (s : State α) (u32MaxCapacity : UInt32) : Prop where
  items : s.enqueued.map Prod.snd = s.dequeued.map Prod.snd ++ s.q.contents
  stored : s.q.contents.length = s.q.u32Size.toNat
  bounded : s.q.u32Size ≤ u32MaxCapacity
  ok : ∀ c, s.calls c = .returned .ok → c ∈ s.users
  once : s.users.Nodup
  -- A call that returns an error is not among those that have changed what is stored
  error : ∀ c eStatus, s.calls c = .returned eStatus → eStatus ≠ .ok → c ∉ s.users
  change : ∀ e, (s.next e).q.contents ≠ s.q.contents → e.of ∉ s.users ∧ e.of ∈ (s.next e).users

theorem State.Inv.holds {s : State α} (h : s.Inv) : s.Fifo s.q.u32Capacity := by
  constructor
  . exact h.fifo
  . exact Ring.length_window _ _ _ _
  . exact UInt32.le_iff_toNat_le.mpr h.q.size
  . intro c hc
    rw [h.done, hc]
    rfl
  . exact h.once
  . intro c eStatus hc hne
    rw [h.done, hc]
    exact hne
  . intro e hne
    rcases h.next_q e with hq | ⟨-, hbefore, hafter⟩
    . exact absurd (congrArg QueuePrivate.contents hq) hne
    . exact ⟨hbefore, hafter⟩

/--
The machine emits nothing.
-/
def step (s : State α) (e : Event α) : State α × List Unit := (s.next e, [])

/--
Along every interleaving of any number of calls the queue is first in first out.
-/
theorem fifo_exec (apvBuffer : Nat → α) (u32MaxCapacity : UInt32) (hcap : 1 ≤ u32MaxCapacity)
    (nonblockInput nonblockOutput : Bool) (events : List (Event α))
    : (Machine.exec step
        (.create (eUtils_QueueCreate apvBuffer u32MaxCapacity nonblockInput nonblockOutput))
        events).Fifo u32MaxCapacity := by
  have hstep : ∀ (s : State α) (e : Event α), s.Inv ∧ s.q.u32Capacity = u32MaxCapacity →
      (step s e).1.Inv ∧ (step s e).1.q.u32Capacity = u32MaxCapacity := by
    rintro s e ⟨hinv, hcapacity⟩
    refine ⟨hinv.next e, ?_⟩
    rcases hinv.next_q e with hq | ⟨hsame, -⟩
    . exact (congrArg QueuePrivate.u32Capacity hq).trans hcapacity
    . exact hsame.trans hcapacity
  obtain ⟨hinv, hcapacity⟩ := Machine.inv_exec_all step hstep events
    (And.intro (State.inv_create (QueuePrivate.inv_create hcap) rfl) rfl)
  have hfifo := hinv.holds
  rw [hcapacity] at hfifo
  exact hfifo

/--
A consumer waits, is woken by a producer and gets its item.
-/
theorem fifo_exec_handover
    : (1 : UInt32) ≤ 2 ∧
        (Machine.exec step
          (.create (eUtils_QueueCreate (fun _ => 0) 2 false false))
          [.call 0 .dequeue, .call 1 (.queue 7), .broadcast 1, .resume 0, .broadcast 0]).Fifo 2 :=
  ⟨by decide, fifo_exec (fun _ => 0) 2 (by decide) false false
    [.call 0 .dequeue, .call 1 (.queue 7), .broadcast 1, .resume 0, .broadcast 0]⟩

end UtilsQueue
