import IotGateway.Dbp.Impl
import IotGateway.Lib.Machine
import IotGateway.Lib.Slots

/-!
This module says which steps keep the connection table right. A connection is only given up properly
by a close command, and a handler has to read its argument before the next connection comes.
-/

namespace Dbp

open Machine Table

/--
The descriptor is held by the thread that accepts connections, and is not in the table yet.
-/
def Acceptor.Holds (socket_fd : Int) : Acceptor → Prop
  | .getIndex fd | .add fd _ => fd = socket_fd
  | .accept | .create _ _ | .sleep _ => False

/--
What the table is to be, whatever the threads do.
-/
structure Correct (s : State) : Prop where
  placed : ∀ fd ∈ s.fds, ¬ s.acceptor.Holds fd → ∃! i, s.connection.sock_fd i = fd
  conn_number : s.connection.conn_number = (occupied 0 s.connection.sock_fd).card
  connected : s.connection.connected = true ↔ 0 < s.connection.conn_number
  serves : ∀ t own index socket_fd,
    s.handlers t = some { own, pc := .recv index socket_fd } → socket_fd = own

/--
A descriptor that is still in the table is not given to a new connection, there is a free slot for
each connection, a handler has read its argument when the next connection is accepted, and it is
ended by a close command.
-/
def Permitted (s : State) (e : Event) : Prop :=
  match e with
  | .accept socket_fd => ∀ i, s.connection.sock_fd i ≠ socket_fd
  | .getIndex => ∃ i, s.connection.sock_fd i = 0
  | .wake => ∀ t < s.numHandlers, ∀ handler ∈ s.handlers t, handler.pc ≠ .started
  | .recv _ received => received = .close ∨ received = .message
  | _ => True

/--
The slot `i` is that of the handler.
-/
structure Handler.At (s : State) (handler : Handler) (i : Fin MAX_NUM_OF_CONN) : Prop where
  own : s.connection.sock_fd i = handler.own
  nonzero : handler.own ≠ 0
  started : handler.pc = .started → s.acceptor = .sleep i
  getSocket : ∀ index, handler.pc = .getSocket index → index = (i : Nat)
  recv : ∀ index socket_fd, handler.pc = .recv index socket_fd →
    index = (i : Nat) ∧ socket_fd = handler.own
  remove : ∀ index, handler.pc = .remove index → index = (i : Nat) ∧ handler.own ∉ s.fds

/--
The handler has not ended, or given up its slot.
-/
def State.Live (s : State) (t : Nat) (handler : Handler) : Prop :=
  s.handlers t = some handler ∧ handler.pc ≠ .ended

section

variable {s : State} {own : Int} {i : Fin MAX_NUM_OF_CONN}
  (hown : s.connection.sock_fd i = own) (hnonzero : own ≠ 0)

include hown hnonzero

theorem at_started (hacceptor : s.acceptor = .sleep i) : Handler.At s ⟨own, .started⟩ i where
  own := hown
  nonzero := hnonzero
  started _ := hacceptor
  getSocket _ hpc := HandlerPc.noConfusion hpc
  recv _ _ hpc := HandlerPc.noConfusion hpc
  remove _ hpc := HandlerPc.noConfusion hpc

theorem at_getSocket {index : Int} (hindex : index = (i : Nat))
    : Handler.At s ⟨own, .getSocket index⟩ i where
  own := hown
  nonzero := hnonzero
  started hpc := HandlerPc.noConfusion hpc
  getSocket _ hpc := HandlerPc.getSocket.inj hpc ▸ hindex
  recv _ _ hpc := HandlerPc.noConfusion hpc
  remove _ hpc := HandlerPc.noConfusion hpc

theorem at_recv {index socket_fd : Int} (hindex : index = (i : Nat)) (hfd : socket_fd = own)
    : Handler.At s ⟨own, .recv index socket_fd⟩ i where
  own := hown
  nonzero := hnonzero
  started hpc := HandlerPc.noConfusion hpc
  getSocket _ hpc := HandlerPc.noConfusion hpc
  recv _ _ hpc := by
    cases hpc
    exact ⟨hindex, hfd⟩
  remove _ hpc := HandlerPc.noConfusion hpc

theorem at_remove {index : Int} (hindex : index = (i : Nat)) (hclosed : own ∉ s.fds)
    : Handler.At s ⟨own, .remove index⟩ i where
  own := hown
  nonzero := hnonzero
  started hpc := HandlerPc.noConfusion hpc
  getSocket _ hpc := HandlerPc.noConfusion hpc
  recv _ _ hpc := HandlerPc.noConfusion hpc
  remove _ hpc := HandlerPc.remove.inj hpc ▸ ⟨hindex, hclosed⟩

end

structure Inv (s : State) : Prop where
  unique : ∀ i j, s.connection.sock_fd i ≠ 0 → s.connection.sock_fd j = s.connection.sock_fd i →
    j = i
  conn_number : s.connection.conn_number = (occupied 0 s.connection.sock_fd).card
  connected : s.connection.connected = true ↔ 0 < s.connection.conn_number
  nonzero : ∀ fd ∈ s.fds, fd ≠ 0
  placed : ∀ fd ∈ s.fds, s.acceptor.Holds fd ∨ ∃ i, s.connection.sock_fd i = fd
  held : ∀ fd, s.acceptor.Holds fd → fd ≠ 0 ∧ ∀ i, s.connection.sock_fd i ≠ fd
  free : ∀ fd i, s.acceptor = .add fd i → s.connection.sock_fd i = 0 ∧ s.index = (i : Nat)
  created : ∀ fd i, s.acceptor = .create fd i → s.connection.sock_fd i = fd ∧ fd ≠ 0
    ∧ s.index = (i : Nat) ∧ ∀ t handler, s.Live t handler → handler.own ≠ fd
  slept : ∀ i, s.acceptor = .sleep i → s.index = (i : Nat)
  fresh : ∀ t ≥ s.numHandlers, s.handlers t = none
  handlers : ∀ t handler, s.Live t handler → ∃ i, handler.At s i
  distinct : ∀ t t' handler handler', s.Live t handler → s.Live t' handler' →
    handler.own = handler'.own → t = t'

section

variable {s : State} {t t' : Nat} {own : Int} {pc : HandlerPc}

theorem goto_handlers_self : (s.goto t own pc).handlers t = some { own, pc } := by
  simp only [State.goto, Function.update_self]

theorem goto_handlers_of_ne (ht : t' ≠ t) : (s.goto t own pc).handlers t' = s.handlers t' := by
  simp only [State.goto, Function.update_of_ne ht]

end

section

variable {s : State} (h : Inv s)

include h

theorem Inv.correct : Correct s where
  placed fd hfd hheld := by
    obtain ⟨i, hi⟩ := (h.placed fd hfd).resolve_left hheld
    refine ⟨i, hi, ?_⟩
    intro j hj
    apply h.unique
    . rw [hi]
      exact h.nonzero fd hfd
    . rw [hj, hi]
  conn_number := h.conn_number
  connected := h.connected
  serves t own index socket_fd hpc := by
    obtain ⟨i, hat⟩ := h.handlers t _ ⟨hpc, HandlerPc.noConfusion⟩
    exact (hat.recv index socket_fd rfl).2

/--
A handler goes on, with the same slot.
-/
theorem Inv.goto {t : Nat} {own : Int} {pc pc' : HandlerPc} (hpc : s.handlers t = some ⟨own, pc⟩)
    (hlive : pc ≠ .ended) (hat : pc' ≠ .ended → ∃ i, Handler.At s ⟨own, pc'⟩ i)
    : Inv (s.goto t own pc') := by
  have hback {t' : Nat} {handler' : Handler} (hlive' : (s.goto t own pc').Live t' handler')
      : (∃ handler, s.Live t' handler ∧ handler.own = handler'.own)
        ∧ ∃ i, handler'.At s i := by
    obtain ⟨hpc', hne⟩ := hlive'
    by_cases ht : t' = t
    . rw [ht, goto_handlers_self] at hpc'
      obtain rfl := Option.some.inj hpc'
      rw [ht]
      exact ⟨⟨⟨own, pc⟩, ⟨hpc, hlive⟩, rfl⟩, hat hne⟩
    . rw [goto_handlers_of_ne ht] at hpc'
      exact ⟨⟨handler', ⟨hpc', hne⟩, rfl⟩, h.handlers t' handler' ⟨hpc', hne⟩⟩
  constructor
  . exact h.unique
  . exact h.conn_number
  . exact h.connected
  . exact h.nonzero
  . exact h.placed
  . exact h.held
  . exact h.free
  . intro fd i hacceptor
    obtain ⟨hslot, hne, hindex, hfree⟩ := h.created fd i hacceptor
    refine ⟨hslot, hne, hindex, ?_⟩
    intro t' handler' hlive'
    obtain ⟨⟨handler, hhandler, hown⟩, -⟩ := hback hlive'
    rw [← hown]
    exact hfree t' handler hhandler
  . exact h.slept
  . intro t' ht'
    by_cases heq : t' = t
    . rw [h.fresh t (heq ▸ ht')] at hpc
      cases hpc
    . rw [goto_handlers_of_ne heq]
      exact h.fresh t' ht'
  . intro t' handler' hlive'
    obtain ⟨i, hslot⟩ := (hback hlive').2
    exact ⟨i, hslot.own, hslot.nonzero, hslot.started, hslot.getSocket, hslot.recv, hslot.remove⟩
  . intro t₁ t₂ handler₁ handler₂ hlive₁ hlive₂ hown
    obtain ⟨⟨handler₁', hlive₁', hown₁⟩, -⟩ := hback hlive₁
    obtain ⟨⟨handler₂', hlive₂', hown₂⟩, -⟩ := hback hlive₂
    exact h.distinct t₁ t₂ handler₁' handler₂' hlive₁' hlive₂' (by rw [hown₁, hown₂, hown])

/--
The thread that accepts connections goes on, and leaves the table as it is.
-/
theorem Inv.accepts {acceptor : Acceptor} {index : Int} {fds : List Int}
    (hnonzero : ∀ fd ∈ fds, fd ≠ 0)
    (hplaced : ∀ fd ∈ fds, acceptor.Holds fd ∨ ∃ i, s.connection.sock_fd i = fd)
    (hheld : ∀ fd, acceptor.Holds fd → fd ≠ 0 ∧ ∀ i, s.connection.sock_fd i ≠ fd)
    (hphase : acceptor = .accept ∨ (∃ fd, acceptor = .getIndex fd)
      ∨ ∃ fd i, acceptor = .add fd i ∧ s.connection.sock_fd i = 0 ∧ index = (i : Nat))
    (hstarted : ∀ t handler, s.Live t handler → handler.pc ≠ .started)
    (hremove : ∀ t handler index, s.Live t handler → handler.pc = .remove index →
      handler.own ∉ fds)
    : Inv { s with acceptor, index, fds } where
  unique := h.unique
  conn_number := h.conn_number
  connected := h.connected
  nonzero := hnonzero
  placed := hplaced
  held := hheld
  free fd i hadd := by
    rcases hphase with rfl | ⟨fd', rfl⟩ | ⟨fd', j, rfl, hfree⟩
    . cases hadd
    . cases hadd
    . cases hadd
      exact hfree
  created fd i hcreate := by
    rcases hphase with rfl | ⟨fd', rfl⟩ | ⟨fd', j, rfl, -⟩ <;> cases hcreate
  slept i hsleep := by
    rcases hphase with rfl | ⟨fd', rfl⟩ | ⟨fd', j, rfl, -⟩ <;> cases hsleep
  fresh := h.fresh
  handlers t handler hlive := by
    obtain ⟨i, hat⟩ := h.handlers t handler hlive
    exact ⟨i, hat.own, hat.nonzero, fun hpc => absurd hpc (hstarted t handler hlive), hat.getSocket,
      hat.recv, fun index hpc => ⟨(hat.remove index hpc).1, hremove t handler index hlive hpc⟩⟩
  distinct := h.distinct

theorem Inv.checked (checked : Nat → Bool) : Inv { s with checked } where
  unique := h.unique
  conn_number := h.conn_number
  connected := h.connected
  nonzero := h.nonzero
  placed := h.placed
  held := h.held
  free := h.free
  created := h.created
  slept := h.slept
  fresh := h.fresh
  handlers t handler hlive := by
    obtain ⟨i, hat⟩ := h.handlers t handler hlive
    exact ⟨i, hat.own, hat.nonzero, hat.started, hat.getSocket, hat.recv, hat.remove⟩
  distinct := h.distinct

omit h in
theorem mem_close {fd fd' : Int} : fd' ∈ s.fds.filter (· ≠ fd) ↔ fd' ∈ s.fds ∧ fd' ≠ fd := by
  rw [List.mem_filter, decide_eq_true_eq]

theorem Inv.close (fd : Int) : Inv { s with fds := s.fds.filter (· ≠ fd) } where
  unique := h.unique
  conn_number := h.conn_number
  connected := h.connected
  nonzero fd' hfd' := h.nonzero fd' (mem_close.mp hfd').1
  placed fd' hfd' := h.placed fd' (mem_close.mp hfd').1
  held := h.held
  free := h.free
  created := h.created
  slept := h.slept
  fresh := h.fresh
  handlers t handler hlive := by
    obtain ⟨i, hat⟩ := h.handlers t handler hlive
    exact ⟨i, hat.own, hat.nonzero, hat.started, hat.getSocket, hat.recv, fun index hpc =>
      ⟨(hat.remove index hpc).1, fun hmem => (hat.remove index hpc).2 (mem_close.mp hmem).1⟩⟩
  distinct := h.distinct

/--
A handler that has not read its argument is that of the connection accepted last.
-/
theorem Inv.not_started (hacceptor : ∀ i, s.acceptor ≠ .sleep i) (t : Nat) (handler : Handler)
    (hlive : s.Live t handler) : handler.pc ≠ .started := by
  intro hpc
  obtain ⟨i, hat⟩ := h.handlers t handler hlive
  exact hacceptor i (hat.started hpc)

theorem Inv.not_mem_of_remove (t : Nat) (handler : Handler) (index : Int) (hlive : s.Live t handler)
    (hpc : handler.pc = .remove index) : handler.own ∉ s.fds := by
  obtain ⟨i, hat⟩ := h.handlers t handler hlive
  exact (hat.remove index hpc).2

theorem Inv.add {fd : Int} {i : Fin MAX_NUM_OF_CONN} (hacceptor : s.acceptor = .add fd i)
    : Inv { s with
        connection := dbp_add_socket fd i s.connection
        acceptor := .create fd i } := by
  obtain ⟨hfree, hindex⟩ := h.free fd i hacceptor
  obtain ⟨hne, hnew⟩ := h.held fd (by rw [hacceptor]; rfl)
  have hle : s.connection.conn_number ≤ MAX_NUM_OF_CONN := by
    rw [h.conn_number]
    exact Nat.le_trans (Finset.card_le_univ _) (Nat.le_of_eq (Fintype.card_fin _))
  have hother {j : Fin MAX_NUM_OF_CONN} (hj : s.connection.sock_fd j ≠ 0)
      : Function.update s.connection.sock_fd i fd j = s.connection.sock_fd j := by
    apply Function.update_of_ne
    rintro rfl
    exact hj hfree
  simp only [dbp_add_socket, if_pos hle]
  constructor
  . intro j k hj hk
    simp only at hj hk
    by_cases hji : j = i
    . subst hji
      by_contra hkj
      rw [Function.update_self, Function.update_of_ne hkj] at hk
      exact hnew k hk
    . rw [Function.update_of_ne hji] at hj hk
      by_cases hki : k = i
      . rw [hki, Function.update_self] at hk
        exact absurd hk.symm (hnew j)
      . rw [Function.update_of_ne hki] at hk
        exact h.unique j k hj hk
  . rw [occupied_update_of_ne _ hne, Finset.card_insert_of_notMem, h.conn_number]
    rw [mem_occupied, not_not]
    exact hfree
  . exact iff_of_true rfl (Nat.succ_pos _)
  . exact h.nonzero
  . intro fd' hfd'
    right
    rcases h.placed fd' hfd' with hheld | ⟨j, hj⟩
    . rw [hacceptor] at hheld
      obtain rfl : fd = fd' := hheld
      exact ⟨i, Function.update_self i fd s.connection.sock_fd⟩
    . refine ⟨j, ?_⟩
      have hj0 : s.connection.sock_fd j ≠ 0 := hj ▸ h.nonzero fd' hfd'
      exact (hother hj0).trans hj
  . intro fd' hheld
    exact False.elim hheld
  . intro fd' j hadd
    cases hadd
  . intro fd' j hcreate
    cases hcreate
    refine ⟨Function.update_self i fd s.connection.sock_fd, hne, hindex, ?_⟩
    intro t handler hlive heq
    obtain ⟨j, hat⟩ := h.handlers t handler hlive
    exact hnew j (hat.own.trans heq)
  . intro j hsleep
    cases hsleep
  . exact h.fresh
  . intro t handler hlive
    obtain ⟨j, hat⟩ := h.handlers t handler hlive
    have hj0 : s.connection.sock_fd j ≠ 0 := hat.own ▸ hat.nonzero
    have hnot : ∀ j, s.acceptor ≠ .sleep j := by
      intro j hsleep
      rw [hacceptor] at hsleep
      cases hsleep
    exact ⟨j, (hother hj0).trans hat.own, hat.nonzero,
      fun hpc => absurd hpc (h.not_started hnot t handler hlive), hat.getSocket, hat.recv,
      hat.remove⟩
  . exact h.distinct

theorem Inv.create {fd : Int} {i : Fin MAX_NUM_OF_CONN} (hacceptor : s.acceptor = .create fd i)
    : Inv { s with
        acceptor := .sleep i
        numHandlers := s.numHandlers + 1
        handlers :=
          Function.update s.handlers s.numHandlers (some { own := fd, pc := .started }) } := by
  obtain ⟨hslot, hne, hindex, hnobody⟩ := h.created fd i hacceptor
  have hnot : ∀ j, s.acceptor ≠ .sleep j := by
    intro j hsleep
    rw [hacceptor] at hsleep
    cases hsleep
  have hback {t : Nat} {handler : Handler}
      (hpc : Function.update s.handlers s.numHandlers (some { own := fd, pc := .started }) t
        = some handler) (hended : handler.pc ≠ .ended)
      : t = s.numHandlers ∧ handler = { own := fd, pc := .started }
        ∨ t ≠ s.numHandlers ∧ s.Live t handler := by
    by_cases ht : t = s.numHandlers
    . rw [ht, Function.update_self] at hpc
      exact .inl ⟨ht, (Option.some.inj hpc).symm⟩
    . rw [Function.update_of_ne ht] at hpc
      exact .inr ⟨ht, hpc, hended⟩
  constructor
  . exact h.unique
  . exact h.conn_number
  . exact h.connected
  . exact h.nonzero
  . intro fd' hfd'
    rcases h.placed fd' hfd' with hheld | hplaced
    . rw [hacceptor] at hheld
      exact False.elim hheld
    . exact .inr hplaced
  . intro fd' hheld
    exact False.elim hheld
  . intro fd' j hadd
    cases hadd
  . intro fd' j hcreate
    cases hcreate
  . intro j hsleep
    cases hsleep
    exact hindex
  . intro t ht
    have hlt : s.numHandlers < t := ht
    exact (Function.update_of_ne (Nat.ne_of_gt hlt) _ _).trans (h.fresh t (Nat.le_of_lt hlt))
  . rintro t handler ⟨hpc, hended⟩
    rcases hback hpc hended with ⟨-, rfl⟩ | ⟨-, hlive⟩
    . exact ⟨i, at_started hslot hne rfl⟩
    . obtain ⟨j, hat⟩ := h.handlers t handler hlive
      exact ⟨j, hat.own, hat.nonzero, fun hpc => absurd hpc (h.not_started hnot t handler hlive),
        hat.getSocket, hat.recv, hat.remove⟩
  . rintro t t' handler handler' ⟨hpc, hended⟩ ⟨hpc', hended'⟩ hown
    rcases hback hpc hended with ⟨ht, rfl⟩ | ⟨-, hlive⟩
    . rcases hback hpc' hended' with ⟨ht', -⟩ | ⟨-, hlive'⟩
      . rw [ht, ht']
      . exact absurd hown.symm (hnobody t' handler' hlive')
    . rcases hback hpc' hended' with ⟨-, rfl⟩ | ⟨-, hlive'⟩
      . exact absurd hown (hnobody t handler hlive)
      . exact h.distinct t t' handler handler' hlive hlive' hown

/--
A slot is given up whose descriptor is closed and whose handler has ended.
-/
theorem Inv.give {i : Fin MAX_NUM_OF_CONN} (hslot : s.connection.sock_fd i ≠ 0)
    (hclosed : s.connection.sock_fd i ∉ s.fds)
    (hnobody : ∀ t handler, s.Live t handler → handler.own ≠ s.connection.sock_fd i)
    (hcreate : ∀ fd j, s.acceptor = .create fd j → j ≠ i)
    : Inv { s with connection := dbp_remove_socket (i : Nat) s.connection } := by
  have hmem : i ∈ occupied 0 s.connection.sock_fd := mem_occupied.mpr hslot
  have hpos : 0 < s.connection.conn_number := by
    rw [h.conn_number]
    exact Finset.card_pos.mpr ⟨i, hmem⟩
  have hrange : (0 : Int) ≤ (i : Nat) ∧ ((i : Nat) : Int) < MAX_NUM_OF_CONN := by
    have := i.isLt
    omega
  have hindex : (⟨((i : Nat) : Int).toNat, by omega⟩ : Fin MAX_NUM_OF_CONN) = i :=
    Fin.ext (Int.toNat_natCast i)
  simp only [dbp_remove_socket, dif_pos hrange, hindex, if_pos hpos]
  constructor
  . intro j k hj hk
    simp only at hj hk
    have hji : j ≠ i := by
      rintro rfl
      exact hj (Function.update_self ..)
    rw [Function.update_of_ne hji] at hj hk
    by_cases hki : k = i
    . rw [hki, Function.update_self] at hk
      exact absurd hk.symm hj
    . rw [Function.update_of_ne hki] at hk
      exact h.unique j k hj hk
  . rw [occupied_update_free, Finset.card_erase_of_mem hmem, h.conn_number]
  . by_cases hlast : s.connection.conn_number - 1 ≤ 0
    . rw [if_pos hlast]
      exact iff_of_false Bool.false_ne_true (Nat.not_lt.mpr hlast)
    . rw [if_neg hlast]
      exact iff_of_true (h.connected.mpr hpos) (Nat.lt_of_not_le hlast)
  . exact h.nonzero
  . intro fd hfd
    rcases h.placed fd hfd with hheld | ⟨j, hj⟩
    . exact .inl hheld
    . right
      refine ⟨j, ?_⟩
      have hji : j ≠ i := by
        rintro rfl
        exact hclosed (hj ▸ hfd)
      exact (Function.update_of_ne hji ..).trans hj
  . intro fd hheld
    obtain ⟨hne, hnot⟩ := h.held fd hheld
    refine ⟨hne, ?_⟩
    intro j
    show Function.update s.connection.sock_fd i 0 j ≠ fd
    by_cases hji : j = i
    . rw [hji, Function.update_self]
      exact hne.symm
    . rw [Function.update_of_ne hji]
      exact hnot j
  . intro fd j hadd
    obtain ⟨hfree, hindex⟩ := h.free fd j hadd
    have hji : j ≠ i := by
      rintro rfl
      exact hslot hfree
    exact ⟨(Function.update_of_ne hji ..).trans hfree, hindex⟩
  . intro fd j hacceptor
    obtain ⟨hj, hne, hindex, hfree⟩ := h.created fd j hacceptor
    exact ⟨(Function.update_of_ne (hcreate fd j hacceptor) ..).trans hj, hne, hindex, hfree⟩
  . exact h.slept
  . exact h.fresh
  . intro t handler hlive
    obtain ⟨j, hat⟩ := h.handlers t handler hlive
    have hji : j ≠ i := by
      rintro rfl
      exact hnobody t handler hlive hat.own.symm
    exact ⟨j, (Function.update_of_ne hji ..).trans hat.own, hat.nonzero, hat.started, hat.getSocket,
      hat.recv, hat.remove⟩
  . exact h.distinct

end

section

theorem clients_length (c : Connection) : (clients c).length = (occupied 0 c.sock_fd).card := by
  have hfilter : clients c
      = ((List.finRange MAX_NUM_OF_CONN).filter fun i => decide (c.sock_fd i ≠ 0)).map c.sock_fd := by
    unfold clients
    rw [List.filter_map]
    rfl
  rw [hfilter, List.length_map]
  rfl

/--
The loop may stop when it has served as many clients as there are.
-/
theorem sendLoop_eq {conn_number : Nat} {fds : List Int} {j : Nat}
    (h : conn_number = j + (fds.filter (· ≠ 0)).length)
    : sendLoop conn_number fds j = fds.filter (· ≠ 0) := by
  induction fds generalizing j with
  | nil => rfl
  | cons fd fds ih =>
    rw [sendLoop]
    by_cases hfd : fd ≠ 0
    . rw [List.filter_cons_of_pos (by simpa using hfd)] at h ⊢
      rw [List.length_cons] at h
      rw [if_pos hfd]
      split
      . next hle =>
        have hnil : fds.filter (· ≠ 0) = [] := List.eq_nil_of_length_eq_zero (by omega)
        rw [hnil]
      . rw [ih (by omega)]
    . rw [List.filter_cons_of_neg (by simpa using hfd)] at h ⊢
      rw [if_neg hfd, ih h]

variable {s : State} (h : Inv s)

include h

theorem Inv.sent_eq : dbp_send_data_to_clients s.connection = clients s.connection := by
  apply sendLoop_eq
  have hlength := clients_length s.connection
  rw [Nat.zero_add, h.conn_number, ← hlength]
  rfl

theorem Inv.clients_eq_nil (hconnected : ¬ s.connection.connected = true)
    : clients s.connection = [] := by
  apply List.eq_nil_of_length_eq_zero
  rw [clients_length, ← h.conn_number]
  exact Nat.eq_zero_of_not_pos fun hpos => hconnected (h.connected.mpr hpos)

theorem Inv.step_sent (e : Event) : ∀ b ∈ (step s e).2, b.sent = b.clients := by
  intro b hb
  cases e with
  | check sender =>
    simp only [step] at hb
    split at hb
    . cases hb
    . next hconnected =>
      rw [List.mem_singleton.mp hb]
      exact (h.clients_eq_nil hconnected).symm
  | send sender =>
    simp only [step] at hb
    split at hb
    . rw [List.mem_singleton.mp hb]
      exact h.sent_eq
    . cases hb
  | accept | clobber | getIndex | add | create | wake | readIndex | getSocket | recv | remove =>
    simp only [step] at hb
    repeat' split at hb
    all_goals cases hb

theorem Inv.step {e : Event} (hok : Permitted s e) : Inv (step s e).1 := by
  cases e with
  | accept fd =>
    simp only [Dbp.step]
    split
    . next hcond =>
      obtain ⟨hacceptor, hpos, hnew⟩ := hcond
      have hnot : ∀ i, s.acceptor ≠ .sleep i := by
        intro i hsleep
        rw [hacceptor] at hsleep
        cases hsleep
      have hne : fd ≠ 0 := Int.ne_of_gt hpos
      apply h.accepts
      . intro fd' hfd'
        rcases List.mem_cons.mp hfd' with rfl | hfd'
        . exact hne
        . exact h.nonzero fd' hfd'
      . intro fd' hfd'
        rcases List.mem_cons.mp hfd' with rfl | hfd'
        . exact .inl rfl
        . refine .inr ((h.placed fd' hfd').resolve_left ?_)
          rw [hacceptor]
          exact id
      . rintro fd' rfl
        exact ⟨hne, hok⟩
      . exact .inr (.inl ⟨fd, rfl⟩)
      . exact h.not_started hnot
      . intro t handler index hlive hpc hmem
        obtain ⟨i, hat⟩ := h.handlers t handler hlive
        rcases List.mem_cons.mp hmem with hown | hmem
        . exact hok i (hat.own.trans hown)
        . exact h.not_mem_of_remove t handler index hlive hpc hmem
    . exact h
  | clobber value =>
    simp only [Dbp.step]
    split
    . next hacceptor =>
      have hnot : ∀ i, s.acceptor ≠ .sleep i := by
        intro i hsleep
        rw [hacceptor] at hsleep
        cases hsleep
      exact h.accepts h.nonzero h.placed h.held (.inl hacceptor) (h.not_started hnot)
        h.not_mem_of_remove
    . next fd hacceptor =>
      have hnot : ∀ i, s.acceptor ≠ .sleep i := by
        intro i hsleep
        rw [hacceptor] at hsleep
        cases hsleep
      exact h.accepts h.nonzero h.placed h.held (.inr (.inl ⟨fd, hacceptor⟩)) (h.not_started hnot)
        h.not_mem_of_remove
    . exact h
  | getIndex =>
    simp only [Dbp.step]
    split
    . next fd hacceptor =>
      have hnot : ∀ i, s.acceptor ≠ .sleep i := by
        intro i hsleep
        rw [hacceptor] at hsleep
        cases hsleep
      split
      . next i hfirst =>
        have hfree : s.connection.sock_fd i = 0 := beq_iff_eq.mp (first_spec hfirst)
        apply h.accepts h.nonzero _ _ (.inr (.inr ⟨fd, i, rfl, hfree, rfl⟩)) (h.not_started hnot)
          h.not_mem_of_remove
        . intro fd' hfd'
          have hplaced := h.placed fd' hfd'
          rw [hacceptor] at hplaced
          exact hplaced
        . intro fd' hheld
          apply h.held fd'
          rw [hacceptor]
          exact hheld
      . next hnone =>
        obtain ⟨i, hi⟩ := hok
        have hbusy := first_eq_none_iff.mp hnone i
        rw [hi] at hbusy
        cases hbusy
    . exact h
  | add =>
    simp only [Dbp.step]
    split
    . next fd i hacceptor => exact h.add hacceptor
    . exact h
  | create created =>
    simp only [Dbp.step]
    split
    . next fd i hacceptor =>
      split
      . exact h.create hacceptor
      . have hnot : ∀ i, s.acceptor ≠ .sleep i := by
          intro i hsleep
          rw [hacceptor] at hsleep
          cases hsleep
        apply h.accepts h.nonzero _ _ (.inl rfl) (h.not_started hnot) h.not_mem_of_remove
        . intro fd' hfd'
          have hplaced := h.placed fd' hfd'
          rw [hacceptor] at hplaced
          exact hplaced
        . intro fd' hheld
          exact False.elim hheld
    . exact h
  | wake =>
    simp only [Dbp.step]
    split
    . next i hacceptor =>
      apply h.accepts h.nonzero _ _ (.inl rfl) _ h.not_mem_of_remove
      . intro fd' hfd'
        have hplaced := h.placed fd' hfd'
        rw [hacceptor] at hplaced
        exact hplaced
      . intro fd' hheld
        exact False.elim hheld
      . intro t handler hlive
        have hlt : t < s.numHandlers := by
          by_contra hge
          have hnone := h.fresh t (Nat.le_of_not_lt hge)
          rw [hlive.1] at hnone
          cases hnone
        exact hok t hlt handler hlive.1
    . exact h
  | readIndex t =>
    simp only [Dbp.step]
    split
    . next own hpc =>
      obtain ⟨i, hat⟩ := h.handlers t _ ⟨hpc, HandlerPc.noConfusion⟩
      have hindex := h.slept i (hat.started rfl)
      apply h.goto hpc HandlerPc.noConfusion
      intro _
      exact ⟨i, at_getSocket hat.own hat.nonzero hindex⟩
    . exact h
  | getSocket t =>
    simp only [Dbp.step]
    split
    . next own index hpc =>
      obtain ⟨i, hat⟩ := h.handlers t _ ⟨hpc, HandlerPc.noConfusion⟩
      obtain rfl := hat.getSocket index rfl
      apply h.goto hpc HandlerPc.noConfusion
      intro _
      refine ⟨i, at_recv hat.own hat.nonzero rfl ?_⟩
      have hrange : (0 : Int) ≤ (i : Nat) ∧ ((i : Nat) : Int) < MAX_NUM_OF_CONN := by
        have := i.isLt
        omega
      have hindex : (⟨((i : Nat) : Int).toNat, by omega⟩ : Fin MAX_NUM_OF_CONN) = i :=
        Fin.ext (Int.toNat_natCast i)
      rw [dbp_get_socket, dif_pos hrange, hindex]
      exact hat.own
    . exact h
  | recv t received =>
    simp only [Dbp.step]
    split
    . next own index fd hpc =>
      obtain ⟨i, hat⟩ := h.handlers t _ ⟨hpc, HandlerPc.noConfusion⟩
      obtain ⟨rfl, rfl⟩ := hat.recv index fd rfl
      rcases hok with rfl | rfl
      . apply (h.close fd).goto hpc HandlerPc.noConfusion
        intro _
        have hclosed : fd ∉ s.fds.filter (· ≠ fd) := fun hmem => (mem_close.mp hmem).2 rfl
        exact ⟨i, at_remove (s := { s with fds := s.fds.filter (· ≠ fd) }) hat.own hat.nonzero rfl
          hclosed⟩
      . exact h
    . exact h
  | remove t =>
    simp only [Dbp.step]
    split
    . next own index hpc =>
      obtain ⟨i, hat⟩ := h.handlers t _ ⟨hpc, HandlerPc.noConfusion⟩
      obtain ⟨rfl, hclosed⟩ := hat.remove index rfl
      have hended : Inv (s.goto t own .ended) := h.goto hpc HandlerPc.noConfusion fun hne => absurd rfl hne
      apply hended.give (i := i)
      . exact hat.own ▸ hat.nonzero
      . exact hat.own ▸ hclosed
      . intro t' handler' hlive'
        by_cases ht : t' = t
        . obtain ⟨hpc', hne'⟩ := hlive'
          rw [ht, goto_handlers_self] at hpc'
          obtain rfl := Option.some.inj hpc'
          exact absurd rfl hne'
        . obtain ⟨hpc', hne'⟩ := hlive'
          rw [goto_handlers_of_ne ht] at hpc'
          intro heq
          apply ht
          exact h.distinct t' t handler' _ ⟨hpc', hne'⟩ ⟨hpc, HandlerPc.noConfusion⟩
            (heq.trans hat.own)
      . intro fd j hacceptor hji
        obtain ⟨hslot, -, -, hnobody⟩ := h.created fd j hacceptor
        apply hnobody t _ ⟨hpc, HandlerPc.noConfusion⟩
        rw [← hslot, hji]
        exact hat.own.symm
    . exact h
  | check sender =>
    simp only [Dbp.step]
    split
    . exact h.checked _
    . exact h
  | send sender =>
    simp only [Dbp.step]
    split
    . exact h.checked _
    . exact h

end

def State.start (index : Int) (beyond : Int → Int) : State := { index, beyond }

theorem Inv.start (index : Int) (beyond : Int → Int) : Inv (State.start index beyond) where
  unique _ _ hne := absurd rfl hne
  conn_number := by
    have hnone : occupied (0 : Int) (fun _ : Fin MAX_NUM_OF_CONN => 0) = ∅ := by
      simp [occupied]
    show 0 = (occupied (0 : Int) (fun _ : Fin MAX_NUM_OF_CONN => 0)).card
    rw [hnone, Finset.card_empty]
  connected := by
    show false = true ↔ 0 < 0
    decide
  nonzero _ hfd := absurd hfd List.not_mem_nil
  placed _ hfd := absurd hfd List.not_mem_nil
  held _ hheld := False.elim hheld
  free _ _ hadd := Acceptor.noConfusion hadd
  created _ _ hcreate := Acceptor.noConfusion hcreate
  slept _ hsleep := Acceptor.noConfusion hsleep
  fresh _ _ := rfl
  handlers _ _ hlive := by
    obtain ⟨hnone, -⟩ := hlive
    cases hnone
  distinct _ _ _ _ hlive := by
    obtain ⟨hnone, -⟩ := hlive
    cases hnone

/--
Along every run of permitted steps, with any number of connections, handlers and senders.
-/
theorem table_correct {index : Int} {beyond : Int → Int} {events : List Event}
    (hok : Along step Permitted (State.start index beyond) events)
    : Correct (exec step (State.start index beyond) events)
      ∧ ∀ b ∈ trace step (State.start index beyond) events, b.sent = b.clients := by
  have hstep (s : State) (e : Event) (h : Inv s) (hok : Permitted s e) : Inv (step s e).1 :=
    h.step hok
  have hsent (s : State) (e : Event) (h : Inv s) (_ : Permitted s e)
      : ∀ b ∈ (step s e).2, b.sent = b.clients :=
    h.step_sent e
  constructor
  . exact (inv_exec step hstep (Inv.start index beyond) hok).correct
  . exact forall_trace step hstep hsent (Inv.start index beyond) hok

instance decidablePermitted (s : State) : (e : Event) → Decidable (Permitted s e)
  | .accept socket_fd =>
    inferInstanceAs (Decidable (∀ i, s.connection.sock_fd i ≠ socket_fd))
  | .getIndex => inferInstanceAs (Decidable (∃ i, s.connection.sock_fd i = 0))
  | .wake =>
    inferInstanceAs
      (Decidable (∀ t < s.numHandlers, ∀ handler ∈ s.handlers t, handler.pc ≠ .started))
  | .recv _ received => inferInstanceAs (Decidable (received = .close ∨ received = .message))
  | .clobber _ | .add | .create _ | .readIndex _ | .getSocket _ | .remove _ | .check _ | .send _ =>
    inferInstanceAs (Decidable True)

/--
Two clients come, and the first one leaves with a close command.
-/
def twoClients : List Event :=
  [.accept 7, .getIndex, .add, .create true, .readIndex 0, .wake, .clobber 4660, .getSocket 0,
    .accept 8, .getIndex, .add, .create true, .recv 0 .message, .readIndex 1, .getSocket 1, .check 0,
    .wake, .send 0, .recv 0 .close, .remove 0, .check 0, .send 0]

theorem table_correct_twoClients
    : trace step (State.start 0 fun _ => 0) twoClients = [⟨[7, 8], [7, 8]⟩, ⟨[8], [8]⟩]
      ∧ Correct (exec step (State.start 0 fun _ => 0) twoClients)
      ∧ ∀ b ∈ trace step (State.start 0 fun _ => 0) twoClients, b.sent = b.clients :=
  ⟨by decide +kernel, table_correct (by decide +kernel)⟩

/--
The descriptor of a client that disconnects is neither in the table any more nor closed.
-/
theorem disconnected_not_correct
    : ¬ ∀ (index : Int) (beyond : Int → Int) (events : List Event),
        Correct (exec step (State.start index beyond) events)
          ∧ ∀ b ∈ trace step (State.start index beyond) events, b.sent = b.clients := by
  intro h
  obtain ⟨hcorrect, -⟩ := h 0 (fun _ => 0)
    [.accept 7, .getIndex, .add, .create true, .readIndex 0, .getSocket 0, .wake,
      .recv 0 .disconnected, .remove 0]
  obtain ⟨i, hi, -⟩ := hcorrect.placed 7 (by decide) (fun hheld => hheld)
  revert hi
  revert i
  decide

end Dbp
