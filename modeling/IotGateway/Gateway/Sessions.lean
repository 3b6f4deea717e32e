import IotGateway.ControlInterface.Lemmas.Session
import IotGateway.Lib.Machine
import IotGateway.ZcbDaemon.Impl.Devices

/-!
This module contains topology sessions of the control interface while the ZCB daemon updates devices,
and when the declared devices and no others are left at the end of a session.
-/

namespace Gateway

open NewDb Table ControlInterface ZcbDaemon

inductive Phase where
  | outside
  | configuring
  | ended
  deriving DecidableEq

/--
The control interface is process 0. `declared` and `joined` are the devices declared and added in the
session, `declaring` is what the control interface is about to declare.
-/
structure Sessions where
  processes : Processes
  topo : TopoState
  declaring : Option Declaration := none
  phase : Phase := .outside
  declared : List String := []
  joined : List String := []

/--
The accesses of the control interface and those of the ZCB daemon. The parser keeps a MAC address
within its maximum length.
-/
inductive SessionStep where
  | clearall
  | endconf
  | declare (d : Declaration) (mac_le : d.mac.1.toList.length ≤ LEN_MAC_NIBBLE)
  | addDeclared (now : Int)
  | saveDeclared (now : Int)
  | zcbGet (p : Nat) (update : DeviceUpdate)
  | zcbGetNew (p : Nat) (now : Int)
  | zcbSet (p : Nat) (now : Int)

namespace Sessions

def start (db : Db) (topo : TopoState) : Sessions where
  processes := { db, pc := fun _ => .idle }
  topo

/--
The declaration has come to its end. The device has got the row `id`.
-/
def finish (s : Sessions) (d : Declaration) (id : Int) : Sessions :=
  { s with
    topo := d.kind.after id s.topo
    declaring := none
    declared := d.mac.1 :: s.declared }

/--
A declaration behind the end of a session is in no session.
-/
def declare (s : Sessions) (d : Declaration) : Sessions :=
  let device := newDbGetDevice s.processes.db d.mac
  let processes := s.processes.access (.get 0 (d.edit s.topo))
  let phase := if s.phase = .configuring then .configuring else .outside
  match processes.pc 0, device with
  | .idle, some device => { s with processes, phase }.finish d device.id
  | _, _ => { s with processes, phase, declaring := some d }

/--
The control interface handles one command after the other.
-/
def next (s : Sessions) : SessionStep → Sessions
  | .clearall =>
    match s.processes.pc 0 with
    | .idle =>
      let (topo, db) := topoRun .clearall 0 0 s.topo s.processes.db
      { s with
        processes := { s.processes with db }
        topo
        phase := .configuring
        declared := []
        joined := [] }
    | _ => s
  | .endconf =>
    match s.processes.pc 0 with
    | .idle =>
      let (topo, db) := topoRun .endconf 0 0 s.topo s.processes.db
      { s with
        processes := { s.processes with db }
        topo
        phase := if s.phase = .configuring then .ended else .outside }
    | _ => s
  | .declare d _ =>
    match s.processes.pc 0 with
    | .idle => s.declare d
    | _ => s
  | .addDeclared now =>
    match s.processes.pc 0, s.declaring with
    | .missing _ _, some d =>
      let processes := s.processes.access (.getNew 0 now)
      match processes.pc 0 with
      | .idle => { s with processes }.finish d (-1)
      | _ => { s with processes }
    | _, _ => s
  | .saveDeclared now =>
    match s.processes.pc 0, s.declaring with
    | .writing copy _, some d =>
      { s with processes := s.processes.access (.set 0 now) }.finish d copy.id
    | _, _ => s
  | .zcbGet p update => { s with processes := s.processes.access (.get (p + 1) update.edit) }
  | .zcbGetNew p now =>
    let processes := s.processes.access (.getNew (p + 1) now)
    match s.processes.pc (p + 1), processes.pc (p + 1) with
    | .missing _ _, .writing copy _ => { s with processes, joined := copy.mac :: s.joined }
    | _, _ => { s with processes }
  | .zcbSet p now => { s with processes := s.processes.access (.set (p + 1) now) }

def step (s : Sessions) (a : SessionStep) : Sessions × List Empty := (s.next a, [])

end Sessions

/--
The accesses of a declaration that nobody else comes between are what the topology command does.
-/
theorem declare_alone (s : Sessions) (d : Declaration) (hle : d.mac.1.toList.length ≤ LEN_MAC_NIBBLE)
    (hpc : s.processes.pc 0 = .idle) (now now' : Int)
    : let s' := Machine.exec Sessions.step s [.declare d hle, .addDeclared now, .saveDeclared now']
      (s'.topo, s'.processes.db) = topoRun (.declare d) now now' s.topo s.processes.db
        ∧ s'.processes.pc 0 = .idle := by
  have hself : ∀ (processes : Processes) pc, (processes.goto 0 pc).pc 0 = pc := by
    intro processes pc
    rw [goto_pc, if_pos rfl]
  have hdb : ∀ (processes : Processes) pc, (processes.goto 0 pc).db = processes.db := fun _ _ => rfl
  simp only [Machine.exec, Sessions.step, topoRun, Edit.run, edit_mac]
  cases hget : newDbGetDevice s.processes.db d.mac with
  | some device =>
    have hid := (d.edit s.topo).found.apply_id device
    cases hsaves : (d.edit s.topo).found.saves ((d.edit s.topo).found.apply device) with
    | true =>
      have heq : s.processes.access (.get 0 (d.edit s.topo))
          = s.processes.goto 0 (.writing device (d.edit s.topo).found) := by
        simp [Processes.access, hpc, edit_mac, hget, hsaves]
      have hbegun : s.next (.declare d hle) = { s with
          processes := s.processes.goto 0 (.writing device (d.edit s.topo).found)
          phase := if s.phase = .configuring then .configuring else .outside
          declaring := some d } := by
        simp only [Sessions.next, Sessions.declare, hpc, heq, hself]
      rw [hbegun]
      simp [Sessions.next, hself, hdb, Sessions.finish, Processes.access, hsaves, hid]
    | false =>
      have heq : s.processes.access (.get 0 (d.edit s.topo)) = s.processes := by
        simp [Processes.access, hpc, edit_mac, hget, hsaves]
      simp [Sessions.next, Sessions.declare, hpc, heq, hget, Sessions.finish, hsaves, hid]
  | none =>
    obtain ⟨fresh, hfresh, -⟩ := edit_fresh d s.topo
    have heq : s.processes.access (.get 0 (d.edit s.topo))
        = s.processes.goto 0 (.missing (d.edit s.topo).mac fresh) := by
      simp [Processes.access, hpc, edit_mac, hget, hfresh]
    have hbegun : s.next (.declare d hle) = { s with
        processes := s.processes.goto 0 (.missing d.mac fresh)
        phase := if s.phase = .configuring then .configuring else .outside
        declaring := some d } := by
      simp only [Sessions.next, Sessions.declare, hpc, heq, hself, edit_mac]
    rw [hbegun]
    rcases hnew : newDbGetNewDevice s.processes.db d.mac now with ⟨db, _ | device⟩
    . simp [Sessions.next, hself, hdb, Sessions.finish, Processes.access, hfresh, hnew]
    . simp [Sessions.next, hself, hdb, Sessions.finish, Processes.access, hfresh, hnew]

/--
After the end of the configuration.
-/
def SessionKept (s : Sessions) : Prop :=
  s.phase = .ended →
    (∀ mac ∈ s.declared, ∃ i, s.processes.db.macs i = mac)
      ∧ ∀ i, s.processes.db.macs i ≠ "" →
          s.processes.db.macs i ∈ s.declared ∨ s.processes.db.macs i ∈ s.joined

/--
In and after a session, what the ZCB daemon copies in goes to a row that still has the MAC address of
the copy, and before the end also its mark. A device that is declared finds a free row if it is new,
and if it is not copied in then it has no mark.
-/
def MarkKept (s : Sessions) : SessionStep → Prop
  | .zcbSet p _ =>
    match s.processes.pc (p + 1) with
    | .writing copy _ =>
      ∀ i : Fin NEWDB_MAX_DEVICES, copy.id = i → s.phase ≠ .outside →
        s.processes.db.macs i = copy.mac
          ∧ (s.phase = .configuring → (Marked (s.processes.db.devices i) ↔ Marked copy))
    | _ => True
  | .declare d _ =>
    match newDbGetDevice s.processes.db d.mac with
    | some device =>
      s.phase = .configuring → Marked device →
        (d.edit s.topo).found.saves ((d.edit s.topo).found.apply device) = true
    | none => True
  | .addDeclared _ =>
    match s.processes.pc 0 with
    | .missing _ _ => s.phase = .configuring → ∃ i, s.processes.db.macs i = ""
    | _ => True
  | .clearall => True
  | .endconf => True
  | .saveDeclared _ => True
  | .zcbGet _ _ => True
  | .zcbGetNew _ _ => True

instance decidableMarkKept (s : Sessions) : (a : SessionStep) → Decidable (MarkKept s a)
  | .zcbSet p now =>
    match hpc : s.processes.pc (p + 1) with
    | .writing copy update =>
      decidable_of_iff (∀ i : Fin NEWDB_MAX_DEVICES, copy.id = i → s.phase ≠ .outside →
          s.processes.db.macs i = copy.mac
            ∧ (s.phase = .configuring → (Marked (s.processes.db.devices i) ↔ Marked copy)))
        (by simp only [MarkKept, hpc])
    | .idle => isTrue (by simp only [MarkKept, hpc])
    | .missing _ _ => isTrue (by simp only [MarkKept, hpc])
  | .declare d hle =>
    match hget : newDbGetDevice s.processes.db d.mac with
    | some device =>
      decidable_of_iff (s.phase = .configuring → Marked device →
          (d.edit s.topo).found.saves ((d.edit s.topo).found.apply device) = true)
        (by simp only [MarkKept, hget])
    | none => isTrue (by simp only [MarkKept, hget])
  | .addDeclared now =>
    match hpc : s.processes.pc 0 with
    | .missing mac fresh =>
      decidable_of_iff (s.phase = .configuring → ∃ i, s.processes.db.macs i = "")
        (by simp only [MarkKept, hpc])
    | .idle => isTrue (by simp only [MarkKept, hpc])
    | .writing _ _ => isTrue (by simp only [MarkKept, hpc])
  | .clearall => isTrue trivial
  | .endconf => isTrue trivial
  | .saveDeclared _ => isTrue trivial
  | .zcbGet _ _ => isTrue trivial
  | .zcbGetNew _ _ => isTrue trivial

/--
The devices `macs` have rows with `live`.
-/
def Present (live : Device → Prop) (db : Db) (macs : List String) : Prop :=
  ∀ mac ∈ macs, mac ≠ "" ∧ ∃ i, db.macs i = mac ∧ live (db.devices i)

/--
No other devices have any.
-/
def Only (live : Device → Prop) (db : Db) (macs : List String) : Prop :=
  ∀ i, db.macs i ≠ "" → live (db.devices i) → db.macs i ∈ macs

section

variable {live : Device → Prop} {db db' : Db} {macs macs' : List String}
  {i : Fin NEWDB_MAX_DEVICES} {device : Device}

theorem macs_update (hdevices : db'.devices = Function.update db.devices i device)
    : db'.macs = Function.update db.macs i device.mac := by
  funext j
  rw [Db.macs, hdevices]
  by_cases hj : j = i
  . rw [hj, Function.update_self, Function.update_self]
  . rw [Function.update_of_ne hj, Function.update_of_ne hj]
    rfl

theorem macs_update_of_ne (hdevices : db'.devices = Function.update db.devices i device)
    (hrow : db.macs i = "" ∨ db.macs i = device.mac) {j : Fin NEWDB_MAX_DEVICES} {mac : String}
    (hne : mac ≠ "") (hj : db.macs j = mac)
    : db'.macs j = mac := by
  rw [macs_update hdevices]
  by_cases hji : j = i
  . subst hji
    rw [Function.update_self]
    rcases hrow with hfree | hsame
    . exact absurd (hj.symm.trans hfree) hne
    . exact hsame.symm.trans hj
  . rwa [Function.update_of_ne hji]

theorem Present.update (h : Present live db macs)
    (hdevices : db'.devices = Function.update db.devices i device)
    (hrow : db.macs i = "" ∨ db.macs i = device.mac ∧ (live (db.devices i) → live device))
    : Present live db' macs := by
  intro mac hmac
  obtain ⟨hne, j, hj, hlive⟩ := h mac hmac
  refine ⟨hne, j, macs_update_of_ne hdevices (hrow.imp_right And.left) hne hj, ?_⟩
  rw [hdevices]
  by_cases hji : j = i
  . subst hji
    rw [Function.update_self]
    rcases hrow with hfree | ⟨-, hkeep⟩
    . exact absurd (hj.symm.trans hfree) hne
    . exact hkeep hlive
  . rwa [Function.update_of_ne hji]

theorem Present.add (h : Present live db macs)
    (hdevices : db'.devices = Function.update db.devices i device)
    (hrow : db.macs i = device.mac) (hne : device.mac ≠ "") (hlive : live device)
    : Present live db' (device.mac :: macs) := by
  intro mac hmac
  rcases List.mem_cons.mp hmac with rfl | hmac
  . refine ⟨hne, i, ?_, ?_⟩
    . rw [macs_update hdevices, Function.update_self]
    . rw [hdevices, Function.update_self]
      exact hlive
  . exact h.update hdevices (.inr ⟨hrow, fun _ => hlive⟩) mac hmac

theorem Only.update (h : Only live db macs)
    (hdevices : db'.devices = Function.update db.devices i device)
    (hrow : device.mac ∈ macs ∨ db.macs i = device.mac ∧ (live device → live (db.devices i)))
    : Only live db' macs := by
  intro j hne hlive
  rw [macs_update hdevices] at hne ⊢
  rw [hdevices] at hlive
  by_cases hji : j = i
  . subst hji
    rw [Function.update_self] at hne hlive ⊢
    rcases hrow with hmem | ⟨hsame, hkeep⟩
    . exact hmem
    . rw [← hsame] at hne ⊢
      exact h j hne (hkeep hlive)
  . rw [Function.update_of_ne hji] at hne hlive ⊢
    exact h j hne hlive

theorem Only.mono (h : Only live db macs) (hsub : ∀ mac ∈ macs, mac ∈ macs') : Only live db macs' := by
  intro i hne hlive
  exact hsub _ (h i hne hlive)

end

def Sessions.known (s : Sessions) : List String :=
  (s.declaring.map fun d => d.mac.1).toList ++ s.declared ++ s.joined

/--
What the ZCB daemon does to a copy leaves its mark.
-/
structure ZcbHolds (pc : Nat → Pc) : Prop where
  writing : ∀ p copy update, pc (p + 1) = .writing copy update →
    (Marked (update.apply copy) ↔ Marked copy)
  missing : ∀ p mac fresh, pc (p + 1) = .missing mac fresh →
    ∀ i now, ¬ Marked (fresh.apply (newDevice i mac now))

structure Configuring (s : Sessions) : Prop where
  present : Present (fun device => ¬ Marked device) s.processes.db s.declared
  only : Only (fun device => ¬ Marked device) s.processes.db s.known
  missing : ∀ mac fresh, s.processes.pc 0 = .missing mac fresh →
    ∃ d, s.declaring = some d
      ∧ d.mac = mac
      ∧ Text.key mac = mac.1
      ∧ ∀ i now, ¬ Marked (fresh.apply (newDevice i mac now))
  writing : ∀ copy update, s.processes.pc 0 = .writing copy update →
    ∃ d, s.declaring = some d
      ∧ copy.mac = d.mac.1
      ∧ ¬ Marked (update.apply copy)
      ∧ ∃ i : Fin NEWDB_MAX_DEVICES, copy.id = i ∧ s.processes.db.macs i = d.mac.1

structure Ended (s : Sessions) : Prop where
  idle : s.processes.pc 0 = .idle
  present : Present (fun _ => True) s.processes.db s.declared
  only : Only (fun _ => True) s.processes.db s.known

structure Sessions.Inv (s : Sessions) : Prop where
  sound : s.processes.Sound
  zcb : ZcbHolds s.processes.pc
  idle : s.processes.pc 0 = .idle → s.declaring = none
  configuring : s.phase = .configuring → Configuring s
  ended : s.phase = .ended → Ended s

section

variable {s : Sessions}

theorem Sessions.Inv.start {db : Db} (h : Indexed db) (topo : TopoState)
    : (Sessions.start db topo).Inv := by
  constructor
  . refine ⟨h, ?_⟩
    intro p copy update hpc
    cases hpc
  . constructor
    . intro p copy update hpc
      cases hpc
    . intro p mac fresh hpc
      cases hpc
  . intro _
    rfl
  . intro hphase
    cases hphase
  . intro hphase
    cases hphase

theorem Sessions.Inv.kept (h : s.Inv) : SessionKept s := by
  intro hphase
  have hended := h.ended hphase
  constructor
  . intro mac hmac
    obtain ⟨-, i, hi, -⟩ := hended.present mac hmac
    exact ⟨i, hi⟩
  . intro i hlive
    have hmem := hended.only i hlive trivial
    rw [Sessions.known, h.idle hended.idle] at hmem
    simpa using hmem

theorem marked_or {flags bits : BitVec 32} (h : bits &&& FLAG_TOPO_CLEAR = 0)
    : (flags ||| bits) &&& FLAG_TOPO_CLEAR = flags &&& FLAG_TOPO_CLEAR := by
  have hdistrib : (flags ||| bits) &&& FLAG_TOPO_CLEAR
      = flags &&& FLAG_TOPO_CLEAR ||| bits &&& FLAG_TOPO_CLEAR := by
    ext i hi
    simp only [BitVec.getElem_and, BitVec.getElem_or]
    cases flags[i] <;> cases bits[i] <;> simp
  rw [hdistrib, h]
  simp

theorem marked_clear {flags bits : BitVec 32} (h : ~~~bits &&& FLAG_TOPO_CLEAR = FLAG_TOPO_CLEAR)
    : (flags &&& ~~~bits) &&& FLAG_TOPO_CLEAR = flags &&& FLAG_TOPO_CLEAR := by
  rw [BitVec.and_assoc, h]

theorem setHeat_marked (heat : Int) (device : Device)
    : (setHeat heat device).flags &&& FLAG_TOPO_CLEAR = device.flags &&& FLAG_TOPO_CLEAR := by
  unfold setHeat
  split
  . split
    . rfl
    . exact marked_clear (by decide)
  . rfl

theorem setCool_marked (cool : Int) (device : Device)
    : (setCool cool device).flags &&& FLAG_TOPO_CLEAR = device.flags &&& FLAG_TOPO_CLEAR := by
  unfold setCool
  split
  . split
    . rfl
    . exact marked_clear (by decide)
  . rfl

theorem update_found_marked (update : DeviceUpdate) (device : Device)
    : Marked (update.edit.found.apply device) ↔ Marked device := by
  have hjoined : ∀ flags : BitVec 32,
      (flags ||| FLAG_DEV_JOINED) &&& FLAG_TOPO_CLEAR = flags &&& FLAG_TOPO_CLEAR :=
    fun flags => marked_or (by decide)
  unfold Marked
  cases update with
  | ui mac heat cool =>
    have hflags : ((DeviceUpdate.ui mac heat cool).edit.found.apply device).flags &&& FLAG_TOPO_CLEAR
        = device.flags &&& FLAG_TOPO_CLEAR := by
      rw [← setHeat_marked heat device, ← setCool_marked cool (setHeat heat device)]
      exact hjoined _
    rw [hflags]
  | announce mac devstr ty info => exact Iff.of_eq (congrArg (· ≠ 0) (hjoined device.flags))
  | actuator mac cmd lvl => exact Iff.of_eq (congrArg (· ≠ 0) (hjoined device.flags))
  | sensor mac tmp hum als bat batl => exact Iff.of_eq (congrArg (· ≠ 0) (hjoined device.flags))
  | occupancy mac data => exact Iff.of_eq (congrArg (· ≠ 0) (hjoined device.flags))
  | plug mac act sum => exact Iff.of_eq (congrArg (· ≠ 0) (hjoined device.flags))

theorem update_fresh_marked {update : DeviceUpdate} {fresh : Update}
    (h : update.edit.fresh = some fresh) (device : Device)
    : ¬ Marked (fresh.apply device) := by
  have hflags : ¬ (FLAG_DEV_JOINED ||| FLAG_ADDED_BY_GW) &&& FLAG_TOPO_CLEAR ≠ 0 := by decide
  cases update with
  | announce mac devstr ty info =>
    obtain rfl := Option.some.inj h
    exact hflags
  | _ => cases h

theorem ZcbHolds.goto_zero (processes : Processes) (h : ZcbHolds processes.pc) (pc : Pc)
    : ZcbHolds (processes.goto 0 pc).pc := by
  have hsame : ∀ p, (processes.goto 0 pc).pc (p + 1) = processes.pc (p + 1) := by
    intro p
    rw [goto_pc, if_neg (Nat.succ_ne_zero p)]
  constructor
  . intro p
    rw [hsame]
    exact h.writing p
  . intro p
    rw [hsame]
    exact h.missing p

theorem ZcbHolds.goto_succ (processes : Processes) (h : ZcbHolds processes.pc) (p : Nat) {pc : Pc}
    (hwriting : ∀ copy update, pc = .writing copy update →
      (Marked (update.apply copy) ↔ Marked copy))
    (hmissing : ∀ mac fresh, pc = .missing mac fresh →
      ∀ i now, ¬ Marked (fresh.apply (newDevice i mac now)))
    : ZcbHolds (processes.goto (p + 1) pc).pc := by
  constructor
  . intro q copy update hq
    rw [goto_pc] at hq
    split at hq
    . exact hwriting copy update hq
    . exact h.writing q copy update hq
  . intro q mac fresh hq
    rw [goto_pc] at hq
    split at hq
    . exact hmissing mac fresh hq
    . exact h.missing q mac fresh hq

theorem goto_succ_zero (processes : Processes) (p : Nat) (pc : Pc)
    : (processes.goto (p + 1) pc).pc 0 = processes.pc 0 := by
  rw [goto_pc, if_neg (Nat.succ_ne_zero p).symm]

theorem Sessions.Inv.zcb_goto (h : s.Inv) (p : Nat) {pc : Pc}
    (hsound : (s.processes.goto (p + 1) pc).Sound)
    (hzcb : ZcbHolds (s.processes.goto (p + 1) pc).pc)
    : Sessions.Inv { s with processes := s.processes.goto (p + 1) pc } := by
  have hzero := goto_succ_zero s.processes p pc
  constructor
  . exact hsound
  . exact hzcb
  . rw [hzero]
    exact h.idle
  . intro hphase
    have hconf := h.configuring hphase
    constructor
    . exact hconf.present
    . exact hconf.only
    . rw [hzero]
      exact hconf.missing
    . rw [hzero]
      exact hconf.writing
  . intro hphase
    have hended := h.ended hphase
    constructor
    . rw [hzero]
      exact hended.idle
    . exact hended.present
    . exact hended.only

/--
The ZCB daemon writes the row `i`, which is a free one for a device that joins.
-/
theorem Sessions.Inv.zcb_row (h : s.Inv) (p : Nat) {pc : Pc} {db : Db} {joined : List String}
    {i : Fin NEWDB_MAX_DEVICES} {device : Device}
    (hsound : (Processes.goto { s.processes with db } (p + 1) pc).Sound)
    (hzcb : ZcbHolds (Processes.goto { s.processes with db } (p + 1) pc).pc)
    (hjoined : ∀ mac ∈ s.joined, mac ∈ joined)
    (hdevices : db.devices = Function.update s.processes.db.devices i device)
    (hrow : s.phase ≠ .outside →
      s.processes.db.macs i = "" ∧ device.mac ∈ joined
        ∨ s.processes.db.macs i = device.mac
          ∧ (s.phase = .configuring → (Marked (s.processes.db.devices i) ↔ Marked device)))
    : Sessions.Inv { s with
        processes := Processes.goto { s.processes with db } (p + 1) pc
        joined } := by
  have hzero := goto_succ_zero { s.processes with db } p pc
  have hknown : ∀ mac ∈ s.known, mac ∈ Sessions.known { s with
      processes := Processes.goto { s.processes with db } (p + 1) pc
      joined } := by
    intro mac hmac
    rcases List.mem_append.mp hmac with hmac | hmac
    . exact List.mem_append_left _ hmac
    . exact List.mem_append_right _ (hjoined mac hmac)
  constructor
  . exact hsound
  . exact hzcb
  . rw [hzero]
    exact h.idle
  . intro hphase
    have hconf := h.configuring hphase
    have hne : s.phase ≠ .outside := fun hout => by
      rw [hout] at hphase
      cases hphase
    have hwrite := hrow hne
    constructor
    . apply hconf.present.update hdevices
      rcases hwrite with ⟨hfree, -⟩ | ⟨hsame, hmark⟩
      . exact .inl hfree
      . exact .inr ⟨hsame, (not_congr (hmark hphase)).mp⟩
    . apply (hconf.only.mono hknown).update hdevices
      rcases hwrite with ⟨-, hmem⟩ | ⟨hsame, hmark⟩
      . exact .inl (List.mem_append_right _ hmem)
      . exact .inr ⟨hsame, (not_congr (hmark hphase)).mpr⟩
    . rw [hzero]
      exact hconf.missing
    . rw [hzero]
      intro copy update hpc
      obtain ⟨d, hd, hmac, hmark, j, hid, hj⟩ := hconf.writing copy update hpc
      refine ⟨d, hd, hmac, hmark, j, hid, ?_⟩
      apply macs_update_of_ne hdevices _ d.mac.2 hj
      exact hwrite.imp And.left And.left
  . intro hphase
    have hended := h.ended hphase
    have hne : s.phase ≠ .outside := fun hout => by
      rw [hout] at hphase
      cases hphase
    have hwrite := hrow hne
    constructor
    . rw [hzero]
      exact hended.idle
    . apply hended.present.update hdevices
      exact hwrite.imp And.left (And.imp_right fun _ _ => trivial)
    . apply (hended.only.mono hknown).update hdevices
      rcases hwrite with ⟨-, hmem⟩ | ⟨hsame, -⟩
      . exact .inl (List.mem_append_right _ hmem)
      . exact .inr ⟨hsame, fun _ => trivial⟩

theorem Sessions.Inv.zcbGet (h : s.Inv) (p : Nat) (update : DeviceUpdate)
    : (s.next (.zcbGet p update)).Inv := by
  have hsound := h.sound.access (.get (p + 1) update.edit)
  simp only [Sessions.next]
  obtain heq | ⟨device, -, heq⟩ | ⟨fresh, hfresh, -, heq⟩ := access_get s.processes (p + 1) update.edit
  . rw [heq]
    exact h
  . rw [heq] at hsound ⊢
    apply h.zcb_goto p hsound
    apply h.zcb.goto_succ s.processes
    . intro copy update' hpc
      obtain ⟨rfl, rfl⟩ := Pc.writing.inj hpc
      exact update_found_marked update device
    . intro mac fresh hpc
      cases hpc
  . rw [heq] at hsound ⊢
    apply h.zcb_goto p hsound
    apply h.zcb.goto_succ s.processes
    . intro copy update' hpc
      cases hpc
    . intro mac fresh' hpc
      obtain ⟨rfl, rfl⟩ := Pc.missing.inj hpc
      intro i now
      exact update_fresh_marked hfresh _

theorem newDevice_not_marked (i : Fin NEWDB_MAX_DEVICES) (mac : String) (now : Int)
    : ¬ Marked (newDevice i mac now) := by
  have hzero : ¬ (0 : BitVec 32) &&& FLAG_TOPO_CLEAR ≠ 0 := by decide
  exact hzero

theorem Sessions.Inv.zcbGetNew (h : s.Inv) (p : Nat) (now : Int)
    : (s.next (.zcbGetNew p now)).Inv := by
  have hsound := h.sound.access (.getNew (p + 1) now)
  simp only [Sessions.next]
  obtain heq | ⟨mac, fresh, hpc, ⟨db, i, hfree, hnew, hdevices, heq⟩ | ⟨-, heq⟩⟩ :=
    access_getNew s.processes (p + 1) now
  . rw [heq]
    split
    . next hmissing hwriting =>
      rw [hmissing] at hwriting
      cases hwriting
    . exact h
  . rw [heq] at hsound ⊢
    have hself : (Processes.goto { s.processes with db } (p + 1)
        (.writing (newDevice i mac now) fresh)).pc (p + 1) = .writing (newDevice i mac now) fresh := by
      rw [goto_pc, if_pos rfl]
    simp only [hpc, hself]
    apply h.zcb_row p hsound
    . apply h.zcb.goto_succ { s.processes with db }
      . intro copy update hwriting
        obtain ⟨rfl, rfl⟩ := Pc.writing.inj hwriting
        have hold := newDevice_not_marked i mac now
        have hadded := h.zcb.missing p mac fresh hpc i now
        exact iff_of_false hadded hold
      . intro mac' fresh' hmissing
        cases hmissing
    . intro mac' hmac'
      exact List.mem_cons_of_mem _ hmac'
    . exact hdevices
    . intro _
      exact .inl ⟨hfree, List.mem_cons_self⟩
  . rw [heq] at hsound ⊢
    have hself : (s.processes.goto (p + 1) .idle).pc (p + 1) = .idle := by
      rw [goto_pc, if_pos rfl]
    simp only [hpc, hself]
    apply h.zcb_goto p hsound
    apply h.zcb.goto_succ s.processes
    . intro copy update hwriting
      cases hwriting
    . intro mac' fresh' hmissing
      cases hmissing

theorem Sessions.Inv.zcbSet (h : s.Inv) (p : Nat) (now : Int) (hok : MarkKept s (.zcbSet p now))
    : (s.next (.zcbSet p now)).Inv := by
  have hsound := h.sound.access (.set (p + 1) now)
  simp only [Sessions.next]
  obtain heq | ⟨copy, update, hpc, heq⟩ := access_set s.processes (p + 1) now
  . rw [heq]
    exact h
  . simp only [MarkKept, hpc] at hok
    obtain ⟨i, hid⟩ := h.sound.copies (p + 1) copy update hpc
    rw [heq] at hsound ⊢
    have hdevices := newDbSetDevice_devices s.processes.db now ((update.apply_id copy).trans hid)
    refine h.zcb_row p hsound ?_ (fun mac hmac => hmac) hdevices ?_
    . apply h.zcb.goto_succ { s.processes with
        db := (newDbSetDevice s.processes.db (update.apply copy) now).1 }
      . intro copy' update' hwriting
        cases hwriting
      . intro mac fresh hmissing
        cases hmissing
    . intro hphase
      obtain ⟨hmac, hmark⟩ := hok i hid hphase
      right
      refine ⟨hmac.trans (update.apply_mac copy).symm, ?_⟩
      intro hconfiguring
      exact (hmark hconfiguring).trans (h.zcb.writing p copy update hpc).symm

theorem Sessions.Inv.clearall (h : s.Inv) : (s.next .clearall).Inv := by
  simp only [Sessions.next]
  split
  . next hpc =>
    constructor
    . exact h.sound.tables (Session.start h.sound.indexed).indexed
    . exact h.zcb
    . exact h.idle
    . intro _
      constructor
      . intro mac hmac
        cases hmac
      . intro i hlive hmark
        exfalso
        apply hmark
        apply marked_setClear
        intro hfree
        exact hlive ((congrFun (setClear_macs s.processes.db) i).trans hfree)
      . intro mac fresh hmissing
        rw [hpc] at hmissing
        cases hmissing
      . intro copy update hwriting
        rw [hpc] at hwriting
        cases hwriting
    . intro hphase
      cases hphase
  . exact h

theorem removeClear_indexed {db : Db} (h : Indexed db)
    : Indexed (newDbDevicesRemoveWithClearFlag db) := by
  intro i
  simp only [newDbDevicesRemoveWithClearFlag, Device.removeClear]
  split <;> exact h i

theorem Sessions.Inv.endconf (h : s.Inv) : (s.next .endconf).Inv := by
  simp only [Sessions.next]
  split
  . next hpc =>
    constructor
    . exact h.sound.tables (removeClear_indexed h.sound.indexed)
    . exact h.zcb
    . exact h.idle
    . intro hphase
      simp only at hphase
      split at hphase
      . cases hphase
      . cases hphase
    . intro hphase
      have hconfiguring : s.phase = .configuring := by
        by_contra hne
        simp [hne] at hphase
      have hconf := h.configuring hconfiguring
      constructor
      . exact hpc
      . intro mac hmac
        obtain ⟨hne, i, hi, hmark⟩ := hconf.present mac hmac
        exact ⟨hne, i, (swept_macs_eq_iff hne).mpr ⟨hi, hmark⟩, trivial⟩
      . intro i hlive _
        obtain ⟨hmac, hmark⟩ := (swept_macs_eq_iff hlive).mp rfl
        have hmem := hconf.only i (hmac ▸ hlive) hmark
        rw [hmac] at hmem
        exact hmem
  . exact h

theorem known_finish {d : Declaration} (id : Int)
    (hdeclaring : s.declaring = none ∨ s.declaring = some d)
    : ∀ mac ∈ s.known, mac ∈ (s.finish d id).known := by
  intro mac hmac
  rcases hdeclaring with hnone | hsome
  . simp only [Sessions.known, hnone] at hmac
    simp only [Sessions.known, Sessions.finish]
    simp at hmac ⊢
    tauto
  . simp only [Sessions.known, hsome] at hmac
    simp only [Sessions.known, Sessions.finish]
    simpa using hmac

theorem Sessions.Inv.declare (h : s.Inv) (d : Declaration)
    (hle : d.mac.1.toList.length ≤ LEN_MAC_NIBBLE) (hok : MarkKept s (.declare d hle))
    : (s.next (.declare d hle)).Inv := by
  have hsound := h.sound.access (.get 0 (d.edit s.topo))
  simp only [MarkKept] at hok
  simp only [Sessions.next]
  split
  . next hpc =>
    have hended : ∀ {p : Prop},
        (if s.phase = .configuring then Phase.configuring else .outside) = .ended → p := by
      intro p hphase
      split at hphase
      . cases hphase
      . cases hphase
    have hconfiguring :
        (if s.phase = .configuring then Phase.configuring else .outside) = .configuring →
          s.phase = .configuring := by
      intro hphase
      by_contra hne
      simp [hne] at hphase
    have hself : ∀ pc, (s.processes.goto 0 pc).pc 0 = pc := by
      intro pc
      rw [goto_pc, if_pos rfl]
    match hget : newDbGetDevice s.processes.db d.mac with
    | some device =>
      obtain ⟨i, rfl, hmac⟩ := newDbGetDevice_spec hget
      simp only [hget] at hok
      match hsaves : (d.edit s.topo).found.saves
          ((d.edit s.topo).found.apply (s.processes.db.devices i)) with
      | true =>
        have heq : s.processes.access (.get 0 (d.edit s.topo))
            = s.processes.goto 0 (.writing (s.processes.db.devices i) (d.edit s.topo).found) := by
          simp [Processes.access, hpc, edit_mac, hget, hsaves]
        rw [heq] at hsound
        simp only [Sessions.declare, heq, hself]
        constructor
        . exact hsound
        . exact h.zcb.goto_zero s.processes _
        . rw [hself]
          intro hidle
          cases hidle
        . intro hphase
          have hconf := h.configuring (hconfiguring hphase)
          constructor
          . exact hconf.present
          . apply hconf.only.mono
            intro mac hmem
            simp only [Sessions.known, h.idle hpc] at hmem
            simp only [Sessions.known]
            simp at hmem ⊢
            tauto
          . rw [hself]
            intro mac fresh hmissing
            cases hmissing
          . rw [hself]
            intro copy update hwriting
            obtain ⟨rfl, rfl⟩ := Pc.writing.inj hwriting
            exact ⟨d, rfl, hmac, edit_found_not_marked d s.topo _, i, h.sound.indexed i, hmac⟩
        . exact hended
      | false =>
        have heq : s.processes.access (.get 0 (d.edit s.topo)) = s.processes := by
          simp [Processes.access, hpc, edit_mac, hget, hsaves]
        simp only [Sessions.declare, heq, hpc, hget]
        constructor
        . exact h.sound
        . exact h.zcb
        . intro _
          rfl
        . intro hphase
          have hconf := h.configuring (hconfiguring hphase)
          have hmark : ¬ Marked (s.processes.db.devices i) := by
            intro hmark
            rw [hok (hconfiguring hphase) hmark] at hsaves
            cases hsaves
          constructor
          . intro mac hmem
            rcases List.mem_cons.mp hmem with rfl | hmem
            . exact ⟨d.mac.2, i, hmac, hmark⟩
            . exact hconf.present mac hmem
          . exact hconf.only.mono (known_finish (s.processes.db.devices i).id (.inl (h.idle hpc)))
          . intro mac fresh hmissing
            simp only [Sessions.finish, hpc] at hmissing
            cases hmissing
          . intro copy update hwriting
            simp only [Sessions.finish, hpc] at hwriting
            cases hwriting
        . exact hended
    | none =>
      obtain ⟨fresh, hfresh, hspec⟩ := edit_fresh d s.topo
      have heq : s.processes.access (.get 0 (d.edit s.topo))
          = s.processes.goto 0 (.missing (d.edit s.topo).mac fresh) := by
        simp [Processes.access, hpc, edit_mac, hget, hfresh]
      rw [heq] at hsound
      simp only [Sessions.declare, heq, hself]
      constructor
      . exact hsound
      . exact h.zcb.goto_zero s.processes _
      . rw [hself]
        intro hidle
        cases hidle
      . intro hphase
        have hconf := h.configuring (hconfiguring hphase)
        constructor
        . exact hconf.present
        . apply hconf.only.mono
          intro mac hmem
          simp only [Sessions.known, h.idle hpc] at hmem
          simp only [Sessions.known]
          simp at hmem ⊢
          tauto
        . rw [hself]
          intro mac fresh' hmissing
          obtain ⟨rfl, rfl⟩ := Pc.missing.inj hmissing
          rw [edit_mac]
          exact ⟨d, rfl, rfl, Text.key_eq hle, fun i now => (hspec i d.mac now).2⟩
        . rw [hself]
          intro copy update hwriting
          cases hwriting
      . exact hended
  . exact h

theorem Sessions.Inv.addDeclared (h : s.Inv) (now : Int) (hok : MarkKept s (.addDeclared now))
    : (s.next (.addDeclared now)).Inv := by
  have hsound := h.sound.access (.getNew 0 now)
  simp only [MarkKept] at hok
  simp only [Sessions.next]
  split
  . next mac fresh d hpc hdeclaring =>
    simp only [hpc] at hok
    have hself : ∀ (processes : Processes) pc, (processes.goto 0 pc).pc 0 = pc := by
      intro processes pc
      rw [goto_pc, if_pos rfl]
    have hbusy : s.phase ≠ .ended := by
      intro hphase
      have hidle := (h.ended hphase).idle
      rw [hpc] at hidle
      cases hidle
    obtain heq | ⟨mac', fresh', hpc', ⟨db, i, hfree, -, hdevices, heq⟩ | ⟨hfull, heq⟩⟩ :=
      access_getNew s.processes 0 now
    . rw [heq, hpc]
      exact h
    . rw [hpc] at hpc'
      obtain ⟨rfl, rfl⟩ := Pc.missing.inj hpc'
      rw [heq] at hsound
      simp only [heq, hself]
      constructor
      . exact hsound
      . exact h.zcb.goto_zero { s.processes with db } _
      . rw [hself]
        intro hidle
        cases hidle
      . intro hphase
        have hconf := h.configuring hphase
        obtain ⟨e, he, hmac, hkey, hfresh⟩ := hconf.missing mac fresh hpc
        obtain rfl := Option.some.inj (hdeclaring.symm.trans he)
        subst hmac
        constructor
        . exact hconf.present.update hdevices (.inl hfree)
        . apply hconf.only.update hdevices
          left
          have hmem : Text.key d.mac ∈ s.known := by
            rw [hkey]
            simp [Sessions.known, hdeclaring]
          exact hmem
        . rw [hself]
          intro mac fresh' hmissing
          cases hmissing
        . rw [hself]
          intro copy update hwriting
          obtain ⟨rfl, rfl⟩ := Pc.writing.inj hwriting
          refine ⟨d, hdeclaring, hkey, hfresh i now, i, rfl, ?_⟩
          have hrow : db.macs i = Text.key d.mac := by
            rw [macs_update hdevices, Function.update_self]
            rfl
          exact hrow.trans hkey
      . intro hphase
        exact absurd hphase hbusy
    . rw [heq] at hsound
      simp only [heq, hself]
      constructor
      . exact hsound
      . exact h.zcb.goto_zero s.processes _
      . intro _
        rfl
      . intro hphase
        obtain ⟨i, hi⟩ := hok hphase
        exact absurd hi (hfull i)
      . intro hphase
        exact absurd hphase hbusy
  . exact h

theorem Sessions.Inv.saveDeclared (h : s.Inv) (now : Int) : (s.next (.saveDeclared now)).Inv := by
  have hsound := h.sound.access (.set 0 now)
  simp only [Sessions.next]
  split
  . next copy update d hpc hdeclaring =>
    have heq : s.processes.access (.set 0 now)
        = { s.processes with
            db := (newDbSetDevice s.processes.db (update.apply copy) now).1 }.goto 0 .idle := by
      simp only [Processes.access, hpc]
    rw [heq] at hsound ⊢
    constructor
    . exact hsound
    . exact h.zcb.goto_zero { s.processes with
        db := (newDbSetDevice s.processes.db (update.apply copy) now).1 } _
    . intro _
      rfl
    . intro hphase
      have hconf := h.configuring hphase
      obtain ⟨e, he, hmac, hmark, i, hid, hi⟩ := hconf.writing copy update hpc
      obtain rfl := Option.some.inj (hdeclaring.symm.trans he)
      have hdevices := newDbSetDevice_devices s.processes.db now ((update.apply_id copy).trans hid)
      have hkey : (update.apply copy).mac = d.mac.1 := (update.apply_mac copy).trans hmac
      constructor
      . have hadded := hconf.present.add hdevices (hi.trans hkey.symm) (hkey ▸ d.mac.2) hmark
        simp only [hkey] at hadded
        exact hadded
      . apply (hconf.only.mono (known_finish copy.id (.inr hdeclaring))).update hdevices
        left
        have hmem : (update.apply copy).mac ∈ (s.finish d copy.id).known := by
          rw [hkey]
          simp [Sessions.known, Sessions.finish]
        exact hmem
      . intro mac fresh hmissing
        simp only [Sessions.finish, goto_pc] at hmissing
        cases hmissing
      . intro copy' update' hwriting
        simp only [Sessions.finish, goto_pc] at hwriting
        cases hwriting
    . intro hphase
      have hidle := (h.ended hphase).idle
      rw [hpc] at hidle
      cases hidle
  . exact h

theorem Sessions.Inv.step (s : Sessions) (a : SessionStep) (h : s.Inv) (hok : MarkKept s a)
    : (Sessions.step s a).1.Inv := by
  cases a with
  | clearall => exact h.clearall
  | endconf => exact h.endconf
  | declare d hle => exact h.declare d hle hok
  | addDeclared now => exact h.addDeclared now hok
  | saveDeclared now => exact h.saveDeclared now
  | zcbGet p update => exact h.zcbGet p update
  | zcbGetNew p now => exact h.zcbGetNew p now
  | zcbSet p now => exact h.zcbSet p now hok

end

/--
As long as nothing is copied in that takes the place or the mark of a row, the declared devices are
left after the session, and no others but those that have joined.
-/
theorem session_kept (db : Db) (hindexed : Indexed db) (topo : TopoState) (steps : List SessionStep)
    (hok : Machine.Along Sessions.step MarkKept (Sessions.start db topo) steps)
    (before after : List SessionStep) (hsteps : steps = before ++ after)
    : SessionKept (Machine.exec Sessions.step (Sessions.start db topo) before) := by
  rw [hsteps, Machine.along_append] at hok
  have hinv := Machine.inv_exec Sessions.step Sessions.Inv.step (Sessions.Inv.start hindexed topo) hok.1
  exact hinv.kept

def hallMac : Text := ⟨"00158D0000350F1D", by decide⟩

def hallName : Text := ⟨"Hall", by decide⟩

/--
A sensor joins, is declared in a session, and reports before it is declared.
-/
def reportedBefore : List SessionStep :=
  [.zcbGet 0 (.announce hallMac "sen" none ""), .zcbGetNew 0 1, .zcbSet 0 1, .clearall,
    .zcbGet 0 (.sensor hallMac 2150 40 (-1) (-1) (-1)), .zcbSet 0 2,
    .declare { kind := .sen, mac := hallMac, nm := hallName } (by decide), .saveDeclared 3, .endconf]

theorem session_kept_reportedBefore
    : SessionKept (Machine.exec Sessions.step (Sessions.start Db.init {}) reportedBefore) := by
  apply session_kept Db.init Db.init_indexed {} reportedBefore _ reportedBefore []
  . exact (List.append_nil _).symm
  . decide

/--
The sensor reports while it is declared, and the mark that has been copied out comes back.
-/
def reportedMeanwhile : List SessionStep :=
  [.zcbGet 0 (.announce hallMac "sen" none ""), .zcbGetNew 0 1, .zcbSet 0 1, .clearall,
    .zcbGet 0 (.sensor hallMac 2150 40 (-1) (-1) (-1)),
    .declare { kind := .sen, mac := hallMac, nm := hallName } (by decide), .saveDeclared 3,
    .zcbSet 0 3, .endconf]

theorem reportedMeanwhile_not_kept
    : ¬ SessionKept
        (Machine.exec Sessions.step (Sessions.start Db.init {}) reportedMeanwhile) := by
  intro h
  obtain ⟨hdeclared, -⟩ := h (by decide)
  have hrow := hdeclared hallMac (by decide)
  revert hrow
  decide

end Gateway
