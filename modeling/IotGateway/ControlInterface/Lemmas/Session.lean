import IotGateway.ControlInterface.Lemmas.Declared
import IotGateway.Lib.Slots
import IotGateway.NewDb.Lemmas.Edit

/-!
This module contains what a topology session does to the device table.
-/

namespace ControlInterface

open NewDb Table

def fieldsOf (device : Device) : Fields Int where
  dev := device.dev
  par := device.par
  nm := device.nm

/--
What a declaration finds in a row. In a free one it finds a new device.
-/
def startOf (device : Device) : Fields Int :=
  if device.mac = "" then { dev := DEVICE_DEV_UNKNOWN, par := 0, nm := "" } else fieldsOf device

/--
The device is deleted by the end of the configuration.
-/
def Marked (device : Device) : Prop := device.flags &&& FLAG_TOPO_CLEAR ≠ 0

instance (device : Device) : Decidable (Marked device) := inferInstanceAs (Decidable (_ ≠ _))

def TopoState.parent (s : TopoState) : DeviceKind → Int
  | .ui => s.currentManager
  | .sen => s.currentUI
  | .pmp => s.currentSensor
  | .man | .lmp | .plg => 0

section

variable (d : Declaration) (s : TopoState) (device : Device)

theorem edit_mac : (d.edit s).mac = d.mac := by
  unfold Declaration.edit
  cases d.kind <;> rfl

theorem clearTopo_not_marked (flags : BitVec 32) : clearTopo flags &&& FLAG_TOPO_CLEAR = 0 := by
  unfold clearTopo FLAG_TOPO_CLEAR FLAG_ADDED_BY_GW
  ext i hi
  simp only [BitVec.getElem_and, BitVec.getElem_not, BitVec.getElem_or]
  cases (0x10#32)[i] <;> simp

theorem becomeSensor_fields (nm : Text) (ui : Int)
    : fieldsOf (becomeSensor nm ui device)
        = (fieldsOf device).declare .sen ui (newDbStrNcpy "" (some nm.1) LEN_NM) := by
  have hui : ¬ IsSensor DEVICE_DEV_UI := by decide
  unfold becomeSensor
  split
  . next hdev =>
    simp [fieldsOf, Fields.declare, DeviceKind.nextDev, DeviceKind.SetsPar, DeviceKind.SetsName,
      IsSensor, hdev, newDbStrNcpy]
  . next hunknown =>
    split
    . next hdev =>
      simp only [fieldsOf, hdev, Fields.declare, DeviceKind.SetsPar, DeviceKind.SetsName, hui]
      rfl
    . next hnotui =>
      split
      . next hdev =>
        have hsensor : IsSensor DEVICE_DEV_SENSOR := .inr rfl
        simp only [fieldsOf, hdev, Fields.declare, DeviceKind.SetsPar, DeviceKind.SetsName, hsensor]
        rfl
      . next hsensor =>
        simp [fieldsOf, Fields.declare, DeviceKind.nextDev, DeviceKind.SetsPar,
          DeviceKind.SetsName, IsSensor, hunknown, hnotui, hsensor]

theorem edit_found
    : fieldsOf ((d.edit s).found.apply device)
        = (fieldsOf device).declare d.kind (s.parent d.kind) d.name := by
  unfold Declaration.edit Declaration.name
  match d.kind with
  | .sen => exact becomeSensor_fields device d.nm s.currentUI
  | .man | .ui | .pmp | .lmp | .plg => rfl

theorem edit_found_not_marked : ¬ Marked ((d.edit s).found.apply device) := by
  rw [Marked, not_not]
  unfold Declaration.edit
  cases d.kind <;> exact clearTopo_not_marked _

theorem becomeSensor_dev (nm : Text) (ui : Int)
    : (becomeSensor nm ui device).dev = DeviceKind.sen.nextDev device.dev :=
  congrArg Fields.dev (becomeSensor_fields device nm ui)

/--
Only a sensor declaration may fail to copy the device in.
-/
theorem edit_saves (h : d.kind ≠ .sen ∨ IsSensor device.dev)
    : (d.edit s).found.saves ((d.edit s).found.apply device) = true := by
  unfold Declaration.edit
  match hkind : d.kind with
  | .sen =>
    simp only [addSensor, becomeSensor_dev]
    rcases h with h | hdev | hdev
    . exact absurd hkind h
    . rw [hdev]
      rfl
    . rw [hdev]
      rfl
  | .man | .ui | .pmp | .lmp | .plg => rfl

theorem edit_unsaved (h : (d.edit s).found.saves ((d.edit s).found.apply device) = false)
    : fieldsOf ((d.edit s).found.apply device) = fieldsOf device := by
  by_cases hsensor : d.kind ≠ .sen ∨ IsSensor device.dev
  . rw [edit_saves d s device hsensor] at h
    cases h
  . rw [not_or, not_not] at hsensor
    obtain ⟨hkind, hdev⟩ := hsensor
    have hui : device.dev ≠ DEVICE_DEV_UI := by
      intro hui
      simp only [Declaration.edit, hkind, addSensor, becomeSensor_dev, hui] at h
      revert h
      decide
    rw [edit_found, hkind]
    rw [IsSensor, not_or] at hdev
    simp [fieldsOf, Fields.declare, DeviceKind.nextDev, DeviceKind.SetsPar, DeviceKind.SetsName,
      IsSensor, hdev, hui]

theorem lampDefaults_fields (type : Option String)
    : fieldsOf (lampDefaults type device) = fieldsOf device := by
  unfold lampDefaults
  simp only
  split
  . rfl
  . split
    . rfl
    . split <;> rfl

theorem edit_fresh
    : ∃ fresh, (d.edit s).fresh = some fresh
        ∧ ∀ i mac now,
            fieldsOf (fresh.apply (newDevice i mac now))
                = Fields.declare d.kind (s.parent d.kind) d.name ⟨DEVICE_DEV_UNKNOWN, 0, ""⟩
              ∧ ¬ Marked (fresh.apply (newDevice i mac now)) := by
  have hflags : ¬ (FLAG_NONE &&& FLAG_TOPO_CLEAR ≠ 0) := by decide
  unfold Declaration.edit Declaration.name
  match d.kind with
  | .lmp =>
    refine ⟨_, rfl, ?_⟩
    intro i mac now
    refine ⟨?_, hflags⟩
    exact lampDefaults_fields _ (d.ty.map (·.1))
  | .man | .ui | .sen | .pmp | .plg =>
    refine ⟨_, rfl, ?_⟩
    intro i mac now
    exact ⟨rfl, hflags⟩

end

/--
What the declaration of a device does to its row `i`. The others stay.
-/
structure Declared (d : Declaration) (s : TopoState) (i : Fin NEWDB_MAX_DEVICES) (db db' : Db) : Prop where
  indexed : Indexed db'
  row : first (· == d.mac.1) db'.macs = some i
  macs : db'.macs = place "" db.macs d.mac.1
  others : ∀ j, j ≠ i → db'.devices j = db.devices j
  fields : fieldsOf (db'.devices i)
    = (startOf (db.devices i)).declare d.kind (s.parent d.kind) d.name
  saved : d.kind ≠ .sen ∨ IsSensor (startOf (db.devices i)).dev → ¬ Marked (db'.devices i)
  kept : db.macs i ≠ "" → ¬ Marked (db.devices i) → ¬ Marked (db'.devices i)

section

variable {d : Declaration} {s : TopoState} {now now' : Int} {db db' : Db}
  {i : Fin NEWDB_MAX_DEVICES}

theorem startOf_eq {device : Device} (h : device.mac ≠ "") : startOf device = fieldsOf device :=
  if_neg h

theorem startOf_free {device : Device} (h : device.mac = "")
    : startOf device = ⟨DEVICE_DEV_UNKNOWN, 0, ""⟩ := if_pos h

theorem run_found (hindexed : Indexed db) (hrow : first (· == d.mac.1) db.macs = some i)
    : ((d.edit s).run now now' db).2 = i ∧ Declared d s i db ((d.edit s).run now now' db).1 := by
  have hlive : (db.devices i).mac ≠ "" := by
    intro hfree
    exact d.mac.2 ((first_key hrow).symm.trans hfree)
  rw [← edit_mac d s] at hrow
  match hsaves : (d.edit s).found.saves ((d.edit s).found.apply (db.devices i)) with
  | true =>
    obtain ⟨hid, hwritten⟩ := Edit.run_found _ now now' hindexed hrow hsaves
    refine ⟨hid, ?_⟩
    have hnot := edit_found_not_marked d s (db.devices i)
    constructor
    . exact hwritten.indexed
    . rw [← edit_mac d s]
      exact hwritten.row
    . rw [← edit_mac d s]
      exact hwritten.macs
    . exact hwritten.others
    . rw [hwritten.device, startOf_eq hlive]
      exact edit_found d s (db.devices i)
    . intro _
      rw [hwritten.device]
      exact hnot
    . intro _ _
      rw [hwritten.device]
      exact hnot
  | false =>
    have hget := newDbGetDevice_eq_some_iff.mpr ⟨i, hrow, rfl⟩
    rw [Edit.run_unsaved now now' hget hindexed hsaves]
    rw [edit_mac] at hrow
    refine ⟨rfl, ?_⟩
    constructor
    . exact hindexed
    . exact hrow
    . exact (place_of_mem hrow).symm
    . intro _ _
      rfl
    . rw [startOf_eq hlive, ← edit_found]
      exact (edit_unsaved d s (db.devices i) hsaves).symm
    . intro hsaved
      rw [startOf_eq hlive] at hsaved
      rw [edit_saves d s (db.devices i) hsaved] at hsaves
      cases hsaves
    . intro _ hmark
      exact hmark

theorem run_fresh (hindexed : Indexed db) (hmac : d.mac.1.toList.length ≤ LEN_MAC_NIBBLE)
    (hrow : first (· == d.mac.1) db.macs = none) (hfree : first (· == "") db.macs = some i)
    : ((d.edit s).run now now' db).2 = i ∧ Declared d s i db ((d.edit s).run now now' db).1 := by
  obtain ⟨fresh, hfresh, hspec⟩ := edit_fresh d s
  have hblank : (db.devices i).mac = "" := first_key hfree
  rw [← edit_mac d s] at hmac hrow
  obtain ⟨hid, hwritten⟩ := Edit.run_fresh now now' hindexed hmac hrow hfree hfresh
  obtain ⟨hfields, hmark⟩ := hspec i (d.edit s).mac now
  refine ⟨hid, ?_⟩
  constructor
  . exact hwritten.indexed
  . rw [← edit_mac d s]
    exact hwritten.row
  . rw [← edit_mac d s]
    exact hwritten.macs
  . exact hwritten.others
  . rw [hwritten.device, startOf_free hblank]
    exact hfields
  . intro _
    rw [hwritten.device]
    exact hmark
  . intro hlive
    exact absurd hblank hlive

end

/--
The parent with the index `par`, where the column of MAC addresses is `macs`.
-/
def Represents (macs : Fin NEWDB_MAX_DEVICES → String) (par : Int) : Parent → Prop
  | .noRow => par = -1
  | .unset => par = 0
  | .device mac => ∃ i : Fin NEWDB_MAX_DEVICES, first (· == mac.1) macs = some i ∧ par = i

def macsOf (declarations : List Declaration) : List String := declarations.map fun d => d.mac.1

/--
The row `i` of a device, where `db₀` is the table before the session.
-/
structure RowTracks (db₀ db : Db) (declarations : List Declaration) (mac : String)
    (i : Fin NEWDB_MAX_DEVICES) : Prop where
  tracks : Tracks (Represents db.macs) (startOf (db₀.devices i)).dev (startOf (db₀.devices i)).par
    (kindsOf declarations mac) (startOf (db.devices i)) ((planOf declarations).entry mac)
  live : kindsOf declarations mac ≠ [] → db.macs i ≠ ""
  unmarked : kindsOf declarations mac ≠ [] →
    (∃ kind ∈ kindsOf declarations mac, kind ≠ .sen) ∨ IsSensor (startOf (db₀.devices i)).dev →
      ¬ Marked (db.devices i)

/--
The tables after some declarations.
-/
structure Session (db₀ : Db) (declarations : List Declaration) (s : TopoState) (db : Db) : Prop where
  indexed : Indexed db
  placed : db.macs = places "" db₀.macs (macsOf declarations)
  untouched : ∀ i, db₀.macs i ≠ "" →
    db₀.macs i ∉ macsOf declarations ∨ first (· == db₀.macs i) db.macs ≠ some i →
      db.devices i = (db₀.devices i).setClear
  rows : ∀ mac ∈ macsOf declarations, ∃ i, first (· == mac) db.macs = some i
    ∧ RowTracks db₀ db declarations mac i
  parents : ∀ kind, Represents db.macs (s.parent kind) ((planOf declarations).parent kind)

section

variable {db₀ db db' : Db} {declarations : List Declaration} {d : Declaration} {s : TopoState}
  {i : Fin NEWDB_MAX_DEVICES}

theorem Represents.place {macs : Fin NEWDB_MAX_DEVICES → String} {par : Int} {parent : Parent}
    (h : Represents macs par parent) (mac : String)
    : Represents (place "" macs mac) par parent := by
  cases parent with
  | noRow => exact h
  | unset => exact h
  | device m =>
    obtain ⟨i, hfirst, hpar⟩ := h
    exact ⟨i, first_place hfirst m.2 mac, hpar⟩

theorem planOf_append_single : planOf (declarations ++ [d]) = (planOf declarations).declare d := by
  simp [planOf]

theorem kindsOf_append_self
    : kindsOf (declarations ++ [d]) d.mac = kindsOf declarations d.mac ++ [d.kind] := by
  simp [kindsOf]

theorem kindsOf_append_of_ne {mac : String} (h : d.mac.1 ≠ mac)
    : kindsOf (declarations ++ [d]) mac = kindsOf declarations mac := by
  simp [kindsOf, h]

theorem kindsOf_eq_nil_iff {mac : String}
    : kindsOf declarations mac = [] ↔ mac ∉ macsOf declarations := by
  simp [kindsOf, macsOf]

theorem macsOf_append_single : macsOf (declarations ++ [d]) = macsOf declarations ++ [d.mac.1] := by
  simp [macsOf]

theorem entry_declare_self (plan : Plan)
    : (plan.declare d).entry d.mac = (plan.entry d.mac).declare d.kind (plan.parent d.kind) d.name := by
  simp [Plan.declare, Plan.entry]

theorem entry_declare_of_ne (plan : Plan) {mac : String} (h : d.mac.1 ≠ mac)
    : (plan.declare d).entry mac = plan.entry mac := by
  simp [Plan.declare, Plan.entry, Function.update_of_ne (Ne.symm h)]

theorem entry_of_not_mem {mac : String} (h : mac ∉ macsOf declarations)
    : (planOf declarations).entry mac = ⟨DEVICE_DEV_UNKNOWN, .unset, ""⟩ := by
  induction declarations using List.reverseRecOn with
  | nil => rfl
  | append_singleton declarations d ih =>
    rw [macsOf_append_single, List.mem_append, not_or, List.mem_singleton] at h
    rw [planOf_append_single, entry_declare_of_ne _ (Ne.symm h.2)]
    exact ih h.1

theorem startOf_setClear (device : Device) : startOf device.setClear = startOf device := by
  unfold Device.setClear
  split
  . rfl
  . rfl

theorem marked_setClear {device : Device} (h : device.mac ≠ "") : Marked device.setClear := by
  rw [Device.setClear, if_neg h, Marked]
  intro hzero
  have hbit := congrArg (fun flags => flags.getLsbD 4) hzero
  simp [FLAG_TOPO_CLEAR] at hbit

theorem swept_row (db : Db) (i : Fin NEWDB_MAX_DEVICES)
    : fieldsOf ((newDbDevicesRemoveWithClearFlag db).devices i) = fieldsOf (db.devices i)
        ∧ (newDbDevicesRemoveWithClearFlag db).macs i
            = if Marked (db.devices i) then "" else db.macs i := by
  by_cases hmark : Marked (db.devices i)
  . have hrow : (newDbDevicesRemoveWithClearFlag db).devices i = { db.devices i with mac := "" } :=
      if_pos hmark
    rw [if_pos hmark, Db.macs, hrow]
    exact ⟨rfl, rfl⟩
  . have hrow : (newDbDevicesRemoveWithClearFlag db).devices i = db.devices i := if_neg hmark
    rw [if_neg hmark, Db.macs, hrow]
    exact ⟨rfl, rfl⟩

theorem swept_macs_eq_iff {mac : String} (hmac : mac ≠ "")
    : (newDbDevicesRemoveWithClearFlag db).macs i = mac
      ↔ db.macs i = mac ∧ ¬ Marked (db.devices i) := by
  rw [(swept_row db i).2]
  split
  . next hmark => simp [hmark, hmac.symm]
  . next hmark => simp [hmark]

theorem Session.fresh (h : Session db₀ declarations s db) (hfree : db₀.macs i = "")
    (hlive : db.macs i ≠ "")
    : db.macs i ∈ macsOf declarations
        ∧ (∀ j, db₀.macs j ≠ db.macs i)
        ∧ ∀ j, db.macs j = db.macs i → j = i := by
  rw [h.placed] at hlive ⊢
  exact places_fresh hfree hlive

theorem Session.macs_eq (h : Session db₀ declarations s db) (hlive : db₀.macs i ≠ "")
    : db.macs i = db₀.macs i := by
  rw [h.placed]
  exact places_occupied hlive _

theorem Session.row (h : Session db₀ declarations s db) (hrun : Declared d s i db db')
    : RowTracks db₀ db declarations d.mac i := by
  by_cases hmem : d.mac.1 ∈ macsOf declarations
  . obtain ⟨j, hfirst, hrow⟩ := h.rows d.mac hmem
    have hij := hrun.row
    rw [hrun.macs, first_place hfirst d.mac.2] at hij
    obtain rfl := Option.some.inj hij
    exact hrow
  . have hmac : db.macs i ≠ "" → db.macs i = d.mac.1 := by
      intro hlive
      rw [← first_key hrun.row, hrun.macs, place_occupied hlive]
    have hstart : startOf (db.devices i) = startOf (db₀.devices i) := by
      by_cases hfree : db₀.macs i = ""
      . rw [startOf_free hfree, startOf_free]
        by_contra hlive
        apply hmem
        rw [← hmac hlive]
        exact (h.fresh hfree hlive).1
      . have heq := h.macs_eq hfree
        rw [h.untouched i hfree, startOf_setClear]
        left
        rwa [← heq, hmac (heq ▸ hfree)]
    have hkinds : kindsOf declarations d.mac = [] := kindsOf_eq_nil_iff.mpr hmem
    constructor
    . rw [hkinds, hstart, entry_of_not_mem hmem]
      exact Tracks.start _ _ _ _
    . intro hne
      exact absurd hkinds hne
    . intro hne
      exact absurd hkinds hne

theorem RowTracks.declare (h : RowTracks db₀ db declarations d.mac i) (hrun : Declared d s i db db')
    (hparent : Represents db.macs (s.parent d.kind) ((planOf declarations).parent d.kind))
    : RowTracks db₀ db' (declarations ++ [d]) d.mac i := by
  have hmac : (db'.devices i).mac = d.mac.1 := first_key hrun.row
  have hlive : (db'.devices i).mac ≠ "" := by
    rw [hmac]
    exact d.mac.2
  constructor
  . rw [kindsOf_append_self, planOf_append_single, entry_declare_self, startOf_eq hlive,
      hrun.fields]
    apply Tracks.declare
    . apply h.tracks.mono
      intro par parent hrep
      rw [hrun.macs]
      exact hrep.place d.mac
    . rw [hrun.macs]
      exact hparent.place d.mac
  . intro _
    exact hlive
  . rw [kindsOf_append_self, nonSensor_append]
    intro _ hcase
    by_cases hall : ∃ kind ∈ kindsOf declarations d.mac, kind ≠ .sen
    . have hne : kindsOf declarations d.mac ≠ [] := by
        intro hnil
        obtain ⟨kind, hkind, -⟩ := hall
        rw [hnil] at hkind
        cases hkind
      exact hrun.kept (h.live hne) (h.unmarked hne (.inl hall))
    . apply hrun.saved
      rcases hcase with (hnon | hkind) | hdev
      . exact absurd hnon hall
      . exact .inl hkind
      . exact .inr (h.tracks.isSensor hdev hall).1

theorem RowTracks.other {j : Fin NEWDB_MAX_DEVICES} {mac : String}
    (hrow : RowTracks db₀ db declarations mac j) (hrun : Declared d s i db db')
    (hmac : d.mac.1 ≠ mac) (hj : j ≠ i)
    : RowTracks db₀ db' (declarations ++ [d]) mac j := by
  have hsame := hrun.others j hj
  constructor
  . rw [kindsOf_append_of_ne hmac, planOf_append_single, entry_declare_of_ne _ hmac, hsame]
    apply hrow.tracks.mono
    intro par parent hrep
    rw [hrun.macs]
    exact hrep.place d.mac
  . rw [kindsOf_append_of_ne hmac, Db.macs, hsame]
    exact hrow.live
  . rw [kindsOf_append_of_ne hmac, hsame]
    exact hrow.unmarked

theorem parents_after (hrun : Declared d s i db db')
    (hparents : ∀ kind, Represents db.macs (s.parent kind) ((planOf declarations).parent kind))
    (kind : DeviceKind)
    : Represents db'.macs ((d.kind.after i s).parent kind)
        ((planOf (declarations ++ [d])).parent kind) := by
  have hself : Represents db'.macs i (.device d.mac) := ⟨i, hrun.row, rfl⟩
  have hplace : Represents db'.macs (s.parent kind) ((planOf declarations).parent kind) := by
    rw [hrun.macs]
    exact (hparents kind).place d.mac
  rw [planOf_append_single]
  unfold Plan.declare
  revert hplace
  cases d.kind <;> cases kind <;> intro hplace <;> first | exact hplace | exact hself | rfl

theorem Session.declare (h : Session db₀ declarations s db) (hrun : Declared d s i db db')
    : Session db₀ (declarations ++ [d]) (d.kind.after i s) db' := by
  have hrow := h.row hrun
  constructor
  . exact hrun.indexed
  . rw [macsOf_append_single, places_append_single, ← h.placed]
    exact hrun.macs
  . intro j hlive hcase
    rw [macsOf_append_single, List.mem_append, List.mem_singleton] at hcase
    have hj : j ≠ i := by
      rintro rfl
      have hmac := first_key hrun.row
      rw [hrun.macs, place_occupied, h.macs_eq hlive] at hmac
      . rcases hcase with hmem | hfirst
        . exact hmem (.inr hmac)
        . rw [hmac] at hfirst
          exact hfirst hrun.row
      . rwa [h.macs_eq hlive]
    rw [hrun.others j hj]
    apply h.untouched j hlive
    rcases hcase with hmem | hfirst
    . exact .inl fun hold => hmem (.inl hold)
    . right
      intro hold
      apply hfirst
      rw [hrun.macs]
      exact first_place hold hlive d.mac
  . intro mac hmem
    rw [macsOf_append_single, List.mem_append, List.mem_singleton] at hmem
    by_cases hmac : d.mac.1 = mac
    . subst hmac
      exact ⟨i, hrun.row, hrow.declare hrun (h.parents d.kind)⟩
    . obtain ⟨j, hfirst, hother⟩ := h.rows mac (hmem.resolve_right (Ne.symm hmac))
      have hne : mac ≠ "" := by
        rintro rfl
        obtain ⟨e, -, he⟩ := List.mem_map.mp (hmem.resolve_right (Ne.symm hmac))
        exact e.mac.2 he
      have hfirst' : first (· == mac) db'.macs = some j := by
        rw [hrun.macs]
        exact first_place hfirst hne d.mac
      have hj : j ≠ i := by
        rintro rfl
        apply hmac
        rw [← first_key hrun.row, ← first_key hfirst']
      exact ⟨j, hfirst', hother.other hrun hmac hj⟩
  . exact parents_after hrun h.parents

end

/--
There are enough free rows for the devices that are not in the table.
-/
def Fits (db : Db) (declarations : List Declaration) : Prop :=
  (occupied "" db.macs).card + (missing db.macs (macsOf declarations)).card ≤ NEWDB_MAX_DEVICES

section

variable {db₀ db : Db} {declarations all : List Declaration} {d : Declaration} {s : TopoState}

theorem setClear_macs (db : Db) : (newDbDevicesSetClearFlag db).macs = db.macs := by
  funext i
  simp only [Db.macs, newDbDevicesSetClearFlag, Device.setClear]
  split <;> rfl

theorem Session.start (hindexed : Indexed db₀)
    : Session db₀ [] { currentManager := -1, currentUI := -1, currentSensor := -1 }
        (newDbDevicesSetClearFlag db₀) := by
  constructor
  . intro i
    simp only [newDbDevicesSetClearFlag, Device.setClear]
    split <;> exact hindexed i
  . exact setClear_macs db₀
  . intro i _ _
    rfl
  . intro mac hmem
    cases hmem
  . intro kind
    cases kind <;> rfl

theorem Session.run (h : Session db₀ declarations s db) (hfits : Fits db₀ all)
    (hall : ∀ d ∈ declarations, d ∈ all) (hd : d ∈ all)
    (hmac : d.mac.1.toList.length ≤ LEN_MAC_NIBBLE) (now now' : Int)
    : Session db₀ (declarations ++ [d]) (topoRun (.declare d) now now' s db).1
        (topoRun (.declare d) now now' s db).2 := by
  have hrun : ∃ i : Fin NEWDB_MAX_DEVICES, ((d.edit s).run now now' db).2 = i
      ∧ Declared d s i db ((d.edit s).run now now' db).1 := by
    match hrow : first (· == d.mac.1) db.macs with
    | some i => exact ⟨i, run_found h.indexed hrow⟩
    | none =>
      have hmissing := first_eq_none_iff_ne.mp hrow
      obtain ⟨j, hj⟩ : ∃ j, db.macs j = "" := by
        rw [h.placed] at hmissing ⊢
        apply exists_free_slot hfits ?_ (List.mem_map_of_mem hd) hmissing d.mac.2
        intro mac hmem
        obtain ⟨e, he, rfl⟩ := List.mem_map.mp hmem
        exact List.mem_map_of_mem (hall e he)
      obtain ⟨i, hfree⟩ := Option.isSome_iff_exists.mp
        (first_isSome_iff (p := (· == "")).mpr ⟨j, beq_iff_eq.mpr hj⟩)
      exact ⟨i, run_fresh h.indexed hmac hrow hfree⟩
  obtain ⟨i, hid, hdeclared⟩ := hrun
  simp only [topoRun, hid]
  exact h.declare hdeclared

theorem Session.declareAll (hfits : Fits db₀ all)
    (hmacs : ∀ d ∈ all, d.mac.1.toList.length ≤ LEN_MAC_NIBBLE) (ts : List Timed)
    : ∀ declarations s db, Session db₀ declarations s db → (∀ d ∈ declarations, d ∈ all) →
        (∀ t ∈ ts, t.declaration ∈ all) →
          Session db₀ (declarations ++ ts.map Timed.declaration)
            (ControlInterface.declareAll ts s db).1 (ControlInterface.declareAll ts s db).2 := by
  induction ts with
  | nil =>
    intro declarations s db h _ _
    rw [List.map_nil, List.append_nil]
    exact h
  | cons t rest ih =>
    intro declarations s db h hall hts
    have ht := hts t List.mem_cons_self
    have hnext := h.run hfits hall ht (hmacs _ ht) t.now t.now'
    rw [List.map_cons, List.append_cons]
    apply ih _ _ _ hnext
    . intro d hd
      rcases List.mem_append.mp hd with hd | hd
      . exact hall d hd
      . rw [List.mem_singleton.mp hd]
        exact ht
    . intro t' ht'
      exact hts t' (List.mem_cons_of_mem t ht')

theorem Session.ended (hindexed : Indexed db₀) (ts : List Timed)
    (hmacs : ∀ t ∈ ts, t.declaration.mac.1.toList.length ≤ LEN_MAC_NIBBLE)
    (hfits : Fits db₀ (ts.map Timed.declaration)) (s : TopoState)
    : ∃ s' db, Session db₀ (ts.map Timed.declaration) s' db
        ∧ topoSession ts s db₀ = newDbDevicesRemoveWithClearFlag db := by
  have h := Session.declareAll hfits ?_ ts [] _ _ (Session.start hindexed) ?_ ?_
  . exact ⟨_, _, h, rfl⟩
  . intro d hd
    obtain ⟨t, ht, rfl⟩ := List.mem_map.mp hd
    exact hmacs t ht
  . intro d hd
    cases hd
  . intro t ht
    exact List.mem_map_of_mem ht

end

end ControlInterface
