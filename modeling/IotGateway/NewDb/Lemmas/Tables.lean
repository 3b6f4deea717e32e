import IotGateway.NewDb.Lemmas.Edit

/-!
This module contains which table a call works on, and what the calls do to the rows of the system
table.
-/

namespace NewDb

open Table

/--
The table that a call works on.
-/
inductive Mutation.Works where
  | system
  | devices
  | plughist
  | zcb

def Mutation.works : Mutation → Works
  | .newSystem .. | .setSystem .. | .emptySystem .. | .deleteSystem .. => .system
  | .newDevice .. | .setDevice .. | .emptyDevices .. | .deleteDevice .. => .devices
  | .setClearFlag | .removeWithClearFlag => .devices
  | .newPlugHist .. | .setPlugHist .. | .emptyPlugHist .. | .deletePlugHist .. => .plughist
  | .newZcb .. | .setZcb .. | .emptyZcb .. => .zcb

/--
`db'` is `db` in all tables but one.
-/
structure Frame (works : Mutation.Works) (db db' : Db) : Prop where
  system : works ≠ .system → db'.system = db.system
  devices : works ≠ .devices → db'.devices = db.devices
  plughist : works ≠ .plughist → db'.plughist = db.plughist
  zcb : works ≠ .zcb → db'.zcb = db.zcb

theorem Frame.refl {works : Mutation.Works} {db : Db} : Frame works db db :=
  ⟨fun _ => rfl, fun _ => rfl, fun _ => rfl, fun _ => rfl⟩

theorem Mutation.apply_frame (db : Db) (m : Mutation) : Frame m.works db (m.apply db) := by
  cases m
  case newPlugHist mac min now =>
    unfold apply newDbGetMatchingOrNewPlugHist
    generalize (List.finRange NEWDB_MAX_PLUGHIST).foldl (PlugHistScan.next db mac min) {} = scan
    simp only
    split
    . constructor <;> simp [works]
    . exact Frame.refl
  case newZcb mac now =>
    unfold apply newDbGetNewZcb
    generalize (List.finRange NEWDB_MAX_ZCB).foldl (ZcbScan.next db) { oldest := now } = scan
    simp only
    split
    . constructor <;> simp [works]
    . exact Frame.refl
  case emptySystem | emptyDevices | emptyPlugHist | emptyZcb | setClearFlag | removeWithClearFlag =>
    constructor <;> simp [works, apply, newDbEmptySystem, newDbEmptyDevices, newDbEmptyPlugHist,
      newDbEmptyZcb, newDbDevicesSetClearFlag, newDbDevicesRemoveWithClearFlag]
  all_goals
    simp only [apply, newDbGetNewSystem, newDbSetSystem, newDbDeleteSystem, newDbGetNewDevice,
      newDbSetDevice, newDbDeleteDevice, newDbSetPlugHist, newDbDeletePlugHist, newDbSetZcb]
    split
    . constructor <;> simp [works]
    . exact Frame.refl

theorem Indexed.apply {db : Db} (h : Indexed db) (m : Mutation) : Indexed (m.apply db) := by
  cases m with
  | newDevice mac now => exact h.newDbGetNewDevice mac now
  | setDevice dev now => exact h.newDbSetDevice
  | emptyDevices mode now => exact fun _ => rfl
  | deleteDevice mac now => exact h.newDbDeleteDevice
  | setClearFlag =>
    intro i
    simp only [Mutation.apply, newDbDevicesSetClearFlag, Device.setClear]
    split <;> exact h i
  | removeWithClearFlag =>
    intro i
    simp only [Mutation.apply, newDbDevicesRemoveWithClearFlag, Device.removeClear]
    split <;> exact h i
  | _ =>
    rw [Indexed, (Mutation.apply_frame db _).devices (by simp [Mutation.works])]
    exact h

/--
Every row knows its index.
-/
def SystemIndexed (db : Db) : Prop := ∀ i, (db.system i).id = i

theorem Db.init_systemIndexed : SystemIndexed Db.init := fun _ => rfl

theorem SystemIndexed.update {db : Db} (h : SystemIndexed db) {i : Fin NEWDB_MAX_SYSTEM}
    {sys : System} (hid : sys.id = i) (j : Fin NEWDB_MAX_SYSTEM)
    : (Function.update db.system i sys j).id = j := by
  by_cases hj : j = i
  . rw [hj, Function.update_self]
    exact hid
  . rw [Function.update_of_ne hj]
    exact h j

theorem SystemIndexed.apply {db : Db} (h : SystemIndexed db) (m : Mutation)
    : SystemIndexed (m.apply db) := by
  cases m with
  | newSystem name now =>
    simp only [Mutation.apply, newDbGetNewSystem]
    split
    . exact h.update rfl
    . exact h
  | setSystem sys now =>
    simp only [Mutation.apply, newDbSetSystem]
    split
    . next hset =>
      obtain ⟨i, hrow, rfl⟩ := Option.map_eq_some_iff.mp hset
      exact h.update (rowOf_eq_some_iff.mp hrow)
    . exact h
  | emptySystem now => exact fun _ => rfl
  | deleteSystem name now =>
    simp only [Mutation.apply, newDbDeleteSystem]
    split
    . exact h.update (h _)
    . exact h
  | _ =>
    rw [SystemIndexed, (Mutation.apply_frame db _).system (by simp [Mutation.works])]
    exact h

section

variable {db : Db} {name : String} {i : Fin NEWDB_MAX_SYSTEM} {sys : System}

/--
The row that is found under `name`.
-/
def Named (db : Db) (name : String) (i : Fin NEWDB_MAX_SYSTEM) : Prop :=
  first (fun sys => sys.name == name) db.system = some i

theorem named_iff
    : Named db name i ↔ (db.system i).name = name ∧ ∀ j < i, (db.system j).name ≠ name := by
  rw [Named, first_eq_some_iff]
  simp

theorem newDbGetSystem_eq_some_iff
    : newDbGetSystem db name = some sys ↔ ∃ i, Named db name i ∧ db.system i = sys :=
  Option.map_eq_some_iff

theorem Named.get (h : Named db name i) : newDbGetSystem db name = some (db.system i) :=
  newDbGetSystem_eq_some_iff.mpr ⟨i, h, rfl⟩

theorem newDbGetSystem_eq_none (h : newDbGetSystem db name = none) (i : Fin NEWDB_MAX_SYSTEM)
    : (db.system i).name ≠ name := by
  have hnone := first_eq_none_iff.mp (Option.map_eq_none_iff.mp h) i
  simpa using hnone

theorem newDbSetSystem_eq (now : Int) (hid : sys.id = i)
    : newDbSetSystem db sys now
        = ({ db with
              system := Function.update db.system i { sys with lastupdate := now }
              numwrites := db.numwrites + 1
              lastupdate_sys := now }, true) := by
  simp [newDbSetSystem, setRow, hid]

theorem Named.set (h : Named db name i) (now : Int) (hid : sys.id = i) (hname : sys.name = name)
    : Named (newDbSetSystem db sys now).1 name i := by
  rw [named_iff] at h ⊢
  rw [newDbSetSystem_eq now hid]
  constructor
  . simp only [Function.update_self, hname]
  . intro j hj
    simp only [Function.update_of_ne (ne_of_lt hj)]
    exact h.2 j hj

theorem newDbSetSystem_row (db : Db) (now : Int) (hid : sys.id = i)
    : (newDbSetSystem db sys now).1.system i = { sys with lastupdate := now } := by
  rw [newDbSetSystem_eq now hid]
  exact Function.update_self ..

/--
A row with a new name is found under this name.
-/
theorem newDbGetNewSystem_named {now : Int} {db' : Db} (hnone : newDbGetSystem db name = none)
    (hlen : name.toList.length ≤ LEN_SYSNM) (h : newDbGetNewSystem db name now = (db', some sys))
    : ∃ i, Named db' name i ∧ db'.system i = sys ∧ sys.id = i ∧ sys.name = name ∧ sys.intval = 0 := by
  unfold newDbGetNewSystem at h
  split at h
  . next i hfirst =>
    obtain ⟨rfl, hsys⟩ := Prod.mk.inj h
    obtain rfl := Option.some.inj hsys
    have hname : newDbStrNcpy "" (some name) LEN_SYSNM = name := newDbStrNcpy_eq hlen
    refine ⟨i, ?_, ?_, rfl, hname, rfl⟩
    . rw [named_iff]
      constructor
      . simp only [Function.update_self, hname]
      . intro j hj
        simp only [Function.update_of_ne (ne_of_lt hj)]
        exact newDbGetSystem_eq_none hnone j
    . exact Function.update_self ..
  . cases h

end

end NewDb
