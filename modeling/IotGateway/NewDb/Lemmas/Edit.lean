import IotGateway.Lib.Slots
import IotGateway.NewDb.Impl.Edit

/-!
This module contains what the accesses do to the device table.
-/

namespace NewDb

open Table

/--
Every row knows its index.
-/
def Indexed (db : Db) : Prop := ∀ i, (db.devices i).id = i

theorem Db.init_indexed : Indexed Db.init := fun _ => rfl

def Db.macs (db : Db) (i : Fin NEWDB_MAX_DEVICES) : String := (db.devices i).mac

section

variable {db : Db} {mac : String} {now : Int}

theorem newDbGetDevice_spec {device : Device} (h : newDbGetDevice db mac = some device)
    : ∃ i, db.devices i = device ∧ device.mac = mac := by
  obtain ⟨i, hfirst, rfl⟩ := Option.map_eq_some_iff.mp h
  exact ⟨i, rfl, beq_iff_eq.mp (first_spec hfirst)⟩

theorem newDbGetDevice_eq_some_iff {device : Device}
    : newDbGetDevice db mac = some device
      ↔ ∃ i, first (· == mac) db.macs = some i ∧ db.devices i = device :=
  Option.map_eq_some_iff

theorem newDbGetNewDevice_spec {db' : Db} {device : Device}
    (h : newDbGetNewDevice db mac now = (db', some device))
    : ∃ i, (db.devices i).mac = "" ∧ device = newDevice i mac now
        ∧ db'.devices = Function.update db.devices i device := by
  unfold newDbGetNewDevice at h
  split at h
  . next i hfirst =>
    obtain ⟨rfl, hdevice⟩ := Prod.mk.inj h
    obtain rfl := Option.some.inj hdevice
    exact ⟨i, beq_iff_eq.mp (first_spec hfirst), rfl, rfl⟩
  . cases h

theorem newDbGetNewDevice_eq_none {db' : Db} (h : newDbGetNewDevice db mac now = (db', none))
    : db' = db ∧ ∀ i, (db.devices i).mac ≠ "" := by
  unfold newDbGetNewDevice at h
  split at h
  . cases h
  . next hfirst =>
    obtain ⟨rfl, -⟩ := Prod.mk.inj h
    refine ⟨rfl, ?_⟩
    intro i
    simpa using first_eq_none_iff.mp hfirst i

theorem Indexed.newDbGetNewDevice (mac : String) (now : Int) (h : Indexed db)
    : Indexed (newDbGetNewDevice db mac now).1 := by
  match hnew : NewDb.newDbGetNewDevice db mac now with
  | (db', none) =>
    obtain ⟨rfl, -⟩ := newDbGetNewDevice_eq_none hnew
    exact h
  | (db', some device) =>
    obtain ⟨i, -, rfl, hdevices⟩ := newDbGetNewDevice_spec hnew
    intro j
    simp only [hdevices, Function.update_apply]
    split
    . next hji =>
      rw [hji]
      rfl
    . exact h j

theorem newDbSetDevice_devices (db : Db) (now : Int) {device : Device} {i : Fin NEWDB_MAX_DEVICES}
    (h : device.id = i)
    : (newDbSetDevice db device now).1.devices
        = Function.update db.devices i { device with lastupdate := now } := by
  simp [newDbSetDevice, setRow, h]

theorem Indexed.newDbSetDevice {device : Device} (h : Indexed db)
    : Indexed (newDbSetDevice db device now).1 := by
  unfold NewDb.newDbSetDevice setRow
  cases hrow : rowOf NEWDB_MAX_DEVICES device.id with
  | none => exact h
  | some i =>
    intro j
    simp only [Option.map_some, Function.update_apply]
    split
    . next hji =>
      rw [hji]
      exact rowOf_eq_some_iff.mp hrow
    . exact h j

theorem Indexed.newDbDeleteDevice (h : Indexed db) : Indexed (newDbDeleteDevice db mac now).1 := by
  unfold NewDb.newDbDeleteDevice
  split
  . intro j
    simp only [Function.update_apply]
    split
    . next hji =>
      rw [hji]
      exact h _
    . exact h j
  . exact h

end

section

variable {db db' : Db} {mac : String} {now : Int} {device : Device}

end

theorem goto_pc (s : Processes) (p q : Nat) (pc : Pc)
    : (s.goto p pc).pc q = if q = p then pc else s.pc q := by
  simp [Processes.goto, Function.update_apply]

theorem access_get (s : Processes) (p : Nat) (edit : Edit)
    : s.access (.get p edit) = s
      ∨ (∃ device, newDbGetDevice s.db edit.mac = some device
          ∧ s.access (.get p edit) = s.goto p (.writing device edit.found))
      ∨ ∃ fresh, edit.fresh = some fresh
          ∧ newDbGetDevice s.db edit.mac = none
          ∧ s.access (.get p edit) = s.goto p (.missing edit.mac fresh) := by
  simp only [Processes.access]
  split
  . split
    . next device hget =>
      split
      . exact .inr (.inl ⟨device, hget, rfl⟩)
      . exact .inl rfl
    . next hget =>
      split
      . exact .inl rfl
      . next fresh hfresh => exact .inr (.inr ⟨fresh, hfresh, hget, rfl⟩)
  . exact .inl rfl

/--
Only a process that has missed a device adds it, and only to a free row.
-/
theorem access_getNew (s : Processes) (p : Nat) (now : Int)
    : s.access (.getNew p now) = s
      ∨ ∃ mac fresh, s.pc p = .missing mac fresh
          ∧ ((∃ db, ∃ i : Fin NEWDB_MAX_DEVICES, (s.db.devices i).mac = ""
                ∧ newDbGetNewDevice s.db mac now = (db, some (newDevice i mac now))
                ∧ db.devices = Function.update s.db.devices i (newDevice i mac now)
                ∧ s.access (.getNew p now)
                    = { s with db }.goto p (.writing (newDevice i mac now) fresh))
            ∨ ((∀ i, (s.db.devices i).mac ≠ "")
                ∧ s.access (.getNew p now) = s.goto p .idle)) := by
  simp only [Processes.access]
  split
  . next mac fresh hpc =>
    refine .inr ⟨mac, fresh, hpc, ?_⟩
    split
    . next db device hnew =>
      obtain ⟨i, hfree, rfl, hdevices⟩ := newDbGetNewDevice_spec hnew
      exact .inl ⟨db, i, hfree, hnew, hdevices, rfl⟩
    . next db hnew =>
      obtain ⟨rfl, hfull⟩ := newDbGetNewDevice_eq_none hnew
      exact .inr ⟨hfull, rfl⟩
  . exact .inl rfl

theorem access_set (s : Processes) (p : Nat) (now : Int)
    : s.access (.set p now) = s
      ∨ ∃ copy update, s.pc p = .writing copy update
          ∧ s.access (.set p now)
              = { s with db := (newDbSetDevice s.db (update.apply copy) now).1 }.goto p .idle := by
  simp only [Processes.access]
  split
  . next copy update hpc => exact .inr ⟨copy, update, hpc, rfl⟩
  . exact .inl rfl

/--
Every copy belongs to a row.
-/
structure Processes.Sound (s : Processes) : Prop where
  indexed : Indexed s.db
  copies : ∀ p copy update, s.pc p = .writing copy update →
    ∃ i : Fin NEWDB_MAX_DEVICES, copy.id = i

section

variable {s : Processes}

theorem Processes.Sound.goto (h : s.Sound) {p : Nat} {pc : Pc}
    (hpc : ∀ copy update, pc = .writing copy update → ∃ i : Fin NEWDB_MAX_DEVICES, copy.id = i)
    : (s.goto p pc).Sound := by
  refine ⟨h.indexed, ?_⟩
  intro q copy update hq
  rw [goto_pc] at hq
  split at hq
  . exact hpc copy update hq
  . exact h.copies q copy update hq

theorem Processes.Sound.tables (h : s.Sound) {db : Db} (hindexed : Indexed db)
    : Processes.Sound { s with db } := ⟨hindexed, h.copies⟩

theorem Processes.Sound.access (h : s.Sound) (a : Access) : (s.access a).Sound := by
  cases a with
  | get p edit =>
    obtain heq | ⟨device, hget, heq⟩ | ⟨fresh, -, -, heq⟩ := access_get s p edit
    . rw [heq]
      exact h
    . rw [heq]
      apply h.goto
      intro copy update hpc
      obtain ⟨rfl, rfl⟩ := Pc.writing.inj hpc
      obtain ⟨i, rfl, -⟩ := newDbGetDevice_spec hget
      exact ⟨i, h.indexed i⟩
    . rw [heq]
      apply h.goto
      intro copy update hpc
      cases hpc
  | getNew p now =>
    obtain heq | ⟨mac, fresh, -, ⟨db, i, -, hnew, -, heq⟩ | ⟨-, heq⟩⟩ := access_getNew s p now
    . rw [heq]
      exact h
    . rw [heq]
      have hindexed := h.indexed.newDbGetNewDevice mac now
      rw [hnew] at hindexed
      apply (h.tables hindexed).goto
      intro copy update hpc
      obtain ⟨rfl, rfl⟩ := Pc.writing.inj hpc
      exact ⟨i, rfl⟩
    . rw [heq]
      apply h.goto
      intro copy update hpc
      cases hpc
  | set p now =>
    obtain heq | ⟨copy, update, -, heq⟩ := access_set s p now
    . rw [heq]
      exact h
    . rw [heq]
      apply (h.tables h.indexed.newDbSetDevice).goto
      intro copy update hpc
      cases hpc

end

/--
The key that a new row gets.
-/
def Text.key (mac : Text) : String := newDbStrNcpy "" (some mac.1) LEN_MAC_NIBBLE

theorem Text.key_eq {mac : Text} (h : mac.1.toList.length ≤ LEN_MAC_NIBBLE) : Text.key mac = mac.1 :=
  newDbStrNcpy_eq h

theorem Text.key_ne (mac : Text) : Text.key mac ≠ "" := by
  intro hempty
  apply mac.2
  have hnil : mac.1.toList.take LEN_MAC_NIBBLE = [] := by
    rw [Text.key, newDbStrNcpy, ← String.toList_inj, String.toList_ofList] at hempty
    exact hempty
  rw [← String.toList_inj]
  rcases List.take_eq_nil_iff.mp hnil with hzero | htext
  . cases hzero
  . exact htext

/--
The row `i` holds `device`, which has got the MAC address `mac`. The others stay.
-/
structure Written (mac : String) (i : Fin NEWDB_MAX_DEVICES) (device : Device) (db db' : Db) : Prop where
  indexed : Indexed db'
  row : first (· == mac) db'.macs = some i
  macs : db'.macs = place "" db.macs mac
  others : ∀ j, j ≠ i → db'.devices j = db.devices j
  device : db'.devices i = device

section

variable {db db' : Db} {edit : Edit} {i : Fin NEWDB_MAX_DEVICES}

theorem newDbSetDevice_macs (db : Db) (now : Int) {device : Device} (h : device.id = i)
    : (newDbSetDevice db device now).1.macs = Function.update db.macs i device.mac := by
  funext j
  rw [Db.macs, newDbSetDevice_devices db now h]
  by_cases hji : j = i
  . rw [hji, Function.update_self, Function.update_self]
  . rw [Function.update_of_ne hji, Function.update_of_ne hji]
    rfl

theorem Edit.run_unsaved (now now' : Int) (h : newDbGetDevice db edit.mac = some (db.devices i))
    (hindexed : Indexed db)
    (hsaves : edit.found.saves (edit.found.apply (db.devices i)) = false)
    : edit.run now now' db = (db, (i : Int)) := by
  simp only [Edit.run, h, hsaves, edit.found.apply_id, hindexed i]
  rfl

theorem Edit.run_found (edit : Edit) (now now' : Int) (hindexed : Indexed db)
    (hrow : first (· == edit.mac.1) db.macs = some i)
    (hsaves : edit.found.saves (edit.found.apply (db.devices i)) = true)
    : (edit.run now now' db).2 = i
        ∧ Written edit.mac i { edit.found.apply (db.devices i) with lastupdate := now' } db
            (edit.run now now' db).1 := by
  have hget : newDbGetDevice db edit.mac = some (db.devices i) :=
    newDbGetDevice_eq_some_iff.mpr ⟨i, hrow, rfl⟩
  have hid : (edit.found.apply (db.devices i)).id = i := (edit.found.apply_id _).trans (hindexed i)
  have hdevices := newDbSetDevice_devices db now' hid
  have hmacs : (newDbSetDevice db (edit.found.apply (db.devices i)) now').1.macs = db.macs := by
    rw [newDbSetDevice_macs db now' hid, edit.found.apply_mac]
    exact Function.update_eq_self i db.macs
  simp only [Edit.run, hget, hsaves, if_true]
  refine ⟨hid, ?_⟩
  constructor
  . exact hindexed.newDbSetDevice
  . rw [hmacs]
    exact hrow
  . rw [hmacs, place_of_mem hrow]
  . intro j hj
    rw [hdevices, Function.update_of_ne hj]
  . rw [hdevices, Function.update_self]

/--
The device that is not in the table gets the first free row, and no other row changes.
-/
theorem Edit.run_devices {fresh : Update} (now now' : Int)
    (hrow : first (· == edit.mac.1) db.macs = none) (hfree : first (· == "") db.macs = some i)
    (hfresh : edit.fresh = some fresh)
    : (edit.run now now' db).2 = i
        ∧ (edit.run now now' db).1.devices = Function.update db.devices i
            { fresh.apply (newDevice i edit.mac now) with lastupdate := now' } := by
  have hget : newDbGetDevice db edit.mac = none := Option.map_eq_none_iff.mpr hrow
  have hnew : newDbGetNewDevice db edit.mac now
      = ({ db with
            devices := Function.update db.devices i (newDevice i edit.mac now)
            numwrites := db.numwrites + 1
            lastupdate_devices := now }, some (newDevice i edit.mac now)) := by
    have hfirst : first (fun dev => dev.mac == "") db.devices = some i := hfree
    rw [newDbGetNewDevice, hfirst]
  have hid : (fresh.apply (newDevice i edit.mac now)).id = i := fresh.apply_id _
  simp only [Edit.run, hget, hfresh, hnew]
  refine ⟨rfl, ?_⟩
  rw [newDbSetDevice_devices _ now' hid]
  exact Function.update_idem ..

theorem Edit.run_fresh {fresh : Update} (now now' : Int) (hindexed : Indexed db)
    (hmac : edit.mac.1.toList.length ≤ LEN_MAC_NIBBLE)
    (hrow : first (· == edit.mac.1) db.macs = none) (hfree : first (· == "") db.macs = some i)
    (hfresh : edit.fresh = some fresh)
    : (edit.run now now' db).2 = i
        ∧ Written edit.mac i { fresh.apply (newDevice i edit.mac now) with lastupdate := now' } db
            (edit.run now now' db).1 := by
  obtain ⟨hindex, hdevices⟩ := Edit.run_devices now now' hrow hfree hfresh
  have hid : (fresh.apply (newDevice i edit.mac now)).id = i := fresh.apply_id _
  have hkey : (fresh.apply (newDevice i edit.mac now)).mac = edit.mac.1 :=
    (fresh.apply_mac _).trans (Text.key_eq hmac)
  have hothers : ∀ j, j ≠ i → (edit.run now now' db).1.devices j = db.devices j := by
    intro j hj
    rw [hdevices, Function.update_of_ne hj]
  have hmacs : (edit.run now now' db).1.macs = Function.update db.macs i edit.mac.1 := by
    funext j
    by_cases hj : j = i
    . rw [Db.macs, hdevices, hj, Function.update_self, Function.update_self]
      exact hkey
    . rw [Db.macs, hothers j hj, Function.update_of_ne hj]
      rfl
  refine ⟨hindex, ?_⟩
  constructor
  . intro j
    by_cases hj : j = i
    . rw [hdevices, hj, Function.update_self]
      exact hid
    . rw [hothers j hj]
      exact hindexed j
  . rw [hmacs]
    exact first_update_self (first_eq_none_iff_ne.mp hrow) i
  . rw [hmacs, place_of_free hrow hfree]
  . exact hothers
  . rw [hdevices, Function.update_self]

theorem Edit.run_missing (edit : Edit) (now now' : Int)
    (hrow : first (· == edit.mac.1) db.macs = none)
    (hnone : edit.fresh = none ∨ first (· == "") db.macs = none)
    : edit.run now now' db = (db, -1) := by
  have hget : newDbGetDevice db edit.mac = none := Option.map_eq_none_iff.mpr hrow
  simp only [Edit.run, hget]
  rcases hnone with hfresh | hfull
  . rw [hfresh]
  . have hfirst : first (fun dev => dev.mac == "") db.devices = none := hfull
    have hnew : newDbGetNewDevice db edit.mac now = (db, none) := by
      rw [newDbGetNewDevice, hfirst]
    cases edit.fresh with
    | none => rfl
    | some fresh => simp only [hnew]

end

end NewDb
