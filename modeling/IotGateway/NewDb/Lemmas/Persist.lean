import IotGateway.NewDb.Lemmas.Save

/-!
This module contains the runs of mutations and saves, and what the saved image has to do with the
tables.
-/

namespace NewDb

/--
The second that a mutation reads differs from the one that has been remembered for its table.
-/
def Mutation.Later (stamps : Stamps) : Mutation → Prop
  | .newSystem _ now | .setSystem _ now | .emptySystem now | .deleteSystem _ now =>
    now ≠ stamps.lastupdate_sys
  | .newDevice _ now | .setDevice _ now | .emptyDevices _ now | .deleteDevice _ now =>
    now ≠ stamps.lastupdate_devices
  | .setClearFlag | .removeWithClearFlag => True
  | .newPlugHist _ _ now | .setPlugHist _ now | .emptyPlugHist now | .deletePlugHist _ now =>
    now ≠ stamps.lastupdate_plughist
  | .newZcb _ now | .setZcb _ now | .emptyZcb now => now ≠ stamps.lastupdate_zcb

/--
A call leaves the tables as they are, or stamps one of them with the second that it reads, or is one
of the two for the clear flag.
-/
theorem Mutation.apply_stamps {stamps : Stamps} {m : Mutation} (db : Db) (h : m.Later stamps)
    (hset : m ≠ .setClearFlag) (hremove : m ≠ .removeWithClearFlag)
    : m.apply db = db ∨ (m.apply db).stamps ≠ stamps := by
  have hsys : ∀ db' : Db, db'.lastupdate_sys ≠ stamps.lastupdate_sys → db'.stamps ≠ stamps := by
    rintro db' hne rfl
    exact hne rfl
  have hdevices
      : ∀ db' : Db, db'.lastupdate_devices ≠ stamps.lastupdate_devices → db'.stamps ≠ stamps := by
    rintro db' hne rfl
    exact hne rfl
  have hplughist
      : ∀ db' : Db, db'.lastupdate_plughist ≠ stamps.lastupdate_plughist → db'.stamps ≠ stamps := by
    rintro db' hne rfl
    exact hne rfl
  have hzcb : ∀ db' : Db, db'.lastupdate_zcb ≠ stamps.lastupdate_zcb → db'.stamps ≠ stamps := by
    rintro db' hne rfl
    exact hne rfl
  cases m with
  | newSystem name now =>
    simp only [apply, newDbGetNewSystem]
    split
    . exact .inr (hsys _ h)
    . exact .inl rfl
  | setSystem sys now =>
    simp only [apply, newDbSetSystem]
    split
    . exact .inr (hsys _ h)
    . exact .inl rfl
  | emptySystem now => exact .inr (hsys _ h)
  | deleteSystem name now =>
    simp only [apply, newDbDeleteSystem]
    split
    . exact .inr (hsys _ h)
    . exact .inl rfl
  | newDevice mac now =>
    simp only [apply, newDbGetNewDevice]
    split
    . exact .inr (hdevices _ h)
    . exact .inl rfl
  | setDevice dev now =>
    simp only [apply, newDbSetDevice]
    split
    . exact .inr (hdevices _ h)
    . exact .inl rfl
  | emptyDevices mode now => exact .inr (hdevices _ h)
  | deleteDevice mac now =>
    simp only [apply, newDbDeleteDevice]
    split
    . exact .inr (hdevices _ h)
    . exact .inl rfl
  | setClearFlag => exact absurd rfl hset
  | removeWithClearFlag => exact absurd rfl hremove
  | newPlugHist mac min now =>
    unfold apply newDbGetMatchingOrNewPlugHist
    generalize (List.finRange NEWDB_MAX_PLUGHIST).foldl (PlugHistScan.next db mac min) {} = scan
    simp only
    split
    . exact .inr (hplughist _ h)
    . exact .inl rfl
  | setPlugHist hist now =>
    simp only [apply, newDbSetPlugHist]
    split
    . exact .inr (hplughist _ h)
    . exact .inl rfl
  | emptyPlugHist now => exact .inr (hplughist _ h)
  | deletePlugHist id now =>
    simp only [apply, newDbDeletePlugHist]
    split
    . exact .inr (hplughist _ h)
    . exact .inl rfl
  | newZcb mac now =>
    unfold apply newDbGetNewZcb
    generalize (List.finRange NEWDB_MAX_ZCB).foldl (ZcbScan.next db) { oldest := now } = scan
    simp only
    split
    . exact .inr (hzcb _ h)
    . exact .inl rfl
  | setZcb zcb now =>
    simp only [apply, newDbSetZcb]
    split
    . exact .inr (hzcb _ h)
    . exact .inl rfl
  | emptyZcb now => exact .inr (hzcb _ h)

theorem Mutation.apply_version (db : Db) (m : Mutation) : (m.apply db).version = db.version := by
  cases m
  case newPlugHist mac min now =>
    unfold apply newDbGetMatchingOrNewPlugHist
    generalize (List.finRange NEWDB_MAX_PLUGHIST).foldl (PlugHistScan.next db mac min) {} = scan
    simp only
    split <;> rfl
  case newZcb mac now =>
    unfold apply newDbGetNewZcb
    generalize (List.finRange NEWDB_MAX_ZCB).foldl (ZcbScan.next db) { oldest := now } = scan
    simp only
    split <;> rfl
  case emptySystem | emptyDevices | emptyPlugHist | emptyZcb => rfl
  case setClearFlag | removeWithClearFlag => rfl
  all_goals
    simp only [apply, newDbGetNewSystem, newDbSetSystem, newDbDeleteSystem, newDbGetNewDevice,
      newDbSetDevice, newDbDeleteDevice, newDbSetPlugHist, newDbDeletePlugHist, newDbSetZcb]
    split <;> rfl

theorem setClear_setClear (dev : Device) : dev.setClear.setClear = dev.setClear := by
  unfold Device.setClear
  by_cases hmac : dev.mac = ""
  . simp [hmac]
  . simp [hmac, BitVec.or_assoc]

theorem newDbDevicesSetClearFlag_idem (db : Db)
    : newDbDevicesSetClearFlag (newDbDevicesSetClearFlag db) = newDbDevicesSetClearFlag db := by
  simp [newDbDevicesSetClearFlag, setClear_setClear]

/--
No device that is in the table has the flag.
-/
def NoneClear (db : Db) : Prop :=
  ∀ i, (db.devices i).flags &&& FLAG_TOPO_CLEAR ≠ 0 → (db.devices i).mac = ""

theorem removeWithClearFlag_eq {db : Db} (h : NoneClear db)
    : newDbDevicesRemoveWithClearFlag db = db := by
  have hrow : ∀ i, (db.devices i).removeClear = db.devices i := by
    intro i
    unfold Device.removeClear
    split
    . next hflag =>
      rw [← h i hflag]
    . rfl
  simp [newDbDevicesRemoveWithClearFlag, hrow]

/--
The tables, the files and what the process that saves remembers, if it lives.
-/
structure Store where
  db : Db
  disk : Disk Db
  stamps : Option Stamps

inductive StoreEvent where
  | mutate (m : Mutation)
  | save (results : List Int)

def storeStep (s : Store) : StoreEvent → Store × List Empty
  | .mutate m => ({ s with db := m.apply s.db }, [])
  | .save results =>
    match s.stamps with
    | none => (s, [])
    | some stamps =>
      let (disk, stamps) := newDbSave s.db results stamps s.disk
      ({ s with disk, stamps }, [])

/--
The process that saves has opened the database.
-/
def Store.opened (disk : Disk Db) : Store := { db := newDbOpen disk, disk, stamps := some {} }

/--
The last save has succeeded or there was nothing to save.
-/
def Store.Saved (s : Store) : Prop := s.stamps = some s.db.stamps

/--
The image is that of the tables, but for clear flags that have been set since.
-/
def Store.HasImage (s : Store) : Prop :=
  s.db = newDbOpen s.disk ∨ s.db = newDbDevicesSetClearFlag (newDbOpen s.disk)

/--
A mutation is not in the second of the stamp remembered for its table, and devices are only removed
by their clear flag when a stamp already differs.
-/
def Distinct (s : Store) : StoreEvent → Prop
  | .mutate .removeWithClearFlag => NoneClear s.db ∨ ¬ s.Saved
  | .mutate m => ∀ stamps ∈ s.stamps, m.Later stamps
  | .save _ => True

structure Store.Inv (s : Store) : Prop where
  version : s.db.version = NEWDB_VERSION
  image : s.Saved → s.HasImage

theorem newDbOpen_version (disk : Disk Db) : (newDbOpen disk).version = NEWDB_VERSION := by
  unfold newDbOpen newDbRestore
  split
  . split
    . next hversion => exact hversion
    . rfl
  . rfl

theorem newDbOpen_of_saved {db : Db} {results : List Int} {disk disk' : Disk Db}
    (hversion : db.version = NEWDB_VERSION)
    (h : newDbSaveTable [db] results disk = (disk', some true))
    : newDbOpen disk' = db := by
  have hcreates : Creates disk results := by
    by_contra hnot
    obtain ⟨-, hret⟩ := newDbSaveTable_not_creates [db] Nat.one_pos hnot
    rw [h] at hret
    exact hret rfl
  obtain ⟨hfile, hwhole⟩ := newDbSaveTable_creates [db] Nat.one_pos hcreates
  rw [h] at hfile hwhole
  have hrestore := newDbRestoreTable_whole [db] Nat.one_pos hfile
  rw [if_pos (hwhole rfl)] at hrestore
  unfold newDbOpen newDbRestore
  rw [show (1 : Nat) = [db].length from rfl, hrestore]
  simp [hversion]

theorem Store.Inv.mutate {s : Store} {m : Mutation} (h : s.Inv) (hok : Distinct s (.mutate m))
    : (storeStep s (.mutate m)).1.Inv := by
  constructor
  . exact (m.apply_version s.db).trans h.version
  . intro hsaved
    by_cases hset : m = .setClearFlag
    . subst hset
      rcases h.image hsaved with himage | himage
      . right
        exact congrArg newDbDevicesSetClearFlag himage
      . right
        have := congrArg newDbDevicesSetClearFlag himage
        rwa [newDbDevicesSetClearFlag_idem] at this
    . by_cases hremove : m = .removeWithClearFlag
      . subst hremove
        rcases hok with hnone | hnot
        . have hsame := removeWithClearFlag_eq hnone
          unfold storeStep Mutation.apply
          simp only
          rw [hsame]
          exact h.image hsaved
        . exact absurd hsaved hnot
      . have hlater : ∀ stamps ∈ s.stamps, m.Later stamps := by
          cases m with
          | removeWithClearFlag => exact absurd rfl hremove
          | _ => exact hok
        rcases m.apply_stamps s.db (hlater _ hsaved) hset hremove with hsame | hne
        . unfold storeStep at hsaved ⊢
          simp only [hsame] at hsaved ⊢
          exact h.image hsaved
        . exact absurd rfl hne

theorem Store.Inv.save {s : Store} {results : List Int} (h : s.Inv)
    : (storeStep s (.save results)).1.Inv := by
  unfold storeStep
  simp only
  split
  . exact h
  . next stamps hstamps =>
    unfold newDbSave
    split
    . next hne =>
      match hsave : newDbSaveTable [s.db] results s.disk with
      | (disk, some true) =>
        refine ⟨h.version, ?_⟩
        intro _
        left
        exact (newDbOpen_of_saved h.version hsave).symm
      | (disk, some false) =>
        refine ⟨h.version, ?_⟩
        intro hsaved
        exact absurd (Option.some.inj hsaved).symm hne
      | (disk, none) => exact ⟨h.version, nofun⟩
    . refine ⟨h.version, ?_⟩
      intro hsaved
      apply h.image
      rw [Saved, hstamps]
      exact hsaved

theorem storeStep_inv (s : Store) (ev : StoreEvent) (h : s.Inv) (hok : Distinct s ev)
    : (storeStep s ev).1.Inv := by
  cases ev with
  | mutate m => exact h.mutate hok
  | save results => exact h.save

theorem Store.opened_inv (disk : Disk Db) : (Store.opened disk).Inv :=
  ⟨newDbOpen_version disk, fun _ => .inl rfl⟩

/--
No mutation is left unsaved because the stamps are those that have been remembered.
-/
theorem hasImage_of_saved (disk : Disk Db) (events : List StoreEvent)
    (hok : Machine.Along storeStep Distinct (Store.opened disk) events)
    (hsaved : (Machine.exec storeStep (Store.opened disk) events).Saved)
    : (Machine.exec storeStep (Store.opened disk) events).HasImage := by
  have hinv : (Machine.exec storeStep (Store.opened disk) events).Inv := by
    apply Machine.inv_exec storeStep storeStep_inv
    . exact Store.opened_inv disk
    . exact hok
  exact hinv.image hsaved

def noFiles : Disk Db := { filename := none, backup := none }

/--
A device is added and saved, then the clear flags are set and nothing is saved.
-/
def marked : List StoreEvent :=
  [.mutate (.newDevice "00158D0000350F1A" 5), .save [3, 3, 1, 0], .mutate .setClearFlag, .save []]

theorem hasImage_of_saved_marked
    : (Machine.exec storeStep (Store.opened noFiles) marked).HasImage := by
  apply hasImage_of_saved
  . refine ⟨?_, trivial, ?_, trivial, trivial⟩
    . intro stamps hstamps
      obtain rfl := Option.some.inj hstamps
      exact (by decide : (5 : Int) ≠ 0)
    . intro _ _
      trivial
  . unfold Store.Saved
    decide

theorem marked_flags
    : (Machine.exec storeStep (Store.opened noFiles) marked).Saved
        ∧ (Machine.exec storeStep (Store.opened noFiles) marked).db
          ≠ newDbOpen (Machine.exec storeStep (Store.opened noFiles) marked).disk := by
  constructor
  . unfold Store.Saved
    decide
  . intro h
    have hflags := congrArg (fun db => (db.devices 0).flags) h
    revert hflags
    decide

end NewDb
