import IotGateway.Lib.Machine
import IotGateway.Lib.Stamped
import IotGateway.NewDb.Impl.Lastupdate
import IotGateway.NewDb.Lemmas.Tables

/-!
This module contains when a poller notices that a table has changed.
-/

namespace NewDb

open Stamped

section

variable {n : Nat} {ρ : Type} (v : View n ρ)

def View.rows (db : Db) : Rows n ρ := fun i =>
  if v.used (v.table db i) then some (v.table db i) else none

theorem View.foldl_scanRow (db : Db) (l : List (Fin n)) (scan : Int × Int)
    : l.foldl (v.scanRow db) scan
        = (((l.filterMap (v.rows db)).map v.lastupdate).foldl max scan.1,
            scan.2 + l.countP fun i => (v.rows db i).isSome) := by
  induction l generalizing scan with
  | nil => simp
  | cons i l ih =>
    rw [List.foldl_cons, ih]
    by_cases hused : v.used (v.table db i)
    . have hrow : v.rows db i = some (v.table db i) := if_pos hused
      rw [List.filterMap_cons_some hrow, List.map_cons, List.foldl_cons, List.countP_cons_of_pos]
      . have hmax : (if v.lastupdate (v.table db i) > scan.1 then v.lastupdate (v.table db i)
            else scan.1) = max scan.1 (v.lastupdate (v.table db i)) := by
          split
          . next hgt => exact (max_eq_right (le_of_lt hgt)).symm
          . next hle => exact (max_eq_left (not_lt.mp hle)).symm
        simp only [scanRow, hused, if_true, hmax, Int.natCast_add, Int.natCast_one]
        rw [Int.add_assoc, Int.add_comm 1]
      . rw [hrow]
        rfl
    . have hrow : v.rows db i = none := if_neg hused
      rw [List.filterMap_cons_none hrow, List.countP_cons_of_neg]
      . simp only [scanRow, hused, if_false, Bool.false_eq_true]
      . rw [hrow]
        exact Bool.false_ne_true

theorem View.scan_eq (db : Db)
    : v.scan db = (newest v.lastupdate (v.rows db), (size (v.rows db) : Int)) := by
  rw [View.scan, View.foldl_scanRow, Int.zero_add]
  rfl

/--
The machine emits nothing.
-/
def mutate (db : Db) (m : Mutation) : Db × List Unit := (m.apply db, [])

/--
The rows that are removed in a run.
-/
def View.removals (db : Db) : List Mutation → Nat
  | [] => 0
  | m :: ms => removed (v.rows db) (v.rows (m.apply db)) + removals (m.apply db) ms

theorem View.removed_le_removals (db : Db) (ms : List Mutation)
    : removed (v.rows db) (v.rows (Machine.exec mutate db ms)) ≤ v.removals db ms := by
  induction ms generalizing db with
  | nil => exact Nat.le_of_eq removed_self
  | cons m ms ih =>
    have htrans : removed (v.rows db) (v.rows (Machine.exec mutate db (m :: ms)))
        ≤ removed (v.rows db) (v.rows (m.apply db))
          + removed (v.rows (m.apply db)) (v.rows (Machine.exec mutate (m.apply db) ms)) :=
      removed_trans
    have hrest := ih (m.apply db)
    rw [removals]
    omega

/--
The rows that a call changes and leaves in the table are `fresh`.
-/
def View.Stamps (fresh : Fin n → ρ → Prop) (db : Db) (m : Mutation) : Prop :=
  Follows fresh (v.rows db) (v.rows (m.apply db))

theorem View.follows_of_stamps {fresh : Fin n → ρ → Prop} {db : Db} {ms : List Mutation}
    (hok : Machine.Along mutate (v.Stamps fresh) db ms)
    : Follows fresh (v.rows db) (v.rows (Machine.exec mutate db ms)) := by
  induction ms generalizing db with
  | nil => exact Follows.refl
  | cons m ms ih => exact hok.1.trans (ih hok.2)

/--
What `k` removals in a run cannot hide: the second of the stamp is more than `k` after every stamp of
the first poll, or at least `k` after them in a row that the first poll has not seen.
-/
def View.Newer (first : Db) (k : Nat) (i : Fin n) (row : ρ) : Prop :=
  newest v.lastupdate (v.rows first) + k < v.lastupdate row
    ∨ v.rows first i = none ∧ newest v.lastupdate (v.rows first) + k ≤ v.lastupdate row

/--
The second of the stamp is after every stamp of the first poll, and is not the same as the newest of
them modulo 100000.
-/
def View.NewerDigits (first : Db) (_i : Fin n) (row : ρ) : Prop :=
  newest v.lastupdate (v.rows first) < v.lastupdate row
    ∧ v.lastupdate row % 100000 ≠ newest v.lastupdate (v.rows first) % 100000

/--
Every change in a run is stamped so that the first poll can be told from a second one.
-/
def View.Noticed (db : Db) (ms : List Mutation) : Prop :=
  Machine.Along mutate (v.Stamps (v.Newer db (v.removals db ms))) db ms

/--
If the rows in use differ after `ms` then `value` does.
-/
def View.Detects (value : Db → Int) (db : Db) (ms : List Mutation) : Prop :=
  v.rows (Machine.exec mutate db ms) ≠ v.rows db → value (Machine.exec mutate db ms) ≠ value db

theorem View.detects_getLastupdate {db : Db} {ms : List Mutation} (hok : v.Noticed db ms)
    : v.Detects v.getLastupdate db ms := by
  intro hdiff
  simp only [getLastupdate, scan_eq]
  exact newest_add_size_ne (v.follows_of_stamps hok) (v.removed_le_removals db ms) hdiff

end

/--
The second that a call reads.
-/
def Mutation.now : Mutation → Option Int
  | .newSystem _ now | .setSystem _ now | .emptySystem now | .deleteSystem _ now => some now
  | .newDevice _ now | .setDevice _ now | .emptyDevices _ now | .deleteDevice _ now => some now
  | .setClearFlag | .removeWithClearFlag => none
  | .newPlugHist _ _ now | .setPlugHist _ now | .emptyPlugHist now | .deletePlugHist _ now =>
    some now
  | .newZcb _ now | .setZcb _ now | .emptyZcb now => some now

section

variable {n : Nat} {ρ : Type} (v : View n ρ)

/--
A row stays, is not in use any more, or has the second of the call.
-/
def View.Kept (now : Option Int) (row row' : ρ) : Prop :=
  row' = row ∨ ¬v.used row' ∨ now = some (v.lastupdate row')

variable {v} {now : Option Int}

theorem View.kept_refl (row : ρ) : v.Kept now row row := Or.inl rfl

theorem View.kept_update {t : Fin n → ρ} {i : Fin n} {row : ρ} (h : v.Kept now (t i) row) (j : Fin n)
    : v.Kept now (t j) (Function.update t i row j) := by
  by_cases hj : j = i
  . rw [hj, Function.update_self]
    exact h
  . rw [Function.update_of_ne hj]
    exact kept_refl _

theorem View.kept_setRow {t t' : Fin n → ρ} {id : Int} {row : ρ} (hset : setRow t id row = some t')
    (h : now = some (v.lastupdate row)) (j : Fin n)
    : v.Kept now (t j) (t' j) := by
  obtain ⟨i, -, rfl⟩ := Option.map_eq_some_iff.mp hset
  exact kept_update (Or.inr (Or.inr h)) j

theorem View.stamps_of_kept {db : Db} {m : Mutation} {fresh : Fin n → ρ → Prop}
    (hkept : ∀ i, v.Kept m.now (v.table db i) (v.table (m.apply db) i))
    (hfresh : ∀ i row, m.now = some (v.lastupdate row) → fresh i row)
    : v.Stamps fresh db m := by
  intro i row hrow
  have hused : v.used (v.table (m.apply db) i) := by
    by_contra hnot
    rw [rows, if_neg hnot] at hrow
    cases hrow
  rw [rows, if_pos hused] at hrow
  obtain rfl := Option.some.inj hrow
  rcases hkept i with hsame | hnot | hnow
  . left
    rw [rows, ← hsame, if_pos hused]
  . exact absurd hused hnot
  . exact Or.inr (hfresh i _ hnow)

end

theorem kept_system (db : Db) (m : Mutation) (i : Fin NEWDB_MAX_SYSTEM)
    : systemView.Kept m.now (db.system i) ((m.apply db).system i) := by
  cases m with
  | newSystem name now =>
    simp only [Mutation.apply, newDbGetNewSystem]
    split
    . exact View.kept_update (Or.inr (Or.inr rfl)) i
    . exact View.kept_refl _
  | setSystem sys now =>
    simp only [Mutation.apply, newDbSetSystem]
    split
    . next hset => exact View.kept_setRow hset rfl i
    . exact View.kept_refl _
  | emptySystem now =>
    right
    left
    simp [systemView, Mutation.apply, newDbEmptySystem]
  | deleteSystem name now =>
    simp only [Mutation.apply, newDbDeleteSystem]
    split
    . refine View.kept_update (Or.inr (Or.inl ?_)) i
      simp [systemView]
    . exact View.kept_refl _
  | _ =>
    rw [(Mutation.apply_frame db _).system (by simp [Mutation.works])]
    exact View.kept_refl _

theorem kept_devices (dev1 dev2 : Int) {db : Db} {m : Mutation} (hindexed : Indexed db)
    (hset : m ≠ .setClearFlag) (i : Fin NEWDB_MAX_DEVICES)
    : (devicesView dev1 dev2).Kept m.now (db.devices i) ((m.apply db).devices i) := by
  cases m with
  | newDevice mac now =>
    simp only [Mutation.apply, newDbGetNewDevice]
    split
    . exact View.kept_update (Or.inr (Or.inr rfl)) i
    . exact View.kept_refl _
  | setDevice dev now =>
    simp only [Mutation.apply, newDbSetDevice]
    split
    . next hset => exact View.kept_setRow hset rfl i
    . exact View.kept_refl _
  | emptyDevices mode now =>
    simp only [Mutation.apply, newDbEmptyDevices]
    split
    . right
      left
      simp [devicesView]
    . left
      rw [← hindexed i]
  | deleteDevice mac now =>
    simp only [Mutation.apply, newDbDeleteDevice]
    split
    . refine View.kept_update (Or.inr (Or.inl ?_)) i
      simp [devicesView]
    . exact View.kept_refl _
  | setClearFlag => exact absurd rfl hset
  | removeWithClearFlag =>
    simp only [Mutation.apply, newDbDevicesRemoveWithClearFlag, Device.removeClear]
    split
    . right
      left
      simp [devicesView]
    . exact View.kept_refl _
  | _ =>
    rw [(Mutation.apply_frame db _).devices (by simp [Mutation.works])]
    exact View.kept_refl _

theorem kept_plughist (db : Db) (m : Mutation) (i : Fin NEWDB_MAX_PLUGHIST)
    : plughistView.Kept m.now (db.plughist i) ((m.apply db).plughist i) := by
  cases m with
  | newPlugHist mac min now =>
    unfold Mutation.apply newDbGetMatchingOrNewPlugHist
    generalize (List.finRange NEWDB_MAX_PLUGHIST).foldl (PlugHistScan.next db mac min) {} = scan
    simp only
    split
    . exact View.kept_update (Or.inr (Or.inr rfl)) i
    . exact View.kept_refl _
  | setPlugHist hist now =>
    simp only [Mutation.apply, newDbSetPlugHist]
    split
    . next hset => exact View.kept_setRow hset rfl i
    . exact View.kept_refl _
  | emptyPlugHist now =>
    right
    left
    simp [plughistView, Mutation.apply, newDbEmptyPlugHist]
  | deletePlugHist id now =>
    simp only [Mutation.apply, newDbDeletePlugHist]
    split
    . refine View.kept_update (Or.inr (Or.inl ?_)) i
      simp [plughistView]
    . exact View.kept_refl _
  | _ =>
    rw [(Mutation.apply_frame db _).plughist (by simp [Mutation.works])]
    exact View.kept_refl _

theorem kept_zcb (db : Db) (m : Mutation) (i : Fin NEWDB_MAX_ZCB)
    : zcbView.Kept m.now (db.zcb i) ((m.apply db).zcb i) := by
  cases m with
  | newZcb mac now =>
    unfold Mutation.apply newDbGetNewZcb
    generalize (List.finRange NEWDB_MAX_ZCB).foldl (ZcbScan.next db) { oldest := now } = scan
    simp only
    split
    . exact View.kept_update (Or.inr (Or.inr rfl)) i
    . exact View.kept_refl _
  | setZcb zcb now =>
    simp only [Mutation.apply, newDbSetZcb]
    split
    . next hset => exact View.kept_setRow hset rfl i
    . exact View.kept_refl _
  | emptyZcb now =>
    right
    left
    simp [zcbView, Mutation.apply, newDbEmptyZcb]
  | _ =>
    rw [(Mutation.apply_frame db _).zcb (by simp [Mutation.works])]
    exact View.kept_refl _

section

variable {n : Nat} {ρ : Type} {v : View n ρ}

theorem View.along_stamps (Inv : Db → Prop) (ok : Mutation → Prop) {fresh : Fin n → ρ → Prop}
    {db : Db} {ms : List Mutation} (hinv : ∀ db (m : Mutation), Inv db → Inv (m.apply db))
    (hkept : ∀ db m, Inv db → ok m → ∀ i, v.Kept m.now (v.table db i) (v.table (m.apply db) i))
    (hdb : Inv db) (hok : ∀ m ∈ ms, ok m)
    (hfresh : ∀ m ∈ ms, ∀ i row, m.now = some (v.lastupdate row) → fresh i row)
    : Machine.Along mutate (v.Stamps fresh) db ms := by
  induction ms generalizing db with
  | nil => trivial
  | cons m ms ih =>
    constructor
    . exact stamps_of_kept (hkept db m hdb (hok m List.mem_cons_self)) (hfresh m List.mem_cons_self)
    . apply ih (hinv db m hdb)
      . intro m' hm
        exact hok m' (List.mem_cons_of_mem m hm)
      . intro m' hm
        exact hfresh m' (List.mem_cons_of_mem m hm)

/--
The calls of a run all read the clock more than `k` seconds after the newest stamp of the first poll,
where `k` rows are removed in the run.
-/
def View.Late (v : View n ρ) (db : Db) (ms : List Mutation) : Prop :=
  ∀ m ∈ ms, ∀ now ∈ m.now, newest v.lastupdate (v.rows db) + v.removals db ms < now

theorem View.noticed_of_late (Inv : Db → Prop) (ok : Mutation → Prop) {db : Db} {ms : List Mutation}
    (hinv : ∀ db (m : Mutation), Inv db → Inv (m.apply db))
    (hkept : ∀ db m, Inv db → ok m → ∀ i, v.Kept m.now (v.table db i) (v.table (m.apply db) i))
    (hdb : Inv db) (hok : ∀ m ∈ ms, ok m) (hlate : v.Late db ms)
    : v.Noticed db ms := by
  apply along_stamps Inv ok hinv hkept hdb hok
  intro m hm i row hnow
  exact Or.inl (hlate m hm _ hnow)

end

theorem noticed_system {db : Db} {ms : List Mutation} (h : systemView.Late db ms)
    : systemView.Noticed db ms := by
  apply View.noticed_of_late (fun _ => True) (fun _ => True)
  . exact fun _ _ _ => trivial
  . exact fun db m _ _ => kept_system db m
  . trivial
  . exact fun _ _ => trivial
  . exact h

theorem noticed_plughist {db : Db} {ms : List Mutation} (h : plughistView.Late db ms)
    : plughistView.Noticed db ms := by
  apply View.noticed_of_late (fun _ => True) (fun _ => True)
  . exact fun _ _ _ => trivial
  . exact fun db m _ _ => kept_plughist db m
  . trivial
  . exact fun _ _ => trivial
  . exact h

theorem noticed_zcb {db : Db} {ms : List Mutation} (h : zcbView.Late db ms)
    : zcbView.Noticed db ms := by
  apply View.noticed_of_late (fun _ => True) (fun _ => True)
  . exact fun _ _ _ => trivial
  . exact fun db m _ _ => kept_zcb db m
  . trivial
  . exact fun _ _ => trivial
  . exact h

def devicesAll : View NEWDB_MAX_DEVICES Device := devicesView DEVICE_DEV_UNKNOWN DEVICE_DEV_UNKNOWN

section

variable {db : Db} {ms : List Mutation} (hindexed : Indexed db) (hset : ∀ m ∈ ms, m ≠ .setClearFlag)

include hindexed hset

/--
`newDbDevicesSetClearFlag` stamps nothing.
-/
theorem noticed_devices {dev1 dev2 : Int} (h : (devicesView dev1 dev2).Late db ms)
    : (devicesView dev1 dev2).Noticed db ms := by
  apply View.noticed_of_late Indexed (· ≠ .setClearFlag)
  . exact fun _ m hdb => hdb.apply m
  . exact fun _ _ hdb hok => kept_devices dev1 dev2 hdb hok
  . exact hindexed
  . exact hset
  . exact h

theorem noticedDigits_devices
    (h : ∀ m ∈ ms, ∀ now ∈ m.now, newest Device.lastupdate (devicesAll.rows db) < now
      ∧ now % 100000 ≠ newest Device.lastupdate (devicesAll.rows db) % 100000)
    : Machine.Along mutate (devicesAll.Stamps (devicesAll.NewerDigits db)) db ms := by
  apply View.along_stamps Indexed (· ≠ .setClearFlag)
  . exact fun _ m hdb => hdb.apply m
  . exact fun _ _ hdb hok => kept_devices _ _ hdb hok
  . exact hindexed
  . exact hset
  . intro m hm i dev hnow
    exact h m hm _ hnow

end

theorem calcChecksumRoom_eq (db : Db) (room : Int)
    : newDbDevicesCalcChecksumRoom db room
        = size (devicesAll.rows db) * 100000
          + newest Device.lastupdate (devicesAll.rows db) % 100000 := by
  rw [newDbDevicesCalcChecksumRoom, View.scan_eq]
  simp only
  rw [Int.tmod_eq_emod_of_nonneg newest_nonneg]
  rfl

theorem detects_calcChecksumRoom (room : Int) {db : Db} {ms : List Mutation}
    (hok : Machine.Along mutate (devicesAll.Stamps (devicesAll.NewerDigits db)) db ms)
    : devicesAll.Detects (newDbDevicesCalcChecksumRoom · room) db ms := by
  intro hdiff
  simp only [calcChecksumRoom_eq]
  exact size_mul_add_newest_ne (by decide) (devicesAll.follows_of_stamps hok) hdiff

/--
In every run between two polls whose changes are all noticed, the poller sees that the rows differ.
-/
theorem lastupdate_detects (db : Db) (ms : List Mutation)
    : (systemView.Noticed db ms → systemView.Detects newDbGetLastupdateSystem db ms)
      ∧ (∀ dev1 dev2, (devicesView dev1 dev2).Noticed db ms →
          (devicesView dev1 dev2).Detects (newDbGetLastupdateDevicesDev · dev1 dev2) db ms)
      ∧ (zcbView.Noticed db ms → zcbView.Detects newDbGetLastupdateZcb db ms)
      ∧ (plughistView.Noticed db ms → plughistView.Detects newDbGetLastupdatePlugHist db ms)
      ∧ (∀ room, Machine.Along mutate (devicesAll.Stamps (devicesAll.NewerDigits db)) db ms →
          devicesAll.Detects (newDbDevicesCalcChecksumRoom · room) db ms) := by
  refine ⟨?_, ?_, ?_, ?_, ?_⟩
  . exact systemView.detects_getLastupdate
  . intro dev1 dev2
    exact (devicesView dev1 dev2).detects_getLastupdate
  . exact zcbView.detects_getLastupdate
  . exact plughistView.detects_getLastupdate
  . intro room
    exact detects_calcChecksumRoom room

/--
What a poller has seen: a lamp that has been added and set in second 5.
-/
def polled : Db :=
  Machine.exec mutate Db.init
    [.newDevice "00158D0000350F1A" 5,
     .setDevice { id := 0, mac := "00158D0000350F1A", dev := DEVICE_DEV_LAMP, cmd := "off" } 5]

def switchOn (now : Int) : Mutation :=
  .setDevice { id := 0, mac := "00158D0000350F1A", dev := DEVICE_DEV_LAMP, cmd := "on" } now

/--
Every table is written in the second after.
-/
def laterCalls : List Mutation :=
  [.newSystem "zigbee" 6, switchOn 6, .newZcb "00158D0000350F1B" 6,
   .newPlugHist "00158D0000350F1A" 0 6]

theorem lastupdate_detects_laterCalls
    : systemView.Detects newDbGetLastupdateSystem polled laterCalls
        ∧ (devicesView DEVICE_DEV_LAMP DEVICE_DEV_LAMP).Detects newDbGetLastupdateLamp polled
          laterCalls
        ∧ zcbView.Detects newDbGetLastupdateZcb polled laterCalls
        ∧ plughistView.Detects newDbGetLastupdatePlugHist polled laterCalls
        ∧ devicesAll.Detects (newDbDevicesCalcChecksumRoom · 0) polled laterCalls := by
  have hindexed : Indexed polled :=
    Machine.inv_exec_all mutate (fun _ m h => h.apply m) _ Db.init_indexed
  have hset : ∀ m ∈ laterCalls, m ≠ .setClearFlag := by
    simp [laterCalls, switchOn]
  have hnow : ∀ m ∈ laterCalls, ∀ now ∈ m.now, now = 6 := by
    simp [laterCalls, switchOn, Mutation.now]
  obtain ⟨hsystem, hdevices, hzcb, hplughist, hroom⟩ := lastupdate_detects polled laterCalls
  refine ⟨hsystem (noticed_system ?_), hdevices _ _ (noticed_devices hindexed hset ?_),
    hzcb (noticed_zcb ?_), hplughist (noticed_plughist ?_),
    hroom 0 (noticedDigits_devices hindexed hset ?_)⟩
  . intro m hm now hmem
    obtain rfl := hnow m hm now hmem
    decide +kernel
  . intro m hm now hmem
    obtain rfl := hnow m hm now hmem
    decide +kernel
  . intro m hm now hmem
    obtain rfl := hnow m hm now hmem
    decide +kernel
  . intro m hm now hmem
    obtain rfl := hnow m hm now hmem
    decide +kernel
  . intro m hm now hmem
    obtain rfl := hnow m hm now hmem
    decide +kernel

/--
The lamp is switched on in the second of the poll.
-/
theorem lastupdate_misses
    : ¬(devicesView DEVICE_DEV_LAMP DEVICE_DEV_LAMP).Detects newDbGetLastupdateLamp polled
          [switchOn 5]
        ∧ ¬devicesAll.Detects (newDbDevicesCalcChecksumRoom · 0) polled [switchOn 5] := by
  constructor
  . intro h
    refine h ?_ (by decide)
    intro hrows
    have hcmd := congrArg (fun rows => (rows 0).map Device.cmd) hrows
    revert hcmd
    decide
  . intro h
    refine h ?_ (by decide)
    intro hrows
    have hcmd := congrArg (fun rows => (rows 0).map Device.cmd) hrows
    revert hcmd
    decide

end NewDb
