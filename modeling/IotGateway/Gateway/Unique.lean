import IotGateway.ControlInterface.Impl.Devices
import IotGateway.Lib.Machine
import IotGateway.NewDb.Lemmas.Edit
import IotGateway.ZcbDaemon.Impl.Devices

/-!
This module contains the processes that add devices, and when no two rows have the same MAC address.
-/

namespace Gateway

open NewDb Table

/--
MAC addresses that differ only in letter case are the same address.
-/
def Unique (db : Db) : Prop :=
  ∀ i j, (db.devices i).mac ≠ "" → (db.devices j).mac ≠ "" →
    strtoupper (db.devices i).mac = strtoupper (db.devices j).mac → i = j

def addressKey (device : Device) : Option String :=
  if device.mac = "" then none else some (strtoupper device.mac)

theorem addressKey_eq_some_iff {device : Device} {address : String}
    : addressKey device = some address ↔ device.mac ≠ "" ∧ strtoupper device.mac = address := by
  unfold addressKey
  split <;> simp_all

theorem unique_iff_keyed {db : Db} : Unique db ↔ Keyed addressKey db.devices := by
  unfold Unique Keyed
  simp only [addressKey_eq_some_iff]
  constructor
  . rintro h i j address ⟨hi, hiaddress⟩ ⟨hj, hjaddress⟩
    exact h i j hi hj (hiaddress.trans hjaddress.symm)
  . intro h i j hi hj heq
    exact h i j _ ⟨hi, rfl⟩ ⟨hj, heq.symm⟩

def accessStep (s : Processes) (a : Access) : Processes × List Empty := (s.access a, [])

/--
When a row is added, no row has the address of the new one in any spelling, or there is no free row.
-/
def StillMissing (s : Processes) : Access → Prop
  | .get _ _ => True
  | .getNew p _ =>
    match s.pc p with
    | .missing mac _ =>
      (∀ i, (s.db.devices i).mac ≠ "" →
        strtoupper (s.db.devices i).mac ≠ strtoupper (Text.key mac))
      ∨ ∀ i, (s.db.devices i).mac ≠ ""
    | _ => True
  | .set _ _ => True

/--
What a process is about to copy in goes to the row that it has been copied out of.
-/
structure Adding (s : Processes) : Prop where
  indexed : Indexed s.db
  unique : Unique s.db
  copies : ∀ p copy update, s.pc p = .writing copy update →
    ∃ i : Fin NEWDB_MAX_DEVICES, copy.id = i ∧ copy.mac ≠ "" ∧ (s.db.devices i).mac = copy.mac

section

variable {s : Processes} {p : Nat} {now : Int}

theorem Adding.goto (h : Adding s) {pc : Pc}
    (hpc : ∀ copy update, pc = .writing copy update →
      ∃ i : Fin NEWDB_MAX_DEVICES, copy.id = i ∧ copy.mac ≠ "" ∧ (s.db.devices i).mac = copy.mac)
    : Adding (s.goto p pc) := by
  refine ⟨h.indexed, h.unique, ?_⟩
  intro q copy update hq
  rw [goto_pc] at hq
  split at hq
  . exact hpc copy update hq
  . exact h.copies q copy update hq

theorem Adding.get (h : Adding s) (edit : Edit) : Adding (s.access (.get p edit)) := by
  obtain heq | ⟨device, hget, heq⟩ | ⟨fresh, -, -, heq⟩ := access_get s p edit
  . rw [heq]
    exact h
  . rw [heq]
    apply h.goto
    intro copy update hpc
    obtain ⟨rfl, rfl⟩ := Pc.writing.inj hpc
    obtain ⟨i, rfl, hmac⟩ := newDbGetDevice_spec hget
    refine ⟨i, h.indexed i, ?_, rfl⟩
    rw [hmac]
    exact edit.mac.2
  . rw [heq]
    apply h.goto
    intro copy update hpc
    cases hpc

theorem Adding.insert (h : Adding s) {db : Db} {i : Fin NEWDB_MAX_DEVICES} {mac : Text}
    (hfree : (s.db.devices i).mac = "") (hindexed : Indexed db)
    (hdevices : db.devices = Function.update s.db.devices i (newDevice i mac now))
    (habsent : ∀ j, (s.db.devices j).mac ≠ "" →
      strtoupper (s.db.devices j).mac ≠ strtoupper (Text.key mac))
    : Adding { s with db } := by
  refine ⟨hindexed, ?_, ?_⟩
  . rw [unique_iff_keyed, hdevices]
    apply (unique_iff_keyed.mp h.unique).update
    intro j address _ hnewkey hkey
    obtain ⟨hlive, haddress⟩ := addressKey_eq_some_iff.mp hkey
    obtain ⟨-, hnewaddress⟩ := addressKey_eq_some_iff.mp hnewkey
    exact habsent j hlive (haddress.trans hnewaddress.symm)
  . intro q copy update hq
    obtain ⟨j, hid, hne, hmac⟩ := h.copies q copy update hq
    refine ⟨j, hid, hne, ?_⟩
    have hji : j ≠ i := by
      rintro rfl
      rw [hfree] at hmac
      exact hne hmac.symm
    rw [hdevices, Function.update_of_ne hji, hmac]

theorem Adding.getNew (h : Adding s) (hok : StillMissing s (.getNew p now))
    : Adding (s.access (.getNew p now)) := by
  obtain heq | ⟨mac, fresh, hpc, ⟨db, i, hfree, hnew, hdevices, heq⟩ | ⟨-, heq⟩⟩ :=
    access_getNew s p now
  . rw [heq]
    exact h
  . rw [heq]
    simp only [StillMissing, hpc] at hok
    have hindexed := h.indexed.newDbGetNewDevice mac now
    rw [hnew] at hindexed
    have hadding := h.insert hfree hindexed hdevices
      (hok.resolve_right fun hfull => absurd hfree (hfull i))
    apply hadding.goto
    intro copy update hpc'
    obtain ⟨rfl, rfl⟩ := Pc.writing.inj hpc'
    refine ⟨i, rfl, Text.key_ne mac, ?_⟩
    rw [hdevices, Function.update_self]
  . rw [heq]
    apply h.goto
    intro copy update hpc'
    cases hpc'

theorem Adding.set (h : Adding s) : Adding (s.access (.set p now)) := by
  obtain heq | ⟨copy, update, hpc, heq⟩ := access_set s p now
  . rw [heq]
    exact h
  . obtain ⟨i, hid, -, hmac⟩ := h.copies p copy update hpc
    have hmacs : ∀ j, ((newDbSetDevice s.db (update.apply copy) now).1.devices j).mac
        = (s.db.devices j).mac := by
      intro j
      rw [newDbSetDevice_devices s.db now ((update.apply_id copy).trans hid)]
      by_cases hji : j = i
      . rw [hji, Function.update_self, hmac]
        exact update.apply_mac copy
      . rw [Function.update_of_ne hji]
    have hadding : Adding { s with db := (newDbSetDevice s.db (update.apply copy) now).1 } := by
      refine ⟨h.indexed.newDbSetDevice, ?_, ?_⟩
      . intro j k
        simp only [hmacs]
        exact h.unique j k
      . intro q copy' update' hq
        simp only [hmacs]
        exact h.copies q copy' update' hq
    rw [heq]
    apply hadding.goto
    intro copy' update' hpc'
    cases hpc'

/--
Otherwise there are two rows with the address.
-/
theorem stillMissing_of_unique (hunique : Unique (s.access (.getNew p now)).db)
    : StillMissing s (.getNew p now) := by
  simp only [StillMissing]
  split
  . next mac fresh hpc =>
    by_contra hnot
    rw [not_or] at hnot
    obtain ⟨hpresent, hroom⟩ := hnot
    push Not at hpresent hroom
    obtain ⟨j, hlive, haddress⟩ := hpresent
    obtain ⟨k, hk⟩ := hroom
    simp only [Processes.access, hpc] at hunique
    rcases hnew : newDbGetNewDevice s.db mac now with ⟨db, _ | device⟩
    . obtain ⟨-, hfull⟩ := newDbGetNewDevice_eq_none hnew
      exact hfull k hk
    . rw [hnew] at hunique
      obtain ⟨i, hfree, rfl, hdevices⟩ := newDbGetNewDevice_spec hnew
      have hji : j ≠ i := by
        rintro rfl
        exact hlive hfree
      apply hji
      apply hunique
      . simp only [Processes.goto, hdevices, Function.update_of_ne hji]
        exact hlive
      . simp only [Processes.goto, hdevices, Function.update_self]
        exact Text.key_ne mac
      . simp only [Processes.goto, hdevices, Function.update_of_ne hji, Function.update_self]
        exact haddress
  . trivial

end

/--
A table without double addresses keeps that property exactly as long as no device is added that has
been added since its process has looked for it, or that is there in another spelling.
-/
theorem unique_iff_stillMissing (db : Db) (hindexed : Indexed db) (hunique : Unique db)
    (accesses : List Access)
    : (∀ before after, accesses = before ++ after →
        Unique (Machine.exec accessStep { db, pc := fun _ => .idle } before).db)
      ↔ Machine.Along accessStep StillMissing { db, pc := fun _ => .idle } accesses := by
  apply Machine.along_iff_forall_exec accessStep Adding fun s => Unique s.db
  . intro s a h hok
    cases a with
    | get p edit => exact h.get edit
    | getNew p now => exact h.getNew hok
    | set p now => exact h.set
  . intro s h
    exact h.unique
  . intro s a h hafter
    cases a with
    | get p edit => trivial
    | getNew p now => exact stillMissing_of_unique hafter
    | set p now => trivial
  . refine ⟨hindexed, hunique, ?_⟩
    intro p copy update hpc
    cases hpc

def lampMac : Text := ⟨"00158D0000350F1C", by decide⟩

def lampName : Text := ⟨"Lamp", by decide⟩

/--
A lamp joins while a topology command declares another device, and is declared afterwards.
-/
def declaredAfterJoin : List Access :=
  [.get 0 (ZcbDaemon.zcbHandleAnnounce lampMac "lmp" (some "dim") ""),
    .get 1 (ControlInterface.addPlug ⟨"00158D000035AB00", by decide⟩ lampName),
    .getNew 0 1, .getNew 1 1, .set 1 1, .set 0 1,
    .get 1 (ControlInterface.addLamp lampMac lampName (some "dim")), .set 1 2]

theorem unique_iff_stillMissing_declaredAfterJoin
    : (∀ before after, declaredAfterJoin = before ++ after →
        Unique (Machine.exec accessStep { db := Db.init, pc := fun _ => .idle } before).db)
      ↔ Machine.Along accessStep StillMissing { db := Db.init, pc := fun _ => .idle }
          declaredAfterJoin := by
  apply unique_iff_stillMissing
  . exact Db.init_indexed
  . intro i j hi
    exact absurd rfl hi

/--
A lamp joins while it is declared.
-/
def declaredAtJoin : List Access :=
  [.get 0 (ZcbDaemon.zcbHandleAnnounce lampMac "lmp" (some "dim") ""),
    .get 1 (ControlInterface.addLamp lampMac lampName (some "dim")),
    .getNew 0 1, .getNew 1 1, .set 0 1, .set 1 1]

theorem declaredAtJoin_not_unique
    : ¬ Unique (Machine.exec accessStep { db := Db.init, pc := fun _ => .idle } declaredAtJoin).db := by
  intro h
  have hrows : (0 : Fin NEWDB_MAX_DEVICES) = 1 := by
    apply h
    . decide
    . decide
    . decide
  cases hrows

end Gateway
