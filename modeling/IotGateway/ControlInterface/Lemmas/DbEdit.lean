import IotGateway.ControlInterface.Impl.DbEdit
import IotGateway.NewDb.Impl.Serialize
import IotGateway.NewDb.Lemmas.Edit

/-!
This module says when the report of an edit command agrees with the device table after it.
-/

namespace ControlInterface

open NewDb IotError Table

/--
The device has the value in the column of this name.
-/
def HasColumn (device : Device) (col val : String) : Prop :=
  (col, Column.int (Atoi0 val)) ∈ newdb_devs_columns.zip device.columns
    ∨ (col, Column.str val) ∈ newdb_devs_columns.zip device.columns

instance decidableHasColumn (device : Device) (col val : String)
    : Decidable (HasColumn device col val) :=
  inferInstanceAs (Decidable (_ ∨ _))

/--
The row has the value after it has been written back. A row that does not know its index is not
written.
-/
def Editable (device : Device) (index : Int) (col val : String) (now : Int) : Prop :=
  if device.id = index then
    col = "par" ∨ HasColumn { device with lastupdate := now } col val
  else
    HasColumn device col val

section

variable (attrs : Attrs) (t : Fin NEWDB_MAX_DEVICES → Device)

/--
What a command has done if it has been successful: a device that is added or edited has the fields
that are given, and one that is removed is in no row.
-/
def Done : Prop :=
  match attrs.parsingGetStringAttr0 "add", attrs.parsingGetStringAttr0 "rem",
      attrs.parsingGetStringAttr0 "clr" with
  | some mac, _, _ =>
    ∃ i, (t i).mac = mac.val ∧ (t i).dev = (attrs.parsingGetIntAttr "dev").toInt
      ∧ (t i).ty = attrs.parsingGetStringAttr "ty"
  | none, some mac, _ => ∀ i, (t i).mac ≠ mac.val
  | none, none, some _ => True
  | none, none, none =>
    match attrs.parsingGetStringAttr0 "table", attrs.parsingGetStringAttr0 "col",
        attrs.parsingGetStringAttr0 "val" with
    | some table, some col, some val =>
      table.val = "devices" ∧ ∃ i : Fin NEWDB_MAX_DEVICES,
        (i : Int) = (attrs.parsingGetIntAttr "id").toInt ∧ (t i).mac ≠ ""
          ∧ HasColumn (t i) col.val val.val
    | _, _, _ => True

/--
The new device finds a free row and its fields are not cut off. The device that is removed is in one
row only. An edit is of the parent of a device in the table, or there is nothing to change.
-/
def Possible (now : Int) : Prop :=
  match attrs.parsingGetStringAttr0 "add", attrs.parsingGetStringAttr0 "rem",
      attrs.parsingGetStringAttr0 "clr" with
  | some mac, _, _ =>
    DEVICE_DEV_UNKNOWN < (attrs.parsingGetIntAttr "dev").toInt → (∀ i, (t i).mac ≠ mac.val) →
      (∃ i, (t i).mac = "") ∧ mac.val.toList.length ≤ LEN_MAC_NIBBLE
        ∧ (attrs.parsingGetStringAttr "ty").toList.length ≤ LEN_TY
  | none, some mac, _ => ∀ i j, (t i).mac = mac.val → (t j).mac = mac.val → i = j
  | none, none, some _ => True
  | none, none, none =>
    match attrs.parsingGetStringAttr0 "table", attrs.parsingGetStringAttr0 "col",
        attrs.parsingGetStringAttr0 "val" with
    | some table, some col, some val =>
      table.val = "devices" ∧ ∃ i : Fin NEWDB_MAX_DEVICES,
        (i : Int) = (attrs.parsingGetIntAttr "id").toInt ∧ (t i).mac ≠ ""
          ∧ Editable (t i) i col.val val.val now
    | _, _, _ => True

end

/--
A success is reported if the command has done what it should, a failure if it has done nothing.
-/
def Agrees (attrs : Attrs) (db : Db) (result : Db × Int) : Prop :=
  if result.2 = IOT_ERROR_NONE then Done attrs result.1.devices else result.1 = db

section

variable {db : Db}

theorem strNcpy_eq_iff (dst src : String) (max : Nat)
    : newDbStrNcpy dst (some src) max = src ↔ src.toList.length ≤ max := by
  constructor
  . intro h
    have hlist : src.toList.take max = src.toList := by
      rw [← String.toList_ofList (l := src.toList.take max)]
      exact congrArg String.toList h
    have hlength := congrArg List.length hlist
    rw [List.length_take] at hlength
    omega
  . exact newDbStrNcpy_eq

theorem lampDefaults_ty (type : Option String) (device : Device)
    : (lampDefaults type device).dev = device.dev ∧ (lampDefaults type device).ty = device.ty := by
  unfold lampDefaults
  simp only
  split_ifs
  all_goals exact ⟨rfl, rfl⟩

theorem editDefaults_ty (dev : Int) (type : String) (device : Device)
    : (editDefaults dev type device).dev = device.dev
        ∧ (editDefaults dev type device).ty = device.ty := by
  have hlamp := lampDefaults_ty (some type) device
  unfold editDefaults
  split_ifs
  all_goals first | exact ⟨rfl, rfl⟩ | exact hlamp

/--
The row of a device that has been added.
-/
theorem dbEditAdd_fields (mac : Text) (dev : Int) (type : String)
    : ∃ fresh, (dbEditAdd mac dev type).fresh = some fresh
        ∧ ∀ device, (fresh.apply device).dev = dev
          ∧ (fresh.apply device).ty = newDbStrNcpy device.ty (some type) LEN_TY := by
  refine ⟨_, rfl, ?_⟩
  intro device
  exact editDefaults_ty dev type _

theorem add_known {device : Device} (mac : Text) (dev : Int) (type : String) (now now' : Int)
    (h : newDbGetDevice db mac = some device)
    : ((dbEditAdd mac dev type).run now now' db).1 = db := by
  unfold Edit.run
  rw [show newDbGetDevice db (dbEditAdd mac dev type).mac = some device from h]
  rfl

/--
The new device is in a free row, where its fields may have been cut off.
-/
theorem add_fresh (mac : Text) (dev : Int) (type : String) (now now' : Int)
    {i : Fin NEWDB_MAX_DEVICES} (hrow : first (· == mac.1) db.macs = none)
    (hfree : first (· == "") db.macs = some i)
    : ∃ row, ((dbEditAdd mac dev type).run now now' db).1.devices = Function.update db.devices i row
        ∧ row.mac = newDbStrNcpy "" (some mac.val) LEN_MAC_NIBBLE ∧ row.dev = dev
        ∧ row.ty = newDbStrNcpy "" (some type) LEN_TY := by
  obtain ⟨fresh, hfresh, hfields⟩ := dbEditAdd_fields mac dev type
  obtain ⟨hdev, hty⟩ := hfields (newDevice i mac now)
  have hrow' : first (· == (dbEditAdd mac dev type).mac.1) db.macs = none := hrow
  exact ⟨_, (Edit.run_devices now now' hrow' hfree hfresh).2, fresh.apply_mac _, hdev, hty⟩

theorem add_agrees (mac : Text) (dev : Int) (type : String) (now now' : Int)
    : (if (newDbGetDevice db mac).isSome then
          ((dbEditAdd mac dev type).run now now' db).1 = db
        else
          ∃ i, (((dbEditAdd mac dev type).run now now' db).1.devices i).mac = mac.val
            ∧ (((dbEditAdd mac dev type).run now now' db).1.devices i).dev = dev
            ∧ (((dbEditAdd mac dev type).run now now' db).1.devices i).ty = type)
        ↔ ((∀ i, (db.devices i).mac ≠ mac.val) →
          (∃ i, (db.devices i).mac = "") ∧ mac.val.toList.length ≤ LEN_MAC_NIBBLE
            ∧ type.toList.length ≤ LEN_TY) := by
  cases hget : newDbGetDevice db mac with
  | some device =>
    obtain ⟨i, rfl, hkey⟩ := newDbGetDevice_spec hget
    simp only [Option.isSome_some, if_true, add_known mac dev type now now' hget, true_iff]
    intro hnone
    exact absurd hkey (hnone i)
  | none =>
    have hrow : first (· == mac.1) db.macs = none := Option.map_eq_none_iff.mp hget
    have hnone : ∀ i, (db.devices i).mac ≠ mac.val := first_eq_none_iff_ne.mp hrow
    rw [if_neg (by simp), imp_iff_right hnone]
    cases hfree : first (· == "") db.macs with
    | none =>
      have hfull : ∀ i, (db.devices i).mac ≠ "" := first_eq_none_iff_ne.mp hfree
      rw [Edit.run_missing (dbEditAdd mac dev type) now now' hrow (.inr hfree)]
      constructor
      . rintro ⟨i, hkey, -⟩
        exact absurd hkey (hnone i)
      . rintro ⟨⟨i, hempty⟩, -⟩
        exact absurd hempty (hfull i)
    | some i =>
      obtain ⟨row, hdevices, hmac, hdev, hty⟩ := add_fresh mac dev type now now' hrow hfree
      rw [hdevices]
      constructor
      . rintro ⟨j, hkey, -, htype⟩
        obtain rfl : j = i := by
          by_contra hji
          rw [Function.update_of_ne hji] at hkey
          exact hnone j hkey
        rw [Function.update_self] at hkey htype
        exact ⟨⟨j, beq_iff_eq.mp (first_spec hfree)⟩, (strNcpy_eq_iff _ _ _).mp (hmac ▸ hkey),
          (strNcpy_eq_iff _ _ _).mp (hty ▸ htype)⟩
      . rintro ⟨-, hmaclen, htypelen⟩
        refine ⟨i, ?_⟩
        rw [Function.update_self, hmac, hdev, hty]
        exact ⟨newDbStrNcpy_eq hmaclen, rfl, newDbStrNcpy_eq htypelen⟩

theorem rem_agrees (mac : Text) (now : Int)
    : (if (newDbDeleteDevice db mac now).2 then
          ∀ i, ((newDbDeleteDevice db mac now).1.devices i).mac ≠ mac.val
        else
          (newDbDeleteDevice db mac now).1 = db)
        ↔ ∀ i j, (db.devices i).mac = mac.val → (db.devices j).mac = mac.val → i = j := by
  unfold newDbDeleteDevice
  split
  . next i hfirst =>
    have hkey : (db.devices i).mac = mac.val := beq_iff_eq.mp (first_spec hfirst)
    simp only [if_true]
    constructor
    . intro h
      have honly : ∀ j, (db.devices j).mac = mac.val → j = i := by
        intro j hj
        by_contra hji
        apply h j
        rw [Function.update_of_ne hji]
        exact hj
      intro j k hj hk
      rw [honly j hj, honly k hk]
    . intro h j hj
      by_cases hji : j = i
      . subst hji
        rw [Function.update_self] at hj
        exact mac.2 hj.symm
      . rw [Function.update_of_ne hji] at hj
        exact hji (h j i hj hkey)
  . next hfirst =>
    simp only [Bool.false_eq_true, if_false, true_iff]
    intro i j hi
    exact absurd hi (by simpa using first_eq_none_iff.mp hfirst i)

def withPar (col val : String) (device : Device) : Device :=
  if col = "par" then { device with par := Atoi0 val } else device

/--
The row that is written back, with its stamp.
-/
def editedRow (col val : String) (now : Int) (device : Device) : Device :=
  { withPar col val device with lastupdate := now }

theorem editedRow_hasColumn (col val : String) (now : Int) (device : Device)
    : HasColumn (editedRow col val now device) col val
      ↔ col = "par" ∨ HasColumn { device with lastupdate := now } col val := by
  by_cases hpar : col = "par"
  . subst hpar
    simp [HasColumn, editedRow, withPar, newdb_devs_columns, Device.columns]
  . have hsame : withPar col val device = device := if_neg hpar
    rw [editedRow, hsame]
    simp only [hpar, false_or]

theorem editedRow_id (col val : String) (now : Int) (device : Device)
    : (editedRow col val now device).id = device.id := by
  unfold editedRow withPar
  split <;> rfl

theorem tableEdit_devices {i : Fin NEWDB_MAX_DEVICES} (col val : String) (now : Int)
    : (tableEdit "devices" i col val now db).devices
      = (setRow db.devices (db.devices i).id (editedRow col val now (db.devices i))).getD
          db.devices := by
  have hrow : newDbGetDeviceId db i = some (db.devices i) := by
    rw [newDbGetDeviceId, rowOf_index]
    rfl
  have hset : tableEdit "devices" i col val now db
      = (newDbSetDevice db (withPar col val (db.devices i)) now).1 := by
    unfold tableEdit
    rw [if_pos rfl, hrow]
    rfl
  rw [hset, ← editedRow_id col val now]
  show (newDbSetDevice db (withPar col val (db.devices i)) now).1.devices
    = (setRow db.devices (withPar col val (db.devices i)).id
        { withPar col val (db.devices i) with lastupdate := now }).getD db.devices
  unfold newDbSetDevice
  split
  . next devices hdevices => rw [hdevices, Option.getD_some]
  . next hdevices => rw [hdevices, Option.getD_none]

theorem editedRow_mac (col val : String) (now : Int) (device : Device)
    : (editedRow col val now device).mac = device.mac := by
  unfold editedRow withPar
  split <;> rfl

/--
A row that is not live stays so, also if another one is written over for it.
-/
theorem table_agrees (id : Int) (col val : String) (now : Int)
    : (∃ i : Fin NEWDB_MAX_DEVICES, (i : Int) = id
          ∧ ((tableEdit "devices" id col val now db).devices i).mac ≠ ""
          ∧ HasColumn ((tableEdit "devices" id col val now db).devices i) col val)
        ↔ ∃ i : Fin NEWDB_MAX_DEVICES, (i : Int) = id ∧ (db.devices i).mac ≠ ""
          ∧ Editable (db.devices i) i col val now := by
  apply exists_congr
  intro i
  apply and_congr_right
  rintro rfl
  rw [tableEdit_devices]
  unfold Editable
  by_cases hid : (db.devices i).id = i
  . have hrow : rowOf NEWDB_MAX_DEVICES (db.devices i).id = some i := rowOf_eq_some_iff.mpr hid
    rw [setRow, hrow, if_pos hid]
    simp only [Option.map_some, Option.getD_some, Function.update_self, editedRow_mac,
      editedRow_hasColumn]
  . have hsame : (setRow db.devices (db.devices i).id (editedRow col val now (db.devices i))).getD
        db.devices i = db.devices i := by
      unfold setRow
      cases hrow : rowOf NEWDB_MAX_DEVICES (db.devices i).id with
      | none => rfl
      | some j =>
        have hne : i ≠ j := by
          rintro rfl
          exact hid (rowOf_eq_some_iff.mp hrow)
        simp only [Option.map_some, Option.getD_some, Function.update_of_ne hne]
    rw [hsame, if_neg hid]

theorem dbEditRun_rem (mac : Text) (now now' : Int)
    : dbEditRun (.rem mac) now now' db
      = ((newDbDeleteDevice db mac now).1,
        if (newDbDeleteDevice db mac now).2 then IOT_ERROR_NONE else IOT_ERROR_NON_EXISTING_MAC) := by
  simp only [dbEditRun]
  generalize newDbDeleteDevice db mac now = result
  cases result with
  | mk db' found =>
    cases found with
    | true => rfl
    | false => rfl

/--
The report agrees with the table in exactly these cases.
-/
theorem dbEditHandle_agrees_iff (attrs : Attrs) (now now' : Int) (db : Db)
    : Agrees attrs db (dbEditHandle attrs now now' db) ↔ Possible attrs db.devices now := by
  unfold Agrees dbEditHandle dbEditCommand Done Possible
  cases attrs.parsingGetStringAttr0 "add" with
  | some mac =>
    simp only
    by_cases hdev : DEVICE_DEV_UNKNOWN < (attrs.parsingGetIntAttr "dev").toInt
    . simp only [hdev, if_true, true_imp_iff, dbEditRun]
      refine Iff.trans ?_ (add_agrees mac (attrs.parsingGetIntAttr "dev").toInt
        (attrs.parsingGetStringAttr "ty") now now')
      by_cases hsome : (newDbGetDevice db mac).isSome
      . have hne : IOT_ERROR_ALREADY_EXISTING_MAC ≠ IOT_ERROR_NONE := by decide
        simp only [if_pos hsome, if_neg hne]
      . simp only [if_neg hsome, if_true]
    . have hne : IOT_ERROR_DEVICE_MISSING ≠ IOT_ERROR_NONE := by decide
      simp only [hdev, if_false, if_neg hne, false_imp_iff]
  | none =>
    cases attrs.parsingGetStringAttr0 "rem" with
    | some mac =>
      simp only [dbEditRun_rem]
      refine Iff.trans ?_ (rem_agrees mac now)
      by_cases hfound : (newDbDeleteDevice db mac now).2
      . simp only [if_pos hfound, if_true]
      . have hne : IOT_ERROR_NON_EXISTING_MAC ≠ IOT_ERROR_NONE := by decide
        simp only [if_neg hfound, if_neg hne]
    | none =>
      cases attrs.parsingGetStringAttr0 "clr" with
      | some clr => simp only [dbEditRun, if_true]
      | none =>
        cases attrs.parsingGetStringAttr0 "table" with
        | none => simp only [if_true]
        | some table =>
          cases attrs.parsingGetStringAttr0 "col" with
          | none => simp only [if_true]
          | some col =>
            cases attrs.parsingGetStringAttr0 "val" with
            | none => simp only [if_true]
            | some val =>
              simp only
              by_cases hid : 0 ≤ (attrs.parsingGetIntAttr "id").toInt
              . simp only [if_pos hid, dbEditRun, if_true]
                by_cases htable : table.val = "devices"
                . simp only [htable, true_and]
                  exact table_agrees _ _ _ _
                . simp only [htable, false_and]
              . have hnone : ∀ i : Fin NEWDB_MAX_DEVICES,
                    (i : Int) ≠ (attrs.parsingGetIntAttr "id").toInt := by
                  intro i hi
                  omega
                simp only [if_neg hid, if_true, hnone, false_and, exists_false]

end

def addMessage (mac : String) : Attrs :=
  ((Attrs.parsingReset.parsingStringAttr "add" mac).parsingIntAttr "dev" 6).parsingStringAttr "ty"
    "dim"

/--
The table after as many new devices as it has rows.
-/
def fullTable : Db :=
  (List.range NEWDB_MAX_DEVICES).foldl
    (fun db n => (dbEditHandle (addMessage ("00158D00000000" ++ toString (10 + n))) 1 1 db).1)
    Db.init

theorem add_not_agrees
    : ¬ Agrees (addMessage "00158D0000000030") fullTable
      (dbEditHandle (addMessage "00158D0000000030") 1 1 fullTable) := by
  have hsuccess : (dbEditHandle (addMessage "00158D0000000030") 1 1 fullTable).2 = IOT_ERROR_NONE := by
    decide +kernel
  have habsent : ∀ i, ((dbEditHandle (addMessage "00158D0000000030") 1 1 fullTable).1.devices i).mac
      ≠ "00158D0000000030" := by
    decide +kernel
  unfold Agrees
  rw [if_pos hsuccess]
  rintro ⟨i, hmac, -⟩
  exact habsent i hmac

end ControlInterface
