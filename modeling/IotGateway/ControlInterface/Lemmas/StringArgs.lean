import IotGateway.ControlInterface.Impl.StringArgs
import IotGateway.ControlInterface.Lemmas.Commands
import IotGateway.NewDb.Lemmas.Edit

/-!
This module says which commands give no `NULL` to a string function.
-/

namespace ControlInterface

open NewDb Table

/--
The command is a declaration of this lamp. The names of other devices come first.
-/
structure DeclaresLamp (attrs : Attrs) (mac : Text) : Prop where
  cmd : attrs.parsingGetStringAttr0 "cmd" = none
  nm : attrs.parsingGetStringAttr0 "nm" ≠ none
  others : ∀ kind ∈ ["man", "ui", "sen", "pmp"], attrs.parsingGetStringAttr0 kind = none
  lmp : attrs.parsingGetStringAttr0 "lmp" = some mac

/--
A lamp that gets a new row has a type, and lamps are in groups and scenes only with a MAC address.
-/
structure Given (cmd : Command) (db : Db) : Prop where
  type : cmd.name = "tp" ∨ cmd.name = "tp+" → ∀ mac, DeclaresLamp cmd.attrs mac →
    (∀ i, (db.devices i).mac ≠ mac.upper.1) → (∃ i, (db.devices i).mac = "") →
      cmd.attrs.parsingGetStringAttr0 "ty" ≠ none
  mac : cmd.name = "lmp" →
    cmd.attrs.parsingGetStringAttr0 "grp" ≠ none ∨ 0 < cmd.attrs.parsingGetIntAttr "grpid"
      ∨ cmd.attrs.parsingGetStringAttr0 "scn" ≠ none ∨ 0 < cmd.attrs.parsingGetIntAttr "scnid" →
    cmd.attrs.parsingGetStringAttr0 "mac" ≠ none

section

variable {attrs : Attrs} {db : Db}

@[simp]
theorem none_mem_guarded (string : Pointer) : none ∉ guarded string := by
  unfold guarded
  cases string with
  | none => simp
  | some string => simp

theorem member_eq_none_iff (name : String)
    : member attrs name = none ↔ attrs.parsingGetStringAttr0 name = none :=
  Option.map_eq_none_iff

theorem isSome_member_iff (name : String)
    : (member attrs name).isSome ↔ attrs.parsingGetStringAttr0 name ≠ none := by
  rw [member, Option.isSome_map, Option.isSome_iff_ne_none]

theorem none_mem_addArgs_iff (mac : Text) (known : Device → List Pointer) (fresh : List Pointer)
    (hknown : ∀ device, none ∉ known device)
    : none ∈ addArgs db mac known fresh
      ↔ (∀ i, (db.devices i).mac ≠ mac.1) ∧ (∃ i, (db.devices i).mac = "") ∧ none ∈ fresh := by
  unfold addArgs
  rw [List.mem_append]
  simp only [none_mem_guarded, false_or]
  cases hget : newDbGetDevice db mac with
  | some device =>
    obtain ⟨i, rfl, hkey⟩ := newDbGetDevice_spec hget
    apply iff_of_false (hknown _)
    rintro ⟨hnone, -⟩
    exact hnone i hkey
  | none =>
    have hnone : ∀ i, (db.devices i).mac ≠ mac.1 :=
      first_eq_none_iff_ne.mp (Option.map_eq_none_iff.mp hget)
    match hnew : newDbGetNewDevice db mac 0 with
    | (db', none) =>
      obtain ⟨-, hfull⟩ := newDbGetNewDevice_eq_none hnew
      apply iff_of_false List.not_mem_nil
      rintro ⟨-, ⟨i, hfree⟩, -⟩
      exact hfull i hfree
    | (db', some device) =>
      obtain ⟨i, hfree, -, -⟩ := newDbGetNewDevice_spec hnew
      simp only [List.mem_append, none_mem_guarded, false_or]
      exact ⟨fun h => ⟨hnone, ⟨i, hfree⟩, h⟩, fun h => h.2.2⟩

theorem none_mem_declaration_args_iff (d : Declaration)
    : none ∈ d.args db
      ↔ d.kind = .lmp ∧ (∀ i, (db.devices i).mac ≠ d.mac.1) ∧ (∃ i, (db.devices i).mac = "")
          ∧ d.ty = none := by
  unfold Declaration.args
  cases hkind : d.kind with
  | lmp =>
    simp only
    rw [none_mem_addArgs_iff _ _ _ (by simp)]
    simp only [List.mem_append, none_mem_guarded, false_or, List.mem_singleton, true_and]
    rw [eq_comm (a := none), Option.map_eq_none_iff]
  | man | ui | pmp | plg =>
    simp only
    rw [none_mem_addArgs_iff _ _ _ (by simp)]
    simp
  | sen =>
    simp only
    rw [none_mem_addArgs_iff]
    . simp
    . intro device
      split
      . simp
      . simp

theorem none_mem_topoArgs_iff
    : none ∈ topoArgs attrs db
      ↔ ∃ mac, DeclaresLamp attrs mac ∧ (∀ i, (db.devices i).mac ≠ mac.upper.1)
          ∧ (∃ i, (db.devices i).mac = "") ∧ attrs.parsingGetStringAttr0 "ty" = none := by
  unfold topoArgs
  cases hcmd : attrs.parsingGetStringAttr0 "cmd" with
  | some cmd =>
    apply iff_of_false (by simp)
    rintro ⟨mac, hlamp, -⟩
    cases hcmd.symm.trans hlamp.cmd
  | none =>
    cases hnm : attrs.parsingGetStringAttr0 "nm" with
    | none =>
      apply iff_of_false (by simp)
      rintro ⟨mac, hlamp, -⟩
      exact hlamp.nm hnm
    | some nm =>
      -- Another device is named
      have hother {kind : String} (hkind : kind ∈ ["man", "ui", "sen", "pmp"]) {mac' : Text}
          (hmac' : attrs.parsingGetStringAttr0 kind = some mac')
          : ¬ ∃ mac, DeclaresLamp attrs mac ∧ (∀ i, (db.devices i).mac ≠ mac.upper.1)
            ∧ (∃ i, (db.devices i).mac = "") ∧ attrs.parsingGetStringAttr0 "ty" = none := by
        rintro ⟨mac, hlamp, -⟩
        cases hmac'.symm.trans (hlamp.others kind hkind)
      have hargs (d : Declaration) (hkind : d.kind ≠ .lmp) : none ∉ some d.mac.1 :: d.args db := by
        rw [List.mem_cons, none_mem_declaration_args_iff]
        simp [hkind]
      simp only
      unfold declaration
      cases hman : attrs.parsingGetStringAttr0 "man" with
      | some mac => exact iff_of_false (hargs _ (by simp)) (hother (by simp) hman)
      | none =>
      cases hui : attrs.parsingGetStringAttr0 "ui" with
      | some mac => exact iff_of_false (hargs _ (by simp)) (hother (by simp) hui)
      | none =>
      cases hsen : attrs.parsingGetStringAttr0 "sen" with
      | some mac => exact iff_of_false (hargs _ (by simp)) (hother (by simp) hsen)
      | none =>
      cases hpmp : attrs.parsingGetStringAttr0 "pmp" with
      | some mac => exact iff_of_false (hargs _ (by simp)) (hother (by simp) hpmp)
      | none =>
      have hothers : ∀ kind ∈ ["man", "ui", "sen", "pmp"],
          attrs.parsingGetStringAttr0 kind = none := by
        simp [hman, hui, hsen, hpmp]
      have hnamed : attrs.parsingGetStringAttr0 "nm" ≠ none := by simp [hnm]
      cases hlmp : attrs.parsingGetStringAttr0 "lmp" with
      | some mac =>
        simp only [List.mem_cons, none_mem_declaration_args_iff, reduceCtorEq, false_or, true_and]
        constructor
        . rintro ⟨hnew, hfree, hty⟩
          exact ⟨mac, ⟨hcmd, hnamed, hothers, hlmp⟩, hnew, hfree, hty⟩
        . rintro ⟨mac', hlamp, hnew, hfree, hty⟩
          obtain rfl : mac = mac' := Option.some.inj (hlmp.symm.trans hlamp.lmp)
          exact ⟨hnew, hfree, hty⟩
      | none =>
        have hnot : ¬ ∃ mac, DeclaresLamp attrs mac ∧ (∀ i, (db.devices i).mac ≠ mac.upper.1)
            ∧ (∃ i, (db.devices i).mac = "") ∧ attrs.parsingGetStringAttr0 "ty" = none := by
          rintro ⟨mac, hlamp, -⟩
          cases hlmp.symm.trans hlamp.lmp
        cases attrs.parsingGetStringAttr0 "plg" with
        | some mac => exact iff_of_false (hargs _ (by simp)) hnot
        | none => exact iff_of_false List.not_mem_nil hnot

theorem none_not_mem_dbEditArgs : none ∉ dbEditArgs attrs db := by
  unfold dbEditArgs
  split
  . next mac dev type hcommand =>
    rw [none_mem_addArgs_iff _ _ _ (by simp)]
    rintro ⟨-, -, h⟩
    split at h
    . simp at h
    . simp at h
  . simp
  . simp
  . split_ifs
    all_goals simp
  . simp
  . simp

theorem none_not_mem_dbgetArgs : none ∉ dbgetArgs attrs := by
  unfold dbgetArgs
  split
  . simp
  . simp

theorem none_not_mem_ctrlArgs : none ∉ ctrlArgs attrs db := by
  unfold ctrlArgs
  split
  . dsimp only
    split
    . split_ifs
      all_goals simp
    . simp
  . simp

theorem none_not_mem_systemArgs (system : Int32) : none ∉ systemArgs attrs system := by
  unfold systemArgs
  dsimp only
  split_ifs
  all_goals simp

theorem none_not_mem_cmdArgs : none ∉ cmdArgs attrs := by
  unfold cmdArgs
  dsimp only
  split_ifs
  . simp
  . simp
  . simp
  . exact none_not_mem_systemArgs _
  . simp

theorem none_mem_lmpArgs_iff
    : none ∈ lmpArgs attrs
      ↔ (attrs.parsingGetStringAttr0 "grp" ≠ none ∨ 0 < attrs.parsingGetIntAttr "grpid"
          ∨ attrs.parsingGetStringAttr0 "scn" ≠ none ∨ 0 < attrs.parsingGetIntAttr "scnid")
        ∧ attrs.parsingGetStringAttr0 "mac" = none := by
  unfold lmpArgs
  simp only [isSome_member_iff]
  split
  . next h =>
    simp only [List.mem_append, List.mem_singleton, none_mem_guarded, or_false, h, true_and]
    rw [eq_comm, member_eq_none_iff]
  . next h => simp [h]

theorem none_not_mem_grpArgs : none ∉ grpArgs attrs := by
  unfold grpArgs
  dsimp only
  split_ifs
  . simp
  . simp

theorem none_not_mem_sensorArgs : none ∉ sensorArgs attrs db := by
  unfold sensorArgs
  split
  . split_ifs
    . simp
    . simp
  . simp

theorem none_not_mem_procArgs : none ∉ procArgs attrs := by
  unfold procArgs
  dsimp only
  split_ifs with hstart hstop hrestart
  . simp [Option.isSome_iff_ne_none.mp hstart, eq_comm]
  . simp [Option.isSome_iff_ne_none.mp hstop, eq_comm]
  . simp [Option.isSome_iff_ne_none.mp hrestart, eq_comm]
  . simp

theorem none_not_mem_args_iff (cmd : Command) : none ∉ cmd.args db ↔ Given cmd db := by
  by_cases htp : cmd.name = "tp" ∨ cmd.name = "tp+"
  . have hargs : cmd.args db = topoArgs cmd.attrs db := by
      unfold Command.args
      rcases htp with htp | htp
      . simp [htp]
      . simp [htp]
    have hlmp : cmd.name ≠ "lmp" := by
      rcases htp with htp | htp
      . simp [htp]
      . simp [htp]
    rw [hargs, none_mem_topoArgs_iff]
    constructor
    . intro h
      refine ⟨fun _ mac hlamp hnew hfree hty => ?_, fun heq => absurd heq hlmp⟩
      exact h ⟨mac, hlamp, hnew, hfree, hty⟩
    . rintro h ⟨mac, hlamp, hnew, hfree, hty⟩
      exact h.type htp mac hlamp hnew hfree hty
  . by_cases hlmp : cmd.name = "lmp"
    . have hargs : cmd.args db = lmpArgs cmd.attrs := by simp [Command.args, hlmp]
      rw [hargs, none_mem_lmpArgs_iff]
      constructor
      . intro h
        exact ⟨fun heq => absurd heq htp, fun _ hgroup hmac => h ⟨hgroup, hmac⟩⟩
      . rintro h ⟨hgroup, hmac⟩
        exact h.mac hlmp hgroup hmac
    . apply iff_of_true
      . unfold Command.args
        split_ifs
        . exact none_not_mem_dbgetArgs
        . exact none_not_mem_dbEditArgs
        . exact none_not_mem_ctrlArgs
        . exact none_not_mem_cmdArgs
        . exact none_not_mem_grpArgs
        . exact none_not_mem_sensorArgs
        . exact none_not_mem_procArgs
        . exact List.not_mem_nil
      . exact ⟨fun heq => absurd heq htp, fun heq => absurd heq hlmp⟩

/--
A command gives no `NULL` to a string function and is handled to its end in exactly these cases.
-/
theorem handled_iff_given (rgb2xy kelvin2xy : Int32 → Int32 × Int32) (cmd : Command) (s : Client)
    : none ∉ cmd.args s.db ∧ (∃ answer, s.handled rgb2xy kelvin2xy cmd = some answer)
      ↔ Given cmd s.db := by
  rw [← none_not_mem_args_iff]
  constructor
  . exact And.left
  . intro h
    refine ⟨h, ?_⟩
    unfold Client.handled
    rw [if_neg h]
    exact ⟨_, rfl⟩

end

def newLamp : Command where
  name := "tp"
  attrs := (Attrs.parsingReset.parsingStringAttr "nm" "Hall").parsingStringAttr "lmp" "00158D0000350124"
  env := quiet

theorem newLamp_not_handled
    : ¬ (none ∉ newLamp.args plugClient.db
      ∧ ∃ answer, plugClient.handled (fun _ => (0, 0)) (fun _ => (0, 0)) newLamp = some answer) := by
  rintro ⟨h, -⟩
  apply h
  decide +kernel

end ControlInterface
