import IotGateway.ControlInterface.Impl.Ctrl
import IotGateway.ControlInterface.Impl.DbEdit
import IotGateway.ControlInterface.Lemmas.Session
import IotGateway.Lib.Machine
import IotGateway.ZcbDaemon.Impl.Devices

/-!
This module contains the control commands for UIs between the commands that add, declare, edit and
delete devices, and when they are tunnelled to the manager that the UI has been declared under.
-/

namespace Gateway

open NewDb Table Json ControlInterface ZcbDaemon

/--
`manager` is the manager declared last since all was cleared, and `managerOf` the one that it was when
a device was declared as a UI.
-/
structure Wiring where
  db : Db
  topo : TopoState := {}
  manager : Option Text := none
  managerOf : String → Option Text := fun _ => none

inductive Command where
  | dbEdit (cmd : DbEditCommand)
  | topo (cmd : TopoCommand)
  | zcb (update : DeviceUpdate)
  | ctrl (attrs : Attrs) (opened : Bool)

/--
The device that a command may add.
-/
def Command.adds : Command → Option Text
  | .dbEdit (.add mac _ _) => some mac
  | .topo (.declare d) => some d.mac
  | .zcb update => some update.edit.mac
  | _ => none

/--
A command with what the clock shows. A MAC address is within the maximum length of the parser.
-/
structure Request where
  command : Command
  now : Int := 0
  now' : Int := 0
  mac_le : ∀ mac, command.adds = some mac → mac.1.toList.length ≤ LEN_MAC_NIBBLE

deriving instance DecidableEq for Object

/--
The messages that a control command leads to, for a device that has been declared under `manager`.
-/
structure Handled where
  manager : Option Text
  messages : List Object
  deriving DecidableEq

def Wiring.managerAfter (s : Wiring) : Command → Option Text
  | .topo .clearall => none
  | .topo (.declare d) => if d.kind = .man then some d.mac else s.manager
  | _ => s.manager

def Wiring.managerOfAfter (s : Wiring) : Command → String → Option Text
  | .topo (.declare d) =>
    if d.kind = .ui then Function.update s.managerOf d.mac s.manager else s.managerOf
  | _ => s.managerOf

section

variable (rgb2xy : Int32 → Int32 × Int32)

/--
The tables after a command, and the messages of the control command.
-/
def Wiring.run (s : Wiring) (request : Request) : TopoState × Db × List Handled :=
  match request.command with
  | .dbEdit cmd => (s.topo, (dbEditRun cmd request.now request.now' s.db).1, [])
  | .topo cmd =>
    let (topo, db) := topoRun cmd request.now request.now' s.topo s.db
    (topo, db, [])
  | .zcb update => (s.topo, (update.edit.run request.now request.now' s.db).1, [])
  | .ctrl attrs opened =>
    let (db, messages, _) := ctrlHandle rgb2xy attrs opened request.now s.db
    let manager := (attrs.parsingGetStringAttr0 "mac").bind fun mac => s.managerOf mac.upper
    (s.topo, db, [{ manager, messages }])

def Wiring.step (s : Wiring) (request : Request) : Wiring × List Handled :=
  let (topo, db, handled) := s.run rgb2xy request
  ({ db
     topo
     manager := s.managerAfter request.command
     managerOf := s.managerOfAfter request.command }, handled)

end

/--
The command is tunnelled to no other device than the manager.
-/
def TunnelsToManager (handled : Handled) : Prop :=
  ∀ tunnelMac, jsonTunnelOpen tunnelMac ∈ handled.messages →
    ∃ manager, handled.manager = some manager ∧ tunnelMac = manager.1

/--
If there is a row with the index `par` then the manager is in it.
-/
def Refers (db : Db) (par : Int) (manager : Option Text) : Prop :=
  ∀ k : Fin NEWDB_MAX_DEVICES, par = k → manager.map (·.1) = some (db.macs k)

instance (db : Db) (par : Int) (manager : Option Text) : Decidable (Refers db par manager) :=
  inferInstanceAs (Decidable (∀ _, _ → _))

def IsUi (dev : Int) : Prop := dev = DEVICE_DEV_UI ∨ dev = DEVICE_DEV_UISENSOR

instance (dev : Int) : Decidable (IsUi dev) := inferInstanceAs (Decidable (_ ∨ _))

/--
No UI that stays has its parent among the devices that go.
-/
def ParentsStay (db : Db) (goes : Device → Prop) : Prop :=
  ∀ i k : Fin NEWDB_MAX_DEVICES, db.macs i ≠ "" → IsUi (db.devices i).dev →
    ¬ goes (db.devices i) → (db.devices i).par = k → ¬ goes (db.devices k)

instance (db : Db) (goes : Device → Prop) [DecidablePred goes] : Decidable (ParentsStay db goes) :=
  inferInstanceAs (Decidable (∀ _ _, _ → _ → _ → _ → _))

/--
A device becomes a UI only with the manager it has been declared under as its parent, and no parent of
a UI is deleted. A new device has the parent 0.
-/
def Wired (s : Wiring) : Command → Prop
  | .dbEdit (.add mac dev _) =>
    IsUi dev → newDbGetDevice s.db mac = none → Refers s.db 0 (s.managerOf mac)
  | .dbEdit (.rem mac) => ParentsStay s.db fun device => device.mac = mac
  | .dbEdit (.clr clr) =>
    ∀ mode, clearMode clr = some mode → ParentsStay s.db fun device => mode.selects device.dev = true
  | .dbEdit (.table table id col val) =>
    ∀ i : Fin NEWDB_MAX_DEVICES, table = "devices" → col = "par" → id = i → s.db.macs i ≠ "" →
      IsUi (s.db.devices i).dev → Refers s.db (Atoi0 val) (s.managerOf (s.db.macs i))
  | .topo (.declare d) => d.kind = .ui → Refers s.db s.topo.currentManager s.manager
  | .topo .endconf => ParentsStay s.db Marked
  | .topo .clearall => True
  | .topo .upload => True
  | .zcb (.announce mac devstr _ _) =>
    IsUi (announcedDev devstr) →
      Refers s.db ((newDbGetDevice s.db mac).elim 0 Device.par) (s.managerOf mac)
  | .zcb _ => True
  | .ctrl _ _ => True

/--
Each UI in the table is under the manager that it has been declared under.
-/
structure Sane (db : Db) (managerOf : String → Option Text) : Prop where
  indexed : Indexed db
  unique : ∀ i j, db.macs i ≠ "" → db.macs j = db.macs i → j = i
  refers : ∀ i, db.macs i ≠ "" → IsUi (db.devices i).dev →
    Refers db (db.devices i).par (managerOf (db.macs i))

section

variable {db db' : Db} {managerOf managerOf' : String → Option Text} {i : Fin NEWDB_MAX_DEVICES}
  {mac : Text}

theorem Sane.init : Sane Db.init fun _ => none := by
  constructor
  . exact Db.init_indexed
  . intro i j hlive
    exact absurd rfl hlive
  . intro i hlive
    exact absurd rfl hlive

theorem Refers.mono {par : Int} {manager : Option Text} (h : Refers db par manager)
    (hmacs : ∀ k, db.macs k ≠ "" → db'.macs k = db.macs k)
    : Refers db' par manager := by
  intro k hk
  have hold := h k hk
  rw [hmacs k, hold]
  intro hfree
  obtain ⟨m, -, hm⟩ := Option.map_eq_some_iff.mp hold
  exact m.2 (hm.trans hfree)

theorem Sane.written (h : Sane db managerOf) (hindexed : Indexed db')
    (hrow : first (· == mac.1) db'.macs = some i) (hmacs : db'.macs = place "" db.macs mac.1)
    (hothers : ∀ j, j ≠ i → db'.devices j = db.devices j)
    (hmanager : ∀ m, m ≠ mac.1 → managerOf' m = managerOf m)
    (hui : IsUi (db'.devices i).dev → Refers db (db'.devices i).par (managerOf' mac))
    : Sane db' managerOf' := by
  have hkey := first_key hrow
  have hunique : ∀ j l, db'.macs j ≠ "" → db'.macs l = db'.macs j → l = j := by
    rw [hmacs]
    exact place_unique h.unique mac.1
  have hkeep : ∀ k, db.macs k ≠ "" → db'.macs k = db.macs k := by
    intro k hk
    rw [hmacs, place_occupied hk]
  constructor
  . exact hindexed
  . exact hunique
  . intro j hlive hdev
    by_cases hj : j = i
    . subst hj
      rw [hkey]
      exact (hui hdev).mono hkeep
    . have hsame : db'.macs j = db.macs j := congrArg Device.mac (hothers j hj)
      have hne : db.macs j ≠ mac.1 := by
        intro heq
        apply hj
        apply hunique i j
        . rw [hkey]
          exact mac.2
        . rw [hsame, heq, hkey]
      rw [hothers j hj] at hdev ⊢
      rw [hsame] at hlive ⊢
      rw [hmanager _ hne]
      exact (h.refers j hlive hdev).mono hkeep

theorem Sane.freed (h : Sane db managerOf) (goes : Device → Prop) [DecidablePred goes]
    (hrows : ∀ i, (db'.devices i).id = (db.devices i).id ∧ (db'.devices i).dev = (db.devices i).dev
      ∧ (db'.devices i).par = (db.devices i).par
      ∧ db'.macs i = if goes (db.devices i) then "" else db.macs i)
    (hstay : ParentsStay db goes)
    : Sane db' managerOf := by
  have hkeep : ∀ i, db'.macs i ≠ "" → db'.macs i = db.macs i ∧ ¬ goes (db.devices i) := by
    intro i hlive
    rw [(hrows i).2.2.2] at hlive ⊢
    split at hlive
    . exact absurd rfl hlive
    . next hgoes => exact ⟨if_neg hgoes, hgoes⟩
  constructor
  . intro i
    rw [(hrows i).1]
    exact h.indexed i
  . intro i j hlive hj
    obtain ⟨hi, -⟩ := hkeep i hlive
    obtain ⟨hj', -⟩ := hkeep j (hj ▸ hlive)
    apply h.unique i j
    . rwa [← hi]
    . rw [← hi, ← hj', hj]
  . intro i hlive hdev k hk
    obtain ⟨hi, hgoes⟩ := hkeep i hlive
    rw [hi] at hlive ⊢
    rw [(hrows i).2.1] at hdev
    rw [(hrows i).2.2.1] at hk
    rw [(hrows k).2.2.2, if_neg (hstay i k hlive hdev hgoes hk)]
    exact h.refers i hlive hdev k hk

theorem Sane.set (h : Sane db managerOf) {device : Device}
    (hdevices : db'.devices = Function.update db.devices i device) (hid : device.id = i)
    (hmac : device.mac = db.macs i)
    (hui : db.macs i ≠ "" → IsUi device.dev → Refers db device.par (managerOf (db.macs i)))
    : Sane db' managerOf := by
  have hmacs : db'.macs = db.macs := by
    funext j
    rw [Db.macs, hdevices]
    by_cases hj : j = i
    . rw [hj, Function.update_self, hmac]
    . rw [Function.update_of_ne hj]
      rfl
  constructor
  . intro j
    rw [hdevices]
    by_cases hj : j = i
    . rw [hj, Function.update_self, hid]
    . rw [Function.update_of_ne hj]
      exact h.indexed j
  . rw [hmacs]
    exact h.unique
  . rw [hmacs]
    intro j hlive hdev
    have hrefers : Refers db (db'.devices j).par (managerOf (db.macs j)) := by
      rw [hdevices] at hdev ⊢
      by_cases hj : j = i
      . subst hj
        rw [Function.update_self] at hdev ⊢
        exact hui hlive hdev
      . rw [Function.update_of_ne hj] at hdev ⊢
        exact h.refers j hlive hdev
    exact hrefers.mono fun k _ => congrFun hmacs k

theorem isUi_of_sen {dev : Int} (h : IsUi (DeviceKind.sen.nextDev dev))
    : IsUi dev ∧ ¬ IsSensor dev := by
  by_cases hroles : HasRoles dev
  . rcases hroles with rfl | rfl | rfl | rfl
    all_goals revert h; decide
  . rw [(nextDev_of_not hroles).2] at h
    exact ⟨h, fun hsensor => hroles hsensor.hasRoles⟩

theorem Sane.congr (h : Sane db managerOf) (hdevices : db'.devices = db.devices)
    (hmanager : ∀ i, db.macs i ≠ "" → managerOf' (db.macs i) = managerOf (db.macs i))
    : Sane db' managerOf' := by
  have hmacs : db'.macs = db.macs := by
    funext j
    rw [Db.macs, hdevices]
    rfl
  constructor
  . intro j
    rw [hdevices]
    exact h.indexed j
  . rw [hmacs]
    exact h.unique
  . rw [hmacs, hdevices]
    intro j hlive hdev
    rw [hmanager j hlive]
    exact (h.refers j hlive hdev).mono fun k _ => congrFun hmacs k

end

theorem editDefaults_fields (dev : Int) (type : String) (device : Device)
    : (editDefaults dev type device).dev = device.dev
        ∧ (editDefaults dev type device).par = device.par := by
  have hlamp := lampDefaults_fields device (some type)
  unfold editDefaults
  split_ifs
  all_goals first | exact ⟨rfl, rfl⟩ | exact ⟨congrArg Fields.dev hlamp, congrArg Fields.par hlamp⟩

theorem dbEditAdd_fresh (mac : Text) (dev : Int) (type : String)
    : ∃ fresh, (dbEditAdd mac dev type).fresh = some fresh
        ∧ ∀ device, (fresh.apply device).dev = dev ∧ (fresh.apply device).par = 0 := by
  refine ⟨_, rfl, ?_⟩
  intro device
  exact editDefaults_fields dev type _

theorem update_saves (update : DeviceUpdate) (device : Device)
    : update.edit.found.saves device = true := by
  cases update <;> rfl

theorem update_found_fields (update : DeviceUpdate) (device : Device)
    : (update.edit.found.apply device).par = device.par
        ∧ ((update.edit.found.apply device).dev = device.dev
          ∨ ∃ mac devstr ty info, update = .announce mac devstr ty info
              ∧ (update.edit.found.apply device).dev = announcedDev devstr) := by
  cases update with
  | announce mac devstr ty info => exact ⟨rfl, .inr ⟨mac, devstr, ty, info, rfl, rfl⟩⟩
  | ui mac heat cool =>
    have hheat : (setHeat heat device).par = device.par ∧ (setHeat heat device).dev = device.dev := by
      unfold setHeat
      split
      . split <;> exact ⟨rfl, rfl⟩
      . exact ⟨rfl, rfl⟩
    have hcool : ∀ device, (setCool cool device).par = device.par
        ∧ (setCool cool device).dev = device.dev := by
      intro device
      unfold setCool
      split
      . split <;> exact ⟨rfl, rfl⟩
      . exact ⟨rfl, rfl⟩
    obtain ⟨hpar, hdev⟩ := hcool (setHeat heat device)
    exact ⟨hpar.trans hheat.1, .inl (hdev.trans hheat.2)⟩
  | _ => exact ⟨rfl, .inl rfl⟩

theorem control_device (rgb2xy : Int32 → Int32 × Int32) (attrs : Attrs) (mac : String)
    (device : Device)
    : let controlled := (controlDevice rgb2xy attrs mac device).device
      controlled.id = device.id ∧ controlled.mac = device.mac ∧ controlled.dev = device.dev
        ∧ controlled.par = device.par := by
  simp only [controlDevice]
  split
  . simp only [controlUi]
    split_ifs <;> exact ⟨rfl, rfl, rfl, rfl⟩
  . split
    . simp only [controlPlug]
      split <;> exact ⟨rfl, rfl, rfl, rfl⟩
    . split
      . simp only [controlLamp]
        split_ifs <;> exact ⟨rfl, rfl, rfl, rfl⟩
      . exact ⟨rfl, rfl, rfl, rfl⟩

/--
Only the command for a UI is tunnelled, to its parent.
-/
theorem control_tunnel (rgb2xy : Int32 → Int32 × Int32) (attrs : Attrs) (mac : String)
    (device : Device)
    : let controlled := controlDevice rgb2xy attrs mac device
      (∀ m, jsonTunnelOpen m ∉ controlled.messages)
        ∧ (∀ m, jsonTunnelOpen m ≠ controlled.tunnelMessage)
        ∧ (0 ≤ controlled.tunnelManager → IsUi device.dev ∧ controlled.tunnelManager = device.par) := by
  have hname : ∀ {m : String} {object : Object}, object.name ≠ "tunnel" →
      jsonTunnelOpen m ≠ object := by
    rintro m object hne rfl
    exact hne rfl
  have hplug : ∀ cmd, (jsonPlugCmd mac cmd).name ≠ "tunnel" := by
    intro cmd
    simp [jsonPlugCmd, jsonPlug]
  have hnone : ¬ (0 : Int) ≤ -1 := by decide
  simp only [controlDevice]
  split
  . next hui =>
    simp only [controlUi]
    exact ⟨fun m => by simp, fun m => hname (by simp [jsonUiCtrl]), fun _ => ⟨hui, trivial⟩⟩
  . split
    . simp only [controlPlug]
      split
      . refine ⟨?_, fun m => hname (by simp), fun hle => absurd hle hnone⟩
        intro m hmem
        exact hname (hplug _) (List.mem_singleton.mp hmem)
      . exact ⟨fun m => by simp, fun m => hname (by simp), fun hle => absurd hle hnone⟩
    . split
      . simp only [controlLamp]
        refine ⟨?_, fun m => hname (by simp), fun hle => absurd hle hnone⟩
        intro m hmem
        exact hname (by simp [jsonLampToZigbee]) (List.mem_singleton.mp hmem)
      . exact ⟨fun m => by simp, fun m => hname (by simp), fun hle => absurd hle hnone⟩

/--
A message is tunnelled to the device in the row of the parent.
-/
theorem tunnel_refers {db : Db} {par : Int} {manager : Option Text} (h : Refers db par manager)
    {tunnelMessage : Object} {opened : Bool} {tunnelMac : String}
    (hmessage : jsonTunnelOpen tunnelMac ≠ tunnelMessage)
    (hmem : jsonTunnelOpen tunnelMac ∈ (tunnel par tunnelMessage opened db).1)
    : ∃ m, manager = some m ∧ tunnelMac = m.1 := by
  unfold tunnel at hmem
  split at hmem
  . split at hmem
    . next mac hmac =>
      obtain ⟨k, hrow, rfl⟩ := Option.map_eq_some_iff.mp hmac
      obtain ⟨m, hm, hk⟩ := Option.map_eq_some_iff.mp (h k (rowOf_eq_some_iff.mp hrow))
      split at hmem
      . simp only [List.mem_cons, List.not_mem_nil, or_false] at hmem
        rcases hmem with hopen | hmem | hclose
        . refine ⟨m, hm, ?_⟩
          rw [hk, Db.macs]
          simpa [jsonTunnelOpen, string] using hopen
        . exact absurd hmem hmessage
        . simp [jsonTunnelOpen, jsonTunnelClose, string, int] at hclose
      . cases hmem
    . cases hmem
  . cases hmem

section

variable {db : Db} {managerOf : String → Option Text} (h : Sane db managerOf) (now now' : Int)

include h

theorem Sane.declare (d : Declaration) (hle : d.mac.1.toList.length ≤ LEN_MAC_NIBBLE) (s : TopoState)
    (manager : Option Text) (hok : d.kind = .ui → Refers db s.currentManager manager)
    : Sane ((d.edit s).run now now' db).1
        (if d.kind = .ui then Function.update managerOf d.mac manager else managerOf) := by
  have hmanager : ∀ m, m ≠ d.mac.1 →
      (if d.kind = .ui then Function.update managerOf d.mac manager else managerOf) m
        = managerOf m := by
    intro m hm
    split
    . rw [Function.update_of_ne hm]
    . rfl
  have hwritten : ∀ {i : Fin NEWDB_MAX_DEVICES} {db' : Db}, Declared d s i db db' →
      Sane db' (if d.kind = .ui then Function.update managerOf d.mac manager else managerOf) := by
    intro i db' hdeclared
    apply h.written hdeclared.indexed hdeclared.row hdeclared.macs hdeclared.others hmanager
    intro hui
    have hdev := congrArg Fields.dev hdeclared.fields
    have hpar := congrArg Fields.par hdeclared.fields
    simp only [fieldsOf, Fields.declare] at hdev hpar
    rw [hdev] at hui
    rw [hpar]
    cases hkind : d.kind with
    | ui =>
      rw [if_pos (.inl rfl), if_pos rfl, Function.update_self]
      exact hok hkind
    | sen =>
      rw [hkind] at hui
      obtain ⟨hold, hsensor⟩ := isUi_of_sen hui
      have hlive : (db.devices i).mac ≠ "" := by
        intro hfree
        rw [startOf_free hfree] at hold
        revert hold
        decide
      have hmac : db.macs i = d.mac.1 := by
        rw [← first_key hdeclared.row, hdeclared.macs, place_occupied]
        exact hlive
      rw [startOf_eq hlive] at hold hsensor ⊢
      rw [if_neg (not_setsPar (by decide) (by decide) fun _ => hsensor), if_neg (by decide), ← hmac]
      exact h.refers i hlive hold
    | man | pmp | lmp | plg =>
      rw [hkind] at hui
      exfalso
      revert hui
      simp only [DeviceKind.nextDev]
      decide
  cases hrow : first (· == d.mac.1) db.macs with
  | some i => exact hwritten (run_found h.indexed hrow).2
  | none =>
    cases hfree : first (· == "") db.macs with
    | some i => exact hwritten (run_fresh h.indexed hle hrow hfree).2
    | none =>
      rw [← edit_mac d s] at hrow
      rw [Edit.run_missing _ now now' hrow (.inr hfree)]
      apply h.congr rfl
      intro i _
      apply hmanager
      rw [edit_mac] at hrow
      exact first_eq_none_iff_ne.mp hrow i

theorem Sane.add (mac : Text) (hle : mac.1.toList.length ≤ LEN_MAC_NIBBLE) (dev : Int) (type : String)
    (hok : IsUi dev → newDbGetDevice db mac = none → Refers db 0 (managerOf mac))
    : Sane ((dbEditAdd mac dev type).run now now' db).1 managerOf := by
  match hrow : first (· == mac.1) db.macs with
  | some i =>
    have hget := newDbGetDevice_eq_some_iff.mpr ⟨i, hrow, rfl⟩
    have hrun : (dbEditAdd mac dev type).run now now' db = (db, (i : Int)) :=
      Edit.run_unsaved now now' hget h.indexed rfl
    rw [hrun]
    exact h
  | none =>
    have hget : newDbGetDevice db mac = none := Option.map_eq_none_iff.mpr hrow
    match hfree : first (· == "") db.macs with
    | none =>
      have hrun : (dbEditAdd mac dev type).run now now' db = (db, -1) :=
        Edit.run_missing _ now now' hrow (.inr hfree)
      rw [hrun]
      exact h
    | some i =>
      obtain ⟨fresh, hfresh, hspec⟩ := dbEditAdd_fresh mac dev type
      have hrow' : first (· == (dbEditAdd mac dev type).mac.1) db.macs = none := hrow
      obtain ⟨-, hwritten⟩ := Edit.run_fresh now now' h.indexed hle hrow' hfree hfresh
      apply h.written hwritten.indexed hwritten.row hwritten.macs hwritten.others fun _ _ => rfl
      rw [hwritten.device]
      intro hui
      obtain ⟨hdev, hpar⟩ := hspec (newDevice i (dbEditAdd mac dev type).mac now)
      simp only [hdev] at hui
      simp only [hpar]
      exact hok hui hget

theorem Sane.zcb (update : DeviceUpdate) (hle : update.edit.mac.1.toList.length ≤ LEN_MAC_NIBBLE)
    (hok : ∀ mac devstr ty info, update = .announce mac devstr ty info → IsUi (announcedDev devstr) →
      Refers db ((newDbGetDevice db mac).elim 0 Device.par) (managerOf mac))
    : Sane (update.edit.run now now' db).1 managerOf := by
  match hrow : first (· == update.edit.mac.1) db.macs with
  | some i =>
    have hget := newDbGetDevice_eq_some_iff.mpr ⟨i, hrow, rfl⟩
    obtain ⟨-, hwritten⟩ := Edit.run_found _ now now' h.indexed hrow (update_saves update _)
    apply h.written hwritten.indexed hwritten.row hwritten.macs hwritten.others fun _ _ => rfl
    rw [hwritten.device]
    intro hui
    obtain ⟨hpar, hdev⟩ := update_found_fields update (db.devices i)
    have hrefers : Refers db (db.devices i).par (managerOf update.edit.mac) := by
      rcases hdev with hsame | ⟨mac, devstr, ty, info, rfl, hdev⟩
      . have hkey : db.macs i = update.edit.mac.1 := first_key hrow
        rw [← hkey]
        apply h.refers i
        . rw [hkey]
          exact update.edit.mac.2
        . rw [← hsame]
          exact hui
      . have hannounced : IsUi (announcedDev devstr) := by
          rw [← hdev]
          exact hui
        have hparent := hok mac devstr ty info rfl hannounced
        have hget' : newDbGetDevice db mac = some (db.devices i) := hget
        rw [hget'] at hparent
        exact hparent
    rw [← hpar] at hrefers
    exact hrefers
  | none =>
    match hfresh : update.edit.fresh, hfree : first (· == "") db.macs with
    | none, _ =>
      rw [Edit.run_missing _ now now' hrow (.inl hfresh)]
      exact h
    | some fresh, none =>
      rw [Edit.run_missing _ now now' hrow (.inr hfree)]
      exact h
    | some fresh, some i =>
      obtain ⟨-, hwritten⟩ := Edit.run_fresh now now' h.indexed hle hrow hfree hfresh
      apply h.written hwritten.indexed hwritten.row hwritten.macs hwritten.others fun _ _ => rfl
      rw [hwritten.device]
      intro hui
      cases update with
      | announce mac devstr ty info =>
        obtain rfl := Option.some.inj hfresh
        have hget : newDbGetDevice db mac = none := Option.map_eq_none_iff.mpr hrow
        have hparent := hok mac devstr ty info rfl hui
        rw [hget] at hparent
        exact hparent
      | _ => cases hfresh

theorem Sane.rem (mac : Text) (hok : ParentsStay db fun device => device.mac = mac)
    : Sane (newDbDeleteDevice db mac now).1 managerOf := by
  apply h.freed (fun device => device.mac = mac.1) _ hok
  intro j
  match hrow : first (fun dev => dev.mac == mac.1) db.devices with
  | some i =>
    have hkey : (db.devices i).mac = mac.1 := beq_iff_eq.mp (first_spec hrow)
    have hdevices : (newDbDeleteDevice db mac now).1.devices
        = Function.update db.devices i { db.devices i with mac := "" } := by
      simp [newDbDeleteDevice, hrow]
    simp only [Db.macs, hdevices]
    by_cases hj : j = i
    . subst hj
      simp [hkey]
    . have hne : (db.devices j).mac ≠ mac.1 := by
        intro heq
        apply hj
        apply h.unique i j
        . rw [Db.macs, hkey]
          exact mac.2
        . exact heq.trans hkey.symm
      simp [Function.update_of_ne hj, hne]
  | none =>
    have hne : (db.devices j).mac ≠ mac.1 := by
      simpa using first_eq_none_iff.mp hrow j
    simp [newDbDeleteDevice, hrow, Db.macs, hne]

theorem Sane.empty (mode : EmptyMode)
    (hok : ParentsStay db fun device => mode.selects device.dev = true)
    : Sane (newDbEmptyDevices db mode now) managerOf := by
  apply h.freed (fun device => mode.selects device.dev = true) _ hok
  intro i
  exact ⟨(h.indexed i).symm, rfl, rfl, rfl⟩

theorem Sane.clear (clr : String)
    (hok : ∀ mode, clearMode clr = some mode →
      ParentsStay db fun device => mode.selects device.dev = true)
    : Sane (ControlInterface.clear clr now db) managerOf := by
  unfold ControlInterface.clear
  split
  . next hmode => exact (h.empty now .all (hok .all hmode)).congr rfl fun _ _ => rfl
  . next mode _ hmode => exact h.empty now mode (hok mode hmode)
  . split
    . exact h.congr rfl fun _ _ => rfl
    . split
      . exact h.congr rfl fun _ _ => rfl
      . split
        . exact h.congr rfl fun _ _ => rfl
        . exact h

theorem Sane.tableEdit (table : String) (id : Int) (col val : String)
    (hok : ∀ i : Fin NEWDB_MAX_DEVICES, table = "devices" → col = "par" → id = i → db.macs i ≠ "" →
      IsUi (db.devices i).dev → Refers db (Atoi0 val) (managerOf (db.macs i)))
    : Sane (ControlInterface.tableEdit table id col val now db) managerOf := by
  unfold ControlInterface.tableEdit
  split
  . next htable =>
    split
    . next dev hget =>
      obtain ⟨i, hrow, rfl⟩ := Option.map_eq_some_iff.mp hget
      have hid := rowOf_eq_some_iff.mp hrow
      split
      . next hcol =>
        have hid' : ({ db.devices i with par := Atoi0 val } : Device).id = i := h.indexed i
        apply h.set (newDbSetDevice_devices db now hid') hid' rfl
        intro hlive hui
        exact hok i htable hcol hid hlive hui
      . next hcol =>
        apply h.set (newDbSetDevice_devices db now (h.indexed i)) (h.indexed i) rfl
        exact h.refers i
    . exact h
  . exact h

theorem Sane.setClear : Sane (newDbDevicesSetClearFlag db) managerOf := by
  apply h.freed fun _ => False
  . intro i
    simp only [newDbDevicesSetClearFlag, Device.setClear, Db.macs]
    split <;> exact ⟨rfl, rfl, rfl, rfl⟩
  . intro i k _ _ _ _ hgoes
    exact hgoes

theorem Sane.removeClear (hok : ParentsStay db Marked)
    : Sane (newDbDevicesRemoveWithClearFlag db) managerOf := by
  apply h.freed Marked _ hok
  intro i
  obtain ⟨hfields, hmac⟩ := swept_row db i
  refine ⟨?_, congrArg Fields.dev hfields, congrArg Fields.par hfields, hmac⟩
  simp only [newDbDevicesRemoveWithClearFlag, Device.removeClear]
  split <;> rfl

theorem Sane.controlled (rgb2xy : Int32 → Int32 × Int32) (attrs : Attrs) (mac : String)
    (i : Fin NEWDB_MAX_DEVICES)
    : let db' := (newDbSetDevice db (controlDevice rgb2xy attrs mac (db.devices i)).device now).1
      Sane db' managerOf ∧ db'.macs = db.macs := by
  obtain ⟨hid, hmac, hdev, hpar⟩ := control_device rgb2xy attrs mac (db.devices i)
  have hrow := hid.trans (h.indexed i)
  constructor
  . apply h.set (newDbSetDevice_devices db now hrow) hrow hmac
    intro hlive hui
    rw [hpar]
    apply h.refers i hlive
    rw [← hdev]
    exact hui
  . rw [newDbSetDevice_macs db now hrow, hmac]
    exact Function.update_eq_self i db.macs

theorem Sane.ctrl (rgb2xy : Int32 → Int32 × Int32) (attrs : Attrs) (opened : Bool)
    : Sane (ctrlHandle rgb2xy attrs opened now db).1 managerOf
        ∧ TunnelsToManager
            { manager := (attrs.parsingGetStringAttr0 "mac").bind fun mac => managerOf mac.upper
              messages := (ctrlHandle rgb2xy attrs opened now db).2.1 } := by
  unfold ctrlHandle
  match attrs.parsingGetStringAttr0 "mac" with
  | none =>
    refine ⟨h, ?_⟩
    intro tunnelMac hmem
    cases hmem
  | some mac =>
    match hget : newDbGetDevice db mac.upper with
    | none =>
      simp only [hget]
      refine ⟨h, ?_⟩
      intro tunnelMac hmem
      cases hmem
    | some device =>
      obtain ⟨i, rfl, hmac⟩ := newDbGetDevice_spec hget
      obtain ⟨hmessages, hmessage, hpar⟩ := control_tunnel rgb2xy attrs mac.upper (db.devices i)
      simp only [hget]
      generalize hafter : (if (controlDevice rgb2xy attrs mac.upper (db.devices i)).changed = true then
        (newDbSetDevice db (controlDevice rgb2xy attrs mac.upper (db.devices i)).device now).1
          else db) = after
      have hsane : Sane after managerOf ∧ after.macs = db.macs := by
        rw [← hafter]
        split
        . exact h.controlled now rgb2xy attrs mac.upper i
        . exact ⟨h, rfl⟩
      obtain ⟨hsane, hmacs⟩ := hsane
      refine ⟨hsane, ?_⟩
      intro tunnelMac hmem
      rcases List.mem_append.mp hmem with hmem | hmem
      . split at hmem
        . exact absurd hmem (hmessages tunnelMac)
        . cases hmem
      . by_cases hle : 0 ≤ (controlDevice rgb2xy attrs mac.upper (db.devices i)).tunnelManager
        . obtain ⟨hui, htunnel⟩ := hpar hle
          have hkey : db.macs i = mac.upper.1 := hmac
          have hrefers := h.refers i (hkey ▸ mac.upper.2) hui
          rw [hkey, ← htunnel] at hrefers
          exact tunnel_refers (hrefers.mono fun k _ => congrFun hmacs k) (hmessage tunnelMac) hmem
        . simp only [tunnel, if_neg hle] at hmem
          cases hmem

end

theorem Wiring.step_sane (rgb2xy : Int32 → Int32 × Int32) (s : Wiring) (request : Request)
    (h : Sane s.db s.managerOf) (hok : Wired s request.command)
    : Sane (s.step rgb2xy request).1.db (s.step rgb2xy request).1.managerOf
        ∧ ∀ handled ∈ (s.step rgb2xy request).2, TunnelsToManager handled := by
  obtain ⟨command, now, now', hle⟩ := request
  have hempty : ∀ handled ∈ ([] : List Handled), TunnelsToManager handled := by
    intro handled hmem
    cases hmem
  simp only [Wiring.step]
  cases command with
  | dbEdit cmd =>
    refine ⟨?_, hempty⟩
    simp only [Wiring.run, Wiring.managerOfAfter]
    cases cmd with
    | add mac dev type => exact h.add now now' mac (hle mac rfl) dev type hok
    | rem mac =>
      have hrem := h.rem now mac hok
      simp only [dbEditRun]
      split
      . next heq =>
        rw [heq] at hrem
        exact hrem
      . next heq =>
        rw [heq] at hrem
        exact hrem
    | clr clr => exact h.clear now clr hok
    | table table id col val => exact h.tableEdit now table id col val hok
  | topo cmd =>
    refine ⟨?_, hempty⟩
    simp only [Wiring.run, Wiring.managerOfAfter]
    cases cmd with
    | clearall => exact h.setClear
    | endconf => exact h.removeClear hok
    | upload => exact h
    | declare d => exact h.declare now now' d (hle d.mac rfl) s.topo s.manager hok
  | zcb update =>
    refine ⟨?_, hempty⟩
    apply h.zcb now now' update (hle update.edit.mac rfl)
    rintro mac devstr ty info rfl hui
    exact hok hui
  | ctrl attrs opened =>
    obtain ⟨hsane, htunnel⟩ := h.ctrl now rgb2xy attrs opened
    refine ⟨hsane, ?_⟩
    intro handled hmem
    rw [List.mem_singleton.mp hmem]
    exact htunnel

/--
As long as each device becomes a UI only under the manager it is declared under and no manager is
deleted that a UI is under, what is tunnelled goes to the manager that the UI was last declared under.
-/
theorem tunnels_to_manager (rgb2xy : Int32 → Int32 × Int32) (requests : List Request)
    (hok : Machine.Along (Wiring.step rgb2xy) (fun s request => Wired s request.command)
      { db := Db.init } requests)
    : ∀ handled ∈ Machine.trace (Wiring.step rgb2xy) { db := Db.init } requests,
        TunnelsToManager handled := by
  have hkeep : ∀ (s : Wiring) (request : Request), Sane s.db s.managerOf → Wired s request.command →
      Sane (s.step rgb2xy request).1.db (s.step rgb2xy request).1.managerOf :=
    fun s request h hok => (s.step_sane rgb2xy request h hok).1
  have hout : ∀ (s : Wiring) (request : Request), Sane s.db s.managerOf → Wired s request.command →
      ∀ handled ∈ (s.step rgb2xy request).2, TunnelsToManager handled :=
    fun s request h hok => (s.step_sane rgb2xy request h hok).2
  exact Machine.forall_trace (Wiring.step rgb2xy) hkeep hout Sane.init hok

def managerMac : Text := ⟨"00158D000035AA01", by decide⟩

def uiMac : Text := ⟨"00158D000035AA02", by decide⟩

def dimmerMac : Text := ⟨"00158D000035AA03", by decide⟩

def attic : Text := ⟨"Attic", by decide⟩

def request (command : Command)
    (mac_le : ∀ mac, command.adds = some mac → mac.1.toList.length ≤ LEN_MAC_NIBBLE) : Request where
  command
  mac_le

def setHeatTo : Attrs :=
  Attrs.parsingReset |>.parsingStringAttr "mac" uiMac |>.parsingIntAttr "heat" 2100

/--
A manager and a UI under it are declared.
-/
def declareUi : List Request :=
  [request (.topo .clearall) (by rintro mac ⟨⟩),
    request (.topo (.declare { kind := .man, mac := managerMac, nm := attic }))
      (by rintro mac ⟨⟩; decide),
    request (.topo (.declare { kind := .ui, mac := uiMac, nm := attic })) (by rintro mac ⟨⟩; decide),
    request (.topo .endconf) (by rintro mac ⟨⟩)]

def controlUiHeat : Request := request (.ctrl setHeatTo true) (by rintro mac ⟨⟩)

theorem tunnels_to_manager_declareUi
    : TunnelsToManager
        { manager := some managerMac
          messages := [jsonTunnelOpen managerMac, jsonUiCtrl uiMac 2100 Attrs.INT_MIN,
            jsonTunnelClose] } := by
  apply tunnels_to_manager (fun color => (color, color)) (declareUi ++ [controlUiHeat])
  . refine ⟨trivial, ?_, ?_, ?_, trivial, trivial⟩
    . intro hkind
      cases hkind
    . intro _
      decide
    . have hstay : ∀ s : Wiring, ParentsStay s.db Marked → Wired s (.topo .endconf) := fun _ h => h
      apply hstay
      decide
  . decide

/--
The manager is removed and a lamp that is added gets its row.
-/
def replaceManager : List Request :=
  [request (.dbEdit (.rem managerMac)) (by rintro mac ⟨⟩),
    request (.dbEdit (.add dimmerMac DEVICE_DEV_LAMP "dim")) (by rintro mac ⟨⟩; decide)]

theorem tunnels_to_lamp
    : ¬ ∀ handled ∈ Machine.trace (Wiring.step fun color => (color, color)) { db := Db.init }
        (declareUi ++ replaceManager ++ [controlUiHeat]), TunnelsToManager handled := by
  intro h
  have hmem : { manager := some managerMac
                messages := [jsonTunnelOpen dimmerMac, jsonUiCtrl uiMac 2100 Attrs.INT_MIN,
                  jsonTunnelClose] }
      ∈ Machine.trace (Wiring.step fun color => (color, color)) { db := Db.init }
        (declareUi ++ replaceManager ++ [controlUiHeat]) := by
    decide
  obtain ⟨manager, hmanager, hmac⟩ := h _ hmem dimmerMac List.mem_cons_self
  obtain rfl := Option.some.inj hmanager
  revert hmac
  decide

end Gateway
