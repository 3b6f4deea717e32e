import IotGateway.ControlInterface.Lemmas.TopoGen
import IotGateway.Json.Lemmas.Create
import IotGateway.Lib.Preorder

/-!
This module contains what the nested loops over the local list emit: for each manager a walk over what
is below it.
-/

namespace ControlInterface

open NewDb IotError Json Preorder

/--
Commands one after the other, each with its waiting time.
-/
def addStrings (cmds : List (Object × Nat)) (g : TopoGen) : TopoGen :=
  cmds.foldl (fun g cmd => addString cmd.1 cmd.2 g) g

def topoString (manId : Int) (cmd : Object × Nat) : TopoString :=
  { text := cmd.1.message, ackWait := cmd.2, manId }

/--
What has been stored, if no overrun has been reported.
-/
structure Stored (cmds : List (Object × Nat)) (g g' : TopoGen) : Prop where
  before : g.iotError ≠ IOT_ERROR_TOPO_OVERRUN
  topoStrings : g'.topoStrings = g.topoStrings ++ cmds.map (topoString g.manId)
  manId : g'.manId = g.manId
  number : g'.topoStrings.length ≤ max g.topoStrings.length MAX_TOPOSTRINGS
  length : ∀ cmd ∈ cmds, cmd.1.message.length ≤ MAX_JSONLENGTH

theorem addString_stored {cmd : Object × Nat} {g : TopoGen}
    (hok : (addString cmd.1 cmd.2 g).iotError ≠ IOT_ERROR_TOPO_OVERRUN)
    : Stored [cmd] g (addString cmd.1 cmd.2 g) := by
  by_cases hnum : MAX_TOPOSTRINGS ≤ g.topoStrings.length
  . rw [addString, if_pos hnum] at hok
    exact absurd rfl hok
  by_cases hlength : MAX_JSONLENGTH < cmd.1.message.length
  . rw [addString, if_neg hnum, if_pos hlength] at hok
    exact absurd rfl hok
  rw [addString, if_neg hnum, if_neg hlength] at hok ⊢
  constructor
  case before => exact hok
  case topoStrings => rfl
  case manId => rfl
  case number =>
    rw [List.length_append, List.length_singleton]
    omega
  case length =>
    intro _ hmem
    rw [List.mem_singleton.mp hmem]
    exact Nat.not_lt.mp hlength

theorem addStrings_stored (cmds : List (Object × Nat)) {g : TopoGen}
    (hok : (addStrings cmds g).iotError ≠ IOT_ERROR_TOPO_OVERRUN)
    : Stored cmds g (addStrings cmds g) := by
  induction cmds generalizing g with
  | nil => exact ⟨hok, (List.append_nil _).symm, rfl, Nat.le_max_left _ _, nofun⟩
  | cons cmd cmds ih =>
    have hrest : Stored cmds (addString cmd.1 cmd.2 g) (addStrings cmds (addString cmd.1 cmd.2 g)) :=
      ih hok
    have hfirst := addString_stored hrest.before
    constructor
    case before => exact hfirst.before
    case topoStrings =>
      calc
        _ = (addString cmd.1 cmd.2 g).topoStrings
              ++ cmds.map (topoString (addString cmd.1 cmd.2 g).manId) := hrest.topoStrings
        _ = (g.topoStrings ++ [topoString g.manId cmd]) ++ cmds.map (topoString g.manId) := by
          rw [hfirst.topoStrings, hfirst.manId, List.map_singleton]
        _ = _ := by
          rw [List.append_assoc, List.map_cons, List.singleton_append]
    case manId => exact hrest.manId.trans hfirst.manId
    case number =>
      have hnumber := hrest.number
      have hbefore := hfirst.number
      simp only [addStrings, List.foldl_cons] at hnumber ⊢
      omega
    case length =>
      intro c hc
      rcases List.mem_cons.mp hc with rfl | hc
      . exact hfirst.length c (List.mem_singleton_self c)
      . exact hrest.length c hc

theorem addStrings_append (cmds cmds' : List (Object × Nat)) (g : TopoGen)
    : addStrings (cmds ++ cmds') g = addStrings cmds' (addStrings cmds g) :=
  List.foldl_append

section

variable (topodevs : List TopoDev)

def row (i : Fin topodevs.length) : TopoDev := topodevs.get i

def kind (i : Fin topodevs.length) : Int := (row topodevs i).dev

def childrenOfKind (dev par : Int) : List (Fin topodevs.length) :=
  (List.finRange topodevs.length).filter fun i =>
    (row topodevs i).dev = dev ∧ (row topodevs i).par = par

/--
The devices that the loops visit for a device, in this order.
-/
def childrenOf (i : Fin topodevs.length) : List (Fin topodevs.length) :=
  let id := (row topodevs i).id
  if kind topodevs i = DEVICE_DEV_MANAGER then
    childrenOfKind topodevs DEVICE_DEV_UISENSOR id ++ childrenOfKind topodevs DEVICE_DEV_UI id
  else if kind topodevs i = DEVICE_DEV_UISENSOR then
    childrenOfKind topodevs DEVICE_DEV_SENSOR id ++ childrenOfKind topodevs DEVICE_DEV_PUMP id
  else if kind topodevs i = DEVICE_DEV_UI then
    childrenOfKind topodevs DEVICE_DEV_SENSOR id
  else if kind topodevs i = DEVICE_DEV_SENSOR then
    childrenOfKind topodevs DEVICE_DEV_PUMP id
  else
    []

def level (i : Fin topodevs.length) : Nat :=
  if kind topodevs i = DEVICE_DEV_MANAGER then 0
  else if kind topodevs i = DEVICE_DEV_UI ∨ kind topodevs i = DEVICE_DEV_UISENSOR then 1
  else if kind topodevs i = DEVICE_DEV_SENSOR then 2
  else 3

/--
The add commands of some devices.
-/
def addsOf (devs : List (Fin topodevs.length)) : List (Object × Nat) :=
  devs.flatMap fun i => (row topodevs i).adds.map fun add => (add, WAIT_NORMAL)

end

variable {topodevs : List TopoDev}

theorem mem_childrenOfKind {dev par : Int} {i : Fin topodevs.length}
    : i ∈ childrenOfKind topodevs dev par ↔ kind topodevs i = dev ∧ (row topodevs i).par = par := by
  simp only [childrenOfKind, List.mem_filter, List.mem_finRange, true_and, decide_eq_true_eq]
  rfl

theorem nodup_childrenOfKind (dev par : Int) : (childrenOfKind topodevs dev par).Nodup :=
  (List.nodup_finRange _).filter _

/--
Which kinds of devices the loops look for below which.
-/
inductive Link : Int → Int → Prop where
  | managerUiSensor : Link DEVICE_DEV_MANAGER DEVICE_DEV_UISENSOR
  | managerUi : Link DEVICE_DEV_MANAGER DEVICE_DEV_UI
  | uiSensorSensor : Link DEVICE_DEV_UISENSOR DEVICE_DEV_SENSOR
  | uiSensorPump : Link DEVICE_DEV_UISENSOR DEVICE_DEV_PUMP
  | uiSensor : Link DEVICE_DEV_UI DEVICE_DEV_SENSOR
  | sensorPump : Link DEVICE_DEV_SENSOR DEVICE_DEV_PUMP

theorem mem_childrenOf {p i : Fin topodevs.length}
    : i ∈ childrenOf topodevs p
        ↔ Link (kind topodevs p) (kind topodevs i) ∧ (row topodevs i).par = (row topodevs p).id := by
  constructor
  . intro h
    simp only [childrenOf] at h
    split at h
    . next hp =>
      rw [hp]
      rcases List.mem_append.mp h with h | h
      . obtain ⟨hi, hpar⟩ := mem_childrenOfKind.mp h
        exact ⟨hi ▸ .managerUiSensor, hpar⟩
      . obtain ⟨hi, hpar⟩ := mem_childrenOfKind.mp h
        exact ⟨hi ▸ .managerUi, hpar⟩
    split at h
    . next hp =>
      rw [hp]
      rcases List.mem_append.mp h with h | h
      . obtain ⟨hi, hpar⟩ := mem_childrenOfKind.mp h
        exact ⟨hi ▸ .uiSensorSensor, hpar⟩
      . obtain ⟨hi, hpar⟩ := mem_childrenOfKind.mp h
        exact ⟨hi ▸ .uiSensorPump, hpar⟩
    split at h
    . next hp =>
      obtain ⟨hi, hpar⟩ := mem_childrenOfKind.mp h
      rw [hp, hi]
      exact ⟨.uiSensor, hpar⟩
    split at h
    . next hp =>
      obtain ⟨hi, hpar⟩ := mem_childrenOfKind.mp h
      rw [hp, hi]
      exact ⟨.sensorPump, hpar⟩
    . cases h
  . rintro ⟨hlink, hpar⟩
    simp only [childrenOf]
    generalize hp : kind topodevs p = dev at hlink
    generalize hi : kind topodevs i = dev' at hlink
    have hmem := mem_childrenOfKind.mpr ⟨hi, hpar⟩
    cases hlink with
    | managerUiSensor => exact List.mem_append_left _ hmem
    | managerUi => exact List.mem_append_right _ hmem
    | uiSensorSensor => exact List.mem_append_left _ hmem
    | uiSensorPump => exact List.mem_append_right _ hmem
    | uiSensor => exact hmem
    | sensorPump => exact hmem

theorem Link.level_lt {p i : Fin topodevs.length} (h : Link (kind topodevs p) (kind topodevs i))
    : level topodevs p < level topodevs i := by
  unfold level
  generalize kind topodevs p = dev at h ⊢
  generalize kind topodevs i = dev' at h ⊢
  cases h <;> decide

theorem eq_of_id {p p' : Fin topodevs.length} (hids : (topodevs.map TopoDev.id).Nodup)
    (hid : (row topodevs p).id = (row topodevs p').id)
    : p = p' := by
  have hrow : topodevs.get p = topodevs.get p' :=
    List.inj_on_of_nodup_map hids (List.get_mem _ _) (List.get_mem _ _) hid
  exact List.nodup_iff_injective_get.mp (hids.of_map _) hrow

theorem forest (hids : (topodevs.map TopoDev.id).Nodup)
    : IsForest (childrenOf topodevs) (level topodevs) := by
  constructor
  case nodup =>
    intro i
    have hdisjoint (dev dev' par : Int) (hne : dev ≠ dev')
        : (childrenOfKind topodevs dev par ++ childrenOfKind topodevs dev' par).Nodup := by
      rw [List.nodup_append']
      refine ⟨nodup_childrenOfKind dev par, nodup_childrenOfKind dev' par, ?_⟩
      intro j hj hj'
      exact hne ((mem_childrenOfKind.mp hj).1.symm.trans (mem_childrenOfKind.mp hj').1)
    simp only [childrenOf]
    split
    . exact hdisjoint _ _ _ (by decide)
    split
    . exact hdisjoint _ _ _ (by decide)
    split
    . exact nodup_childrenOfKind _ _
    split
    . exact nodup_childrenOfKind _ _
    . exact List.nodup_nil
  case parent =>
    intro i p p' hp hp'
    exact eq_of_id hids ((mem_childrenOf.mp hp).2.symm.trans (mem_childrenOf.mp hp').2)
  case deeper =>
    intro p i hi
    exact (mem_childrenOf.mp hi).1.level_lt

theorem foldl_addStrings {α : Type} (cmds : α → List (Object × Nat)) (l : List α) (g : TopoGen)
    : l.foldl (fun g a => addStrings (cmds a) g) g = addStrings (l.flatMap cmds) g := by
  induction l generalizing g with
  | nil => rfl
  | cons a l ih => rw [List.foldl_cons, ih, List.flatMap_cons, addStrings_append]

/--
A loop over the list is a loop over its indices.
-/
theorem foldl_row {σ : Type} (f : σ → TopoDev → σ) (s : σ)
    : topodevs.foldl f s
        = (List.finRange topodevs.length).foldl (fun s i => f s (row topodevs i)) s := by
  conv => lhs; rw [← List.map_get_finRange topodevs]
  rw [List.foldl_map]
  rfl

/--
A loop in which each device is handled by commands is these commands one after the other.
-/
theorem topoLoop_eq {dev par : Int} {handle : TopoDev → TopoGen → TopoGen}
    (cmds : Fin topodevs.length → List (Object × Nat))
    (hhandle : ∀ i, kind topodevs i = dev → ∀ g, handle (row topodevs i) g = addStrings (cmds i) g)
    (g : TopoGen)
    : topoLoop topodevs dev par handle g
        = addStrings ((childrenOfKind topodevs dev par).flatMap cmds) g := by
  have hloop : topoLoop topodevs dev par handle g
      = (childrenOfKind topodevs dev par).foldl (fun g i => handle (row topodevs i) g) g := by
    rw [topoLoop, childrenOfKind, foldl_row, List.foldl_filter]
    simp only [decide_eq_true_eq]
  rw [hloop, ← foldl_addStrings]
  apply List.foldl_ext
  intro g i hi
  exact hhandle i (mem_childrenOfKind.mp hi).1 g

theorem addsOf_flatMap {α : Type} (devs : α → List (Fin topodevs.length)) (l : List α)
    : addsOf topodevs (l.flatMap devs) = l.flatMap fun a => addsOf topodevs (devs a) :=
  List.flatMap_assoc

theorem addsOf_cons (i : Fin topodevs.length) (devs : List (Fin topodevs.length))
    : addsOf topodevs (i :: devs)
        = (row topodevs i).adds.map (fun add => (add, WAIT_NORMAL)) ++ addsOf topodevs devs :=
  List.flatMap_cons

theorem addsOf_append (devs devs' : List (Fin topodevs.length))
    : addsOf topodevs (devs ++ devs') = addsOf topodevs devs ++ addsOf topodevs devs' :=
  List.flatMap_append

/--
What the loops below a device emit, down to the depth `n`.
-/
def below (n : Nat) (children : List (Fin topodevs.length)) : List (Object × Nat) :=
  addsOf topodevs (children.flatMap (walk (childrenOf topodevs) n))

theorem below_append (n : Nat) (children children' : List (Fin topodevs.length))
    : below n (children ++ children') = below n children ++ below n children' := by
  simp only [below, List.flatMap_append, addsOf_append]

theorem addsOf_walk_succ (n : Nat) (i : Fin topodevs.length)
    : addsOf topodevs (walk (childrenOf topodevs) (n + 1) i)
        = (row topodevs i).adds.map (fun add => (add, WAIT_NORMAL))
          ++ below n (childrenOf topodevs i) := by
  rw [walk, addsOf_cons, below]

theorem topoLoopPump_eq (n : Nat) (par : Int) (g : TopoGen)
    : topoLoopPump topodevs par g
        = addStrings (below n (childrenOfKind topodevs DEVICE_DEV_PUMP par)) g := by
  rw [below, addsOf_flatMap]
  apply topoLoop_eq
  intro i hi g
  have hadds : (row topodevs i).adds
      = [jsonTopoAddPump (row topodevs i).mac (some (row topodevs i).nm) (row topodevs i).sid] := by
    simp only [kind] at hi
    simp [TopoDev.adds, hi, DEVICE_DEV_PUMP, DEVICE_DEV_UI, DEVICE_DEV_UISENSOR, DEVICE_DEV_SENSOR]
  have hleaf : childrenOf topodevs i = [] := by
    simp [childrenOf, hi, DEVICE_DEV_PUMP, DEVICE_DEV_UI, DEVICE_DEV_UISENSOR, DEVICE_DEV_SENSOR,
      DEVICE_DEV_MANAGER]
  cases n with
  | zero => rw [walk, addsOf_cons, hadds]; rfl
  | succ n => rw [addsOf_walk_succ, hadds, hleaf]; rfl

theorem topoLoopSensor_eq (n : Nat) (par : Int) (g : TopoGen)
    : topoLoopSensor topodevs par g
        = addStrings (below (n + 1) (childrenOfKind topodevs DEVICE_DEV_SENSOR par)) g := by
  rw [below, addsOf_flatMap]
  apply topoLoop_eq
  intro i hi g
  have hadds : (row topodevs i).adds
      = [jsonTopoAddSensor (row topodevs i).mac (some (row topodevs i).nm)] := by
    simp only [kind] at hi
    simp [TopoDev.adds, hi, DEVICE_DEV_UI, DEVICE_DEV_UISENSOR, DEVICE_DEV_SENSOR]
  have hchildren : childrenOf topodevs i
      = childrenOfKind topodevs DEVICE_DEV_PUMP (row topodevs i).id := by
    simp [childrenOf, hi, DEVICE_DEV_UI, DEVICE_DEV_UISENSOR, DEVICE_DEV_SENSOR, DEVICE_DEV_MANAGER]
  rw [addsOf_walk_succ, hadds, hchildren, addStrings_append]
  exact topoLoopPump_eq n _ _

theorem topoLoopUiSensor_eq (n : Nat) (par : Int) (g : TopoGen)
    : topoLoopUiSensor topodevs par g
        = addStrings (below (n + 2) (childrenOfKind topodevs DEVICE_DEV_UISENSOR par)) g := by
  rw [below, addsOf_flatMap]
  apply topoLoop_eq
  intro i hi g
  have hadds : (row topodevs i).adds
      = [jsonTopoAddUI (row topodevs i).mac (some (row topodevs i).nm),
        jsonTopoAddSensor (row topodevs i).mac (some (row topodevs i).nm)] := by
    simp only [kind] at hi
    simp [TopoDev.adds, hi, DEVICE_DEV_UI, DEVICE_DEV_UISENSOR]
  have hchildren : childrenOf topodevs i
      = childrenOfKind topodevs DEVICE_DEV_SENSOR (row topodevs i).id
        ++ childrenOfKind topodevs DEVICE_DEV_PUMP (row topodevs i).id := by
    simp [childrenOf, hi, DEVICE_DEV_UISENSOR, DEVICE_DEV_MANAGER]
  rw [addsOf_walk_succ, hadds, hchildren, below_append, addStrings_append, addStrings_append,
    ← topoLoopSensor_eq, ← topoLoopPump_eq]
  rfl

theorem topoLoopUi_eq (n : Nat) (par : Int) (g : TopoGen)
    : topoLoopUi topodevs par g
        = addStrings (below (n + 2) (childrenOfKind topodevs DEVICE_DEV_UI par)) g := by
  rw [below, addsOf_flatMap]
  apply topoLoop_eq
  intro i hi g
  have hadds : (row topodevs i).adds
      = [jsonTopoAddUI (row topodevs i).mac (some (row topodevs i).nm)] := by
    simp only [kind] at hi
    simp [TopoDev.adds, hi, DEVICE_DEV_UI]
  have hchildren : childrenOf topodevs i
      = childrenOfKind topodevs DEVICE_DEV_SENSOR (row topodevs i).id := by
    simp [childrenOf, hi, DEVICE_DEV_UI, DEVICE_DEV_UISENSOR, DEVICE_DEV_MANAGER]
  rw [addsOf_walk_succ, hadds, hchildren, addStrings_append, ← topoLoopSensor_eq]
  rfl

def managers (topodevs : List TopoDev) : List (Fin topodevs.length) :=
  (List.finRange topodevs.length).filter fun i => kind topodevs i = DEVICE_DEV_MANAGER

theorem mem_managers {man : Fin topodevs.length}
    : man ∈ managers topodevs ↔ kind topodevs man = DEVICE_DEV_MANAGER := by
  simp only [managers, List.mem_filter, List.mem_finRange, true_and, decide_eq_true_eq]

/--
A UI or UI-sensor of the manager, a sensor of one of these, or a pump of a sensor or UI-sensor.
-/
inductive UnderManager (topodevs : List TopoDev) (man : Fin topodevs.length)
    : Fin topodevs.length → Prop where
  | ui {i} (h : kind topodevs i = DEVICE_DEV_UI ∨ kind topodevs i = DEVICE_DEV_UISENSOR)
      (hpar : (row topodevs i).par = (row topodevs man).id) : UnderManager topodevs man i
  | sensor {p i} (hp : UnderManager topodevs man p)
      (hkind : kind topodevs p = DEVICE_DEV_UI ∨ kind topodevs p = DEVICE_DEV_UISENSOR)
      (h : kind topodevs i = DEVICE_DEV_SENSOR)
      (hpar : (row topodevs i).par = (row topodevs p).id) : UnderManager topodevs man i
  | pump {p i} (hp : UnderManager topodevs man p)
      (hkind : kind topodevs p = DEVICE_DEV_SENSOR ∨ kind topodevs p = DEVICE_DEV_UISENSOR)
      (h : kind topodevs i = DEVICE_DEV_PUMP)
      (hpar : (row topodevs i).par = (row topodevs p).id) : UnderManager topodevs man i

namespace UnderManager

variable {man p i : Fin topodevs.length}

theorem of_child (hman : kind topodevs man = DEVICE_DEV_MANAGER) (h : i ∈ childrenOf topodevs man)
    : UnderManager topodevs man i := by
  obtain ⟨hlink, hpar⟩ := mem_childrenOf.mp h
  rw [hman] at hlink
  generalize hi : kind topodevs i = dev at hlink
  cases hlink with
  | managerUiSensor => exact .ui (.inr hi) hpar
  | managerUi => exact .ui (.inl hi) hpar

theorem not_manager (h : UnderManager topodevs man i) : kind topodevs i ≠ DEVICE_DEV_MANAGER := by
  intro hmanager
  cases h with
  | ui h => rw [hmanager] at h; exact absurd h (by decide)
  | sensor _ _ h => rw [hmanager] at h; exact absurd h (by decide)
  | pump _ _ h => rw [hmanager] at h; exact absurd h (by decide)

theorem child (hp : UnderManager topodevs man p) (h : i ∈ childrenOf topodevs p)
    : UnderManager topodevs man i := by
  obtain ⟨hlink, hpar⟩ := mem_childrenOf.mp h
  generalize hkind : kind topodevs p = dev at hlink
  generalize hi : kind topodevs i = dev' at hlink
  cases hlink with
  | managerUiSensor => exact absurd hkind hp.not_manager
  | managerUi => exact absurd hkind hp.not_manager
  | uiSensorSensor => exact .sensor hp (.inr hkind) hi hpar
  | uiSensorPump => exact .pump hp (.inr hkind) hi hpar
  | uiSensor => exact .sensor hp (.inl hkind) hi hpar
  | sensorPump => exact .pump hp (.inl hkind) hi hpar

theorem mem_of_ui (hman : kind topodevs man = DEVICE_DEV_MANAGER)
    (h : kind topodevs i = DEVICE_DEV_UI ∨ kind topodevs i = DEVICE_DEV_UISENSOR)
    (hpar : (row topodevs i).par = (row topodevs man).id)
    : i ∈ childrenOf topodevs man := by
  refine mem_childrenOf.mpr ⟨?_, hpar⟩
  cases h with
  | inl h => rw [hman, h]; exact .managerUi
  | inr h => rw [hman, h]; exact .managerUiSensor

theorem mem_of_sensor
    (hkind : kind topodevs p = DEVICE_DEV_UI ∨ kind topodevs p = DEVICE_DEV_UISENSOR)
    (h : kind topodevs i = DEVICE_DEV_SENSOR) (hpar : (row topodevs i).par = (row topodevs p).id)
    : i ∈ childrenOf topodevs p := by
  refine mem_childrenOf.mpr ⟨?_, hpar⟩
  cases hkind with
  | inl hkind => rw [hkind, h]; exact .uiSensor
  | inr hkind => rw [hkind, h]; exact .uiSensorSensor

theorem mem_of_pump
    (hkind : kind topodevs p = DEVICE_DEV_SENSOR ∨ kind topodevs p = DEVICE_DEV_UISENSOR)
    (h : kind topodevs i = DEVICE_DEV_PUMP) (hpar : (row topodevs i).par = (row topodevs p).id)
    : i ∈ childrenOf topodevs p := by
  refine mem_childrenOf.mpr ⟨?_, hpar⟩
  cases hkind with
  | inl hkind => rw [hkind, h]; exact .sensorPump
  | inr hkind => rw [hkind, h]; exact .uiSensorPump

theorem parent (hman : kind topodevs man = DEVICE_DEV_MANAGER) (h : UnderManager topodevs man i)
    : ∃ p, i ∈ childrenOf topodevs p := by
  cases h with
  | ui h hpar => exact ⟨man, mem_of_ui hman h hpar⟩
  | sensor _ hkind h hpar => exact ⟨_, mem_of_sensor hkind h hpar⟩
  | pump _ hkind h hpar => exact ⟨_, mem_of_pump hkind h hpar⟩

open Relation

theorem reached (hman : kind topodevs man = DEVICE_DEV_MANAGER) (h : UnderManager topodevs man i)
    : ∃ c ∈ childrenOf topodevs man,
        ReflTransGen (Preorder.ChildOf (childrenOf topodevs)) c i := by
  induction h with
  | ui h hpar => exact ⟨_, mem_of_ui hman h hpar, .refl⟩
  | sensor _ hkind h hpar ih =>
    obtain ⟨c, hc, hreached⟩ := ih
    exact ⟨c, hc, hreached.tail (mem_of_sensor hkind h hpar)⟩
  | pump _ hkind h hpar ih =>
    obtain ⟨c, hc, hreached⟩ := ih
    exact ⟨c, hc, hreached.tail (mem_of_pump hkind h hpar)⟩

theorem of_reached (h : UnderManager topodevs man p)
    (hreached : ReflTransGen (Preorder.ChildOf (childrenOf topodevs)) p i)
    : UnderManager topodevs man i := by
  induction hreached with
  | refl => exact h
  | tail _ hchild ih => exact ih.child hchild

end UnderManager

theorem level_le (i : Fin topodevs.length) : level topodevs i ≤ 3 := by
  unfold level
  split
  . omega
  split
  . omega
  split
  . omega
  . omega

theorem mem_walks {man j : Fin topodevs.length} (hids : (topodevs.map TopoDev.id).Nodup)
    (hman : kind topodevs man = DEVICE_DEV_MANAGER)
    : j ∈ (childrenOf topodevs man).flatMap (walk (childrenOf topodevs) 2)
        ↔ UnderManager topodevs man j := by
  rw [List.mem_flatMap]
  constructor
  . rintro ⟨c, hc, hj⟩
    exact (UnderManager.of_child hman hc).of_reached (below_of_mem hj)
  . intro h
    obtain ⟨c, hc, hreached⟩ := h.reached hman
    refine ⟨c, hc, (forest hids).mem_walk_of_below hreached ?_⟩
    have hdeeper := (forest hids).deeper man c hc
    have hle := level_le j
    omega

/--
The commands of a manager after the first two, each with its device.
-/
def entriesOf (man : Fin topodevs.length) : List (Fin topodevs.length × Object) :=
  ((childrenOf topodevs man).flatMap (walk (childrenOf topodevs) 2)).flatMap fun i =>
    (row topodevs i).adds.map fun add => (i, add)

def blockOf (man : Fin topodevs.length) : List (Object × Nat) :=
  [(jsonTunnelOpen (row topodevs man).mac, WAIT_NONE), (jsonTopoClear, WAIT_LONG)]
    ++ below 2 (childrenOf topodevs man)

theorem blockOf_map (man : Fin topodevs.length)
    : (blockOf man).map Prod.fst
        = jsonTunnelOpen (row topodevs man).mac :: jsonTopoClear :: (entriesOf man).map Prod.snd := by
  simp only [blockOf, below, addsOf, entriesOf, List.map_flatMap, List.map_map,
    Function.comp_def, List.map_cons, List.cons_append, List.nil_append]

theorem par_ne {man i j : Fin topodevs.length} (hids : (topodevs.map TopoDev.id).Nodup)
    (hman : kind topodevs man = DEVICE_DEV_MANAGER) (hi : UnderManager topodevs man i)
    (hij : i ∉ childrenOf topodevs j)
    : (row topodevs i).par ≠ (row topodevs j).id := by
  intro hpar
  obtain ⟨p, hp⟩ := hi.parent hman
  have hid : (row topodevs p).id = (row topodevs j).id := (mem_childrenOf.mp hp).2.symm.trans hpar
  rw [eq_of_id hids hid] at hp
  exact hij hp

theorem entriesOf_declares {man : Fin topodevs.length} (hids : (topodevs.map TopoDev.id).Nodup)
    (hman : kind topodevs man = DEVICE_DEV_MANAGER)
    : Declares (row topodevs) (UnderManager topodevs man) (entriesOf man) := by
  constructor
  case complete =>
    refine ⟨_, ?_, fun i => mem_walks hids hman, .refl _⟩
    exact (List.nodup_cons.mp ((forest hids).nodup_walk 3 man)).2
  case parentsFirst =>
    have hwalk := (List.pairwise_cons.mp ((forest hids).pairwise_walk 3 man)).2
    rw [entriesOf, List.pairwise_flatMap]
    constructor
    . intro i hi
      have hself : i ∉ childrenOf topodevs i := by
        intro h
        exact Nat.lt_irrefl _ ((forest hids).deeper i i h)
      rw [List.pairwise_map]
      exact List.pairwise_of_forall fun _ _ => par_ne hids hman ((mem_walks hids hman).mp hi) hself
    . apply hwalk.imp_of_mem
      intro i j hi _ hij e he e' he'
      obtain ⟨add, -, rfl⟩ := List.mem_map.mp he
      obtain ⟨add', -, rfl⟩ := List.mem_map.mp he'
      exact par_ne hids hman ((mem_walks hids hman).mp hi) hij

theorem blockOf_managerBlock {man : Fin topodevs.length} (hids : (topodevs.map TopoDev.id).Nodup)
    (hman : kind topodevs man = DEVICE_DEV_MANAGER)
    : ManagerBlock (row topodevs) (UnderManager topodevs man) man ((blockOf man).map Prod.fst) :=
  ⟨entriesOf man, entriesOf_declares hids hman, blockOf_map man⟩

/--
A manager in the loop over the managers.
-/
def manBlock (g : TopoGen) (man : Fin topodevs.length) : TopoGen :=
  addStrings (blockOf man) { g with manId := (row topodevs man).id }

theorem topoLoopMan_eq (g : TopoGen)
    : topoLoopMan topodevs g = (managers topodevs).foldl manBlock g := by
  rw [topoLoopMan, managers, foldl_row, List.foldl_filter]
  apply List.foldl_ext
  intro g man _
  simp only [decide_eq_true_eq]
  by_cases hman : kind topodevs man = DEVICE_DEV_MANAGER
  . have hchildren : childrenOf topodevs man
        = childrenOfKind topodevs DEVICE_DEV_UISENSOR (row topodevs man).id
          ++ childrenOfKind topodevs DEVICE_DEV_UI (row topodevs man).id := by
      simp only [childrenOf, if_pos hman]
    rw [if_pos hman, manBlock, blockOf, hchildren, below_append, addStrings_append,
      addStrings_append, ← topoLoopUiSensor_eq 0, ← topoLoopUi_eq 0]
    exact if_pos hman
  . rw [if_neg hman]
    exact if_neg hman

/--
What the loop over some managers has stored, if no overrun has been reported.
-/
structure StoredBlocks (mans : List (Fin topodevs.length)) (g g' : TopoGen) : Prop where
  before : g.iotError ≠ IOT_ERROR_TOPO_OVERRUN
  topoStrings : g'.topoStrings
    = g.topoStrings ++ mans.flatMap fun man => (blockOf man).map (topoString (row topodevs man).id)
  number : g'.topoStrings.length ≤ max g.topoStrings.length MAX_TOPOSTRINGS
  length : ∀ man ∈ mans, ∀ cmd ∈ blockOf man, cmd.1.message.length ≤ MAX_JSONLENGTH

theorem manBlocks_stored (mans : List (Fin topodevs.length)) {g : TopoGen}
    (hok : (mans.foldl manBlock g).iotError ≠ IOT_ERROR_TOPO_OVERRUN)
    : StoredBlocks mans g (mans.foldl manBlock g) := by
  induction mans generalizing g with
  | nil => exact ⟨hok, (List.append_nil _).symm, Nat.le_max_left _ _, nofun⟩
  | cons man mans ih =>
    rw [List.foldl_cons] at hok ⊢
    have hrest := ih hok
    have hfirst : Stored (blockOf man) { g with manId := (row topodevs man).id } (manBlock g man) :=
      addStrings_stored _ hrest.before
    constructor
    case before => exact hfirst.before
    case topoStrings =>
      rw [hrest.topoStrings, hfirst.topoStrings, List.append_assoc, List.flatMap_cons]
    case number =>
      have hnumber := hrest.number
      have hblock := hfirst.number
      simp only at hblock
      omega
    case length =>
      intro m hm
      rcases List.mem_cons.mp hm with rfl | hm
      . exact hfirst.length
      . exact hrest.length m hm

/--
The strings fit in `mac[20]` and `nm[20]`.
-/
def TopoDev.Fits (d : TopoDev) : Prop := d.mac.toList.length < 20 ∧ d.nm.toList.length < 20

theorem jsonTopoAddDevice_whole {device mac name : String} {sid : Int32}
    (hdevice : device.toList.length ≤ 3) (hmac : mac.toList.length < 20)
    (hname : name.toList.length < 20)
    : (jsonTopoAddDevice device mac (some name) none sid).text.length < MAXJSONMESSAGE := by
  have hsid : (Arg.int sid).text.length ≤ 11 := length_decimal_le sid
  have hmembers :=
    length_membersText_le (jsonTopoAddDevice device mac (some name) none sid).members
  have hnm : "nm".toList.length = 2 := by decide
  have hsidName : "sid".toList.length = 3 := by decide
  have htp : "tp+".toList.length = 3 := by decide
  rw [length_text]
  by_cases h : 0 < sid
  . simp only [jsonTopoAddDevice, ifString, ifInt, h, decide_true, if_true, string, int,
      List.map_append, List.map_cons, List.map_nil, List.sum_append, List.sum_cons, List.sum_nil,
      length_memberText, length_stringText, MAXJSONMESSAGE] at *
    omega
  . simp only [jsonTopoAddDevice, ifString, ifInt, h, decide_false, Bool.false_eq_true, if_false, string,
      List.map_append, List.map_cons, List.map_nil, List.sum_append, List.sum_cons, List.sum_nil,
      length_memberText, length_stringText, MAXJSONMESSAGE] at *
    omega
theorem adds_whole {d : TopoDev} (hfits : d.Fits) {add : Object} (hadd : add ∈ d.adds)
    : add.message = add.text := by
  have hdevice (device : String) (sid : Int32) (h : device.toList.length ≤ 3)
      : (jsonTopoAddDevice device d.mac (some d.nm) none sid).message
          = (jsonTopoAddDevice device d.mac (some d.nm) none sid).text :=
    message_eq (jsonTopoAddDevice_whole h hfits.1 hfits.2)
  unfold TopoDev.adds at hadd
  split at hadd
  . rw [List.mem_singleton.mp hadd]
    exact hdevice "ui" 0 (by decide)
  split at hadd
  . rcases List.mem_pair.mp hadd with rfl | rfl
    . exact hdevice "ui" 0 (by decide)
    . exact hdevice "sen" 0 (by decide)
  split at hadd
  . rw [List.mem_singleton.mp hadd]
    exact hdevice "sen" 0 (by decide)
  split at hadd
  . rw [List.mem_singleton.mp hadd]
    exact hdevice "pmp" d.sid (by decide)
  . cases hadd

theorem blockOf_whole (hfits : ∀ d ∈ topodevs, d.Fits) (man : Fin topodevs.length)
    : ∀ cmd ∈ blockOf man, cmd.1.message = cmd.1.text := by
  intro cmd hcmd
  rcases List.mem_append.mp hcmd with hcmd | hcmd
  . rcases List.mem_pair.mp hcmd with rfl | rfl
    . apply message_eq
      have hmac := (hfits (row topodevs man) (List.get_mem _ _)).1
      have hopen : "open".toList.length = 4 := by decide
      have htunnel : "tunnel".toList.length = 6 := by decide
      rw [length_text]
      simp only [jsonTunnelOpen, string, membersText, length_memberText, length_stringText,
        MAXJSONMESSAGE]
      omega
    . exact message_eq (by decide)
  . obtain ⟨i, -, hi⟩ := List.mem_flatMap.mp hcmd
    obtain ⟨add, hadd, rfl⟩ := List.mem_map.mp hi
    exact adds_whole (hfits _ (List.get_mem _ _)) hadd

/--
The blocks of the managers one after the other, each command with the id of its manager. Every text
fits in its row, and is whole if the strings of the local list are.
-/
theorem topoLoopMan_spec (g : TopoGen) (hids : (topodevs.map TopoDev.id).Nodup)
    (hok : (topoLoopMan topodevs { g with topoStrings := [] }).iotError ≠ IOT_ERROR_TOPO_OVERRUN)
    : let stored := (topoLoopMan topodevs { g with topoStrings := [] }).topoStrings
      ∃ block : Fin topodevs.length → List Object,
        (∀ man ∈ managers topodevs,
          ManagerBlock (row topodevs) (UnderManager topodevs man) man (block man))
        ∧ stored.map (fun string => (string.text, string.manId))
            = (managers topodevs).flatMap (fun man =>
                (block man).map fun cmd => (cmd.message, (row topodevs man).id))
        ∧ stored.length ≤ MAX_TOPOSTRINGS
        ∧ (∀ string ∈ stored, string.text.length + 1 ≤ MAX_JSONLENGTH + 2)
        ∧ ((∀ d ∈ topodevs, d.Fits) →
            ∀ man ∈ managers topodevs, ∀ cmd ∈ block man, cmd.message = cmd.text) := by
  intro stored
  rw [topoLoopMan_eq] at hok
  have hblocks := manBlocks_stored (managers topodevs) hok
  have hstored : stored = (managers topodevs).flatMap fun man =>
      (blockOf man).map (topoString (row topodevs man).id) := by
    simp only [stored]
    rw [topoLoopMan_eq, hblocks.topoStrings, List.nil_append]
  refine ⟨fun man => (blockOf man).map Prod.fst, ?_, ?_, ?_, ?_, ?_⟩
  . intro man hman
    exact blockOf_managerBlock hids (mem_managers.mp hman)
  . simp only [hstored, List.map_flatMap, List.map_map]
    rfl
  . have hnumber := hblocks.number
    rw [← topoLoopMan_eq] at hnumber
    exact Nat.le_trans hnumber (Nat.max_le.mpr ⟨Nat.zero_le _, Nat.le_refl _⟩)
  . intro string hstring
    rw [hstored] at hstring
    obtain ⟨man, hman, hstring⟩ := List.mem_flatMap.mp hstring
    obtain ⟨cmd, hcmd, rfl⟩ := List.mem_map.mp hstring
    have hlength := hblocks.length man hman cmd hcmd
    simp only [topoString]
    omega
  . intro hfits man _ cmd hcmd
    obtain ⟨c, hc, rfl⟩ := List.mem_map.mp hcmd
    exact blockOf_whole hfits man c hc

/--
Two managers, of which the first one has a UI with a sensor, and a UI-sensor with a pump.
-/
def house : List TopoDev := [
  { id := 1, dev := DEVICE_DEV_MANAGER, par := -1, mac := "00158D000035AB10", nm := "Boiler" },
  { id := 2, dev := DEVICE_DEV_PUMP, par := 5, sid := 3, mac := "00158D000035AB14", nm := "Pump" },
  { id := 3, dev := DEVICE_DEV_UI, par := 1, mac := "00158D000035AB11", nm := "Hall" },
  { id := 4, dev := DEVICE_DEV_SENSOR, par := 3, mac := "00158D000035AB12", nm := "Attic" },
  { id := 5, dev := DEVICE_DEV_UISENSOR, par := 1, mac := "00158D000035AB13", nm := "Room" },
  { id := 6, dev := DEVICE_DEV_MANAGER, par := -1, mac := "00158D000035AB20", nm := "Spare" }]

theorem topoLoopMan_house
    : let stored := (topoLoopMan house { }).topoStrings
      stored.length = 9 ∧ ∃ block : Fin house.length → List Object,
        (∀ man ∈ managers house,
          ManagerBlock (row house) (UnderManager house man) man (block man))
        ∧ stored.map (fun string => (string.text, string.manId))
            = (managers house).flatMap fun man =>
                (block man).map fun cmd => (cmd.message, (row house man).id) := by
  refine ⟨by decide, ?_⟩
  have hids : (house.map TopoDev.id).Nodup := by decide
  obtain ⟨block, hblock, hstored, -⟩ := topoLoopMan_spec { } hids (by decide)
  exact ⟨block, hblock, hstored⟩

end ControlInterface
