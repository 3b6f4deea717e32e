import IotGateway.ControlInterface.Impl.TopoGen
import IotGateway.Lib.Machine
import Mathlib.Data.Fintype.Defs

/-!
This module says what a list of topology commands has to contain, and for which tables `topoGenerate`
writes such a list.
-/

namespace ControlInterface

open NewDb IotError Json Machine

/--
The add commands of a device.
-/
def TopoDev.adds (d : TopoDev) : List Object :=
  if d.dev = DEVICE_DEV_UI then
    [jsonTopoAddUI d.mac (some d.nm)]
  else if d.dev = DEVICE_DEV_UISENSOR then
    [jsonTopoAddUI d.mac (some d.nm), jsonTopoAddSensor d.mac (some d.nm)]
  else if d.dev = DEVICE_DEV_SENSOR then
    [jsonTopoAddSensor d.mac (some d.nm)]
  else if d.dev = DEVICE_DEV_PUMP then
    [jsonTopoAddPump d.mac (some d.nm) d.sid]
  else
    []

section

variable {ι : Type} (row : ι → TopoDev)

/--
The add commands, each with its device, of all devices that are `below`.
-/
structure Declares (below : ι → Prop) (entries : List (ι × Object)) : Prop where
  complete : ∃ devs : List ι, devs.Nodup ∧ (∀ i, i ∈ devs ↔ below i)
    ∧ entries.Perm (devs.flatMap fun i => (row i).adds.map fun add => (i, add))
  parentsFirst : entries.Pairwise fun e e' => (row e.1).par ≠ (row e'.1).id

/--
What stands from the tunnel-open of a manager to before the next one.
-/
def ManagerBlock (below : ι → Prop) (man : ι) (cmds : List Object) : Prop :=
  ∃ entries : List (ι × Object), Declares row below entries
    ∧ cmds = jsonTunnelOpen (row man).mac :: jsonTopoClear :: entries.map Prod.snd

/--
One block for each manager and, if there is one, the end markers.
-/
def Describes (manager : ι → Prop) (below : ι → ι → Prop) (texts : List (List Char)) : Prop :=
  ∃ (mans : List ι) (block : ι → List Object), mans.Nodup ∧ (∀ i, i ∈ mans ↔ manager i)
    ∧ (∀ man ∈ mans, ManagerBlock row (below man) man (block man))
    ∧ texts = (mans.flatMap block
        ++ if mans = [] then [] else [jsonTopoEnd, jsonTunnelClose]).map Object.message

variable {row}

theorem describes_nil_iff {manager : ι → Prop} {below : ι → ι → Prop}
    : Describes row manager below [] ↔ ∀ i, ¬manager i := by
  constructor
  . rintro ⟨mans, block, -, hmans, -, htexts⟩ i hi
    have hne : mans ≠ [] := List.ne_nil_of_mem ((hmans i).mpr hi)
    rw [if_neg hne] at htexts
    have hlength := congrArg List.length htexts
    simp only [List.map_append, List.length_append, List.length_map, List.length_nil,
      List.length_cons] at hlength
    omega
  . intro h
    refine ⟨[], fun _ => [], List.nodup_nil, ?_, ?_, rfl⟩
    . simp [h]
    . simp

end

section

variable (devices : Fin NEWDB_MAX_DEVICES → Device)

def Manager (i : Fin NEWDB_MAX_DEVICES) : Prop :=
  (devices i).mac ≠ "" ∧ (devices i).dev = DEVICE_DEV_MANAGER

instance decidableManager : DecidablePred (Manager devices) :=
  fun _ => inferInstanceAs (Decidable (_ ∧ _))

/--
The other kinds of devices have no parent, whatever their column `par` says.
-/
def HasParent (dev : Int) : Prop :=
  dev = DEVICE_DEV_UI ∨ dev = DEVICE_DEV_UISENSOR ∨ dev = DEVICE_DEV_SENSOR ∨ dev = DEVICE_DEV_PUMP

/--
Both rows are live and `p` is the parent of `i`.
-/
def ChildOf (p i : Fin NEWDB_MAX_DEVICES) : Prop :=
  (devices p).mac ≠ "" ∧ (devices i).mac ≠ "" ∧ HasParent (devices i).dev
    ∧ (devices i).par = (devices p).id

/--
The device is reached over any number of parents.
-/
def Below : Fin NEWDB_MAX_DEVICES → Fin NEWDB_MAX_DEVICES → Prop :=
  Relation.TransGen (ChildOf devices)

def Acyclic : Prop := ∀ i, ¬Below devices i i

def DescribesTable (texts : List (List Char)) : Prop :=
  Describes (fun i => topoDev (devices i)) (Manager devices) (Below devices) texts

end

theorem topoGenerate_of_nil (g : TopoGen)
    : topoGenerate [] g = { g with
        topoStrings := []
        iotError := if g.iotError = IOT_ERROR_TOPO_OVERRUN then IOT_ERROR_NONE else g.iotError } := by
  by_cases h : g.iotError = IOT_ERROR_TOPO_OVERRUN
  . simp [topoGenerate, topoLoopMan, h]
  . simp [topoGenerate, topoLoopMan, h]

theorem exec_topoCall (s : TopoStatics) (calls : List TopoCall)
    : (exec topoCall s calls).topodevs = s.topodevs := by
  induction calls generalizing s with
  | nil => rfl
  | cons call calls ih =>
    rw [exec_cons, ih]
    rfl

/--
Whatever has been generated before, a list of commands for a table is right exactly if the table has
no manager.
-/
theorem topoGenerate_describes_iff (calls : List TopoCall) (call : TopoCall)
    : (let s := (topoCall (exec topoCall {} calls) call).1
      s.gen.iotError ≠ IOT_ERROR_TOPO_OVERRUN
        → DescribesTable call.devices (s.gen.topoStrings.map (·.text)))
      ↔ ∀ i, ¬Manager call.devices i := by
  have hgen : (topoCall (exec topoCall {} calls) call).1.gen
      = topoGenerate [] { (exec topoCall {} calls).gen with iotError := call.iotError } := by
    simp only [topoCall, exec_topoCall]
  have herror : (topoCall (exec topoCall {} calls) call).1.gen.iotError
      ≠ IOT_ERROR_TOPO_OVERRUN := by
    rw [hgen, topoGenerate_of_nil]
    by_cases h : call.iotError = IOT_ERROR_TOPO_OVERRUN
    . simp only [h, if_pos]
      decide
    . simp only [h, if_false]
      exact h
  have htexts : (topoCall (exec topoCall {} calls) call).1.gen.topoStrings = [] := by
    rw [hgen, topoGenerate_of_nil]
  simp only [htexts, List.map_nil, DescribesTable, describes_nil_iff]
  constructor
  . intro h
    exact h herror
  . intro h _
    exact h

/--
A table with one manager and one UI below it.
-/
def boilerTable (i : Fin NEWDB_MAX_DEVICES) : Device :=
  if i = 0 then
    { id := 0, mac := "00158D000035AB10", dev := DEVICE_DEV_MANAGER, nm := "Boiler" }
  else if i = 1 then
    { id := 1, mac := "00158D000035AB11", dev := DEVICE_DEV_UI, par := 0, nm := "Hall" }
  else
    { id := i }

theorem childOf_boilerTable {p i : Fin NEWDB_MAX_DEVICES} (h : ChildOf boilerTable p i)
    : p = 0 ∧ i = 1 := by
  obtain ⟨hp, hi, hkind, hpar⟩ := h
  have hkinds : ∀ j, HasParent (boilerTable j).dev → j = 1 := by
    unfold HasParent
    decide
  obtain rfl := hkinds i hkind
  have hids : ∀ j, (boilerTable 1).par = (boilerTable j).id → j = 0 := by decide
  exact ⟨hids p hpar, rfl⟩

theorem below_boilerTable {p i : Fin NEWDB_MAX_DEVICES} (h : Below boilerTable p i)
    : p = 0 ∧ i = 1 := by
  induction h with
  | single h => exact childOf_boilerTable h
  | tail _ h ih => exact ⟨ih.1, (childOf_boilerTable h).2⟩

theorem acyclic_boilerTable : Acyclic boilerTable := by
  intro i h
  obtain ⟨rfl, hi⟩ := below_boilerTable h
  cases hi

theorem boilerTable_not_described
    : Acyclic boilerTable
        ∧ (topoCall {} { devices := boilerTable, iotError := IOT_ERROR_NONE }).1.gen.iotError
          ≠ IOT_ERROR_TOPO_OVERRUN
        ∧ ¬DescribesTable boilerTable
          ((topoCall {} { devices := boilerTable, iotError := IOT_ERROR_NONE }).1.gen.topoStrings.map
            (·.text)) := by
  refine ⟨acyclic_boilerTable, by decide, ?_⟩
  rw [DescribesTable, show (topoCall {} ⟨boilerTable, IOT_ERROR_NONE⟩).1.gen.topoStrings = [] from rfl,
    List.map_nil, describes_nil_iff]
  intro h
  exact h 0 (by decide)

end ControlInterface
