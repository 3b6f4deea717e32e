import Mathlib.Algebra.Ring.Nat
import IotGateway.Lib.Table

/-!
This module contains the constants and the rows of the tables of the IoT database. The tables are in
shared memory, and every function of `newDb.c` that uses them is one critical section.
-/

namespace NewDb

def NEWDB_VERSION : Int := 1

def NEWDB_MAX_SYSTEM : Nat := 20
def NEWDB_MAX_DEVICES : Nat := 20
def NEWDB_MAX_PLUGHIST : Nat := 400
def NEWDB_MAX_ZCB : Nat := 40

instance : NeZero NEWDB_MAX_DEVICES := ⟨by decide⟩
instance : NeZero NEWDB_MAX_ZCB := ⟨by decide⟩

def LEN_MAC_NIBBLE : Nat := 16
def LEN_TY : Nat := 8
def LEN_NM : Nat := 20
def LEN_CMD : Nat := 8
def LEN_SYSNM : Nat := 20
def LEN_SYSSTR : Nat := 20

-- The column `dev` is an `int` that commands may set to any value.
def DEVICE_DEV_UNKNOWN : Int := 0
def DEVICE_DEV_MANAGER : Int := 1
def DEVICE_DEV_UI : Int := 2
def DEVICE_DEV_SENSOR : Int := 3
def DEVICE_DEV_UISENSOR : Int := 4
def DEVICE_DEV_PUMP : Int := 5
def DEVICE_DEV_LAMP : Int := 6
def DEVICE_DEV_PLUG : Int := 7
def DEVICE_DEV_SWITCH : Int := 8

def FLAG_NONE : BitVec 32 := 0x00
def FLAG_DEV_JOINED : BitVec 32 := 0x01
def FLAG_UI_IGNORENEXT_HEAT : BitVec 32 := 0x02
def FLAG_LASTKELVIN : BitVec 32 := 0x04
def FLAG_ADDED_BY_GW : BitVec 32 := 0x08
def FLAG_TOPO_CLEAR : BitVec 32 := 0x10
def FLAG_UI_IGNORENEXT_COOL : BitVec 32 := 0x20

/--
The `mode` of `newDbEmptyDevices`.
-/
inductive EmptyMode where
  | all
  | climate
  | lamps
  | plugs
  | switches
  deriving DecidableEq

inductive ZcbStatus where
  | free
  | used
  | joined
  | left
  deriving DecidableEq

/--
`newdb_system_t`. A row is free if its name is empty.
-/
structure System where
  id : Int := 0
  name : String := ""
  intval : Int := 0
  strval : String := ""
  lastupdate : Int := 0
  deriving DecidableEq

/--
`newdb_dev_t`. A row is free if its `mac` is empty. The defaults are what `memset` leaves.
-/
structure Device where
  id : Int := 0
  mac : String := ""
  dev : Int := 0
  ty : String := ""
  par : Int := 0
  nm : String := ""
  heat : Int := 0
  cool : Int := 0
  tmp : Int := 0
  hum : Int := 0
  prs : Int := 0
  co2 : Int := 0
  bat : Int := 0
  batl : Int := 0
  als : Int := 0
  xloc : Int := 0
  yloc : Int := 0
  zloc : Int := 0
  sid : Int := 0
  cmd : String := ""
  lvl : Int := 0
  rgb : Int := 0
  kelvin : Int := 0
  act : Int := 0
  sum : Int := 0
  flags : BitVec 32 := 0
  lastupdate : Int := 0
  deriving DecidableEq

/--
`newdb_plughist_t`
-/
structure PlugHist where
  id : Int := 0
  mac : String := ""
  sum : Int := 0
  lastupdate : Int := 0
  deriving DecidableEq

/--
`newdb_zcb_t` without the bits of the supported clusters.
-/
structure Zcb where
  id : Int := 0
  mac : String := ""
  status : ZcbStatus := .free
  saddr : Int := 0
  type : Int := 0
  lastupdate : Int := 0
  info : String := ""
  u16ProfileId : UInt16 := 0
  u8DeviceVersion : UInt8 := 0
  deriving DecidableEq

/--
`newdb_t`
-/
structure Db where
  version : Int := 0
  numwrites : Int := 0
  lastupdate_sys : Int := 0
  lastupdate_rooms : Int := 0
  lastupdate_devices : Int := 0
  lastupdate_plughist : Int := 0
  lastupdate_zcb : Int := 0
  system : Fin NEWDB_MAX_SYSTEM → System := fun _ => {}
  devices : Fin NEWDB_MAX_DEVICES → Device := fun _ => {}
  plughist : Fin NEWDB_MAX_PLUGHIST → PlugHist := fun _ => {}
  zcb : Fin NEWDB_MAX_ZCB → Zcb := fun _ => {}

/--
The structure that `newDbOpen` makes if there is nothing to restore.
-/
def Db.init : Db where
  version := NEWDB_VERSION
  system := fun i => { id := i }
  devices := fun i => { id := i }
  plughist := fun i => { id := i }
  zcb := fun i => { id := i }

/--
The row that an `id` refers to.
-/
def rowOf (n : Nat) (id : Int) : Option (Fin n) :=
  if h : 0 ≤ id ∧ id < n then some ⟨id.toNat, by omega⟩ else none

theorem rowOf_eq_some_iff {n : Nat} {id : Int} {i : Fin n} : rowOf n id = some i ↔ id = i := by
  unfold rowOf
  split
  . next h =>
    rw [Option.some.injEq, Fin.ext_iff]
    simp only
    omega
  . next h =>
    constructor
    . intro hnone
      cases hnone
    . intro hid
      exfalso
      apply h
      have := i.isLt
      omega

@[simp]
theorem rowOf_index {n : Nat} (i : Fin n) : rowOf n i = some i := rowOf_eq_some_iff.mpr rfl

/--
A string field keeps the first `max` characters, and what it has if there is no string.
-/
def newDbStrNcpy (dst : String) (src : Option String) (max : Nat) : String :=
  match src with
  | some src => String.ofList (src.toList.take max)
  | none => dst

theorem newDbStrNcpy_eq {dst src : String} {max : Nat} (h : src.toList.length ≤ max)
    : newDbStrNcpy dst (some src) max = src := by
  rw [newDbStrNcpy, List.take_of_length_le h, String.ofList_toList]

end NewDb
