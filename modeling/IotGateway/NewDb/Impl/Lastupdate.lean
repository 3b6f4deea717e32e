import IotGateway.NewDb.Impl.Tables

/-!
This module contains the functions by which a poller finds out whether a table has changed.
-/

namespace NewDb

/--
A table as a poller sees it: the rows that are in use.
-/
structure View (n : Nat) (ρ : Type) where
  table : Db → Fin n → ρ
  used : ρ → Bool
  lastupdate : ρ → Int

def systemView : View NEWDB_MAX_SYSTEM System where
  table := Db.system
  used sys := sys.name ≠ ""
  lastupdate := System.lastupdate

/--
All devices if `dev1` is `DEVICE_DEV_UNKNOWN`
-/
def devicesView (dev1 dev2 : Int) : View NEWDB_MAX_DEVICES Device where
  table := Db.devices
  used dev := dev.mac ≠ "" ∧ (dev1 = DEVICE_DEV_UNKNOWN ∨ dev.dev ≥ dev1 ∧ dev.dev ≤ dev2)
  lastupdate := Device.lastupdate

def zcbView : View NEWDB_MAX_ZCB Zcb where
  table := Db.zcb
  used zcb := zcb.status ≠ .free
  lastupdate := Zcb.lastupdate

def plughistView : View NEWDB_MAX_PLUGHIST PlugHist where
  table := Db.plughist
  used hist := hist.mac ≠ ""
  lastupdate := PlugHist.lastupdate

section

variable {n : Nat} {ρ : Type} (v : View n ρ) (db : Db)

/--
One turn of the loop over the rows, with `lastupdate` and `sum`.
-/
def View.scanRow (scan : Int × Int) (i : Fin n) : Int × Int :=
  let row := v.table db i
  if v.used row then
    (if v.lastupdate row > scan.1 then v.lastupdate row else scan.1, scan.2 + 1)
  else
    scan

def View.scan : Int × Int := (List.finRange n).foldl (v.scanRow db) (0, 0)

/--
What the functions `newDbGetLastupdate` of the tables do.
-/
def View.getLastupdate : Int := (v.scan db).1 + (v.scan db).2

end

section

variable (db : Db)

def newDbGetLastupdateSystem : Int := systemView.getLastupdate db

def newDbGetLastupdateDevicesDev (dev1 dev2 : Int) : Int := (devicesView dev1 dev2).getLastupdate db

def newDbGetLastupdateDevices : Int :=
  newDbGetLastupdateDevicesDev db DEVICE_DEV_UNKNOWN DEVICE_DEV_UNKNOWN

def newDbGetLastupdatePlug : Int := newDbGetLastupdateDevicesDev db DEVICE_DEV_PLUG DEVICE_DEV_PLUG

def newDbGetLastupdateLamp : Int := newDbGetLastupdateDevicesDev db DEVICE_DEV_LAMP DEVICE_DEV_LAMP

def newDbGetLastupdateClimate : Int :=
  newDbGetLastupdateDevicesDev db DEVICE_DEV_MANAGER DEVICE_DEV_PUMP

def newDbGetLastupdateZcb : Int := zcbView.getLastupdate db

def newDbGetLastupdatePlugHist : Int := plughistView.getLastupdate db

/--
The room does not matter.
-/
def newDbDevicesCalcChecksumRoom (_room : Int) : Int :=
  let scan := (devicesView DEVICE_DEV_UNKNOWN DEVICE_DEV_UNKNOWN).scan db
  scan.2 * 100000 + scan.1.tmod 100000

end

end NewDb
