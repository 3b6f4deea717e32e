import IotGateway.NewDb.Impl.Edit

/-!
This module contains what the ZCB daemon does to the device table when devices join and report.
-/

namespace ZcbDaemon

open NewDb

def announcedDev (devstr : String) : Int :=
  if devstr = "man" then
    DEVICE_DEV_MANAGER
  else if devstr = "ui" then
    DEVICE_DEV_UI
  else if devstr = "sen" then
    DEVICE_DEV_SENSOR
  else if devstr = "pmp" then
    DEVICE_DEV_PUMP
  else if devstr = "lmp" then
    DEVICE_DEV_LAMP
  else if devstr = "plg" then
    DEVICE_DEV_PLUG
  else if devstr = "swi" then
    DEVICE_DEV_SWITCH
  else
    DEVICE_DEV_UNKNOWN

/--
`info` is what is in `sNode.info`, also if there is no such node. Joins always insert.
-/
def zcbHandleAnnounce (mac : Text) (devstr : String) (ty : Option String) (info : String) : Edit where
  mac
  found :=
    { apply := fun device =>
        { device with
          dev := announcedDev devstr
          ty := newDbStrNcpy device.ty ty LEN_TY
          flags := device.flags ||| FLAG_DEV_JOINED }
      apply_id := fun _ => rfl
      apply_mac := fun _ => rfl }
  fresh := some
    { apply := fun device =>
        { device with
          dev := announcedDev devstr
          ty := newDbStrNcpy device.ty ty LEN_TY
          flags := FLAG_DEV_JOINED ||| FLAG_ADDED_BY_GW
          cmd := info }
      apply_id := fun _ => rfl
      apply_mac := fun _ => rfl }

/--
Updates device cmd and level in the database (no autoinsert)
-/
def zcbHandleActuator (mac : Text) (cmd : Option String) (lvl : Int) : Edit where
  mac
  found :=
    { apply := fun device =>
        { device with
          cmd := newDbStrNcpy device.cmd cmd LEN_CMD
          lvl := if 0 ≤ lvl then lvl else device.lvl
          flags := device.flags ||| FLAG_DEV_JOINED }
      apply_id := fun _ => rfl
      apply_mac := fun _ => rfl }

def setHeat (heat : Int) (device : Device) : Device :=
  if heat ≠ Attrs.INT_MIN.toInt then
    if device.flags &&& FLAG_UI_IGNORENEXT_HEAT = 0 then
      { device with heat }
    else
      { device with flags := device.flags &&& ~~~FLAG_UI_IGNORENEXT_HEAT }
  else
    device

def setCool (cool : Int) (device : Device) : Device :=
  if cool ≠ Attrs.INT_MIN.toInt then
    if device.flags &&& FLAG_UI_IGNORENEXT_COOL = 0 then
      { device with cool }
    else
      { device with flags := device.flags &&& ~~~FLAG_UI_IGNORENEXT_COOL }
  else
    device

theorem setHeat_key (heat : Int) (device : Device)
    : (setHeat heat device).id = device.id ∧ (setHeat heat device).mac = device.mac := by
  unfold setHeat
  split
  . split
    . exact ⟨rfl, rfl⟩
    . exact ⟨rfl, rfl⟩
  . exact ⟨rfl, rfl⟩

theorem setCool_key (cool : Int) (device : Device)
    : (setCool cool device).id = device.id ∧ (setCool cool device).mac = device.mac := by
  unfold setCool
  split
  . split
    . exact ⟨rfl, rfl⟩
    . exact ⟨rfl, rfl⟩
  . exact ⟨rfl, rfl⟩

/--
Updates device heat/cool setpoints in the database (no autoinsert)
-/
def zcbHandleUI (mac : Text) (heat cool : Int) : Edit where
  mac
  found :=
    { apply := fun device =>
        let device := setCool cool (setHeat heat device)
        { device with flags := device.flags ||| FLAG_DEV_JOINED }
      apply_id := fun device =>
        (setCool_key cool (setHeat heat device)).1.trans (setHeat_key heat device).1
      apply_mac := fun device =>
        (setCool_key cool (setHeat heat device)).2.trans (setHeat_key heat device).2 }

/--
Updates sensor device modalities in the database (no autoinsert). The message to the DBP daemon is
left out.
-/
def zcbHandleSensor (mac : Text) (tmp hum als bat batl : Int) : Edit where
  mac
  found :=
    { apply := fun device =>
        { device with
          tmp := if 0 ≤ tmp then tmp else device.tmp
          hum := if 0 ≤ hum then hum else device.hum
          als := if 0 ≤ als then als else device.als
          bat := if 0 ≤ bat then bat else device.bat
          batl := if 0 ≤ batl then batl else device.batl
          flags := device.flags ||| FLAG_DEV_JOINED }
      apply_id := fun _ => rfl
      apply_mac := fun _ => rfl }

def sendOccupancy (mac : Text) (data : Int) : Edit where
  mac
  found :=
    { apply := fun device =>
        { device with
          prs := data
          flags := device.flags ||| FLAG_DEV_JOINED }
      apply_id := fun _ => rfl
      apply_mac := fun _ => rfl }

/--
What `handlePlugData` does with the values that it has computed. The history is left out.
-/
def handlePlugData (mac : Text) (eInstDemand eSumDeliv : Int) : Edit where
  mac
  found :=
    { apply := fun device =>
        { device with
          act := eInstDemand
          sum := eSumDeliv
          flags := device.flags ||| FLAG_DEV_JOINED }
      apply_id := fun _ => rfl
      apply_mac := fun _ => rfl }

inductive DeviceUpdate where
  | announce (mac : Text) (devstr : String) (ty : Option String) (info : String)
  | actuator (mac : Text) (cmd : Option String) (lvl : Int)
  | ui (mac : Text) (heat cool : Int)
  | sensor (mac : Text) (tmp hum als bat batl : Int)
  | occupancy (mac : Text) (data : Int)
  | plug (mac : Text) (eInstDemand eSumDeliv : Int)

def DeviceUpdate.edit : DeviceUpdate → Edit
  | .announce mac devstr ty info => zcbHandleAnnounce mac devstr ty info
  | .actuator mac cmd lvl => zcbHandleActuator mac cmd lvl
  | .ui mac heat cool => zcbHandleUI mac heat cool
  | .sensor mac tmp hum als bat batl => zcbHandleSensor mac tmp hum als bat batl
  | .occupancy mac data => sendOccupancy mac data
  | .plug mac eInstDemand eSumDeliv => handlePlugData mac eInstDemand eSumDeliv

end ZcbDaemon
