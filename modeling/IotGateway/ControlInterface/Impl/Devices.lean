import IotGateway.NewDb.Impl.Edit

/-!
This module contains the functions of the control interface that add or change one device: those of
the topology commands, of the `dbEdit` commands and of the sensor commands.
-/

namespace ControlInterface

open NewDb

def clearTopo (flags : BitVec 32) : BitVec 32 := flags &&& ~~~(FLAG_TOPO_CLEAR ||| FLAG_ADDED_BY_GW)

def addManager (mac nm : Text) (type : Option String) : Edit where
  mac
  found :=
    { apply := fun device =>
        { device with
          dev := DEVICE_DEV_MANAGER
          nm := newDbStrNcpy device.nm (some nm) LEN_NM
          ty := newDbStrNcpy device.ty type LEN_TY
          flags := clearTopo device.flags }
      apply_id := fun _ => rfl
      apply_mac := fun _ => rfl }
  fresh := some
    { apply := fun device =>
        { device with
          dev := DEVICE_DEV_MANAGER
          par := 0
          nm := newDbStrNcpy device.nm (some nm) LEN_NM
          ty := newDbStrNcpy device.ty type LEN_TY
          flags := FLAG_NONE }
      apply_id := fun _ => rfl
      apply_mac := fun _ => rfl }

def addUi (mac nm : Text) (manager : Int) : Edit where
  mac
  found :=
    { apply := fun device =>
        { device with
          dev :=
            if device.dev = DEVICE_DEV_UNKNOWN then
              DEVICE_DEV_UI
            else if device.dev = DEVICE_DEV_SENSOR then
              DEVICE_DEV_UISENSOR
            else
              device.dev
          par := manager
          nm := newDbStrNcpy device.nm (some nm) LEN_NM
          flags := clearTopo device.flags }
      apply_id := fun _ => rfl
      apply_mac := fun _ => rfl }
  fresh := some
    { apply := fun device =>
        { device with
          dev := DEVICE_DEV_UI
          par := manager
          nm := newDbStrNcpy device.nm (some nm) LEN_NM
          flags := FLAG_NONE }
      apply_id := fun _ => rfl
      apply_mac := fun _ => rfl }

/--
What a sensor declaration does to a device that exists, by the device it currently is.
-/
def becomeSensor (nm : Text) (ui : Int) (device : Device) : Device :=
  if device.dev = DEVICE_DEV_UNKNOWN then
    { device with
      dev := DEVICE_DEV_SENSOR, par := ui, nm := newDbStrNcpy device.nm (some nm) LEN_NM }
  else if device.dev = DEVICE_DEV_UI then
    { device with dev := DEVICE_DEV_UISENSOR }
  else if device.dev = DEVICE_DEV_SENSOR then
    { device with par := ui, nm := newDbStrNcpy device.nm (some nm) LEN_NM }
  else
    device

theorem becomeSensor_key (nm : Text) (ui : Int) (device : Device)
    : (becomeSensor nm ui device).id = device.id ∧ (becomeSensor nm ui device).mac = device.mac := by
  unfold becomeSensor
  split
  . exact ⟨rfl, rfl⟩
  . split
    . exact ⟨rfl, rfl⟩
    . split
      . exact ⟨rfl, rfl⟩
      . exact ⟨rfl, rfl⟩

/--
Only a sensor or a UI with a sensor is copied back in.
-/
def addSensor (mac nm : Text) (ui : Int) : Edit where
  mac
  found :=
    { apply := fun device =>
        let device := becomeSensor nm ui device
        { device with flags := clearTopo device.flags }
      saves := fun device => device.dev == DEVICE_DEV_SENSOR || device.dev == DEVICE_DEV_UISENSOR
      apply_id := fun device => (becomeSensor_key nm ui device).1
      apply_mac := fun device => (becomeSensor_key nm ui device).2 }
  fresh := some
    { apply := fun device =>
        { device with
          dev := DEVICE_DEV_SENSOR
          par := ui
          nm := newDbStrNcpy device.nm (some nm) LEN_NM
          flags := FLAG_NONE }
      apply_id := fun _ => rfl
      apply_mac := fun _ => rfl }

def addPump (mac nm : Text) (sensor sid : Int) : Edit where
  mac
  found :=
    { apply := fun device =>
        { device with
          dev := DEVICE_DEV_PUMP
          par := sensor
          nm := newDbStrNcpy device.nm (some nm) LEN_NM
          sid
          flags := clearTopo device.flags }
      apply_id := fun _ => rfl
      apply_mac := fun _ => rfl }
  fresh := some
    { apply := fun device =>
        { device with
          dev := DEVICE_DEV_PUMP
          par := sensor
          nm := newDbStrNcpy device.nm (some nm) LEN_NM
          sid
          cmd := newDbStrNcpy device.cmd (some "off") LEN_CMD
          flags := FLAG_NONE }
      apply_id := fun _ => rfl
      apply_mac := fun _ => rfl }

/--
Certain defaults of a new lamp. `addLamp` does not check that there is a type before it compares it.
-/
def lampDefaults (type : Option String) (device : Device) : Device :=
  let device := { device with cmd := newDbStrNcpy device.cmd (some "on") LEN_CMD }
  if type = some "dim" then
    { device with lvl := 100 }
  else if type = some "col" then
    { device with lvl := 100, rgb := 0xffffff, kelvin := 6250 }
  else if type = some "tw" then
    { device with lvl := 100, kelvin := 6250 }
  else
    device

theorem lampDefaults_key (type : Option String) (device : Device)
    : (lampDefaults type device).id = device.id ∧ (lampDefaults type device).mac = device.mac := by
  unfold lampDefaults
  simp only
  split
  . exact ⟨rfl, rfl⟩
  . split
    . exact ⟨rfl, rfl⟩
    . split
      . exact ⟨rfl, rfl⟩
      . exact ⟨rfl, rfl⟩

def addLamp (mac nm : Text) (type : Option String) : Edit where
  mac
  found :=
    { apply := fun device =>
        { device with
          dev := DEVICE_DEV_LAMP
          nm := newDbStrNcpy device.nm (some nm) LEN_NM
          ty := newDbStrNcpy device.ty type LEN_TY
          flags := clearTopo device.flags }
      apply_id := fun _ => rfl
      apply_mac := fun _ => rfl }
  fresh := some
    { apply := fun device =>
        let device :=
          { device with
            dev := DEVICE_DEV_LAMP
            nm := newDbStrNcpy device.nm (some nm) LEN_NM
            ty := newDbStrNcpy device.ty type LEN_TY }
        { lampDefaults type device with flags := FLAG_NONE }
      apply_id := fun _ => (lampDefaults_key type _).1
      apply_mac := fun _ => (lampDefaults_key type _).2 }

def addPlug (mac nm : Text) : Edit where
  mac
  found :=
    { apply := fun device =>
        { device with
          dev := DEVICE_DEV_PLUG
          nm := newDbStrNcpy device.nm (some nm) LEN_NM
          flags := clearTopo device.flags }
      apply_id := fun _ => rfl
      apply_mac := fun _ => rfl }
  fresh := some
    { apply := fun device =>
        { device with
          dev := DEVICE_DEV_PLUG
          nm := newDbStrNcpy device.nm (some nm) LEN_NM
          cmd := newDbStrNcpy device.cmd (some "on") LEN_CMD
          flags := FLAG_NONE }
      apply_id := fun _ => rfl
      apply_mac := fun _ => rfl }

def managerName (type : String) : String :=
  if type = "h" then "Heating Manager" else "Cooling Manager"

def lampName (type : String) : String :=
  if type = "dim" then
    "Dim-lamp"
  else if type = "col" then
    "RGB-lamp"
  else if type = "tw" then
    "TW-lamp"
  else
    "OnOff-lamp"

/--
Certain defaults of a device that is added by hand.
-/
def editDefaults (dev : Int) (type : String) (device : Device) : Device :=
  if dev = DEVICE_DEV_MANAGER then
    { device with nm := newDbStrNcpy device.nm (some (managerName type)) LEN_NM }
  else if dev = DEVICE_DEV_UI then
    { device with nm := newDbStrNcpy device.nm (some "UI") LEN_NM }
  else if dev = DEVICE_DEV_UISENSOR then
    { device with nm := newDbStrNcpy device.nm (some "UI+Sensor") LEN_NM }
  else if dev = DEVICE_DEV_SENSOR then
    { device with nm := newDbStrNcpy device.nm (some "Sensor") LEN_NM }
  else if dev = DEVICE_DEV_LAMP then
    { lampDefaults (some type) device with
      nm := newDbStrNcpy device.nm (some (lampName type)) LEN_NM }
  else if dev = DEVICE_DEV_PLUG then
    { device with
      nm := newDbStrNcpy device.nm (some "Plugmeter") LEN_NM
      cmd := newDbStrNcpy device.cmd (some "on") LEN_CMD }
  else if dev = DEVICE_DEV_PUMP then
    { device with
      nm := newDbStrNcpy device.nm (some "Actuator") LEN_NM
      cmd := newDbStrNcpy device.cmd (some "off") LEN_CMD }
  else if dev = DEVICE_DEV_SWITCH then
    { device with nm := newDbStrNcpy device.nm (some "Switch") LEN_NM }
  else
    device

theorem editDefaults_key (dev : Int) (type : String) (device : Device)
    : (editDefaults dev type device).id = device.id
        ∧ (editDefaults dev type device).mac = device.mac := by
  have hlamp := lampDefaults_key (some type) device
  unfold editDefaults
  split_ifs
  all_goals first | exact ⟨rfl, rfl⟩ | exact hlamp

/--
`dbEditHandle` with `add`. A device that exists is left as it is.
-/
def dbEditAdd (mac : Text) (dev : Int) (type : String) : Edit where
  mac
  found :=
    { apply := id
      saves := fun _ => false
      apply_id := fun _ => rfl
      apply_mac := fun _ => rfl }
  fresh := some
    { apply := fun device =>
        let device := { device with dev, par := 0, ty := newDbStrNcpy device.ty (some type) LEN_TY }
        { editDefaults dev type device with flags := FLAG_ADDED_BY_GW }
      apply_id := fun _ => (editDefaults_key dev type _).1
      apply_mac := fun _ => (editDefaults_key dev type _).2 }

/--
`sensorHandle` for a valid MAC.
-/
def sensorHandle (mac : Text) (nm : Option Text) (xloc yloc zloc : Int32) : Edit where
  mac
  found :=
    { apply := fun device =>
        { device with
          nm := newDbStrNcpy device.nm (nm.map (·.1)) LEN_NM
          xloc := if xloc ≠ Attrs.INT_MIN then xloc.toInt else device.xloc
          yloc := if yloc ≠ Attrs.INT_MIN then yloc.toInt else device.yloc
          zloc := if zloc ≠ Attrs.INT_MIN then zloc.toInt else device.zloc }
      apply_id := fun _ => rfl
      apply_mac := fun _ => rfl }

end ControlInterface
