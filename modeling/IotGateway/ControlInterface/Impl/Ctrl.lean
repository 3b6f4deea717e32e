import IotGateway.Common.Parsing
import IotGateway.Json.Impl.Create
import IotGateway.NewDb.Impl.Tables

/-!
This module contains the control commands.
-/

namespace ControlInterface

open NewDb Json IotError

/--
What a control command is about to do with a device: the device after it, whether this is copied in,
the messages for the ZCB daemon, and what is to be tunnelled to the parent `tunnelManager`.
-/
structure Control where
  device : Device
  changed : Bool := false
  messages : List Object := []
  tunnelManager : Int := -1
  tunnelMessage : Object := { name := "", members := [] }

def controlUi (attrs : Attrs) (mac : String) (device : Device) : Control :=
  let heat := attrs.parsingGetIntAttr "heat"
  let cool := attrs.parsingGetIntAttr "cool"
  let heated :=
    if 0 ≤ heat then
      { device with heat := heat.toInt, flags := device.flags ||| FLAG_UI_IGNORENEXT_HEAT }
    else
      device
  let cooled :=
    if 0 ≤ cool then
      { heated with cool := cool.toInt, flags := heated.flags ||| FLAG_UI_IGNORENEXT_COOL }
    else
      heated
  { device := cooled
    changed := 0 ≤ heat ∨ 0 ≤ cool
    tunnelManager := device.par
    tunnelMessage := jsonUiCtrl mac heat cool }

def controlPlug (attrs : Attrs) (mac : String) (device : Device) : Control :=
  match attrs.parsingGetStringAttr0 "cmd" with
  | some cmd =>
    { device := { device with cmd := newDbStrNcpy device.cmd (some cmd) LEN_CMD }
      changed := true
      messages := [jsonPlugCmd mac (some cmd)] }
  | none => { device }

section

variable (rgb2xy : Int32 → Int32 × Int32)

/--
Without a new color the last color temperature is used again.
-/
def controlLamp (attrs : Attrs) (mac : String) (device : Device) : Control :=
  let lvl := attrs.parsingGetIntAttr "lvl"
  let rgb := attrs.parsingGetIntAttr "rgb"
  let kelvin := attrs.parsingGetIntAttr "kelvin"
  let cmd := attrs.parsingGetStringAttr0 "cmd"
  let device := { device with flags := device.flags ||| FLAG_DEV_JOINED }
  let device := if 0 ≤ lvl then { device with lvl := lvl.toInt } else device
  let device :=
    if 0 ≤ rgb then
      { device with flags := device.flags &&& ~~~FLAG_LASTKELVIN, rgb := rgb.toInt }
    else
      device
  let device :=
    if 0 ≤ kelvin then
      { device with flags := device.flags ||| FLAG_LASTKELVIN, kelvin := kelvin.toInt }
    else
      device
  let again :=
    cmd = none ∧ kelvin < 0 ∧ device.flags &&& FLAG_LASTKELVIN ≠ 0
  { device := { device with cmd := newDbStrNcpy device.cmd (cmd.map (·.1)) LEN_CMD }
    changed := true
    messages :=
      [jsonLampToZigbee rgb2xy mac (cmd.map (·.1)) lvl rgb
        (if again then Int32.ofInt device.kelvin else kelvin)] }

/--
A device of any other kind has no controls.
-/
def controlDevice (attrs : Attrs) (mac : String) (device : Device) : Control :=
  if device.dev = DEVICE_DEV_UI ∨ device.dev = DEVICE_DEV_UISENSOR then
    controlUi attrs mac device
  else if device.dev = DEVICE_DEV_PLUG then
    controlPlug attrs mac device
  else if device.dev = DEVICE_DEV_LAMP then
    controlLamp rgb2xy attrs mac device
  else
    { device }

/--
What is tunnelled to the device in the row `tunnelManager`. `opened` is whether the queue can be
opened.
-/
def tunnel (tunnelManager : Int) (tunnelMessage : Object) (opened : Bool) (db : Db) : List Object × Int :=
  if 0 ≤ tunnelManager then
    match newDbDeviceGetMac db tunnelManager with
    | some tunnelMac =>
      (if opened then [jsonTunnelOpen tunnelMac, tunnelMessage, jsonTunnelClose] else [],
        IOT_ERROR_NONE)
    | none => ([], IOT_ERROR_NON_EXISTING_MAC)
  else
    ([], IOT_ERROR_NONE)

/--
The other components are the messages that are written to the ZCB daemon and `iotError`.
-/
def ctrlHandle (attrs : Attrs) (opened : Bool) (now : Int) (db : Db) : Db × List Object × Int :=
  match attrs.parsingGetStringAttr0 "mac" with
  | some mac =>
    let mac := mac.upper
    match newDbGetDevice db mac with
    | some device =>
      let control := controlDevice rgb2xy attrs mac device
      let db := if control.changed then (newDbSetDevice db control.device now).1 else db
      let (tunnelled, error) := tunnel control.tunnelManager control.tunnelMessage opened db
      (db, (if opened then control.messages else []) ++ tunnelled, error)
    | none => (db, [], IOT_ERROR_NON_EXISTING_MAC)
  | none => (db, [], IOT_ERROR_NO_MAC)

end

end ControlInterface
