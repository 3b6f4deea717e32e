import IotGateway.Common.Parsing
import IotGateway.Json.Impl.Create
import IotGateway.NewDb.Basic

/-!
This module contains the generator of the topology commands. It goes from the managers down to the
pumps in its own copy of the device table.
-/

namespace ControlInterface

open NewDb IotError Json

def WAIT_NONE : Nat := 0
def WAIT_NORMAL : Nat := 500
def WAIT_LONG : Nat := 2500

def MAX_TOPOSTRINGS : Nat := 60
def MAX_JSONLENGTH : Nat := 100

/--
`topo_dev_t`
-/
structure TopoDev where
  id : Int
  dev : Int
  par : Int
  sid : Int32 := 0
  mac : String
  nm : String
  ty : String := ""

/--
An entry of `topoStrings`, `topoAckWaits` and `topoManIds`.
-/
structure TopoString where
  text : List Char
  ackWait : Nat
  manId : Int

/--
The variables of the generator. `numTopoStrings` is the length of the list.
-/
structure TopoGen where
  topoStrings : List TopoString := []
  manId : Int := 0
  iotError : Int := IOT_ERROR_NONE

def MAXTOPODEVS : Nat := 50

/--
The columns that `getTopoDevsCb` copies.
-/
def topoDev (pdev : Device) : TopoDev where
  id := pdev.id
  dev := pdev.dev
  par := pdev.par
  sid := Int32.ofInt pdev.sid
  mac := pdev.mac
  nm := pdev.nm
  ty := pdev.ty

/--
The length of the list is `topoDevCnt`.
-/
def getTopoDevsCb (pdev : Device) (topodevs : List TopoDev) : List TopoDev × Bool :=
  if topodevs.length < MAXTOPODEVS then
    (topodevs ++ [topoDev pdev], true)
  else
    (topodevs, false)

def addString (string : Object) (ackWait : Nat) (g : TopoGen) : TopoGen :=
  if MAX_TOPOSTRINGS ≤ g.topoStrings.length then
    { g with iotError := IOT_ERROR_TOPO_OVERRUN }
  else if MAX_JSONLENGTH < string.message.length then
    { g with iotError := IOT_ERROR_TOPO_OVERRUN }
  else
    { g with topoStrings := g.topoStrings ++ [{ text := string.message, ackWait, manId := g.manId }] }

section

variable (topodevs : List TopoDev)

/--
A loop over the devices of one kind below one parent.
-/
def topoLoop (dev par : Int) (handle : TopoDev → TopoGen → TopoGen) (g : TopoGen) : TopoGen :=
  topodevs.foldl (fun g d => if d.dev = dev ∧ d.par = par then handle d g else g) g

def topoLoopPump (par : Int) : TopoGen → TopoGen :=
  topoLoop topodevs DEVICE_DEV_PUMP par fun d g =>
    addString (jsonTopoAddPump d.mac (some d.nm) d.sid) WAIT_NORMAL g

def topoLoopSensor (par : Int) : TopoGen → TopoGen :=
  topoLoop topodevs DEVICE_DEV_SENSOR par fun d g =>
    let g := addString (jsonTopoAddSensor d.mac (some d.nm)) WAIT_NORMAL g
    topoLoopPump topodevs d.id g

def topoLoopUiSensor (par : Int) : TopoGen → TopoGen :=
  topoLoop topodevs DEVICE_DEV_UISENSOR par fun d g =>
    let g := addString (jsonTopoAddUI d.mac (some d.nm)) WAIT_NORMAL g
    let g := addString (jsonTopoAddSensor d.mac (some d.nm)) WAIT_NORMAL g
    -- There can be other sensors attached to this UISENSOR
    let g := topoLoopSensor topodevs d.id g
    topoLoopPump topodevs d.id g

def topoLoopUi (par : Int) : TopoGen → TopoGen :=
  topoLoop topodevs DEVICE_DEV_UI par fun d g =>
    let g := addString (jsonTopoAddUI d.mac (some d.nm)) WAIT_NORMAL g
    topoLoopSensor topodevs d.id g

def topoLoopMan (g : TopoGen) : TopoGen :=
  topodevs.foldl (fun g d =>
    if d.dev = DEVICE_DEV_MANAGER then
      let g := { g with manId := d.id }
      let g := addString (jsonTunnelOpen d.mac) WAIT_NONE g
      let g := addString jsonTopoClear WAIT_LONG g
      let g := topoLoopUiSensor topodevs d.id g
      topoLoopUi topodevs d.id g
    else
      g) g

/--
`getTopoDevsCb` is the only function that adds to `topodevs`, and nothing calls it.
-/
def topoGenerate (g : TopoGen) : TopoGen :=
  let g := if g.iotError = IOT_ERROR_TOPO_OVERRUN then { g with iotError := IOT_ERROR_NONE } else g
  let g := topoLoopMan topodevs { g with topoStrings := [] }
  if g.topoStrings ≠ [] then
    addString jsonTunnelClose WAIT_NONE (addString jsonTopoEnd WAIT_NORMAL g)
  else
    g

end

/--
The static variables of the generator.
-/
structure TopoStatics where
  topodevs : List TopoDev := []
  gen : TopoGen := {}

/--
A call of `topoGenerate` with the device table and `iotError` as they are then.
-/
structure TopoCall where
  devices : Fin NEWDB_MAX_DEVICES → Device
  iotError : Int

/--
What is emitted is the list of commands. The table is not read, although a comment in `topoGenerate`
announces it.
-/
def topoCall (s : TopoStatics) (call : TopoCall) : TopoStatics × List (List TopoString) :=
  let g := topoGenerate s.topodevs { s.gen with iotError := call.iotError }
  ({ s with gen := g }, [g.topoStrings])

end ControlInterface
