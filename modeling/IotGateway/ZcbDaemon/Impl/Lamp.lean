import IotGateway.Common.Parsing
import IotGateway.ZcbDaemon.Impl.Requests

/-!
This module contains the commands to lamps and groups of lamps: the messages that are sent, and the
handlers that make them from the attributes of a JSON message.
-/

namespace ZcbDaemon

open NewDb Packed

def ZB_ENDPOINT_ZHA : UInt8 := 1
def ZB_ENDPOINT_GROUP : UInt8 := 1
def ZB_ENDPOINT_SCENE : UInt8 := 1
def ZB_ENDPOINT_LAMP : UInt8 := 1
def ZB_DEFAULT_ENDPOINT_ZLL : UInt8 := 3

def E_ZB_ADDRESS_MODE_GROUP : UInt8 := 0x01
def E_ZB_ADDRESS_MODE_SHORT : UInt8 := 0x02

def E_SL_MSG_ADD_GROUP_REQUEST : UInt16 := 0x0060
def E_SL_MSG_REMOVE_GROUP_REQUEST : UInt16 := 0x0063
def E_SL_MSG_REMOVE_ALL_GROUPS : UInt16 := 0x0064
def E_SL_MSG_MOVE_TO_LEVEL_ONOFF : UInt16 := 0x0081
def E_SL_MSG_ONOFF : UInt16 := 0x0092
def E_SL_MSG_REMOVE_SCENE : UInt16 := 0x00A2
def E_SL_MSG_REMOVE_ALL_SCENES : UInt16 := 0x00A3
def E_SL_MSG_STORE_SCENE : UInt16 := 0x00A4
def E_SL_MSG_RECALL_SCENE : UInt16 := 0x00A5
def E_SL_MSG_MOVE_TO_HUE : UInt16 := 0x00B0
def E_SL_MSG_MOVE_TO_SATURATION : UInt16 := 0x00B3
def E_SL_MSG_MOVE_TO_HUE_SATURATION : UInt16 := 0x00B6
def E_SL_MSG_MOVE_TO_COLOUR : UInt16 := 0x00B7
def E_SL_MSG_COLOUR_LOOP_SET : UInt16 := 0x00BE
def E_SL_MSG_MOVE_TO_COLOUR_TEMPERATURE : UInt16 := 0x00C0
def E_SL_MSG_MOVE_COLOUR_TEMPERATURE : UInt16 := 0x00C1

/--
The first fields of a message to a lamp, or to a group if there is no short address.
-/
def initDefaultHeader (u16ShortAddress u16GroupAddress : UInt16) : List Field :=
  if u16ShortAddress ≠ 0xFFFF then
    [u8 E_ZB_ADDRESS_MODE_SHORT, u16 (htons u16ShortAddress), u8 ZB_ENDPOINT_ZHA,
      u8 ZB_ENDPOINT_LAMP]
  else
    [u8 E_ZB_ADDRESS_MODE_GROUP, u16 (htons u16GroupAddress), u8 ZB_ENDPOINT_ZHA,
      u8 ZB_DEFAULT_ENDPOINT_ZLL]

section

-- what becomes of each message
variable (line : Command → Sending)

/--
The end of each command: the status, and the message that is passed to `eSL_SendMessage`.
-/
def sendCommand (u16Type : UInt16) (fields : List Field) (statusOk statusFailed : UInt8)
    : UInt8 × Option Command :=
  let command := { u16Type, pvMessage := layout fields }
  (if eSL_SendMessage (line command) = E_SL_OK then statusOk else statusFailed, some command)

section

variable (u16ShortAddress u16GroupAddress : UInt16)

def lampCommand (u16Type : UInt16) (fields : List Field) : UInt8 × Option Command :=
  sendCommand line u16Type (initDefaultHeader u16ShortAddress u16GroupAddress ++ fields) E_ZCB_OK
    E_ZCB_COMMS_FAILED

def lmpgrp_OnOff (u8Mode : UInt8) : UInt8 × Option Command :=
  if 2 < u8Mode then
    -- Illegal value
    (E_ZCB_ERROR, none)
  else
    lampCommand line u16ShortAddress u16GroupAddress E_SL_MSG_ONOFF [u8 u8Mode]

def lmpgrp_MoveToLevel (u8Level : UInt8) (u16TransitionTime : UInt16) : UInt8 × Option Command :=
  let u8Level := if 254 < u8Level then 254 else u8Level
  -- we don't allow automatic changes to on or off
  lampCommand line u16ShortAddress u16GroupAddress E_SL_MSG_MOVE_TO_LEVEL_ONOFF
    [u8 0, u8 u8Level, u16 (htons u16TransitionTime)]

def lmpgrp_MoveToHue (u8Hue : UInt8) (u16TransitionTime : UInt16) : UInt8 × Option Command :=
  lampCommand line u16ShortAddress u16GroupAddress E_SL_MSG_MOVE_TO_HUE
    [u8 u8Hue, u8 0, u16 (htons u16TransitionTime)]

def lmpgrp_MoveToSaturation (u8Saturation : UInt8) (u16TransitionTime : UInt16)
    : UInt8 × Option Command :=
  lampCommand line u16ShortAddress u16GroupAddress E_SL_MSG_MOVE_TO_SATURATION
    [u8 u8Saturation, u16 (htons u16TransitionTime)]

def lmpgrp_MoveToHueSaturation (u8Hue u8Saturation : UInt8) (u16TransitionTime : UInt16)
    : UInt8 × Option Command :=
  lampCommand line u16ShortAddress u16GroupAddress E_SL_MSG_MOVE_TO_HUE_SATURATION
    [u8 u8Hue, u8 u8Saturation, u16 (htons u16TransitionTime)]

def lmpgrp_MoveToColour (u16X u16Y u16TransitionTime : UInt16) : UInt8 × Option Command :=
  lampCommand line u16ShortAddress u16GroupAddress E_SL_MSG_MOVE_TO_COLOUR
    [u16 (htons u16X), u16 (htons u16Y), u16 (htons u16TransitionTime)]

def lmpgrp_MoveToColourTemperature (u16ColourTemperature u16TransitionTime : UInt16)
    : UInt8 × Option Command :=
  lampCommand line u16ShortAddress u16GroupAddress E_SL_MSG_MOVE_TO_COLOUR_TEMPERATURE
    [u16 (htons u16ColourTemperature), u16 (htons u16TransitionTime)]

def lmpgrp_MoveColourTemperature (u8Mode : UInt8)
    (u16Rate u16ColourTemperatureMin u16ColourTemperatureMax : UInt16) : UInt8 × Option Command :=
  lampCommand line u16ShortAddress u16GroupAddress E_SL_MSG_MOVE_COLOUR_TEMPERATURE
    [u8 u8Mode, u16 (htons u16Rate), u16 (htons u16ColourTemperatureMin),
      u16 (htons u16ColourTemperatureMax)]

def lmpgrp_ColourLoopSet (u8UpdateFlags u8Action u8Direction : UInt8) (u16Time u16StartHue : UInt16)
    : UInt8 × Option Command :=
  lampCommand line u16ShortAddress u16GroupAddress E_SL_MSG_COLOUR_LOOP_SET
    [u8 u8UpdateFlags, u8 u8Action, u8 u8Direction, u16 (htons u16Time), u16 (htons u16StartHue)]

end

/--
The first fields of a message about groups.
-/
def groupHeader (u16ShortAddress : UInt16) : List Field :=
  [u8 E_ZB_ADDRESS_MODE_SHORT_NO_ACK, u16 (htons u16ShortAddress), u8 ZB_ENDPOINT_GROUP,
    u8 ZB_ENDPOINT_GROUP]

/--
The two results are the other way round here.
-/
def eZCB_AddGroupMembership (u16ShortAddress u16GroupAddress : UInt16) : UInt8 × Option Command :=
  sendCommand line E_SL_MSG_ADD_GROUP_REQUEST
    (groupHeader u16ShortAddress ++ [u16 (htons u16GroupAddress)]) E_ZCB_COMMS_FAILED E_ZCB_OK

def eZCB_RemoveGroupMembership (u16ShortAddress u16GroupAddress : UInt16) : UInt8 × Option Command :=
  sendCommand line E_SL_MSG_REMOVE_GROUP_REQUEST
    (groupHeader u16ShortAddress ++ [u16 (htons u16GroupAddress)]) E_ZCB_OK E_ZCB_COMMS_FAILED

def eZCB_ClearGroupMemberships (u16ShortAddress : UInt16) : UInt8 × Option Command :=
  sendCommand line E_SL_MSG_REMOVE_ALL_GROUPS (groupHeader u16ShortAddress) E_ZCB_OK
    E_ZCB_COMMS_FAILED

/--
The first fields of a message about scenes. The end point of a group is written over.
-/
def sceneHeader (u16ShortAddress u16GroupAddress : UInt16) : List Field :=
  let target :=
    if u16ShortAddress ≠ 0xFFFF then
      [u8 E_ZB_ADDRESS_MODE_SHORT_NO_ACK, u16 (htons u16ShortAddress)]
    else
      [u8 E_ZB_ADDRESS_MODE_GROUP, u16 (htons u16GroupAddress)]
  target ++ [u8 ZB_ENDPOINT_SCENE, u8 ZB_ENDPOINT_SCENE, u16 (htons u16GroupAddress)]

section

variable (u16ShortAddress u16GroupAddress : UInt16)

def sceneCommand (u16Type : UInt16) (fields : List Field) : UInt8 × Option Command :=
  sendCommand line u16Type (sceneHeader u16ShortAddress u16GroupAddress ++ fields) E_ZCB_OK
    E_ZCB_COMMS_FAILED

def eZCB_RemoveScene (u8SceneID : UInt8) : UInt8 × Option Command :=
  sceneCommand line u16ShortAddress u16GroupAddress E_SL_MSG_REMOVE_SCENE [u8 u8SceneID]

def eZCB_RemoveAllScenes : UInt8 × Option Command :=
  sceneCommand line u16ShortAddress u16GroupAddress E_SL_MSG_REMOVE_ALL_SCENES []

def eZCB_StoreScene (u8SceneID : UInt8) : UInt8 × Option Command :=
  sceneCommand line u16ShortAddress u16GroupAddress E_SL_MSG_STORE_SCENE [u8 u8SceneID]

def eZCB_RecallScene (u8SceneID : UInt8) : UInt8 × Option Command :=
  sceneCommand line u16ShortAddress u16GroupAddress E_SL_MSG_RECALL_SCENE [u8 u8SceneID]

end

/--
What is sent if a result is ignored.
-/
def sent (result : UInt8 × Option Command) : List Command := result.2.toList

/--
The conversion of an argument to an unsigned parameter.
-/
def toU8 (value : Int32) : UInt8 := UInt8.ofInt value.toInt
def toU16 (value : Int32) : UInt16 := UInt16.ofInt value.toInt

/--
In JSON the level is from 0 to 100, in Zigbee from 0 to 255.
-/
def sendLevel (u16ShortAddress u16GroupAddress : UInt16) (lvl : Int32) : List Command :=
  if 0 ≤ lvl then
    sent (lmpgrp_MoveToLevel line u16ShortAddress u16GroupAddress (toU8 (lvl * 255 / 100)) 5)
  else
    []

def sendColour (u16ShortAddress u16GroupAddress : UInt16) (xcr ycr : Int32) : List Command :=
  if 0 ≤ xcr ∧ 0 ≤ ycr then
    sent (lmpgrp_MoveToColour line u16ShortAddress u16GroupAddress (toU16 xcr) (toU16 ycr) 5)
  else
    []

section

variable (u16ShortAddress : UInt16)

def lmpCmd (cmd : Option Text) : List Command :=
  match cmd with
  | some cmd =>
    let mode : UInt8 := if cmd.val = "on" then 1 else 0
    sent (lmpgrp_OnOff line u16ShortAddress 0 mode)
  | none => []

def lmpKelvin (kelvin : Int32) : List Command :=
  if 0 < kelvin then
    -- According to Zigbee, the temp is 1000000/kelvin
    sent (lmpgrp_MoveToColourTemperature line u16ShortAddress 0 (toU16 (1000000 / kelvin)) 5)
  else
    []

def lmpGrp (grp : Option Text) (gid : Int32) : List Command :=
  match grp with
  | some grp =>
    if grp.val = "remall" then
      sent (eZCB_ClearGroupMemberships line u16ShortAddress)
    else if 0 ≤ gid then
      if grp.val = "add" then
        sent (eZCB_AddGroupMembership line u16ShortAddress (toU16 gid))
      else if grp.val = "rem" then
        sent (eZCB_RemoveGroupMembership line u16ShortAddress (toU16 gid))
      else
        []
    else
      []
  | none => []

def lmpScn (scn : Option Text) (gid sid : Int32) : List Command :=
  match scn with
  | some scn =>
    if 0 ≤ gid then
      if scn.val = "remall" then
        sent (eZCB_RemoveAllScenes line u16ShortAddress (toU16 gid))
      else if 0 ≤ sid then
        if scn.val = "add" then
          -- Same effect as Store-Scene
          sent (eZCB_StoreScene line u16ShortAddress (toU16 gid) (toU8 sid))
        else if scn.val = "rem" then
          sent (eZCB_RemoveScene line u16ShortAddress (toU16 gid) (toU8 sid))
        else if scn.val = "store" then
          sent (eZCB_StoreScene line u16ShortAddress (toU16 gid) (toU8 sid))
        else if scn.val = "recall" then
          sent (eZCB_RecallScene line u16ShortAddress (toU16 gid) (toU8 sid))
        else
          []
      else
        []
    else
      []
  | none => []

end

/--
The messages that are sent for an `lmp` message.
-/
def lmpHandle (attrs : Attrs) (db : Db) : List Command :=
  match attrs.parsingGetStringAttr0 "mac" with
  | none => []
  | some mac =>
    let u16ShortAddress := zcbNodeGetShortAddress mac.val db
    if u16ShortAddress ≠ 0xFFFF then
      let gid := attrs.parsingGetIntAttr "grpid"
      lmpCmd line u16ShortAddress (attrs.parsingGetStringAttr0 "cmd")
        ++ sendLevel line u16ShortAddress 0 (attrs.parsingGetIntAttr "lvl")
        ++ sendColour line u16ShortAddress 0 (attrs.parsingGetIntAttr "xcr")
          (attrs.parsingGetIntAttr "ycr")
        ++ lmpKelvin line u16ShortAddress (attrs.parsingGetIntAttr "kelvin")
        ++ lmpGrp line u16ShortAddress (attrs.parsingGetStringAttr0 "grp") gid
        ++ lmpScn line u16ShortAddress (attrs.parsingGetStringAttr0 "scn") gid
          (attrs.parsingGetIntAttr "scnid")
    else
      -- Node not found
      []

def grpCmd (gid : Int32) (cmd : Option Text) : List Command :=
  match cmd with
  | some cmd =>
    if cmd.val = "on" then
      sent (lmpgrp_OnOff line 0xFFFF (toU16 gid) 1)
    else if cmd.val = "off" then
      sent (lmpgrp_OnOff line 0xFFFF (toU16 gid) 0)
    else
      []
  | none => []

def grpScn (gid : Int32) (scn : Option Text) (sid : Int32) : List Command :=
  match scn with
  | some scn =>
    if scn.val = "recall" then
      if 0 ≤ sid then
        sent (eZCB_RecallScene line 0xFFFF (toU16 gid) (toU8 sid))
      else
        []
    else if scn.val = "remall" then
      sent (eZCB_RemoveAllScenes line 0xFFFF (toU16 gid))
    else
      []
  | none => []

/--
The messages that are sent for a `grp` message.
-/
def grpHandle (attrs : Attrs) : List Command :=
  let gid := attrs.parsingGetIntAttr "grpid"
  if 0 ≤ gid then
    grpCmd line gid (attrs.parsingGetStringAttr0 "cmd")
      ++ grpScn line gid (attrs.parsingGetStringAttr0 "scn") (attrs.parsingGetIntAttr "scnid")
      ++ sendLevel line 0xFFFF (toU16 gid) (attrs.parsingGetIntAttr "lvl")
      ++ sendColour line 0xFFFF (toU16 gid) (attrs.parsingGetIntAttr "xcr")
        (attrs.parsingGetIntAttr "ycr")
  else
    []

end

end ZcbDaemon
