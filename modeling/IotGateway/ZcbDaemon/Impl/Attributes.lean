import IotGateway.Json.Impl.Create
import IotGateway.ZcbDaemon.Impl.Cmd
import IotGateway.ZcbDaemon.Impl.Plug

/-!
This module contains the attribute reports of the nodes: how a value is read from the message, and
which device or message it is put into.
-/

namespace ZcbDaemon

open NewDb

def E_ZCL_GINT8 : UInt8 := 0x08
def E_ZCL_BOOL : UInt8 := 0x10
def E_ZCL_BMAP8 : UInt8 := 0x18
def E_ZCL_UINT8 : UInt8 := 0x20
def E_ZCL_UINT16 : UInt8 := 0x21
def E_ZCL_UINT24 : UInt8 := 0x22
def E_ZCL_UINT32 : UInt8 := 0x23
def E_ZCL_UINT40 : UInt8 := 0x24
def E_ZCL_UINT48 : UInt8 := 0x25
def E_ZCL_UINT56 : UInt8 := 0x26
def E_ZCL_UINT64 : UInt8 := 0x27
def E_ZCL_INT8 : UInt8 := 0x28
def E_ZCL_INT16 : UInt8 := 0x29
def E_ZCL_INT24 : UInt8 := 0x2a
def E_ZCL_ENUM8 : UInt8 := 0x30
def E_ZCL_ENUM16 : UInt8 := 0x31
def E_ZCL_OSTRING : UInt8 := 0x41
def E_ZCL_CSTRING : UInt8 := 0x42
def E_ZCL_LOSTRING : UInt8 := 0x43
def E_ZCL_LCSTRING : UInt8 := 0x44
def E_ZCL_STRUCT : UInt8 := 0x4c
def E_ZCL_TOD : UInt8 := 0xe0
def E_ZCL_DATE : UInt8 := 0xe1
def E_ZCL_UTCT : UInt8 := 0xe2
def E_ZCL_CLUSTER_ID : UInt8 := 0xe8
def E_ZCL_ATTRIBUTE_ID : UInt8 := 0xe9
def E_ZCL_BACNET_OID : UInt8 := 0xea
def E_ZCL_IEEE_ADDR : UInt8 := 0xf0

def E_ZB_CLUSTERID_ONOFF : UInt16 := 0x0006
def E_ZB_CLUSTERID_LEVEL_CONTROL : UInt16 := 0x0008
def E_ZB_CLUSTERID_THERMOSTAT : UInt16 := 0x0201
def E_ZB_CLUSTERID_MEASUREMENTSENSING_ILLUM : UInt16 := 0x0400
def E_ZB_CLUSTERID_MEASUREMENTSENSING_TEMP : UInt16 := 0x0402
def E_ZB_CLUSTERID_MEASUREMENTSENSING_HUM : UInt16 := 0x0405
def E_ZB_CLUSTERID_OCCUPANCYSENSING : UInt16 := 0x0406
def E_ZB_CLUSTERID_SIMPLE_METERING : UInt16 := 0x0702

def E_ZB_ATTRIBUTEID_ONOFF_ONOFF : UInt16 := 0x0000
def E_ZB_ATTRIBUTEID_LEVEL_CURRENTLEVEL : UInt16 := 0x0000
def E_ZB_ATTRIBUTEID_TSTAT_LOCALTEMPERATURE : UInt16 := 0x0000
def E_ZB_ATTRIBUTEID_TSTAT_OCCUPIEDCOOLSETPOINT : UInt16 := 0x0011
def E_ZB_ATTRIBUTEID_TSTAT_OCCUPIEDHEATSETPOINT : UInt16 := 0x0012
def E_ZB_ATTRIBUTEID_MS_ILLUM_MEASURED : UInt16 := 0x0000
def E_ZB_ATTRIBUTEID_MS_TEMP_MEASURED : UInt16 := 0x0000
def E_ZB_ATTRIBUTEID_MS_HUM_MEASURED : UInt16 := 0x0000
def E_ZB_ATTRIBUTEID_MS_OCC_OCCUPANCY : UInt16 := 0x0000

/--
The first `n` bytes as a number, the most significant one first.
-/
def bigEndian (bytes : Nat → UInt8) : Nat → Nat
  | 0 => 0
  | n + 1 => bigEndian bytes n * 256 + (bytes n).toNat

def ntohs (bytes : Nat → UInt8) : UInt16 := UInt16.ofNat (bigEndian bytes 2)

def ntohl (bytes : Nat → UInt8) : UInt32 := UInt32.ofNat (bigEndian bytes 4)

def be64toh (bytes : Nat → UInt8) : UInt64 := UInt64.ofNat (bigEndian bytes 8)

/--
The `switch` over `u8Type`, on the union `uData`.
-/
def attributeData (u8Type : UInt8) (uData : Nat → UInt8) : UInt64 :=
  if u8Type ∈ [E_ZCL_GINT8, E_ZCL_UINT8, E_ZCL_INT8, E_ZCL_ENUM8, E_ZCL_BMAP8, E_ZCL_BOOL,
      E_ZCL_OSTRING, E_ZCL_CSTRING] then
    (uData 0).toUInt64
  else if u8Type ∈ [E_ZCL_LOSTRING, E_ZCL_LCSTRING, E_ZCL_STRUCT, E_ZCL_INT16, E_ZCL_UINT16,
      E_ZCL_ENUM16, E_ZCL_CLUSTER_ID, E_ZCL_ATTRIBUTE_ID] then
    (ntohs uData).toUInt64
  else if u8Type ∈ [E_ZCL_UINT24, E_ZCL_UINT32, E_ZCL_TOD, E_ZCL_DATE, E_ZCL_UTCT,
      E_ZCL_BACNET_OID] then
    (ntohl uData).toUInt64
  else if u8Type = E_ZCL_INT24 then
    let i32Data := (ntohl uData).toInt32
    -- REPAIR/EXTEND SIGN
    ((i32Data <<< 8) >>> 8).toInt64.toUInt64
  else if u8Type ∈ [E_ZCL_UINT40, E_ZCL_UINT48, E_ZCL_UINT56, E_ZCL_UINT64, E_ZCL_IEEE_ADDR] then
    be64toh uData
  else
    -- Unknown attribute data type
    0

/--
The static variables and the tables of the daemon, and the messages in the queue to the DBP daemon.
-/
structure Host extends Plug.State where
  dbp : List Json.Object := []

def Host.update (u : DeviceUpdate) (now : Int) (s : Host) : Host :=
  { s with db := (u.edit.run now now s.db).1 }

/--
`zcbHandleSensor` with the message that is forwarded to DBP.
-/
def teeSensor (mac : Text) (tmp hum als bat batl : Int) (now : Int) (s : Host) : Host :=
  match newDbGetDevice s.db mac with
  | some _ =>
    let s := s.update (.sensor mac tmp hum als bat batl) now
    let message :=
      Json.jsonSensor (-1) mac.1 none (-1) (-1) (Int32.ofInt tmp) (Int32.ofInt hum) (-1) (-1)
        (Int32.ofInt bat) (Int32.ofInt batl) (Int32.ofInt als) Attrs.INT_MIN Attrs.INT_MIN
        Attrs.INT_MIN (-1)
    { s with dbp := s.dbp ++ [message] }
  | none => s

def sendActuatorOnOff (mac : Text) (data : Int) (now : Int) (s : Host) : Host :=
  s.update (.actuator mac (some (if data ≠ 0 then "on" else "off")) (-1)) now

/--
In JSON we specify level from 0-100. In Zigbee, however, level has to be specified from 0-255.
-/
def sendActuatorLevel (mac : Text) (data : Int) (now : Int) (s : Host) : Host :=
  s.update (.actuator mac none (Int.tdiv (Int.bmod (data * 100) (2 ^ 32)) 255)) now

def sendTemperature (mac : Text) (data : Int) (now : Int) (s : Host) : Host :=
  teeSensor mac data (-1) (-1) (-1) (-1) now s

def sendHumidity (mac : Text) (data : Int) (now : Int) (s : Host) : Host :=
  teeSensor mac (-1) data (-1) (-1) (-1) now s

def sendIllumination (mac : Text) (data : Int) (now : Int) (s : Host) : Host :=
  teeSensor mac (-1) (-1) data (-1) (-1) now s

def sendCoolingSetpoint (mac : Text) (data : Int) (now : Int) (s : Host) : Host :=
  s.update (.ui mac Attrs.INT_MIN.toInt data) now

def sendHeatingSetpoint (mac : Text) (data : Int) (now : Int) (s : Host) : Host :=
  s.update (.ui mac data Attrs.INT_MIN.toInt) now

def zcbNodeGetExtendedAddress (shortAddress : UInt16) (db : Db) : UInt64 :=
  match newDbGetZcbSaddr db shortAddress.toNat with
  | some zcb => nibblestr2u64 fun i => zcb.mac.toList.getD i Json.NUL
  | none => 0

/--
The arguments of `handleAttribute`.
-/
structure Attribute where
  u16ShortAddress : UInt16
  u16ClusterID : UInt16
  u16AttributeID : UInt16
  u64Data : UInt64

/--
What an attribute makes of the state. The electrical measurements are only printed.
-/
def handleAttribute (a : Attribute) (clock : Plug.Clock) (s : Host) : Host :=
  let u64IEEEAddress := zcbNodeGetExtendedAddress a.u16ShortAddress s.db
  let mac := Plug.macOf u64IEEEAddress
  let data := (Plug.asInt a.u64Data).toInt
  if u64IEEEAddress = 0 then
    s
  else if a.u16ClusterID = E_ZB_CLUSTERID_ONOFF then
    if a.u16AttributeID = E_ZB_ATTRIBUTEID_ONOFF_ONOFF then
      sendActuatorOnOff mac data clock.setDevice s
    else
      s
  else if a.u16ClusterID = E_ZB_CLUSTERID_LEVEL_CONTROL then
    if a.u16AttributeID = E_ZB_ATTRIBUTEID_LEVEL_CURRENTLEVEL then
      sendActuatorLevel mac data clock.setDevice s
    else
      s
  else if a.u16ClusterID = E_ZB_CLUSTERID_THERMOSTAT then
    if a.u16AttributeID = E_ZB_ATTRIBUTEID_TSTAT_LOCALTEMPERATURE then
      sendTemperature mac data clock.setDevice s
    else if a.u16AttributeID = E_ZB_ATTRIBUTEID_TSTAT_OCCUPIEDCOOLSETPOINT then
      sendCoolingSetpoint mac data clock.setDevice s
    else if a.u16AttributeID = E_ZB_ATTRIBUTEID_TSTAT_OCCUPIEDHEATSETPOINT then
      sendHeatingSetpoint mac data clock.setDevice s
    else
      s
  else if a.u16ClusterID = E_ZB_CLUSTERID_MEASUREMENTSENSING_ILLUM then
    if a.u16AttributeID = E_ZB_ATTRIBUTEID_MS_ILLUM_MEASURED then
      sendIllumination mac data clock.setDevice s
    else
      s
  else if a.u16ClusterID = E_ZB_CLUSTERID_MEASUREMENTSENSING_TEMP then
    if a.u16AttributeID = E_ZB_ATTRIBUTEID_MS_TEMP_MEASURED then
      sendTemperature mac data clock.setDevice s
    else
      s
  else if a.u16ClusterID = E_ZB_CLUSTERID_MEASUREMENTSENSING_HUM then
    if a.u16AttributeID = E_ZB_ATTRIBUTEID_MS_HUM_MEASURED then
      sendHumidity mac data clock.setDevice s
    else
      s
  else if a.u16ClusterID = E_ZB_CLUSTERID_SIMPLE_METERING then
    let r : Plug.Report :=
      { u64IEEEAddress, u16AttributeID := a.u16AttributeID, u64Data := a.u64Data, clock }
    { s with toState := Plug.handleAttribute r s.toState }
  else if a.u16ClusterID = E_ZB_CLUSTERID_OCCUPANCYSENSING then
    if a.u16AttributeID = E_ZB_ATTRIBUTEID_MS_OCC_OCCUPANCY then
      s.update (.occupancy mac data) clock.setDevice
    else
      s
  else
    s

/--
The packed structure that the handler lays over the message.
-/
structure AttributeReport where
  u16ShortAddress : UInt16
  u16ClusterID : UInt16
  u16AttributeID : UInt16
  u8Type : UInt8
  uData : Nat → UInt8

def AttributeReport.ofMessage (pvMessage : Nat → UInt8) : AttributeReport where
  u16ShortAddress := ntohs fun i => pvMessage (1 + i)
  u16ClusterID := ntohs fun i => pvMessage (4 + i)
  u16AttributeID := ntohs fun i => pvMessage (6 + i)
  u8Type := pvMessage 9
  uData i := pvMessage (12 + i)

/--
What `ZCB_HandleAttributeReport` passes on.
-/
def AttributeReport.attribute (r : AttributeReport) : Attribute where
  u16ShortAddress := r.u16ShortAddress
  u16ClusterID := r.u16ClusterID
  u16AttributeID := r.u16AttributeID
  u64Data := attributeData r.u8Type r.uData

def ZCB_HandleAttributeReport (pvMessage : Nat → UInt8) (clock : Plug.Clock) (s : Host) : Host :=
  handleAttribute (AttributeReport.ofMessage pvMessage).attribute clock s

end ZcbDaemon
