import IotGateway.NewDb.Impl.PlugUsage
import IotGateway.ZcbDaemon.Impl.Devices
import IotGateway.ZcbDaemon.Impl.Nodes

/-!
This module contains what the ZCB daemon does with the attributes that smart plugs report. They are
collected in static variables until the demand is reported.
-/

namespace ZcbDaemon.Plug

open NewDb

def E_ZB_ATTRIBUTEID_SM_CURRENT_SUMMATION_DELIVERED : UInt16 := 0x0000
def E_ZB_ATTRIBUTEID_SM_UNIT_OF_MEASURE : UInt16 := 0x0300
def E_ZB_ATTRIBUTEID_SM_MULTIPLIER : UInt16 := 0x0301
def E_ZB_ATTRIBUTEID_SM_DIVISOR : UInt16 := 0x0302
def E_ZB_ATTRIBUTEID_SM_METERING_DEVICE_TYPE : UInt16 := 0x0306
def E_ZB_ATTRIBUTEID_SM_INSTANTANEOUS_DEMAND : UInt16 := 0x0400

def E_CLD_SM_MDT_ELECTRIC : UInt64 := 0x00

def E_CLD_SM_UOM_KILO_WATTS : UInt64 := 0x00
def E_CLD_SM_UOM_KILO_WATTS_BCD : UInt64 := 0x80

/--
The static variables. A type or unit of -1 has not been reported.
-/
structure Meter where
  eSummationDelivered : UInt64 := 0
  eInstantaneousDemand : UInt64 := 0
  eMeteringDeviceType : UInt64 := -1
  eUnitOfMeasure : UInt64 := -1
  eMultiplier : UInt64 := 0
  eDivisor : UInt64 := 0
  deriving DecidableEq

/--
The cast to `int`
-/
def asInt (value : UInt64) : Int32 := value.toUInt32.toInt32

/--
An `int` that is assigned to an `uint64_t`.
-/
def extended (value : UInt64) : UInt64 := (asInt value).toInt64.toUInt64

/--
The loop over the twelve digits.
-/
def bcdDigits (eSummationDelivered : UInt64) : UInt64 :=
  (List.range (48 / 4)).foldl (fun eSumDeliv i =>
    let digit := (eSummationDelivered >>> (i * 4).toUInt64) &&& 0xF
    let digit := if 9 < digit then 0 else digit
    if i = 0 then eSumDeliv + digit else eSumDeliv + digit * (i * 10).toUInt64) 0

/--
A value in Watt or Watt/hour
-/
def Meter.scaled (m : Meter) (value : UInt64) : UInt64 :=
  let value := value * m.eMultiplier * 1000 / m.eDivisor
  if (asInt value).toInt < 0 then 0 else value

/--
What `handlePlugData` computes, if the variables are those of an electricity meter: the `int` values
of `eInstDemand` and `eSumDeliv`.
-/
def Meter.reading (m : Meter) : Option (Int × Int) :=
  if m.eMeteringDeviceType = E_CLD_SM_MDT_ELECTRIC
      ∧ (m.eUnitOfMeasure = E_CLD_SM_UOM_KILO_WATTS
        ∨ m.eUnitOfMeasure = E_CLD_SM_UOM_KILO_WATTS_BCD) then
    -- Must have received multipler and divisor first before we start reporting
    if m.eMultiplier = 0 then
      none
    else if m.eDivisor = 0 then
      none
    else
      let eSumDeliv :=
        if m.eUnitOfMeasure = E_CLD_SM_UOM_KILO_WATTS_BCD then
          bcdDigits m.eSummationDelivered
        else
          m.eSummationDelivered
      some ((asInt (m.scaled m.eInstantaneousDemand)).toInt, (asInt (m.scaled eSumDeliv)).toInt)
  else
    none

theorem u642nibblestr_ne_empty (u64 : UInt64) : u642nibblestr u64 ≠ "" := by
  intro h
  have hlist := congrArg String.toList h
  simp [u642nibblestr, nibbles] at hlist

def macOf (u64IEEEAddress : UInt64) : Text :=
  ⟨u642nibblestr u64IEEEAddress, u642nibblestr_ne_empty u64IEEEAddress⟩

/--
What the clock shows in the calls of one report.
-/
structure Clock where
  setDevice : Int
  now : Int
  getPlugHist : Int
  setPlugHist : Int
  delete : Nat → Int

/--
The reading goes to the device, if there is one (no auto-insert), and to the history.
-/
def store (mac : Text) (eInstDemand eSumDeliv : Int) (clock : Clock) (cleanupCnt : Int) (db : Db)
    : Int × Db :=
  match newDbGetDevice db mac with
  | none => (cleanupCnt, db)
  | some device =>
    let device := (ZcbDaemon.handlePlugData mac eInstDemand eSumDeliv).found.apply device
    let db := (newDbSetDevice db device clock.setDevice).1
    match newDbGetMatchingOrNewPlugHist db mac (Int.tdiv clock.now 60) clock.getPlugHist with
    | (db, none) => (cleanupCnt, db)
    | (db, some plughist) =>
      let db := (newDbSetPlugHist db { plughist with sum := eSumDeliv } clock.setPlugHist).1
      -- Clean history entries older than one day
      if cleanupCnt < 0 then
        match plugHistoryCleanup mac clock.now clock.delete db with
        | (db, true) => (25, db)
        | (db, false) => (cleanupCnt - 1, db)
      else
        (cleanupCnt - 1, db)

/--
`cleanupCnt` is static.
-/
def handlePlugData (u64IEEEAddress : UInt64) (m : Meter) (clock : Clock) (cleanupCnt : Int) (db : Db)
    : Int × Db :=
  match m.reading with
  | none => (cleanupCnt, db)
  | some (eInstDemand, eSumDeliv) =>
    store (macOf u64IEEEAddress) eInstDemand eSumDeliv clock cleanupCnt db

/--
The variables after an attribute of the cluster `E_ZB_CLUSTERID_SIMPLE_METERING`.
-/
def Meter.assign (m : Meter) (u16AttributeID : UInt16) (u64Data : UInt64) : Meter :=
  if u16AttributeID = E_ZB_ATTRIBUTEID_SM_METERING_DEVICE_TYPE then
    { m with eMeteringDeviceType := extended u64Data }
  else if u16AttributeID = E_ZB_ATTRIBUTEID_SM_UNIT_OF_MEASURE then
    { m with eUnitOfMeasure := extended u64Data }
  else if u16AttributeID = E_ZB_ATTRIBUTEID_SM_MULTIPLIER then
    { m with eMultiplier := extended u64Data }
  else if u16AttributeID = E_ZB_ATTRIBUTEID_SM_DIVISOR then
    { m with eDivisor := extended u64Data }
  else if u16AttributeID = E_ZB_ATTRIBUTEID_SM_CURRENT_SUMMATION_DELIVERED then
    { m with eSummationDelivered := extended u64Data }
  else if u16AttributeID = E_ZB_ATTRIBUTEID_SM_INSTANTANEOUS_DEMAND then
    { m with eInstantaneousDemand := extended u64Data }
  else
    m

/--
An attribute of a node whose address is known.
-/
structure Report where
  u64IEEEAddress : UInt64
  u16AttributeID : UInt16
  u64Data : UInt64
  clock : Clock

structure State where
  meter : Meter := {}
  cleanupCnt : Int := 0
  db : Db

/--
This implementation assumes that the demand is always sent by a plug and handled as the last
attribute from the incoming message.
-/
def handleAttribute (r : Report) (s : State) : State :=
  let meter := s.meter.assign r.u16AttributeID r.u64Data
  if r.u16AttributeID = E_ZB_ATTRIBUTEID_SM_INSTANTANEOUS_DEMAND then
    let (cleanupCnt, db) := handlePlugData r.u64IEEEAddress meter r.clock s.cleanupCnt s.db
    { meter, cleanupCnt, db }
  else
    { s with meter }

end ZcbDaemon.Plug
