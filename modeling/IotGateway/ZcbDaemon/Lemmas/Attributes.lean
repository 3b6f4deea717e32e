import IotGateway.NewDb.Lemmas.Tables
import IotGateway.ZcbDaemon.Impl.Attributes

/-!
This module contains proofs about the attribute reports: which values are read from a message as they
were written into it, and which temperatures reach the tables.
-/

namespace ZcbDaemon

open NewDb Table

/--
The types of `teZCL_ZCLAttributeType` that the handler knows.
-/
inductive ZclType where
  | gint8
  | uint8
  | int8
  | enum8
  | bmap8
  | bool
  | ostring
  | cstring
  | lostring
  | lcstring
  | struct
  | int16
  | uint16
  | enum16
  | clusterId
  | attributeId
  | uint24
  | uint32
  | tod
  | date
  | utct
  | bacnetOid
  | int24
  | uint40
  | uint48
  | uint56
  | uint64
  | ieeeAddr
  deriving DecidableEq

namespace ZclType

def code : ZclType → UInt8
  | gint8 => E_ZCL_GINT8
  | uint8 => E_ZCL_UINT8
  | int8 => E_ZCL_INT8
  | enum8 => E_ZCL_ENUM8
  | bmap8 => E_ZCL_BMAP8
  | bool => E_ZCL_BOOL
  | ostring => E_ZCL_OSTRING
  | cstring => E_ZCL_CSTRING
  | lostring => E_ZCL_LOSTRING
  | lcstring => E_ZCL_LCSTRING
  | struct => E_ZCL_STRUCT
  | int16 => E_ZCL_INT16
  | uint16 => E_ZCL_UINT16
  | enum16 => E_ZCL_ENUM16
  | clusterId => E_ZCL_CLUSTER_ID
  | attributeId => E_ZCL_ATTRIBUTE_ID
  | uint24 => E_ZCL_UINT24
  | uint32 => E_ZCL_UINT32
  | tod => E_ZCL_TOD
  | date => E_ZCL_DATE
  | utct => E_ZCL_UTCT
  | bacnetOid => E_ZCL_BACNET_OID
  | int24 => E_ZCL_INT24
  | uint40 => E_ZCL_UINT40
  | uint48 => E_ZCL_UINT48
  | uint56 => E_ZCL_UINT56
  | uint64 => E_ZCL_UINT64
  | ieeeAddr => E_ZCL_IEEE_ADDR

/--
The number of bytes of the union that the case of the handler uses. Of a string or a structure this
is its length.
-/
def container : ZclType → Nat
  | gint8 | uint8 | int8 | enum8 | bmap8 | bool | ostring | cstring => 1
  | lostring | lcstring | struct | int16 | uint16 | enum16 | clusterId | attributeId => 2
  | uint24 | uint32 | tod | date | utct | bacnetOid | int24 => 4
  | uint40 | uint48 | uint56 | uint64 | ieeeAddr => 8

def bits : ZclType → Nat
  | uint24 | int24 => 24
  | uint40 => 40
  | uint48 => 48
  | uint56 => 56
  | type => 8 * type.container

def signed (type : ZclType) : Bool := type = int8 || type = int16 || type = int24

/--
The values of the type.
-/
def Values (type : ZclType) (v : Int) : Prop :=
  if type.signed then
    -2 ^ (type.bits - 1) ≤ v ∧ v < 2 ^ (type.bits - 1)
  else
    0 ≤ v ∧ v < 2 ^ type.bits

/--
The container has the value `v` in it. What is in the first byte in front of an `INT24` is left open.
-/
def Carries (type : ZclType) (v : Int) (uData : Nat → UInt8) : Prop :=
  if type = int24 then
    (bigEndian uData 4 : Int) % 2 ^ 24 = v % 2 ^ 24
  else
    (bigEndian uData type.container : Int) = v % 2 ^ (8 * type.container)

end ZclType

theorem bigEndian_lt (bytes : Nat → UInt8) (n : Nat) : bigEndian bytes n < 2 ^ (8 * n) := by
  induction n with
  | zero => exact Nat.one_pos
  | succ n ih =>
    have hbyte := (bytes n).toNat_lt
    have hpow : 2 ^ (8 * (n + 1)) = 2 ^ (8 * n) * 2 ^ 8 := by rw [Nat.mul_succ, Nat.pow_add]
    rw [bigEndian, hpow]
    omega

theorem ntohs_toNat (bytes : Nat → UInt8) : (ntohs bytes).toUInt64.toNat = bigEndian bytes 2 := by
  have hlt : bigEndian bytes 2 < 2 ^ 16 := bigEndian_lt bytes 2
  rw [UInt16.toNat_toUInt64, ntohs, UInt16.toNat_ofNat', Nat.mod_eq_of_lt hlt]

theorem ntohl_toNat (bytes : Nat → UInt8) : (ntohl bytes).toNat = bigEndian bytes 4 := by
  have hlt : bigEndian bytes 4 < 2 ^ 32 := bigEndian_lt bytes 4
  rw [ntohl, UInt32.toNat_ofNat', Nat.mod_eq_of_lt hlt]

theorem be64toh_toNat (bytes : Nat → UInt8) : (be64toh bytes).toNat = bigEndian bytes 8 := by
  have hlt : bigEndian bytes 8 < 2 ^ 64 := bigEndian_lt bytes 8
  rw [be64toh, UInt64.toNat_ofNat', Nat.mod_eq_of_lt hlt]

theorem byte_toNat (bytes : Nat → UInt8) : (bytes 0).toUInt64.toNat = bigEndian bytes 1 := by
  rw [UInt8.toNat_toUInt64, bigEndian, bigEndian, Nat.zero_mul, Nat.zero_add]

/--
The types whose containers are read as unsigned numbers.
-/
theorem attributeData_toNat {type : ZclType} (htype : type ≠ .int24) (uData : Nat → UInt8)
    : (attributeData type.code uData).toNat = bigEndian uData type.container := by
  cases type with
  | int24 => exact absurd rfl htype
  | gint8 | uint8 | int8 | enum8 | bmap8 | bool | ostring | cstring => exact byte_toNat uData
  | lostring | lcstring | struct | int16 | uint16 | enum16 | clusterId | attributeId =>
    exact ntohs_toNat uData
  | uint24 | uint32 | tod | date | utct | bacnetOid =>
    exact (UInt32.toNat_toUInt64 _).trans (ntohl_toNat uData)
  | uint40 | uint48 | uint56 | uint64 | ieeeAddr => exact be64toh_toNat uData

/--
Shifting to the left and back repeats the sign of the lower 24 bits.
-/
theorem shift_toInt (x : Int32) : ((x <<< 8) >>> 8).toInt = Int.bmod x.toInt (2 ^ 24) := by
  have hleft : (x <<< 8).toInt = Int.bmod (x.toInt * 2 ^ 8) (2 ^ 32) := by
    have hbits : (x <<< 8).toBitVec = x.toBitVec <<< 8 := rfl
    rw [← Int32.toInt_toBitVec, hbits, BitVec.toInt_shiftLeft, ← Int32.toInt_toBitVec,
      Nat.shiftLeft_eq, BitVec.toInt_eq_toNat_bmod, Int.bmod_mul_bmod, Int.natCast_mul]
    rfl
  have hright (y : Int32) : (y >>> 8).toInt = y.toInt / 2 ^ 8 := by
    have hbits : (y >>> 8).toBitVec = y.toBitVec.sshiftRight 8 := rfl
    rw [← Int32.toInt_toBitVec, hbits, BitVec.toInt_sshiftRight, Int32.toInt_toBitVec,
      Int.shiftRight_eq_div_pow]
    rfl
  rw [hright, hleft]
  simp only [Int.bmod_def]
  omega

theorem toInt32_toInt (x : UInt32) : x.toInt32.toInt = Int.bmod x.toNat (2 ^ 32) := by
  rw [← Int32.toInt_toBitVec, BitVec.toInt_eq_toNat_bmod]
  rfl

theorem toUInt64_toNat (x : Int64) : (x.toUInt64.toNat : Int) = x.toInt % 2 ^ 64 := by
  have hlt := x.toBitVec.isLt
  rw [← Int64.toInt_toBitVec, BitVec.toInt_eq_toNat_bmod, Int.bmod_def]
  show (x.toBitVec.toNat : Int) = _
  omega

theorem attributeData_int24 (uData : Nat → UInt8)
    : ((attributeData E_ZCL_INT24 uData).toNat : Int)
        = Int.bmod (bigEndian uData 4) (2 ^ 24) % 2 ^ 64 := by
  show ((((ntohl uData).toInt32 <<< 8) >>> 8).toInt64.toUInt64.toNat : Int) = _
  rw [toUInt64_toNat, Int32.toInt_toInt64, shift_toInt, toInt32_toInt, ntohl_toNat]
  simp only [Int.bmod_def]
  omega

theorem eq_ofInt_iff {x : UInt64} {v : Int} : x = UInt64.ofInt v ↔ (x.toNat : Int) = v % 2 ^ 64 := by
  have hlt : (v % 2 ^ 64).toNat < 2 ^ 64 := by omega
  rw [← UInt64.toNat_inj, UInt64.ofInt, UInt64.toNat_ofNat', Nat.mod_eq_of_lt hlt]
  omega

namespace ZclType

theorem bits_le (type : ZclType) : type.bits ≤ 8 * type.container ∧ 8 * type.container ≤ 64 := by
  cases type <;> decide

theorem Values.lt {type : ZclType} {v : Int} (h : type.Values v) {n : Nat} (hn : type.bits ≤ n)
    : v < 2 ^ n := by
  have hpow {k : Nat} (hk : k ≤ n) : (2 : Int) ^ k ≤ 2 ^ n := by
    exact_mod_cast Nat.pow_le_pow_right (by decide) hk
  unfold Values at h
  split at h
  . exact Int.lt_of_lt_of_le h.2 (hpow (by omega))
  . exact Int.lt_of_lt_of_le h.2 (hpow hn)

theorem Values.signed {type : ZclType} {v : Int} (h : type.Values v) (hneg : v < 0)
    : type.signed = true := by
  unfold Values at h
  split at h
  . assumption
  . omega

end ZclType

/--
A value is read as it is, but for the negative ones of one or two bytes.
-/
theorem attributeData_iff {type : ZclType} {v : Int} {uData : Nat → UInt8} (hv : type.Values v)
    (hcarries : type.Carries v uData)
    : attributeData type.code uData = UInt64.ofInt v
        ↔ ¬ ((type = .int8 ∨ type = .int16) ∧ v < 0) := by
  rw [eq_ofInt_iff]
  by_cases hint24 : type = .int24
  . subst hint24
    have hv : -2 ^ 23 ≤ v ∧ v < 2 ^ 23 := hv
    have hcarries : (bigEndian uData 4 : Int) % 2 ^ 24 = v % 2 ^ 24 := hcarries
    have hbmod : Int.bmod (bigEndian uData 4) (2 ^ 24) = v := by
      rw [Int.bmod_def]
      omega
    rw [show ZclType.int24.code = E_ZCL_INT24 from rfl, attributeData_int24, hbmod]
    simp
  . have hcontainer : (bigEndian uData type.container : Int) = v % 2 ^ (8 * type.container) := by
      rwa [ZclType.Carries, if_neg hint24] at hcarries
    rw [attributeData_toNat hint24, hcontainer]
    by_cases hneg : v < 0
    . have hsigned := hv.signed hneg
      simp only [ZclType.signed, Bool.or_eq_true, decide_eq_true_eq, hint24, or_false] at hsigned
      apply iff_of_false
      . rcases hsigned with rfl | rfl
        . have hv : -2 ^ 7 ≤ v ∧ v < 2 ^ 7 := hv
          show v % 2 ^ 8 ≠ v % 2 ^ 64
          omega
        . have hv : -2 ^ 15 ≤ v ∧ v < 2 ^ 15 := hv
          show v % 2 ^ 16 ≠ v % 2 ^ 64
          omega
      . exact not_not_intro ⟨hsigned, hneg⟩
    . obtain ⟨hbits, hcontainer⟩ := type.bits_le
      have hlt : v < 2 ^ (8 * type.container) := hv.lt hbits
      have hlt64 : v < 2 ^ 64 := hv.lt (hbits.trans hcontainer)
      rw [Int.emod_eq_of_lt (by omega) hlt, Int.emod_eq_of_lt (by omega) hlt64]
      simp [hneg]

/--
A report of the temperature `t` by the thermostat or the temperature sensor of a node.
-/
structure ReportsTemperature (r : AttributeReport) (t : Int) : Prop where
  source : r.u16ClusterID = E_ZB_CLUSTERID_THERMOSTAT
        ∧ r.u16AttributeID = E_ZB_ATTRIBUTEID_TSTAT_LOCALTEMPERATURE
      ∨ r.u16ClusterID = E_ZB_CLUSTERID_MEASUREMENTSENSING_TEMP
        ∧ r.u16AttributeID = E_ZB_ATTRIBUTEID_MS_TEMP_MEASURED
  type : r.u8Type = E_ZCL_INT16
  values : ZclType.int16.Values t
  carries : ZclType.int16.Carries t r.uData

/--
The node is in the node table, and the device with its MAC address in the device table.
-/
def KnownAs (s : Host) (r : AttributeReport) (mac : Text) : Prop :=
  ∃ u64IEEEAddress device, zcbNodeGetExtendedAddress r.u16ShortAddress s.db = u64IEEEAddress
    ∧ u64IEEEAddress ≠ 0 ∧ Plug.macOf u64IEEEAddress = mac ∧ newDbGetDevice s.db mac = some device

/--
The temperature is in the device table, and in the message that has been sent to DBP.
-/
structure Stored (mac : Text) (t : Int) (s s' : Host) : Prop where
  device : ∃ device, newDbGetDevice s'.db mac = some device ∧ device.tmp = t
  message : ∃ message, s'.dbp = s.dbp ++ [message]
    ∧ Json.int "tmp" (Int32.ofInt t) ∈ message.members

theorem asInt_toInt {value : UInt64} (h : value.toNat < 2 ^ 31)
    : (Plug.asInt value).toInt = value.toNat := by
  have hlow : value.toUInt32.toNat = value.toNat := by
    rw [UInt64.toNat_toUInt32]
    exact Nat.mod_eq_of_lt (by omega)
  rw [Plug.asInt, toInt32_toInt, hlow, Int.bmod_def]
  omega

theorem handleAttribute_temperature {s : Host} {r : AttributeReport} {t : Int} {mac : Text}
    (hknown : KnownAs s r mac) (hreport : ReportsTemperature r t) (clock : Plug.Clock)
    : handleAttribute r.attribute clock s = sendTemperature mac (t % 2 ^ 16) clock.setDevice s := by
  obtain ⟨u64IEEEAddress, device, haddress, hne, hmac, -⟩ := hknown
  have hcarries : (bigEndian r.uData 2 : Int) = t % 2 ^ 16 := hreport.carries
  have htoNat : (attributeData r.u8Type r.uData).toNat = bigEndian r.uData 2 := by
    rw [hreport.type]
    exact ntohs_toNat r.uData
  have hdata : (Plug.asInt (attributeData r.u8Type r.uData)).toInt = t % 2 ^ 16 := by
    rw [asInt_toInt (by omega), htoNat, hcarries]
  simp only [handleAttribute, AttributeReport.attribute, haddress, hdata, hmac]
  rw [if_neg hne]
  rcases hreport.source with ⟨hcluster, hattribute⟩ | ⟨hcluster, hattribute⟩
  . rw [hcluster, hattribute, if_neg (by decide), if_neg (by decide), if_pos rfl, if_pos rfl]
  . rw [hcluster, hattribute, if_neg (by decide), if_neg (by decide), if_neg (by decide),
      if_neg (by decide), if_pos rfl, if_pos rfl]

/--
A temperature that is not negative is stored and sent as it is.
-/
theorem sendTemperature_spec {s : Host} (hindexed : Indexed s.db) {mac : Text} {tmp : Int}
    (htmp : 0 ≤ tmp) (htmp' : tmp < 2 ^ 31) (hknown : ∃ device, newDbGetDevice s.db mac = some device)
    (now : Int)
    : Stored mac tmp s (sendTemperature mac tmp now s) := by
  obtain ⟨device, hdevice⟩ := hknown
  obtain ⟨i, hrow, -⟩ := newDbGetDevice_eq_some_iff.mp hdevice
  obtain ⟨-, hwritten⟩ := Edit.run_found (zcbHandleSensor mac tmp (-1) (-1) (-1) (-1)) now now hindexed
    hrow rfl
  rw [sendTemperature, teeSensor]
  simp only [hdevice]
  refine ⟨⟨_, newDbGetDevice_eq_some_iff.mpr ⟨i, hwritten.row, rfl⟩, ?_⟩, _, rfl, ?_⟩
  . show (((zcbHandleSensor mac tmp (-1) (-1) (-1) (-1)).run now now s.db).1.devices i).tmp = tmp
    rw [hwritten.device]
    exact if_pos htmp
  . have hpos : 0 ≤ Int32.ofInt tmp := by
      rw [Int32.le_iff_toInt_le, Int32.toInt_ofInt_of_le (by omega) htmp']
      exact htmp
    have hmem : Json.int "tmp" (Int32.ofInt tmp)
        ∈ Json.ifInt (0 ≤ Int32.ofInt tmp) "tmp" (Int32.ofInt tmp) := by
      rw [Json.ifInt, if_pos (decide_eq_true hpos)]
      exact List.mem_singleton_self _
    simp only [Json.jsonSensor, List.mem_append, hmem, true_or, or_true]

theorem reachable_indexed (ms : List Mutation) : Indexed (ms.foldl Mutation.apply Db.init) := by
  induction ms using List.reverseRecOn with
  | nil => exact Db.init_indexed
  | append_singleton ms m ih =>
    rw [List.foldl_append]
    exact ih.apply m

/--
The values that come through as they were reported are all but the negative ones of one or two bytes,
and so negative temperatures do not. In the tables they have 65536 added to them.
-/
theorem attributeReport_iff (pvMessage : Nat → UInt8) {s : Host} {ms : List Mutation}
    (hreach : s.db = ms.foldl Mutation.apply Db.init)
    : (∀ type v, (AttributeReport.ofMessage pvMessage).u8Type = ZclType.code type → type.Values v →
        type.Carries v (AttributeReport.ofMessage pvMessage).uData →
        ((AttributeReport.ofMessage pvMessage).attribute.u64Data = UInt64.ofInt v
          ↔ ¬ ((type = .int8 ∨ type = .int16) ∧ v < 0)))
      ∧ ∀ mac t clock, KnownAs s (AttributeReport.ofMessage pvMessage) mac →
        ReportsTemperature (AttributeReport.ofMessage pvMessage) t →
        (Stored mac t s (ZCB_HandleAttributeReport pvMessage clock s) ↔ 0 ≤ t) := by
  have hindexed : Indexed s.db := hreach ▸ reachable_indexed ms
  constructor
  . intro type v htype hv hcarries
    rw [AttributeReport.attribute, htype]
    exact attributeData_iff hv hcarries
  . intro mac t clock hknown hreport
    have hvalues : -2 ^ 15 ≤ t ∧ t < 2 ^ 15 := hreport.values
    have hdevice : ∃ device, newDbGetDevice s.db mac = some device := by
      obtain ⟨-, device, -, -, -, hdevice⟩ := hknown
      exact ⟨device, hdevice⟩
    have hstored : Stored mac (t % 2 ^ 16) s (ZCB_HandleAttributeReport pvMessage clock s) := by
      rw [ZCB_HandleAttributeReport, handleAttribute_temperature hknown hreport]
      exact sendTemperature_spec hindexed (by omega) (by omega) hdevice _
    constructor
    . intro h
      obtain ⟨device, hget, htmp⟩ := hstored.device
      obtain ⟨device', hget', htmp'⟩ := h.device
      rw [hget] at hget'
      cases hget'
      omega
    . intro hpos
      rwa [Int.emod_eq_of_lt hpos (by omega)] at hstored

/--
A node that has been registered, and its device.
-/
def thermometer : Db :=
  let mac := "00158D0000000001"
  [Mutation.newZcb mac 1, .setZcb { id := 0, mac, status := .joined, saddr := 0x1234 } 2,
    .newDevice mac 3].foldl Mutation.apply Db.init

/--
The report of a temperature by the node with the short address 0x1234.
-/
def temperatureReport (high low : UInt8) (i : Nat) : UInt8 :=
  [0x01, 0x12, 0x34, 0x01, 0x04, 0x02, 0x00, 0x00, 0x00, 0x29, 0x00, 0x02, high, low].getD i 0

def thermometerMac : Text := Plug.macOf 0x00158D0000000001

theorem temperatureReport_address (high low : UInt8)
    : (AttributeReport.ofMessage (temperatureReport high low)).u16ShortAddress = 0x1234 := by
  show UInt16.ofNat ((0 * 256 + (0x12 : UInt8).toNat) * 256 + (0x34 : UInt8).toNat) = 0x1234
  decide

theorem temperatureReport_cluster (high low : UInt8)
    : (AttributeReport.ofMessage (temperatureReport high low)).u16ClusterID = 0x0402 := by
  show UInt16.ofNat ((0 * 256 + (0x04 : UInt8).toNat) * 256 + (0x02 : UInt8).toNat) = 0x0402
  decide

theorem temperatureReport_attribute (high low : UInt8)
    : (AttributeReport.ofMessage (temperatureReport high low)).u16AttributeID = 0x0000 := by
  show UInt16.ofNat ((0 * 256 + (0x00 : UInt8).toNat) * 256 + (0x00 : UInt8).toNat) = 0x0000
  decide

theorem temperatureReport_known (high low : UInt8)
    : KnownAs { db := thermometer } (AttributeReport.ofMessage (temperatureReport high low))
        thermometerMac := by
  have haddress : zcbNodeGetExtendedAddress 0x1234 thermometer = 0x00158D0000000001 := by
    decide
  have hdevice : (newDbGetDevice thermometer thermometerMac).isSome := by
    decide
  obtain ⟨device, hdevice⟩ := Option.isSome_iff_exists.mp hdevice
  refine ⟨0x00158D0000000001, device, ?_, by decide, rfl, hdevice⟩
  rw [temperatureReport_address]
  exact haddress

theorem temperatureReport_reports {t : Int} {high low : UInt8} (ht : -2 ^ 15 ≤ t ∧ t < 2 ^ 15)
    (hbytes : ((high.toNat * 256 + low.toNat : Nat) : Int) = t % 2 ^ 16)
    : ReportsTemperature (AttributeReport.ofMessage (temperatureReport high low)) t := by
  constructor
  . exact .inr ⟨temperatureReport_cluster high low, temperatureReport_attribute high low⟩
  . rfl
  . exact ht
  . show ((((0 * 256 + high.toNat) * 256 + low.toNat : Nat)) : Int) = t % 2 ^ 16
    rw [Nat.zero_mul, Nat.zero_add]
    exact hbytes

def noon : Plug.Clock where
  setDevice := 43200
  now := 43200
  getPlugHist := 43200
  setPlugHist := 43200
  delete _ := 43200

theorem temperatureReport_stored
    : Stored thermometerMac 2000 { db := thermometer }
        (ZCB_HandleAttributeReport (temperatureReport 0x07 0xd0) noon { db := thermometer })
      ↔ 0 ≤ (2000 : Int) :=
  (attributeReport_iff (temperatureReport 0x07 0xd0) (s := { db := thermometer }) rfl).2
    thermometerMac 2000 noon (temperatureReport_known _ _)
    (temperatureReport_reports (by decide) (by decide))

/--
Five degrees below zero.
-/
theorem temperatureReport_not_stored
    : (KnownAs { db := thermometer } (.ofMessage (temperatureReport 0xfe 0x0c)) thermometerMac
        ∧ ReportsTemperature (.ofMessage (temperatureReport 0xfe 0x0c)) (-500))
      ∧ (AttributeReport.ofMessage (temperatureReport 0xfe 0x0c)).attribute.u64Data
          ≠ UInt64.ofInt (-500)
      ∧ ¬ Stored thermometerMac (-500) { db := thermometer }
          (ZCB_HandleAttributeReport (temperatureReport 0xfe 0x0c) noon { db := thermometer }) := by
  have hknown := temperatureReport_known 0xfe 0x0c
  have hreports : ReportsTemperature (.ofMessage (temperatureReport 0xfe 0x0c)) (-500) :=
    temperatureReport_reports (by decide) (by decide)
  refine ⟨⟨hknown, hreports⟩, by decide, ?_⟩
  intro h
  obtain ⟨device, hget, htmp⟩ := h.device
  have hstored : (newDbGetDevice (ZCB_HandleAttributeReport (temperatureReport 0xfe 0x0c) noon
      { db := thermometer }).db thermometerMac).map Device.tmp = some 65036 := by
    decide +kernel
  rw [hget, Option.map_some, htmp] at hstored
  cases hstored

end ZcbDaemon
