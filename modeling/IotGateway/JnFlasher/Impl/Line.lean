import IotGateway.JnFlasher.Impl.BootLoader

/-!
This module contains the serial line to the bootloader of the device, and the requests over it. The
device serves what the host writes, and the host finds what the device sends piece by piece.
-/

namespace JnFlasher

namespace Line

open BootLoader

def E_BL_MSG_TYPE_SET_CS_REQUEST : UInt8 := 0x05
def E_BL_MSG_TYPE_SET_CS_RESPONSE : UInt8 := 0x06
def E_BL_MSG_TYPE_FLASH_ERASE_REQUEST : UInt8 := 0x07
def E_BL_MSG_TYPE_FLASH_ERASE_RESPONSE : UInt8 := 0x08
def E_BL_MSG_TYPE_FLASH_PROGRAM_REQUEST : UInt8 := 0x09
def E_BL_MSG_TYPE_FLASH_PROGRAM_RESPONSE : UInt8 := 0x0a
def E_BL_MSG_TYPE_FLASH_WRITE_PRG_REGISTER_REQUEST : UInt8 := 0x0f
def E_BL_MSG_TYPE_FLASH_WRITE_PRG_REGISTER_RESPONSE : UInt8 := 0x10
def E_BL_MSG_TYPE_RESET_REQUEST : UInt8 := 0x14
def E_BL_MSG_TYPE_RESET_RESPONSE : UInt8 := 0x15
def E_BL_MSG_TYPE_RAM_WRITE_REQUEST : UInt8 := 0x1d
def E_BL_MSG_TYPE_RAM_WRITE_RESPONSE : UInt8 := 0x1e
def E_BL_MSG_TYPE_RAM_RUN_REQUEST : UInt8 := 0x21
def E_BL_MSG_TYPE_RAM_RUN_RESPONSE : UInt8 := 0x22
def E_BL_MSG_TYPE_FLASH_READ_ID_REQUEST : UInt8 := 0x25
def E_BL_MSG_TYPE_FLASH_READ_ID_RESPONSE : UInt8 := 0x26
def E_BL_MSG_TYPE_SET_BAUD_REQUEST : UInt8 := 0x27
def E_BL_MSG_TYPE_SET_BAUD_RESPONSE : UInt8 := 0x28
def E_BL_MSG_TYPE_FLASH_SELECT_TYPE_REQUEST : UInt8 := 0x2c
def E_BL_MSG_TYPE_FLASH_SELECT_TYPE_RESPONSE : UInt8 := 0x2d
def E_BL_MSG_TYPE_GET_CHIPID_REQUEST : UInt8 := 0x32
def E_BL_MSG_TYPE_GET_CHIPID_RESPONSE : UInt8 := 0x33
def E_BL_MSG_TYPE_PDM_ERASE_REQUEST : UInt8 := 0x36
def E_BL_MSG_TYPE_PDM_ERASE_RESPONSE : UInt8 := 0x37
def E_BL_MSG_TYPE_PROGRAM_INDEX_SECTOR_REQUEST : UInt8 := 0x38
def E_BL_MSG_TYPE_PROGRAM_INDEX_SECTOR_RESPONSE : UInt8 := 0x39
def E_BL_MSG_TYPE_EEPROM_READ_REQUEST : UInt8 := 0x3A
def E_BL_MSG_TYPE_EEPROM_READ_RESPONSE : UInt8 := 0x3B
def E_BL_MSG_TYPE_EEPROM_WRITE_REQUEST : UInt8 := 0x3C
def E_BL_MSG_TYPE_EEPROM_WRITE_RESPONSE : UInt8 := 0x3D

/--
`tsBL_FlashDevice`. The size of the internal flash is not in the table.
-/
structure FlashDevice where
  u8ManufacturerID : UInt8
  u8DeviceID : UInt8
  u8FlashType : UInt8
  pcFlashName : Option String := none
  u32FlashSize : UInt32 := 0
  deriving DecidableEq

def FLASH_MANUFACTURER_JN516X : UInt8 := 0xCC
def FLASH_DEVICE_JN516X : UInt8 := 0xEE

def asFlashDevices : List FlashDevice :=
  [ { u8ManufacturerID := 0x05, u8DeviceID := 0x05, u8FlashType := 4
      pcFlashName := some "SPI flash ST M25P05-A", u32FlashSize := 64 * 1024 },
    { u8ManufacturerID := 0x10, u8DeviceID := 0x10, u8FlashType := 0
      pcFlashName := some "SPI flash ST M25P10-A", u32FlashSize := 128 * 1024 },
    { u8ManufacturerID := 0x11, u8DeviceID := 0x11, u8FlashType := 5
      pcFlashName := some "SPI flash ST M25P20-A", u32FlashSize := 256 * 1024 },
    { u8ManufacturerID := 0x12, u8DeviceID := 0x12, u8FlashType := 3
      pcFlashName := some "SPI flash ST M25P40", u32FlashSize := 512 * 1024 },
    { u8ManufacturerID := 0xBF, u8DeviceID := 0x49, u8FlashType := 1
      pcFlashName := some "SPI flash SST 25VF010A", u32FlashSize := 128 * 1024 },
    { u8ManufacturerID := 0x1F, u8DeviceID := 0x60, u8FlashType := 2
      pcFlashName := some "SPI flash Atmel 25F512", u32FlashSize := 512 * 1024 },
    { u8ManufacturerID := FLASH_MANUFACTURER_JN516X, u8DeviceID := FLASH_DEVICE_JN516X
      u8FlashType := 8 } ]

/--
How the device serves bytes that are written, and what becomes of the calls on the UART, by number:
a read fails or finds at most so many bytes, and a write may fail after some of its bytes.
-/
structure World (σ : Type) where
  serve : σ → List UInt8 → σ × List UInt8
  read : Nat → Option Nat
  writeFails : Nat → Option Nat

/--
The device, what it has sent and the host has not read yet, and the calls on the UART so far.
-/
structure State (σ : Type) where
  device : σ
  received : List UInt8 := []
  calls : Nat := 0

variable {σ : Type} (world : World σ)

def eUART_Write (pu8Data : List UInt8) : StateM (State σ) Bool := fun s =>
  let written :=
    match world.writeFails s.calls with
    | none => pu8Data
    | some count => pu8Data.take count
  let (device, sent) := world.serve s.device written
  ((world.writeFails s.calls).isNone,
    { device, received := s.received ++ sent, calls := s.calls + 1 })

def eUART_Read (iBufferLen : Nat) : StateM (State σ) (Option (List UInt8)) := fun s =>
  match world.read s.calls with
  | none => (none, { s with calls := s.calls + 1 })
  | some count =>
    (some (s.received.take (min count iBufferLen)),
      { s with received := s.received.drop (min count iBufferLen), calls := s.calls + 1 })

def eBL_WriteMessage (eType : UInt8) (pu8Header pu8Data : List UInt8) : StateM (State σ) Bool := do
  -- total message length cannot be > 255 bytes
  if pu8Header.length + pu8Data.length ≥ 0xfe then
    return false
  else
    let u8Length := UInt8.ofNat (pu8Header.length + pu8Data.length + 2)
    let au8Msg := u8Length :: eType :: (pu8Header ++ pu8Data)
    eUART_Write world (au8Msg ++ [checkSum au8Msg])

/--
Get the rest of the message
-/
def readRest (u8Length iAttempts : Nat) (au8Msg : List UInt8) (s : State σ)
    : Option (List UInt8) × State σ :=
  match eUART_Read world (u8Length - au8Msg.length) s with
  | (none, s) => (none, s)
  | (some bytes, s) =>
    if (au8Msg ++ bytes).length < u8Length ∧ (0 < bytes.length ∨ iAttempts + 1 < 10) then
      readRest u8Length (iAttempts + 1) (au8Msg ++ bytes) s
    else
      (some (au8Msg ++ bytes), s)
  termination_by (u8Length - au8Msg.length) + (10 - iAttempts)
  decreasing_by
    rename_i h
    simp only [List.length_append] at h ⊢
    omega

/--
A message that has been read is checked.
-/
def checkMessage (u8Length : UInt8) (au8Msg : List UInt8) : Reply :=
  if au8Msg.length ≠ u8Length.toNat then
    { eResponse := E_BL_RESPONSE_NO_RESPONSE }
  else if checkSum (u8Length :: au8Msg) ≠ 0 then
    { eResponse := E_BL_RESPONSE_CRC_ERROR }
  else
    { eResponse := au8Msg.getD 1 0
      message := some (au8Msg.getD 0 0, (au8Msg.drop 2).take (u8Length - 3).toNat) }

def eBL_ReadMessage : StateM (State σ) Reply := do
  match ← eUART_Read world 1 with
  | some [u8Length] =>
    -- Message must have at least 3 bytes, maximum is implicit
    if u8Length < 3 then
      return { eResponse := E_BL_RESPONSE_NO_RESPONSE }
    else
      match ← readRest world u8Length.toNat 0 [] with
      | none => return { eResponse := E_BL_RESPONSE_NO_RESPONSE }
      | some au8Msg => return checkMessage u8Length au8Msg
  | _ => return { eResponse := E_BL_RESPONSE_NO_RESPONSE }

def eBL_Request (eTxType : UInt8) (pu8Header pu8TxData : List UInt8) : StateM (State σ) Reply := do
  if pu8TxData.length > 0xfd then
    return { eResponse := E_BL_RESPONSE_ERROR }
  else if ← eBL_WriteMessage world eTxType pu8Header pu8TxData then
    eBL_ReadMessage world
  else
    return { eResponse := E_BL_RESPONSE_ERROR }

/--
A request whose reply has no data that is used.
-/
def command (eTxType eExpectedRxType : UInt8) (pu8Header pu8TxData : List UInt8)
    : StateM (State σ) Status := do
  let reply ← eBL_Request world eTxType pu8Header pu8TxData
  return eBL_CheckResponse reply.eResponse reply.eRxType eExpectedRxType

/--
The bytes of an address or a word, the lowest first.
-/
def littleEndian (u32Word : UInt32) : List UInt8 :=
  [u32Word.toUInt8, (u32Word >>> 8).toUInt8, (u32Word >>> 16).toUInt8, (u32Word >>> 24).toUInt8]

def eBL_SetBaudrate (u32Baudrate : UInt32) : StateM (State σ) Status :=
  command world E_BL_MSG_TYPE_SET_BAUD_REQUEST E_BL_MSG_TYPE_SET_BAUD_RESPONSE
    [(1000000 / u32Baudrate).toUInt8] []

/--
A word of the device, the highest byte first.
-/
def bigEndianWord (bytes : List UInt8) : UInt32 :=
  (bytes.take 4).foldl (fun word byte => word <<< 8 ||| byte.toUInt32) 0

/--
The status, the chip id and the version of the bootloader.
-/
def eBL_ChipIdRead : StateM (State σ) (Status × Option (UInt32 × UInt32)) := do
  let reply ← eBL_Request world E_BL_MSG_TYPE_GET_CHIPID_REQUEST [] []
  let au8Buffer := (reply.message.map Prod.snd).getD []
  if au8Buffer.length ≠ 4 ∧ au8Buffer.length ≠ 8 then
    return (.commsFailed, none)
  else
    let u32BootloaderVersion :=
      if au8Buffer.length = 8 then bigEndianWord (au8Buffer.drop 4) else 0
    return (eBL_CheckResponse reply.eResponse reply.eRxType E_BL_MSG_TYPE_GET_CHIPID_RESPONSE,
      some (bigEndianWord au8Buffer, u32BootloaderVersion))

/--
The status and the entry of the table.
-/
def eBL_FlashIdRead : StateM (State σ) (Status × Option FlashDevice) := do
  let reply ← eBL_Request world E_BL_MSG_TYPE_FLASH_READ_ID_REQUEST [] []
  match (reply.message.map Prod.snd).getD [] with
  | [u8ManufacturerID, u8DeviceID] =>
    match asFlashDevices.find? fun device =>
        device.u8ManufacturerID = u8ManufacturerID ∧ device.u8DeviceID = u8DeviceID with
    | none => return (.flashDeviceUnavailable, none)
    | some device =>
      return (eBL_CheckResponse reply.eResponse reply.eRxType E_BL_MSG_TYPE_FLASH_READ_ID_RESPONSE,
        some device)
  | _ => return (.commsFailed, none)

def selectType (u8FlashType : UInt8) : StateM (State σ) Status :=
  command world E_BL_MSG_TYPE_FLASH_SELECT_TYPE_REQUEST E_BL_MSG_TYPE_FLASH_SELECT_TYPE_RESPONSE
    [u8FlashType, 0, 0, 0, 0] []

def eBL_FlashSelectDevice (u8ManufacturerID u8DeviceID u8ChipSelect : UInt8)
    : StateM (State σ) Status := do
  if u8ManufacturerID ≠ 0 ∧ u8DeviceID ≠ 0 then
    match asFlashDevices.find? fun device =>
        device.u8ManufacturerID = u8ManufacturerID ∧ device.u8DeviceID = u8DeviceID with
    | none => return .flashDeviceUnavailable
    | some device =>
      -- Assert the selected chip select
      let eStatus ←
        if u8ChipSelect ≠ 0 then
          command world E_BL_MSG_TYPE_SET_CS_REQUEST E_BL_MSG_TYPE_SET_CS_RESPONSE [u8ChipSelect] []
        else
          pure .ok
      if eStatus ≠ .ok then
        return eStatus
      else
        selectType world device.u8FlashType
  else
    selectType world 0

/--
The first device of the table that can be selected and then identified. The internal flash is not
looked for.
-/
def discoverAmong (u8ChipSelect : UInt8)
    : List FlashDevice → StateM (State σ) (Status × Option FlashDevice)
  | [] => return (.flashDeviceUnavailable, none)
  | device :: devices => do
    if device.u8ManufacturerID = FLASH_MANUFACTURER_JN516X
        ∧ device.u8DeviceID = FLASH_DEVICE_JN516X then
      discoverAmong u8ChipSelect devices
    else
      match ← eBL_FlashSelectDevice world device.u8ManufacturerID device.u8DeviceID
          u8ChipSelect with
      | .ok =>
        match ← eBL_FlashIdRead world with
        | (.ok, found) => return (.ok, found)
        | _ => discoverAmong u8ChipSelect devices
      | _ => discoverAmong u8ChipSelect devices

def eBL_DiscoverFlash (u8ChipSelect : UInt8) : StateM (State σ) (Status × Option FlashDevice) :=
  discoverAmong world u8ChipSelect asFlashDevices

def eBL_FlashStatusRegisterWrite (u8StatusReg : UInt8) : StateM (State σ) Status :=
  command world E_BL_MSG_TYPE_FLASH_WRITE_PRG_REGISTER_REQUEST
    E_BL_MSG_TYPE_FLASH_WRITE_PRG_REGISTER_RESPONSE [u8StatusReg] []

def eBL_MemoryExecute (u32Address : UInt32) : StateM (State σ) Status :=
  command world E_BL_MSG_TYPE_RAM_RUN_REQUEST E_BL_MSG_TYPE_RAM_RUN_RESPONSE
    (littleEndian u32Address) []

def eBL_FlashErase : StateM (State σ) Status :=
  command world E_BL_MSG_TYPE_FLASH_ERASE_REQUEST E_BL_MSG_TYPE_FLASH_ERASE_RESPONSE [] []

/--
Each of the reads requests some bytes from an address on.
-/
def readAt (eTxType eExpectedRxType : UInt8) (u32Address : UInt32) (u8Length : UInt8)
    : StateM (State σ) (Status × List UInt8) := do
  if u8Length > 0xfc then
    return (.badParameter, [])
  else
    let reply ← eBL_Request world eTxType (readCommand u32Address u8Length) []
    let pu8Buffer := (reply.message.map Prod.snd).getD []
    if pu8Buffer.length ≠ u8Length.toNat then
      return (.errorReading, pu8Buffer)
    else
      return (eBL_CheckResponse reply.eResponse reply.eRxType eExpectedRxType, pu8Buffer)

def eBL_FlashRead (u32Address : UInt32) (u8Length : UInt8)
    : StateM (State σ) (Status × List UInt8) :=
  readAt world E_BL_MSG_TYPE_FLASH_READ_REQUEST E_BL_MSG_TYPE_FLASH_READ_RESPONSE u32Address
    u8Length

def eBL_EEPROMRead (u32Address : UInt32) (u8Length : UInt8)
    : StateM (State σ) (Status × List UInt8) :=
  readAt world E_BL_MSG_TYPE_EEPROM_READ_REQUEST E_BL_MSG_TYPE_EEPROM_READ_RESPONSE u32Address
    u8Length

/--
Each of the writes sends an address and the bytes that go there.
-/
def writeAt (eTxType eExpectedRxType : UInt8) (u32Address : UInt32) (pu8Buffer : List UInt8)
    : StateM (State σ) Status :=
  if pu8Buffer.length > 0xfc then
    return .badParameter
  else
    command world eTxType eExpectedRxType (littleEndian u32Address) pu8Buffer

def eBL_FlashWrite (u32Address : UInt32) (pu8Buffer : List UInt8) : StateM (State σ) Status :=
  writeAt world E_BL_MSG_TYPE_FLASH_PROGRAM_REQUEST E_BL_MSG_TYPE_FLASH_PROGRAM_RESPONSE u32Address
    pu8Buffer

def eBL_EEPROMWrite (u32Address : UInt32) (pu8Buffer : List UInt8) : StateM (State σ) Status :=
  writeAt world E_BL_MSG_TYPE_EEPROM_WRITE_REQUEST E_BL_MSG_TYPE_EEPROM_WRITE_RESPONSE u32Address
    pu8Buffer

def eBL_EEPROMErase (iEraseAll : UInt8) : StateM (State σ) Status :=
  command world E_BL_MSG_TYPE_PDM_ERASE_REQUEST E_BL_MSG_TYPE_PDM_ERASE_RESPONSE [iEraseAll] []

def eBL_IndexSectorWrite (eEndianness : Endianness) (u8Page u8WordNumber : UInt8)
    (au32Data : List UInt32) : StateM (State σ) Status :=
  command world E_BL_MSG_TYPE_PROGRAM_INDEX_SECTOR_REQUEST
    E_BL_MSG_TYPE_PROGRAM_INDEX_SECTOR_RESPONSE
    (u8Page :: u8WordNumber
      :: au32Data.flatMap fun u32Word => native eEndianness (littleEndian u32Word)) []

def eBL_Reset : StateM (State σ) Status :=
  command world E_BL_MSG_TYPE_RESET_REQUEST E_BL_MSG_TYPE_RESET_RESPONSE [] []

end Line

end JnFlasher
