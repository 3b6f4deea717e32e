import IotGateway.JnFlasher.Impl.Programmer

/-!
This module contains the setting of the device configuration. It is kept in words of the index
sector, each of which can be written once.
-/

namespace JnFlasher

/--
A word of the index sector, `IP2111_INDEX_SECTOR_WORD_LENGTH` bytes.
-/
abbrev IndexWord : Type := Vector UInt32 4

def blankWord : IndexWord := Vector.replicate 4 0xFFFFFFFF

def u32PRG_JN516x_index_sector_address (u8Page u8Word : UInt8) : UInt32 :=
  (0x01001000 : UInt32) + (u8Page.toUInt32 <<< 8) + (u8Word.toUInt32 <<< 4)

def JN516X_INDEX_SECTOR_IP2111_CONFIG_PAGE : UInt8 := 4
def JN516X_INDEX_SECTOR_IP2111_CONFIG_WORD : UInt8 := 0
def JN516X_INDEX_SECTOR_CUSTOMER_CONFIG_PAGE : UInt8 := 5
def JN516X_INDEX_SECTOR_CUSTOMER_CONFIG_WORD : UInt8 := 1

def JN516X_INDEX_SECTOR_IP2111_CONFIG_ADDRESS : UInt32 :=
  u32PRG_JN516x_index_sector_address
    JN516X_INDEX_SECTOR_IP2111_CONFIG_PAGE JN516X_INDEX_SECTOR_IP2111_CONFIG_WORD

def JN516X_INDEX_SECTOR_CUSTOMER_CONFIG_ADDRESS : UInt32 :=
  u32PRG_JN516x_index_sector_address
    JN516X_INDEX_SECTOR_CUSTOMER_CONFIG_PAGE JN516X_INDEX_SECTOR_CUSTOMER_CONFIG_WORD

def BOOTLOADER_CAPABILITY_INDEX_SECTOR (a : UInt32) : Bool := a &&& ((1 : UInt32) <<< 24) ≠ 0

/--
`tsPRG_Context` with the fields for the flash programmer extension.
-/
structure IndexContext extends Context where
  pu8FlashProgrammerExtensionStart : UInt32
  u32FlashProgrammerExtensionLength : UInt32

/--
How one call of `ePRG_IndexSectorWrite` is answered. `progress` is `none` without `cbProgress`.
`programs` says whether the device writes the word: the answer to a request can be lost.
-/
structure Attempt where
  read : Status
  progress : Option Status
  fwGetInfo : Status
  memoryLoadExecute : Status
  write : Status
  programs : Bool
  memoryExecute : Status
  setDefaultBaudRate : Status
  setBaudRate : Status

structure IndexRun where
  sector : UInt32 → IndexWord
  sDeviceConfig : DeviceConfig

abbrev IndexPrg : Type → Type := EStateM Failure IndexRun

/--
Returns with `ePRG_SetStatus` if the test holds.
-/
def refuse (test : Prop) [Decidable test] (eStatus : Status) (pcAdditionalInfo : String)
    : IndexPrg Unit :=
  if test then throw { eStatus, pcAdditionalInfo } else pure ()

def checkStatus (eStatus : Status) (pcAdditionalInfo : String) : IndexPrg Unit :=
  refuse (eStatus ≠ .ok) eStatus pcAdditionalInfo

def cbConfirmTitle : String := "Confirm Operation"

def cbConfirmText : String :=
  "WARNING: This operation will program one-time programmable fields in the index sector "
    ++ "of the device.\n"
    ++ "The index sector contains many fields, which if set incorrectly could render the device "
    ++ "inoperable, voiding any warranties.\n"
    ++ "Please consult the user documentation for more details on the setting of these fields.\n"
    ++ "Are you sure you wish to continue with this operation?"

def ePRG_ConfirmAlways (_pcTitle _pcText : String) : Status := .ok

/--
The test on the part of the chip with which the functions for the index sector start.
-/
def hasIndexSector (psChipDetails : ChipDetails) : Bool :=
  let part := CHIP_ID_PART psChipDetails.u32ChipId
  part = CHIP_ID_PART CHIP_ID_JN5168 || part = CHIP_ID_PART CHIP_ID_JN5169
    || part = CHIP_ID_PART CHIP_ID_JN5172

/--
Programming a word only clears bits.
-/
def programWord (u32Address : UInt32) (au32Data : IndexWord) (r : IndexRun) : IndexRun :=
  let word := Vector.zipWith (· &&& ·) (r.sector u32Address) au32Data
  { r with sector := Function.update r.sector u32Address word }

section

variable (psContext : IndexContext) (attempt : Attempt)

/--
For a bootloader that cannot write the index sector an extension is loaded in the RAM of the device.
-/
def ifExtensionNeeded (x : IndexPrg Unit) : IndexPrg Unit :=
  if BOOTLOADER_CAPABILITY_INDEX_SECTOR psContext.sChipDetails.u32BootloaderVersion then
    pure ()
  else
    x

def eBL_MemoryRead (u32Address : UInt32) : IndexPrg IndexWord := do
  checkStatus attempt.read "reading from flash index sector"
  let r ← get
  return r.sector u32Address

def eBL_IndexSectorWrite (u8Page u8WordNumber : UInt8) (au32Data : IndexWord) : IndexPrg Unit := do
  let u32Address := u32PRG_JN516x_index_sector_address u8Page u8WordNumber
  modify fun r => if attempt.programs then programWord u32Address au32Data r else r
  checkStatus attempt.write "writing index sector"

def ePRG_FlashProgrammerExtensionLoad (pcOperation : String) : IndexPrg Unit := do
  refuse
    (psContext.pu8FlashProgrammerExtensionStart = 0
      ∨ psContext.u32FlashProgrammerExtensionLength = 0)
    .unsupportedOperation pcOperation
  checkStatus attempt.fwGetInfo "loading extension binary"
  checkStatus attempt.memoryLoadExecute "loading extension binary into RAM"

def ePRG_FlashProgrammerExtensionReturn : IndexPrg Unit := do
  checkStatus attempt.memoryExecute "executing bootloader"
  if CHIP_ID_PART psContext.sChipDetails.u32ChipId ≠ CHIP_ID_PART CHIP_ID_JN5172 then
    checkStatus attempt.setDefaultBaudRate "selecting baud rate"
    checkStatus attempt.setBaudRate "selecting baud rate"

/--
`ePRG_IndexSectorWrite` with the test whether there is a `cbConfirm` made.
-/
def writeConfirmed (u8Page u8WordNumber : UInt8) (au32Data : IndexWord)
    (cbConfirm : String → String → Status) : IndexPrg Unit := do
  let au8Buffer ←
    eBL_MemoryRead attempt (u32PRG_JN516x_index_sector_address u8Page u8WordNumber)
  refuse (au8Buffer ≠ blankWord) .error
    "one time programmable data has already been set in this device"
  refuse (cbConfirm cbConfirmTitle cbConfirmText ≠ .ok) .aborted ""
  refuse (attempt.progress.getD .ok ≠ .ok) .aborted ""
  ifExtensionNeeded psContext
    (ePRG_FlashProgrammerExtensionLoad psContext attempt "programming OTP data")
  eBL_IndexSectorWrite attempt u8Page u8WordNumber au32Data
  ifExtensionNeeded psContext (ePRG_FlashProgrammerExtensionReturn psContext attempt)

def ePRG_IndexSectorWrite (u8Page u8WordNumber : UInt8) (au32Data : IndexWord)
    (cbConfirm : Option (String → String → Status)) : IndexPrg Unit := do
  refuse (¬hasIndexSector psContext.sChipDetails) .unsupportedChip ""
  match cbConfirm with
  | none => refuse True .aborted ""
  | some cbConfirm => writeConfirmed psContext attempt u8Page u8WordNumber au32Data cbConfirm

end

/--
The IP2111 configuration is written for these requests only.
-/
def setsIP2111 (psDeviceConfig : DeviceConfig) : Bool :=
  psDeviceConfig.eJtag = .disable || psDeviceConfig.eJtag = .disableFlash

def JN5168_VBO (a : UInt32) : UInt32 := ((a ^^^ 6) <<< 1) ||| ~~~((7 : UInt32) <<< 1)

def vboMask : BrownoutVoltage → UInt32
  | .default => 0xFFFFFFFF
  | .v195 => JN5168_VBO 0
  | .v200 => JN5168_VBO 1
  | .v210 => JN5168_VBO 2
  | .v220 => JN5168_VBO 3
  | .v230 => JN5168_VBO 4
  | .v240 => JN5168_VBO 5
  | .v270 => JN5168_VBO 6
  | .v300 => JN5168_VBO 7

def crpMask : CRPLevel → UInt32
  | .level1 => ((1 : UInt32) <<< 4) ||| ~~~((3 : UInt32) <<< 4)
  | .level2 => ((2 : UInt32) <<< 4) ||| ~~~((3 : UInt32) <<< 4)
  | _ => 0xFFFFFFFF

/--
The customer settings, `u32DeviceConfig` before the second write.
-/
def customerConfig (psDeviceConfig : DeviceConfig) : UInt32 :=
  let jtag : UInt32 :=
    if psDeviceConfig.eJtag = .disable ∨ psDeviceConfig.eJtag = .disableCpu then
      0xFFFFFFFE
    else
      0xFFFFFFFF
  let encrypted : UInt32 :=
    if psDeviceConfig.eExternalFlashEncrypted = .true then ~~~((1 : UInt32) <<< 6) else 0xFFFFFFFF
  let load : UInt32 :=
    if psDeviceConfig.eExternalFlashLoad = .disable then ~~~((1 : UInt32) <<< 7) else 0xFFFFFFFF
  jtag &&& vboMask psDeviceConfig.eVbo &&& crpMask psDeviceConfig.eCRP &&& encrypted &&& load

/--
The device has copies of a setting and takes what most of them say.
-/
def copies (u32DeviceConfig : UInt32) : IndexWord := Vector.replicate 4 u32DeviceConfig

/--
How the two words are written: the IP2111 configuration, and the customer settings.
-/
structure IndexEnv where
  cbConfirm : Option (String → String → Status)
  ip2111 : Attempt
  customer : Attempt

section

variable (env : IndexEnv) (psContext : IndexContext)

def writeIP2111Config : IndexPrg Unit :=
  ePRG_IndexSectorWrite psContext env.ip2111 JN516X_INDEX_SECTOR_IP2111_CONFIG_PAGE
    JN516X_INDEX_SECTOR_IP2111_CONFIG_WORD (copies 0xFFFFFFF0) env.cbConfirm

def writeCustomerConfig (psDeviceConfig : DeviceConfig)
    (cbConfirm : Option (String → String → Status)) : IndexPrg Unit :=
  ePRG_IndexSectorWrite psContext env.customer JN516X_INDEX_SECTOR_CUSTOMER_CONFIG_PAGE
    JN516X_INDEX_SECTOR_CUSTOMER_CONFIG_WORD (copies (customerConfig psDeviceConfig)) cbConfirm

def writeDeviceConfig (psDeviceConfig : DeviceConfig) : IndexPrg Unit := do
  refuse (¬hasIndexSector psContext.sChipDetails) .unsupportedChip ""
  if setsIP2111 psDeviceConfig then
    writeIP2111Config env psContext
    -- the user is asked once only
    writeCustomerConfig env psContext psDeviceConfig (some ePRG_ConfirmAlways)
  else
    writeCustomerConfig env psContext psDeviceConfig env.cbConfirm

def ePRG_DeviceConfigSet (psDeviceConfig : DeviceConfig) : IndexPrg Unit := do
  writeDeviceConfig env psContext psDeviceConfig
  modify fun r => { r with sDeviceConfig := psDeviceConfig }

end

end JnFlasher
