import Mathlib.Logic.Function.Basic

/-!
This module contains the programmer: the image of a firmware is written to the flash of the connected
device, and the flash is compared with the image.
-/

namespace JnFlasher

/--
`teStatus`
-/
inductive Status where
  | ok
  | error
  | outOfMemory
  | errorWriting
  | errorReading
  | failedToOpenFile
  | badParameter
  | nullParameter
  | incompatible
  | invalidFile
  | unsupportedChip
  | aborted
  | verificationFailed
  | invalidTransport
  | commsFailed
  | unsupportedOperation
  | flashDeviceUnavailable
  | crpSet
  deriving DecidableEq, Repr

def CHIP_ID_PART_MASK : UInt32 := 0x003ff000
def CHIP_ID_MASK_VERSION_MASK : UInt32 := 0x0fc00000

def CHIP_ID_JN5148_REV2A : UInt32 := 0x10004686
def CHIP_ID_JN5148_REV2D : UInt32 := 0x10C04686
def CHIP_ID_JN5148_REV2E : UInt32 := 0x11004686
def CHIP_ID_JN5142_REV1A : UInt32 := 0x00005686
def CHIP_ID_JN5142_REV1B : UInt32 := 0x00425686
def CHIP_ID_JN5142_REV1C : UInt32 := 0x00845686
def CHIP_ID_JN5168 : UInt32 := 0x00008686
def CHIP_ID_JN5169 : UInt32 := 0x0000b686
def CHIP_ID_JN5172 : UInt32 := 0x0000a686

def CHIP_ID_PART (a : UInt32) : UInt32 := a &&& CHIP_ID_PART_MASK

def CHIP_ID_VERSION (a : UInt32) : UInt32 := a &&& CHIP_ID_MASK_VERSION_MASK

def JN514X_MAC_ADDRESS_LOCATION : UInt32 := 0x00000030
def JN514X_MIB_MAC_ADDRESS_LOCATION : UInt32 := 0x00000010

inductive JtagAccess where
  | default
  | enable
  | disableFlash
  | disableCpu
  | disable
  deriving DecidableEq

inductive BrownoutVoltage where
  | default
  | v195
  | v200
  | v210
  | v220
  | v230
  | v240
  | v270
  | v300
  deriving DecidableEq

inductive CRPLevel where
  | default
  | level0
  | level1
  | level2
  deriving DecidableEq

inductive ExternalFlashEncrypted where
  | default
  | true
  | false
  deriving DecidableEq

inductive ExternalFlashLoad where
  | default
  | disable
  | enable
  deriving DecidableEq

/--
`tsDeviceConfig`
-/
structure DeviceConfig where
  eJtag : JtagAccess
  eVbo : BrownoutVoltage
  eCRP : CRPLevel
  eExternalFlashEncrypted : ExternalFlashEncrypted
  eExternalFlashLoad : ExternalFlashLoad
  deriving DecidableEq

/--
The fields of `tsFW_Info` that are used here. `pu8ImageData` is an address.
-/
structure FWInfo where
  u32ROMVersion : UInt32
  pu8ImageData : UInt32
  u32ImageLength : UInt32
  bRawImage : Bool

/--
The fields of `tsChipDetails` that are used here, with the size of the selected flash.
-/
structure ChipDetails where
  u32ChipId : UInt32
  u32SupportedFirmware : UInt32
  u32FlashSize : UInt32
  u32BootloaderVersion : UInt32
  au8MacAddress : Vector UInt8 8

/--
`tsPRG_Context`
-/
structure Context where
  sFirmwareInfo : FWInfo
  sChipDetails : ChipDetails
  sDeviceConfig : DeviceConfig
  u32FlashOffset : UInt32

/--
A request to program the flash.
-/
structure FlashWrite where
  u32Address : UInt32
  data : List UInt8
  deriving DecidableEq

/--
What does not depend on the programmer: the answers of the user, and how the requests to the device
end. `flash` is what is read. A callback that is `NULL` is `none`.
-/
structure Env where
  cbConfirm : Option (String → Status)
  cbProgress : Option (Nat → Status)
  erase : Status
  write : Nat → Status
  read : Nat → Status
  flash : UInt32 → UInt8

/--
The memory with the image, and what has been done so far.
-/
structure Run where
  mem : UInt32 → UInt8
  progress : Nat := 0
  reads : Nat := 0
  writes : List FlashWrite := []

/--
A status that is not `E_PRG_OK`, with the text that `ePRG_SetStatus` is given.
-/
structure Failure where
  eStatus : Status
  pcAdditionalInfo : String
  deriving DecidableEq

/--
A function that returns `E_PRG_OK` or fails.
-/
abbrev Prg : Type → Type := EStateM Failure Run

def ePRG_SetStatus {α : Type} (eStatus : Status) (pcAdditionalInfo : String) : Prg α :=
  throw { eStatus, pcAdditionalInfo }

/--
A failure gets another text, the status stays.
-/
def withInfo {α : Type} (pcAdditionalInfo : String) (x : Prg α) : Prg α := fun r =>
  match x r with
  | .ok a r => .ok a r
  | .error failure r => .error { failure with pcAdditionalInfo } r

def check (eStatus : Status) : Prg Unit := do
  if eStatus ≠ .ok then ePRG_SetStatus eStatus ""

/--
`%08X`
-/
def hex8 (n : UInt32) : String :=
  String.ofList (((Nat.toDigits 16 n.toNat).map Char.toUpper).leftpad 8 '0')

/--
The bytes from an address on.
-/
def bytesAt (mem : UInt32 → UInt8) (address : UInt32) (length : Nat) : List UInt8 :=
  (List.range length).map fun i => mem (address + UInt32.ofNat i)

section

variable (env : Env)

/--
A call of `cbProgress`.
-/
def reportProgress : Prg Unit := do
  match env.cbProgress with
  | none => pure ()
  | some cbProgress =>
    let r ← get
    set { r with progress := r.progress + 1 }
    if cbProgress r.progress ≠ .ok then ePRG_SetStatus .aborted ""

def eBL_FlashRead (u32Address : UInt32) (u8Length : UInt8) : Prg (List UInt8) := do
  if u8Length > 0xfc then ePRG_SetStatus .badParameter ""
  let r ← get
  set { r with reads := r.reads + 1 }
  check (env.read r.reads)
  return bytesAt env.flash u32Address u8Length.toNat

def eBL_FlashWrite (u32Address : UInt32) (u8Length : UInt8) (pu8Buffer : UInt32) : Prg Unit := do
  if u8Length > 0xfc ∨ pu8Buffer = 0 then ePRG_SetStatus .badParameter ""
  let r ← get
  let data := bytesAt r.mem pu8Buffer u8Length.toNat
  set { r with writes := r.writes ++ [FlashWrite.mk u32Address data] }
  check (env.write r.writes.length)

variable (psContext : Context)

def ePRG_FlashErase : Prg Unit := do
  reportProgress env
  withInfo "erasing flash" (check env.erase)
  if psContext.sDeviceConfig.eCRP = .default ∨ psContext.sDeviceConfig.eCRP = .level0 then
    let au8Buffer1 ←
      withInfo ("reading Flash at address 0x" ++ hex8 0) (eBL_FlashRead env 0 64)
    if au8Buffer1 ≠ List.replicate 64 0xFF then ePRG_SetStatus .error "flash erase unsuccessful"
    reportProgress env

/--
`memcpy` of the MAC address of the device into the image.
-/
def copyMacAddress (location : UInt32) (mem : UInt32 → UInt8) : UInt32 → UInt8 :=
  (List.finRange 8).foldl
    (fun mem (i : Fin 8) =>
      Function.update mem (psContext.sFirmwareInfo.pu8ImageData + location + UInt32.ofNat i.val)
        (psContext.sChipDetails.au8MacAddress.get i))
    mem

def changeImage (f : (UInt32 → UInt8) → UInt32 → UInt8) : Prg Unit :=
  modify fun r => { r with mem := f r.mem }

def ePRG_SetUpImage : Prg Unit := do
  let part := CHIP_ID_PART psContext.sChipDetails.u32ChipId
  let version := CHIP_ID_VERSION psContext.sChipDetails.u32ChipId
  if part = CHIP_ID_PART CHIP_ID_JN5142_REV1A ∨ part = CHIP_ID_PART CHIP_ID_JN5142_REV1B
      ∨ part = CHIP_ID_PART CHIP_ID_JN5142_REV1C then
    changeImage (copyMacAddress psContext JN514X_MIB_MAC_ADDRESS_LOCATION)
  else if part = CHIP_ID_PART CHIP_ID_JN5148_REV2A then
    if version = CHIP_ID_VERSION CHIP_ID_JN5148_REV2D
        ∨ version = CHIP_ID_VERSION CHIP_ID_JN5148_REV2E then
      changeImage (copyMacAddress psContext JN514X_MIB_MAC_ADDRESS_LOCATION)
    else
      changeImage (copyMacAddress psContext JN514X_MAC_ADDRESS_LOCATION)
  else if part = CHIP_ID_PART CHIP_ID_JN5168 ∨ part = CHIP_ID_PART CHIP_ID_JN5169
      ∨ part = CHIP_ID_PART CHIP_ID_JN5172 then
    pure ()
  else
    ePRG_SetStatus .unsupportedChip ""

/--
`u8ChunkSize`. The loops count with an `int` that is compared with, and added to, unsigned numbers
and addresses of 32 bits only.
-/
def chunkSize (u32ImageLength n : UInt32) : UInt8 :=
  if u32ImageLength - n > 128 then 128 else (u32ImageLength - n).toUInt8

theorem chunkSize_toNat {u32ImageLength n : UInt32} (h : n < u32ImageLength)
    : (chunkSize u32ImageLength n).toNat = min 128 (u32ImageLength.toNat - n.toNat) := by
  have hsub := UInt32.toNat_sub_of_le u32ImageLength n (UInt32.le_of_lt h)
  have h128 : (128 : UInt32).toNat = 128 := rfl
  unfold chunkSize
  split
  . next hlong =>
    rw [gt_iff_lt, UInt32.lt_iff_toNat_lt, hsub, h128] at hlong
    rw [Nat.min_eq_left (Nat.le_of_lt hlong)]
    rfl
  . next hshort =>
    rw [gt_iff_lt, UInt32.lt_iff_toNat_lt, hsub, h128] at hshort
    rw [UInt32.toNat_toUInt8, hsub]
    omega

/--
The next chunk starts in the image or where it ends.
-/
theorem next_toNat {u32ImageLength n : UInt32} (h : n < u32ImageLength)
    : (n + (chunkSize u32ImageLength n).toUInt32).toNat
      = n.toNat + min 128 (u32ImageLength.toNat - n.toNat) := by
  have hlt := u32ImageLength.toNat_lt
  rw [UInt32.toNat_add, UInt8.toNat_toUInt32, chunkSize_toNat h, Nat.mod_eq_of_lt]
  rw [UInt32.lt_iff_toNat_lt] at h
  omega

theorem chunkSize_decreases {u32ImageLength n : UInt32} (h : n < u32ImageLength)
    : (u32ImageLength - (n + (chunkSize u32ImageLength n).toUInt32)).toNat
        < (u32ImageLength - n).toNat := by
  have hnext := next_toNat h
  have hlt := UInt32.lt_iff_toNat_lt.mp h
  rw [UInt32.toNat_sub_of_le, UInt32.toNat_sub_of_le, hnext]
  . omega
  . exact UInt32.le_of_lt h
  . rw [UInt32.le_iff_toNat_le, hnext]
    omega

def writeLoop (n : UInt32) : Prg Unit := do
  if _h : n < psContext.sFirmwareInfo.u32ImageLength then
    let u8ChunkSize := chunkSize psContext.sFirmwareInfo.u32ImageLength n
    withInfo ("writing flash at address 0x" ++ hex8 (psContext.u32FlashOffset + n))
      (eBL_FlashWrite env (psContext.u32FlashOffset + n) u8ChunkSize
        (psContext.sFirmwareInfo.pu8ImageData + n))
    reportProgress env
    writeLoop (n + u8ChunkSize.toUInt32)
termination_by (psContext.sFirmwareInfo.u32ImageLength - n).toNat
decreasing_by exact chunkSize_decreases _h

def verifyLoop (n : UInt32) : Prg Unit := do
  if _h : n < psContext.sFirmwareInfo.u32ImageLength then
    let u8ChunkSize := chunkSize psContext.sFirmwareInfo.u32ImageLength n
    let au8Buffer1 ←
      withInfo ("reading Flash at address 0x" ++ hex8 (psContext.u32FlashOffset + n))
        (eBL_FlashRead env (psContext.u32FlashOffset + n) u8ChunkSize)
    let r ← get
    if bytesAt r.mem (psContext.sFirmwareInfo.pu8ImageData + n) u8ChunkSize.toNat ≠ au8Buffer1 then
      ePRG_SetStatus .verificationFailed ("at address 0x" ++ hex8 (psContext.u32FlashOffset + n))
    reportProgress env
    verifyLoop (n + u8ChunkSize.toUInt32)
termination_by (psContext.sFirmwareInfo.u32ImageLength - n).toNat
decreasing_by exact chunkSize_decreases _h

/--
The user is asked if the image is not built for the ROM of the device.
-/
def confirmImage : Prg Unit := do
  let psFWImage := psContext.sFirmwareInfo
  let u32SupportedFirmware := psContext.sChipDetails.u32SupportedFirmware
  if psFWImage.u32ROMVersion ≠ u32SupportedFirmware then
    let pcText :=
      if psFWImage.bRawImage then
        "The loaded file does not appear to be a valid image. Program raw?"
      else
        "The loaded image does not appear to be compatible with the connected device. Continue?"
    let eStatus :=
      match env.cbConfirm with
      | some cbConfirm => cbConfirm pcText
      | none => .incompatible
    if eStatus ≠ .ok then
      if psFWImage.bRawImage then
        ePRG_SetStatus .incompatible "not a valid image"
      else
        ePRG_SetStatus .incompatible
          ("image built for 0x" ++ hex8 psFWImage.u32ROMVersion ++ ", connected device is 0x"
            ++ hex8 u32SupportedFirmware)

def checkSize : Prg Unit := do
  if psContext.u32FlashOffset + psContext.sFirmwareInfo.u32ImageLength
      > psContext.sChipDetails.u32FlashSize then
    ePRG_SetStatus .incompatible "image is larger than selected flash device."

def ePRG_FlashProgram : Prg Unit := do
  confirmImage env psContext
  ePRG_SetUpImage psContext
  checkSize psContext
  withInfo "erasing flash" (ePRG_FlashErase env psContext)
  reportProgress env
  writeLoop env psContext 0
  reportProgress env

def ePRG_FlashVerify : Prg Unit := do
  if psContext.sDeviceConfig.eCRP = .level1 then ePRG_SetStatus .crpSet "verifying device"
  checkSize psContext
  reportProgress env
  ePRG_SetUpImage psContext
  verifyLoop env psContext 0
  reportProgress env

end

end JnFlasher
