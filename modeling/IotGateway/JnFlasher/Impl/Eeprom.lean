import IotGateway.JnFlasher.Impl.Programmer
import IotGateway.Lib.Loop

/-!
This module contains how the programmer erases the EEPROM of a device, copies it to a file and a file
to it, and writes the index sector. Some devices need an extension in their RAM for that.
-/

namespace JnFlasher

namespace Eeprom

open Fallible

def JN516X_BOOTLOADER_ENTRY : UInt32 := 0x00000066
def JN517X_BOOTLOADER_ENTRY : UInt32 := 0xFFFFFFFF

def BOOTLOADER_CAPABILITY_INDEX_SECTOR (a : UInt32) : Bool := a &&& ((1 : UInt32) <<< 24) ≠ 0
def BOOTLOADER_CAPABILITY_EEPROM_ACCESS (a : UInt32) : Bool := a &&& ((1 : UInt32) <<< 25) ≠ 0

def IP2111_INDEX_SECTOR_WORD_LENGTH : Nat := 16

/--
`teEepromErase`
-/
inductive EepromErase where
  | none
  | pdm
  | all
  deriving DecidableEq

/--
The fields of `tsPRG_Context` and `tsChipDetails` that are used here. An extension of length 0 is one
that is not there.
-/
structure Context where
  u32ChipId : UInt32
  u32BootloaderVersion : UInt32
  boEEPpresent : Bool
  u32EepromSize : UInt32
  u32EepromOffset : UInt32
  u32FlashProgrammerExtensionLength : UInt32
  u32BootloaderEntry : UInt32

/--
How the calls end that are made one after the other, to the user, the device and the files. The calls
that are made in a loop are counted. A call of `write` or `read` fails, or it is done for a number of
bytes at most.
-/
structure Env where
  cbProgress : Option (Nat → Status)
  cbConfirm : Option Status
  open' : Bool
  fstat : Bool
  write : Nat → Option Nat
  read : Nat → Option Nat
  lastError : String
  fwGetInfo : Status
  memoryLoadExecute : Status
  memoryExecute : UInt32 → Status
  setBaudRate : Nat → Status
  eepromErase : Bool → Status
  eepromRead : Nat → Status
  eepromWrite : Nat → Status
  memoryRead : Status
  indexSector : UInt8 → UInt8 → List UInt8
  indexSectorWrite : Status

/--
The EEPROM and the file as they are now, and what has been done so far.
-/
structure Session where
  eeprom : UInt32 → UInt8
  file : List UInt8 := []
  progress : Nat := 0
  writes : Nat := 0
  reads : Nat := 0
  eepromReads : Nat := 0
  eepromWrites : List FlashWrite := []
  loads : Nat := 0
  returns : Nat := 0

/--
The end of a function that does not return `E_PRG_OK`. It may also be still in a loop.
-/
inductive Stop where
  | returned (failure : Failure)
  | running
  deriving DecidableEq

abbrev Prg : Type → Type := EStateM Stop Session

def ePRG_SetStatus {α : Type} (eStatus : Status) (pcAdditionalInfo : String) : Prg α :=
  throw (.returned { eStatus, pcAdditionalInfo })

/--
The status of a call is returned with a text if it is not `E_PRG_OK`.
-/
def check (eStatus : Status) (pcAdditionalInfo : String) : Prg Unit := do
  if eStatus ≠ .ok then ePRG_SetStatus eStatus pcAdditionalInfo

section

variable (env : Env)

def reportProgress : Prg Unit := do
  match env.cbProgress with
  | none => pure ()
  | some cbProgress =>
    let s ← get
    set { s with progress := s.progress + 1 }
    if cbProgress s.progress ≠ .ok then ePRG_SetStatus .aborted ""

def eBL_EEPROMRead (u32Address : UInt32) (u8Length : UInt8) (pcAdditionalInfo : String)
    : Prg (List UInt8) := do
  if u8Length > 0xfc then ePRG_SetStatus .badParameter pcAdditionalInfo
  let s ← get
  set { s with eepromReads := s.eepromReads + 1 }
  check (env.eepromRead s.eepromReads) pcAdditionalInfo
  return bytesAt s.eeprom u32Address u8Length.toNat

/--
The EEPROM with other bytes from an address on.
-/
def store (eeprom : UInt32 → UInt8) (u32Address : UInt32) (data : List UInt8) : UInt32 → UInt8 :=
  fun address => data[(address - u32Address).toNat]?.getD (eeprom address)

def eBL_EEPROMWrite (u32Address : UInt32) (u8Length : UInt8) (pu8Buffer : List UInt8)
    (pcAdditionalInfo : String) : Prg Unit := do
  if u8Length > 0xfc then ePRG_SetStatus .badParameter pcAdditionalInfo
  let data := pu8Buffer.take u8Length.toNat
  let s ← get
  set { s with eepromWrites := s.eepromWrites ++ [FlashWrite.mk u32Address data] }
  check (env.eepromWrite s.eepromWrites.length) pcAdditionalInfo
  modify fun s => { s with eeprom := store s.eeprom u32Address data }

variable (psContext : Context)

def ePRG_FlashProgrammerExtensionLoad (pcOperation : String) : Prg Unit := do
  if psContext.u32FlashProgrammerExtensionLength = 0 then
    ePRG_SetStatus .unsupportedOperation pcOperation
  check env.fwGetInfo "loading extension binary"
  check env.memoryLoadExecute "loading extension binary into RAM"
  modify fun s => { s with loads := s.loads + 1 }

def ePRG_FlashProgrammerExtensionReturn : Prg Unit := do
  modify fun s => { s with returns := s.returns + 1 }
  check (env.memoryExecute psContext.u32BootloaderEntry) "executing bootloader"
  if CHIP_ID_PART psContext.u32ChipId ≠ CHIP_ID_PART CHIP_ID_JN5172 then
    check (env.setBaudRate 0) "selecting baud rate"
    check (env.setBaudRate 1) "selecting baud rate"

/--
For a bootloader without the capability we have to load an extension binary in to RAM first.
-/
def enterExtension (capability : Bool) (pcOperation : String) : Prg Unit :=
  if capability then pure () else ePRG_FlashProgrammerExtensionLoad env psContext pcOperation

/--
Return to bootloader
-/
def leaveExtension (capability : Bool) : Prg Unit :=
  if capability then pure () else ePRG_FlashProgrammerExtensionReturn env psContext

def withExtension (capability : Bool) (pcOperation : String) (x : Prg Unit) : Prg Unit := do
  enterExtension env psContext capability pcOperation
  x
  leaveExtension env psContext capability

def eepromAccess (x : Prg Unit) : Prg Unit :=
  withExtension env psContext (BOOTLOADER_CAPABILITY_EEPROM_ACCESS psContext.u32BootloaderVersion)
    "EEPROM access" x

/--
`iEraseAll`
-/
def eraseAll : EepromErase → Prg Bool
  | .pdm => pure false
  | .all => pure true
  | .none => ePRG_SetStatus .badParameter ""

/--
check chip has EEPROM
-/
def checkPresent : Prg Unit := do
  if !psContext.boEEPpresent then ePRG_SetStatus .unsupportedChip ""

def eraseAccess (iEraseAll : Bool) : Prg Unit := do
  reportProgress env
  check (env.eepromErase iEraseAll) "erasing EEPROM"

def ePRG_EepromErase (eErase : EepromErase) : Prg Unit := do
  checkPresent psContext
  let iEraseAll ← eraseAll eErase
  eepromAccess env psContext (eraseAccess env iEraseAll)
  reportProgress env

/--
`write`
-/
def writeFile (buffer : List UInt8) (pcAdditionalInfo : String) : Prg Unit := do
  let s ← get
  match env.write s.writes with
  | some count => set { s with writes := s.writes + 1, file := s.file ++ buffer.take count }
  | none =>
    set { s with writes := s.writes + 1 }
    ePRG_SetStatus .errorWriting pcAdditionalInfo

/--
A pass of the loop, from `n` and `u8ChunkSize`.
-/
def dumpPass : UInt32 × UInt8 → Prg (Option (UInt32 × UInt8))
  | (n, u8ChunkSize) => do
    if n < psContext.u32EepromSize then
      let u8ChunkSize :=
        -- Don't run off the end of eeprom
        if n + u8ChunkSize.toUInt32 > psContext.u32EepromSize then
          (psContext.u32EepromSize - n).toUInt8
        else
          u8ChunkSize
      let au8Buffer ←
        eBL_EEPROMRead env n u8ChunkSize ("reading EEPROM at address 0x" ++ hex8 n)
      writeFile env au8Buffer ("file at address 0x" ++ hex8 n)
      reportProgress env
      return some (n + u8ChunkSize.toUInt32, u8ChunkSize)
    else
      return none

def dumpAccess (passes : Nat) : Prg Unit := do
  loop .running (dumpPass env psContext) passes (psContext.u32EepromOffset, 64)
  reportProgress env

/--
The file is truncated when it is opened.
-/
def openDumpFile (pcDumpFile : String) : Prg Unit := do
  if !env.open' then
    ePRG_SetStatus .failedToOpenFile ("\"" ++ pcDumpFile ++ "\" (" ++ env.lastError ++ ")")
  modify fun s => { s with file := [] }

def ePRG_EepromDump (pcDumpFile : String) (passes : Nat) : Prg Unit := do
  checkPresent psContext
  openDumpFile env pcDumpFile
  eepromAccess env psContext (dumpAccess env psContext passes)

def openLoadFile (pcLoadFile : String) : Prg Unit := do
  if !env.open' then
    ePRG_SetStatus .failedToOpenFile ("\"" ++ pcLoadFile ++ "\" (" ++ env.lastError ++ ")")
  if !env.fstat then ePRG_SetStatus .error ("(" ++ env.lastError ++ ")")

/--
`u32FileSize` has 32 bits.
-/
def checkFileSize : Prg Unit := do
  let s ← get
  let u32FileSize := UInt32.ofNat s.file.length
  if u32FileSize = 0 then
    ePRG_SetStatus .invalidFile ", file is empty"
  else if psContext.u32EepromOffset + u32FileSize > psContext.u32EepromSize then
    ePRG_SetStatus .invalidFile ", image is larger than EEPROM"

/--
What `read` puts into the buffer of 128 bytes. It is nothing at the end of the file only.
-/
def readBuffer (count : Nat) (rest : List UInt8) : List UInt8 := rest.take (min 128 (count + 1))

/--
The result of `read` is -1 if it fails.
-/
def readFile (rest : List UInt8) : Prg (Option (List UInt8)) := do
  let s ← get
  set { s with reads := s.reads + 1 }
  return (env.read s.reads).map (readBuffer · rest)

def chunkOf : Option (List UInt8) → UInt8
  | some au8Buffer => UInt8.ofNat au8Buffer.length
  | none => 255

def programChunk (n : UInt32) (rest : List UInt8) (au8Buffer : Option (List UInt8))
    : Prg (Option (UInt32 × List UInt8)) := do
  let u8ChunkSize := chunkOf au8Buffer
  if u8ChunkSize = 0 ∨ n + u8ChunkSize.toUInt32 > psContext.u32EepromSize then
    return none
  else
    let address := psContext.u32EepromOffset + n
    eBL_EEPROMWrite env address u8ChunkSize (au8Buffer.getD [])
      ("loading EEPROM at address 0x" ++ hex8 address)
    reportProgress env
    return some (n + u8ChunkSize.toUInt32, rest.drop u8ChunkSize.toNat)

/--
A pass of the loop, from `n` and the part of the file that has not been read.
-/
def programPass : UInt32 × List UInt8 → Prg (Option (UInt32 × List UInt8))
  | (n, rest) => do
    let au8Buffer ← readFile env rest
    programChunk env psContext n rest au8Buffer

def programAccess (passes : Nat) : Prg Unit := do
  let s ← get
  loop .running (programPass env psContext) passes (0, s.file)
  reportProgress env

def ePRG_EepromProgram (pcLoadFile : String) (passes : Nat) : Prg Unit := do
  checkPresent psContext
  openLoadFile env pcLoadFile
  checkFileSize psContext
  eepromAccess env psContext (programAccess env psContext passes)

/--
The word must not have been written, and the user has to confirm that it is.
-/
def confirmWord (u8Page u8WordNumber : UInt8) : Prg Unit := do
  let part := CHIP_ID_PART psContext.u32ChipId
  if part ≠ CHIP_ID_PART CHIP_ID_JN5168 ∧ part ≠ CHIP_ID_PART CHIP_ID_JN5169
      ∧ part ≠ CHIP_ID_PART CHIP_ID_JN5172 then
    ePRG_SetStatus .unsupportedChip ""
  match env.cbConfirm with
  | none => ePRG_SetStatus .aborted ""
  | some confirmed =>
    check env.memoryRead "reading from flash index sector"
    if env.indexSector u8Page u8WordNumber
        ≠ List.replicate IP2111_INDEX_SECTOR_WORD_LENGTH 0xFF then
      ePRG_SetStatus .error "one time programmable data has already been set in this device"
    if confirmed ≠ .ok then ePRG_SetStatus .aborted ""

def ePRG_IndexSectorWrite (u8Page u8WordNumber : UInt8) : Prg Unit := do
  confirmWord env psContext u8Page u8WordNumber
  reportProgress env
  withExtension env psContext (BOOTLOADER_CAPABILITY_INDEX_SECTOR psContext.u32BootloaderVersion)
    "programming OTP data" (check env.indexSectorWrite "writing index sector")

end

end Eeprom

end JnFlasher
