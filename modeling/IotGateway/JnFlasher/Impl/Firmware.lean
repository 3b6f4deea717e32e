import IotGateway.JnFlasher.Impl.Programmer
import IotGateway.Lib.Accesses
import IotGateway.Lib.Packed

/-!
This module contains how the header of a firmware file is read.
-/

namespace JnFlasher

namespace Firmware

open Accesses

/--
`tsFW_Info`. The pointers are offsets from the start of the file.
-/
structure Info where
  u32ROMVersion : UInt32 := 0
  u32TextSectionLoadAddress : UInt32 := 0
  u32TextSectionLength : UInt32 := 0
  u32BssSectionLoadAddress : UInt32 := 0
  u32BssSectionLength : UInt32 := 0
  u32WakeUpEntryPoint : UInt32 := 0
  u32ResetEntryPoint : UInt32 := 0
  pu8ImageData : Nat := 0
  u32ImageLength : UInt32 := 0
  u32MacAddressLocation : UInt32 := 0
  pu8TextData : Nat := 0
  bRawImage : Bool := false
  deriving DecidableEq

/--
The fields of the packed `tsBL_BinHeaderV2`, as offsets. All but the last one are words.
-/
def u32ROMVersion : Nat := 0
def au32BootImageRecord (i : Nat) : Nat := 4 + 4 * i
def u32DataSectionInfo : Nat := 44
def u32BssSectionInfo : Nat := 48
def u32WakeUpEntryPoint : Nat := 52
def u32ResetEntryPoint : Nat := 56
def u8TextDataStart : Nat := 60

/--
The bytes of a field. The memory does not end with the file.
-/
def fieldBytes (pu8Firmware : Nat → UInt8) (field : Nat) : List UInt8 :=
  [pu8Firmware field, pu8Firmware (field + 1), pu8Firmware (field + 2), pu8Firmware (field + 3)]

def ntohl (pu8Firmware : Nat → UInt8) (field : Nat) : UInt32 :=
  UInt32.ofNat (Packed.network (fieldBytes pu8Firmware field))

def le32toh (pu8Firmware : Nat → UInt8) (field : Nat) : UInt32 :=
  UInt32.ofNat (Packed.host (fieldBytes pu8Firmware field))

/--
What differs between the images that are recognised: how a field is read, the three magic numbers,
which half of the information on a section is its address and which one its length, where the image
starts, and where it has the MAC address.
-/
structure Format where
  toh : (Nat → UInt8) → Nat → UInt32
  magic : UInt32 × UInt32 × UInt32
  loadAddress : UInt32 → UInt32
  length : UInt32 → UInt32
  pu8ImageData : Nat
  u32MacAddressLocation : UInt32

/--
JN5148-J01 onwards uses multiimage bootloader
-/
def bigEndianFormat : Format where
  toh := ntohl
  magic := (0x12345678, 0x11223344, 0x55667788)
  loadAddress info := (0x04000000 : UInt32) + (info >>> 16) * 4
  length info := (info &&& 0x0000FFFF) * 4
  pu8ImageData := au32BootImageRecord 0
  u32MacAddressLocation := 0x10

/--
The order is flipped, because two u16 are written as u32 by a little endian platform.
-/
def littleEndianFormat : Format where
  toh := le32toh
  magic := (0x12345678, 0x11223344, 0x55667788)
  loadAddress info := (0x20000000 : UInt32) + (info &&& 0x0000FFFF) * 4
  length info := (info >>> 16) * 4
  pu8ImageData := au32BootImageRecord 0
  u32MacAddressLocation := 0x10

/--
The image starts with the ROM version here.
-/
def wholeFileFormat : Format :=
  { littleEndianFormat with
    magic := (0x12345678, 0x22334455, 0x66778899)
    pu8ImageData := u32ROMVersion
    u32MacAddressLocation := 0x14 }

def Format.recognises (format : Format) (pu8Firmware : Nat → UInt8) : Prop :=
  format.toh pu8Firmware (au32BootImageRecord 0) = format.magic.1
    ∧ format.toh pu8Firmware (au32BootImageRecord 1) = format.magic.2.1
    ∧ format.toh pu8Firmware (au32BootImageRecord 2) = format.magic.2.2

instance Format.decidableRecognises (format : Format) (pu8Firmware : Nat → UInt8)
    : Decidable (format.recognises pu8Firmware) :=
  inferInstanceAs (Decidable (_ ∧ _))

/--
The information on an image of the format. The image has the file's length less what is before it.
-/
def Format.info (format : Format) (pu8Firmware : Nat → UInt8) (u32Length : UInt32) : Info where
  u32ROMVersion := format.toh pu8Firmware u32ROMVersion
  u32TextSectionLoadAddress := format.loadAddress (format.toh pu8Firmware u32DataSectionInfo)
  u32TextSectionLength := format.length (format.toh pu8Firmware u32DataSectionInfo)
  u32BssSectionLoadAddress := format.loadAddress (format.toh pu8Firmware u32BssSectionInfo)
  u32BssSectionLength := format.length (format.toh pu8Firmware u32BssSectionInfo)
  u32WakeUpEntryPoint := format.toh pu8Firmware u32WakeUpEntryPoint
  u32ResetEntryPoint := format.toh pu8Firmware u32ResetEntryPoint
  pu8ImageData := format.pu8ImageData
  u32ImageLength := u32Length - UInt32.ofNat format.pu8ImageData
  u32MacAddressLocation := format.u32MacAddressLocation
  pu8TextData := u8TextDataStart

/--
The flag of the earlier image is kept if the check fails.
-/
def Format.getInfo (format : Format) (pu8Firmware : Nat → UInt8) (u32Length : UInt32)
    : EStateM Failure Info Unit := do
  modify fun sFirmwareInfo =>
    { format.info pu8Firmware u32Length with bRawImage := sFirmwareInfo.bRawImage }
  let sFirmwareInfo ← get
  -- Sanity check the image data
  if sFirmwareInfo.u32TextSectionLength > u32Length then
    throw { eStatus := .invalidFile, pcAdditionalInfo := ", text section is larger than file" }
  modify fun sFirmwareInfo => { sFirmwareInfo with bRawImage := false }

/--
A file that is not recognised will be programmed raw.
-/
def ePRG_FwGetInfo (pu8Firmware : Nat → UInt8) (u32Length : UInt32) : EStateM Failure Info Unit := do
  modify fun sFirmwareInfo => { sFirmwareInfo with u32ImageLength := u32Length }
  if bigEndianFormat.recognises pu8Firmware then
    bigEndianFormat.getInfo pu8Firmware u32Length
  else if littleEndianFormat.recognises pu8Firmware then
    littleEndianFormat.getInfo pu8Firmware u32Length
  else if wholeFileFormat.recognises pu8Firmware then
    wholeFileFormat.getInfo pu8Firmware u32Length
  else
    modify fun sFirmwareInfo => { sFirmwareInfo with pu8ImageData := 0, bRawImage := true }

/--
What is read of the header if the file is recognised.
-/
def headerAccesses : List (Access Unit) :=
  [au32BootImageRecord 0, au32BootImageRecord 1, au32BootImageRecord 2, u32ROMVersion,
    u32DataSectionInfo, u32BssSectionInfo, u32ResetEntryPoint, u32WakeUpEntryPoint].map
    fun field => ⟨(), field, 4⟩

end Firmware

end JnFlasher
