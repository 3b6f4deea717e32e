import IotGateway.JnFlasher.Impl.Programmer
import IotGateway.Lib.Accesses

/-!
This module contains the requests to the bootloader of the device that read its memory and its flash,
down to the bytes that the UART gives.
-/

namespace JnFlasher

namespace BootLoader

open Accesses

def E_BL_MSG_TYPE_FLASH_READ_REQUEST : UInt8 := 0x0b
def E_BL_MSG_TYPE_FLASH_READ_RESPONSE : UInt8 := 0x0c
def E_BL_MSG_TYPE_RAM_READ_REQUEST : UInt8 := 0x1f
def E_BL_MSG_TYPE_RAM_READ_RESPONSE : UInt8 := 0x20

def E_BL_RESPONSE_OK : UInt8 := 0x00
def E_BL_RESPONSE_NOT_SUPPORTED : UInt8 := 0xff
def E_BL_RESPONSE_WRITE_FAIL : UInt8 := 0xfe
def E_BL_RESPONSE_CRC_ERROR : UInt8 := 0xfc
def E_BL_RESPONSE_READ_FAIL : UInt8 := 0xf9
def E_BL_RESPONSE_NO_RESPONSE : UInt8 := 0xf6
def E_BL_RESPONSE_ERROR : UInt8 := 0xf0

inductive Endianness where
  | bigEndian
  | littleEndian
  deriving DecidableEq

/--
Whether `eUART_Write` writes a message, and what the calls of `eUART_Read` find, one after the other.
A call that fails finds nothing, and one that times out no bytes.
-/
structure Env where
  write : List UInt8 → Bool
  read : Nat → Option (List UInt8)

/--
The memory from the caller's buffer on, and what has been stored there so far.
-/
structure Buffer where
  bytes : Nat → UInt8
  stores : List (Access Unit) := []

def Buffer.load (buffer : Buffer) (start count : Nat) : List UInt8 :=
  (List.range count).map fun i => buffer.bytes (start + i)

def Buffer.store (buffer : Buffer) (start : Nat) (data : List UInt8) : Buffer where
  bytes i := if start ≤ i then data[i - start]?.getD (buffer.bytes i) else buffer.bytes i
  stores := buffer.stores ++ [⟨(), start, data.length⟩]

/--
The response of the device, and the type and the data of its message if it is accepted.
-/
structure Reply where
  eResponse : UInt8
  message : Option (UInt8 × List UInt8) := none

/--
`u8CalculatedCheckSum`
-/
def checkSum (bytes : List UInt8) : UInt8 := bytes.foldl (· ^^^ ·) 0

section

variable (env : Env)

def eBL_WriteMessage (eType : UInt8) (pu8Header pu8Data : List UInt8) : Bool :=
  if pu8Header.length + pu8Data.length ≥ 0xfe then
    false
  else
    let u8Length := UInt8.ofNat (pu8Header.length + pu8Data.length + 2)
    let au8Msg := u8Length :: eType :: (pu8Header ++ pu8Data)
    env.write (au8Msg ++ [checkSum au8Msg])

/--
Get the rest of the message
-/
def readRest (u8Length iAttempts : Nat) (au8Msg : List UInt8) : Option (List UInt8) :=
  match env.read (iAttempts + 1) with
  | none => none
  | some found =>
    let bytes := found.take (u8Length - au8Msg.length)
    if (au8Msg ++ bytes).length < u8Length ∧ (0 < bytes.length ∨ iAttempts + 1 < 10) then
      readRest u8Length (iAttempts + 1) (au8Msg ++ bytes)
    else
      some (au8Msg ++ bytes)
  termination_by (u8Length - au8Msg.length) + (10 - iAttempts)
  decreasing_by
    rename_i h
    simp only [bytes, List.length_append] at h ⊢
    omega

def eBL_ReadMessage : Reply :=
  match (env.read 0).map (List.take 1) with
  | some [u8Length] =>
    -- Message must have at least 3 bytes, maximum is implicit
    if u8Length < 3 then
      { eResponse := E_BL_RESPONSE_NO_RESPONSE }
    else
      match readRest env u8Length.toNat 0 [] with
      | none => { eResponse := E_BL_RESPONSE_NO_RESPONSE }
      | some au8Msg =>
        if au8Msg.length ≠ u8Length.toNat then
          { eResponse := E_BL_RESPONSE_NO_RESPONSE }
        else if checkSum (u8Length :: au8Msg) ≠ 0 then
          { eResponse := E_BL_RESPONSE_CRC_ERROR }
        else
          { eResponse := au8Msg.getD 1 0
            message := some (au8Msg.getD 0 0, (au8Msg.drop 2).take (u8Length - 3).toNat) }
  | _ => { eResponse := E_BL_RESPONSE_NO_RESPONSE }

def eBL_Request (eTxType : UInt8) (pu8Header pu8TxData : List UInt8) : Reply :=
  if pu8TxData.length > 0xfd then
    { eResponse := E_BL_RESPONSE_ERROR }
  else if !eBL_WriteMessage env eTxType pu8Header pu8TxData then
    { eResponse := E_BL_RESPONSE_ERROR }
  else
    eBL_ReadMessage env

/--
The type is 0 as long as there is no message.
-/
def eBL_CheckResponse (eResponse eRxType eExpectedRxType : UInt8) : Status :=
  if eResponse = E_BL_RESPONSE_OK then
    if eRxType ≠ eExpectedRxType then .commsFailed else .ok
  else if eResponse = E_BL_RESPONSE_NOT_SUPPORTED then
    .unsupportedOperation
  else if eResponse = E_BL_RESPONSE_WRITE_FAIL then
    .errorWriting
  else if eResponse = E_BL_RESPONSE_READ_FAIL then
    .errorReading
  else
    .commsFailed

/--
The data is stored from the start of the caller's buffer on.
-/
def Reply.storeData (reply : Reply) (pu8Buffer : Buffer) : Buffer :=
  match reply.message with
  | some (_, data) => pu8Buffer.store 0 data
  | none => pu8Buffer

def Reply.u8RxDataLen (reply : Reply) : Nat :=
  match reply.message with
  | some (_, data) => data.length
  | none => 0

def Reply.eRxType (reply : Reply) : UInt8 :=
  match reply.message with
  | some (eType, _) => eType
  | none => 0

/--
A value of the chip as the host has it, which is little endian.
-/
def native : Endianness → List UInt8 → List UInt8
  | .littleEndian, bytes => bytes
  | .bigEndian, bytes => bytes.reverse

/--
Convert the read byte buffer into native format, in blocks from the index `i` on.
-/
def convertBlocks (eEndianness : Endianness) (u8BlockSize : Nat)
    : (blocks : Nat) → (i : Nat) → Buffer → Buffer
  | 0, _, pu8Buffer => pu8Buffer
  | blocks + 1, i, pu8Buffer =>
    convertBlocks eEndianness u8BlockSize blocks (i + u8BlockSize)
      (pu8Buffer.store i (native eEndianness (pu8Buffer.load i u8BlockSize)))

/--
The loop over the buffer ends with the first block that starts behind the length.
-/
def convert (eEndianness : Endianness) (u8Length u8BlockSize : UInt8) (pu8Buffer : Buffer) : Buffer :=
  if u8BlockSize = 2 ∨ u8BlockSize = 4 then
    convertBlocks eEndianness u8BlockSize.toNat
      ((u8Length.toNat + u8BlockSize.toNat - 1) / u8BlockSize.toNat) 0 pu8Buffer
  else
    pu8Buffer

/--
`au8CmdBuffer`
-/
def readCommand (u32Address : UInt32) (u8Length : UInt8) : List UInt8 :=
  [u32Address.toUInt8, (u32Address >>> 8).toUInt8, (u32Address >>> 16).toUInt8,
    (u32Address >>> 24).toUInt8, u8Length, 0]

/--
Each of the reads sends a request and stores the reply. A read of the right length is converted.
-/
def readRequest (eTxType eExpectedRxType : UInt8) (convert : Buffer → Buffer) (u32Address : UInt32)
    (u8Length : UInt8) (pu8Buffer : Buffer) : Status × Buffer :=
  if u8Length > 0xfc then
    (.badParameter, pu8Buffer)
  else
    let reply := eBL_Request env eTxType (readCommand u32Address u8Length) []
    let pu8Buffer := reply.storeData pu8Buffer
    if reply.u8RxDataLen ≠ u8Length.toNat then
      (.errorReading, pu8Buffer)
    else
      (eBL_CheckResponse reply.eResponse reply.eRxType eExpectedRxType, convert pu8Buffer)

def eBL_MemoryRead (eEndianness : Endianness) (u32Address : UInt32) (u8Length u8BlockSize : UInt8)
    (pu8Buffer : Buffer) : Status × Buffer :=
  readRequest env E_BL_MSG_TYPE_RAM_READ_REQUEST E_BL_MSG_TYPE_RAM_READ_RESPONSE
    (convert eEndianness u8Length u8BlockSize) u32Address u8Length pu8Buffer

def eBL_FlashRead (u32Address : UInt32) (u8Length : UInt8) (pu8Buffer : Buffer) : Status × Buffer :=
  readRequest env E_BL_MSG_TYPE_FLASH_READ_REQUEST E_BL_MSG_TYPE_FLASH_READ_RESPONSE id u32Address
    u8Length pu8Buffer

end

end BootLoader

end JnFlasher
