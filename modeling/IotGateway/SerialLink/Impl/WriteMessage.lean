import IotGateway.SerialLink.Basic
import Mathlib.Data.List.Basic

namespace SerialLink

/--
XOR over type, length and the first `u16Length` bytes behind `pu8Data`.
-/
def calculateCRC (u16Type u16Length : UInt16) (pu8Data : Nat → UInt8) : UInt8 :=
  (List.range u16Length.toNat).foldl (fun u8CRC n => u8CRC ^^^ pu8Data n)
    (0 ^^^ msb u16Type ^^^ lsb u16Type ^^^ msb u16Length ^^^ lsb u16Length)

/--
The bytes that `iSL_TxByte` hands to `eSerial_Write`, which either succeeds or ends the process.
-/
def txByte (bSpecialCharacter : Bool) (u8Data : UInt8) : List UInt8 :=
  if !bSpecialCharacter && u8Data < 0x10 then
    [SL_ESC_CHAR, u8Data ^^^ 0x10]
  else
    [u8Data]

/--
The byte sequence that `eSL_WriteMessage` emits.
-/
def writeMessage (u16Type u16Length : UInt16) (pu8Data : Nat → UInt8) : List UInt8 :=
  let u8CRC := calculateCRC u16Type u16Length pu8Data
  txByte true SL_START_CHAR
    ++ txByte false (msb u16Type)
    ++ txByte false (lsb u16Type)
    ++ txByte false (msb u16Length)
    ++ txByte false (lsb u16Length)
    ++ txByte false u8CRC
    ++ (List.range u16Length.toNat).flatMap (fun n => txByte false (pu8Data n))
    ++ txByte true SL_END_CHAR

end SerialLink
