import IotGateway.Lib.Packed
import IotGateway.SerialLink.Impl.SendMessage
import IotGateway.ZcbDaemon.Impl.Attributes

/-!
This module contains requests to the control bridge: the message that is sent, and the loops that
send it again or wait for the response.
-/

namespace ZcbDaemon

open NewDb Packed

def E_SL_OK : UInt8 := SerialLink.Status.ok.toUInt8
def E_SL_NOMESSAGE : UInt8 := SerialLink.Status.noMessage.toUInt8

def E_ZCB_OK : UInt8 := 0x00
def E_ZCB_ERROR : UInt8 := 0x01
def E_ZCB_COMMS_FAILED : UInt8 := 0x11

def ZB_ENDPOINT_SIMPLE : UInt8 := 1
def ZB_ENDPOINT_ATTR : UInt8 := 1

def E_ZB_ADDRESS_MODE_SHORT_NO_ACK : UInt8 := 0x07

def E_SL_MSG_BIND : UInt16 := 0x0030
def E_SL_MSG_SIMPLE_DESCRIPTOR_REQUEST : UInt16 := 0x0043
def E_SL_MSG_WRITE_ATTRIBUTE_REQUEST : UInt16 := 0x0110
def E_SL_MSG_CONFIG_REPORTING_REQUEST : UInt16 := 0x0120

/--
The arguments of `eSL_SendMessage`.
-/
structure Command where
  u16Type : UInt16
  pvMessage : List UInt8
  deriving DecidableEq

/--
What becomes of a message: what `eSL_WriteMessage` and `eSL_MessageWait` return, and what is in the
status message of the node.
-/
structure Sending where
  written : SerialLink.Status
  waited : SerialLink.Status
  eStatus : UInt8
  u8SequenceNo : UInt8

/--
The sequence number is stored if the result is `E_SL_OK`.
-/
def eSL_SendMessage (s : Sending) : UInt8 :=
  if s.written = .ok then
    if s.waited = .ok then s.eStatus else s.waited.toUInt8
  else
    s.written.toUInt8

def simpleDescriptorCommand (u16ShortAddress : UInt16) : Command where
  u16Type := E_SL_MSG_SIMPLE_DESCRIPTOR_REQUEST
  pvMessage := layout [u16 (htons u16ShortAddress), u8 ZB_ENDPOINT_SIMPLE]

/--
The attempts of the loop, with what becomes of them. `none` means that it goes on after them.
-/
def descriptorLoop (command : Command)
    : (sendings : List Sending) → (eStatus u8Retry : UInt8) → Option (UInt8 × List Command)
  | [], _, _ => none
  | sending :: sendings, eStatus, u8Retry =>
    let eSlStatus := eSL_SendMessage sending
    let (eStatus, u8Retry) :=
      if eSlStatus = E_SL_OK then
        (E_ZCB_OK, 0)
      else if eSlStatus = E_SL_NOMESSAGE then
        (eStatus, u8Retry - 1)
      else
        (eStatus, u8Retry)
    if u8Retry ≠ 0 then
      (descriptorLoop command sendings eStatus u8Retry).map fun (eStatus, sent) =>
        (eStatus, command :: sent)
    else
      some (eStatus, [command])

/--
The status and the messages that have been sent.
-/
def SimpleDescriptorRequest (u16ShortAddress : UInt16) (sendings : List Sending)
    : Option (UInt8 × List Command) :=
  descriptorLoop (simpleDescriptorCommand u16ShortAddress) sendings E_ZCB_COMMS_FAILED 3

/--
What `eSL_MessageWait` stores: the length, and the memory behind the pointer.
-/
structure Response where
  u16Length : UInt16
  pvMessage : Nat → UInt8

/--
A loop that waits for the response with the sequence number. After the responses there are none
within the wait time.
-/
def awaitMatching (u8SequenceNo : UInt8) : List Response → Option Response
  | [] => none
  | response :: responses =>
    if u8SequenceNo = response.pvMessage 0 then
      some response
    else
      awaitMatching u8SequenceNo responses

/--
A loop that gives up at the first response with another sequence number, and the status then.
-/
def awaitFirst (seqAt statusAt : Nat) (u8SequenceNo : UInt8) : List Response → UInt8
  | [] => E_ZCB_COMMS_FAILED
  | response :: _ =>
    if u8SequenceNo = response.pvMessage seqAt then
      response.pvMessage statusAt
    else
      E_ZCB_COMMS_FAILED

section

-- what becomes of each message, and the responses of the type that is waited for
variable (line : Command → Sending) (responses : List Response)

def sendAndAwait (seqAt statusAt : Nat) (command : Command) : UInt8 :=
  let sending := line command
  if eSL_SendMessage sending ≠ E_SL_OK then
    E_ZCB_COMMS_FAILED
  else
    awaitFirst seqAt statusAt sending.u8SequenceNo responses

/--
The width of the field of `uData` that the `switch` over `eType` fills.
-/
def attributeWidth (eType : UInt8) : Option Nat :=
  if eType ∈ [E_ZCL_GINT8, E_ZCL_UINT8, E_ZCL_INT8, E_ZCL_ENUM8, E_ZCL_BMAP8, E_ZCL_BOOL,
      E_ZCL_OSTRING, E_ZCL_CSTRING] then
    some 1
  else if eType ∈ [E_ZCL_LOSTRING, E_ZCL_LCSTRING, E_ZCL_STRUCT, E_ZCL_INT16, E_ZCL_UINT16,
      E_ZCL_ENUM16, E_ZCL_CLUSTER_ID, E_ZCL_ATTRIBUTE_ID] then
    some 2
  else if eType ∈ [E_ZCL_UINT24, E_ZCL_UINT32, E_ZCL_TOD, E_ZCL_DATE, E_ZCL_UTCT,
      E_ZCL_BACNET_OID] then
    some 4
  else if eType ∈ [E_ZCL_UINT40, E_ZCL_UINT48, E_ZCL_UINT56, E_ZCL_UINT64, E_ZCL_IEEE_ADDR] then
    some 8
  else
    none

structure WriteAttribute where
  u16ShortAddress : UInt16
  u16ClusterID : UInt16
  u8Direction : UInt8
  u8ManufacturerSpecific : UInt8
  u16ManufacturerID : UInt16
  u16AttributeID : UInt16
  eType : UInt8
  pvData : Nat → UInt8

/--
`none` for a type that the `switch` does not know.
-/
def WriteAttribute.command (w : WriteAttribute) : Option Command :=
  (attributeWidth w.eType).map fun width =>
    let uData := host ((List.range width).map w.pvData)
    { u16Type := E_SL_MSG_WRITE_ATTRIBUTE_REQUEST
      pvMessage := layout [u8 E_ZB_ADDRESS_MODE_SHORT_NO_ACK, u16 (htons w.u16ShortAddress),
        u8 ZB_ENDPOINT_ATTR, u8 ZB_ENDPOINT_ATTR, u16 (htons w.u16ClusterID), u8 w.u8Direction,
        u8 w.u8ManufacturerSpecific, u16 (htons w.u16ManufacturerID), u8 1,
        u16 (htons w.u16AttributeID), u8 w.eType, ⟨width, swap width uData⟩] }

/--
The offsets are those of `u8SequenceNo` and `u8Status` in `_DataIndication`.
-/
def eZCB_WriteAttributeRequest (w : WriteAttribute) : UInt8 :=
  match w.command with
  | none => E_ZCB_ERROR
  | some command => sendAndAwait line responses 14 16 command

structure Bind where
  u64IEEEAddress : UInt64
  u16ClusterId : UInt16

/--
The destination is the node with the short address 0.
-/
def Bind.command (db : Db) (b : Bind) : Command where
  u16Type := E_SL_MSG_BIND
  pvMessage := layout [u64 (htobe64 b.u64IEEEAddress), u8 ZB_ENDPOINT_ATTR,
    u16 (htons b.u16ClusterId), u8 0x03, u64 (htobe64 (zcbNodeGetExtendedAddress 0 db)),
    u8 ZB_ENDPOINT_ATTR]

def eZCB_SendBindCommand (db : Db) (b : Bind) : UInt8 :=
  sendAndAwait line responses 0 1 (b.command db)

structure ConfigureReporting where
  u16ShortAddress : UInt16
  u16ClusterID : UInt16
  u16AttributeID : UInt16
  eType : UInt8

/--
`eAttributeDataType` is an enumeration, which is stored as an `int`.
-/
def ConfigureReporting.command (c : ConfigureReporting) : Command where
  u16Type := E_SL_MSG_CONFIG_REPORTING_REQUEST
  pvMessage := layout [u8 E_ZB_ADDRESS_MODE_SHORT_NO_ACK, u16 (htons c.u16ShortAddress),
    u8 ZB_ENDPOINT_ATTR, u8 ZB_ENDPOINT_ATTR, u16 (htons c.u16ClusterID), u8 0,
    u32 c.eType.toUInt32, u16 (htons c.u16AttributeID), u16 0, u16 0, u16 0, u64 0]

def eZCB_SendConfigureReportingCommand (c : ConfigureReporting) : UInt8 :=
  sendAndAwait line responses 0 1 c.command

end

end ZcbDaemon
