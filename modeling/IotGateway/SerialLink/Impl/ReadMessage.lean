import IotGateway.SerialLink.Impl.WriteMessage

/-!
This module contains `eSL_ReadMessage` and the loop of `pvReaderThread` around it.
-/

namespace SerialLink

/--
What one turn of the loop of `eSL_ReadMessage` leaves behind. `stores` are the indices written in
`pu8Message`, `ok` says that the call returns `E_SL_OK`.
-/
structure ByteResult where
  dec : Decoder
  msg : Message
  stores : List Nat
  ok : Bool

/--
The inner switch, on a byte that is no control character and has its escape removed.
-/
def readData (u16MaxLength : UInt16) (d : Decoder) (m : Message) (u8Data : UInt8) : ByteResult :=
  match d.eRxState with
  | .waitStart => ⟨d, m, [], false⟩
  | .waitTypeMsb =>
    ⟨{ d with eRxState := .waitTypeLsb }, { m with u16Type := u8Data.toUInt16 <<< 8 }, [], false⟩
  | .waitTypeLsb =>
    ⟨{ d with eRxState := .waitLenMsb }, { m with u16Type := m.u16Type + u8Data.toUInt16 }, [],
      false⟩
  | .waitLenMsb =>
    ⟨{ d with eRxState := .waitLenLsb }, { m with u16Length := u8Data.toUInt16 <<< 8 }, [], false⟩
  | .waitLenLsb =>
    let u16Length := m.u16Length + u8Data.toUInt16
    if u16MaxLength < u16Length then
      ⟨{ d with eRxState := .waitStart }, { m with u16Length }, [], false⟩
    else
      ⟨{ d with eRxState := .waitCrc }, { m with u16Length }, [], false⟩
  | .waitCrc => ⟨{ d with u8CRC := u8Data, eRxState := .waitData }, m, [], false⟩
  | .waitData =>
    if d.u16Bytes < m.u16Length then
      let index := d.u16Bytes.toNat
      ⟨{ d with u16Bytes := d.u16Bytes + 1 },
        { m with au8Message := Function.update m.au8Message index u8Data }, [index], false⟩
    else
      ⟨d, m, [], false⟩

/--
The outer switch, on a byte as it comes from the serial line.
-/
def readByte (u16MaxLength : UInt16) (d : Decoder) (m : Message) (u8Data : UInt8) : ByteResult :=
  if u8Data = SL_START_CHAR then
    ⟨{ d with u16Bytes := 0, bInEsc := false, eRxState := .waitTypeMsb }, m, [], false⟩
  else if u8Data = SL_ESC_CHAR then
    ⟨{ d with bInEsc := true }, m, [], false⟩
  else if u8Data = SL_END_CHAR then
    if u16MaxLength < m.u16Length then
      ⟨{ d with eRxState := .waitStart }, m, [], false⟩
    else if d.u8CRC = calculateCRC m.u16Type m.u16Length m.au8Message then
      ⟨{ d with eRxState := .waitStart }, m, [], true⟩
    else
      ⟨d, m, [], false⟩
  else if d.bInEsc then
    readData u16MaxLength { d with bInEsc := false } m (u8Data ^^^ 0x10)
  else
    readData u16MaxLength d m u8Data

/--
What `bSL_RxByte` brings: a byte, or `FALSE` because the read timed out.
-/
inductive RxEvent where
  | byte (u8Data : UInt8)
  | timeout
  deriving DecidableEq

/--
The outcome of a call of `eSL_ReadMessage`. `status` is `none` while the call waits for a byte that
has not arrived yet, `rest` is what arrives after it has returned.
-/
structure ReadResult where
  status : Option Status
  dec : Decoder
  msg : Message
  stores : List Nat
  rest : List RxEvent

def readMessage (u16MaxLength : UInt16) (d : Decoder) (m : Message) : List RxEvent → ReadResult
  | [] => ⟨none, d, m, [], []⟩
  | .timeout :: es => ⟨some .noMessage, d, m, [], es⟩
  | .byte u8Data :: es =>
    let r := readByte u16MaxLength d m u8Data
    if r.ok then
      ⟨some .ok, r.dec, r.msg, r.stores, es⟩
    else
      let r' := readMessage u16MaxLength r.dec r.msg es
      { r' with stores := r.stores ++ r'.stores }

/--
The two lines before each call: `memset` of `sMessage`, which clears the buffer and not the memory
behind it, and the length that is too large to be checked.
-/
def Message.clear (m : Message) : Message where
  u16Type := 0
  u16Length := 0xFFFF
  au8Message := fun i => if i < SL_MAX_MESSAGE_LENGTH.toNat then 0 else m.au8Message i

/--
What an observer of the reader thread sees: a store into `sMessage.au8Message` or a message that is
handed on.
-/
inductive Output where
  | store (index : Nat)
  | deliver (u16Type u16Length : UInt16) (payload : List UInt8)
  deriving DecidableEq

/--
The part of the loop body that runs on `E_SL_OK`, up to the queues of listeners and callbacks.
-/
def handleMessage (m : Message) : Message × List Output :=
  let delivered := Output.deliver m.u16Type m.u16Length m.payload
  if m.u16Type = E_SL_MSG_LOG then
    let index := m.u16Length.toNat
    ({ m with au8Message := Function.update m.au8Message index 0 }, [delivered, .store index])
  else
    (m, [delivered])

theorem readMessage_rest_lt (u16MaxLength : UInt16) (d : Decoder) (m : Message) (es : List RxEvent)
    (h : (readMessage u16MaxLength d m es).status ≠ none)
    : (readMessage u16MaxLength d m es).rest.length < es.length := by
  induction es generalizing d m with
  | nil => simp [readMessage] at h
  | cons e es ih =>
    cases e with
    | timeout => simp [readMessage]
    | byte u8Data =>
      simp only [readMessage] at h ⊢
      split
      . simp
      . next hok =>
        simp only [hok] at h
        have := ih _ _ h
        simp only [List.length_cons]
        omega

/--
`pvReaderThread` on everything that arrives: clear `sMessage`, call `eSL_ReadMessage`, handle the
message, again.
-/
def readerThread (d : Decoder) (sMessage : Message) (es : List RxEvent) : List Output :=
  let r := readMessage SL_MAX_MESSAGE_LENGTH d sMessage.clear es
  match h : r.status with
  | none => r.stores.map .store
  | some .ok =>
    let handled := handleMessage r.msg
    r.stores.map .store ++ handled.2 ++ readerThread r.dec handled.1 r.rest
  | some _ => r.stores.map .store ++ readerThread r.dec r.msg r.rest
termination_by es.length
decreasing_by
  all_goals
    apply readMessage_rest_lt
    rw [h]
    simp

/--
The statics of `eSL_ReadMessage` and the buffer of the thread, between two bytes.
-/
structure Thread where
  dec : Decoder
  msg : Message

/--
The same loop, one event at a time.
-/
def threadStep (t : Thread) : RxEvent → Thread × List Output
  | .timeout => (⟨t.dec, t.msg.clear⟩, [])
  | .byte u8Data =>
    let r := readByte SL_MAX_MESSAGE_LENGTH t.dec t.msg u8Data
    if r.ok then
      let handled := handleMessage r.msg
      (⟨r.dec, handled.1.clear⟩, r.stores.map .store ++ handled.2)
    else
      (⟨r.dec, r.msg⟩, r.stores.map .store)

/--
The thread when it first waits for a byte.
-/
def threadStart : Thread where
  dec := { eRxState := .waitStart, u8CRC := 0, u16Bytes := 0, bInEsc := false }
  msg := { u16Type := 0, u16Length := 0xFFFF, au8Message := fun _ => 0 }

end SerialLink
