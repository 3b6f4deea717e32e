import IotGateway.SerialLink.Lemmas.ReadMessage

/-!
This module contains the round trip over the serial line: what `eSL_WriteMessage` emits makes
`eSL_ReadMessage` return the message, from every state of the receiver.
-/

namespace SerialLink

/--
A call that has not returned on `bs` goes on with what follows.
-/
theorem readMessage_append {u16MaxLength : UInt16} {d : Decoder} {m : Message} {bs : List UInt8}
    (h : (readMessage u16MaxLength d m (bs.map .byte)).status ≠ some .ok) (es : List RxEvent)
    : let t := bs.foldl (receive u16MaxLength) ⟨d, m⟩
      let r := readMessage u16MaxLength t.dec t.msg es
      readMessage u16MaxLength d m (bs.map .byte ++ es)
        =
      { r with stores := (readMessage u16MaxLength d m (bs.map .byte)).stores ++ r.stores } := by
  induction bs generalizing d m with
  | nil => simp [readMessage]
  | cons b bs ih =>
    simp only [List.map_cons, readMessage] at h
    split at h
    . simp at h
    . next hok =>
      simp only [List.map_cons, List.cons_append, readMessage, hok, Bool.false_eq_true, ↓reduceIte,
        List.foldl_cons]
      rw [ih h]
      simp only [receive, List.append_assoc]

theorem readMessage_of_not_mem_end (u16MaxLength : UInt16) (d : Decoder) (m : Message)
    {bs : List UInt8} (h : SL_END_CHAR ∉ bs)
    : (readMessage u16MaxLength d m (bs.map .byte)).status ≠ some .ok := by
  induction bs generalizing d m with
  | nil => simp [readMessage]
  | cons b bs ih =>
    simp only [List.mem_cons, not_or] at h
    have hok := readByte_ok_false u16MaxLength d m (Ne.symm h.1)
    simp only [List.map_cons, readMessage, hok, Bool.false_eq_true, ↓reduceIte]
    exact ih _ _ h.2

theorem readMessage_writeMessage (d : Decoder) (m : Message) (garbage : List UInt8)
    (rest : List RxEvent) (u16Type u16Length : UInt16) (pu8Data : Nat → UInt8)
    (hgarbage : (readMessage SL_MAX_MESSAGE_LENGTH d m (garbage.map .byte)).status ≠ some .ok)
    (hlen : u16Length ≤ SL_MAX_MESSAGE_LENGTH)
    : let r := readMessage SL_MAX_MESSAGE_LENGTH d m
        ((garbage ++ writeMessage u16Type u16Length pu8Data).map .byte ++ rest)
      r.status = some .ok
        ∧ r.rest = rest
        ∧ r.msg.u16Type = u16Type
        ∧ r.msg.u16Length = u16Length
        ∧ r.msg.payload = (List.range u16Length.toNat).map pu8Data
        ∧ r.dec.eRxState = .waitStart := by
  -- the garbage, then the frame without its end character: the call is still running
  let t := garbage.foldl (receive SL_MAX_MESSAGE_LENGTH) ⟨d, m⟩
  obtain ⟨raw, hwrite, hend, hrec⟩ := received_writeMessage t u16Type u16Length pu8Data hlen
  have hquiet := readMessage_of_not_mem_end SL_MAX_MESSAGE_LENGTH t.dec t.msg hend
  have hbyte := readByte_end_of_ok (hrec.u16Length_eq ▸ hlen) hrec.calculateCRC_eq
  rw [hwrite, List.map_append, List.append_assoc, readMessage_append hgarbage]
  rw [List.map_append, List.append_assoc, readMessage_append hquiet]
  simp only [List.map_cons, List.map_nil, List.cons_append, List.nil_append, readMessage, hbyte,
    ↓reduceIte]
  exact ⟨trivial, trivial, hrec.u16Type_eq, hrec.u16Length_eq, hrec.payload_eq, trivial⟩

/--
Two bytes of garbage, one of them an end character, then the log message 0x02, 0x41.
-/
theorem readMessage_writeMessage_log
    : (readMessage SL_MAX_MESSAGE_LENGTH threadStart.dec threadStart.msg
          (([0x41, SL_END_CHAR]
              ++ writeMessage E_SL_MSG_LOG 2 (fun n => if n = 0 then 0x02 else 0x41)).map .byte
            ++ [])).msg.payload
        =
      [0x02, 0x41] :=
  (readMessage_writeMessage threadStart.dec threadStart.msg [0x41, SL_END_CHAR] [] E_SL_MSG_LOG 2
    (fun n => if n = 0 then 0x02 else 0x41) (by decide) (by decide)).2.2.2.2.1

end SerialLink
