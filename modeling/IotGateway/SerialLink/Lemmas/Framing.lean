import IotGateway.SerialLink.Lemmas.ReaderThread

/-!
This module says which delivered messages were sent as a frame. The end character makes the
receiver look at the length field and the check byte only, so what is missing is the number of
bytes.
-/

namespace SerialLink

open Machine

/--
The bytes since the most recent start character are one complete frame with this content.
-/
def FrameSince (es : List RxEvent) (u16Type u16Length : UInt16) (payload : List UInt8) : Prop :=
  ∃ since, sinceStart es = some since ∧ IsFrame (bytesOf since) u16Type u16Length payload

/--
The reads since the most recent start character did not time out, brought no end character, and
brought as many bytes as the length field in the buffer announces.
-/
def Counted (es : List RxEvent) : Prop :=
  ∃ raw : List UInt8, sinceStart es = some (raw.map .byte) ∧ SL_END_CHAR ∉ raw
    ∧ (unescape false raw).length = 5 + (exec threadStep threadStart es).msg.u16Length.toNat

/--
No read timed out since the most recent start character.
-/
def Uninterrupted (es : List RxEvent) : Prop :=
  ∀ since, sinceStart es = some since → .timeout ∉ since

theorem bytesOf_map_byte (raw : List UInt8) : bytesOf (raw.map .byte) = raw := by
  induction raw with
  | nil => rfl
  | cons b raw ih =>
    unfold bytesOf at ih ⊢
    simp [ih]

theorem map_byte_bytesOf {since : List RxEvent} (h : .timeout ∉ since)
    : (bytesOf since).map .byte = since := by
  induction since with
  | nil => rfl
  | cons e since ih =>
    simp only [List.mem_cons, not_or] at h
    cases e with
    | timeout => exact absurd rfl h.1
    | byte u8Data =>
      have := ih h.2
      unfold bytesOf at this ⊢
      simp [this]

/--
The state in which the next byte is read is the one the bytes since the start character led to.
-/
theorem exec_of_sinceStart {es : List RxEvent} {raw : List UInt8}
    (hsince : sinceStart es = some (raw.map .byte)) (hend : SL_END_CHAR ∉ raw)
    : SL_START_CHAR ∉ raw
        ∧ ∃ t, exec threadStep threadStart es
            = (SL_START_CHAR :: raw).foldl (receive SL_MAX_MESSAGE_LENGTH) t := by
  obtain ⟨hmem, before, hbefore⟩ := sinceStart_eq_some hsince
  have hstart : SL_START_CHAR ∉ raw := by
    intro h
    exact hmem (List.mem_map_of_mem h)
  have hframe : SL_END_CHAR ∉ SL_START_CHAR :: raw := by
    simp only [List.mem_cons, not_or]
    exact ⟨end_ne_start, hend⟩
  refine ⟨hstart, exec threadStep threadStart before, ?_⟩
  rw [hbefore, exec_append, ← exec_threadStep_bytes _ hframe, List.map_cons]

theorem frameSince_of_counted {es : List RxEvent} {u16Type u16Length : UInt16}
    {payload : List UInt8}
    (hdeliver : .deliver u16Type u16Length payload
      ∈ (threadStep (exec threadStep threadStart es) (.byte SL_END_CHAR)).2)
    (hcount : Counted es)
    : FrameSince es u16Type u16Length payload := by
  obtain ⟨raw, hsince, hend, hlen⟩ := hcount
  obtain ⟨-, hle, hcrc, rfl, rfl, rfl⟩ := (deliver_mem_threadStep_iff _ _ _ _ _).mp hdeliver
  obtain ⟨hstart, t, ht⟩ := exec_of_sinceStart hsince hend
  rw [ht] at hle hlen hcrc ⊢
  obtain ⟨th, tl, lh, ll, crc, payload, hun, hpay, hword⟩ :=
    received_of_length_eq t hstart hend hle hlen
  obtain ⟨hty, hsize, hcheck, hdata⟩ := received_of_unescape_eq t hstart hend hun hpay hword
  refine ⟨raw.map .byte, hsince, ?_⟩
  rw [bytesOf_map_byte, hty, hsize, hdata]
  constructor
  . exact hend
  . rw [calculateCRC_eq_xorAll, hcheck, hty, hsize] at hcrc
    rw [← hsize] at hcrc
    change crc = xorAll (_ ++ Message.payload _) at hcrc
    rw [hdata, hsize] at hcrc
    rw [hun, ← hcrc]
    simp
  . exact hpay
  . exact hword

theorem counted_of_frameSince {es : List RxEvent} {u16Type u16Length : UInt16}
    {payload : List UInt8}
    (hdeliver : .deliver u16Type u16Length payload
      ∈ (threadStep (exec threadStep threadStart es) (.byte SL_END_CHAR)).2)
    (hun : Uninterrupted es) (hframe : FrameSince es u16Type u16Length payload)
    : Counted es := by
  obtain ⟨since, hsince, hframe⟩ := hframe
  obtain ⟨-, -, -, -, hlen, -⟩ := (deliver_mem_threadStep_iff _ _ _ _ _).mp hdeliver
  refine ⟨bytesOf since, ?_, hframe.no_end, ?_⟩
  . rw [map_byte_bytesOf (hun since hsince)]
    exact hsince
  . rw [← hlen, hframe.unescape_eq, ← hframe.length_payload]
    simp only [List.length_append, List.length_cons, List.length_nil]

/--
A delivered message was sent as a frame if the bytes were counted; between two timeouts, only then.
-/
theorem deliver_frameSince_iff (es : List RxEvent) (e : RxEvent) (u16Type u16Length : UInt16)
    (payload : List UInt8)
    (hdeliver : .deliver u16Type u16Length payload
      ∈ (threadStep (exec threadStep threadStart es) e).2)
    : e = .byte SL_END_CHAR
        ∧ (Counted es → FrameSince es u16Type u16Length payload)
        ∧ (Uninterrupted es → FrameSince es u16Type u16Length payload → Counted es) := by
  obtain ⟨rfl, -⟩ := (deliver_mem_threadStep_iff _ _ _ _ _).mp hdeliver
  exact ⟨rfl, frameSince_of_counted hdeliver, counted_of_frameSince hdeliver⟩

/--
A frame that carries its message, for the type 0x8102 and the payload 0x41.
-/
theorem deliver_frameSince_iff_one_byte
    : FrameSince ((SL_START_CHAR :: [0x81, 0x02, 0x12, 0x02, 0x10, 0x02, 0x11, 0xC3, 0x41]).map .byte)
        0x8102 1 [0x41] := by
  have hcounted : Counted
      ((SL_START_CHAR :: [0x81, 0x02, 0x12, 0x02, 0x10, 0x02, 0x11, 0xC3, 0x41]).map .byte) :=
    ⟨[0x81, 0x02, 0x12, 0x02, 0x10, 0x02, 0x11, 0xC3, 0x41], by decide, by decide, by decide⟩
  exact (deliver_frameSince_iff _ (.byte SL_END_CHAR) 0x8102 1 [0x41] (by decide)).2.1 hcounted

/--
A frame that announces two bytes of payload and ends before them is delivered with two zeros.
-/
theorem deliver_truncated
    : ¬ ∀ (bs : List UInt8) (u16Type u16Length : UInt16) (payload : List UInt8),
        .deliver u16Type u16Length payload
            ∈ (threadStep (exec threadStep threadStart (bs.map .byte)) (.byte SL_END_CHAR)).2
          → FrameSince (bs.map .byte) u16Type u16Length payload := by
  intro h
  obtain ⟨since, hsince, hframe⟩ :=
    h [0x01, 0x10, 0x10, 0x02, 0x10, 0x02, 0x12, 0x02, 0x12] 0x1010 2 [0, 0] (by decide)
  have hraw : since = [0x10, 0x10, 0x02, 0x10, 0x02, 0x12, 0x02, 0x12].map .byte := by
    have : sinceStart ([0x01, 0x10, 0x10, 0x02, 0x10, 0x02, 0x12, 0x02, 0x12].map .byte)
        = some ([0x10, 0x10, 0x02, 0x10, 0x02, 0x12, 0x02, 0x12].map .byte) := by decide
    exact Option.some.inj (hsince.symm.trans this)
  have := congrArg List.length hframe.unescape_eq
  rw [hraw, bytesOf_map_byte] at this
  revert this
  decide

end SerialLink
