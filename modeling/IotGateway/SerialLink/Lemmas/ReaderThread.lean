import IotGateway.SerialLink.Lemmas.ReadMessage

/-!
This module connects the single steps of the reader thread to the calls of `eSL_ReadMessage` it
makes, and says when a step hands a message on.
-/

namespace SerialLink

open Machine

theorem readMessage_stores_trace (t : Thread) (es : List RxEvent)
    : let r := readMessage SL_MAX_MESSAGE_LENGTH t.dec t.msg es
      trace threadStep t es
        =
      match r.status with
      | none => r.stores.map .store
      | some .ok =>
        r.stores.map .store ++ (handleMessage r.msg).2
          ++ trace threadStep ⟨r.dec, (handleMessage r.msg).1.clear⟩ r.rest
      | some _ => r.stores.map .store ++ trace threadStep ⟨r.dec, r.msg.clear⟩ r.rest := by
  induction es generalizing t with
  | nil => simp [readMessage]
  | cons e es ih =>
    cases e with
    | timeout => simp [readMessage, threadStep]
    | byte u8Data =>
      by_cases hok : (readByte SL_MAX_MESSAGE_LENGTH t.dec t.msg u8Data).ok = true
      . simp [readMessage, threadStep, hok]
      . simp only [trace_cons, readMessage, threadStep, hok, Bool.false_eq_true, ↓reduceIte]
        rw [ih]
        dsimp only
        split <;> simp

/--
The thread as a loop around `eSL_ReadMessage` and the thread one event at a time do the same.
-/
theorem readerThread_eq_trace (d : Decoder) (m : Message) (es : List RxEvent)
    : readerThread d m es = trace threadStep ⟨d, m.clear⟩ es := by
  unfold readerThread
  rw [readMessage_stores_trace]
  dsimp only
  split
  . next h => simp only [h]
  . next h =>
    have := readMessage_rest_lt SL_MAX_MESSAGE_LENGTH d m.clear es (by simp [h])
    simp only [h]
    rw [readerThread_eq_trace]
  . next s hs h =>
    have := readMessage_rest_lt SL_MAX_MESSAGE_LENGTH d m.clear es (by simp [h])
    simp only [h]
    rw [readerThread_eq_trace]
termination_by es.length

theorem threadStep_byte_of_ne_end (t : Thread) {b : UInt8} (h : b ≠ SL_END_CHAR)
    : (threadStep t (.byte b)).1 = receive SL_MAX_MESSAGE_LENGTH t b := by
  simp [threadStep, receive, readByte_ok_false _ _ _ h]

theorem exec_threadStep_bytes (t : Thread) {bs : List UInt8} (h : SL_END_CHAR ∉ bs)
    : exec threadStep t (bs.map .byte) = bs.foldl (receive SL_MAX_MESSAGE_LENGTH) t := by
  induction bs generalizing t with
  | nil => rfl
  | cons b bs ih =>
    simp only [List.mem_cons, not_or] at h
    rw [List.map_cons, exec_cons, threadStep_byte_of_ne_end t (Ne.symm h.1), ih _ h.2]
    rfl

theorem receive_esc (u16MaxLength : UInt16) (t : Thread)
    : receive u16MaxLength t SL_ESC_CHAR = t.withEsc true := by
  simp [receive, readByte, Thread.withEsc]

theorem threadStep_byte_cases (t : Thread) (b : UInt8)
    : (b = SL_START_CHAR
          ∧ (threadStep t (.byte b)).1
              = ⟨{ t.dec with u16Bytes := 0, bInEsc := false, eRxState := .waitTypeMsb }, t.msg⟩)
        ∨ (b = SL_ESC_CHAR ∧ (threadStep t (.byte b)).1 = t.withEsc true)
        ∨ (b = SL_END_CHAR
            ∧ ((threadStep t (.byte b)).1 = t
                ∨ ∃ m, (threadStep t (.byte b)).1 = ⟨{ t.dec with eRxState := .waitStart }, m⟩))
        ∨ ∃ u8Data, (threadStep t (.byte b)).1
            = receiveData SL_MAX_MESSAGE_LENGTH (t.withEsc false) u8Data := by
  by_cases hend : b = SL_END_CHAR
  . right; right; left
    refine ⟨hend, ?_⟩
    subst hend
    simp only [threadStep, readByte_end]
    by_cases hgt : SL_MAX_MESSAGE_LENGTH < t.msg.u16Length
    . right
      exact ⟨t.msg, by simp [hgt]⟩
    . by_cases hcrc : t.dec.u8CRC = calculateCRC t.msg.u16Type t.msg.u16Length t.msg.au8Message
      . right
        exact ⟨(handleMessage t.msg).1.clear, by simp [hgt, hcrc]⟩
      . left
        simp [hgt, hcrc]
  . rw [threadStep_byte_of_ne_end t hend]
    by_cases hstart : b = SL_START_CHAR
    . left
      exact ⟨hstart, by rw [hstart, receive_start]⟩
    . right
      by_cases hesc : b = SL_ESC_CHAR
      . left
        exact ⟨hesc, by rw [hesc, receive_esc]⟩
      . right; right
        exact ⟨_, receive_data hstart hesc hend⟩

/--
While check byte and payload are awaited, the length in the buffer has passed the check.
-/
def LengthChecked (t : Thread) : Prop :=
  t.dec.eRxState = .waitCrc ∨ t.dec.eRxState = .waitData →
    t.msg.u16Length ≤ SL_MAX_MESSAGE_LENGTH

theorem lengthChecked_receiveData {t : Thread} (h : LengthChecked t) (b : UInt8)
    : LengthChecked (receiveData SL_MAX_MESSAGE_LENGTH t b) := by
  unfold LengthChecked at h ⊢
  cases hst : t.dec.eRxState with
  | waitStart | waitTypeMsb | waitTypeLsb | waitLenMsb => simp [receiveData, readData, hst]
  | waitLenLsb =>
    by_cases hgt : SL_MAX_MESSAGE_LENGTH < t.msg.u16Length + b.toUInt16
    . simp [receiveData, readData, hst, hgt]
    . simpa [receiveData, readData, hst, hgt] using UInt16.not_lt.mp hgt
  | waitCrc => simpa [receiveData, readData, hst] using h (Or.inl hst)
  | waitData =>
    have hle := h (Or.inr hst)
    by_cases hlt : t.dec.u16Bytes < t.msg.u16Length
    . simp [receiveData, readData, hst, hlt, hle]
    . simp [receiveData, readData, hst, hlt, hle]

theorem lengthChecked_byte {t : Thread} (h : LengthChecked t) (b : UInt8)
    : LengthChecked (threadStep t (.byte b)).1 := by
  rcases threadStep_byte_cases t b with ⟨-, hstep⟩ | ⟨-, hstep⟩ | ⟨-, hstep | ⟨m, hstep⟩⟩
    | ⟨u8Data, hstep⟩
  . rw [hstep]
    simp [LengthChecked]
  . rw [hstep]
    exact h
  . rw [hstep]
    exact h
  . rw [hstep]
    simp [LengthChecked]
  . rw [hstep]
    have hesc : LengthChecked (t.withEsc false) := h
    exact lengthChecked_receiveData hesc u8Data

/--
Only the end character makes the thread hand a message on, and it is the one in the buffer.
-/
theorem deliver_mem_threadStep_iff (t : Thread) (e : RxEvent) (u16Type u16Length : UInt16)
    (payload : List UInt8)
    : .deliver u16Type u16Length payload ∈ (threadStep t e).2
        ↔
      e = .byte SL_END_CHAR
        ∧ t.msg.u16Length ≤ SL_MAX_MESSAGE_LENGTH
        ∧ t.dec.u8CRC = calculateCRC t.msg.u16Type t.msg.u16Length t.msg.au8Message
        ∧ u16Type = t.msg.u16Type ∧ u16Length = t.msg.u16Length ∧ payload = t.msg.payload := by
  cases e with
  | timeout => simp [threadStep]
  | byte u8Data =>
    have hiff := readByte_ok_iff SL_MAX_MESSAGE_LENGTH t.dec t.msg u8Data
    by_cases hok : (readByte SL_MAX_MESSAGE_LENGTH t.dec t.msg u8Data).ok = true
    . obtain ⟨rfl, hlen, hcrc⟩ := hiff.mp hok
      have hend := readByte_end_of_ok hlen hcrc
      simp only [threadStep, hend, handleMessage]
      by_cases hlog : t.msg.u16Type = E_SL_MSG_LOG
      . simp [hlog, hlen, hcrc]
      . simp [hlog, hlen, hcrc]
    . constructor
      . intro h
        simp [threadStep, hok] at h
      . rintro ⟨h, hlen, hcrc, -⟩
        exact absurd (hiff.mpr ⟨by simpa using h, hlen, hcrc⟩) hok

theorem sinceStart_eq_some {es since : List RxEvent} (h : sinceStart es = some since)
    : .byte SL_START_CHAR ∉ since ∧ ∃ before, es = before ++ .byte SL_START_CHAR :: since := by
  have hnone : ∀ es, sinceStart es = none → .byte SL_START_CHAR ∉ es := by
    intro es
    induction es with
    | nil => simp
    | cons e es ih =>
      intro hnone
      simp only [sinceStart] at hnone
      split at hnone
      . simp at hnone
      . next hes =>
        split at hnone
        . simp at hnone
        . next he =>
          simp only [List.mem_cons, not_or]
          exact ⟨Ne.symm he, ih hes⟩
  induction es with
  | nil => simp [sinceStart] at h
  | cons e es ih =>
    simp only [sinceStart] at h
    split at h
    . next s hs =>
      obtain ⟨hmem, before, hbefore⟩ := ih (hs ▸ h)
      exact ⟨hmem, e :: before, by rw [hbefore, List.cons_append]⟩
    . next hs =>
      split at h
      . next he =>
        obtain rfl := Option.some.inj h
        exact ⟨hnone es hs, [], by rw [he, List.nil_append]⟩
      . simp at h

end SerialLink
