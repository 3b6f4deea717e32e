import IotGateway.SerialLink.Lemmas.ReaderThread

/-!
This module says when all stores of the reader thread stay inside the message buffer.
-/

namespace SerialLink

open Machine

/--
No timeout while check byte or payload are awaited, and no complete log message of maximal length.
-/
def StoreSafe (t : Thread) : RxEvent → Prop
  | .timeout => t.dec.eRxState ≠ .waitCrc ∧ t.dec.eRxState ≠ .waitData
  | .byte u8Data =>
    ¬ (u8Data = SL_END_CHAR ∧ t.msg.u16Type = E_SL_MSG_LOG
        ∧ t.msg.u16Length = SL_MAX_MESSAGE_LENGTH
        ∧ t.dec.u8CRC = calculateCRC t.msg.u16Type t.msg.u16Length t.msg.au8Message)

def StoresInside (outs : List Output) : Prop :=
  ∀ i, .store i ∈ outs → i < SL_MAX_MESSAGE_LENGTH.toNat

/--
The receiver's byte counter never runs past the buffer.
-/
structure Counting (t : Thread) : Prop where
  checked : LengthChecked t
  bytes_le : t.dec.u16Bytes ≤ SL_MAX_MESSAGE_LENGTH

theorem counting_receiveData {t : Thread} (h : Counting t) (b : UInt8)
    : Counting (receiveData SL_MAX_MESSAGE_LENGTH t b) := by
  refine ⟨lengthChecked_receiveData h.checked b, ?_⟩
  have hle := h.bytes_le
  cases hst : t.dec.eRxState with
  | waitStart | waitTypeMsb | waitTypeLsb | waitLenMsb | waitCrc =>
    simpa [receiveData, readData, hst] using hle
  | waitLenLsb =>
    by_cases hgt : SL_MAX_MESSAGE_LENGTH < t.msg.u16Length + b.toUInt16
    . simpa [receiveData, readData, hst, hgt] using hle
    . simpa [receiveData, readData, hst, hgt] using hle
  | waitData =>
    by_cases hlt : t.dec.u16Bytes < t.msg.u16Length
    . have hlen := UInt16.le_iff_toNat_le.mp (h.checked (Or.inr hst))
      have hnat := UInt16.lt_iff_toNat_lt.mp hlt
      have hlast := t.msg.u16Length.toNat_lt
      simp only [receiveData, readData, hst, hlt, ↓reduceIte]
      rw [UInt16.le_iff_toNat_le, UInt16.toNat_add, UInt16.toNat_one]
      omega
    . simpa [receiveData, readData, hst, hlt] using hle

theorem counting_threadStep {t : Thread} {e : RxEvent} (h : Counting t) (hsafe : StoreSafe t e)
    : Counting (threadStep t e).1 := by
  cases e with
  | timeout =>
    refine ⟨?_, h.bytes_le⟩
    rintro (hcrc | hdata)
    . exact absurd hcrc hsafe.1
    . exact absurd hdata hsafe.2
  | byte b =>
    refine ⟨lengthChecked_byte h.checked b, ?_⟩
    rcases threadStep_byte_cases t b with ⟨-, hstep⟩ | ⟨-, hstep⟩ | ⟨-, hstep | ⟨m, hstep⟩⟩
      | ⟨u8Data, hstep⟩
    . rw [hstep]
      exact UInt16.zero_le
    . rw [hstep]
      exact h.bytes_le
    . rw [hstep]
      exact h.bytes_le
    . rw [hstep]
      exact h.bytes_le
    . rw [hstep]
      have hesc : Counting (t.withEsc false) := ⟨h.checked, h.bytes_le⟩
      exact (counting_receiveData hesc u8Data).bytes_le

theorem counting_threadStart : Counting threadStart := by
  refine ⟨?_, ?_⟩
  . simp [LengthChecked, threadStart]
  . decide

/--
A payload byte is stored only where the length field allows it.
-/
theorem mem_readByte_stores {u16MaxLength : UInt16} {d : Decoder} {m : Message} {b : UInt8} {i : Nat}
    (h : i ∈ (readByte u16MaxLength d m b).stores)
    : d.eRxState = .waitData ∧ i < m.u16Length.toNat := by
  have hdata : ∀ (d : Decoder) (b : UInt8), i ∈ (readData u16MaxLength d m b).stores →
      d.eRxState = .waitData ∧ i < m.u16Length.toNat := by
    intro d b hmem
    unfold readData at hmem
    split at hmem <;> try simp at hmem
    . split at hmem <;> simp at hmem
    . next hst =>
      split at hmem
      . next hlt =>
        simp only [List.mem_cons, List.not_mem_nil, or_false] at hmem
        subst hmem
        exact ⟨hst, UInt16.lt_iff_toNat_lt.mp hlt⟩
      . simp at hmem
  unfold readByte at h
  split at h
  . simp at h
  . split at h
    . simp at h
    . split at h
      . split at h
        . simp at h
        . split at h <;> simp at h
      . split at h
        . exact hdata { d with bInEsc := false } _ h
        . exact hdata d _ h

theorem storesInside_threadStep {t : Thread} {e : RxEvent} (h : Counting t) (hsafe : StoreSafe t e)
    : StoresInside (threadStep t e).2 := by
  intro i hi
  cases e with
  | timeout => simp [threadStep] at hi
  | byte b =>
    simp only [threadStep] at hi
    by_cases hok : (readByte SL_MAX_MESSAGE_LENGTH t.dec t.msg b).ok = true
    . obtain ⟨rfl, hlen, hcrc⟩ := (readByte_ok_iff _ _ _ _).mp hok
      simp only [readByte_end_of_ok hlen hcrc, ↓reduceIte, handleMessage] at hi
      split at hi
      . next hlog =>
        -- the terminating NUL of a log message
        have hne : t.msg.u16Length ≠ SL_MAX_MESSAGE_LENGTH := by
          intro hmax
          exact hsafe ⟨rfl, hlog, hmax, hcrc⟩
        have hlt := UInt16.lt_iff_toNat_lt.mp (UInt16.lt_of_le_of_ne hlen hne)
        simp at hi
        omega
      . simp at hi
    . simp only [hok, Bool.false_eq_true, ↓reduceIte, List.mem_map, Output.store.injEq,
        exists_eq_right] at hi
      obtain ⟨hst, hlt⟩ := mem_readByte_stores hi
      have hle := UInt16.le_iff_toNat_le.mp (h.checked (Or.inr hst))
      omega

theorem storesInside_trace {t : Thread} (h : Counting t) {es : List RxEvent}
    (hsafe : Along threadStep StoreSafe t es)
    : StoresInside (trace threadStep t es) := by
  intro i hi
  apply forall_trace threadStep (P := fun o => ∀ i, o = .store i → i < SL_MAX_MESSAGE_LENGTH.toNat)
    (fun t e hinv hok => counting_threadStep hinv hok) _ h hsafe _ hi i rfl
  intro t e hinv hok o ho i hoi
  exact storesInside_threadStep hinv hok i (hoi ▸ ho)

/--
With the length wiped to 0xFFFF a data byte is stored wherever the counter stands.
-/
theorem threadStep_wiped {t : Thread} (hst : t.dec.eRxState = .waitData)
    (hlen : t.msg.u16Length = 0xFFFF) (hbytes : t.dec.u16Bytes ≤ SL_MAX_MESSAGE_LENGTH)
    : let t' := (threadStep t (.byte 0x41)).1
      .store t.dec.u16Bytes.toNat ∈ (threadStep t (.byte 0x41)).2
        ∧ t'.dec.eRxState = .waitData ∧ t'.msg.u16Length = 0xFFFF
        ∧ t'.dec.u16Bytes.toNat = t.dec.u16Bytes.toNat + 1 := by
  have hle := UInt16.le_iff_toNat_le.mp hbytes
  have hmax : SL_MAX_MESSAGE_LENGTH.toNat = 256 := rfl
  have hlt : t.dec.u16Bytes < 0xFFFF := by
    rw [UInt16.lt_iff_toNat_lt]
    simp only [UInt16.reduceToNat]
    omega
  have hne : (0x41 : UInt8) ≠ SL_START_CHAR ∧ (0x41 : UInt8) ≠ SL_ESC_CHAR
      ∧ (0x41 : UInt8) ≠ SL_END_CHAR := by decide
  have hnext : (t.dec.u16Bytes + 1).toNat = t.dec.u16Bytes.toNat + 1 := by
    rw [UInt16.toNat_add, UInt16.toNat_one]
    omega
  cases hesc : t.dec.bInEsc with
  | true => simp [threadStep, readByte, readData, hne, hesc, hst, hlen, hlt, hnext]
  | false => simp [threadStep, readByte, readData, hne, hesc, hst, hlen, hlt, hnext]

/--
With the length wiped to 0xFFFF nothing stops the payload at the end of the buffer.
-/
theorem store_outside {t : Thread} (n : Nat) (hst : t.dec.eRxState = .waitData)
    (hlen : t.msg.u16Length = 0xFFFF)
    (hbytes : t.dec.u16Bytes.toNat + n = SL_MAX_MESSAGE_LENGTH.toNat)
    : .store SL_MAX_MESSAGE_LENGTH.toNat
        ∈ trace threadStep t ((List.replicate (n + 1) 0x41).map .byte) := by
  have hle : t.dec.u16Bytes ≤ SL_MAX_MESSAGE_LENGTH := by
    rw [UInt16.le_iff_toNat_le]
    omega
  obtain ⟨hstore, hst', hlen', hnext⟩ := threadStep_wiped hst hlen hle
  rw [List.replicate_succ, List.map_cons, trace_cons, List.mem_append]
  induction n generalizing t with
  | zero =>
    left
    have hfull : t.dec.u16Bytes.toNat = SL_MAX_MESSAGE_LENGTH.toNat := by simpa using hbytes
    rwa [← hfull]
  | succ n ih =>
    right
    have hbytes' : (threadStep t (.byte 0x41)).1.dec.u16Bytes.toNat + n
        = SL_MAX_MESSAGE_LENGTH.toNat := by omega
    have hle' : (threadStep t (.byte 0x41)).1.dec.u16Bytes ≤ SL_MAX_MESSAGE_LENGTH := by
      rw [UInt16.le_iff_toNat_le]
      omega
    obtain ⟨hs, hst'', hlen'', hnext'⟩ := threadStep_wiped hst' hlen' hle'
    rw [List.replicate_succ, List.map_cons, trace_cons, List.mem_append]
    exact ih hst' hlen' hbytes' hle' hs hst'' hlen'' hnext'

theorem store_log {t : Thread} (hlog : t.msg.u16Type = E_SL_MSG_LOG)
    (hmax : t.msg.u16Length = SL_MAX_MESSAGE_LENGTH)
    (hcrc : t.dec.u8CRC = calculateCRC t.msg.u16Type t.msg.u16Length t.msg.au8Message)
    : .store SL_MAX_MESSAGE_LENGTH.toNat ∈ (threadStep t (.byte SL_END_CHAR)).2 := by
  have hle : t.msg.u16Length ≤ SL_MAX_MESSAGE_LENGTH := UInt16.le_of_eq hmax
  have hbyte := readByte_end_of_ok hle hcrc
  simp [threadStep, hbyte, handleMessage, hlog, hmax]

/--
After a step that is not safe some bytes make the thread store outside.
-/
theorem exists_outside {t : Thread} {e : RxEvent} (h : Counting t) (hbad : ¬ StoreSafe t e)
    : ∃ bs : List UInt8, .store SL_MAX_MESSAGE_LENGTH.toNat
        ∈ trace threadStep t (e :: bs.map .byte) := by
  have hle := UInt16.le_iff_toNat_le.mp h.bytes_le
  have hfill : t.dec.u16Bytes.toNat + (SL_MAX_MESSAGE_LENGTH.toNat - t.dec.u16Bytes.toNat)
      = SL_MAX_MESSAGE_LENGTH.toNat := by omega
  cases e with
  | timeout =>
    simp only [StoreSafe, not_and_or, not_not] at hbad
    cases hbad with
    | inl hcrc =>
      -- one more byte is taken for the check byte
      refine ⟨0x41 :: List.replicate (SL_MAX_MESSAGE_LENGTH.toNat - t.dec.u16Bytes.toNat + 1) 0x41,
        ?_⟩
      rw [trace_cons, List.map_cons, trace_cons, List.mem_append, List.mem_append]
      right; right
      apply store_outside
      . cases hesc : t.dec.bInEsc <;>
          simp [threadStep, readByte, readData, SL_START_CHAR, SL_ESC_CHAR, SL_END_CHAR, hesc, hcrc]
      . cases hesc : t.dec.bInEsc <;>
          simp [threadStep, readByte, readData, SL_START_CHAR, SL_ESC_CHAR, SL_END_CHAR, hesc, hcrc,
            Message.clear]
      . cases hesc : t.dec.bInEsc <;>
          simpa [threadStep, readByte, readData, SL_START_CHAR, SL_ESC_CHAR, SL_END_CHAR, hesc,
            hcrc] using hfill
    | inr hdata =>
      refine ⟨List.replicate (SL_MAX_MESSAGE_LENGTH.toNat - t.dec.u16Bytes.toNat + 1) 0x41, ?_⟩
      rw [trace_cons, List.mem_append]
      right
      exact store_outside _ hdata rfl hfill
  | byte b =>
    simp only [StoreSafe, not_not] at hbad
    obtain ⟨rfl, hlog, hmax, hcrc⟩ := hbad
    refine ⟨[], ?_⟩
    rw [trace_cons, List.mem_append]
    left
    exact store_log hlog hmax hcrc

/--
If every step is safe no store leaves the buffer, and the first step that is not safe is followed by
one that does, if the line brings the bytes for it.
-/
theorem storesInside_of_storeSafe (es : List RxEvent) (h : Along threadStep StoreSafe threadStart es)
    : StoresInside (trace threadStep threadStart es)
        ∧ ∀ e, ¬ StoreSafe (exec threadStep threadStart es) e →
            ∃ bs : List UInt8,
              ¬ StoresInside (trace threadStep threadStart (es ++ e :: bs.map .byte)) := by
  refine ⟨storesInside_trace counting_threadStart h, ?_⟩
  intro e hbad
  have hcount := inv_exec threadStep (fun t e hinv hok => counting_threadStep hinv hok)
    counting_threadStart h
  obtain ⟨bs, hstore⟩ := exists_outside hcount hbad
  refine ⟨bs, ?_⟩
  intro hinside
  have := hinside _ (by rw [trace_append]; exact List.mem_append_right _ hstore)
  exact Nat.lt_irrefl _ this

/--
A timeout between two bytes of the type.
-/
theorem storesInside_of_storeSafe_type
    : StoresInside (trace threadStep threadStart [.byte SL_START_CHAR, .byte 0x41, .timeout]) :=
  (storesInside_of_storeSafe [.byte SL_START_CHAR, .byte 0x41, .timeout]
    (by simp only [Along]; refine ⟨?_, ?_, ?_, trivial⟩ <;> simp only [StoreSafe] <;> decide)).1

/--
The NUL behind a log message of 256 bytes is stored behind the buffer.
-/
theorem store_behind_log
    : ¬ ∀ es : List RxEvent, StoresInside (trace threadStep threadStart es) := by
  intro h
  obtain ⟨raw, -, hend, hrec⟩ := received_writeMessage threadStart E_SL_MSG_LOG
    SL_MAX_MESSAGE_LENGTH (fun _ => 0x41) (UInt16.le_refl SL_MAX_MESSAGE_LENGTH)
  have hin := h ((SL_START_CHAR :: raw).map .byte ++ [.byte SL_END_CHAR])
  rw [trace_append, exec_threadStep_bytes _ hend] at hin
  have hstore := store_log hrec.u16Type_eq hrec.u16Length_eq hrec.calculateCRC_eq
  have := hin SL_MAX_MESSAGE_LENGTH.toNat (by
    rw [trace_cons, trace_nil, List.append_nil]
    exact List.mem_append_right _ hstore)
  exact Nat.lt_irrefl _ this

end SerialLink
