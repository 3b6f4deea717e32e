import IotGateway.Lib.Machine
import IotGateway.SerialLink.Frame

/-!
This module contains what `eSL_ReadMessage` does with the bytes between a start and an end
character, and how the call, the thread around it and the thread's single steps fit together.
-/

namespace SerialLink

/--
The state after a byte, when the call goes on.
-/
def receive (u16MaxLength : UInt16) (t : Thread) (u8Data : UInt8) : Thread :=
  let r := readByte u16MaxLength t.dec t.msg u8Data
  ⟨r.dec, r.msg⟩

def receiveData (u16MaxLength : UInt16) (t : Thread) (u8Data : UInt8) : Thread :=
  let r := readData u16MaxLength t.dec t.msg u8Data
  ⟨r.dec, r.msg⟩

def Thread.withEsc (t : Thread) (bInEsc : Bool) : Thread := ⟨{ t.dec with bInEsc }, t.msg⟩

@[simp]
theorem Thread.withEsc_bInEsc (t : Thread) (bInEsc : Bool)
    : (t.withEsc bInEsc).dec.bInEsc = bInEsc := rfl

@[simp]
theorem Thread.withEsc_withEsc (t : Thread) (a b : Bool)
    : (t.withEsc a).withEsc b = t.withEsc b := rfl

theorem readData_ok (u16MaxLength : UInt16) (d : Decoder) (m : Message) (u8Data : UInt8)
    : (readData u16MaxLength d m u8Data).ok = false := by
  unfold readData
  split <;> try rfl
  all_goals
    dsimp
    split <;> rfl

theorem readByte_end (u16MaxLength : UInt16) (d : Decoder) (m : Message)
    : readByte u16MaxLength d m SL_END_CHAR
        =
      if u16MaxLength < m.u16Length then
        ⟨{ d with eRxState := .waitStart }, m, [], false⟩
      else if d.u8CRC = calculateCRC m.u16Type m.u16Length m.au8Message then
        ⟨{ d with eRxState := .waitStart }, m, [], true⟩
      else
        ⟨d, m, [], false⟩ := by
  simp [readByte]

theorem readByte_ok_false (u16MaxLength : UInt16) (d : Decoder) (m : Message) {u8Data : UInt8}
    (h : u8Data ≠ SL_END_CHAR)
    : (readByte u16MaxLength d m u8Data).ok = false := by
  unfold readByte
  split
  . rfl
  . split
    . rfl
    . split <;> apply readData_ok

/--
Only the end character completes a message, and only if length and check byte fit.
-/
theorem readByte_ok_iff (u16MaxLength : UInt16) (d : Decoder) (m : Message) (u8Data : UInt8)
    : (readByte u16MaxLength d m u8Data).ok = true
        ↔
      u8Data = SL_END_CHAR ∧ m.u16Length ≤ u16MaxLength
        ∧ d.u8CRC = calculateCRC m.u16Type m.u16Length m.au8Message := by
  by_cases hend : u8Data = SL_END_CHAR
  . subst hend
    rw [readByte_end]
    split
    . next hlen => simp [UInt16.not_le.mpr hlen]
    . next hlen =>
      split
      . next hcrc => simp [UInt16.not_lt.mp hlen, hcrc]
      . next hcrc => simp [hcrc]
  . simp [readByte_ok_false u16MaxLength d m hend, hend]

/--
The end character that completes a message changes nothing but the receive state.
-/
theorem readByte_end_of_ok {u16MaxLength : UInt16} {d : Decoder} {m : Message}
    (hlen : m.u16Length ≤ u16MaxLength)
    (hcrc : d.u8CRC = calculateCRC m.u16Type m.u16Length m.au8Message)
    : readByte u16MaxLength d m SL_END_CHAR = ⟨{ d with eRxState := .waitStart }, m, [], true⟩ := by
  rw [readByte_end, if_neg (UInt16.not_lt.mpr hlen), if_pos hcrc]

theorem receive_start (u16MaxLength : UInt16) (t : Thread)
    : receive u16MaxLength t SL_START_CHAR
        =
      ⟨{ t.dec with u16Bytes := 0, bInEsc := false, eRxState := .waitTypeMsb }, t.msg⟩ := by
  simp [receive, readByte]

theorem receiveData_withEsc (u16MaxLength : UInt16) (t : Thread) (bInEsc : Bool) (u8Data : UInt8)
    : receiveData u16MaxLength (t.withEsc bInEsc) u8Data
        =
      (receiveData u16MaxLength t u8Data).withEsc bInEsc := by
  rcases t with ⟨⟨eRxState, u8CRC, u16Bytes, esc⟩, m⟩
  cases eRxState with
  | waitLenLsb =>
    by_cases h : u16MaxLength < m.u16Length + u8Data.toUInt16
    . simp [receiveData, readData, Thread.withEsc, h]
    . simp [receiveData, readData, Thread.withEsc, h]
  | waitData =>
    by_cases h : u16Bytes < m.u16Length
    . simp [receiveData, readData, Thread.withEsc, h]
    . simp [receiveData, readData, Thread.withEsc, h]
  | _ => rfl

theorem foldl_receiveData_withEsc (u16MaxLength : UInt16) (t : Thread) (bInEsc : Bool)
    (bs : List UInt8)
    : bs.foldl (receiveData u16MaxLength) (t.withEsc bInEsc)
        =
      (bs.foldl (receiveData u16MaxLength) t).withEsc bInEsc := by
  induction bs generalizing t with
  | nil => rfl
  | cons b bs ih =>
    simp only [List.foldl_cons]
    rw [receiveData_withEsc, ih]

theorem receive_data {u16MaxLength : UInt16} {t : Thread} {u8Data : UInt8}
    (hstart : u8Data ≠ SL_START_CHAR) (hesc : u8Data ≠ SL_ESC_CHAR) (hend : u8Data ≠ SL_END_CHAR)
    : receive u16MaxLength t u8Data
        =
      receiveData u16MaxLength (t.withEsc false)
        (if t.dec.bInEsc then u8Data ^^^ 0x10 else u8Data) := by
  rcases t with ⟨⟨eRxState, u8CRC, u16Bytes, bInEsc⟩, m⟩
  cases bInEsc <;> simp [receive, readByte, receiveData, Thread.withEsc, hstart, hesc, hend]

/--
Between control characters the receiver works on the unescaped bytes.
-/
theorem foldl_receive (u16MaxLength : UInt16) (t : Thread) (raw : List UInt8)
    (hstart : SL_START_CHAR ∉ raw) (hend : SL_END_CHAR ∉ raw)
    : raw.foldl (receive u16MaxLength) t
        =
      ((unescape t.dec.bInEsc raw).foldl (receiveData u16MaxLength) t).withEsc
        (dangling t.dec.bInEsc raw) := by
  induction raw generalizing t with
  | nil => rfl
  | cons b raw ih =>
    simp only [List.mem_cons, not_or] at hstart hend
    obtain ⟨hbstart, hstart⟩ := hstart
    obtain ⟨hbend, hend⟩ := hend
    rw [List.foldl_cons, ih _ hstart hend]
    by_cases hesc : b = SL_ESC_CHAR
    . have hrec : receive u16MaxLength t b = t.withEsc true := by
        subst hesc
        simp [receive, readByte, Thread.withEsc]
      rw [hrec]
      simp only [unescape, dangling, hesc, Thread.withEsc_bInEsc, ↓reduceIte, decide_true]
      rw [foldl_receiveData_withEsc, Thread.withEsc_withEsc]
    . rw [receive_data (Ne.symm hbstart) hesc (Ne.symm hbend)]
      simp only [unescape, dangling, hesc, ↓reduceIte, List.foldl_cons, decide_false]
      rw [receiveData_withEsc, foldl_receiveData_withEsc]
      simp only [Thread.withEsc_bInEsc, Thread.withEsc_withEsc]

theorem foldl_receiveData_waitStart {u16MaxLength : UInt16} {t : Thread}
    (hst : t.dec.eRxState = .waitStart) (bs : List UInt8)
    : bs.foldl (receiveData u16MaxLength) t = t := by
  induction bs with
  | nil => rfl
  | cons b bs ih =>
    have hstep : receiveData u16MaxLength t b = t := by simp [receiveData, readData, hst]
    rw [List.foldl_cons, hstep, ih]

theorem foldl_receiveData_header {u16MaxLength : UInt16} {t : Thread}
    (hst : t.dec.eRxState = .waitTypeMsb) (th tl lh ll crc : UInt8)
    : [th, tl, lh, ll, crc].foldl (receiveData u16MaxLength) t
        =
      if u16MaxLength < word lh ll then
        ⟨{ t.dec with eRxState := .waitStart },
          { t.msg with u16Type := word th tl, u16Length := word lh ll }⟩
      else
        ⟨{ t.dec with eRxState := .waitData, u8CRC := crc },
          { t.msg with u16Type := word th tl, u16Length := word lh ll }⟩ := by
  by_cases h : u16MaxLength < word lh ll
  . have h' : u16MaxLength < lh.toUInt16 <<< 8 + ll.toUInt16 := h
    simp [receiveData, readData, hst, h', word]
  . have h' : ¬ u16MaxLength < lh.toUInt16 <<< 8 + ll.toUInt16 := h
    simp [receiveData, readData, hst, h', word]

/--
`buf` with `bs` stored from `i` on.
-/
def storeAll (buf : Nat → UInt8) (i : Nat) : List UInt8 → Nat → UInt8
  | [] => buf
  | b :: bs => storeAll (Function.update buf i b) (i + 1) bs

theorem storeAll_of_lt (buf : Nat → UInt8) (i : Nat) (bs : List UInt8) {j : Nat} (h : j < i)
    : storeAll buf i bs j = buf j := by
  induction bs generalizing buf i with
  | nil => rfl
  | cons b bs ih =>
    simp only [storeAll]
    rw [ih _ _ (by omega), Function.update_of_ne (by omega)]

theorem map_storeAll (buf : Nat → UInt8) (i : Nat) (bs : List UInt8)
    : (List.range bs.length).map (fun k => storeAll buf i bs (i + k)) = bs := by
  induction bs generalizing buf i with
  | nil => rfl
  | cons b bs ih =>
    rw [List.length_cons, List.range_succ_eq_map, List.map_cons, List.map_map]
    simp only [storeAll]
    congr 1
    . rw [storeAll_of_lt _ _ _ (by omega)]
      simp
    . conv => rhs; rw [← ih (Function.update buf i b) (i + 1)]
      apply List.map_congr_left
      intro k _
      simp only [Function.comp_apply]
      congr 1
      omega

theorem foldl_receiveData_payload {u16MaxLength : UInt16} {t : Thread} {bs : List UInt8}
    (hst : t.dec.eRxState = .waitData)
    (hlen : t.dec.u16Bytes.toNat + bs.length ≤ t.msg.u16Length.toNat)
    : bs.foldl (receiveData u16MaxLength) t
        =
      ⟨{ t.dec with u16Bytes := t.dec.u16Bytes + UInt16.ofNat bs.length },
        { t.msg with au8Message := storeAll t.msg.au8Message t.dec.u16Bytes.toNat bs }⟩ := by
  induction bs generalizing t with
  | nil => simp [storeAll]
  | cons b bs ih =>
    have hlt := t.msg.u16Length.toNat_lt
    simp only [List.length_cons] at hlen
    have hstore : t.dec.u16Bytes < t.msg.u16Length := by
      rw [UInt16.lt_iff_toNat_lt]
      omega
    have hnext : (t.dec.u16Bytes + 1).toNat = t.dec.u16Bytes.toNat + 1 := by
      rw [UInt16.toNat_add, UInt16.toNat_one]
      omega
    have hstep : receiveData u16MaxLength t b
          =
        ⟨{ t.dec with u16Bytes := t.dec.u16Bytes + 1 },
          { t.msg with au8Message := Function.update t.msg.au8Message t.dec.u16Bytes.toNat b }⟩ := by
      simp [receiveData, readData, hst, hstore]
    rw [List.foldl_cons, hstep, ih]
    . simp only [storeAll, hnext, List.length_cons]
      congr 2
      rw [UInt16.add_assoc]
      congr 1
      apply UInt16.toNat_inj.mp
      simp only [UInt16.toNat_add, UInt16.toNat_one, UInt16.toNat_ofNat']
      omega
    . exact hst
    . simp only [hnext]
      omega

theorem foldl_receiveData_length {u16MaxLength : UInt16} {t : Thread} {bs : List UInt8}
    (hst : t.dec.eRxState = .waitData)
    : (bs.foldl (receiveData u16MaxLength) t).msg.u16Length = t.msg.u16Length := by
  induction bs generalizing t with
  | nil => rfl
  | cons b bs ih =>
    rw [List.foldl_cons]
    by_cases h : t.dec.u16Bytes < t.msg.u16Length
    . rw [ih] <;> simp [receiveData, readData, hst, h]
    . rw [ih] <;> simp [receiveData, readData, hst, h]

/--
The receiver holds a complete message and its check byte.
-/
structure Received (t : Thread) (u16Type u16Length : UInt16) (u8CRC : UInt8)
    (payload : List UInt8) : Prop where
  u16Type_eq : t.msg.u16Type = u16Type
  u16Length_eq : t.msg.u16Length = u16Length
  u8CRC_eq : t.dec.u8CRC = u8CRC
  payload_eq : t.msg.payload = payload

/--
A complete frame is received as it was sent, whatever the receiver was doing before.
-/
theorem received_of_unescape_eq {u16MaxLength : UInt16} (t : Thread) {raw payload : List UInt8}
    {th tl lh ll crc : UInt8} (hstart : SL_START_CHAR ∉ raw) (hend : SL_END_CHAR ∉ raw)
    (hun : unescape false raw = [th, tl, lh, ll, crc] ++ payload)
    (hlen : payload.length = (word lh ll).toNat) (hle : word lh ll ≤ u16MaxLength)
    : Received ((SL_START_CHAR :: raw).foldl (receive u16MaxLength) t)
        (word th tl) (word lh ll) crc payload := by
  rw [List.foldl_cons, receive_start, foldl_receive _ _ _ hstart hend]
  simp only [hun, List.foldl_append]
  rw [foldl_receiveData_header rfl, if_neg (UInt16.not_lt.mpr hle)]
  rw [foldl_receiveData_payload rfl (by simp [hlen])]
  constructor
  . rfl
  . rfl
  . rfl
  . simp only [Thread.withEsc, Message.payload, ← hlen]
    conv => rhs; rw [← map_storeAll t.msg.au8Message 0 payload]
    simp

/--
Conversely, a frame whose length field fits its number of bytes was received as a whole.
-/
theorem received_of_length_eq {u16MaxLength : UInt16} (t : Thread) {raw : List UInt8}
    (hstart : SL_START_CHAR ∉ raw) (hend : SL_END_CHAR ∉ raw)
    (hle : ((SL_START_CHAR :: raw).foldl (receive u16MaxLength) t).msg.u16Length ≤ u16MaxLength)
    (hlen : (unescape false raw).length
        = 5 + ((SL_START_CHAR :: raw).foldl (receive u16MaxLength) t).msg.u16Length.toNat)
    : ∃ th tl lh ll crc payload, unescape false raw = [th, tl, lh, ll, crc] ++ payload
        ∧ payload.length = (word lh ll).toNat ∧ word lh ll ≤ u16MaxLength := by
  obtain ⟨th, tl, lh, ll, crc, payload, hun⟩
      : ∃ th tl lh ll crc payload, unescape false raw = [th, tl, lh, ll, crc] ++ payload := by
    match h : unescape false raw with
    | th :: tl :: lh :: ll :: crc :: payload => exact ⟨th, tl, lh, ll, crc, payload, rfl⟩
    | [] | [_] | [_, _] | [_, _, _] | [_, _, _, _] =>
      rw [h] at hlen
      simp only [List.length_cons, List.length_nil] at hlen
      omega
  refine ⟨th, tl, lh, ll, crc, payload, hun, ?_⟩
  rw [List.foldl_cons, receive_start, foldl_receive _ _ _ hstart hend] at hle hlen
  simp only [hun, List.foldl_append, Thread.withEsc] at hle hlen
  rw [foldl_receiveData_header rfl] at hle hlen
  split at hle
  . next hgt =>
    rw [foldl_receiveData_waitStart rfl] at hle
    exact absurd hle (UInt16.not_le.mpr hgt)
  . next hgt =>
    rw [if_neg hgt, foldl_receiveData_length rfl] at hlen
    simp only [List.length_append, List.length_cons, List.length_nil] at hlen
    exact ⟨by omega, UInt16.not_lt.mp hgt⟩

/--
What `eSL_WriteMessage` emits before the end character leaves the whole message in the receiver.
-/
theorem received_writeMessage {u16MaxLength : UInt16} (t : Thread) (u16Type u16Length : UInt16)
    (pu8Data : Nat → UInt8) (hle : u16Length ≤ u16MaxLength)
    : ∃ raw, writeMessage u16Type u16Length pu8Data = SL_START_CHAR :: raw ++ [SL_END_CHAR]
        ∧ SL_END_CHAR ∉ SL_START_CHAR :: raw
        ∧ Received ((SL_START_CHAR :: raw).foldl (receive u16MaxLength) t) u16Type u16Length
            (calculateCRC u16Type u16Length pu8Data) ((List.range u16Length.toNat).map pu8Data) := by
  let payload := (List.range u16Length.toNat).map pu8Data
  let crc := calculateCRC u16Type u16Length pu8Data
  let header := [msb u16Type, lsb u16Type, msb u16Length, lsb u16Length, crc]
  let raw := (header ++ payload).flatMap (txByte false)
  have hstart : SL_START_CHAR ∉ raw := not_mem_flatMap_txByte _ _ (Or.inl rfl)
  have hend : SL_END_CHAR ∉ raw := not_mem_flatMap_txByte _ _ (Or.inr rfl)
  have hun : unescape false raw = header ++ payload := by
    have := unescape_flatMap_txByte (header ++ payload) []
    simpa only [unescape, List.append_nil] using this
  have hword : word (msb u16Length) (lsb u16Length) = u16Length := word_msb_lsb u16Length
  refine ⟨raw, writeMessage_eq u16Type u16Length pu8Data, ?_, ?_⟩
  . simp only [List.mem_cons, not_or]
    exact ⟨end_ne_start, hend⟩
  . have hsize : payload.length = (word (msb u16Length) (lsb u16Length)).toNat := by
      simp [hword, payload]
    have := received_of_unescape_eq t hstart hend hun hsize (hword.symm ▸ hle)
    simpa only [word_msb_lsb] using this

theorem Received.calculateCRC_eq {t : Thread} {u16Type u16Length : UInt16} {pu8Data : Nat → UInt8}
    (h : Received t u16Type u16Length (calculateCRC u16Type u16Length pu8Data)
      ((List.range u16Length.toNat).map pu8Data))
    : t.dec.u8CRC = calculateCRC t.msg.u16Type t.msg.u16Length t.msg.au8Message := by
  obtain ⟨hty, hlen, hcrc, hpay⟩ := h
  rw [Message.payload, hlen] at hpay
  rw [hcrc, hty, hlen, calculateCRC_eq_xorAll, calculateCRC_eq_xorAll, hpay]

end SerialLink
