import IotGateway.SerialLink.Impl.ReadMessage

/-!
This module says what a frame on the serial line is, without reference to the receiver: the bytes
between `SL_START_CHAR` and `SL_END_CHAR`, with their escapes removed, are type, length, check byte
and payload.
-/

namespace SerialLink

/--
Remove the escapes. `esc` says that an escape character came before the first byte.
-/
def unescape (esc : Bool) : List UInt8 → List UInt8
  | [] => []
  | b :: bs =>
    if b = SL_ESC_CHAR then
      unescape true bs
    else
      (if esc then b ^^^ 0x10 else b) :: unescape false bs

/--
An escape character came before the end and its byte did not.
-/
def dangling (esc : Bool) : List UInt8 → Bool
  | [] => esc
  | b :: bs => dangling (b = SL_ESC_CHAR) bs

def xorAll (bs : List UInt8) : UInt8 := bs.foldl (· ^^^ ·) 0

/--
`raw`, found between a start and an end character, is one complete frame with this content.
-/
structure IsFrame (raw : List UInt8) (u16Type u16Length : UInt16) (payload : List UInt8) : Prop where
  no_end : SL_END_CHAR ∉ raw
  unescape_eq :
    unescape false raw
      =
    [msb u16Type, lsb u16Type, msb u16Length, lsb u16Length,
      xorAll ([msb u16Type, lsb u16Type, msb u16Length, lsb u16Length] ++ payload)] ++ payload
  length_payload : payload.length = u16Length.toNat
  length_le : u16Length ≤ SL_MAX_MESSAGE_LENGTH

/--
What arrived after the most recent start character.
-/
def sinceStart : List RxEvent → Option (List RxEvent)
  | [] => none
  | e :: es =>
    match sinceStart es with
    | some since => some since
    | none => if e = .byte SL_START_CHAR then some es else none

/--
The bytes among the events.
-/
def bytesOf (es : List RxEvent) : List UInt8 :=
  es.filterMap fun
    | .byte u8Data => some u8Data
    | .timeout => none

theorem calculateCRC_eq_xorAll (u16Type u16Length : UInt16) (pu8Data : Nat → UInt8)
    : calculateCRC u16Type u16Length pu8Data
        =
      xorAll ([msb u16Type, lsb u16Type, msb u16Length, lsb u16Length]
        ++ (List.range u16Length.toNat).map pu8Data) := by
  unfold calculateCRC xorAll
  simp [List.foldl_map]

theorem lt_of_special {b : UInt8} (h : b = SL_START_CHAR ∨ b = SL_ESC_CHAR ∨ b = SL_END_CHAR)
    : b < 0x10 := by
  rcases h with rfl | rfl | rfl <;> decide

theorem xor_not_lt {b : UInt8} (h : b < 0x10) : ¬ b ^^^ 0x10 < 0x10 := by
  have hall : ∀ n : Fin 16, ¬ UInt8.ofNat n ^^^ 0x10 < 0x10 := by decide
  have := hall ⟨b.toNat, h⟩
  simpa using this

theorem xor_xor_cancel (b c : UInt8) : b ^^^ c ^^^ c = b := by
  rw [UInt8.xor_assoc, UInt8.xor_self, UInt8.xor_zero]

theorem ne_esc_of_not_lt {b : UInt8} (h : ¬ b < 0x10) : b ≠ SL_ESC_CHAR := by
  intro heq
  exact h (lt_of_special (Or.inr (Or.inl heq)))

/--
The last byte sent for a data byte is never below 0x10.
-/
theorem txByte_cases (u8Data : UInt8)
    : (txByte false u8Data = [SL_ESC_CHAR, u8Data ^^^ 0x10] ∧ ¬ u8Data ^^^ 0x10 < 0x10)
        ∨ (txByte false u8Data = [u8Data] ∧ ¬ u8Data < 0x10) := by
  by_cases h : u8Data < 0x10
  . left
    exact ⟨by simp [txByte, h], xor_not_lt h⟩
  . right
    exact ⟨by simp [txByte, h], h⟩

/--
What the sender escapes the receiver gets back, whatever follows.
-/
@[simp]
theorem unescape_txByte (u8Data : UInt8) (bs : List UInt8)
    : unescape false (txByte false u8Data ++ bs) = u8Data :: unescape false bs := by
  cases txByte_cases u8Data with
  | inl h =>
    have hesc := ne_esc_of_not_lt h.2
    simp [h.1, unescape, hesc, xor_xor_cancel]
  | inr h =>
    have hesc := ne_esc_of_not_lt h.2
    simp [h.1, unescape, hesc]

/--
No byte of an escaped sequence is taken for the start or the end of a frame.
-/
theorem not_mem_txByte (u8Data c : UInt8) (hc : c = SL_START_CHAR ∨ c = SL_END_CHAR)
    : c ∉ txByte false u8Data := by
  have hlt : c < 0x10 := lt_of_special (by tauto)
  have hne : c ≠ SL_ESC_CHAR := by rcases hc with rfl | rfl <;> decide
  cases txByte_cases u8Data with
  | inl h =>
    rw [h.1]
    intro hmem
    simp only [List.mem_cons, List.not_mem_nil, or_false, hne, false_or] at hmem
    exact h.2 (hmem ▸ hlt)
  | inr h =>
    rw [h.1]
    intro hmem
    simp only [List.mem_cons, List.not_mem_nil, or_false] at hmem
    exact h.2 (hmem ▸ hlt)

theorem unescape_flatMap_txByte (payload bs : List UInt8)
    : unescape false (payload.flatMap (txByte false) ++ bs) = payload ++ unescape false bs := by
  induction payload with
  | nil => rfl
  | cons b payload ih =>
    rw [List.flatMap_cons, List.append_assoc, unescape_txByte, ih, List.cons_append]

theorem not_mem_flatMap_txByte (payload : List UInt8) (c : UInt8)
    (hc : c = SL_START_CHAR ∨ c = SL_END_CHAR)
    : c ∉ payload.flatMap (txByte false) := by
  intro hmem
  obtain ⟨b, -, hb⟩ := List.mem_flatMap.mp hmem
  exact not_mem_txByte b c hc hb

theorem writeMessage_eq (u16Type u16Length : UInt16) (pu8Data : Nat → UInt8)
    : writeMessage u16Type u16Length pu8Data
        =
      SL_START_CHAR
        :: (([msb u16Type, lsb u16Type, msb u16Length, lsb u16Length,
              calculateCRC u16Type u16Length pu8Data]
            ++ (List.range u16Length.toNat).map pu8Data).flatMap (txByte false)
          ++ [SL_END_CHAR]) := by
  unfold writeMessage
  have htx : ∀ b, txByte true b = [b] := fun b => by simp [txByte]
  simp [htx, List.flatMap_map]

end SerialLink
