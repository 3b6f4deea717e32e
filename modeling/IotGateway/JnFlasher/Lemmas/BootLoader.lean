import IotGateway.JnFlasher.Impl.BootLoader

/-!
This module says which messages of the device are accepted, and when its data fits into the buffer of
the caller.
-/

namespace JnFlasher

namespace BootLoader

open Accesses

/--
The calls after `iAttempts` give the rest of a message of this length. There are at most ten calls if
one of them finds nothing.
-/
inductive Arrives (env : Env) (u8Length : Nat) : (iAttempts : Nat) → (received : List UInt8)
    → (message : List UInt8) → Prop where
  | whole {iAttempts : Nat} {received found : List UInt8}
    (hread : env.read (iAttempts + 1) = some found)
    (hlength : u8Length ≤ received.length + found.length)
    : Arrives env u8Length iAttempts received (received ++ found.take (u8Length - received.length))
  | more {iAttempts : Nat} {received found message : List UInt8}
    (hread : env.read (iAttempts + 1) = some found)
    (hlength : received.length + found.length < u8Length)
    (hnext : found ≠ [] ∨ iAttempts + 1 < 10)
    (hrest : Arrives env u8Length (iAttempts + 1) (received ++ found) message)
    : Arrives env u8Length iAttempts received message

/--
The device sends a message with this length byte. The checksum is one of the bytes.
-/
structure Sends (env : Env) (u8Length : UInt8) (au8Msg : List UInt8) : Prop where
  first : ∃ found, env.read 0 = some found ∧ found.head? = some u8Length
  three : 3 ≤ u8Length
  rest : Arrives env u8Length.toNat 0 [] au8Msg
  checked : checkSum (u8Length :: au8Msg) = 0

/--
A read is safe if a message is only accepted with a correct checksum, no more than the requested
number of bytes is stored, and it succeeds only if exactly that many have been received.
-/
structure Safe (env : Env) (u8Length : UInt8) (result : Status × Buffer) : Prop where
  checked : ∀ message, (eBL_ReadMessage env).message = some message →
    ∃ u8RxLength au8Msg, Sends env u8RxLength au8Msg
  inside : Inside (fun _ => u8Length.toNat) result.2.stores
  received : result.1 = .ok →
    ∃ u8RxLength au8Msg, Sends env u8RxLength au8Msg ∧ u8RxLength.toNat = u8Length.toNat + 3

variable {env : Env}

section Message

variable {n iAttempts : Nat} {received message : List UInt8} {u8Length : UInt8} {au8Msg : List UInt8}

theorem readRest_iff (hlt : received.length < n)
    : (readRest env n iAttempts received = some message ∧ message.length = n)
        ↔ Arrives env n iAttempts received message := by
  fun_induction readRest env n iAttempts received with
  | case1 iAttempts received hread =>
    constructor
    . rintro ⟨⟨⟩, -⟩
    . intro h
      cases h with
      | whole hsome => cases hread.symm.trans hsome
      | more hsome => cases hread.symm.trans hsome
  | case2 iAttempts received found hread bytes hnext ih =>
    have hbytes : bytes = found := by
      have hlength := hnext.1
      simp only [bytes, List.length_append, List.length_take] at hlength
      exact List.take_of_length_le (by omega)
    rw [hbytes] at hnext ih ⊢
    rw [List.length_append] at hnext ih
    rw [ih hnext.1]
    constructor
    . intro hrest
      exact .more hread hnext.1 (hnext.2.imp_left List.ne_nil_of_length_pos) hrest
    . intro h
      cases h with
      | whole hsome hlength =>
        cases hread.symm.trans hsome
        omega
      | more hsome hlength hagain hrest =>
        cases hread.symm.trans hsome
        exact hrest
  | case3 iAttempts received found hread bytes hstop =>
    have hbytes : bytes = found.take (n - received.length) := rfl
    by_cases hlength : n ≤ received.length + found.length
    . have hwhole : (received ++ bytes).length = n := by
        rw [List.length_append, hbytes, List.length_take]
        omega
      constructor
      . rintro ⟨heq, -⟩
        obtain rfl := Option.some.inj heq
        exact .whole hread hlength
      . intro h
        cases h with
        | whole hsome _ =>
          cases hread.symm.trans hsome
          exact ⟨rfl, hwhole⟩
        | more hsome hless =>
          cases hread.symm.trans hsome
          omega
    . have hfound : bytes = found := List.take_of_length_le (by omega)
      rw [hfound, List.length_append] at hstop
      rw [hfound]
      constructor
      . rintro ⟨heq, hn⟩
        obtain rfl := Option.some.inj heq
        rw [List.length_append] at hn
        omega
      . intro h
        cases h with
        | whole hsome hless =>
          cases hread.symm.trans hsome
          omega
        | more hsome hless hagain =>
          cases hread.symm.trans hsome
          exact absurd ⟨hless, hagain.imp_left List.length_pos_iff.mpr⟩ hstop

/--
The message that `au8Msg` is, without its checksum.
-/
def accepted (u8Length : UInt8) (au8Msg : List UInt8) : Reply where
  eResponse := au8Msg.getD 1 0
  message := some (au8Msg.getD 0 0, (au8Msg.drop 2).take (u8Length - 3).toNat)

theorem Sends.readRest_eq (h : Sends env u8Length au8Msg)
    : readRest env u8Length.toNat 0 [] = some au8Msg ∧ au8Msg.length = u8Length.toNat := by
  have hthree := UInt8.le_iff_toNat_le.mp h.three
  exact (readRest_iff (Nat.lt_of_lt_of_le (Nat.zero_lt_succ 2) hthree)).mpr h.rest

theorem Sends.first_eq (h : Sends env u8Length au8Msg)
    : (env.read 0).map (List.take 1) = some [u8Length] := by
  obtain ⟨found, hread, hhead⟩ := h.first
  obtain ⟨more, rfl⟩ := List.head?_eq_some_iff.mp hhead
  rw [hread]
  rfl

theorem Sends.unique {u8Length' : UInt8} {au8Msg' : List UInt8} (h : Sends env u8Length au8Msg)
    (h' : Sends env u8Length' au8Msg') : u8Length' = u8Length ∧ au8Msg' = au8Msg := by
  cases h.first_eq.symm.trans h'.first_eq
  cases h.readRest_eq.1.symm.trans h'.readRest_eq.1
  exact ⟨rfl, rfl⟩

theorem Sends.readMessage_eq (h : Sends env u8Length au8Msg)
    : eBL_ReadMessage env = accepted u8Length au8Msg := by
  obtain ⟨hrest, hlength⟩ := h.readRest_eq
  unfold eBL_ReadMessage
  simp only [h.first_eq, if_neg (UInt8.not_lt.mpr h.three), hrest, if_neg (not_not.mpr hlength),
    if_neg (not_not.mpr h.checked), accepted]

theorem sends_of_first {u8Length : UInt8} {au8Msg : List UInt8}
    (hfirst : (env.read 0).map (List.take 1) = some [u8Length]) (hthree : ¬u8Length < 3)
    (hrest : readRest env u8Length.toNat 0 [] = some au8Msg) (hlength : au8Msg.length = u8Length.toNat)
    (hchecked : checkSum (u8Length :: au8Msg) = 0) : Sends env u8Length au8Msg := by
  have hthree := UInt8.not_lt.mp hthree
  have hpos : 0 < u8Length.toNat :=
    Nat.lt_of_lt_of_le (Nat.zero_lt_succ 2) (UInt8.le_iff_toNat_le.mp hthree)
  obtain ⟨found, hread, hfound⟩ := Option.map_eq_some_iff.mp hfirst
  have hhead : (found.take 1).head? = some u8Length := by rw [hfound, List.head?_cons]
  rw [List.head?_take, if_neg (Nat.succ_ne_zero 0)] at hhead
  exact ⟨⟨found, hread, hhead⟩, hthree, (readRest_iff hpos).mp ⟨hrest, hlength⟩, hchecked⟩

/--
Without such a message none is accepted.
-/
theorem readMessage_of_not_sends (h : ∀ u8Length au8Msg, ¬Sends env u8Length au8Msg)
    : ∃ eResponse ≠ E_BL_RESPONSE_OK, eBL_ReadMessage env = { eResponse } := by
  have hnone : E_BL_RESPONSE_NO_RESPONSE ≠ E_BL_RESPONSE_OK := by decide
  have hcrc : E_BL_RESPONSE_CRC_ERROR ≠ E_BL_RESPONSE_OK := by decide
  unfold eBL_ReadMessage
  split
  . next u8Length hfirst =>
    split
    . exact ⟨_, hnone, rfl⟩
    . next hthree =>
      split
      . exact ⟨_, hnone, rfl⟩
      . next au8Msg hrest =>
        split
        . exact ⟨_, hnone, rfl⟩
        . next hlength =>
          split
          . exact ⟨_, hcrc, rfl⟩
          . next hchecked =>
            have hsends := sends_of_first hfirst hthree hrest (not_not.mp hlength) (not_not.mp hchecked)
            exact absurd hsends (h u8Length au8Msg)
  . exact ⟨_, hnone, rfl⟩

/--
What the message has behind its length byte, its type, its response and its checksum.
-/
theorem Sends.data_length (h : Sends env u8Length au8Msg)
    : ((au8Msg.drop 2).take (u8Length - 3).toNat).length + 3 = u8Length.toNat := by
  have hlength := h.readRest_eq.2
  have hthree := UInt8.le_iff_toNat_le.mp h.three
  have hsub := UInt8.toNat_sub_of_le u8Length 3 h.three
  have h3 : (3 : UInt8).toNat = 3 := rfl
  rw [List.length_take, List.length_drop]
  omega

end Message

section Stores

variable {size : Unit → Nat} {buffer : Buffer} {eEndianness : Endianness}

@[simp]
theorem stores_store (buffer : Buffer) (start : Nat) (data : List UInt8)
    : (buffer.store start data).stores = buffer.stores ++ [⟨(), start, data.length⟩] := rfl

@[simp]
theorem length_native (eEndianness : Endianness) (bytes : List UInt8)
    : (native eEndianness bytes).length = bytes.length := by
  cases eEndianness with
  | bigEndian => exact List.length_reverse
  | littleEndian => rfl

@[simp]
theorem length_load (buffer : Buffer) (start count : Nat)
    : (buffer.load start count).length = count := by
  unfold Buffer.load
  rw [List.length_map, List.length_range]

theorem inside_convertBlocks {u8BlockSize blocks i : Nat} (hsize : 0 < u8BlockSize)
    : Inside size (convertBlocks eEndianness u8BlockSize blocks i buffer).stores
        ↔ Inside size buffer.stores ∧ (blocks = 0 ∨ i + blocks * u8BlockSize ≤ size ()) := by
  induction blocks generalizing i buffer with
  | zero => simp [convertBlocks]
  | succ blocks ih =>
    rw [convertBlocks, ih, stores_store, length_native, length_load, inside_append, inside_cons,
      and_assoc]
    have hmul : (blocks + 1) * u8BlockSize = blocks * u8BlockSize + u8BlockSize := Nat.succ_mul _ _
    refine and_congr_right fun _ => ?_
    constructor
    . rintro ⟨⟨hfirst, -⟩, hblocks⟩
      dsimp only at hfirst
      right
      rcases hblocks with rfl | hle
      . omega
      . omega
    . rintro (hzero | hle)
      . cases hzero
      . exact ⟨⟨.inr (by dsimp only; omega), inside_nil⟩, .inr (by omega)⟩

/--
The conversion of whole blocks stays inside what has been requested.
-/
theorem inside_convert {u8Length u8BlockSize : UInt8}
    : Inside (fun _ => u8Length.toNat) (convert eEndianness u8Length u8BlockSize buffer).stores
        ↔ Inside (fun _ => u8Length.toNat) buffer.stores
          ∧ (u8BlockSize = 2 ∨ u8BlockSize = 4 → u8BlockSize.toNat ∣ u8Length.toNat) := by
  unfold convert
  split
  . next hblock =>
    have hsize : 0 < u8BlockSize.toNat := by
      rcases hblock with rfl | rfl
      . exact Nat.zero_lt_succ 1
      . exact Nat.zero_lt_succ 3
    rw [inside_convertBlocks hsize, Nat.zero_add]
    refine and_congr_right fun _ => ?_
    have hdvd : u8BlockSize.toNat ∣ u8Length.toNat ↔ u8Length.toNat % u8BlockSize.toNat = 0 :=
      Nat.dvd_iff_mod_eq_zero
    constructor
    . intro hle _
      rw [hdvd]
      rcases hblock with rfl | rfl
      . have h2 : (2 : UInt8).toNat = 2 := rfl
        rw [h2] at hle ⊢
        omega
      . have h4 : (4 : UInt8).toNat = 4 := rfl
        rw [h4] at hle ⊢
        omega
    . intro h
      have hzero := hdvd.mp (h hblock)
      right
      rcases hblock with rfl | rfl
      . have h2 : (2 : UInt8).toNat = 2 := rfl
        rw [h2] at hzero ⊢
        omega
      . have h4 : (4 : UInt8).toNat = 4 := rfl
        rw [h4] at hzero ⊢
        omega
  . next hblock => simp [hblock]

theorem inside_id (buffer : Buffer)
    : Inside size (id buffer).stores ↔ Inside size buffer.stores ∧ True :=
  (and_iff_left trivial).symm

end Stores

section Read

variable {eEndianness : Endianness} {u32Address : UInt32} {u8Length u8BlockSize : UInt8}
  {eTxType eExpectedRxType : UInt8} {bytes : Nat → UInt8}

/--
The request to read is written.
-/
def Requests (env : Env) (eTxType : UInt8) (u32Address : UInt32) (u8Length : UInt8) : Prop :=
  u8Length ≤ 0xfc ∧ eBL_WriteMessage env eTxType (readCommand u32Address u8Length) [] = true

theorem checkResponse_ok {eResponse eRxType : UInt8}
    (h : eBL_CheckResponse eResponse eRxType eExpectedRxType = .ok)
    : eResponse = E_BL_RESPONSE_OK := by
  unfold eBL_CheckResponse at h
  by_contra hresponse
  rw [if_neg hresponse] at h
  split at h
  . cases h
  . split at h
    . cases h
    . split at h
      . cases h
      . cases h

theorem sends_of_accepts {message : UInt8 × List UInt8}
    (h : (eBL_ReadMessage env).message = some message)
    : ∃ u8Length au8Msg, Sends env u8Length au8Msg := by
  by_contra hnot
  push Not at hnot
  obtain ⟨eResponse, -, heq⟩ := readMessage_of_not_sends hnot
  rw [heq] at h
  cases h

/--
What is stored and returned for a reply.
-/
def resultOf (reply : Reply) (eExpectedRxType : UInt8) (convert : Buffer → Buffer) (u8Length : UInt8)
    (pu8Buffer : Buffer) : Status × Buffer :=
  if reply.u8RxDataLen ≠ u8Length.toNat then
    (.errorReading, reply.storeData pu8Buffer)
  else
    (eBL_CheckResponse reply.eResponse reply.eRxType eExpectedRxType,
      convert (reply.storeData pu8Buffer))

section Convert

variable {convert : Buffer → Buffer} {p : Prop}

theorem safe_of_rejected {eResponse : UInt8} (hresponse : eResponse ≠ E_BL_RESPONSE_OK)
    (hconvert : ∀ buffer, Inside (fun _ => u8Length.toNat) (convert buffer).stores
      ↔ Inside (fun _ => u8Length.toNat) buffer.stores ∧ p)
    (hzero : u8Length.toNat = 0 → p)
    : Safe env u8Length (resultOf { eResponse } eExpectedRxType convert u8Length { bytes }) := by
  constructor
  . intro message h
    exact sends_of_accepts h
  . unfold resultOf
    split
    . exact inside_nil
    . next hlength => exact (hconvert _).mpr ⟨inside_nil, hzero (not_not.mp hlength).symm⟩
  . intro hok
    unfold resultOf at hok
    split at hok
    . cases hok
    . exact absurd (checkResponse_ok hok) hresponse

theorem safe_of_accepted {u8RxLength : UInt8} {au8Msg : List UInt8}
    (hsends : Sends env u8RxLength au8Msg)
    (hconvert : ∀ buffer, Inside (fun _ => u8Length.toNat) (convert buffer).stores
      ↔ Inside (fun _ => u8Length.toNat) buffer.stores ∧ p)
    : Safe env u8Length
          (resultOf (accepted u8RxLength au8Msg) eExpectedRxType convert u8Length { bytes })
        ↔ u8RxLength.toNat ≤ u8Length.toNat + 3 ∧ (u8RxLength.toNat = u8Length.toNat + 3 → p) := by
  have hlength : (accepted u8RxLength au8Msg).u8RxDataLen + 3 = u8RxLength.toNat :=
    hsends.data_length
  have hstores : Inside (fun _ => u8Length.toNat)
      ((accepted u8RxLength au8Msg).storeData { bytes }).stores
      ↔ u8RxLength.toNat ≤ u8Length.toNat + 3 := by
    have hstores : ((accepted u8RxLength au8Msg).storeData { bytes }).stores
        = [⟨(), 0, (accepted u8RxLength au8Msg).u8RxDataLen⟩] := rfl
    rw [hstores]
    simp only [inside_cons, inside_nil, Nat.zero_add, and_true]
    omega
  have hchecked : ∀ message, (eBL_ReadMessage env).message = some message →
      ∃ u8RxLength au8Msg, Sends env u8RxLength au8Msg := fun _ => sends_of_accepts
  unfold resultOf
  split
  . next hdiffers =>
    constructor
    . intro h
      exact ⟨hstores.mp h.inside, fun hsame => absurd (by omega) hdiffers⟩
    . rintro ⟨hle, -⟩
      exact ⟨hchecked, hstores.mpr hle, fun h => by cases h⟩
  . next hsame =>
    have hexact : u8RxLength.toNat = u8Length.toNat + 3 := by
      rw [← not_not.mp hsame]
      exact hlength.symm
    constructor
    . intro h
      obtain ⟨hinside, hp⟩ := (hconvert _).mp h.inside
      exact ⟨hstores.mp hinside, fun _ => hp⟩
    . rintro ⟨hle, hp⟩
      exact ⟨hchecked, (hconvert _).mpr ⟨hstores.mpr hle, hp hexact⟩,
        fun _ => ⟨u8RxLength, au8Msg, hsends, hexact⟩⟩

/--
A read is safe exactly if the device sends no more than has been requested.
-/
theorem safe_readRequest_iff
    (hconvert : ∀ buffer, Inside (fun _ => u8Length.toNat) (convert buffer).stores
      ↔ Inside (fun _ => u8Length.toNat) buffer.stores ∧ p)
    (hzero : u8Length.toNat = 0 → p)
    : Safe env u8Length
          (readRequest env eTxType eExpectedRxType convert u32Address u8Length { bytes })
        ↔ (Requests env eTxType u32Address u8Length →
          ∀ u8RxLength au8Msg, Sends env u8RxLength au8Msg →
            u8RxLength.toNat ≤ u8Length.toNat + 3
              ∧ (u8RxLength.toNat = u8Length.toNat + 3 → p)) := by
  unfold readRequest
  split
  . next hlarge =>
    have hnot : ¬u8Length ≤ 0xfc := UInt8.not_le.mpr hlarge
    refine iff_of_true ?_ fun h => absurd h.1 hnot
    exact ⟨fun _ => sends_of_accepts, inside_nil, fun h => by cases h⟩
  . next hsmall =>
    have hle : u8Length ≤ 0xfc := UInt8.not_lt.mp hsmall
    have hempty : ¬([] : List UInt8).length > 0xfd := Nat.not_lt_zero _
    unfold eBL_Request
    rw [if_neg hempty]
    by_cases hwrite : eBL_WriteMessage env eTxType (readCommand u32Address u8Length) [] = true
    . rw [hwrite]
      by_cases hsends : ∃ u8RxLength au8Msg, Sends env u8RxLength au8Msg
      . obtain ⟨u8RxLength, au8Msg, hsends⟩ := hsends
        rw [hsends.readMessage_eq]
        refine (safe_of_accepted hsends hconvert).trans ?_
        constructor
        . intro h _ u8RxLength' au8Msg' hsends'
          obtain ⟨rfl, -⟩ := hsends.unique hsends'
          exact h
        . intro h
          exact h ⟨hle, hwrite⟩ u8RxLength au8Msg hsends
      . push Not at hsends
        obtain ⟨eResponse, hresponse, heq⟩ := readMessage_of_not_sends hsends
        rw [heq]
        refine iff_of_true (safe_of_rejected hresponse hconvert hzero) ?_
        intro _ u8RxLength au8Msg h
        exact absurd h (hsends u8RxLength au8Msg)
    . have hfails := Bool.eq_false_iff.mpr hwrite
      have hresponse : E_BL_RESPONSE_ERROR ≠ E_BL_RESPONSE_OK := by decide
      rw [hfails]
      refine iff_of_true (safe_of_rejected hresponse hconvert hzero) ?_
      intro h
      exact absurd h.2 hwrite

end Convert

/--
The reads are safe exactly if the device sends no more data than has been requested, and data of the
requested length consists of whole blocks.
-/
theorem safe_reads_iff (env : Env) (eEndianness : Endianness) (u32Address : UInt32)
    (u8Length u8BlockSize : UInt8) (bytes : Nat → UInt8)
    : (Safe env u8Length
          (eBL_MemoryRead env eEndianness u32Address u8Length u8BlockSize { bytes })
        ↔ (Requests env E_BL_MSG_TYPE_RAM_READ_REQUEST u32Address u8Length →
          ∀ u8RxLength au8Msg, Sends env u8RxLength au8Msg →
            u8RxLength.toNat ≤ u8Length.toNat + 3
              ∧ (u8RxLength.toNat = u8Length.toNat + 3 →
                u8BlockSize = 2 ∨ u8BlockSize = 4 → u8BlockSize.toNat ∣ u8Length.toNat)))
      ∧ (Safe env u8Length (eBL_FlashRead env u32Address u8Length { bytes })
        ↔ (Requests env E_BL_MSG_TYPE_FLASH_READ_REQUEST u32Address u8Length →
          ∀ u8RxLength au8Msg, Sends env u8RxLength au8Msg →
            u8RxLength.toNat ≤ u8Length.toNat + 3)) := by
  constructor
  . refine safe_readRequest_iff (fun _ => inside_convert) ?_
    intro hzero _
    rw [hzero]
    exact Nat.dvd_zero _
  . refine (safe_readRequest_iff inside_id fun _ => trivial).trans ?_
    simp only [implies_true, and_true]

/--
The device answers each request with this message, in one piece.
-/
def deviceEnv (u8Length : UInt8) (au8Msg : List UInt8) : Env where
  write _ := true
  read
    | 0 => some [u8Length]
    | _ => some au8Msg

theorem deviceEnv_sends {u8Length : UInt8} {au8Msg : List UInt8} (hthree : 3 ≤ u8Length)
    (hlength : au8Msg.length = u8Length.toNat) (hchecked : checkSum (u8Length :: au8Msg) = 0)
    : Sends (deviceEnv u8Length au8Msg) u8Length au8Msg := by
  refine ⟨⟨[u8Length], rfl, rfl⟩, hthree, ?_, hchecked⟩
  have hwhole : u8Length.toNat ≤ ([] : List UInt8).length + au8Msg.length := by
    rw [hlength]
    exact Nat.le_add_left _ _
  have harrives : Arrives (deviceEnv u8Length au8Msg) u8Length.toNat 0 [] _ := .whole rfl hwhole
  rw [List.nil_append, List.length_nil, Nat.sub_zero, ← hlength, List.take_length] at harrives
  rw [← hlength]
  exact harrives

/--
One byte is requested, and the device sends two of them with a correct checksum.
-/
theorem longer_not_safe
    : ¬Safe (deviceEnv 5 [0x20, 0, 1, 2, 0x26]) 1
          (eBL_MemoryRead (deviceEnv 5 [0x20, 0, 1, 2, 0x26]) .littleEndian 0 1 1
            { bytes := fun _ => 0 })
      ∧ ¬Safe (deviceEnv 5 [0x0c, 0, 1, 2, 0x0a]) 1
          (eBL_FlashRead (deviceEnv 5 [0x0c, 0, 1, 2, 0x0a]) 0 1 { bytes := fun _ => 0 }) := by
  constructor
  . intro h
    have hsends : Sends (deviceEnv 5 [0x20, 0, 1, 2, 0x26]) _ _ :=
      deviceEnv_sends (by decide) (by decide) (by decide)
    have hsafe := (safe_readRequest_iff (fun _ => inside_convert) (by decide)).mp h
    exact absurd (hsafe ⟨by decide, rfl⟩ _ _ hsends).1 (by decide)
  . intro h
    have hsends : Sends (deviceEnv 5 [0x0c, 0, 1, 2, 0x0a]) _ _ :=
      deviceEnv_sends (by decide) (by decide) (by decide)
    have hsafe := (safe_readRequest_iff inside_id fun _ => trivial).mp h
    exact absurd (hsafe ⟨by decide, rfl⟩ _ _ hsends).1 (by decide)

end Read

end BootLoader

end JnFlasher
