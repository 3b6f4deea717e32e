import IotGateway.NfcDaemon.Impl.Mful
import IotGateway.NfcDaemon.Lemmas.Handled
import IotGateway.NfcDaemon.Lemmas.Ndef

/-!
This module says which tags the NFC daemon handles without leaving its buffers.
-/

namespace NfcDaemon

open Accesses

/--
All bytes that the length of a tag asks for are read.
-/
structure Complete (tag : Tag) (answered : Nat → Bool) : Prop where
  isndef : tag.byte 0 = 0x03
  currLen : (tagHeader tag.byte).currLen < NDEF_MAX_SIZE - 2
  answered : ∀ i < (tagHeader tag.byte).num16, answered i = true

/--
What the cache holds then. Behind the bytes of this tag there are those of an earlier one.
-/
def cached (tag : Tag) (ndefCache : Mem) : Mem :=
  fun j => if j < covered tag.byte then tag.byte j else ndefCache j

def messageHeader (tag : Tag) (ndefCache : Mem) : NdefHeader :=
  ndefHeader (cached tag ndefCache) (tagHeader tag.byte).ndefStart

/--
The message is for `commissionHandleNfc`, in the version that it supports.
-/
structure Supported (tag : Tag) (ndefCache : Mem) : Prop where
  nonempty : 0 < (messageHeader tag ndefCache).plen
  uri_len : (messageHeader tag ndefCache).uri_len < NDEF_MAX_URI
  uri :
    let h := messageHeader tag ndefCache
    (bytes (cached tag ndefCache) h.uriStart h.uri_len).takeWhile (· ≠ 0) = COMMISSION_URI
  version :
    cached tag ndefCache (messageHeader tag ndefCache).payloadStart = COMMISSION_SUPPORTED_VERSION

/--
The lengths of a message keep to the buffers. 25 bytes are written besides a large payload.
-/
structure Fits (tag : Tag) (ndefCache : Mem) : Prop where
  currLen : (tagHeader tag.byte).currLen ≠ NDEF_MAX_SIZE - 3
  nonneg : 0 ≤ (messageHeader tag ndefCache).plen
  plen : (messageHeader tag ndefCache).plen < NDEF_MAX_PAYLOAD
  payload :
    let h := messageHeader tag ndefCache
    h.payloadStart + h.plen ≤ NDEF_MAX_SIZE
  written : Supported tag ndefCache → (messageHeader tag ndefCache).plen + 25 ≤ NDEF_MAX_SIZE

/--
A pass stays inside the buffers, and the result of its read is usable.
-/
structure Bounded (env : Surroundings) (answered : Nat → Bool) (payload : Mem) (s : Commission)
    : Prop where
  inside : Inside Buffer.size (mfulAccesses env answered payload s)
  result :
    let r := (mfulHandle env answered payload s).1
    r.ret ≤ 0 ∨ (r.ret < NDEF_MAX_PAYLOAD ∧ r.payload.length = r.ret)

section Read

variable {tag : Tag} {answered : Nat → Bool} {ndefCache : Mem}

theorem readBlocks_snd (answered : Nat → Bool) (tag : Tag) (n i : Nat) (ndefCache : Mem)
    : (readBlocks tag answered n i ndefCache).2 = true
        ↔ ∀ k, i ≤ k → k < i + n → answered k = true := by
  induction n generalizing i ndefCache with
  | zero =>
    simp only [readBlocks, true_iff]
    intro k hle hlt
    omega
  | succ n ih =>
    rw [readBlocks]
    split
    . next hi =>
      rw [ih]
      constructor
      . intro h k hle hlt
        by_cases heq : k = i
        . rw [heq, hi]
        . exact h k (by omega) (by omega)
      . intro h k hle hlt
        exact h k (by omega) (by omega)
    . next hi =>
      simp only [Bool.false_eq_true, false_iff]
      intro h
      exact hi (h i (Nat.le_refl i) (by omega))

theorem answered_of_mem_readBlocksAccesses {n i : Nat} {access : Access Buffer}
    (h : access ∈ readBlocksAccesses answered n i)
    : ∃ k, i ≤ k ∧ k < i + n ∧ (∀ j, i ≤ j → j ≤ k → answered j = true)
        ∧ access = ⟨.ndefCache, k * 16, 16⟩ := by
  induction n generalizing i with
  | zero => cases h
  | succ n ih =>
    rw [readBlocksAccesses] at h
    split at h
    . next hi =>
      cases h with
      | head =>
        refine ⟨i, Nat.le_refl i, by omega, ?_, rfl⟩
        intro j hle hle'
        rw [Nat.le_antisymm hle' hle, hi]
      | tail _ h =>
        obtain ⟨k, hle, hlt, hanswered, rfl⟩ := ih h
        refine ⟨k, by omega, by omega, ?_, rfl⟩
        intro j hj hj'
        by_cases heq : j = i
        . rw [heq, hi]
        . exact hanswered j (by omega) hj'
    . cases h

theorem tagHeader_currLen (mem : Mem)
    : (tagHeader mem).bytesRead = 12 ∨ ((tagHeader mem).bytesRead = 14 ∧ (tagHeader mem).currLen < 256)
      := by
  unfold tagHeader
  split
  . exact .inl rfl
  . exact .inr ⟨rfl, UInt8.toNat_lt _⟩

/--
One length that passes the check is too large for the cache.
-/
theorem covered_le_iff {mem : Mem} (h : (tagHeader mem).currLen < NDEF_MAX_SIZE - 2)
    : covered mem ≤ NDEF_MAX_SIZE ↔ (tagHeader mem).currLen ≠ NDEF_MAX_SIZE - 3 := by
  have hread := tagHeader_currLen mem
  unfold NDEF_MAX_SIZE at *
  unfold covered TagHeader.num16
  simp only
  rw [Int.tdiv_eq_ediv_of_nonneg (by omega)]
  omega

theorem covered_le {mem : Mem} (h : (tagHeader mem).currLen < NDEF_MAX_SIZE - 2)
    : covered mem ≤ NDEF_MAX_SIZE + 16 := by
  have hread := tagHeader_currLen mem
  unfold NDEF_MAX_SIZE at *
  unfold covered TagHeader.num16
  simp only
  rw [Int.tdiv_eq_ediv_of_nonneg (by omega)]
  omega

theorem readBlocks_cached {ndefCache' : Mem}
    (h : readBlocks tag answered ((tagHeader tag.byte).num16 - 1) 1
      (memcpy ndefCache 0 16 (tag.read (UInt8.ofNat NDEF_OFFSET))) = (ndefCache', true))
    : ndefCache' = cached tag ndefCache := by
  funext j
  unfold cached
  split
  . next hj => exact readBlocks_first h j hj
  . next hj =>
    have hpos : 16 ≤ covered tag.byte := covered_pos tag.byte
    have hcovered : covered tag.byte = (tagHeader tag.byte).num16 * 16 := rfl
    rw [readBlocks_spec h, if_neg (by omega), memcpy, if_neg (by omega)]

theorem num16_pos (mem : Mem) : 1 ≤ (tagHeader mem).num16 := by
  have hpos := covered_pos mem
  unfold covered at hpos
  omega

theorem readBlocks_complete (h : Complete tag answered) (ndefCache : Mem)
    : readBlocks tag answered ((tagHeader tag.byte).num16 - 1) 1
        (memcpy ndefCache 0 16 (tag.read (UInt8.ofNat NDEF_OFFSET))) = (cached tag ndefCache, true) := by
  have hpos := num16_pos tag.byte
  have hok := (readBlocks_snd answered tag ((tagHeader tag.byte).num16 - 1) 1
    (memcpy ndefCache 0 16 (tag.read (UInt8.ofNat NDEF_OFFSET)))).mpr
    fun k _ hlt => h.answered k (by omega)
  cases hread : readBlocks tag answered ((tagHeader tag.byte).num16 - 1) 1
      (memcpy ndefCache 0 16 (tag.read (UInt8.ofNat NDEF_OFFSET))) with
  | mk ndefCache' ok =>
    rw [hread] at hok
    simp only at hok
    subst hok
    rw [readBlocks_cached hread]

theorem ndef_read_eq (h : Complete tag answered) (maxpayload maxuri : Nat) (ndefCache : Mem)
    : ndef_read tag answered maxpayload maxuri ndefCache
      = let h := messageHeader tag ndefCache
        { ret := h.plen
          ndefCache := cached tag ndefCache
          uri :=
            if h.uri_len < maxuri then bytes (cached tag ndefCache) h.uriStart h.uri_len else []
          payload :=
            if h.plen < maxpayload then bytes (cached tag ndefCache) h.payloadStart h.plen.toNat
            else [] } := by
  have hfirst := memcpy_first tag ndefCache
  unfold ndef_read
  simp only [tagHeader_congr hfirst, hfirst 0 (by decide), h.answered 0 (num16_pos tag.byte),
    h.isndef, h.currLen, readBlocks_complete h, if_true]
  rfl

theorem ndef_readAccesses_eq (h : Complete tag answered) (maxpayload maxuri : Nat) (ndefCache : Mem)
    : ndef_readAccesses tag answered maxpayload maxuri ndefCache
      = [⟨.uri, 0, 1⟩, ⟨.payload, 0, 1⟩]
        ++ ([⟨.ndefCache, 0, 16⟩, ⟨.ndefCache, 0, 1⟩]
        ++ (tagHeaderAccesses tag.byte
        ++ (readBlocksAccesses answered ((tagHeader tag.byte).num16 - 1) 1
        ++ ([⟨.ndefCache, 0, covered tag.byte⟩]
          ++ ndefHeaderAccesses (cached tag ndefCache) (tagHeader tag.byte).ndefStart
          ++ cutAccesses (messageHeader tag ndefCache) maxpayload maxuri)))) := by
  have hfirst := memcpy_first tag ndefCache
  have hheader : tagHeaderAccesses (memcpy ndefCache 0 16 (tag.read (UInt8.ofNat NDEF_OFFSET)))
      = tagHeaderAccesses tag.byte := by
    unfold tagHeaderAccesses
    rw [hfirst 1 (by decide)]
  unfold ndef_readAccesses
  simp only [tagHeader_congr hfirst, hfirst 0 (by decide), h.answered 0 (num16_pos tag.byte),
    h.isndef, h.currLen, readBlocks_complete h, hheader, if_true]
  rfl

theorem tagHeaderAccesses_inside (mem : Mem) : Inside Buffer.size (tagHeaderAccesses mem) := by
  unfold tagHeaderAccesses
  split <;> decide

/--
Only the last one of the reads can come to the end of the cache.
-/
theorem readBlocksAccesses_inside (hlen : (tagHeader tag.byte).currLen < NDEF_MAX_SIZE - 2)
    (h : covered tag.byte ≤ NDEF_MAX_SIZE
      ∨ ¬∀ k, 1 ≤ k → k < 1 + ((tagHeader tag.byte).num16 - 1) → answered k = true)
    : Inside Buffer.size (readBlocksAccesses answered ((tagHeader tag.byte).num16 - 1) 1) := by
  have hcovered := covered_le hlen
  unfold covered NDEF_MAX_SIZE at *
  intro access haccess
  obtain ⟨k, hle, hlt, hanswered, rfl⟩ := answered_of_mem_readBlocksAccesses haccess
  right
  show k * 16 + 16 ≤ 2048
  rcases h with h | h
  . omega
  . apply Nat.le_of_not_lt
    intro hgt
    apply h
    intro j hj hj'
    exact hanswered j hj (by omega)

theorem ndef_read_incomplete (h : ¬Complete tag answered) (maxpayload maxuri : Nat)
    (ndefCache : Mem)
    : (ndef_read tag answered maxpayload maxuri ndefCache).ret ≤ 0
        ∧ Inside Buffer.size (ndef_readAccesses tag answered maxpayload maxuri ndefCache) := by
  have hfirst := memcpy_first tag ndefCache
  have hcells : Inside Buffer.size [⟨.uri, 0, 1⟩, ⟨.payload, 0, 1⟩] := by decide
  have hblock : Inside Buffer.size [⟨.ndefCache, 0, 16⟩, ⟨.ndefCache, 0, 1⟩] := by decide
  unfold ndef_read ndef_readAccesses
  simp only [tagHeader_congr hfirst, hfirst 0 (by decide)]
  by_cases h0 : answered 0 = true
  . by_cases hisndef : tag.byte 0 = 0x03
    . by_cases hlen : (tagHeader tag.byte).currLen < NDEF_MAX_SIZE - 2
      . have hsnd := readBlocks_snd answered tag ((tagHeader tag.byte).num16 - 1) 1
          (memcpy ndefCache 0 16 (tag.read (UInt8.ofNat NDEF_OFFSET)))
        have hmissing : ¬∀ k, 1 ≤ k → k < 1 + ((tagHeader tag.byte).num16 - 1)
            → answered k = true := by
          intro hall
          refine h ⟨hisndef, hlen, fun i hi => ?_⟩
          by_cases heq : i = 0
          . rw [heq, h0]
          . exact hall i (by omega) (by omega)
        simp only [h0, hisndef, hlen, if_true]
        cases hread : readBlocks tag answered ((tagHeader tag.byte).num16 - 1) 1
            (memcpy ndefCache 0 16 (tag.read (UInt8.ofNat NDEF_OFFSET))) with
        | mk ndefCache' ok =>
          rw [hread] at hsnd
          cases ok with
          | true => exact absurd (hsnd.mp rfl) hmissing
          | false =>
            simp only [inside_append, hcells, hblock, tagHeaderAccesses_inside,
              readBlocksAccesses_inside hlen (.inr hmissing), inside_nil, and_self, Int.le_refl]
      . simp only [h0, hisndef, hlen, if_true, if_false, inside_append, hcells, hblock,
          tagHeaderAccesses_inside, inside_nil, and_self, Int.le_refl]
    . simp only [h0, hisndef, if_true, if_false, inside_append, hcells, hblock, inside_nil, and_self,
        Int.le_refl]
  . simp only [h0, Bool.false_eq_true, if_false, inside_append, hcells, inside_nil, and_self,
      and_true]
    decide

end Read

section Message

variable {tag : Tag} {answered : Nat → Bool} {ndefCache : Mem}

theorem ndefStart_le (mem : Mem) : (tagHeader mem).ndefStart ≤ 4 := by
  unfold tagHeader
  split
  . exact Nat.le_refl tag_header_large
  . exact Nat.le_of_lt (Nat.lt_add_of_pos_right (show 0 < tag_header_small by decide))

theorem ndefHeaderAccesses_inside (mem mem' : Mem)
    : Inside Buffer.size (ndefHeaderAccesses mem (tagHeader mem').ndefStart) := by
  have hstart := ndefStart_le mem'
  unfold ndefHeaderAccesses
  split
  . simp only [inside_cons, inside_nil, Buffer.size, NDEF_MAX_SIZE, and_true]
    omega
  . simp only [inside_cons, inside_nil, Buffer.size, NDEF_MAX_SIZE, and_true]
    omega

structure HeaderRanges (h : NdefHeader) : Prop where
  uriStart : h.uriStart ≤ 10
  uri_len : h.uri_len < 256
  plen : -2 ^ 31 ≤ h.plen

theorem messageHeader_ranges (tag : Tag) (ndefCache : Mem)
    : HeaderRanges (messageHeader tag ndefCache) := by
  have hstart := ndefStart_le tag.byte
  unfold messageHeader ndefHeader ndef_header_small ndef_header_large
  split
  . exact ⟨by simp only; omega, UInt8.toNat_lt _, by simp only; omega⟩
  . exact ⟨by simp only; omega, UInt8.toNat_lt _, Int32.le_toInt _⟩

theorem cutAccesses_inside_iff {h : NdefHeader} (hranges : HeaderRanges h)
    : Inside Buffer.size (cutAccesses h NDEF_MAX_PAYLOAD NDEF_MAX_URI)
        ↔ (h.plen < NDEF_MAX_PAYLOAD → 0 ≤ h.plen ∧ h.payloadStart + h.plen ≤ NDEF_MAX_SIZE) := by
  obtain ⟨hstart, huri, hplen⟩ := hranges
  unfold cutAccesses
  rw [inside_append, inside_ite, inside_ite]
  simp only [inside_cons, inside_nil, Buffer.size, size_t, NdefHeader.payloadStart, NDEF_MAX_SIZE,
    NDEF_MAX_PAYLOAD, NDEF_MAX_URI, and_true, implies_true]
  omega

theorem read_inside_iff (hcomplete : Complete tag answered) (ndefCache : Mem)
    : Inside Buffer.size
        (ndef_readAccesses tag answered NDEF_MAX_PAYLOAD NDEF_MAX_URI ndefCache)
      ↔ (tagHeader tag.byte).currLen ≠ NDEF_MAX_SIZE - 3
        ∧ ((messageHeader tag ndefCache).plen < NDEF_MAX_PAYLOAD
          → 0 ≤ (messageHeader tag ndefCache).plen
            ∧ (messageHeader tag ndefCache).payloadStart + (messageHeader tag ndefCache).plen
              ≤ NDEF_MAX_SIZE) := by
  have hcells : Inside Buffer.size [⟨.uri, 0, 1⟩, ⟨.payload, 0, 1⟩] := by decide
  have hblock : Inside Buffer.size [⟨.ndefCache, 0, 16⟩, ⟨.ndefCache, 0, 1⟩] := by decide
  have hpos := covered_pos tag.byte
  have hdump : Inside Buffer.size [⟨.ndefCache, 0, covered tag.byte⟩]
      ↔ covered tag.byte ≤ NDEF_MAX_SIZE := by
    simp only [inside_cons, inside_nil, Buffer.size, and_true]
    omega
  rw [← covered_le_iff hcomplete.currLen, ndef_readAccesses_eq hcomplete]
  simp only [inside_append, hcells, hblock, hdump, tagHeaderAccesses_inside,
    ndefHeaderAccesses_inside, cutAccesses_inside_iff (messageHeader_ranges tag ndefCache),
    true_and, and_true]
  constructor
  . exact And.right
  . intro h
    exact ⟨readBlocksAccesses_inside hcomplete.currLen (.inl h.1), h⟩

theorem writeBlocksAccesses_inside {answer : Nat → WriteAnswer} {content : Mem} {n i : Nat}
    (h : (i + n) * 4 ≤ NDEF_MAX_SIZE)
    : Inside Buffer.size (writeBlocksAccesses answer ndefCache content n i) := by
  induction n generalizing i with
  | zero => exact inside_nil
  | succ n ih =>
    have hrest := ih (i := i + 1) (by omega)
    have hblock : Inside Buffer.size [⟨.ndefCache, i * 4, 4⟩, ⟨.ndefContent, i * 4, 4⟩] := by
      simp only [inside_cons, inside_nil, Buffer.size, and_true]
      omega
    rw [writeBlocksAccesses, inside_append]
    refine ⟨hblock, ?_⟩
    split
    . exact hrest
    . split
      . exact hrest
      . exact inside_nil

/--
The two headers, the URI and the end-marker take 25 bytes if the payload is large.
-/
theorem write_inside_iff (answer : Nat → WriteAnswer) {payload : List UInt8}
    (hpayload : payload.length < NDEF_MAX_PAYLOAD) (garbage ndefCache : Mem)
    : Inside Buffer.size (ndef_writeAccesses answer payload COMMISSION_URI garbage ndefCache)
        ↔ payload.length + 25 ≤ NDEF_MAX_SIZE := by
  have huri : COMMISSION_URI.length = 14 := rfl
  unfold NDEF_MAX_PAYLOAD at hpayload
  simp only [ndef_writeAccesses, inside_append, inside_cons, inside_nil, Buffer.size, huri, and_true]
  constructor
  . rintro ⟨⟨-, -, -, -, hend, -⟩, -⟩
    unfold tag_hdr_size ndef_len ndef_hdr_size NDEF_MAX_SIZE at *
    simp only [tag_header_small, tag_header_large, ndef_header_small, ndef_header_large] at hend ⊢
    split at hend <;> split at hend <;> omega
  . intro h
    have hlen : tag_hdr_size (ndef_len payload.length 14) + ndef_len payload.length 14 + 1
        ≤ NDEF_MAX_SIZE := by
      unfold tag_hdr_size ndef_len ndef_hdr_size NDEF_MAX_SIZE at *
      simp only [tag_header_small, tag_header_large, ndef_header_small, ndef_header_large]
      split <;> split <;> omega
    have hparts : ndef_len payload.length 14 = ndef_hdr_size payload.length + 14 + payload.length :=
      rfl
    refine ⟨?_, writeBlocksAccesses_inside ?_⟩
    . unfold NDEF_MAX_SIZE NDEF_MAX_PAYLOAD at *
      omega
    . unfold NDEF_MAX_SIZE at *
      omega

theorem version_of_written {env : Surroundings} {payload message : Mem} {plen : Nat} {s : Commission}
    (h : (commissionHandleNfc env payload plen s).2.written = some message)
    : payload VERSION = COMMISSION_SUPPORTED_VERSION := by
  by_contra hversion
  rw [commissionHandleNfc_version env plen s hversion] at h
  cases h

/--
There is a mode in which a message is written to the tag, whatever it has on it.
-/
theorem exists_written {payload : Mem} (hversion : payload VERSION = COMMISSION_SUPPORTED_VERSION)
    : ∃ (env : Surroundings) (s : Commission), ∀ (tag : Tag) (ndefCache : Mem) (plen : Nat),
      ∃ message, (commissionHandleNfc { env with tag, ndefCache } payload plen s).2.written
        = some message := by
  have hleave : ∀ command nfcmode, payload IN_COMMAND ≠ command → nfcmode ≠ -1 →
      (∀ env : Surroundings, env.nfcmode = nfcmode → ∀ plen s,
        handleMode env payload plen s = handleLeave command env payload plen s) →
      ∃ (env : Surroundings) (s : Commission), ∀ (tag : Tag) (ndefCache : Mem) (plen : Nat),
        ∃ message, (commissionHandleNfc { env with tag, ndefCache } payload plen s).2.written
          = some message := by
    intro command nfcmode hcommand hmode hhandle
    refine ⟨{ leaving true with nfcmode }, {}, fun tag ndefCache plen => ?_⟩
    rw [commissionHandleNfc_new plen hversion fun hknown => hmode hknown.2.symm, hhandle _ rfl,
      handleLeave, if_pos hcommand]
    exact ⟨_, rfl⟩
  by_cases hcommand : payload IN_COMMAND = COMMAND_LEAVE
  . apply hleave COMMAND_FACTORYNEW NFC_MODE_FACTORYRESET
    . rw [hcommand]
      decide
    . decide
    . intro env hmode plen s
      rw [handleMode, if_neg (by rw [hmode]; decide), if_pos hmode]
  . apply hleave COMMAND_LEAVE NFC_MODE_DECOMMISSION hcommand
    . decide
    . intro env hmode plen s
      rw [handleMode, if_pos hmode]

theorem fill_first (r : NdefRead) (payload : Mem) : r.fill payload 0 = r.payload[0]?.getD 0 := by
  unfold NdefRead.fill memcpy
  split
  . rfl
  . next h =>
    have hnil : r.payload = [] := List.eq_nil_of_length_eq_zero (by omega)
    rw [hnil]
    rfl

theorem bytes_first (mem : Mem) (p : Nat) {n : Nat} (hn : 0 < n)
    : (bytes mem p n)[0]? = some (mem p) := by
  rw [bytes, List.getElem?_map, List.getElem?_range hn, Option.map_some, Nat.add_zero]

end Message

section Pass

variable {env : Surroundings} {tag : Tag} {answered : Nat → Bool} {ndefCache payload : Mem}
  {s : Commission}

theorem mfulHandle_read (env : Surroundings) (answered : Nat → Bool) (payload : Mem) (s : Commission)
    : (mfulHandle env answered payload s).1
      = ndef_read env.tag answered NDEF_MAX_PAYLOAD NDEF_MAX_URI env.ndefCache := by
  unfold mfulHandle
  simp only
  split <;> rfl

/--
The message that is written in a pass.
-/
def mfulWritten (env : Surroundings) (answered : Nat → Bool) (payload : Mem) (s : Commission)
    : Option Mem :=
  (mfulHandle env answered payload s).2.2.bind Handled.written

theorem mful_inside_iff
    : Inside Buffer.size (mfulAccesses env answered payload s)
      ↔ Inside Buffer.size
          (ndef_readAccesses env.tag answered NDEF_MAX_PAYLOAD NDEF_MAX_URI env.ndefCache)
        ∧ ∀ message ∈ mfulWritten env answered payload s,
          let r := (mfulHandle env answered payload s).1
          Inside Buffer.size
            (ndef_writeAccesses env.answer (bytes message 0 r.ret.toNat) COMMISSION_URI env.garbage
              r.ndefCache) := by
  unfold mfulAccesses mfulWritten
  simp only [inside_append, and_congr_right_iff]
  intro _
  cases (mfulHandle env answered payload s).2.2.bind Handled.written <;> simp

theorem mfulWritten_of_ret
    (h : (ndef_read env.tag answered NDEF_MAX_PAYLOAD NDEF_MAX_URI env.ndefCache).ret ≤ 0)
    : mfulWritten env answered payload s = none := by
  unfold mfulWritten mfulHandle
  simp only [Int.not_lt.mpr h, false_and, if_false, Option.bind_none]

theorem supported_iff (hcomplete : Complete tag answered)
    (hplen : (messageHeader tag ndefCache).plen < NDEF_MAX_PAYLOAD) (payload : Mem)
    : Supported tag ndefCache
      ↔ let r := ndef_read tag answered NDEF_MAX_PAYLOAD NDEF_MAX_URI ndefCache
        (0 < r.ret ∧ r.hasCommissionUri) ∧ r.fill payload VERSION = COMMISSION_SUPPORTED_VERSION := by
  have hread := ndef_read_eq hcomplete NDEF_MAX_PAYLOAD NDEF_MAX_URI ndefCache
  simp only [hread, NdefRead.hasCommissionUri, VERSION, fill_first, if_pos hplen,
    decide_eq_true_eq]
  constructor
  . rintro ⟨hpos, huri_len, huri, hversion⟩
    rw [if_pos huri_len, bytes_first _ _ (by omega)]
    exact ⟨⟨hpos, huri⟩, hversion⟩
  . rintro ⟨⟨hpos, huri⟩, hversion⟩
    rw [bytes_first _ _ (by omega)] at hversion
    split at huri
    . next huri_len => exact ⟨hpos, huri_len, huri, hversion⟩
    . exact absurd huri (by decide)

theorem supported_of_written {message : Mem} (hcomplete : Complete env.tag answered)
    (hplen : (messageHeader env.tag env.ndefCache).plen < NDEF_MAX_PAYLOAD)
    (h : mfulWritten env answered payload s = some message)
    : Supported env.tag env.ndefCache := by
  rw [supported_iff hcomplete hplen payload]
  unfold mfulWritten mfulHandle at h
  simp only at h
  split at h
  . next hhandled => exact ⟨hhandled, version_of_written h⟩
  . cases h

theorem exists_mfulWritten (hcomplete : Complete tag answered)
    (hplen : (messageHeader tag ndefCache).plen < NDEF_MAX_PAYLOAD)
    (h : Supported tag ndefCache) (payload : Mem)
    : ∃ (env : Surroundings) (s : Commission) (message : Mem),
      mfulWritten { env with tag, ndefCache } answered payload s = some message := by
  obtain ⟨hhandled, hversion⟩ := (supported_iff hcomplete hplen payload).mp h
  obtain ⟨env, s, hwritten⟩ := exists_written hversion
  obtain ⟨message, hmessage⟩ := hwritten tag
    (ndef_read tag answered NDEF_MAX_PAYLOAD NDEF_MAX_URI ndefCache).ndefCache
    (ndef_read tag answered NDEF_MAX_PAYLOAD NDEF_MAX_URI ndefCache).ret.toNat
  refine ⟨env, s, message, ?_⟩
  unfold mfulWritten mfulHandle
  simp only [if_pos hhandled]
  exact hmessage

theorem bounded_of_incomplete (h : ¬Complete env.tag answered) : Bounded env answered payload s := by
  obtain ⟨hret, hinside⟩ :=
    ndef_read_incomplete h NDEF_MAX_PAYLOAD NDEF_MAX_URI env.ndefCache
  constructor
  . rw [mful_inside_iff, mfulWritten_of_ret hret]
    exact ⟨hinside, by simp⟩
  . left
    rw [mfulHandle_read]
    exact hret

theorem bounded_of_fits (hcomplete : Complete env.tag answered) (h : Fits env.tag env.ndefCache)
    : Bounded env answered payload s := by
  have hread := ndef_read_eq hcomplete NDEF_MAX_PAYLOAD NDEF_MAX_URI env.ndefCache
  have hnonneg := h.nonneg
  have hplen := h.plen
  constructor
  . rw [mful_inside_iff, read_inside_iff hcomplete]
    refine ⟨⟨h.currLen, fun _ => ⟨hnonneg, h.payload⟩⟩, ?_⟩
    intro message hmessage
    have hwritten := h.written (supported_of_written hcomplete hplen hmessage)
    simp only [mfulHandle_read, hread]
    rw [write_inside_iff]
    . rw [bytes_length]
      omega
    . rw [bytes_length]
      omega
  . right
    simp only [mfulHandle_read, hread, if_pos hplen, bytes_length]
    omega

theorem fits_of_bounded (hcomplete : Complete tag answered)
    (h : ∀ (env : Surroundings) (payload : Mem) (s : Commission),
      Bounded { env with tag, ndefCache } answered payload s)
    : Fits tag ndefCache := by
  have hread := ndef_read_eq hcomplete NDEF_MAX_PAYLOAD NDEF_MAX_URI ndefCache
  have hpass := h (leaving true) (fun _ => 0) {}
  obtain ⟨hcurrLen, hcut⟩ :=
    (read_inside_iff hcomplete ndefCache).mp (mful_inside_iff.mp hpass.inside).1
  have hplen : (messageHeader tag ndefCache).plen < NDEF_MAX_PAYLOAD := by
    have hresult := hpass.result
    simp only [mfulHandle_read, hread] at hresult
    unfold NDEF_MAX_PAYLOAD at *
    omega
  obtain ⟨hnonneg, hpayload⟩ := hcut hplen
  refine ⟨hcurrLen, hnonneg, hplen, hpayload, ?_⟩
  intro hsupported
  obtain ⟨env, s, message, hmessage⟩ :=
    exists_mfulWritten hcomplete hplen hsupported fun _ => 0
  have hwrite := (mful_inside_iff.mp (h env (fun _ => 0) s).inside).2 message hmessage
  simp only [mfulHandle_read, hread] at hwrite
  rw [write_inside_iff, bytes_length] at hwrite
  . omega
  . rw [bytes_length]
    omega

end Pass

/--
Whatever the daemon is about to do, it stays inside its buffers exactly with the tags whose lengths
fit, and with those that are not read to the end.
-/
theorem bounded_iff_fits (tag : Tag) (answered : Nat → Bool) (ndefCache : Mem)
    : (∀ (env : Surroundings) (payload : Mem) (s : Commission),
        Bounded { env with tag, ndefCache } answered payload s)
      ↔ (Complete tag answered → Fits tag ndefCache) := by
  constructor
  . intro h hcomplete
    exact fits_of_bounded hcomplete h
  . intro h env payload s
    by_cases hcomplete : Complete tag answered
    . exact bounded_of_fits hcomplete (h hcomplete)
    . exact bounded_of_incomplete hcomplete

/--
A tag that starts with these bytes.
-/
def startingWith (start : List UInt8) : Tag := fun j => (List.replicate 16 0 ++ start)[j]?.getD 0

/--
The last block of a message of 2045 bytes, a payload of 2^32 - 1 bytes, one that is not in the cache,
one that is returned without its bytes, and one that is too large for the command that is written.
-/
def oversized : List Tag :=
  [startingWith [0x03, 0xFF, 0x07, 0xFD, 0xD4, 0x00, 0x00],
    startingWith [0x03, 0x10, 0xC4, 0x0E, 0xFF, 0xFF, 0xFF, 0xFF],
    startingWith [0x03, 0x10, 0xC4, 0x0E, 0x00, 0x00, 0x07, 0xFF],
    startingWith [0x03, 0x10, 0xC4, 0x0E, 0x00, 0x00, 0x08, 0x00],
    startingWith ([0x03, 0x20, 0xC4, 0x0E, 0x00, 0x00, 0x07, 0xE8] ++ COMMISSION_URI
      ++ [COMMISSION_SUPPORTED_VERSION])]

theorem oversized_not_bounded
    : ¬∃ tag ∈ oversized, ∀ (env : Surroundings) (payload : Mem) (s : Commission),
        Bounded { env with tag, ndefCache := fun _ => 0 } (fun _ => true) payload s := by
  rintro ⟨tag, htag, h⟩
  have hstart : ∀ tag ∈ oversized,
      tag.byte 0 = 0x03 ∧ (tagHeader tag.byte).currLen < NDEF_MAX_SIZE - 2 := by
    decide
  have hcomplete : Complete tag fun _ => true :=
    ⟨(hstart tag htag).1, (hstart tag htag).2, fun _ _ => rfl⟩
  have hfits := fits_of_bounded hcomplete h
  rcases List.mem_cons.mp htag with rfl | htag
  . exact absurd hfits.currLen (by decide)
  rcases List.mem_cons.mp htag with rfl | htag
  . exact absurd hfits.nonneg (by decide)
  rcases List.mem_cons.mp htag with rfl | htag
  . exact absurd hfits.payload (by decide)
  rcases List.mem_cons.mp htag with rfl | htag
  . exact absurd hfits.plen (by decide)
  obtain rfl := List.mem_singleton.mp htag
  have hwritten := hfits.written
    ⟨by decide, by decide, by decide, by decide⟩
  exact absurd hwritten (by decide)

end NfcDaemon
