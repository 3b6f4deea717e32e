import IotGateway.NfcDaemon.Impl.Ndef
import Mathlib.Algebra.Ring.Int.Defs
import Mathlib.Algebra.Ring.Nat

/-!
This module says when a message that has been written to a tag is read from it again.
-/

namespace NfcDaemon

@[simp]
theorem bytes_length (mem : Mem) (p n : Nat) : (bytes mem p n).length = n := by
  simp [bytes]

theorem bytes_eq_iff {mem : Mem} {p : Nat} {l : List UInt8}
    : bytes mem p l.length = l ↔ ∀ k, (hk : k < l.length) → mem (p + k) = l[k] := by
  constructor
  . intro h k hk
    have hk' : k < (bytes mem p l.length).length := by simpa
    have hget : (bytes mem p l.length)[k] = mem (p + k) := by simp [bytes]
    rw [← hget]
    simp only [h]
  . intro h
    apply List.ext_getElem
    . exact bytes_length mem p l.length
    . intro k hk hk'
      simpa [bytes] using h k hk'

theorem bytes_congr {mem mem' : Mem} {p n : Nat} (h : ∀ j < p + n, mem j = mem' j)
    : bytes mem p n = bytes mem' p n := by
  unfold bytes
  apply List.map_congr_left
  intro k hk
  exact h _ (Nat.add_lt_add_left (List.mem_range.mp hk) p)

theorem bytes_append_iff {mem : Mem} {p : Nat} {l l' : List UInt8}
    : bytes mem p (l ++ l').length = l ++ l'
      ↔ bytes mem p l.length = l ∧ bytes mem (p + l.length) l'.length = l' := by
  have hsplit : bytes mem p (l ++ l').length
      = bytes mem p l.length ++ bytes mem (p + l.length) l'.length := by
    simp only [bytes, List.length_append, List.range_add, List.map_append, List.map_map]
    congr 2
    funext k
    simp only [Function.comp_apply, Nat.add_assoc]
  rw [hsplit]
  constructor
  . exact fun h => List.append_inj h (bytes_length mem p l.length)
  . rintro ⟨hl, hl'⟩
    rw [hl, hl']

/--
The bytes of a tag that hold the message.
-/
def Tag.byte (tag : Tag) (j : Nat) : UInt8 := tag ((16 + j) % 1024)

section Read

variable {tag : Tag} {answered : Nat → Bool} {ndefCache : Mem}

theorem read_block (tag : Tag) (i k : Nat)
    : tag.read (UInt8.ofNat (i * 4 + NDEF_OFFSET)) k = tag.byte (i * 16 + k) := by
  unfold Tag.read Tag.byte NDEF_OFFSET
  congr 1
  rw [UInt8.toNat_ofNat']
  omega

theorem memcpy_block (tag : Tag) (i j : Nat) (ndefCache : Mem)
    : memcpy ndefCache (i * 16) 16 (tag.read (UInt8.ofNat (i * 4 + NDEF_OFFSET))) j
      = if i * 16 ≤ j ∧ j < i * 16 + 16 then tag.byte j else ndefCache j := by
  unfold memcpy
  split
  . next hj =>
    rw [read_block]
    congr 1
    omega
  . rfl

theorem readBlocks_spec {n i : Nat} {ndefCache' : Mem}
    (h : readBlocks tag answered n i ndefCache = (ndefCache', true)) (j : Nat)
    : ndefCache' j = if i * 16 ≤ j ∧ j < (i + n) * 16 then tag.byte j else ndefCache j := by
  induction n generalizing i ndefCache with
  | zero =>
    obtain ⟨rfl, -⟩ := Prod.mk.inj h
    rw [if_neg (by omega)]
  | succ n ih =>
    rw [readBlocks] at h
    split at h
    . rw [ih h, memcpy_block]
      grind
    . cases h

theorem readBlocks_answered (tag : Tag) (n i : Nat) (ndefCache : Mem)
    : ∃ ndefCache', readBlocks tag (fun _ => true) n i ndefCache = (ndefCache', true) := by
  induction n generalizing i ndefCache with
  | zero => exact ⟨ndefCache, rfl⟩
  | succ n ih => exact ih (i + 1) _

/--
How far a tag is read that starts with these bytes.
-/
def covered (mem : Mem) : Nat := (tagHeader mem).num16 * 16

theorem tagHeader_bytesRead (mem : Mem) : (tagHeader mem).bytesRead ≤ 15 := by
  unfold tagHeader
  split <;> simp [tag_header_large, tag_header_small]

theorem le_covered (mem : Mem)
    : (tagHeader mem).currLen + (16 - (tagHeader mem).bytesRead) ≤ covered mem := by
  have hread : (tagHeader mem).bytesRead ≤ 15 := tagHeader_bytesRead mem
  unfold covered TagHeader.num16
  simp only
  rw [Int.tdiv_eq_ediv_of_nonneg (by omega)]
  omega

theorem covered_pos (mem : Mem) : 16 ≤ covered mem := by
  have hread : (tagHeader mem).bytesRead ≤ 15 := tagHeader_bytesRead mem
  have hle := le_covered mem
  unfold covered at hle ⊢
  omega

theorem tagHeader_congr {mem mem' : Mem} (h : ∀ j < 16, mem j = mem' j)
    : tagHeader mem = tagHeader mem' := by
  unfold tagHeader
  rw [h 1 (by decide), h 2 (by decide), h 3 (by decide)]

theorem memcpy_first (tag : Tag) (ndefCache : Mem)
    : ∀ j < 16, memcpy ndefCache 0 16 (tag.read (UInt8.ofNat NDEF_OFFSET)) j = tag.byte j := by
  intro j hj
  have hblock := memcpy_block tag 0 j ndefCache
  rw [if_pos (by omega)] at hblock
  exact hblock

theorem readBlocks_first {ndefCache' : Mem}
    (h : readBlocks tag answered ((tagHeader tag.byte).num16 - 1) 1
      (memcpy ndefCache 0 16 (tag.read (UInt8.ofNat NDEF_OFFSET))) = (ndefCache', true))
    : ∀ j < covered tag.byte, ndefCache' j = tag.byte j := by
  intro j hj
  have hpos : 16 ≤ covered tag.byte := covered_pos tag.byte
  unfold covered at hj hpos
  rw [readBlocks_spec h]
  split
  . rfl
  . exact memcpy_first tag ndefCache j (by omega)

/--
A read that gets a message has the bytes of the tag in the cache, as far as it has come.
-/
theorem ndef_read_cache {maxpayload maxuri : Nat}
    (h : 0 < (ndef_read tag answered maxpayload maxuri ndefCache).ret)
    : ∀ j < covered tag.byte,
      (ndef_read tag answered maxpayload maxuri ndefCache).ndefCache j = tag.byte j := by
  have hheader := tagHeader_congr (memcpy_first tag ndefCache)
  unfold ndef_read at h ⊢
  simp only [hheader] at h ⊢
  split at h
  . next h0 =>
    split at h
    . next hisndef =>
      split at h
      . next hlen =>
        cases hread : readBlocks tag answered ((tagHeader tag.byte).num16 - 1) 1
            (memcpy ndefCache 0 16 (tag.read (UInt8.ofNat NDEF_OFFSET))) with
        | mk ndefCache' ok =>
          cases ok with
          | true =>
            simp only [h0, hisndef, hlen, if_true]
            exact readBlocks_first hread
          | false => simp [hread] at h
      . cases h
    . cases h
  . cases h

theorem ndef_read_complete (maxpayload maxuri : Nat) (ndefCache : Mem)
    (hisndef : tag.byte 0 = 0x03) (hlen : (tagHeader tag.byte).currLen < NDEF_MAX_SIZE - 2)
    : ∃ mem : Mem, (∀ j < covered tag.byte, mem j = tag.byte j)
      ∧ ndef_read tag (fun _ => true) maxpayload maxuri ndefCache
        = let h := ndefHeader mem (tagHeader tag.byte).ndefStart
          { ret := h.plen
            ndefCache := mem
            uri := if h.uri_len < maxuri then bytes mem h.uriStart h.uri_len else []
            payload :=
              if h.plen < maxpayload then bytes mem (h.uriStart + h.uri_len) h.plen.toNat
              else [] } := by
  have hfirst := memcpy_first tag ndefCache
  obtain ⟨mem, hmem⟩ := readBlocks_answered tag ((tagHeader tag.byte).num16 - 1) 1
    (memcpy ndefCache 0 16 (tag.read (UInt8.ofNat NDEF_OFFSET)))
  refine ⟨mem, readBlocks_first hmem, ?_⟩
  unfold ndef_read
  simp only [tagHeader_congr hfirst, hfirst 0 (by decide), hisndef, hlen, hmem, if_true]

end Read

/--
The bytes of a tag that can be written under an address of 8 bits.
-/
def TAG_SIZE : Nat := 1008

section Write

variable {tag tag' : Tag} {answer : Nat → WriteAnswer} {ndefCache content : Mem}

theorem byte_write {i j : Nat} (hi : i < 252) (hj : j < TAG_SIZE)
    : (tag.write (UInt8.ofNat (i + NDEF_OFFSET)) fun k => content (i * 4 + k)).byte j
      = if i * 4 ≤ j ∧ j < i * 4 + 4 then content j else tag.byte j := by
  unfold TAG_SIZE at hj
  unfold Tag.write Tag.byte memcpy NDEF_OFFSET
  rw [UInt8.toNat_ofNat', Nat.mod_eq_of_lt (by omega), Nat.mod_eq_of_lt (by omega)]
  by_cases hblock : i * 4 ≤ j ∧ j < i * 4 + 4
  . rw [if_pos (by omega), if_pos hblock]
    apply congrArg content
    omega
  . rw [if_neg (by omega), if_neg hblock]

/--
The blocks that are not in the cache have been written.
-/
theorem writeBlocks_spec {n i : Nat}
    (h : writeBlocks answer ndefCache content n i tag = (tag', true)) (hn : i + n ≤ 252)
    : ∀ j < TAG_SIZE, tag'.byte j
      = if i * 4 ≤ j ∧ j < (i + n) * 4 ∧ ¬SameBlock ndefCache content (j / 4) then content j
        else tag.byte j := by
  intro j hj
  induction n generalizing i tag with
  | zero =>
    obtain ⟨rfl, -⟩ := Prod.mk.inj h
    rw [if_neg (by omega)]
  | succ n ih =>
    rw [writeBlocks] at h
    have hhere : i * 4 ≤ j ∧ j < i * 4 + 4 → j / 4 = i := by omega
    split at h
    . next hsame =>
      rw [ih h (by omega)]
      grind
    . next hdiffers =>
      simp only at h
      split at h
      . rw [ih h (by omega), byte_write (by omega) hj]
        grind
      . cases h
      . cases h

end Write

section Uint32

theorem and_mask (n k : Nat) : n &&& (2 ^ 8 - 1) * 2 ^ k = n / 2 ^ k % 2 ^ 8 * 2 ^ k := by
  apply Nat.eq_of_testBit_eq
  intro i
  rw [Nat.testBit_and, Nat.testBit_mul_two_pow, Nat.testBit_two_pow_sub_one, Nat.testBit_mul_two_pow,
    Nat.testBit_mod_two_pow, Nat.testBit_div_two_pow]
  grind

theorem tag2local_toNat {x : UInt32} {a b c d : Nat} (ha : a < 256) (hb : b < 256) (hc : c < 256)
    (hd : d < 256) (hx : x.toNat = a + 256 * b + 65536 * c + 16777216 * d)
    : (tag2local_uint32 x).toNat = d + 256 * c + 65536 * b + 16777216 * a := by
  have h0 : x.toNat &&& 255 = x.toNat / 1 % 256 * 1 := and_mask x.toNat 0
  have h8 : x.toNat &&& 65280 = x.toNat / 256 % 256 * 256 := and_mask x.toNat 8
  have h16 : x.toNat &&& 16711680 = x.toNat / 65536 % 256 * 65536 := and_mask x.toNat 16
  have h24 : x.toNat / 16777216 &&& 255 = x.toNat / 16777216 / 1 % 256 * 1 :=
    and_mask (x.toNat / 16777216) 0
  rw [show x.toNat / 1 % 256 * 1 = a by omega] at h0
  rw [show x.toNat / 256 % 256 * 256 = b * 256 by omega] at h8
  rw [show x.toNat / 65536 % 256 * 65536 = c * 65536 by omega] at h16
  rw [show x.toNat / 16777216 / 1 % 256 * 1 = d by omega] at h24
  simp only [tag2local_uint32, UInt32.toNat_add, UInt32.toNat_shiftLeft, UInt32.toNat_and,
    UInt32.toNat_shiftRight, UInt32.reduceToNat, Nat.shiftLeft_eq, Nat.shiftRight_eq_div_pow,
    Nat.reduceMod, Nat.reducePow, h0, h8, h16, h24]
  omega

theorem exists_bytes (x : UInt32) : ∃ a b c d, a < 256 ∧ b < 256 ∧ c < 256 ∧ d < 256
    ∧ x.toNat = a + 256 * b + 65536 * c + 16777216 * d := by
  have hx : x.toNat < 4294967296 := x.toNat_lt
  exact ⟨x.toNat % 256, x.toNat / 256 % 256, x.toNat / 65536 % 256, x.toNat / 16777216,
    by omega, by omega, by omega, by omega, by omega⟩

theorem tag2local_local2tag (x : UInt32) : tag2local_uint32 (local2tag_uint32 x) = x := by
  obtain ⟨a, b, c, d, ha, hb, hc, hd, hx⟩ := exists_bytes x
  apply UInt32.toNat_inj.mp
  rw [local2tag_uint32, tag2local_toNat hd hc hb ha (tag2local_toNat ha hb hc hd hx), hx]

theorem uint32At_eq {mem : Mem} {p : Nat} {x : UInt32}
    (h : bytes mem p 4 = uint32Bytes x)
    : uint32At mem p = x := by
  have hx : x.toNat < 4294967296 := x.toNat_lt
  obtain ⟨h0, h1, h2, h3⟩ : mem p = x.toUInt8 ∧ mem (p + 1) = (x >>> 8).toUInt8
      ∧ mem (p + 2) = (x >>> 16).toUInt8 ∧ mem (p + 3) = (x >>> 24).toUInt8 := by
    simpa [bytes, List.range_succ, uint32Bytes] using h
  apply UInt32.toNat_inj.mp
  rw [uint32At, h0, h1, h2, h3]
  simp only [UInt32.toNat_add, UInt32.toNat_shiftLeft, UInt8.toNat_toUInt32, UInt32.toNat_toUInt8,
    UInt32.toNat_shiftRight, UInt32.reduceToNat, Nat.shiftLeft_eq, Nat.shiftRight_eq_div_pow,
    Nat.reduceMod, Nat.reducePow]
  omega
end Uint32

section Message

variable {payload uri : List UInt8} {garbage : Mem}

theorem tagHeaderBytes_length (ndef_len : Nat)
    : (tagHeaderBytes ndef_len).length = tag_hdr_size ndef_len := by
  unfold tagHeaderBytes tag_hdr_size
  split <;> rfl

theorem ndefHeaderBytes_length (payload_len uri_len : Nat)
    : (ndefHeaderBytes payload_len uri_len).length = ndef_hdr_size payload_len := by
  unfold ndefHeaderBytes ndef_hdr_size
  split
  . rw [if_neg (by omega)]
    rfl
  . rw [if_pos (by omega)]
    rfl

theorem message_length (payload uri : List UInt8)
    : (message payload uri).length
      = tag_hdr_size (ndef_len payload.length uri.length) + ndef_len payload.length uri.length := by
  unfold message ndef_len
  simp only [List.length_append, tagHeaderBytes_length, ndefHeaderBytes_length]
  omega

theorem ndefContent_of_lt {j : Nat} (hj : j < (message payload uri).length)
    : ndefContent payload uri garbage j = (message payload uri)[j] := by
  unfold ndefContent
  rw [List.getElem?_append_left hj, List.getElem?_eq_getElem hj, Option.getD_some]

theorem tagHeader_of_bytes {mem : Mem} {ndef_len : Nat} (hlen : ndef_len < 65536)
    (h : bytes mem 0 (tag_hdr_size ndef_len) = tagHeaderBytes ndef_len)
    : mem 0 = 0x03 ∧ tagHeader mem
      = { currLen := ndef_len, bytesRead := 16 - tag_hdr_size ndef_len,
          ndefStart := tag_hdr_size ndef_len } := by
  unfold tag_hdr_size tagHeaderBytes at *
  by_cases hsmall : ndef_len < 255
  . simp only [hsmall, if_true] at h ⊢
    obtain ⟨h0, h1⟩ : mem 0 = 0x03 ∧ mem 1 = UInt8.ofNat ndef_len := by
      simpa [bytes, tag_header_small, List.range_succ] using h
    have hval : (UInt8.ofNat ndef_len).toNat = ndef_len :=
      UInt8.toNat_ofNat_of_lt' (show ndef_len < 256 by omega)
    have hsize : UInt8.ofNat ndef_len ≠ 0xFF := by
      intro heq
      rw [heq] at hval
      exact absurd hval (Nat.ne_of_gt hsmall)
    refine ⟨h0, ?_⟩
    rw [tagHeader, h1, if_neg hsize, hval]
  . simp only [hsmall, if_false] at h ⊢
    obtain ⟨h0, h1, h2, h3⟩ : mem 0 = 0x03 ∧ mem 1 = 0xFF ∧ mem 2 = UInt8.ofNat (ndef_len / 256)
        ∧ mem 3 = UInt8.ofNat (ndef_len % 256) := by
      simpa [bytes, tag_header_large, List.range_succ] using h
    have hmsb : (UInt8.ofNat (ndef_len / 256)).toNat = ndef_len / 256 :=
      UInt8.toNat_ofNat_of_lt' (Nat.div_lt_of_lt_mul hlen)
    have hlsb : (UInt8.ofNat (ndef_len % 256)).toNat = ndef_len % 256 :=
      UInt8.toNat_ofNat_of_lt' (Nat.mod_lt _ (by decide))
    refine ⟨h0, ?_⟩
    rw [tagHeader, h1, if_pos rfl, h2, h3, hmsb, hlsb, Nat.mul_comm, Nat.div_add_mod]

theorem ndefHeader_of_bytes {mem : Mem} {p payload_len uri_len : Nat}
    (hpayload : payload_len < NDEF_MAX_PAYLOAD) (huri : uri_len < NDEF_MAX_URI)
    (h : bytes mem p (ndef_hdr_size payload_len) = ndefHeaderBytes payload_len uri_len)
    : ndefHeader mem p
      = { uri_len, plen := payload_len, uriStart := p + ndef_hdr_size payload_len } := by
  unfold NDEF_MAX_PAYLOAD at hpayload
  unfold NDEF_MAX_URI at huri
  have hurival : (UInt8.ofNat uri_len).toNat = uri_len :=
    UInt8.toNat_ofNat_of_lt' (show uri_len < 256 by omega)
  unfold ndef_hdr_size ndefHeaderBytes at *
  by_cases hsmall : payload_len < 255
  . simp only [hsmall, Nat.not_le.mpr hsmall, if_true, if_false] at h ⊢
    obtain ⟨h0, h1, h2⟩ : mem p = 0xd4 ∧ mem (p + 1) = UInt8.ofNat uri_len
        ∧ mem (p + 2) = UInt8.ofNat payload_len := by
      simpa [bytes, ndef_header_small, List.range_succ] using h
    have hval : (UInt8.ofNat payload_len).toNat = payload_len :=
      UInt8.toNat_ofNat_of_lt' (show payload_len < 256 by omega)
    rw [ndefHeader, h0, h1, h2, if_pos (by decide), hurival, hval]
  . simp only [hsmall, Nat.not_lt.mp hsmall, if_true, if_false] at h ⊢
    obtain ⟨hflags, hlen⟩ := (@bytes_append_iff mem p [0xc4, UInt8.ofNat uri_len]
      (uint32Bytes (local2tag_uint32 (UInt32.ofNat payload_len)))).mp h
    obtain ⟨h0, h1⟩ : mem p = 0xc4 ∧ mem (p + 1) = UInt8.ofNat uri_len := by
      simpa [bytes, List.range_succ] using hflags
    have hplen : uint32At mem (p + 2) = local2tag_uint32 (UInt32.ofNat payload_len) :=
      uint32At_eq hlen
    have hval : (UInt32.ofNat payload_len).toInt32.toInt = payload_len :=
      Int32.toInt_ofNat_of_lt (by omega)
    rw [ndefHeader, h0, h1, if_neg (by decide), hurival, hplen, tag2local_local2tag, hval]

/--
A complete read of the tag finds the message.
-/
def ReadsBack (tag : Tag) (ndefCache : Mem) (payload uri : List UInt8) : Prop :=
  let r := ndef_read tag (fun _ => true) NDEF_MAX_PAYLOAD NDEF_MAX_URI ndefCache
  r.ret = payload.length ∧ r.payload = payload ∧ r.uri = uri

/--
If the headers are on the tag then a read finds the message if and only if all of it is there.
-/
theorem readsBack_iff {tag : Tag} (ndefCache : Mem) (hpayload : payload.length < NDEF_MAX_PAYLOAD)
    (huri : uri.length < NDEF_MAX_URI) (hfits : (message payload uri).length < TAG_SIZE)
    (htag : bytes tag.byte 0 (tag_hdr_size (ndef_len payload.length uri.length))
      = tagHeaderBytes (ndef_len payload.length uri.length))
    (hndef : bytes tag.byte (tag_hdr_size (ndef_len payload.length uri.length))
      (ndef_hdr_size payload.length) = ndefHeaderBytes payload.length uri.length)
    : ReadsBack tag ndefCache payload uri
      ↔ bytes tag.byte 0 (message payload uri).length = message payload uri := by
  have hlength := message_length payload uri
  have hhdr : tag_hdr_size (ndef_len payload.length uri.length) + ndef_hdr_size payload.length
      + uri.length + payload.length = (message payload uri).length := by
    rw [hlength, ndef_len]
    omega
  unfold TAG_SIZE at hfits
  obtain ⟨hisndef, hheader⟩ := tagHeader_of_bytes (by omega) htag
  obtain ⟨mem, hmem, hread⟩ :=
    ndef_read_complete NDEF_MAX_PAYLOAD NDEF_MAX_URI ndefCache hisndef (by
      rw [hheader]
      show ndef_len payload.length uri.length < 2046
      omega)
  have hcovered : (message payload uri).length ≤ covered tag.byte := by
    have hle := le_covered tag.byte
    have hsmall : tag_hdr_size (ndef_len payload.length uri.length) ≤ 16 := by
      unfold tag_hdr_size
      split <;> decide
    rw [hheader] at hle
    simp only at hle
    omega
  have hsame : ∀ p n, p + n ≤ (message payload uri).length → bytes mem p n = bytes tag.byte p n := by
    intro p n hpn
    apply bytes_congr
    intro j hj
    exact hmem j (by omega)
  have hndef' : ndefHeader mem (tag_hdr_size (ndef_len payload.length uri.length)) = _ :=
    ndefHeader_of_bytes hpayload huri (by rw [hsame _ _ (by omega), hndef])
  unfold ReadsBack
  rw [hread, hheader]
  simp only [hndef', huri, Int.ofNat_lt, hpayload, if_true, Int.toNat_natCast, true_and]
  rw [hsame _ _ (by omega), hsame _ _ (by omega)]
  unfold message
  rw [bytes_append_iff, bytes_append_iff, bytes_append_iff]
  simp only [List.length_append, tagHeaderBytes_length, ndefHeaderBytes_length, Nat.zero_add, htag,
    hndef, true_and]
  exact And.comm

theorem bytes_ndefContent (payload uri : List UInt8) (garbage : Mem)
    : bytes (ndefContent payload uri garbage) 0 (message payload uri).length
      = message payload uri := by
  apply bytes_eq_iff.mpr
  intro k hk
  rw [Nat.zero_add, ndefContent_of_lt hk]

theorem headers_length (payload uri : List UInt8)
    : tag_hdr_size (ndef_len payload.length uri.length) + ndef_hdr_size payload.length
        ≤ (message payload uri).length
      ∧ tag_hdr_size (ndef_len payload.length uri.length) + ndef_hdr_size payload.length ≤ 16 := by
  constructor
  . rw [message_length]
    unfold ndef_len
    omega
  . unfold tag_hdr_size ndef_hdr_size
    split <;> split <;> decide

theorem headers_ndefContent (payload uri : List UInt8) (garbage : Mem)
    : bytes (ndefContent payload uri garbage) 0 (tag_hdr_size (ndef_len payload.length uri.length))
        = tagHeaderBytes (ndef_len payload.length uri.length)
      ∧ bytes (ndefContent payload uri garbage)
          (tag_hdr_size (ndef_len payload.length uri.length)) (ndef_hdr_size payload.length)
        = ndefHeaderBytes payload.length uri.length := by
  have h := bytes_ndefContent payload uri garbage
  generalize ndefContent payload uri garbage = content at *
  unfold message at h
  rw [bytes_append_iff, bytes_append_iff, bytes_append_iff] at h
  simp only [tagHeaderBytes_length, ndefHeaderBytes_length, Nat.zero_add] at h
  exact h.1.1

/--
The blocks of the message that the cache has, although the last read has not come to them, are on
the tag.
-/
def Fresh (tag : Tag) (ndefCache : Mem) (payload uri : List UInt8) (garbage : Mem) : Prop :=
  ∀ i, covered tag.byte ≤ i * 4 → SameBlock ndefCache (ndefContent payload uri garbage) i →
    ∀ k < 4, i * 4 + k < (message payload uri).length →
      tag.byte (i * 4 + k) = ndefContent payload uri garbage (i * 4 + k)

section

variable {tag : Tag} {answer : Nat → WriteAnswer} {triggered : Bool} {ndefCache : Mem}

theorem ndef_write_byte (hfits : (message payload uri).length < TAG_SIZE)
    (hwrite : (ndef_write tag answer triggered payload uri garbage ndefCache).2 = 1) {j : Nat}
    (hj : j < (message payload uri).length)
    : (ndef_write tag answer triggered payload uri garbage ndefCache).1.byte j
      = if SameBlock ndefCache (ndefContent payload uri garbage) (j / 4) then tag.byte j
        else ndefContent payload uri garbage j := by
  have hlength := message_length payload uri
  unfold ndef_write at hwrite ⊢
  simp only at hwrite ⊢
  generalize hn : (tag_hdr_size (ndef_len payload.length uri.length)
    + ndef_len payload.length uri.length + 1 + 3) / 4 = n at *
  cases hblocks : writeBlocks answer ndefCache (ndefContent payload uri garbage) n 0 tag with
  | mk tag' ok =>
    cases ok with
    | true =>
      simp only
      unfold TAG_SIZE at hfits
      rw [writeBlocks_spec hblocks (by omega) j (by unfold TAG_SIZE; omega)]
      by_cases hsame : SameBlock ndefCache (ndefContent payload uri garbage) (j / 4)
      . rw [if_neg (by tauto), if_pos hsame]
      . rw [if_pos ⟨by omega, by omega, hsame⟩, if_neg hsame]
    | false => simp [hblocks] at hwrite

end

/--
A message that has been written is read again exactly if no block has been left out because of what
an earlier read has put into the cache.
-/
theorem readsBack_iff_fresh (tag : Tag) (answered : Nat → Bool) (answer : Nat → WriteAnswer)
    (triggered : Bool) (payload uri : List UInt8) (garbage ndefCache : Mem) (r : NdefRead)
    (hr : ndef_read tag answered NDEF_MAX_PAYLOAD NDEF_MAX_URI ndefCache = r) (hread : 0 < r.ret)
    (hpayload : payload.length < NDEF_MAX_PAYLOAD) (huri : uri.length < NDEF_MAX_URI)
    (hfits : (message payload uri).length < TAG_SIZE)
    (hwrite : (ndef_write tag answer triggered payload uri garbage r.ndefCache).2 = 1)
    : ReadsBack (ndef_write tag answer triggered payload uri garbage r.ndefCache).1 r.ndefCache
        payload uri
      ↔ Fresh tag r.ndefCache payload uri garbage := by
  have hagree : ∀ j < covered tag.byte, r.ndefCache j = tag.byte j := by
    subst hr
    exact ndef_read_cache hread
  have hbyte := fun {j : Nat} (hj : j < (message payload uri).length) =>
    ndef_write_byte hfits hwrite hj
  generalize (ndef_write tag answer triggered payload uri garbage r.ndefCache).1 = tag' at *
  have hfour : ∀ j, j / 4 * 4 + j % 4 = j := fun j => Nat.div_add_mod' j 4
  have hfirst : ∀ j < (message payload uri).length, j < covered tag.byte →
      tag'.byte j = ndefContent payload uri garbage j := by
    intro j hj hj'
    rw [hbyte hj]
    split
    . next hsame =>
      have hblock := hsame (j % 4) (Nat.mod_lt j (by decide))
      rw [hfour] at hblock
      rw [← hblock, hagree j hj']
    . rfl
  have hheader : ∀ p n, p + n ≤ (message payload uri).length → p + n ≤ 16 →
      bytes tag'.byte p n = bytes (ndefContent payload uri garbage) p n := by
    intro p n hlen hpn
    have hpos : 16 ≤ covered tag.byte := covered_pos tag.byte
    apply bytes_congr
    intro j hj
    exact hfirst j (by omega) (by omega)
  obtain ⟨htag, hndef⟩ := headers_ndefContent payload uri garbage
  obtain ⟨hlen, hsmall⟩ := headers_length payload uri
  rw [← hheader _ _ (by omega) (by omega)] at htag hndef
  rw [readsBack_iff r.ndefCache hpayload huri hfits htag hndef, bytes_eq_iff]
  simp only [Nat.zero_add]
  constructor
  . intro h i _ hsame k hk hlt
    have hblock : (i * 4 + k) / 4 = i := by omega
    rw [ndefContent_of_lt hlt, ← h (i * 4 + k) hlt, hbyte hlt, hblock, if_pos hsame]
  . intro h j hj
    rw [← ndefContent_of_lt hj]
    by_cases hj' : j < covered tag.byte
    . exact hfirst j hj hj'
    . rw [hbyte hj]
      split
      . next hsame =>
        have hblock := h (j / 4) (by unfold covered at hj' ⊢; omega) hsame (j % 4)
          (Nat.mod_lt j (by decide))
        rw [hfour] at hblock
        exact hblock hj
      . rfl

end Message

/--
A tag with a message.
-/
def onTag (payload uri : List UInt8) : Tag :=
  fun j => (List.replicate 16 0 ++ message payload uri)[j]?.getD 0

/--
The same command is written to two tags. The first one has been read again after that, and the
second one has had a shorter message.
-/
def command : List UInt8 := List.replicate 17 0x4A

def command_uri : List UInt8 :=
  [0x63, 0x6F, 0x6D, 0x2E, 0x6E, 0x78, 0x70, 0x3A, 0x77, 0x69, 0x73, 0x65, 0x30, 0x31]

def firstRead : NdefRead :=
  ndef_read (onTag command command_uri) (fun _ => true) NDEF_MAX_PAYLOAD NDEF_MAX_URI fun _ => 0

def secondRead : NdefRead :=
  ndef_read (onTag [0x01] command_uri) (fun _ => true) NDEF_MAX_PAYLOAD NDEF_MAX_URI
    firstRead.ndefCache

theorem readsBack_iff_fresh_secondRead
    : ReadsBack
        (ndef_write (onTag [0x01] command_uri) (fun _ => .done) true command command_uri (fun _ => 0)
          secondRead.ndefCache).1 secondRead.ndefCache command command_uri
      ↔ Fresh (onTag [0x01] command_uri) secondRead.ndefCache command command_uri fun _ => 0 := by
  apply readsBack_iff_fresh (onTag [0x01] command_uri) (fun _ => true) (fun _ => .done) true command
    command_uri (fun _ => 0) firstRead.ndefCache secondRead rfl
  . decide
  . decide
  . decide
  . decide
  . decide

theorem secondRead_not_readsBack
    : 0 < secondRead.ret
      ∧ (ndef_write (onTag [0x01] command_uri) (fun _ => .done) true command command_uri (fun _ => 0)
        secondRead.ndefCache).2 = 1
      ∧ ¬ReadsBack
        (ndef_write (onTag [0x01] command_uri) (fun _ => .done) true command command_uri (fun _ => 0)
          secondRead.ndefCache).1 secondRead.ndefCache command command_uri := by
  refine ⟨by decide, by decide, ?_⟩
  rintro ⟨-, hpayload, -⟩
  revert hpayload
  decide

end NfcDaemon
