import IotGateway.JnFlasher.Impl.Firmware
import IotGateway.Lib.Fallible

/-!
This module says when the header and the text section of a recognised firmware are inside its file.
-/

namespace JnFlasher

namespace Firmware

open Accesses Fallible

/--
What is read of the header and what it announces is inside the file.
-/
def WithinFile (sFirmwareInfo : Info) (u32Length : UInt32) : Prop :=
  Inside (fun _ => u32Length.toNat)
    (headerAccesses ++ [⟨(), sFirmwareInfo.pu8TextData, sFirmwareInfo.u32TextSectionLength.toNat⟩])

instance decidableWithinFile (sFirmwareInfo : Info) (u32Length : UInt32)
    : Decidable (WithinFile sFirmwareInfo u32Length) :=
  inferInstanceAs (Decidable (Inside _ _))

/--
The length that the bytes 46 and 47 stand for. The number before is `12` first if the file is big
endian.
-/
def announced (pu8Firmware : Nat → UInt8) : Nat :=
  if pu8Firmware 4 = 0x12 then
    4 * (256 * (pu8Firmware 46).toNat + (pu8Firmware 47).toNat)
  else
    4 * ((pu8Firmware 46).toNat + 256 * (pu8Firmware 47).toNat)

variable {pu8Firmware : Nat → UInt8} {u32Length : UInt32} {format : Format} {s s' : Info} {u : Unit}

theorem ntohl_toNat (pu8Firmware : Nat → UInt8) (field : Nat)
    : (ntohl pu8Firmware field).toNat
        = (pu8Firmware (field + 3)).toNat + 256 * ((pu8Firmware (field + 2)).toNat
          + 256 * ((pu8Firmware (field + 1)).toNat + 256 * (pu8Firmware field).toNat)) := by
  have h0 := (pu8Firmware field).toNat_lt
  have h1 := (pu8Firmware (field + 1)).toNat_lt
  have h2 := (pu8Firmware (field + 2)).toNat_lt
  have h3 := (pu8Firmware (field + 3)).toNat_lt
  rw [ntohl, UInt32.toNat_ofNat']
  simp only [fieldBytes, Packed.network, List.reverse_cons, List.reverse_nil, List.nil_append,
    List.cons_append, Packed.host]
  omega

theorem le32toh_toNat (pu8Firmware : Nat → UInt8) (field : Nat)
    : (le32toh pu8Firmware field).toNat
        = (pu8Firmware field).toNat + 256 * ((pu8Firmware (field + 1)).toNat
          + 256 * ((pu8Firmware (field + 2)).toNat + 256 * (pu8Firmware (field + 3)).toNat)) := by
  have h0 := (pu8Firmware field).toNat_lt
  have h1 := (pu8Firmware (field + 1)).toNat_lt
  have h2 := (pu8Firmware (field + 2)).toNat_lt
  have h3 := (pu8Firmware (field + 3)).toNat_lt
  rw [le32toh, UInt32.toNat_ofNat']
  simp only [fieldBytes, Packed.host]
  omega

theorem low_toNat (info : UInt32) : ((info &&& 0x0000FFFF) * 4).toNat = 4 * (info.toNat % 2 ^ 16) := by
  have hmask : (0x0000FFFF : UInt32).toNat = 2 ^ 16 - 1 := rfl
  have hfour : (4 : UInt32).toNat = 4 := rfl
  rw [UInt32.toNat_mul, UInt32.toNat_and, hmask, hfour, Nat.and_two_pow_sub_one_eq_mod]
  omega

theorem high_toNat (info : UInt32) : ((info >>> 16) * 4).toNat = 4 * (info.toNat / 2 ^ 16) := by
  have hlt := info.toNat_lt
  have hshift : (16 : UInt32).toNat % 32 = 16 := rfl
  have hfour : (4 : UInt32).toNat = 4 := rfl
  rw [UInt32.toNat_mul, UInt32.toNat_shiftRight, hshift, hfour, Nat.shiftRight_eq_div_pow]
  omega

/--
Each of the formats can be told from the first byte of its number.
-/
theorem first_of_bigEndian (h : bigEndianFormat.recognises pu8Firmware) : pu8Firmware 4 = 0x12 := by
  have hword := congrArg UInt32.toNat h.1
  have hmagic : bigEndianFormat.magic.1.toNat = 0x12345678 := rfl
  have htoh : (bigEndianFormat.toh pu8Firmware (au32BootImageRecord 0)).toNat
      = (pu8Firmware 7).toNat + 256 * ((pu8Firmware 6).toNat
        + 256 * ((pu8Firmware 5).toNat + 256 * (pu8Firmware 4).toNat)) := ntohl_toNat pu8Firmware 4
  have h5 := (pu8Firmware 5).toNat_lt
  have h6 := (pu8Firmware 6).toNat_lt
  have h7 := (pu8Firmware 7).toNat_lt
  rw [htoh, hmagic] at hword
  apply UInt8.toNat_inj.mp
  show (pu8Firmware 4).toNat = 0x12
  omega

theorem first_of_littleEndian (hword : le32toh pu8Firmware (au32BootImageRecord 0) = 0x12345678)
    : pu8Firmware 4 ≠ 0x12 := by
  have hvalue := congrArg UInt32.toNat hword
  have hmagic : (0x12345678 : UInt32).toNat = 0x12345678 := rfl
  have htoh : (le32toh pu8Firmware (au32BootImageRecord 0)).toNat
      = (pu8Firmware 4).toNat + 256 * ((pu8Firmware 5).toNat
        + 256 * ((pu8Firmware 6).toNat + 256 * (pu8Firmware 7).toNat)) := le32toh_toNat pu8Firmware 4
  rw [htoh, hmagic] at hvalue
  intro hfirst
  rw [hfirst] at hvalue
  have h12 : (0x12 : UInt8).toNat = 0x12 := rfl
  omega

/--
A file of the format announces the length that is in its bytes.
-/
def Format.Announces (format : Format) (pu8Firmware : Nat → UInt8) : Prop :=
  (format.length (format.toh pu8Firmware u32DataSectionInfo)).toNat = announced pu8Firmware

theorem bigEndianFormat_announces (h : bigEndianFormat.recognises pu8Firmware)
    : bigEndianFormat.Announces pu8Firmware := by
  have h46 := (pu8Firmware 46).toNat_lt
  have h47 := (pu8Firmware 47).toNat_lt
  have hlength := low_toNat (ntohl pu8Firmware u32DataSectionInfo)
  have htoh : (ntohl pu8Firmware u32DataSectionInfo).toNat
      = (pu8Firmware 47).toNat + 256 * ((pu8Firmware 46).toNat
        + 256 * ((pu8Firmware 45).toNat + 256 * (pu8Firmware 44).toNat)) := ntohl_toNat pu8Firmware 44
  unfold Format.Announces announced
  rw [if_pos (first_of_bigEndian h)]
  refine hlength.trans ?_
  rw [htoh]
  omega

/--
Both little endian formats have the length in the upper half.
-/
theorem littleEndian_announces (hword : le32toh pu8Firmware (au32BootImageRecord 0) = 0x12345678)
    : ((le32toh pu8Firmware u32DataSectionInfo >>> 16) * 4).toNat = announced pu8Firmware := by
  have h44 := (pu8Firmware 44).toNat_lt
  have h45 := (pu8Firmware 45).toNat_lt
  have htoh : (le32toh pu8Firmware u32DataSectionInfo).toNat
      = (pu8Firmware 44).toNat + 256 * ((pu8Firmware 45).toNat
        + 256 * ((pu8Firmware 46).toNat + 256 * (pu8Firmware 47).toNat)) :=
    le32toh_toNat pu8Firmware 44
  unfold announced
  rw [if_neg (first_of_littleEndian hword), high_toNat, htoh]
  omega

theorem returns_getInfo
    : Returns (format.getInfo pu8Firmware u32Length) s u s'
        ↔ format.length (format.toh pu8Firmware u32DataSectionInfo) ≤ u32Length
          ∧ s' = format.info pu8Firmware u32Length := by
  unfold Format.getInfo
  simp only [↓returns_get_bind, returns_bind, returns_modify, exists_eq_left, returns_ite,
    not_returns_throw, false_and, exists_false, and_false, false_or, exists_const]
  exact and_congr UInt32.not_lt Iff.rfl

/--
A success on a file that is recognised is one of its format.
-/
theorem recognised_of_returns (h : Returns (ePRG_FwGetInfo pu8Firmware u32Length) s u s')
    (hraw : s'.bRawImage = false)
    : ∃ format : Format, format.Announces pu8Firmware ∧ s' = format.info pu8Firmware u32Length := by
  unfold ePRG_FwGetInfo at h
  obtain ⟨_, t, -, h⟩ := returns_bind.mp h
  rw [returns_ite, returns_ite, returns_ite] at h
  obtain ⟨hformat, h⟩ | ⟨-, ⟨hformat, h⟩ | ⟨-, ⟨hformat, h⟩ | ⟨-, h⟩⟩⟩ := h
  . exact ⟨bigEndianFormat, bigEndianFormat_announces hformat, (returns_getInfo.mp h).2⟩
  . exact ⟨littleEndianFormat, littleEndian_announces hformat.1, (returns_getInfo.mp h).2⟩
  . exact ⟨wholeFileFormat, littleEndian_announces hformat.1, (returns_getInfo.mp h).2⟩
  . rw [returns_modify] at h
    rw [h] at hraw
    cases hraw

/--
A recognised image is inside its file exactly if there is room for its text behind the header.
-/
theorem withinFile_iff (h : Returns (ePRG_FwGetInfo pu8Firmware u32Length) s () s')
    (hraw : s'.bRawImage = false)
    : WithinFile s' u32Length ↔ u8TextDataStart + announced pu8Firmware ≤ u32Length.toNat := by
  obtain ⟨format, hannounces, rfl⟩ := recognised_of_returns h hraw
  have hlength : (format.info pu8Firmware u32Length).u32TextSectionLength.toNat
      = announced pu8Firmware := hannounces
  have hstart : (format.info pu8Firmware u32Length).pu8TextData = 60 := rfl
  unfold WithinFile
  rw [hlength, hstart]
  simp [headerAccesses, au32BootImageRecord, u32ROMVersion, u32DataSectionInfo, u32BssSectionInfo,
    u32WakeUpEntryPoint, u32ResetEntryPoint, u8TextDataStart]
  omega

/--
A big endian file with this text length in words, and zeros otherwise.
-/
def smallFirmware (words : UInt8) : Nat → UInt8
  | 4 => 0x12
  | 5 => 0x34
  | 6 => 0x56
  | 7 => 0x78
  | 8 => 0x11
  | 9 => 0x22
  | 10 => 0x33
  | 11 => 0x44
  | 12 => 0x55
  | 13 => 0x66
  | 14 => 0x77
  | 15 => 0x88
  | 47 => words
  | _ => 0

theorem returns_smallFirmware {words : UInt8} {u32Length : UInt32}
    (hformat : bigEndianFormat.recognises (smallFirmware words))
    (hlength : bigEndianFormat.length
      (bigEndianFormat.toh (smallFirmware words) u32DataSectionInfo) ≤ u32Length)
    : Returns (ePRG_FwGetInfo (smallFirmware words) u32Length) {} ()
        (bigEndianFormat.info (smallFirmware words) u32Length) := by
  unfold ePRG_FwGetInfo
  refine returns_bind.mpr ⟨(), _, returns_modify.mpr rfl, ?_⟩
  rw [if_pos hformat]
  exact returns_getInfo.mpr ⟨hlength, rfl⟩

theorem withinFile_iff_small
    : WithinFile (bigEndianFormat.info (smallFirmware 1) 64) 64
        ↔ u8TextDataStart + announced (smallFirmware 1) ≤ (64 : UInt32).toNat :=
  withinFile_iff (returns_smallFirmware (by decide) (by decide)) rfl

/--
A text of 64 bytes in a file of 64 bytes, and a file that ends after the magic numbers.
-/
theorem text_not_withinFile
    : (Returns (ePRG_FwGetInfo (smallFirmware 16) 64) {} ()
          (bigEndianFormat.info (smallFirmware 16) 64)
        ∧ ¬WithinFile (bigEndianFormat.info (smallFirmware 16) 64) 64)
      ∧ Returns (ePRG_FwGetInfo (smallFirmware 0) 16) {} ()
          (bigEndianFormat.info (smallFirmware 0) 16)
        ∧ ¬WithinFile (bigEndianFormat.info (smallFirmware 0) 16) 16 :=
  ⟨⟨returns_smallFirmware (by decide) (by decide), by decide⟩,
    returns_smallFirmware (by decide) (by decide), by decide⟩

end Firmware

end JnFlasher
