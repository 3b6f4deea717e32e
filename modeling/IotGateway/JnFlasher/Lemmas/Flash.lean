import IotGateway.JnFlasher.Impl.Programmer
import IotGateway.Lib.Fallible
import IotGateway.Lib.Tiles
import Mathlib.Algebra.Ring.Nat

/-!
This module says which requests write an image to the flash, and what it means that the flash has
been verified.
-/

namespace JnFlasher

open Fallible

@[simp]
theorem not_returns_setStatus {α : Type} {eStatus : Status} {info : String} {r r' : Run} {a : α}
    : ¬Returns (ePRG_SetStatus eStatus info) r a r' := not_returns_throw

@[simp]
theorem returns_withInfo {α : Type} {info : String} {x : Prg α} {r r' : Run} {a : α}
    : Returns (withInfo info x) r a r' ↔ Returns x r a r' := by
  simp only [Returns, EStateM.run, withInfo]
  cases x r with
  | ok a' r'' => exact Iff.rfl
  | error failure r'' =>
    constructor
    . rintro ⟨⟩
    . rintro ⟨⟩

@[simp]
theorem returns_check {eStatus : Status} {r r' : Run} {u : Unit}
    : Returns (check eStatus) r u r' ↔ eStatus = .ok ∧ r' = r := by
  unfold check
  by_cases h : eStatus = .ok
  . simp [h]
  . simp [h]

def Run.afterProgress (env : Env) (r : Run) : Run :=
  { r with progress := r.progress + env.cbProgress.toList.length }

@[simp]
theorem returns_reportProgress {env : Env} {r r' : Run} {u : Unit}
    : Returns (reportProgress env) r u r'
      ↔ (∀ cbProgress ∈ env.cbProgress, cbProgress r.progress = .ok) ∧ r' = r.afterProgress env := by
  unfold reportProgress
  cases h : env.cbProgress with
  | none => simp [Run.afterProgress, h]
  | some cbProgress =>
    simp [returns_bind, returns_ite, Run.afterProgress, h]

@[simp]
theorem returns_flashRead {env : Env} {r r' : Run} {address : UInt32} {length : UInt8}
    {bytes : List UInt8}
    : Returns (eBL_FlashRead env address length) r bytes r'
      ↔ ¬length > 0xfc ∧ env.read r.reads = .ok ∧ bytes = bytesAt env.flash address length.toNat
        ∧ r' = { r with reads := r.reads + 1 } := by
  unfold eBL_FlashRead
  simp [returns_bind, returns_ite, returns_map]
  intro _
  constructor
  . rintro ⟨⟨hread, hrun⟩, hbytes⟩
    exact ⟨hread, hbytes, hrun⟩
  . rintro ⟨hread, hbytes, hrun⟩
    exact ⟨⟨hread, hrun⟩, hbytes⟩

@[simp]
theorem returns_flashWrite {env : Env} {r r' : Run} {address buffer : UInt32} {length : UInt8}
    {u : Unit}
    : Returns (eBL_FlashWrite env address length buffer) r u r'
      ↔ ¬(length > 0xfc ∨ buffer = 0) ∧ env.write r.writes.length = .ok
        ∧ r' = { r with
            writes := r.writes ++ [⟨address, bytesAt r.mem buffer length.toNat⟩] } := by
  unfold eBL_FlashWrite
  simp [returns_bind, returns_ite]

/--
Nothing is written to the flash, and the memory stays as it is.
-/
structure Run.Keeps (r r' : Run) : Prop where
  mem : r'.mem = r.mem
  writes : r'.writes = r.writes

theorem keeps_flashErase {env : Env} {psContext : Context} {r r' : Run} {u : Unit}
    (h : Returns (ePRG_FlashErase env psContext) r u r')
    : r.Keeps r' := by
  unfold ePRG_FlashErase at h
  simp only [returns_bind, returns_ite, returns_withInfo, returns_check, returns_reportProgress,
    returns_flashRead, returns_pure, not_returns_setStatus, false_and, and_false, exists_false,
    false_or] at h
  obtain ⟨-, t, ⟨-, rfl⟩, -, t', ⟨-, rfl⟩, h⟩ := h
  rcases h with ⟨-, bytes, t, ⟨-, -, -, rfl⟩, -, -, rfl⟩ | ⟨-, -, rfl⟩
  . exact ⟨rfl, rfl⟩
  . exact ⟨rfl, rfl⟩

theorem returns_changeImage {f : (UInt32 → UInt8) → UInt32 → UInt8} {r r' : Run} {u : Unit}
    : Returns (changeImage f) r u r' ↔ r' = { r with mem := f r.mem } := returns_modify

/--
The image is changed in a way that depends on the chip only, or the chip is not supported.
-/
theorem setUpImage_cases (psContext : Context)
    : (∃ f : (UInt32 → UInt8) → UInt32 → UInt8,
        ∀ r u r', Returns (ePRG_SetUpImage psContext) r u r' ↔ r' = { r with mem := f r.mem })
      ∨ ∀ r u r', ¬Returns (ePRG_SetUpImage psContext) r u r' := by
  unfold ePRG_SetUpImage
  dsimp only
  split
  . exact .inl ⟨_, fun _ _ _ => returns_changeImage⟩
  . split
    . split
      . exact .inl ⟨_, fun _ _ _ => returns_changeImage⟩
      . exact .inl ⟨_, fun _ _ _ => returns_changeImage⟩
    . split
      . exact .inl ⟨id, fun r u r' => by simp⟩
      . exact .inr fun _ _ _ => not_returns_setStatus

section

variable (mem : UInt32 → UInt8)

theorem bytesAt_length (address : UInt32) (length : Nat)
    : (bytesAt mem address length).length = length := by
  rw [bytesAt, List.length_map, List.length_range]

theorem bytesAt_append (address : UInt32) (m n : Nat)
    : bytesAt mem address (m + n)
      = bytesAt mem address m ++ bytesAt mem (address + UInt32.ofNat m) n := by
  simp only [bytesAt, List.range_add, List.map_append, List.map_map, UInt32.add_assoc]
  congr 1
  apply List.map_congr_left
  intro i _
  rw [Function.comp_apply, UInt32.ofNat_add]

end

/--
Where the bytes are written.
-/
def FlashWrite.placed (w : FlashWrite) : Nat × List UInt8 := (w.u32Address.toNat, w.data)

def Context.image (psContext : Context) (mem : UInt32 → UInt8) : List UInt8 :=
  bytesAt mem psContext.sFirmwareInfo.pu8ImageData psContext.sFirmwareInfo.u32ImageLength.toNat

section

variable {env : Env} {psContext : Context}

/--
What is left of the image at `n` is its next chunk and what is left then.
-/
theorem bytesAt_chunk (mem : UInt32 → UInt8) (address : UInt32) {len n : UInt32} (h : n < len)
    : bytesAt mem (address + n) (len.toNat - n.toNat)
      = bytesAt mem (address + n) (chunkSize len n).toNat
        ++ bytesAt mem (address + (n + (chunkSize len n).toUInt32))
          (len.toNat - (n + (chunkSize len n).toUInt32).toNat) := by
  have hchunk := chunkSize_toNat h
  have hnext := next_toNat h
  have hofNat := UInt32.ofNat_uInt8ToNat (chunkSize len n)
  have hsplit : len.toNat - n.toNat
      = (chunkSize len n).toNat + (len.toNat - (n + (chunkSize len n).toUInt32).toNat) := by
    rw [hnext, hchunk]
    omega
  rw [← UInt32.add_assoc, ← hofNat, ← bytesAt_append, hofNat, ← hsplit]

theorem next_le {len n : UInt32} (h : n < len)
    : (n + (chunkSize len n).toUInt32).toNat ≤ len.toNat := by
  have hlt := UInt32.lt_iff_toNat_lt.mp h
  rw [next_toNat h]
  omega

/--
What the loop writes from `n` on, by the number of bytes that are left.
-/
theorem tiles_writeLoop {n : UInt32} {r r' : Run} {u : Unit}
    (hwrap : psContext.u32FlashOffset.toNat + psContext.sFirmwareInfo.u32ImageLength.toNat < 2 ^ 32)
    (hn : n.toNat ≤ psContext.sFirmwareInfo.u32ImageLength.toNat)
    (h : Returns (writeLoop env psContext n) r u r')
    : ∃ requests, r'.writes = r.writes ++ requests
        ∧ Tiles 128 (psContext.u32FlashOffset.toNat + n.toNat)
            (bytesAt r.mem (psContext.sFirmwareInfo.pu8ImageData + n)
              (psContext.sFirmwareInfo.u32ImageLength.toNat - n.toNat))
            (requests.map FlashWrite.placed) := by
  generalize hleft : psContext.sFirmwareInfo.u32ImageLength.toNat - n.toNat = left
  induction left using Nat.strongRecOn generalizing n r with
  | ind left ih =>
    subst hleft
    rw [writeLoop] at h
    by_cases hlt : n < psContext.sFirmwareInfo.u32ImageLength
    . simp only [hlt, dite_true, returns_bind, returns_withInfo, returns_flashWrite,
        returns_reportProgress] at h
      obtain ⟨-, t, ⟨-, -, rfl⟩, -, t', ⟨-, rfl⟩, h⟩ := h
      have hnext := next_toNat hlt
      have hchunk := chunkSize_toNat hlt
      have hlt' := UInt32.lt_iff_toNat_lt.mp hlt
      obtain ⟨requests, hwrites, htiles⟩ := ih _ (by omega) (next_le hlt) h rfl
      refine ⟨_, hwrites.trans (List.append_assoc _ _ _), ?_⟩
      . rw [bytesAt_chunk r.mem _ hlt, List.singleton_append, List.map_cons]
        have haddress : (psContext.u32FlashOffset + n).toNat
            = psContext.u32FlashOffset.toNat + n.toNat := by
          rw [UInt32.toNat_add, Nat.mod_eq_of_lt]
          omega
        have hpos : psContext.u32FlashOffset.toNat + n.toNat
            + (bytesAt r.mem (psContext.sFirmwareInfo.pu8ImageData + n)
              (chunkSize psContext.sFirmwareInfo.u32ImageLength n).toNat).length
            = psContext.u32FlashOffset.toNat
              + (n + (chunkSize psContext.sFirmwareInfo.u32ImageLength n).toUInt32).toNat := by
          rw [bytesAt_length, hchunk, hnext]
          omega
        rw [FlashWrite.placed, haddress]
        apply Tiles.cons
        . rw [bytesAt_length, hchunk]
          omega
        . rw [bytesAt_length, hchunk]
          omega
        . rw [hpos]
          exact htiles
    . simp only [hlt, dite_false, returns_pure] at h
      have hle := UInt32.not_lt.mp hlt
      rw [UInt32.le_iff_toNat_le] at hle
      obtain ⟨-, rfl⟩ := h
      refine ⟨[], (List.append_nil _).symm, ?_⟩
      rw [Nat.sub_eq_zero_of_le hle]
      exact .nil

/--
One pass of the loop.
-/
theorem returns_verifyLoop {n : UInt32} (hlt : n < psContext.sFirmwareInfo.u32ImageLength)
    {r r' : Run} {u : Unit}
    : let u8ChunkSize := chunkSize psContext.sFirmwareInfo.u32ImageLength n
      Returns (verifyLoop env psContext n) r u r'
        ↔ env.read r.reads = .ok
          ∧ bytesAt r.mem (psContext.sFirmwareInfo.pu8ImageData + n) u8ChunkSize.toNat
            = bytesAt env.flash (psContext.u32FlashOffset + n) u8ChunkSize.toNat
          ∧ (∀ cbProgress ∈ env.cbProgress, cbProgress r.progress = .ok)
          ∧ Returns (verifyLoop env psContext (n + u8ChunkSize.toUInt32))
            (Run.afterProgress env { r with reads := r.reads + 1 }) u r' := by
  have hchunk := chunkSize_toNat hlt
  have hsmall : ¬chunkSize psContext.sFirmwareInfo.u32ImageLength n > 0xfc := by
    rw [gt_iff_lt, UInt8.lt_iff_toNat_lt, hchunk]
    have h252 : (0xfc : UInt8).toNat = 252 := rfl
    omega
  dsimp only
  rw [verifyLoop]
  simp only [hlt, dite_true, returns_bind, returns_withInfo, returns_flashRead, returns_get,
    returns_ite, not_returns_setStatus, returns_reportProgress, false_and, and_false, exists_false,
    false_or]
  constructor
  . rintro ⟨bytes, t, ⟨-, hread, rfl, rfl⟩, _, _, ⟨rfl, rfl⟩, hsame, -, t', ⟨hprogress, rfl⟩, h⟩
    exact ⟨hread, not_not.mp hsame, hprogress, h⟩
  . rintro ⟨hread, hsame, hprogress, h⟩
    exact ⟨_, _, ⟨hsmall, hread, rfl, rfl⟩, _, _, ⟨rfl, rfl⟩, not_not.mpr hsame, (), _,
      ⟨hprogress, rfl⟩, h⟩

/--
The loop returns from `n` if and only if what is left of the image is what is in the flash there.
-/
theorem verifyLoop_returns_iff {n : UInt32} {r : Run}
    (hread : ∀ i, env.read i = .ok)
    (hprogress : ∀ cbProgress ∈ env.cbProgress, ∀ i, cbProgress i = .ok)
    : (∃ r', Returns (verifyLoop env psContext n) r () r')
      ↔ bytesAt env.flash (psContext.u32FlashOffset + n)
          (psContext.sFirmwareInfo.u32ImageLength.toNat - n.toNat)
        = bytesAt r.mem (psContext.sFirmwareInfo.pu8ImageData + n)
          (psContext.sFirmwareInfo.u32ImageLength.toNat - n.toNat) := by
  generalize hleft : psContext.sFirmwareInfo.u32ImageLength.toNat - n.toNat = left
  induction left using Nat.strongRecOn generalizing n r with
  | ind left ih =>
    subst hleft
    by_cases hlt : n < psContext.sFirmwareInfo.u32ImageLength
    . have hnext := next_toNat hlt
      have hlt' := UInt32.lt_iff_toNat_lt.mp hlt
      have hshorter : psContext.sFirmwareInfo.u32ImageLength.toNat
            - (n + (chunkSize psContext.sFirmwareInfo.u32ImageLength n).toUInt32).toNat
          < psContext.sFirmwareInfo.u32ImageLength.toNat - n.toNat := by
        omega
      have hrest := ih _ hshorter (r := Run.afterProgress env { r with reads := r.reads + 1 }) rfl
      simp only [returns_verifyLoop hlt, hread, true_and]
      rw [bytesAt_chunk env.flash _ hlt, bytesAt_chunk r.mem _ hlt]
      constructor
      . rintro ⟨r', hsame, -, h⟩
        rw [hsame, hrest.mp ⟨r', h⟩]
        rfl
      . intro happend
        obtain ⟨hsame, htail⟩ := List.append_inj happend (by rw [bytesAt_length, bytesAt_length])
        obtain ⟨r', h⟩ := hrest.mpr htail
        exact ⟨r', hsame.symm, fun cbProgress hcb => hprogress cbProgress hcb r.progress, h⟩
    . rw [verifyLoop]
      simp only [hlt, dite_false, returns_pure]
      have hle := UInt32.not_lt.mp hlt
      rw [UInt32.le_iff_toNat_le] at hle
      rw [Nat.sub_eq_zero_of_le hle]
      exact iff_of_true ⟨r, trivial, rfl⟩ rfl

theorem verifyLoop_zero_iff {r : Run} (hread : ∀ i, env.read i = .ok)
    (hprogress : ∀ cbProgress ∈ env.cbProgress, ∀ i, cbProgress i = .ok)
    : (∃ r', Returns (verifyLoop env psContext 0) r () r')
      ↔ bytesAt env.flash psContext.u32FlashOffset psContext.sFirmwareInfo.u32ImageLength.toNat
        = psContext.image r.mem := by
  rw [verifyLoop_returns_iff hread hprogress, UInt32.add_zero, UInt32.add_zero, UInt32.toNat_zero,
    Nat.sub_zero]
  rfl

/--
The range lies in the flash, and what is there is the image.
-/
def Verified (flash mem : UInt32 → UInt8) (psContext : Context) : Prop :=
  psContext.u32FlashOffset.toNat + psContext.sFirmwareInfo.u32ImageLength.toNat
      ≤ psContext.sChipDetails.u32FlashSize.toNat
    ∧ bytesAt flash psContext.u32FlashOffset psContext.sFirmwareInfo.u32ImageLength.toNat
      = psContext.image mem

theorem returns_checkSize {r r' : Run} {u : Unit}
    (hwrap : psContext.u32FlashOffset.toNat + psContext.sFirmwareInfo.u32ImageLength.toNat < 2 ^ 32)
    : Returns (checkSize psContext) r u r'
      ↔ psContext.u32FlashOffset.toNat + psContext.sFirmwareInfo.u32ImageLength.toNat
          ≤ psContext.sChipDetails.u32FlashSize.toNat
        ∧ r' = r := by
  unfold checkSize
  simp only [returns_ite, not_returns_setStatus, and_false, false_or, returns_pure, gt_iff_lt,
    UInt32.lt_iff_toNat_lt, UInt32.toNat_add, Nat.mod_eq_of_lt hwrap, not_lt, true_and]

theorem keeps_confirmImage {r r' : Run} {u : Unit} (h : Returns (confirmImage env psContext) r u r')
    : r' = r := by
  unfold confirmImage at h
  simp only [returns_ite, not_returns_setStatus, and_false, false_or, returns_pure] at h
  rcases h with ⟨-, -, -, rfl⟩ | ⟨-, -, rfl⟩
  . rfl
  . rfl

/--
The image that is prepared depends on the memory only.
-/
theorem setUpImage_eq {r prepared : Run} (hsetup : Returns (ePRG_SetUpImage psContext) r () prepared)
    {t t' : Run} {u : Unit} (hmem : t.mem = r.mem)
    : Returns (ePRG_SetUpImage psContext) t u t' ↔ t' = { t with mem := prepared.mem } := by
  rcases setUpImage_cases psContext with ⟨f, hf⟩ | hnever
  . obtain rfl := (hf r () prepared).mp hsetup
    rw [hf, hmem]
  . exact absurd hsetup (hnever r () prepared)

theorem written_of_program {r prepared r' : Run}
    (hwrap : psContext.u32FlashOffset.toNat + psContext.sFirmwareInfo.u32ImageLength.toNat < 2 ^ 32)
    (hsetup : Returns (ePRG_SetUpImage psContext) r () prepared)
    (h : Returns (ePRG_FlashProgram env psContext) r () r')
    : ∃ requests, r'.writes = r.writes ++ requests
        ∧ Tiles 128 psContext.u32FlashOffset.toNat (psContext.image prepared.mem)
            (requests.map FlashWrite.placed)
        ∧ psContext.u32FlashOffset.toNat + psContext.sFirmwareInfo.u32ImageLength.toNat
            ≤ psContext.sChipDetails.u32FlashSize.toNat := by
  unfold ePRG_FlashProgram at h
  simp only [returns_bind, returns_withInfo, returns_reportProgress] at h
  obtain ⟨_, t, hconfirm, _, t', hsetup', _, t'', hsize, _, t₃, herase, _, t₄, ⟨-, rfl⟩, _, t₅,
    hloop, -, rfl⟩ := h
  obtain rfl := keeps_confirmImage hconfirm
  obtain rfl := (setUpImage_eq hsetup rfl).mp hsetup'
  obtain ⟨hfits, rfl⟩ := (returns_checkSize hwrap).mp hsize
  have hkeeps := keeps_flashErase herase
  obtain ⟨requests, hwrites, htiles⟩ := tiles_writeLoop hwrap (Nat.zero_le _) hloop
  refine ⟨requests, ?_, ?_, hfits⟩
  . exact hwrites.trans (congrArg (· ++ requests) hkeeps.writes)
  . rw [show (Run.afterProgress env t₃).mem = prepared.mem from hkeeps.mem] at htiles
    simpa [Context.image] using htiles

theorem returns_verify_iff {r prepared : Run}
    (hwrap : psContext.u32FlashOffset.toNat + psContext.sFirmwareInfo.u32ImageLength.toNat < 2 ^ 32)
    (hsetup : Returns (ePRG_SetUpImage psContext) r () prepared)
    (hcrp : psContext.sDeviceConfig.eCRP ≠ .level1) (hread : ∀ i, env.read i = .ok)
    (hprogress : ∀ cbProgress ∈ env.cbProgress, ∀ i, cbProgress i = .ok)
    : (∃ r', Returns (ePRG_FlashVerify env psContext) r () r')
      ↔ Verified env.flash prepared.mem psContext := by
  have hprepare {u : Unit} {t' : Run}
      : Returns (ePRG_SetUpImage psContext) (r.afterProgress env) u t'
          ↔ t' = { r.afterProgress env with mem := prepared.mem } :=
    setUpImage_eq hsetup rfl
  unfold ePRG_FlashVerify Verified
  simp only [returns_bind, returns_ite, not_returns_setStatus, returns_reportProgress,
    returns_checkSize hwrap, hcrp, false_and, exists_false, false_or]
  constructor
  . rintro ⟨r', -, _, t, ⟨hfits, rfl⟩, _, t', ⟨-, rfl⟩, _, t'', hsetup', _, t₃, hverify, -⟩
    obtain rfl := hprepare.mp hsetup'
    have hsame := (verifyLoop_zero_iff hread hprogress).mp ⟨t₃, hverify⟩
    exact ⟨hfits, hsame⟩
  . rintro ⟨hfits, hsame⟩
    obtain ⟨t, hverify⟩ := (verifyLoop_zero_iff hread hprogress
      (r := { r.afterProgress env with mem := prepared.mem })).mpr hsame
    exact ⟨_, not_false, (), r, ⟨hfits, rfl⟩, (), _,
      ⟨fun cbProgress hcb => hprogress cbProgress hcb r.progress, rfl⟩, (), _,
      hprepare.mpr rfl, (), t, hverify,
      fun cbProgress hcb => hprogress cbProgress hcb t.progress, rfl⟩

end

/--
An image that has been programmed has been written piece by piece, and it is verified if and only if
it is what is in the flash.
-/
theorem programmed_and_verified (env : Env) (psContext : Context) (r prepared : Run)
    (hwrap : psContext.u32FlashOffset.toNat + psContext.sFirmwareInfo.u32ImageLength.toNat < 2 ^ 32)
    (hsetup : Returns (ePRG_SetUpImage psContext) r () prepared)
    : (∀ r', Returns (ePRG_FlashProgram env psContext) r () r' →
        ∃ requests, r'.writes = r.writes ++ requests
          ∧ Tiles 128 psContext.u32FlashOffset.toNat (psContext.image prepared.mem)
              (requests.map FlashWrite.placed)
          ∧ ∀ w ∈ requests,
              w.u32Address.toNat + w.data.length ≤ psContext.sChipDetails.u32FlashSize.toNat)
      ∧ (psContext.sDeviceConfig.eCRP ≠ .level1 → (∀ i, env.read i = .ok) →
        (∀ cbProgress ∈ env.cbProgress, ∀ i, cbProgress i = .ok) →
        ((∃ r', Returns (ePRG_FlashVerify env psContext) r () r')
          ↔ Verified env.flash prepared.mem psContext)) := by
  constructor
  . intro r' h
    obtain ⟨requests, hwrites, htiles, hfits⟩ := written_of_program hwrap hsetup h
    refine ⟨requests, hwrites, htiles, ?_⟩
    intro w hw
    have hinside := htiles.inside w.placed (List.mem_map_of_mem hw)
    rw [Context.image, bytesAt_length] at hinside
    exact Nat.le_trans hinside.2 hfits
  . intro hcrp hread hprogress
    exact returns_verify_iff hwrap hsetup hcrp hread hprogress

/--
A JN5168 with 512 bytes of flash, and an image of 300 bytes that goes behind the first 64.
-/
def smallContext : Context where
  sFirmwareInfo :=
    { u32ROMVersion := 0x00040008, pu8ImageData := 0x1000, u32ImageLength := 300, bRawImage := false }
  sChipDetails :=
    { u32ChipId := CHIP_ID_JN5168, u32SupportedFirmware := 0x00040008, u32FlashSize := 512
      u32BootloaderVersion := 0, au8MacAddress := Vector.replicate 8 0 }
  sDeviceConfig :=
    { eJtag := .default, eVbo := .default, eCRP := .level0, eExternalFlashEncrypted := .default
      eExternalFlashLoad := .default }
  u32FlashOffset := 64

def smallRun : Run where
  mem := fun address => address.toUInt8

/--
Every request succeeds, and the flash is still blank.
-/
def blankEnv : Env where
  cbConfirm := none
  cbProgress := some fun _ => .ok
  erase := .ok
  write := fun _ => .ok
  read := fun _ => .ok
  flash := fun _ => 0xFF

def Run.sizes : EStateM.Result Failure Run Unit → List (Nat × Nat)
  | .ok () r => r.writes.map fun w => (w.u32Address.toNat, w.data.length)
  | .error _ _ => []

theorem programmed_and_verified_small
    : Run.sizes ((ePRG_FlashProgram blankEnv smallContext).run smallRun)
          = [(64, 128), (192, 128), (320, 44)]
        ∧ ((∃ r', Returns (ePRG_FlashVerify blankEnv smallContext) smallRun () r')
          ↔ Verified blankEnv.flash smallRun.mem smallContext) := by
  constructor
  . decide +kernel
  . apply (programmed_and_verified blankEnv smallContext smallRun smallRun (by decide) rfl).2
    . decide
    . exact fun _ => rfl
    . intro cbProgress hcb i
      obtain rfl := Option.some.inj hcb
      rfl

end JnFlasher
