import IotGateway.JnFlasher.Impl.Eeprom
import IotGateway.JnFlasher.Lemmas.Flash

/-!
This module says when an EEPROM that has been copied to a file can be restored from the file.
-/

namespace JnFlasher

namespace Eeprom

open Fallible

section Returns

variable {env : Env} {psContext : Context} {s s' : Session} {u : Unit}

@[simp]
theorem not_returns_setStatus {α : Type} {eStatus : Status} {info : String} {a : α}
    : ¬Returns (ePRG_SetStatus eStatus info) s a s' := not_returns_throw

@[simp]
theorem returns_check {eStatus : Status} {info : String}
    : Returns (check eStatus info) s u s' ↔ eStatus = .ok ∧ s' = s := by
  unfold check
  by_cases h : eStatus = .ok
  . simp [h]
  . simp [h]

def Session.afterProgress (env : Env) (s : Session) : Session :=
  { s with progress := s.progress + env.cbProgress.toList.length }

@[simp]
theorem returns_reportProgress
    : Returns (reportProgress env) s u s'
      ↔ (∀ cbProgress ∈ env.cbProgress, cbProgress s.progress = .ok) ∧ s' = s.afterProgress env := by
  unfold reportProgress
  cases h : env.cbProgress with
  | none => simp [Session.afterProgress, h]
  | some cbProgress => simp [returns_bind, returns_ite, Session.afterProgress, h]

@[simp]
theorem returns_eepromRead {address : UInt32} {length : UInt8} {info : String} {bytes : List UInt8}
    : Returns (eBL_EEPROMRead env address length info) s bytes s'
      ↔ ¬length > 0xfc ∧ env.eepromRead s.eepromReads = .ok
        ∧ bytes = bytesAt s.eeprom address length.toNat
        ∧ s' = { s with eepromReads := s.eepromReads + 1 } := by
  unfold eBL_EEPROMRead
  simp [returns_bind, returns_ite, returns_map]
  intro _
  constructor
  . rintro ⟨⟨hread, hrun⟩, hbytes⟩
    exact ⟨hread, hbytes, hrun⟩
  . rintro ⟨hread, hbytes, hrun⟩
    exact ⟨⟨hread, hrun⟩, hbytes⟩

@[simp]
theorem returns_eepromWrite {address : UInt32} {length : UInt8} {buffer : List UInt8} {info : String}
    : Returns (eBL_EEPROMWrite env address length buffer info) s u s'
      ↔ ¬length > 0xfc ∧ env.eepromWrite s.eepromWrites.length = .ok
        ∧ s' = { s with
            eepromWrites := s.eepromWrites ++ [⟨address, buffer.take length.toNat⟩]
            eeprom := store s.eeprom address (buffer.take length.toNat) } := by
  unfold eBL_EEPROMWrite
  simp only [gt_iff_lt, returns_ite, returns_bind, not_returns_setStatus, returns_get, returns_set,
    returns_check, returns_modify, exists_const, exists_eq_left, exists_and_right, exists_eq_right,
    false_and, exists_false, and_false, UInt8.not_lt, false_or, and_congr_right_iff]
  intro _
  constructor
  . rintro ⟨t, ⟨hwrite, rfl⟩, rfl⟩
    exact ⟨hwrite, rfl⟩
  . rintro ⟨hwrite, rfl⟩
    exact ⟨_, ⟨hwrite, rfl⟩, rfl⟩

@[simp]
theorem returns_writeFile {buffer : List UInt8} {info : String}
    : Returns (writeFile env buffer info) s u s'
      ↔ ∃ count, env.write s.writes = some count
        ∧ s' = { s with writes := s.writes + 1, file := s.file ++ buffer.take count } := by
  unfold writeFile
  rw [returns_get_bind]
  cases hcount : env.write s.writes with
  | some count => simp
  | none => simp [returns_set_bind]

theorem returns_enterExtension {capability : Bool} {operation : String}
    (h : Returns (enterExtension env psContext capability operation) s u s')
    : ∃ loads, s' = { s with loads } := by
  unfold enterExtension ePRG_FlashProgrammerExtensionLoad at h
  simp only [returns_bind, returns_ite, returns_check, returns_pure, returns_modify,
    not_returns_setStatus, false_and, and_false, exists_false, false_or] at h
  obtain ⟨-, -, rfl⟩ | ⟨-, -, _, t, ⟨-, rfl⟩, _, t', ⟨-, rfl⟩, rfl⟩ := h
  . exact ⟨_, rfl⟩
  . exact ⟨_, rfl⟩

theorem returns_leaveExtension {capability : Bool}
    (h : Returns (leaveExtension env psContext capability) s u s')
    : ∃ returns, s' = { s with returns } := by
  unfold leaveExtension ePRG_FlashProgrammerExtensionReturn at h
  simp only [returns_bind, returns_ite, returns_check, returns_pure, returns_modify] at h
  obtain ⟨-, -, rfl⟩ | ⟨-, _, t, rfl, _, t', ⟨-, rfl⟩, h⟩ := h
  . exact ⟨_, rfl⟩
  . obtain ⟨-, _, t, ⟨-, rfl⟩, -, rfl⟩ | ⟨-, -, rfl⟩ := h
    . exact ⟨_, rfl⟩
    . exact ⟨_, rfl⟩

/--
Besides what the program does, only the calls for the extension are counted.
-/
theorem returns_withExtension {capability : Bool} {operation : String} {x : Prg Unit}
    (h : Returns (withExtension env psContext capability operation x) s u s')
    : ∃ (loads returns : Nat) (t : Session),
        Returns x { s with loads } () t ∧ s' = { t with returns } := by
  unfold withExtension at h
  simp only [returns_bind] at h
  obtain ⟨_, t, henter, _, t', hx, hleave⟩ := h
  obtain ⟨loads, rfl⟩ := returns_enterExtension henter
  obtain ⟨returns, rfl⟩ := returns_leaveExtension hleave
  exact ⟨loads, returns, t', hx, rfl⟩

end Returns

section Dump

variable {env : Env} {psContext : Context} {s s' : Session}

/--
Where the `i`-th pass of the dump reads, if there is one.
-/
def position (psContext : Context) (i : Nat) : UInt32 :=
  psContext.u32EepromOffset + UInt32.ofNat (64 * i)

theorem position_toNat (psContext : Context) (i : Nat)
    : (position psContext i).toNat = (psContext.u32EepromOffset.toNat + 64 * i) % 2 ^ 32 := by
  rw [position, UInt32.toNat_add, UInt32.toNat_ofNat', Nat.add_mod_mod]

theorem position_succ (psContext : Context) (i : Nat)
    : position psContext (i + 1) = position psContext i + 64 := by
  unfold position
  rw [Nat.mul_succ, UInt32.ofNat_add, UInt32.add_assoc]
  rfl

/--
The positions never go round: they would all be inside then, for ever.
-/
theorem position_small {i : Nat}
    (hbefore : ∀ j < i, position psContext j < psContext.u32EepromSize)
    (hend : ¬position psContext i < psContext.u32EepromSize)
    : psContext.u32EepromOffset.toNat + 64 * i < 2 ^ 32 := by
  have hoffset := psContext.u32EepromOffset.toNat_lt
  simp only [UInt32.lt_iff_toNat_lt, position_toNat] at hbefore hend
  by_contra hlarge
  by_cases hround : i < 2 ^ 26
  . have hfirst := hbefore 0 (by omega)
    omega
  . have hsame := hbefore (i - 2 ^ 26) (by omega)
    omega

/--
`u8ChunkSize` of a pass from `n`, as long as it has been 64 before.
-/
def dumpChunk (psContext : Context) (n : UInt32) : UInt8 :=
  if n + 64 > psContext.u32EepromSize then (psContext.u32EepromSize - n).toUInt8 else 64

theorem dumpChunk_toNat {n : UInt32} (hn : n < psContext.u32EepromSize) (hsmall : n.toNat + 64 < 2 ^ 32)
    : (dumpChunk psContext n).toNat = min 64 (psContext.u32EepromSize.toNat - n.toNat) := by
  have hsub := UInt32.toNat_sub_of_le psContext.u32EepromSize n (UInt32.le_of_lt hn)
  have hadd : (n + 64).toNat = n.toNat + 64 := by
    rw [UInt32.toNat_add]
    exact Nat.mod_eq_of_lt hsmall
  unfold dumpChunk
  split
  . next hgt =>
    rw [gt_iff_lt, UInt32.lt_iff_toNat_lt, hadd] at hgt
    rw [UInt32.toNat_toUInt8, hsub]
    omega
  . next hle =>
    rw [gt_iff_lt, UInt32.lt_iff_toNat_lt, hadd] at hle
    show 64 = _
    omega

/--
A position from which a chunk is cut has room for a complete one in 32 bits.
-/
theorem small_of_cut {n : UInt32} (hn : n < psContext.u32EepromSize)
    (hgt : n + 64 > psContext.u32EepromSize) : n.toNat + 64 < 2 ^ 32 := by
  have hsize := psContext.u32EepromSize.toNat_lt
  have hlt := UInt32.lt_iff_toNat_lt.mp hn
  have h64 : (64 : UInt32).toNat = 64 := rfl
  rw [gt_iff_lt, UInt32.lt_iff_toNat_lt, UInt32.toNat_add] at hgt
  omega

theorem dumpChunk_small {n : UInt32} (hn : n < psContext.u32EepromSize)
    : ¬dumpChunk psContext n > 0xfc := by
  by_cases hgt : n + 64 > psContext.u32EepromSize
  . rw [gt_iff_lt, UInt8.lt_iff_toNat_lt, dumpChunk_toNat hn (small_of_cut hn hgt)]
    show ¬252 < _
    omega
  . have h64 : dumpChunk psContext n = 64 := if_neg hgt
    rw [h64]
    decide

/--
A chunk is complete, or it goes to the end of the EEPROM.
-/
theorem dumpChunk_cases {n : UInt32} (hn : n < psContext.u32EepromSize)
    : dumpChunk psContext n = 64
      ∨ (n + (dumpChunk psContext n).toUInt32 = psContext.u32EepromSize
        ∧ ¬n + 64 < psContext.u32EepromSize) := by
  by_cases hgt : n + 64 > psContext.u32EepromSize
  . right
    have hsize := psContext.u32EepromSize.toNat_lt
    have hlt := UInt32.lt_iff_toNat_lt.mp hn
    have hsmall := small_of_cut hn hgt
    have hchunk := dumpChunk_toNat hn hsmall
    have hadd : (n + 64).toNat = n.toNat + 64 := by
      rw [UInt32.toNat_add]
      exact Nat.mod_eq_of_lt hsmall
    rw [gt_iff_lt, UInt32.lt_iff_toNat_lt, hadd] at hgt
    constructor
    . apply UInt32.toNat_inj.mp
      rw [UInt32.toNat_add, UInt8.toNat_toUInt32, hchunk]
      omega
    . rw [UInt32.lt_iff_toNat_lt, hadd]
      omega
  . left
    exact if_neg hgt

theorem returns_dumpPass {n : UInt32} (hn : n < psContext.u32EepromSize)
    {r : Option (UInt32 × UInt8)}
    : Returns (dumpPass env psContext (n, 64)) s r s'
      ↔ ¬dumpChunk psContext n > 0xfc ∧ env.eepromRead s.eepromReads = .ok
        ∧ (∃ count, env.write s.writes = some count
          ∧ (∀ cbProgress ∈ env.cbProgress, cbProgress s.progress = .ok)
          ∧ s' = Session.afterProgress env
            { s with
              eepromReads := s.eepromReads + 1
              writes := s.writes + 1
              file := s.file
                ++ (bytesAt s.eeprom n (dumpChunk psContext n).toNat).take count })
        ∧ r = some (n + (dumpChunk psContext n).toUInt32, dumpChunk psContext n) := by
  unfold dumpPass
  have hchunk : (if n + UInt8.toUInt32 64 > psContext.u32EepromSize then
      (psContext.u32EepromSize - n).toUInt8 else 64) = dumpChunk psContext n := rfl
  simp only [hchunk, if_pos hn, returns_bind, returns_eepromRead, returns_writeFile,
    returns_reportProgress, returns_pure]
  constructor
  . rintro ⟨bytes, t, ⟨hlength, hread, rfl, rfl⟩, _, t', ⟨count, hwrite, rfl⟩, _, t'',
      ⟨hprogress, rfl⟩, rfl, rfl⟩
    exact ⟨hlength, hread, ⟨count, hwrite, hprogress, rfl⟩, rfl⟩
  . rintro ⟨hlength, hread, ⟨count, hwrite, hprogress, rfl⟩, rfl⟩
    exact ⟨_, _, ⟨hlength, hread, rfl, rfl⟩, (), _, ⟨count, hwrite, rfl⟩, (), _, ⟨hprogress, rfl⟩,
      rfl, rfl⟩

theorem returns_dumpPass_end {b : UInt32 × UInt8} (hn : ¬b.1 < psContext.u32EepromSize)
    {r : Option (UInt32 × UInt8)}
    : Returns (dumpPass env psContext b) s r s' ↔ r = none ∧ s' = s := by
  obtain ⟨n, u8ChunkSize⟩ := b
  unfold dumpPass
  simp only [if_neg hn, returns_pure]

/--
A pass that is reached: those before it have been inside, and it is at its position or at the end.
-/
structure AtDumpPass (env : Env) (psContext : Context) (s : Session) (i : Nat) (b : UInt32 × UInt8)
    (t : Session) : Prop where
  before : ∀ j < i, position psContext j < psContext.u32EepromSize
  start : b = (position psContext i, 64)
    ∨ (¬b.1 < psContext.u32EepromSize ∧ ¬position psContext i < psContext.u32EepromSize)
  eeprom : t.eeprom = s.eeprom
  eepromReads : t.eepromReads = s.eepromReads + i
  writes : t.writes = s.writes + i
  progress : t.progress = s.progress + i * env.cbProgress.toList.length

theorem AtDumpPass.eq {i : Nat} {b : UInt32 × UInt8} {t : Session}
    (h : AtDumpPass env psContext s i b t) (hn : b.1 < psContext.u32EepromSize)
    : b = (position psContext i, 64) := by
  rcases h.start with hb | hend
  . exact hb
  . exact absurd hn hend.1

theorem AtDumpPass.not_position {i : Nat} {b : UInt32 × UInt8} {t : Session}
    (h : AtDumpPass env psContext s i b t) (hn : ¬b.1 < psContext.u32EepromSize)
    : ¬position psContext i < psContext.u32EepromSize := by
  rcases h.start with rfl | hend
  . exact hn
  . exact hend.2

theorem AtDumpPass.next {i : Nat} {b b' : UInt32 × UInt8} {t t' : Session}
    (h : AtDumpPass env psContext s i b t) (hpass : Returns (dumpPass env psContext b) t (some b') t')
    : AtDumpPass env psContext s (i + 1) b' t' := by
  by_cases hn : b.1 < psContext.u32EepromSize
  . obtain rfl := h.eq hn
    obtain ⟨-, -, ⟨count, -, -, rfl⟩, hb⟩ := (returns_dumpPass hn).mp hpass
    obtain rfl := Option.some.inj hb
    constructor
    . intro j hj
      by_cases heq : j = i
      . rw [heq]
        exact hn
      . exact h.before j (by omega)
    . rw [position_succ]
      rcases dumpChunk_cases hn with h64 | ⟨hnext, hend⟩
      . left
        rw [h64]
        rfl
      . right
        rw [hnext]
        exact ⟨UInt32.lt_irrefl _, hend⟩
    . exact h.eeprom
    . exact congrArg (· + 1) h.eepromReads
    . exact congrArg (· + 1) h.writes
    . rw [Nat.succ_mul, ← Nat.add_assoc, ← h.progress]
      rfl
  . obtain ⟨hb, -⟩ := (returns_dumpPass_end hn).mp hpass
    cases hb

theorem atDumpPass_first (env : Env) (psContext : Context) (s : Session)
    : AtDumpPass env psContext s 0 (psContext.u32EepromOffset, 64) s where
  before j hj := absurd hj (Nat.not_lt_zero j)
  start := by
    left
    unfold position
    rw [Nat.mul_zero]
    exact congrArg (·, (64 : UInt8)) (UInt32.add_zero _).symm
  eeprom := rfl
  eepromReads := rfl
  writes := rfl
  progress := by rw [Nat.zero_mul, Nat.add_zero]

theorem atDumpPass_of_reaches {i : Nat} {b : UInt32 × UInt8} {t : Session}
    (h : Reaches (dumpPass env psContext) i (psContext.u32EepromOffset, 64) s b t)
    : AtDumpPass env psContext s i b t := by
  induction i generalizing b t with
  | zero =>
    obtain ⟨rfl, rfl⟩ := reaches_zero.mp h
    exact atDumpPass_first env psContext t
  | succ i ih =>
    obtain ⟨b₁, t₁, hreaches, hpass⟩ := reaches_snoc.mp h
    exact (ih hreaches).next hpass

/--
None of the first `i` writes to the file is short.
-/
def WritesAll (env : Env) (psContext : Context) (s : Session) (i : Nat) : Prop :=
  ∀ j < i, ∃ count, env.write (s.writes + j) = some count
    ∧ min 64 (psContext.u32EepromSize.toNat - (psContext.u32EepromOffset.toNat + 64 * j)) ≤ count

/--
Every write of a chunk to the file is complete.
-/
def DumpWritesAll (env : Env) (psContext : Context) (s : Session) : Prop :=
  ∀ i, psContext.u32EepromOffset.toNat + 64 * i < psContext.u32EepromSize.toNat →
    ∃ count, env.write (s.writes + i) = some count
      ∧ min 64 (psContext.u32EepromSize.toNat - (psContext.u32EepromOffset.toNat + 64 * i)) ≤ count

/--
The bytes from the offset to the end.
-/
def Context.range (psContext : Context) : Nat :=
  psContext.u32EepromSize.toNat - psContext.u32EepromOffset.toNat

/--
How many bytes the first `i` passes read.
-/
def dumped (psContext : Context) (i : Nat) : Nat :=
  min (64 * i) (psContext.u32EepromSize.toNat - psContext.u32EepromOffset.toNat)

theorem file_of_reaches {i m : Nat} {b : UInt32 × UInt8} {t : Session}
    (hbefore : ∀ j < i, position psContext j < psContext.u32EepromSize)
    (hsmall : psContext.u32EepromOffset.toNat + 64 * i < 2 ^ 32) (hm : m ≤ i)
    (h : Reaches (dumpPass env psContext) m (psContext.u32EepromOffset, 64) s b t)
    : (WritesAll env psContext s m
        ∧ t.file = s.file ++ bytesAt s.eeprom psContext.u32EepromOffset (dumped psContext m))
      ∨ (¬WritesAll env psContext s m
        ∧ t.file.length < s.file.length + dumped psContext m) := by
  induction m generalizing b t with
  | zero =>
    obtain ⟨rfl, rfl⟩ := reaches_zero.mp h
    left
    refine ⟨fun j hj => absurd hj (Nat.not_lt_zero j), ?_⟩
    unfold dumped
    rw [Nat.mul_zero, Nat.zero_min]
    exact (List.append_nil _).symm
  | succ m ih =>
    obtain ⟨b₁, t₁, hreaches, hpass⟩ := reaches_snoc.mp h
    have hat := atDumpPass_of_reaches hreaches
    have hposition := hbefore m (by omega)
    have hn : b₁.1 < psContext.u32EepromSize := by
      by_contra hend
      exact hat.not_position hend hposition
    obtain rfl := hat.eq hn
    obtain ⟨-, -, ⟨count, hwrite, -, rfl⟩, -⟩ := (returns_dumpPass hposition).mp hpass
    have hnat : (position psContext m).toNat = psContext.u32EepromOffset.toNat + 64 * m := by
      rw [position_toNat, Nat.mod_eq_of_lt (by omega)]
    have hchunk := dumpChunk_toNat hposition (by omega)
    have hlt := UInt32.lt_iff_toNat_lt.mp hposition
    rw [hnat] at hchunk hlt
    have hsum : dumped psContext (m + 1)
        = dumped psContext m + (dumpChunk psContext (position psContext m)).toNat := by
      unfold dumped
      omega
    have hdumped : dumped psContext m = 64 * m := by
      unfold dumped
      omega
    have hall : WritesAll env psContext s (m + 1)
        ↔ WritesAll env psContext s m
          ∧ (dumpChunk psContext (position psContext m)).toNat ≤ count := by
      constructor
      . intro hall
        refine ⟨fun j hj => hall j (by omega), ?_⟩
        obtain ⟨count', hwrite', hle⟩ := hall m (Nat.lt_succ_self m)
        rw [← hat.writes, hwrite] at hwrite'
        obtain rfl := Option.some.inj hwrite'
        rw [hchunk]
        exact hle
      . rintro ⟨hall, hle⟩ j hj
        by_cases heq : j = m
        . rw [heq, ← hat.writes]
          exact ⟨count, hwrite, by omega⟩
        . exact hall j (by omega)
    have hlength : (bytesAt t₁.eeprom (position psContext m)
        (dumpChunk psContext (position psContext m)).toNat).length
          = (dumpChunk psContext (position psContext m)).toNat := bytesAt_length _ _ _
    show (_ ∧ t₁.file ++ _ = _) ∨ (_ ∧ (t₁.file ++ _).length < _)
    rw [hall, hsum, List.length_append, List.length_take, hlength]
    rcases ih (by omega) hreaches with ⟨hwrites, hfile⟩ | ⟨hshort, hfile⟩
    . by_cases hle : (dumpChunk psContext (position psContext m)).toNat ≤ count
      . left
        refine ⟨⟨hwrites, hle⟩, ?_⟩
        rw [List.take_of_length_le (by omega), hfile, hat.eeprom, bytesAt_append, hdumped,
          List.append_assoc]
        rfl
      . right
        refine ⟨fun h => hle h.2, ?_⟩
        rw [hfile, List.length_append, bytesAt_length]
        omega
    . right
      refine ⟨fun h => hshort h.1, ?_⟩
      omega

/--
A dump that has succeeded: the file has the whole range, or it is too short.
-/
theorem file_of_dumpAccess {passes : Nat} {u : Unit}
    (h : Returns (dumpAccess env psContext passes) s u s')
    : (DumpWritesAll env psContext s
        ∧ s'.file = s.file ++ bytesAt s.eeprom psContext.u32EepromOffset (psContext.range))
      ∨ (¬DumpWritesAll env psContext s ∧ s'.file.length < s.file.length + psContext.range) := by
  unfold dumpAccess at h
  simp only [returns_bind, returns_reportProgress] at h
  obtain ⟨_, t, hloop, -, rfl⟩ := h
  obtain ⟨i, -, b, t', hreaches, hlast⟩ := returns_loop_iff.mp hloop
  have hat := atDumpPass_of_reaches hreaches
  have hn : ¬b.1 < psContext.u32EepromSize := by
    intro hn
    obtain rfl := hat.eq hn
    obtain ⟨-, -, -, hb⟩ := (returns_dumpPass hn).mp hlast
    cases hb
  obtain ⟨-, rfl⟩ := (returns_dumpPass_end hn).mp hlast
  have hend := hat.not_position hn
  have hsmall := position_small hat.before hend
  have hnat : ∀ j ≤ i, (position psContext j).toNat = psContext.u32EepromOffset.toNat + 64 * j := by
    intro j hj
    rw [position_toNat, Nat.mod_eq_of_lt (by omega)]
  rw [UInt32.lt_iff_toNat_lt, hnat i (Nat.le_refl i)] at hend
  have hall : DumpWritesAll env psContext s ↔ WritesAll env psContext s i := by
    constructor
    . intro hall j hj
      have hbefore := hat.before j hj
      rw [UInt32.lt_iff_toNat_lt, hnat j (Nat.le_of_lt hj)] at hbefore
      exact hall j hbefore
    . intro hall j hj
      exact hall j (by omega)
  have hrange : dumped psContext i = psContext.range := by
    unfold dumped Context.range
    omega
  have hfile := file_of_reaches hat.before hsmall (Nat.le_refl i) hreaches
  rw [hall, ← hrange]
  exact hfile

end Dump

section Program

variable {env : Env} {psContext : Context} {s s' : Session}

/--
What is left of a file after the first `i` calls of `read`.
-/
def unread (read : Nat → Option Nat) (file : List UInt8) : Nat → List UInt8
  | 0 => file
  | i + 1 =>
    match read i with
    | some count =>
      (unread read file i).drop (readBuffer count (unread read file i)).length
    | none => unread read file i

/--
No call of `read` fails before the end of the file.
-/
def ReadsAll (env : Env) (s : Session) : Prop :=
  ∀ i, unread (fun j => env.read (s.reads + j)) s.file i ≠ [] → env.read (s.reads + i) ≠ none

theorem readBuffer_length (count : Nat) (rest : List UInt8)
    : (readBuffer count rest).length = min (min 128 (count + 1)) rest.length := List.length_take

theorem readBuffer_eq_take (count : Nat) (rest : List UInt8)
    : readBuffer count rest = rest.take (readBuffer count rest).length := by
  rw [readBuffer_length, readBuffer, List.take_eq_take_iff]
  omega

theorem readBuffer_chunk (count : Nat) (rest : List UInt8)
    : (UInt8.ofNat (readBuffer count rest).length).toNat = (readBuffer count rest).length := by
  have hlength := readBuffer_length count rest
  rw [UInt8.toNat_ofNat', Nat.mod_eq_of_lt]
  omega

theorem readBuffer_chunk_zero {count : Nat} {rest : List UInt8}
    : UInt8.ofNat (readBuffer count rest).length = 0 ↔ rest = [] := by
  rw [← UInt8.toNat_inj, readBuffer_chunk, readBuffer_length]
  show _ = 0 ↔ _
  rw [← List.length_eq_zero_iff]
  omega

/--
What `read` gives in the next pass.
-/
def nextBuffer (env : Env) (t : Session) (rest : List UInt8) : Option (List UInt8) :=
  (env.read t.reads).map (readBuffer · rest)

@[simp]
theorem returns_readFile {rest : List UInt8} {r : Option (List UInt8)}
    : Returns (readFile env rest) s r s'
      ↔ r = nextBuffer env s rest ∧ s' = { s with reads := s.reads + 1 } := by
  unfold readFile
  simp only [returns_get_bind, returns_set_bind, returns_pure]
  exact Iff.rfl

/--
The next pass gives bytes to the device. They end in the EEPROM.
-/
structure Loads (env : Env) (psContext : Context) (t : Session) (b : UInt32 × List UInt8)
    (buffer : List UInt8) : Prop where
  read : nextBuffer env t b.2 = some buffer
  nonempty : b.2 ≠ []
  fits : b.1 + (UInt8.ofNat buffer.length).toUInt32 ≤ psContext.u32EepromSize

theorem returns_programPass {b : UInt32 × List UInt8} {r : Option (UInt32 × List UInt8)}
    {buffer : List UInt8} (h : Loads env psContext s b buffer)
    : Returns (programPass env psContext b) s r s'
      ↔ env.eepromWrite s.eepromWrites.length = .ok
        ∧ (∀ cbProgress ∈ env.cbProgress, cbProgress s.progress = .ok)
        ∧ s' = Session.afterProgress env
          { s with
            reads := s.reads + 1
            eepromWrites := s.eepromWrites ++ [⟨psContext.u32EepromOffset + b.1, buffer⟩]
            eeprom := store s.eeprom (psContext.u32EepromOffset + b.1) buffer }
        ∧ r = some (b.1 + (UInt8.ofNat buffer.length).toUInt32, b.2.drop buffer.length) := by
  obtain ⟨n, rest⟩ := b
  obtain ⟨hbuffer, hrest, hfits⟩ := h
  obtain ⟨count, -, rfl⟩ := Option.map_eq_some_iff.mp hbuffer
  have hlength := readBuffer_length count rest
  have hchunk := readBuffer_chunk count rest
  have hsmall : ¬UInt8.ofNat (readBuffer count rest).length > 0xfc := by
    rw [gt_iff_lt, UInt8.lt_iff_toNat_lt, hchunk]
    show ¬252 < _
    omega
  have hgoes : ¬(UInt8.ofNat (readBuffer count rest).length = 0
      ∨ n + (UInt8.ofNat (readBuffer count rest).length).toUInt32 > psContext.u32EepromSize) := by
    rw [readBuffer_chunk_zero]
    rintro (hnil | hgt)
    . exact hrest hnil
    . exact UInt32.not_lt.mpr hfits hgt
  unfold programPass programChunk
  simp only [returns_bind, returns_readFile]
  constructor
  . rintro ⟨_, _, ⟨rfl, rfl⟩, h⟩
    simp only [hbuffer, chunkOf, hgoes, if_false, returns_bind, returns_eepromWrite,
      returns_reportProgress, returns_pure, Option.getD_some, hchunk, List.take_length] at h
    obtain ⟨_, _, ⟨-, hwrite, rfl⟩, _, _, ⟨hprogress, rfl⟩, rfl, rfl⟩ := h
    exact ⟨hwrite, hprogress, rfl, rfl⟩
  . rintro ⟨hwrite, hprogress, rfl, rfl⟩
    refine ⟨_, _, ⟨rfl, rfl⟩, ?_⟩
    simp only [hbuffer, chunkOf, hgoes, if_false, returns_bind, returns_eepromWrite,
      returns_reportProgress, returns_pure, Option.getD_some, hchunk, List.take_length]
    exact ⟨(), _, ⟨hsmall, hwrite, rfl⟩, (), _, ⟨hprogress, rfl⟩, trivial, rfl⟩

theorem loads_of_returns {b b' : UInt32 × List UInt8}
    (h : Returns (programPass env psContext b) s (some b') s')
    : ∃ buffer, Loads env psContext s b buffer := by
  obtain ⟨n, rest⟩ := b
  unfold programPass programChunk at h
  simp only [returns_bind, returns_readFile, returns_pure, returns_ite, returns_eepromWrite] at h
  obtain ⟨_, _, ⟨rfl, rfl⟩, ⟨-, hnone, -⟩ | ⟨hgoes, -, t, ⟨hsmall, -⟩, -⟩⟩ := h
  . cases hnone
  . cases hread : env.read s.reads with
    | some count =>
      have hbuffer : nextBuffer env s rest = some (readBuffer count rest) := by
        rw [nextBuffer, hread]
        rfl
      rw [hbuffer] at hgoes
      refine ⟨readBuffer count rest, hbuffer, ?_, ?_⟩
      . exact fun hnil => hgoes (.inl (readBuffer_chunk_zero.mpr hnil))
      . exact UInt32.not_lt.mp fun hgt => hgoes (.inr hgt)
    | none =>
      rw [nextBuffer, hread] at hsmall
      exact absurd (show (255 : UInt8) > 0xfc by decide) hsmall

/--
The loop ends without a change.
-/
theorem returns_programPass_none {b : UInt32 × List UInt8}
    (h : Returns (programPass env psContext b) s none s')
    : s' = { s with reads := s.reads + 1 } ∧ ∀ buffer, ¬Loads env psContext s b buffer := by
  constructor
  . obtain ⟨n, rest⟩ := b
    unfold programPass programChunk at h
    simp only [returns_bind, returns_readFile, returns_pure, returns_ite] at h
    obtain ⟨_, _, ⟨rfl, rfl⟩, ⟨-, -, rfl⟩ | ⟨-, -, -, -, -, -, -, hsome, -⟩⟩ := h
    . rfl
    . cases hsome
  . intro buffer hloads
    obtain ⟨-, -, -, hsome⟩ := (returns_programPass hloads).mp h
    cases hsome

/--
A pass that is reached: what has been written is what is before the rest of the file.
-/
structure AtProgramPass (env : Env) (psContext : Context) (s : Session) (i : Nat)
    (b : UInt32 × List UInt8) (t : Session) : Prop where
  reads : t.reads = s.reads + i
  unread : b.2 = unread (fun j => env.read (s.reads + j)) s.file i
  succeeded : ∀ j < i, env.read (s.reads + j) ≠ none
  suffix : b.2 = s.file.drop b.1.toNat
  le : b.1.toNat ≤ s.file.length
  written : ∃ requests, t.eepromWrites = s.eepromWrites ++ requests
    ∧ Tiles 128 psContext.u32EepromOffset.toNat (s.file.take b.1.toNat)
      (requests.map FlashWrite.placed)
  stored : ∀ k < b.1.toNat,
    s.file[k]? = some (t.eeprom (psContext.u32EepromOffset + UInt32.ofNat k))

/--
What is stored at an address, by its distance from the first one.
-/
theorem store_at (eeprom : UInt32 → UInt8) (data : List UInt8) {address n : UInt32} {k : Nat}
    (hk : k < 2 ^ 32) (hfits : n.toNat + data.length < 2 ^ 32)
    : store eeprom (address + n) data (address + UInt32.ofNat k)
      = if n.toNat ≤ k then data[k - n.toNat]?.getD (eeprom (address + UInt32.ofNat k))
        else eeprom (address + UInt32.ofNat k) := by
  have hn := n.toNat_lt
  have haddress := address.toNat_lt
  have hdistance : (address + UInt32.ofNat k - (address + n)).toNat
      = (2 ^ 32 - n.toNat + k) % 2 ^ 32 := by
    rw [UInt32.toNat_sub, UInt32.toNat_add, UInt32.toNat_add, UInt32.toNat_ofNat',
      Nat.mod_eq_of_lt hk]
    omega
  unfold store
  rw [hdistance]
  split
  . next hle =>
    have heq : (2 ^ 32 - n.toNat + k) % 2 ^ 32 = k - n.toNat := by omega
    rw [heq]
  . next hlt =>
    rw [List.getElem?_eq_none (by omega), Option.getD_none]

theorem AtProgramPass.next {i : Nat} {b b' : UInt32 × List UInt8} {t t' : Session}
    (hsize : psContext.u32EepromOffset.toNat + s.file.length ≤ psContext.u32EepromSize.toNat)
    (h : AtProgramPass env psContext s i b t)
    (hpass : Returns (programPass env psContext b) t (some b') t')
    : AtProgramPass env psContext s (i + 1) b' t' := by
  obtain ⟨buffer, hloads⟩ := loads_of_returns hpass
  obtain ⟨-, -, rfl, hb⟩ := (returns_programPass hloads).mp hpass
  obtain rfl := Option.some.inj hb
  obtain ⟨n, rest⟩ := b
  obtain ⟨hread, hrest, -⟩ := hloads
  obtain ⟨count, hcount, rfl⟩ := Option.map_eq_some_iff.mp hread
  have hlimit := psContext.u32EepromSize.toNat_lt
  have hsuffix : rest = s.file.drop n.toNat := h.suffix
  have hle : n.toNat ≤ s.file.length := h.le
  have hbuffer := readBuffer_length count rest
  have hpos : 0 < rest.length := List.length_pos_iff.mpr hrest
  have hrestlen : rest.length = s.file.length - n.toNat := by rw [hsuffix, List.length_drop]
  have hnext : (n + (UInt8.ofNat (readBuffer count rest).length).toUInt32).toNat
      = n.toNat + (readBuffer count rest).length := by
    rw [UInt32.toNat_add, UInt8.toNat_toUInt32, readBuffer_chunk, Nat.mod_eq_of_lt]
    omega
  have htake : s.file.take (n.toNat + (readBuffer count rest).length)
      = s.file.take n.toNat ++ readBuffer count rest := by
    rw [List.take_add, ← hsuffix, ← readBuffer_eq_take]
  have htakelen : (s.file.take n.toNat).length = n.toNat := List.length_take_of_le hle
  have haddress : (psContext.u32EepromOffset + n).toNat
      = psContext.u32EepromOffset.toNat + n.toNat := by
    rw [UInt32.toNat_add, Nat.mod_eq_of_lt]
    omega
  have hread' : env.read (s.reads + i) = some count := by
    rw [← h.reads, hcount]
  constructor
  . exact congrArg (· + 1) h.reads
  . show rest.drop _ = Eeprom.unread _ _ (i + 1)
    rw [Eeprom.unread, ← h.unread]
    simp only [hread']
  . intro j hj
    by_cases heq : j = i
    . rw [heq, hread']
      simp
    . exact h.succeeded j (by omega)
  . show rest.drop _ = s.file.drop (n + _).toNat
    rw [hnext, ← List.drop_drop, ← hsuffix]
  . show (n + _).toNat ≤ _
    rw [hnext]
    omega
  . obtain ⟨requests, hwrites, htiles⟩ := h.written
    refine ⟨requests ++ [⟨psContext.u32EepromOffset + n, readBuffer count rest⟩], ?_, ?_⟩
    . show t.eepromWrites ++ _ = _
      rw [hwrites, List.append_assoc]
    . have hmore := htiles.snoc (show 1 ≤ (readBuffer count rest).length by omega) (by omega)
      show Tiles 128 _ (s.file.take (n + _).toNat) _
      rw [hnext, htake, List.map_append, List.map_singleton, FlashWrite.placed, haddress]
      rw [htakelen] at hmore
      exact hmore
  . intro k hk
    have hk' : k < n.toNat + (readBuffer count rest).length := by
      rw [← hnext]
      exact hk
    show _ = some (store t.eeprom (psContext.u32EepromOffset + n) (readBuffer count rest)
      (psContext.u32EepromOffset + UInt32.ofNat k))
    rw [store_at _ _ (by omega) (by omega)]
    split
    . next hge =>
      have hin : k - n.toNat < (readBuffer count rest).length := by omega
      rw [List.getElem?_eq_getElem hin, Option.getD_some, ← List.getElem?_eq_getElem hin,
        readBuffer_eq_take, List.getElem?_take_of_lt hin, hsuffix, List.getElem?_drop,
        Nat.add_sub_cancel' hge]
    . next hlt => exact h.stored k (Nat.lt_of_not_le hlt)

theorem atProgramPass_first (env : Env) (psContext : Context) (s : Session)
    : AtProgramPass env psContext s 0 (0, s.file) s where
  reads := rfl
  unread := rfl
  succeeded j hj := absurd hj (Nat.not_lt_zero j)
  suffix := rfl
  le := Nat.zero_le _
  written := ⟨[], (List.append_nil _).symm, .nil⟩
  stored k hk := absurd hk (Nat.not_lt_zero k)

theorem atProgramPass_of_reaches {i : Nat} {b : UInt32 × List UInt8} {t : Session}
    (hsize : psContext.u32EepromOffset.toNat + s.file.length ≤ psContext.u32EepromSize.toNat)
    (h : Reaches (programPass env psContext) i (0, s.file) s b t)
    : AtProgramPass env psContext s i b t := by
  induction i generalizing b t with
  | zero =>
    obtain ⟨rfl, rfl⟩ := reaches_zero.mp h
    exact atProgramPass_first env psContext t
  | succ i ih =>
    obtain ⟨b₁, t₁, hreaches, hpass⟩ := reaches_snoc.mp h
    exact (ih hreaches).next hsize hpass

theorem unread_nil {read : Nat → Option Nat} {file : List UInt8} {i j : Nat} (hij : i ≤ j)
    (h : unread read file i = [])
    : unread read file j = [] := by
  induction hij with
  | refl => exact h
  | step _ ih =>
    rw [unread]
    split
    . rw [ih, List.drop_nil]
    . exact ih

/--
A file that has been loaded: a part of it from the start is in the EEPROM now. This is all of it if
no read fails.
-/
theorem loaded_of_programAccess {passes : Nat} {u : Unit}
    (hsize : psContext.u32EepromOffset.toNat + s.file.length ≤ psContext.u32EepromSize.toNat)
    (h : Returns (programAccess env psContext passes) s u s')
    : ∃ m ≤ s.file.length, (m = s.file.length ↔ ReadsAll env s)
        ∧ (∃ requests, s'.eepromWrites = s.eepromWrites ++ requests
          ∧ Tiles 128 psContext.u32EepromOffset.toNat (s.file.take m)
            (requests.map FlashWrite.placed))
        ∧ ∀ k < m, s.file[k]? = some (s'.eeprom (psContext.u32EepromOffset + UInt32.ofNat k)) := by
  unfold programAccess at h
  simp only [↓returns_get_bind, returns_bind, returns_reportProgress] at h
  obtain ⟨_, t', hloop, -, rfl⟩ := h
  obtain ⟨i, -, b, t'', hreaches, hlast⟩ := returns_loop_iff.mp hloop
  have hat := atProgramPass_of_reaches hsize hreaches
  obtain ⟨rfl, hnot⟩ := returns_programPass_none hlast
  refine ⟨b.1.toNat, hat.le, ?_, hat.written, hat.stored⟩
  have hrest : b.1.toNat = s.file.length ↔ b.2 = [] := by
    rw [hat.suffix, List.drop_eq_nil_iff]
    have hle := hat.le
    omega
  rw [hrest]
  constructor
  . intro hnil j hj
    apply hat.succeeded j
    apply Nat.lt_of_not_le
    intro hij
    rw [hat.unread] at hnil
    exact hj (unread_nil hij hnil)
  . intro hall
    by_contra hne
    have hread := hall i (by rw [← hat.unread]; exact hne)
    rw [← hat.reads] at hread
    obtain ⟨count, hcount⟩ := Option.ne_none_iff_exists'.mp hread
    have hlength := readBuffer_length count b.2
    have hrestlen : b.2.length = s.file.length - b.1.toNat := by rw [hat.suffix, List.length_drop]
    apply hnot (readBuffer count b.2)
    refine ⟨by rw [nextBuffer, hcount]; rfl, hne, ?_⟩
    have hle := hat.le
    have hlimit := psContext.u32EepromSize.toNat_lt
    rw [UInt32.le_iff_toNat_le, UInt32.toNat_add, UInt8.toNat_toUInt32, readBuffer_chunk,
      Nat.mod_eq_of_lt (by omega)]
    omega

end Program

/--
The EEPROM has the bytes again that have been dumped from the offset on, and the write requests go
through this range.
-/
structure Restored (psContext : Context) (eeprom : UInt32 → UInt8) (t t' : Session) : Prop where
  values : ∀ k < psContext.range, t'.eeprom (psContext.u32EepromOffset + UInt32.ofNat k)
    = eeprom (psContext.u32EepromOffset + UInt32.ofNat k)
  requests : ∃ requests values, t'.eepromWrites = t.eepromWrites ++ requests
    ∧ values.length = psContext.range
    ∧ Tiles 128 psContext.u32EepromOffset.toNat values (requests.map FlashWrite.placed)

section Restore

variable {env env' : Env} {psContext : Context} {s s' t t' : Session}

theorem file_of_dump {pcDumpFile : String} {passes : Nat} {u : Unit}
    (h : Returns (ePRG_EepromDump env psContext pcDumpFile passes) s u s')
    : (DumpWritesAll env psContext s
        ∧ s'.file = bytesAt s.eeprom psContext.u32EepromOffset psContext.range)
      ∨ (¬DumpWritesAll env psContext s ∧ s'.file.length < psContext.range) := by
  unfold ePRG_EepromDump checkPresent openDumpFile eepromAccess at h
  simp only [returns_bind, returns_ite, returns_pure, returns_modify, not_returns_setStatus,
    false_and, and_false, exists_false, false_or] at h
  obtain ⟨-, _, ⟨-, -, rfl⟩, -, _, ⟨-, rfl⟩, haccess⟩ := h
  obtain ⟨loads, returns, t, hdump, rfl⟩ := returns_withExtension haccess
  have hfile := file_of_dumpAccess hdump
  simp only [List.nil_append, List.length_nil, Nat.zero_add] at hfile
  exact hfile

theorem loaded_of_program {pcLoadFile : String} {passes : Nat} {u : Unit}
    (hrange : s.file.length ≤ psContext.range)
    (h : Returns (ePRG_EepromProgram env psContext pcLoadFile passes) s u s')
    : ∃ m ≤ s.file.length, (m = s.file.length ↔ ReadsAll env s)
        ∧ (∃ requests, s'.eepromWrites = s.eepromWrites ++ requests
          ∧ Tiles 128 psContext.u32EepromOffset.toNat (s.file.take m)
            (requests.map FlashWrite.placed))
        ∧ ∀ k < m, s.file[k]? = some (s'.eeprom (psContext.u32EepromOffset + UInt32.ofNat k)) := by
  unfold ePRG_EepromProgram checkPresent openLoadFile checkFileSize eepromAccess at h
  simp only [↓returns_get_bind, returns_bind, returns_ite, returns_pure, not_returns_setStatus,
    false_and, and_false, exists_false, false_or] at h
  obtain ⟨-, _, ⟨-, -, rfl⟩, -, _, ⟨-, -, -, rfl⟩, -, s, ⟨hnonempty, -, -, rfl⟩, haccess⟩ := h
  obtain ⟨loads, returns, t, hprogram, rfl⟩ := returns_withExtension haccess
  have hpos : s.file.length ≠ 0 := by
    intro hzero
    rw [hzero] at hnonempty
    exact hnonempty rfl
  have hsize : psContext.u32EepromOffset.toNat + s.file.length ≤ psContext.u32EepromSize.toNat := by
    unfold Context.range at hrange
    omega
  have hloaded := loaded_of_programAccess (s := { s with loads }) hsize hprogram
  exact hloaded

/--
A dump and a program that have both succeeded restore the EEPROM exactly if no write to the file was
short and no read from it failed before its end.
-/
theorem restored_iff {pcDumpFile pcLoadFile : String} {passes passes' : Nat}
    (hdump : Returns (ePRG_EepromDump env psContext pcDumpFile passes) s () s')
    (hfile : t.file = s'.file)
    (hprogram : Returns (ePRG_EepromProgram env' psContext pcLoadFile passes') t () t')
    : Restored psContext s.eeprom t t' ↔ DumpWritesAll env psContext s ∧ ReadsAll env' t := by
  have hdumped := file_of_dump hdump
  rw [← hfile] at hdumped
  have hlength : t.file.length ≤ psContext.range
      ∧ (t.file.length = psContext.range ↔ DumpWritesAll env psContext s) := by
    rcases hdumped with ⟨hall, hbytes⟩ | ⟨hshort, hlt⟩
    . rw [hbytes, bytesAt_length]
      exact ⟨Nat.le_refl _, iff_of_true rfl hall⟩
    . exact ⟨Nat.le_of_lt hlt, iff_of_false (Nat.ne_of_lt hlt) hshort⟩
  obtain ⟨hrange, hcomplete⟩ := hlength
  obtain ⟨m, hm, hall, ⟨requests, hwrites, htiles⟩, hstored⟩ := loaded_of_program hrange hprogram
  rw [← hcomplete, ← hall]
  constructor
  . rintro ⟨-, requests', values, hwrites', hvalues, htiles'⟩
    have hsame : requests = requests' := List.append_cancel_left (hwrites.symm.trans hwrites')
    have htake : values.length = min m t.file.length := by
      rw [← htiles'.flatten, ← hsame, htiles.flatten, List.length_take]
    omega
  . rintro ⟨hfull, hread⟩
    have htake : t.file.take m = t.file := by rw [hread, List.take_length]
    constructor
    . intro k hk
      have hbytes : t.file = bytesAt s.eeprom psContext.u32EepromOffset psContext.range := by
        rcases hdumped with ⟨-, hbytes⟩ | ⟨-, hlt⟩
        . exact hbytes
        . exact absurd hfull (Nat.ne_of_lt hlt)
      have hbyte := hstored k (by omega)
      rw [hbytes, bytesAt, List.getElem?_map, List.getElem?_range hk, Option.map_some] at hbyte
      exact (Option.some.inj hbyte).symm
    . rw [htake] at htiles
      exact ⟨requests, t.file, hwrites, hfull, htiles⟩

end Restore

/--
A JN5168 with 192 bytes of EEPROM, from which the first 32 are left out.
-/
def smallContext : Context where
  u32ChipId := CHIP_ID_JN5168
  u32BootloaderVersion := 0
  boEEPpresent := true
  u32EepromSize := 192
  u32EepromOffset := 32
  u32FlashProgrammerExtensionLength := 1024
  u32BootloaderEntry := JN516X_BOOTLOADER_ENTRY

/--
Everything succeeds, but a call of `write` or `read` is done for 100 bytes at most.
-/
def smallEnv : Env where
  cbProgress := some fun _ => .ok
  cbConfirm := some .ok
  open' := true
  fstat := true
  write _ := some 100
  read _ := some 99
  lastError := ""
  fwGetInfo := .ok
  memoryLoadExecute := .ok
  memoryExecute _ := .ok
  setBaudRate _ := .ok
  eepromErase _ := .ok
  eepromRead _ := .ok
  eepromWrite _ := .ok
  memoryRead := .ok
  indexSector _ _ := List.replicate IP2111_INDEX_SECTOR_WORD_LENGTH 0xFF
  indexSectorWrite := .ok

def smallSession : Session where
  eeprom address := address.toUInt8

def Session.after : EStateM.Result Stop Session Unit → Session
  | .ok () s => s
  | .error _ s => s

def succeeds : EStateM.Result Stop Session Unit → Bool
  | .ok () _ => true
  | .error _ _ => false

theorem returns_after {x : Prg Unit} {s : Session} (h : succeeds (x.run s) = true)
    : Returns x s () (Session.after (x.run s)) := by
  unfold Returns
  cases hrun : x.run s with
  | ok u s' => rfl
  | error e s' =>
    rw [hrun] at h
    cases h

def dumpedSession (env : Env) : Session :=
  Session.after ((ePRG_EepromDump env smallContext "eeprom.bin" 4).run smallSession)

/--
The EEPROM has been erased in the meantime.
-/
def erasedSession (env : Env) : Session where
  eeprom _ := 0
  file := (dumpedSession env).file

def loadedSession (env env' : Env) : Session :=
  Session.after ((ePRG_EepromProgram env' smallContext "eeprom.bin" 4).run (erasedSession env))

theorem erasedSession_file (env : Env) : (erasedSession env).file = (dumpedSession env).file := rfl

theorem dumped_returns (env : Env)
    (h : succeeds ((ePRG_EepromDump env smallContext "eeprom.bin" 4).run smallSession) = true)
    : Returns (ePRG_EepromDump env smallContext "eeprom.bin" 4) smallSession () (dumpedSession env) :=
  returns_after h

theorem loaded_returns (env env' : Env)
    (h : succeeds ((ePRG_EepromProgram env' smallContext "eeprom.bin" 4).run (erasedSession env))
      = true)
    : Returns (ePRG_EepromProgram env' smallContext "eeprom.bin" 4) (erasedSession env) ()
      (loadedSession env env') :=
  returns_after h

theorem restored_iff_small
    : Restored smallContext smallSession.eeprom (erasedSession smallEnv)
          (loadedSession smallEnv smallEnv)
        ↔ DumpWritesAll smallEnv smallContext smallSession
          ∧ ReadsAll smallEnv (erasedSession smallEnv) :=
  restored_iff (dumped_returns smallEnv (by decide +kernel)) (erasedSession_file smallEnv)
    (loaded_returns smallEnv smallEnv (by decide +kernel))

/--
The second write to the file is short.
-/
def shortEnv : Env := { smallEnv with write := fun i => some (if i = 1 then 63 else 64) }

/--
The second read from the file fails.
-/
def failingEnv : Env := { smallEnv with read := fun i => if i = 1 then none else some 99 }

theorem short_and_failing_not_restored
    : (Returns (ePRG_EepromDump shortEnv smallContext "eeprom.bin" 4) smallSession ()
          (dumpedSession shortEnv)
        ∧ Returns (ePRG_EepromProgram smallEnv smallContext "eeprom.bin" 4) (erasedSession shortEnv) ()
          (loadedSession shortEnv smallEnv)
        ∧ ¬Restored smallContext smallSession.eeprom (erasedSession shortEnv)
          (loadedSession shortEnv smallEnv))
      ∧ Returns (ePRG_EepromDump smallEnv smallContext "eeprom.bin" 4) smallSession ()
          (dumpedSession smallEnv)
        ∧ Returns (ePRG_EepromProgram failingEnv smallContext "eeprom.bin" 4) (erasedSession smallEnv) ()
          (loadedSession smallEnv failingEnv)
        ∧ ¬Restored smallContext smallSession.eeprom (erasedSession smallEnv)
          (loadedSession smallEnv failingEnv) := by
  have hrange : 159 < smallContext.range := by decide
  have hshort : ¬Restored smallContext smallSession.eeprom (erasedSession shortEnv)
      (loadedSession shortEnv smallEnv) := by
    intro h
    have hvalue := h.values 159 hrange
    revert hvalue
    decide +kernel
  have hfailing : ¬Restored smallContext smallSession.eeprom (erasedSession smallEnv)
      (loadedSession smallEnv failingEnv) := by
    intro h
    have hvalue := h.values 159 hrange
    revert hvalue
    decide +kernel
  exact ⟨⟨dumped_returns shortEnv (by decide +kernel),
      loaded_returns shortEnv smallEnv (by decide +kernel), hshort⟩,
    dumped_returns smallEnv (by decide +kernel),
    loaded_returns smallEnv failingEnv (by decide +kernel), hfailing⟩

end Eeprom

end JnFlasher
