import IotGateway.JnFlasher.Lemmas.Eeprom

/-!
This module says when the device has been returned from the extension that was loaded into its RAM.
-/

namespace JnFlasher

namespace Eeprom

open Fallible

/--
Whenever the function has returned, the device has been returned from the extension as often as the
extension has been loaded.
-/
structure Balanced (x : Prg Unit) (s : Session) : Prop where
  success : ∀ s', Returns x s () s' → s'.loads + s.returns = s'.returns + s.loads
  failure : ∀ failure s', Fails x s (.returned failure) s' →
    s'.loads + s.returns = s'.returns + s.loads

/--
The invariant depends on the calls for the extension only, and every failure is one of these.
-/
structure Frame (inv : Session → Prop) (err : Stop → Prop) : Prop where
  state : ∀ {s s'}, inv s → s'.loads = s.loads → s'.returns = s.returns → inv s'
  failure : ∀ f, err (.returned f)

/--
So many calls for the extension have been made.
-/
def Counts (loads returns : Nat) (s : Session) : Prop := s.loads = loads ∧ s.returns = returns

theorem frame_counts (loads returns : Nat) : Frame (Counts loads returns) fun _ => True where
  state h hloads hreturns := ⟨hloads.trans h.1, hreturns.trans h.2⟩
  failure _ := trivial

theorem frame_counts_returned (loads returns : Nat) : Frame (Counts loads returns) (· ≠ .running) where
  state h hloads hreturns := ⟨hloads.trans h.1, hreturns.trans h.2⟩
  failure _ h := by cases h

theorem frame_returned : Frame (fun _ => True) (· ≠ .running) where
  state _ _ _ := trivial
  failure _ h := by cases h

section Preserves

variable {inv : Session → Prop} {err : Stop → Prop} {env : Env} {psContext : Context} {α : Type}

theorem preserves_setStatus (h : Frame inv err) {eStatus : Status} {info : String}
    : Preserves inv err (ePRG_SetStatus eStatus info : Prg α) := preserves_throw (h.failure _)

theorem preserves_setStatus_bind (h : Frame inv err) {eStatus : Status} {info : String} {β : Type}
    {f : α → Prg β} : Preserves inv err (ePRG_SetStatus eStatus info >>= f) :=
  preserves_throw (h.failure _)

theorem preserves_check (h : Frame inv err) {eStatus : Status} {info : String}
    : Preserves inv err (check eStatus info) :=
  .ite (fun _ => preserves_setStatus h) fun _ => preserves_pure

theorem preserves_reportProgress (h : Frame inv err) : Preserves inv err (reportProgress env) := by
  unfold reportProgress
  split
  . exact preserves_pure
  . refine preserves_get_bind fun s hs => preserves_set_bind (h.state hs rfl rfl) ?_
    exact .ite (fun _ => preserves_setStatus h) fun _ => preserves_pure

theorem preserves_eepromRead (h : Frame inv err) {address : UInt32} {length : UInt8} {info : String}
    : Preserves inv err (eBL_EEPROMRead env address length info) := by
  unfold eBL_EEPROMRead
  refine .ite (fun _ => preserves_setStatus_bind h) fun _ => ?_
  refine preserves_get_bind fun s hs => preserves_set_bind (h.state hs rfl rfl) ?_
  exact (preserves_check h).bind fun _ => preserves_pure

theorem preserves_eepromWrite (h : Frame inv err) {address : UInt32} {length : UInt8}
    {buffer : List UInt8} {info : String}
    : Preserves inv err (eBL_EEPROMWrite env address length buffer info) := by
  unfold eBL_EEPROMWrite
  refine .ite (fun _ => preserves_setStatus_bind h) fun _ => ?_
  refine preserves_get_bind fun s hs => preserves_set_bind (h.state hs rfl rfl) ?_
  exact (preserves_check h).bind fun _ => preserves_modify fun _ hs => h.state hs rfl rfl

theorem preserves_writeFile (h : Frame inv err) {buffer : List UInt8} {info : String}
    : Preserves inv err (writeFile env buffer info) := by
  unfold writeFile
  refine preserves_get_bind fun s hs => ?_
  split
  . exact preserves_set_bind (f := pure) (h.state hs rfl rfl) preserves_pure
  . exact preserves_set_bind (h.state hs rfl rfl) (preserves_setStatus h)

theorem preserves_readFile (h : Frame inv err) {rest : List UInt8}
    : Preserves inv err (readFile env rest) :=
  preserves_get_bind fun _ hs => preserves_set_bind (h.state hs rfl rfl) preserves_pure

theorem preserves_dumpPass (h : Frame inv err) (b : UInt32 × UInt8)
    : Preserves inv err (dumpPass env psContext b) := by
  obtain ⟨n, u8ChunkSize⟩ := b
  unfold dumpPass
  refine .ite (fun _ => ?_) fun _ => preserves_pure
  refine (preserves_eepromRead h).bind fun _ => (preserves_writeFile h).bind fun _ => ?_
  exact (preserves_reportProgress h).bind fun _ => preserves_pure

theorem preserves_programPass (h : Frame inv err) (b : UInt32 × List UInt8)
    : Preserves inv err (programPass env psContext b) := by
  obtain ⟨n, rest⟩ := b
  unfold programPass programChunk
  refine (preserves_readFile h).bind fun _ => .ite (fun _ => preserves_pure) fun _ => ?_
  refine (preserves_eepromWrite h).bind fun _ => ?_
  exact (preserves_reportProgress h).bind fun _ => preserves_pure

theorem preserves_checkPresent (h : Frame inv err) : Preserves inv err (checkPresent psContext) :=
  .ite (fun _ => preserves_setStatus h) fun _ => preserves_pure

theorem preserves_eraseAll (h : Frame inv err) {eErase : EepromErase}
    : Preserves inv err (eraseAll eErase) := by
  cases eErase with
  | none => exact preserves_setStatus h
  | pdm => exact preserves_pure
  | all => exact preserves_pure

theorem preserves_openDumpFile (h : Frame inv err) {pcDumpFile : String}
    : Preserves inv err (openDumpFile env pcDumpFile) := by
  refine .ite (fun _ => preserves_setStatus_bind h) fun _ => ?_
  exact preserves_modify fun _ hs => h.state hs rfl rfl

theorem preserves_openLoadFile (h : Frame inv err) {pcLoadFile : String}
    : Preserves inv err (openLoadFile env pcLoadFile) := by
  refine .ite (fun _ => preserves_setStatus_bind h) fun _ => ?_
  exact .ite (fun _ => preserves_setStatus h) fun _ => preserves_pure

theorem preserves_checkFileSize (h : Frame inv err)
    : Preserves inv err (checkFileSize psContext) := by
  refine preserves_get_bind fun s _ => .ite (fun _ => preserves_setStatus h) fun _ => ?_
  exact .ite (fun _ => preserves_setStatus h) fun _ => preserves_pure

theorem preserves_confirmWord (h : Frame inv err) {u8Page u8WordNumber : UInt8}
    : Preserves inv err (confirmWord env psContext u8Page u8WordNumber) := by
  refine .ite (fun _ => preserves_setStatus_bind h) fun _ => ?_
  split
  . exact preserves_setStatus h
  . refine (preserves_check h).bind fun _ => .ite (fun _ => preserves_setStatus_bind h) fun _ => ?_
    exact .ite (fun _ => preserves_setStatus h) fun _ => preserves_pure

theorem preserves_eraseAccess (h : Frame inv err) {iEraseAll : Bool}
    : Preserves inv err (eraseAccess env iEraseAll) :=
  (preserves_reportProgress h).bind fun _ => preserves_check h

theorem preserves_dumpAccess (h : Frame inv err) (hrunning : err .running) {passes : Nat}
    : Preserves inv err (dumpAccess env psContext passes) :=
  (Preserves.loop (preserves_dumpPass h) hrunning).bind fun _ => preserves_reportProgress h

theorem preserves_programAccess (h : Frame inv err) (hrunning : err .running) {passes : Nat}
    : Preserves inv err (programAccess env psContext passes) := by
  refine preserves_get_bind fun s _ => ?_
  exact (Preserves.loop (preserves_programPass h) hrunning).bind fun _ => preserves_reportProgress h

end Preserves

section Extension

variable {env : Env} {psContext : Context} {s s' : Session} {u : Unit} {x : Prg Unit} {α : Type}

theorem balanced_of_preserves (h : Preserves (Counts s.loads s.returns) (fun _ => True) x)
    : Balanced x s := by
  have hcounts : ∀ s', Counts s.loads s.returns s' → s'.loads + s.returns = s'.returns + s.loads := by
    rintro s' ⟨hloads, hreturns⟩
    omega
  constructor
  . intro s' hreturns
    exact hcounts s' (h.returns ⟨rfl, rfl⟩ hreturns)
  . intro failure s' hfails
    exact hcounts s' (h.fails ⟨rfl, rfl⟩ hfails).1

theorem balanced_bind_iff {pre : Prg α} {f : α → Prg Unit}
    (hpre : Preserves (Counts s.loads s.returns) (fun _ => True) pre)
    : Balanced (pre >>= f) s ↔ ∀ a t, Returns pre s a t → Balanced (f a) t := by
  constructor
  . intro h a t hreturns
    obtain ⟨hloads, hcount⟩ := hpre.returns ⟨rfl, rfl⟩ hreturns
    constructor
    . intro s' hrest
      rw [hloads, hcount]
      exact h.success s' (returns_bind.mpr ⟨a, t, hreturns, hrest⟩)
    . intro failure s' hrest
      rw [hloads, hcount]
      exact h.failure failure s' (fails_bind.mpr (.inr ⟨a, t, hreturns, hrest⟩))
  . intro h
    constructor
    . intro s' hbind
      obtain ⟨a, t, hreturns, hrest⟩ := returns_bind.mp hbind
      obtain ⟨hloads, hcount⟩ := hpre.returns ⟨rfl, rfl⟩ hreturns
      rw [← hloads, ← hcount]
      exact (h a t hreturns).success s' hrest
    . intro failure s' hbind
      obtain hfails | ⟨a, t, hreturns, hrest⟩ := fails_bind.mp hbind
      . obtain ⟨⟨hloads, hcount⟩, -⟩ := hpre.fails ⟨rfl, rfl⟩ hfails
        omega
      . obtain ⟨hloads, hcount⟩ := hpre.returns ⟨rfl, rfl⟩ hreturns
        rw [← hloads, ← hcount]
        exact (h a t hreturns).failure failure s' hrest

/--
What comes before the access: `p` is checked, and the state is `t` then.
-/
theorem balanced_check_iff {pre : Prg Unit} {p : Prop} {t : Session}
    (hpre : Preserves (Counts s.loads s.returns) (fun _ => True) pre)
    (hreturns : ∀ {u s'}, Returns pre s u s' ↔ p ∧ s' = t)
    : Balanced (do pre; x) s ↔ (p → Balanced x t) := by
  rw [balanced_bind_iff hpre]
  constructor
  . intro h hp
    exact h () t (hreturns.mpr ⟨hp, rfl⟩)
  . intro h _ t' hchecked
    obtain ⟨hp, rfl⟩ := hreturns.mp hchecked
    exact h hp

/--
What comes after the access has no part in it.
-/
theorem balanced_bind_post {post : Prg Unit}
    (hpost : ∀ loads returns, Preserves (Counts loads returns) (· ≠ .running) post)
    : Balanced (do x; post) s ↔ Balanced x s := by
  constructor
  . intro h
    constructor
    . intro t hreturns
      rcases returns_or_fails post t with ⟨_, s', hrest⟩ | ⟨e, s', hrest⟩
      . obtain ⟨hloads, hcount⟩ := (hpost t.loads t.returns).returns ⟨rfl, rfl⟩ hrest
        rw [← hloads, ← hcount]
        exact h.success s' (returns_bind.mpr ⟨(), t, hreturns, hrest⟩)
      . obtain ⟨⟨hloads, hcount⟩, hrunning⟩ := (hpost t.loads t.returns).fails ⟨rfl, rfl⟩ hrest
        rw [← hloads, ← hcount]
        cases e with
        | running => exact absurd rfl hrunning
        | returned failure =>
          exact h.failure failure s' (fails_bind.mpr (.inr ⟨(), t, hreturns, hrest⟩))
    . intro failure t hfails
      exact h.failure failure t (fails_bind.mpr (.inl hfails))
  . intro h
    constructor
    . intro s' hbind
      obtain ⟨_, t, hreturns, hrest⟩ := returns_bind.mp hbind
      obtain ⟨hloads, hcount⟩ := (hpost t.loads t.returns).returns ⟨rfl, rfl⟩ hrest
      rw [hloads, hcount]
      exact h.success t hreturns
    . intro failure s' hbind
      obtain hfails | ⟨_, t, hreturns, hrest⟩ := fails_bind.mp hbind
      . exact h.failure failure s' hfails
      . obtain ⟨⟨hloads, hcount⟩, -⟩ := (hpost t.loads t.returns).fails ⟨rfl, rfl⟩ hrest
        rw [hloads, hcount]
        exact h.success t hreturns

/--
There is an extension, and it can be loaded and started.
-/
structure Loadable (env : Env) (psContext : Context) : Prop where
  length : psContext.u32FlashProgrammerExtensionLength ≠ 0
  fwGetInfo : env.fwGetInfo = .ok
  memoryLoadExecute : env.memoryLoadExecute = .ok

def Session.loaded (s : Session) : Session := { s with loads := s.loads + 1 }

theorem returns_extensionLoad {operation : String}
    : Returns (ePRG_FlashProgrammerExtensionLoad env psContext operation) s u s'
        ↔ Loadable env psContext ∧ s' = s.loaded := by
  unfold ePRG_FlashProgrammerExtensionLoad
  simp only [returns_bind, returns_ite, returns_check, returns_modify, not_returns_setStatus,
    false_and, exists_false, and_false, false_or]
  constructor
  . rintro ⟨hlength, _, _, ⟨hinfo, rfl⟩, _, _, ⟨hload, rfl⟩, hs'⟩
    exact ⟨⟨hlength, hinfo, hload⟩, hs'⟩
  . rintro ⟨⟨hlength, hinfo, hload⟩, hs'⟩
    exact ⟨hlength, (), s, ⟨hinfo, rfl⟩, (), s, ⟨hload, rfl⟩, hs'⟩

theorem fails_extensionLoad {operation : String} {e : Stop}
    (h : Fails (ePRG_FlashProgrammerExtensionLoad env psContext operation) s e s')
    : Counts s.loads s.returns s' := by
  have hframe := frame_counts s.loads s.returns
  unfold ePRG_FlashProgrammerExtensionLoad at h
  by_cases hlength : psContext.u32FlashProgrammerExtensionLength = 0
  . rw [if_pos hlength] at h
    exact ((preserves_setStatus_bind hframe).fails ⟨rfl, rfl⟩ h).1
  . rw [if_neg hlength] at h
    obtain hinfo | ⟨_, t, hreturns, hrest⟩ := fails_bind.mp h
    . exact ((preserves_check hframe).fails ⟨rfl, rfl⟩ hinfo).1
    . obtain ⟨-, rfl⟩ := returns_check.mp hreturns
      obtain hload | ⟨_, t', -, hmodify⟩ := fails_bind.mp hrest
      . exact ((preserves_check hframe).fails ⟨rfl, rfl⟩ hload).1
      . exact absurd hmodify not_fails_modify

/--
The call for the return is counted, however it ends.
-/
theorem extensionReturn_ends (env : Env) (psContext : Context) (s : Session)
    : (∀ s', Returns (ePRG_FlashProgrammerExtensionReturn env psContext) s () s' →
        Counts s.loads (s.returns + 1) s')
      ∧ ∀ e s', Fails (ePRG_FlashProgrammerExtensionReturn env psContext) s e s' →
        Counts s.loads (s.returns + 1) s' := by
  have hframe := frame_counts s.loads (s.returns + 1)
  have hrest : Preserves (Counts s.loads (s.returns + 1)) (fun _ => True) (do
      check (env.memoryExecute psContext.u32BootloaderEntry) "executing bootloader"
      if CHIP_ID_PART psContext.u32ChipId ≠ CHIP_ID_PART CHIP_ID_JN5172 then
        check (env.setBaudRate 0) "selecting baud rate"
        check (env.setBaudRate 1) "selecting baud rate") := by
    refine (preserves_check hframe).bind fun _ => .ite (fun _ => ?_) fun _ => preserves_pure
    exact (preserves_check hframe).bind fun _ => preserves_check hframe
  have hcounts : Counts s.loads (s.returns + 1) { s with returns := s.returns + 1 } := ⟨rfl, rfl⟩
  constructor
  . intro s' h
    obtain ⟨_, t, hmodify, hreturns⟩ := returns_bind.mp h
    obtain rfl := returns_modify.mp hmodify
    exact hrest.returns hcounts hreturns
  . intro e s' h
    obtain hmodify | ⟨_, t, hmodify, hfails⟩ := fails_bind.mp h
    . exact absurd hmodify not_fails_modify
    . obtain rfl := returns_modify.mp hmodify
      exact (hrest.fails hcounts hfails).1

/--
An access with the extension is balanced exactly if it does not fail itself once it is loaded.
-/
theorem balanced_withExtension_iff {capability : Bool} {operation : String}
    (hx : ∀ loads returns, Preserves (Counts loads returns) (fun _ => True) x)
    : Balanced (withExtension env psContext capability operation x) s
        ↔ (capability = false → Loadable env psContext →
          ∀ failure t, ¬Fails x s.loaded (.returned failure) t) := by
  cases capability with
  | true =>
    refine iff_of_true (balanced_of_preserves ?_) fun h => by cases h
    exact preserves_pure.bind fun _ => (hx _ _).bind fun _ => preserves_pure
  | false =>
    have hcounts : Counts (s.loads + 1) s.returns s.loaded := ⟨rfl, rfl⟩
    constructor
    . intro h _ hload failure t hfails
      have henter : Returns (ePRG_FlashProgrammerExtensionLoad env psContext operation) s () s.loaded :=
        returns_extensionLoad.mpr ⟨hload, rfl⟩
      have hbalanced := h.failure failure t
        (fails_bind.mpr (.inr ⟨(), s.loaded, henter, fails_bind.mpr (.inl hfails)⟩))
      obtain ⟨⟨hloads, hreturns⟩, -⟩ := (hx _ _).fails hcounts hfails
      omega
    . intro h
      constructor
      . intro s' hreturns
        obtain ⟨_, t, henter, hrest⟩ := returns_bind.mp hreturns
        obtain ⟨_, t', haccess, hleave⟩ := returns_bind.mp hrest
        obtain ⟨-, rfl⟩ := returns_extensionLoad.mp henter
        obtain ⟨hloads, hcount⟩ := (hx _ _).returns hcounts haccess
        obtain ⟨hloads', hcount'⟩ := (extensionReturn_ends env psContext t').1 s' hleave
        omega
      . intro failure s' hfails
        obtain henter | ⟨_, t, henter, hrest⟩ := fails_bind.mp hfails
        . obtain ⟨hloads, hcount⟩ := fails_extensionLoad henter
          omega
        . obtain ⟨hload, rfl⟩ := returns_extensionLoad.mp henter
          obtain haccess | ⟨_, t', haccess, hleave⟩ := fails_bind.mp hrest
          . exact absurd haccess (h rfl hload failure s')
          . obtain ⟨hloads, hcount⟩ := (hx _ _).returns hcounts haccess
            obtain ⟨hloads', hcount'⟩ := (extensionReturn_ends env psContext t').2 _ s' hleave
            omega

theorem never_fails_iff (hx : Preserves (fun _ => True) (· ≠ .running) x)
    : (∀ failure t, ¬Fails x s (.returned failure) t) ↔ ∃ t, Returns x s () t := by
  constructor
  . intro h
    rcases returns_or_fails x s with ⟨_, t, hreturns⟩ | ⟨e, t, hfails⟩
    . exact ⟨t, hreturns⟩
    . cases e with
      | running => exact absurd rfl (hx.fails trivial hfails).2
      | returned failure => exact absurd hfails (h failure t)
  . rintro ⟨t, hreturns⟩ failure t' hfails
    exact hreturns.not_fails hfails

@[simp]
theorem returns_checkPresent
    : Returns (checkPresent psContext) s u s' ↔ psContext.boEEPpresent = true ∧ s' = s := by
  unfold checkPresent
  simp only [returns_ite, not_returns_setStatus, and_false, false_or, returns_pure, true_and,
    Bool.not_eq_true', Bool.not_eq_false]

@[simp]
theorem returns_eraseAll {eErase : EepromErase} {iEraseAll : Bool}
    : Returns (eraseAll eErase) s iEraseAll s'
        ↔ eErase ≠ .none ∧ iEraseAll = decide (eErase = .all) ∧ s' = s := by
  cases eErase with
  | none => simp [eraseAll]
  | pdm => simp [eraseAll]
  | all => simp [eraseAll]

end Extension

section Conditions

variable {env : Env} {psContext : Context} {s s' : Session}

/--
The user does not stop the operation at the callback with this number.
-/
def Continues (env : Env) (k : Nat) : Prop := ∀ cbProgress ∈ env.cbProgress, cbProgress k = .ok

/--
The device has an EEPROM, and it needs the extension for it, which can be loaded.
-/
structure EepromByExtension (env : Env) (psContext : Context) : Prop where
  present : psContext.boEEPpresent = true
  capability : BOOTLOADER_CAPABILITY_EEPROM_ACCESS psContext.u32BootloaderVersion = false
  loadable : Loadable env psContext

theorem balanced_eepromAccess_iff {x : Prg Unit}
    (hx : ∀ loads returns, Preserves (Counts loads returns) (fun _ => True) x)
    : Balanced (eepromAccess env psContext x) s
        ↔ (BOOTLOADER_CAPABILITY_EEPROM_ACCESS psContext.u32BootloaderVersion = false →
          Loadable env psContext → ∀ failure t, ¬Fails x s.loaded (.returned failure) t) :=
  balanced_withExtension_iff hx

theorem eraseAccess_returns_iff {iEraseAll : Bool}
    : (∃ t, Returns (eraseAccess env iEraseAll) s () t)
        ↔ Continues env s.progress ∧ env.eepromErase iEraseAll = .ok := by
  unfold eraseAccess
  simp only [returns_bind, returns_reportProgress, returns_check]
  constructor
  . rintro ⟨t, _, t', ⟨hprogress, rfl⟩, herase, -⟩
    exact ⟨hprogress, herase⟩
  . rintro ⟨hprogress, herase⟩
    exact ⟨_, (), _, ⟨hprogress, rfl⟩, herase, rfl⟩

theorem balanced_erase_iff {eErase : EepromErase}
    : Balanced (ePRG_EepromErase env psContext eErase) s
        ↔ (eErase ≠ .none → EepromByExtension env psContext →
          Continues env s.progress ∧ env.eepromErase (decide (eErase = .all)) = .ok) := by
  have haccess : ∀ iEraseAll, Balanced (do
      eepromAccess env psContext (eraseAccess env iEraseAll)
      reportProgress env) s
      ↔ (BOOTLOADER_CAPABILITY_EEPROM_ACCESS psContext.u32BootloaderVersion = false →
        Loadable env psContext → Continues env s.progress ∧ env.eepromErase iEraseAll = .ok) := by
    intro iEraseAll
    rw [balanced_bind_post fun _ _ => preserves_reportProgress (frame_counts_returned _ _),
      balanced_eepromAccess_iff fun _ _ => preserves_eraseAccess (frame_counts _ _),
      never_fails_iff (preserves_eraseAccess frame_returned), eraseAccess_returns_iff]
    exact Iff.rfl
  unfold ePRG_EepromErase
  rw [balanced_check_iff (preserves_checkPresent (frame_counts _ _)) returns_checkPresent,
    balanced_bind_iff (preserves_eraseAll (frame_counts _ _))]
  constructor
  . intro h hsome hextension
    have hbalanced := h hextension.present _ s (returns_eraseAll.mpr ⟨hsome, rfl, rfl⟩)
    exact (haccess _).mp hbalanced hextension.capability hextension.loadable
  . intro h hpresent iEraseAll t hall
    obtain ⟨hsome, rfl, rfl⟩ := returns_eraseAll.mp hall
    exact (haccess _).mpr fun hcapability hloadable => h hsome ⟨hpresent, hcapability, hloadable⟩

/--
A loop with what follows it, as it is done with any number of passes.
-/
theorem never_fails_running_iff {x : Nat → Prg Unit}
    : (∀ passes failure t, ¬Fails (x passes) s (.returned failure) t)
        ↔ ∀ passes e t, Fails (x passes) s e t → e = .running := by
  constructor
  . intro h passes e t hfails
    cases e with
    | running => rfl
    | returned failure => exact absurd hfails (h passes failure t)
  . intro h passes failure t hfails
    cases h passes _ t hfails

theorem reportProgress_returns_iff {s : Session}
    : (∃ a t, Returns (reportProgress env) s a t) ↔ Continues env s.progress := by
  simp only [returns_reportProgress, exists_const, exists_and_left, exists_eq, and_true]
  exact Iff.rfl

theorem continues_add_mul {k i : Nat}
    : Continues env (k + i * env.cbProgress.toList.length) ↔ Continues env (k + i) := by
  unfold Continues
  cases env.cbProgress with
  | none => simp
  | some cbProgress => simp

/--
Until the dump has come to the end, the user continues it and no call of a pass fails.
-/
def DumpGoes (env : Env) (psContext : Context) (s : Session) : Prop :=
  ∀ i, (∀ j < i, position psContext j < psContext.u32EepromSize) →
    Continues env (s.progress + i)
      ∧ (position psContext i < psContext.u32EepromSize →
        env.eepromRead (s.eepromReads + i) = .ok ∧ env.write (s.writes + i) ≠ none)

theorem dumpPass_returns_iff {n : UInt32} (hn : n < psContext.u32EepromSize)
    : (∃ next t, Returns (dumpPass env psContext (n, 64)) s next t)
        ↔ Continues env s.progress ∧ env.eepromRead s.eepromReads = .ok
          ∧ env.write s.writes ≠ none := by
  simp only [returns_dumpPass hn]
  constructor
  . rintro ⟨_, _, -, hread, ⟨count, hwrite, hprogress, -⟩, -⟩
    exact ⟨hprogress, hread, by simp [hwrite]⟩
  . rintro ⟨hprogress, hread, hwrite⟩
    obtain ⟨count, hwrite⟩ := Option.ne_none_iff_exists'.mp hwrite
    exact ⟨_, _, dumpChunk_small hn, hread, ⟨count, hwrite, hprogress, rfl⟩, rfl⟩

/--
The pass with the number `i` is reached if those before it return.
-/
theorem reaches_dumpPass {i : Nat}
    (hreturns : ∀ j b t, Reaches (dumpPass env psContext) j (psContext.u32EepromOffset, 64) s b t →
      ∃ next t', Returns (dumpPass env psContext b) t next t')
    (hbefore : ∀ j < i, position psContext j < psContext.u32EepromSize)
    : ∃ b t, Reaches (dumpPass env psContext) i (psContext.u32EepromOffset, 64) s b t := by
  induction i with
  | zero => exact ⟨_, _, .first⟩
  | succ i ih =>
    obtain ⟨b, t, hreaches⟩ := ih fun j hj => hbefore j (Nat.lt_succ_of_lt hj)
    have hposition := hbefore i (Nat.lt_succ_self i)
    have hat := atDumpPass_of_reaches hreaches
    have hn : b.1 < psContext.u32EepromSize := by
      by_contra hend
      exact hat.not_position hend hposition
    obtain ⟨next, t', hpass⟩ := hreturns i b t hreaches
    obtain rfl := hat.eq hn
    obtain ⟨-, -, -, rfl⟩ := (returns_dumpPass hn).mp hpass
    exact ⟨_, _, hreaches.snoc hpass⟩

theorem dumpAccess_goes_iff
    : (∀ passes failure t, ¬Fails (dumpAccess env psContext passes) s (.returned failure) t)
        ↔ DumpGoes env psContext s := by
  rw [never_fails_running_iff]
  refine (loop_bind_runs_iff (preserves_dumpPass frame_returned)
    (preserves_reportProgress frame_returned)).trans ?_
  constructor
  . intro h i hbefore
    obtain ⟨b, t, hreaches⟩ := reaches_dumpPass (fun j b t hreaches => by
      obtain ⟨next, t', hpass, -⟩ := h j b t hreaches
      exact ⟨next, t', hpass⟩) hbefore
    have hat := atDumpPass_of_reaches hreaches
    obtain ⟨next, t', hpass, hend⟩ := h i b t hreaches
    rw [← continues_add_mul, ← hat.progress, ← hat.eepromReads, ← hat.writes]
    by_cases hn : b.1 < psContext.u32EepromSize
    . obtain rfl := hat.eq hn
      obtain ⟨hprogress, hcalls⟩ := (dumpPass_returns_iff hn).mp ⟨next, t', hpass⟩
      exact ⟨hprogress, fun _ => hcalls⟩
    . obtain ⟨rfl, rfl⟩ := (returns_dumpPass_end hn).mp hpass
      exact ⟨reportProgress_returns_iff.mp (hend rfl), fun h => absurd h (hat.not_position hn)⟩
  . intro h i b t hreaches
    have hat := atDumpPass_of_reaches hreaches
    obtain ⟨hprogress, hcalls⟩ := h i hat.before
    rw [← continues_add_mul, ← hat.progress] at hprogress
    rw [← hat.eepromReads, ← hat.writes] at hcalls
    by_cases hn : b.1 < psContext.u32EepromSize
    . obtain rfl := hat.eq hn
      obtain ⟨next, t', hpass⟩ := (dumpPass_returns_iff hn).mpr ⟨hprogress, hcalls hn⟩
      refine ⟨next, t', hpass, ?_⟩
      rintro rfl
      obtain ⟨-, -, -, hnone⟩ := (returns_dumpPass hn).mp hpass
      cases hnone
    . refine ⟨none, t, (returns_dumpPass_end hn).mpr ⟨rfl, rfl⟩, ?_⟩
      intro _
      exact reportProgress_returns_iff.mpr hprogress

theorem returns_openDumpFile {pcDumpFile : String} {u : Unit}
    : Returns (openDumpFile env pcDumpFile) s u s'
        ↔ env.open' = true ∧ s' = { s with file := [] } := by
  unfold openDumpFile
  simp only [returns_bind, returns_ite, not_returns_setStatus, and_false, false_or, returns_modify,
    Bool.not_eq_true', Bool.not_eq_false, false_and, exists_false]

/--
An access that is done with any number of passes.
-/
theorem balanced_eepromAccesses_iff {x : Nat → Prg Unit}
    (hx : ∀ passes loads returns, Preserves (Counts loads returns) (fun _ => True) (x passes))
    : (∀ passes, Balanced (eepromAccess env psContext (x passes)) s)
        ↔ (BOOTLOADER_CAPABILITY_EEPROM_ACCESS psContext.u32BootloaderVersion = false →
          Loadable env psContext →
          ∀ passes failure t, ¬Fails (x passes) s.loaded (.returned failure) t) := by
  constructor
  . intro h hcapability hload passes
    exact (balanced_eepromAccess_iff (hx passes)).mp (h passes) hcapability hload
  . intro h passes
    refine (balanced_eepromAccess_iff (hx passes)).mpr fun hcapability hload => ?_
    exact h hcapability hload passes

theorem balanced_dump_iff {pcDumpFile : String}
    : (∀ passes, Balanced (ePRG_EepromDump env psContext pcDumpFile passes) s)
        ↔ (env.open' = true → EepromByExtension env psContext → DumpGoes env psContext s) := by
  have haccess : (∀ passes, Balanced (eepromAccess env psContext (dumpAccess env psContext passes))
      { s with file := [] })
      ↔ (BOOTLOADER_CAPABILITY_EEPROM_ACCESS psContext.u32BootloaderVersion = false →
        Loadable env psContext → DumpGoes env psContext s) := by
    rw [balanced_eepromAccesses_iff fun _ _ _ => preserves_dumpAccess (frame_counts _ _) trivial,
      dumpAccess_goes_iff]
    exact Iff.rfl
  have hbalanced : ∀ passes, Balanced (ePRG_EepromDump env psContext pcDumpFile passes) s
      ↔ (psContext.boEEPpresent = true → env.open' = true →
        Balanced (eepromAccess env psContext (dumpAccess env psContext passes))
          { s with file := [] }) := by
    intro passes
    unfold ePRG_EepromDump
    rw [balanced_check_iff (preserves_checkPresent (frame_counts _ _)) returns_checkPresent,
      balanced_check_iff (preserves_openDumpFile (frame_counts _ _)) returns_openDumpFile]
  simp only [hbalanced]
  constructor
  . intro h hopened hextension
    have hgoes := haccess.mp fun passes => h passes hextension.present hopened
    exact hgoes hextension.capability hextension.loadable
  . intro h passes hpresent hopened
    refine haccess.mpr (fun hcapability hload => ?_) passes
    exact h hopened ⟨hpresent, hcapability, hload⟩

/--
The position and what is left of the file after the first `i` calls of `read`.
-/
def loadFrom (read : Nat → Option Nat) (file : List UInt8) : Nat → UInt32 × List UInt8
  | 0 => (0, file)
  | i + 1 =>
    let (n, rest) := loadFrom read file i
    match read i with
    | some count =>
      (n + (UInt8.ofNat (readBuffer count rest).length).toUInt32,
        rest.drop (readBuffer count rest).length)
    | none => (n, rest)

/--
Where the `i`-th pass of the program is, if those before it have all been written.
-/
def loadState (env : Env) (s : Session) (i : Nat) : UInt32 × List UInt8 :=
  loadFrom (fun j => env.read (s.reads + j)) s.file i

/--
The `i`-th pass of the program reads bytes of the file, and they end inside the EEPROM.
-/
def LoadsAt (env : Env) (psContext : Context) (s : Session) (i : Nat) : Prop :=
  ∃ count, env.read (s.reads + i) = some count ∧ (loadState env s i).2 ≠ []
    ∧ (loadState env s i).1
        + (UInt8.ofNat (readBuffer count (loadState env s i).2).length).toUInt32
      ≤ psContext.u32EepromSize

/--
Until the program has come to the end, the user continues it, no call of a pass fails, and a failed
read, which counts as 255 bytes, would not end inside the EEPROM.
-/
def ProgramGoes (env : Env) (psContext : Context) (s : Session) : Prop :=
  ∀ i, (∀ j < i, LoadsAt env psContext s j) →
    Continues env (s.progress + i)
      ∧ (LoadsAt env psContext s i → env.eepromWrite (s.eepromWrites.length + i) = .ok)
      ∧ (env.read (s.reads + i) = none → ¬(loadState env s i).1 + 255 ≤ psContext.u32EepromSize)

structure AtLoad (env : Env) (psContext : Context) (s : Session) (i : Nat) (b : UInt32 × List UInt8)
    (t : Session) : Prop where
  before : ∀ j < i, LoadsAt env psContext s j
  start : b = loadState env s i
  reads : t.reads = s.reads + i
  progress : t.progress = s.progress + i * env.cbProgress.toList.length
  eepromWrites : t.eepromWrites.length = s.eepromWrites.length + i

theorem AtLoad.loads_iff {i : Nat} {b : UInt32 × List UInt8} {t : Session}
    (h : AtLoad env psContext s i b t)
    : (∃ buffer, Loads env psContext t b buffer) ↔ LoadsAt env psContext s i := by
  have hnext : nextBuffer env t b.2 = (env.read (s.reads + i)).map (readBuffer · b.2) := by
    rw [nextBuffer, h.reads]
  unfold LoadsAt
  rw [← h.start]
  constructor
  . rintro ⟨_, hread, hrest, hfits⟩
    rw [hnext] at hread
    obtain ⟨count, hcount, rfl⟩ := Option.map_eq_some_iff.mp hread
    exact ⟨count, hcount, hrest, hfits⟩
  . rintro ⟨count, hcount, hrest, hfits⟩
    refine ⟨readBuffer count b.2, ?_, hrest, hfits⟩
    rw [hnext, hcount, Option.map_some]

theorem AtLoad.next {i : Nat} {b b' : UInt32 × List UInt8} {t t' : Session}
    (h : AtLoad env psContext s i b t) (hpass : Returns (programPass env psContext b) t (some b') t')
    : AtLoad env psContext s (i + 1) b' t' := by
  obtain ⟨buffer, hloads⟩ := loads_of_returns hpass
  obtain ⟨-, -, rfl, hb⟩ := (returns_programPass hloads).mp hpass
  have hat := h.loads_iff.mp ⟨buffer, hloads⟩
  obtain ⟨count, hcount, -⟩ := hat
  have hbuffer : buffer = readBuffer count b.2 := by
    have hread := hloads.read
    rw [nextBuffer, h.reads, hcount, Option.map_some] at hread
    exact (Option.some.inj hread).symm
  constructor
  . intro j hj
    by_cases heq : j = i
    . rw [heq]
      exact h.loads_iff.mp ⟨buffer, hloads⟩
    . exact h.before j (by omega)
  . rw [Option.some.inj hb, hbuffer, h.start, loadState, loadState, loadFrom]
    simp only [hcount]
  . exact congrArg (· + 1) h.reads
  . rw [Nat.succ_mul, ← Nat.add_assoc, ← h.progress]
    rfl
  . show (t.eepromWrites ++ [_]).length = _
    rw [List.length_append, h.eepromWrites]
    rfl

theorem atLoad_of_reaches {i : Nat} {b : UInt32 × List UInt8} {t : Session}
    (h : Reaches (programPass env psContext) i (0, s.file) s b t) : AtLoad env psContext s i b t := by
  induction i generalizing b t with
  | zero =>
    obtain ⟨rfl, rfl⟩ := reaches_zero.mp h
    exact ⟨fun j hj => absurd hj (Nat.not_lt_zero j), rfl, rfl, by rw [Nat.zero_mul]; rfl, rfl⟩
  | succ i ih =>
    obtain ⟨b₁, t₁, hreaches, hpass⟩ := reaches_snoc.mp h
    exact (ih hreaches).next hpass

theorem returns_programPass_end {b : UInt32 × List UInt8}
    (hend : chunkOf (nextBuffer env s b.2) = 0
      ∨ b.1 + (chunkOf (nextBuffer env s b.2)).toUInt32 > psContext.u32EepromSize)
    : Returns (programPass env psContext b) s none { s with reads := s.reads + 1 } := by
  obtain ⟨n, rest⟩ := b
  unfold programPass programChunk
  refine returns_bind.mpr ⟨_, _, returns_readFile.mpr ⟨rfl, rfl⟩, ?_⟩
  exact returns_ite.mpr (.inl ⟨hend, returns_pure.mpr ⟨rfl, rfl⟩⟩)

/--
The bytes that a failed read counts as are not written, if they would be.
-/
theorem not_returns_programPass {b : UInt32 × List UInt8} {next : Option (UInt32 × List UInt8)}
    (hread : env.read s.reads = none) (hfits : b.1 + 255 ≤ psContext.u32EepromSize)
    : ¬Returns (programPass env psContext b) s next s' := by
  obtain ⟨n, rest⟩ := b
  have hbuffer : nextBuffer env s rest = none := by rw [nextBuffer, hread, Option.map_none]
  have hgoes : ¬(chunkOf none = 0 ∨ n + (chunkOf none).toUInt32 > psContext.u32EepromSize) := by
    rintro (hzero | hgt)
    . revert hzero
      decide
    . exact UInt32.not_lt.mpr hfits hgt
  unfold programPass programChunk
  intro h
  obtain ⟨_, _, hbytes, hrest⟩ := returns_bind.mp h
  obtain ⟨rfl, rfl⟩ := returns_readFile.mp hbytes
  rw [hbuffer, if_neg hgoes] at hrest
  obtain ⟨_, _, hwrite, -⟩ := returns_bind.mp hrest
  exact (returns_eepromWrite.mp hwrite).1 (by decide)

/--
A pass, and what follows the loop if it is the last one.
-/
theorem programPass_goes_iff {b : UInt32 × List UInt8}
    : (∃ next t, Returns (programPass env psContext b) s next t
          ∧ (next = none → ∃ a t', Returns (reportProgress env) t a t'))
        ↔ Continues env s.progress
          ∧ ((∃ buffer, Loads env psContext s b buffer) →
            env.eepromWrite s.eepromWrites.length = .ok)
          ∧ (env.read s.reads = none → ¬b.1 + 255 ≤ psContext.u32EepromSize) := by
  by_cases hloads : ∃ buffer, Loads env psContext s b buffer
  . obtain ⟨buffer, hloads⟩ := hloads
    have hread : env.read s.reads ≠ none := by
      intro hnone
      have hbuffer := hloads.read
      rw [nextBuffer, hnone] at hbuffer
      cases hbuffer
    simp only [returns_programPass hloads]
    constructor
    . rintro ⟨_, _, ⟨hwrite, hprogress, -⟩, -⟩
      exact ⟨hprogress, fun _ => hwrite, fun hnone => absurd hnone hread⟩
    . rintro ⟨hprogress, hwrite, -⟩
      exact ⟨_, _, ⟨hwrite ⟨buffer, hloads⟩, hprogress, rfl, rfl⟩, fun hnone => by cases hnone⟩
  . have hlast : ∀ {next t}, Returns (programPass env psContext b) s next t → next = none := by
      intro next t h
      cases next with
      | none => rfl
      | some b' => exact absurd (loads_of_returns h) hloads
    constructor
    . rintro ⟨next, t, hpass, hend⟩
      obtain rfl := hlast hpass
      obtain ⟨rfl, -⟩ := returns_programPass_none hpass
      have hprogress := reportProgress_returns_iff.mp (hend rfl)
      refine ⟨hprogress, fun h => absurd h hloads, ?_⟩
      intro hread hfits
      exact not_returns_programPass hread hfits hpass
    . rintro ⟨hprogress, -, hfails⟩
      have hend : chunkOf (nextBuffer env s b.2) = 0
          ∨ b.1 + (chunkOf (nextBuffer env s b.2)).toUInt32 > psContext.u32EepromSize := by
        by_contra hgoes
        obtain ⟨hnonzero, hnotgt⟩ := not_or.mp hgoes
        have hfits := UInt32.not_lt.mp hnotgt
        cases hread : env.read s.reads with
        | none =>
          rw [nextBuffer, hread] at hfits
          exact hfails hread hfits
        | some count =>
          have hbuffer : nextBuffer env s b.2 = some (readBuffer count b.2) := by
            rw [nextBuffer, hread, Option.map_some]
          rw [hbuffer] at hnonzero hfits
          exact hloads ⟨_, hbuffer, fun hnil => hnonzero (readBuffer_chunk_zero.mpr hnil), hfits⟩
      refine ⟨none, _, returns_programPass_end hend, fun _ => ?_⟩
      exact reportProgress_returns_iff.mpr hprogress

theorem reaches_programPass {i : Nat}
    (hreturns : ∀ j b t, Reaches (programPass env psContext) j (0, s.file) s b t →
      ∃ next t', Returns (programPass env psContext b) t next t')
    (hbefore : ∀ j < i, LoadsAt env psContext s j)
    : ∃ b t, Reaches (programPass env psContext) i (0, s.file) s b t := by
  induction i with
  | zero => exact ⟨_, _, .first⟩
  | succ i ih =>
    obtain ⟨b, t, hreaches⟩ := ih fun j hj => hbefore j (Nat.lt_succ_of_lt hj)
    obtain ⟨buffer, hloads⟩ :=
      (atLoad_of_reaches hreaches).loads_iff.mpr (hbefore i (Nat.lt_succ_self i))
    obtain ⟨next, t', hpass⟩ := hreturns i b t hreaches
    obtain ⟨-, -, -, rfl⟩ := (returns_programPass hloads).mp hpass
    exact ⟨_, _, hreaches.snoc hpass⟩

theorem programAccess_goes_iff
    : (∀ passes failure t, ¬Fails (programAccess env psContext passes) s (.returned failure) t)
        ↔ ProgramGoes env psContext s := by
  rw [never_fails_running_iff]
  refine (loop_bind_runs_iff (b := (0, s.file)) (s := s) (preserves_programPass frame_returned)
    (preserves_reportProgress frame_returned)).trans ?_
  simp only [programPass_goes_iff]
  constructor
  . intro h i hbefore
    obtain ⟨b, t, hreaches⟩ := reaches_programPass (fun j b t hreaches => by
      obtain ⟨next, t', hpass, -⟩ := programPass_goes_iff.mpr (h j b t hreaches)
      exact ⟨next, t', hpass⟩) hbefore
    have hat := atLoad_of_reaches hreaches
    obtain ⟨hprogress, hwrite, hfails⟩ := h i b t hreaches
    rw [hat.loads_iff] at hwrite
    rw [hat.progress, continues_add_mul] at hprogress
    rw [hat.eepromWrites] at hwrite
    rw [hat.reads, hat.start] at hfails
    exact ⟨hprogress, hwrite, hfails⟩
  . intro h i b t hreaches
    have hat := atLoad_of_reaches hreaches
    obtain ⟨hprogress, hwrite, hfails⟩ := h i hat.before
    rw [hat.loads_iff, hat.progress, continues_add_mul, hat.eepromWrites, hat.reads, hat.start]
    exact ⟨hprogress, hwrite, hfails⟩

theorem returns_openLoadFile {pcLoadFile : String} {u : Unit}
    : Returns (openLoadFile env pcLoadFile) s u s'
        ↔ (env.open' = true ∧ env.fstat = true) ∧ s' = s := by
  unfold openLoadFile
  simp only [returns_bind, returns_ite, not_returns_setStatus, and_false, false_or, returns_pure,
    Bool.not_eq_true', Bool.not_eq_false, true_and, false_and, exists_false, and_assoc]

/--
The size of the file, which has 32 bits, is not 0 and fits into the EEPROM.
-/
def FileFits (psContext : Context) (s : Session) : Prop :=
  UInt32.ofNat s.file.length ≠ 0
    ∧ psContext.u32EepromOffset + UInt32.ofNat s.file.length ≤ psContext.u32EepromSize

theorem returns_checkFileSize {u : Unit}
    : Returns (checkFileSize psContext) s u s' ↔ FileFits psContext s ∧ s' = s := by
  unfold checkFileSize FileFits
  simp only [returns_get_bind, returns_ite, not_returns_setStatus, and_false, false_or, returns_pure,
    true_and, gt_iff_lt, UInt32.not_lt, ne_eq, and_assoc]

theorem balanced_program_iff {pcLoadFile : String}
    : (∀ passes, Balanced (ePRG_EepromProgram env psContext pcLoadFile passes) s)
        ↔ (env.open' = true ∧ env.fstat = true → FileFits psContext s →
          EepromByExtension env psContext → ProgramGoes env psContext s) := by
  have haccess : (∀ passes, Balanced (eepromAccess env psContext
      (programAccess env psContext passes)) s)
      ↔ (BOOTLOADER_CAPABILITY_EEPROM_ACCESS psContext.u32BootloaderVersion = false →
        Loadable env psContext → ProgramGoes env psContext s) := by
    rw [balanced_eepromAccesses_iff fun _ _ _ => preserves_programAccess (frame_counts _ _) trivial,
      programAccess_goes_iff]
    exact Iff.rfl
  have hbalanced : ∀ passes, Balanced (ePRG_EepromProgram env psContext pcLoadFile passes) s
      ↔ (psContext.boEEPpresent = true → env.open' = true ∧ env.fstat = true →
        FileFits psContext s →
        Balanced (eepromAccess env psContext (programAccess env psContext passes)) s) := by
    intro passes
    unfold ePRG_EepromProgram
    rw [balanced_check_iff (preserves_checkPresent (frame_counts _ _)) returns_checkPresent,
      balanced_check_iff (preserves_openLoadFile (frame_counts _ _)) returns_openLoadFile,
      balanced_check_iff (preserves_checkFileSize (frame_counts _ _)) returns_checkFileSize]
  simp only [hbalanced]
  constructor
  . intro h hopened hfits hextension
    have hgoes := haccess.mp fun passes => h passes hextension.present hopened hfits
    exact hgoes hextension.capability hextension.loadable
  . intro h passes hpresent hopened hfits
    refine haccess.mpr (fun hcapability hload => ?_) passes
    exact h hopened hfits ⟨hpresent, hcapability, hload⟩

/--
The word of the index sector may be written, and the user has confirmed it.
-/
def Confirmed (env : Env) (psContext : Context) (u8Page u8WordNumber : UInt8) : Prop :=
  (CHIP_ID_PART psContext.u32ChipId = CHIP_ID_PART CHIP_ID_JN5168
      ∨ CHIP_ID_PART psContext.u32ChipId = CHIP_ID_PART CHIP_ID_JN5169
      ∨ CHIP_ID_PART psContext.u32ChipId = CHIP_ID_PART CHIP_ID_JN5172)
    ∧ env.cbConfirm = some .ok ∧ env.memoryRead = .ok
    ∧ env.indexSector u8Page u8WordNumber = List.replicate IP2111_INDEX_SECTOR_WORD_LENGTH 0xFF

theorem returns_confirmWord {u8Page u8WordNumber : UInt8} {u : Unit}
    : Returns (confirmWord env psContext u8Page u8WordNumber) s u s'
        ↔ Confirmed env psContext u8Page u8WordNumber ∧ s' = s := by
  have hpart : ∀ {a b c : UInt32} {part : UInt32}, ¬(part ≠ a ∧ part ≠ b ∧ part ≠ c)
      ↔ part = a ∨ part = b ∨ part = c := by
    intro a b c part
    simp only [not_and_or, not_not]
  unfold confirmWord Confirmed
  cases env.cbConfirm with
  | none =>
    simp only [returns_ite, returns_bind, not_returns_setStatus, false_and, and_false, exists_false,
      or_self, reduceCtorEq]
  | some confirmed =>
    simp only [returns_ite, returns_bind, not_returns_setStatus, false_and, and_false, exists_false,
      false_or, hpart, returns_check, returns_pure, not_not, ne_eq, Option.some.injEq]
    constructor
    . rintro ⟨hchip, _, t, ⟨hread, rfl⟩, hword, hconfirmed, -, rfl⟩
      exact ⟨⟨hchip, hconfirmed, hread, hword⟩, rfl⟩
    . rintro ⟨⟨hchip, hconfirmed, hread, hword⟩, rfl⟩
      exact ⟨hchip, (), _, ⟨hread, rfl⟩, hword, hconfirmed, trivial, rfl⟩

theorem balanced_indexSectorWrite_iff {u8Page u8WordNumber : UInt8}
    : Balanced (ePRG_IndexSectorWrite env psContext u8Page u8WordNumber) s
        ↔ (Confirmed env psContext u8Page u8WordNumber → Continues env s.progress →
          BOOTLOADER_CAPABILITY_INDEX_SECTOR psContext.u32BootloaderVersion = false →
          Loadable env psContext → env.indexSectorWrite = .ok) := by
  have hwrite : ∀ {t : Session}, (∃ t', Returns (check env.indexSectorWrite "writing index sector") t
      () t') ↔ env.indexSectorWrite = .ok := by
    intro t
    simp only [returns_check, exists_and_left, exists_eq, and_true]
  unfold ePRG_IndexSectorWrite
  rw [balanced_check_iff (preserves_confirmWord (frame_counts _ _)) returns_confirmWord,
    balanced_check_iff (preserves_reportProgress (frame_counts _ _)) returns_reportProgress,
    balanced_withExtension_iff fun _ _ => preserves_check (frame_counts _ _),
    never_fails_iff (preserves_check frame_returned), hwrite]
  exact Iff.rfl

/--
Each of the operations is balanced exactly if, once it has loaded the extension, nothing fails and the
user does not stop it before it leaves the extension.
-/
theorem balanced_iff (env : Env) (psContext : Context) (s : Session)
    : (∀ eErase, Balanced (ePRG_EepromErase env psContext eErase) s
        ↔ (eErase ≠ .none → EepromByExtension env psContext →
          Continues env s.progress ∧ env.eepromErase (decide (eErase = .all)) = .ok))
      ∧ (∀ pcDumpFile, (∀ passes, Balanced (ePRG_EepromDump env psContext pcDumpFile passes) s)
        ↔ (env.open' = true → EepromByExtension env psContext → DumpGoes env psContext s))
      ∧ (∀ pcLoadFile, (∀ passes, Balanced (ePRG_EepromProgram env psContext pcLoadFile passes) s)
        ↔ (env.open' = true ∧ env.fstat = true → FileFits psContext s →
          EepromByExtension env psContext → ProgramGoes env psContext s))
      ∧ ∀ u8Page u8WordNumber, Balanced (ePRG_IndexSectorWrite env psContext u8Page u8WordNumber) s
        ↔ (Confirmed env psContext u8Page u8WordNumber → Continues env s.progress →
          BOOTLOADER_CAPABILITY_INDEX_SECTOR psContext.u32BootloaderVersion = false →
          Loadable env psContext → env.indexSectorWrite = .ok) :=
  ⟨fun _ => balanced_erase_iff, fun _ => balanced_dump_iff, fun _ => balanced_program_iff,
    fun _ _ => balanced_indexSectorWrite_iff⟩

/--
Everything the device is asked for in the extension fails.
-/
def brokenEnv : Env :=
  { smallEnv with
    eepromErase := fun _ => .commsFailed
    eepromRead := fun _ => .commsFailed
    eepromWrite := fun _ => .commsFailed
    indexSectorWrite := .commsFailed }

def staysInExtension (s : Session) : EStateM.Result Stop Session Unit → Bool
  | .error (.returned _) s' => s'.loads + s.returns ≠ s'.returns + s.loads
  | _ => false

theorem not_balanced_of_stays {x : Prg Unit} {s : Session}
    (h : staysInExtension s (x.run s) = true) : ¬Balanced x s := by
  intro hbalanced
  cases hrun : x.run s with
  | ok u s' =>
    rw [hrun] at h
    cases h
  | error e s' =>
    rw [hrun] at h
    cases e with
    | running => cases h
    | returned failure => exact of_decide_eq_true h (hbalanced.failure failure s' hrun)

theorem broken_not_balanced
    : ¬Balanced (ePRG_EepromErase brokenEnv smallContext .pdm) smallSession
      ∧ ¬Balanced (ePRG_EepromDump brokenEnv smallContext "eeprom.bin" 1) smallSession
      ∧ ¬Balanced (ePRG_EepromProgram brokenEnv smallContext "eeprom.bin" 1)
        { smallSession with file := [1] }
      ∧ ¬Balanced (ePRG_IndexSectorWrite brokenEnv smallContext 0 0) smallSession := by
  refine ⟨not_balanced_of_stays ?_, not_balanced_of_stays ?_, not_balanced_of_stays ?_,
    not_balanced_of_stays ?_⟩
  . decide
  . decide
  . decide
  . decide

end Conditions

end Eeprom

end JnFlasher
