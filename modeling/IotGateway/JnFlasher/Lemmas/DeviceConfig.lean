import IotGateway.JnFlasher.Impl.DeviceConfig
import IotGateway.Lib.Fallible

/-!
This module contains when a device configuration that fails leaves the index sector as it was.
-/

namespace JnFlasher

open Fallible

theorem checks_refuse {test : Prop} [Decidable test] {eStatus : Status} {text : String}
    {r : IndexRun}
    : Checks (refuse test eStatus text) r (¬test) () r := by
  unfold refuse
  by_cases h : test
  . rw [if_pos h]
    exact checks_throw.congr ⟨False.elim, fun hnot => hnot h⟩
  . rw [if_neg h]
    exact checks_pure.congr ⟨fun _ => h, fun _ => trivial⟩

theorem checks_checkStatus {eStatus : Status} {text : String} {r : IndexRun}
    : Checks (checkStatus eStatus text) r (eStatus = .ok) () r :=
  checks_refuse.congr Decidable.not_not

section

variable {psContext : IndexContext} {attempt : Attempt} {r : IndexRun}

theorem checks_memoryRead {u32Address : UInt32}
    : Checks (eBL_MemoryRead attempt u32Address) r (attempt.read = .ok) (r.sector u32Address)
        r := by
  unfold eBL_MemoryRead
  refine Checks.congr
    (Checks.bind checks_checkStatus (Checks.bind checks_get checks_pure)) ?_
  simp only [and_true]

/--
The flash programmer extension is there and can be loaded.
-/
def Loads (psContext : IndexContext) (attempt : Attempt) : Prop :=
  psContext.pu8FlashProgrammerExtensionStart ≠ 0
    ∧ psContext.u32FlashProgrammerExtensionLength ≠ 0
    ∧ attempt.fwGetInfo = .ok ∧ attempt.memoryLoadExecute = .ok

theorem checks_extensionLoad {pcOperation : String}
    : Checks (ePRG_FlashProgrammerExtensionLoad psContext attempt pcOperation) r
        (Loads psContext attempt) () r := by
  unfold ePRG_FlashProgrammerExtensionLoad
  refine Checks.congr
    (Checks.bind checks_refuse (Checks.bind checks_checkStatus checks_checkStatus)) ?_
  rw [not_or, and_assoc]
  rfl

def Unloads (psContext : IndexContext) (attempt : Attempt) : Prop :=
  attempt.memoryExecute = .ok
    ∧ (CHIP_ID_PART psContext.sChipDetails.u32ChipId ≠ CHIP_ID_PART CHIP_ID_JN5172
        → attempt.setDefaultBaudRate = .ok ∧ attempt.setBaudRate = .ok)

theorem checks_extensionReturn
    : Checks (ePRG_FlashProgrammerExtensionReturn psContext attempt) r
        (Unloads psContext attempt) () r :=
  checks_checkStatus.bind (Checks.ite fun _ => checks_checkStatus.bind checks_checkStatus)

/--
What the device holds after it has been asked to write a word.
-/
def afterWrite (attempt : Attempt) (u32Address : UInt32) (au32Data : IndexWord) (r : IndexRun)
    : IndexRun :=
  if attempt.programs then programWord u32Address au32Data r else r

theorem checks_indexSectorWrite {u8Page u8Word : UInt8} {au32Data : IndexWord}
    : Checks (eBL_IndexSectorWrite attempt u8Page u8Word au32Data) r (attempt.write = .ok) ()
        (afterWrite attempt (u32PRG_JN516x_index_sector_address u8Page u8Word) au32Data r) :=
  Checks.modify_bind checks_checkStatus

theorem checks_ifExtensionNeeded {x : IndexPrg Unit} {p : Prop} (h : Checks x r p () r)
    : Checks (ifExtensionNeeded psContext x) r
        (¬BOOTLOADER_CAPABILITY_INDEX_SECTOR psContext.sChipDetails.u32BootloaderVersion → p) ()
        r := by
  unfold ifExtensionNeeded
  split
  . next hcap => exact checks_pure.congr ⟨fun _ hnot => absurd hcap hnot, fun _ => trivial⟩
  . next hcap => exact h.congr ⟨fun hp _ => hp, fun hp => hp hcap⟩

/--
The device is asked to write the word: nothing before that fails.
-/
structure Sent (psContext : IndexContext) (attempt : Attempt)
    (cbConfirm : Option (String → String → Status)) (word : IndexWord) : Prop where
  chip : hasIndexSector psContext.sChipDetails
  read : attempt.read = .ok
  blank : word = blankWord
  confirmed : ∃ cb, cbConfirm = some cb ∧ cb cbConfirmTitle cbConfirmText = .ok
  progress : attempt.progress.getD .ok = .ok
  loads :
    ¬BOOTLOADER_CAPABILITY_INDEX_SECTOR psContext.sChipDetails.u32BootloaderVersion
      → Loads psContext attempt

/--
Nothing fails from the answer of the device on.
-/
structure Completes (psContext : IndexContext) (attempt : Attempt) : Prop where
  write : attempt.write = .ok
  unloads :
    ¬BOOTLOADER_CAPABILITY_INDEX_SECTOR psContext.sChipDetails.u32BootloaderVersion
      → Unloads psContext attempt

variable {u8Page u8Word : UInt8} {au32Data : IndexWord}

theorem commits_writeConfirmed {cb : String → String → Status}
    (hchip : hasIndexSector psContext.sChipDetails)
    : Commits (writeConfirmed psContext attempt u8Page u8Word au32Data cb) r
        (Sent psContext attempt (some cb)
          (r.sector (u32PRG_JN516x_index_sector_address u8Page u8Word))) ()
        (Completes psContext attempt)
        (afterWrite attempt (u32PRG_JN516x_index_sector_address u8Page u8Word) au32Data r) := by
  have hend : Checks
      (do eBL_IndexSectorWrite attempt u8Page u8Word au32Data
          ifExtensionNeeded psContext (ePRG_FlashProgrammerExtensionReturn psContext attempt)) r
      (Completes psContext attempt) ()
      (afterWrite attempt (u32PRG_JN516x_index_sector_address u8Page u8Word) au32Data r) :=
    (Checks.bind checks_indexSectorWrite (checks_ifExtensionNeeded checks_extensionReturn)).congr
      ⟨fun h => ⟨h.1, h.2⟩, fun h => ⟨h.write, h.unloads⟩⟩
  refine Commits.congr
    (Checks.bind_commits checks_memoryRead
      (Checks.bind_commits checks_refuse
        (Checks.bind_commits checks_refuse
          (Checks.bind_commits checks_refuse
            (Checks.bind_commits (checks_ifExtensionNeeded checks_extensionLoad)
              hend.commits))))) ?_
  simp only [ne_eq, Decidable.not_not, and_true]
  constructor
  . rintro ⟨hread, hblank, hconfirm, hprogress, hloads⟩
    exact ⟨hchip, hread, hblank, ⟨cb, rfl, hconfirm⟩, hprogress, hloads⟩
  . rintro ⟨-, hread, hblank, ⟨cb', heq, hconfirm⟩, hprogress, hloads⟩
    cases heq
    exact ⟨hread, hblank, hconfirm, hprogress, hloads⟩

theorem commits_indexSectorWrite {cbConfirm : Option (String → String → Status)}
    : Commits (ePRG_IndexSectorWrite psContext attempt u8Page u8Word au32Data cbConfirm) r
        (Sent psContext attempt cbConfirm
          (r.sector (u32PRG_JN516x_index_sector_address u8Page u8Word))) ()
        (Completes psContext attempt)
        (afterWrite attempt (u32PRG_JN516x_index_sector_address u8Page u8Word) au32Data r) := by
  unfold ePRG_IndexSectorWrite
  by_cases hchip : hasIndexSector psContext.sChipDetails
  . cases cbConfirm with
    | none =>
      have hnone : Checks (refuse True .aborted "") r False () r :=
        checks_refuse.congr ⟨fun h => h trivial, False.elim⟩
      refine Commits.congr (Checks.bind_commits checks_refuse hnone.commits_of_false) ?_
      constructor
      . rintro ⟨-, ⟨⟩⟩
      . rintro ⟨-, -, -, ⟨cb, heq, -⟩, -, -⟩
        cases heq
    | some cb =>
      refine Commits.congr (Checks.bind_commits checks_refuse (commits_writeConfirmed hchip)) ?_
      constructor
      . rintro ⟨-, h⟩
        exact h
      . intro h
        exact ⟨fun hnot => hnot hchip, h⟩
  . have hrefuse : Checks (refuse (¬hasIndexSector psContext.sChipDetails) .unsupportedChip "") r
        False () r :=
      checks_refuse.congr ⟨fun h => h hchip, False.elim⟩
    exact hrefuse.bind_of_false.commits_of_false.congr ⟨False.elim, fun h => hchip h.chip⟩

end

theorem and_ones {n : UInt32} : 0xFFFFFFFF &&& n = n := by
  rw [← UInt32.toNat_inj, UInt32.toNat_and, Nat.and_comm]
  exact Nat.and_two_pow_sub_one_of_lt_two_pow n.toNat_lt

theorem and_blankWord {au32Data : IndexWord}
    : Vector.zipWith (· &&& ·) blankWord au32Data = au32Data := by
  ext i hi
  rw [Vector.getElem_zipWith, blankWord, Vector.getElem_replicate, and_ones]

theorem copies_eq_blankWord {u32DeviceConfig : UInt32}
    : copies u32DeviceConfig = blankWord ↔ u32DeviceConfig = 0xFFFFFFFF := by
  unfold copies blankWord
  rw [Vector.replicate_inj]
  constructor
  . rintro (h | h)
    . cases h
    . exact h
  . intro h
    exact Or.inr h

section

variable {attempt : Attempt} {u32Address : UInt32} {au32Data : IndexWord} {r : IndexRun}

theorem afterWrite_of_ne {u32Address' : UInt32} (h : u32Address' ≠ u32Address)
    : (afterWrite attempt u32Address au32Data r).sector u32Address' = r.sector u32Address' := by
  unfold afterWrite
  split
  . exact Function.update_of_ne h _ _
  . rfl

/--
Writing a blank word.
-/
theorem afterWrite_blank (h : r.sector u32Address = blankWord)
    : (afterWrite attempt u32Address au32Data r).sector u32Address
        = if attempt.programs then au32Data else blankWord := by
  unfold afterWrite
  split
  . simp only [programWord, Function.update_self, h, and_blankWord]
  . exact h

theorem afterWrite_sector_eq (h : r.sector u32Address = blankWord)
    : (afterWrite attempt u32Address au32Data r).sector = r.sector
        ↔ (attempt.programs → au32Data = blankWord) := by
  constructor
  . intro heq hprograms
    have hword := congrFun heq u32Address
    rw [afterWrite_blank h, if_pos hprograms, h] at hword
    exact hword
  . intro hdata
    funext u32Address'
    by_cases hne : u32Address' = u32Address
    . rw [hne, afterWrite_blank h, h]
      split
      . next hprograms => exact hdata hprograms
      . rfl
    . exact afterWrite_of_ne hne

end

section

variable {env : IndexEnv} {psContext : IndexContext} {psDeviceConfig : DeviceConfig} {r : IndexRun}

def afterIP2111 (env : IndexEnv) (r : IndexRun) : IndexRun :=
  afterWrite env.ip2111 JN516X_INDEX_SECTOR_IP2111_CONFIG_ADDRESS (copies 0xFFFFFFF0) r

def afterCustomer (env : IndexEnv) (psDeviceConfig : DeviceConfig) (r : IndexRun) : IndexRun :=
  afterWrite env.customer JN516X_INDEX_SECTOR_CUSTOMER_CONFIG_ADDRESS
    (copies (customerConfig psDeviceConfig)) r

theorem afterIP2111_customer (env : IndexEnv) (r : IndexRun)
    : (afterIP2111 env r).sector JN516X_INDEX_SECTOR_CUSTOMER_CONFIG_ADDRESS
        = r.sector JN516X_INDEX_SECTOR_CUSTOMER_CONFIG_ADDRESS :=
  afterWrite_of_ne (by decide)

theorem afterIP2111_sector_eq
    (hblank : r.sector JN516X_INDEX_SECTOR_IP2111_CONFIG_ADDRESS = blankWord)
    : (afterIP2111 env r).sector = r.sector ↔ ¬env.ip2111.programs := by
  unfold afterIP2111
  rw [afterWrite_sector_eq hblank, copies_eq_blankWord]
  constructor
  . intro h hprograms
    exact absurd (h hprograms) (by decide)
  . intro h hprograms
    exact absurd hprograms h

theorem afterCustomer_sector_eq
    (hblank : r.sector JN516X_INDEX_SECTOR_CUSTOMER_CONFIG_ADDRESS = blankWord)
    : (afterCustomer env psDeviceConfig r).sector = r.sector
        ↔ (env.customer.programs → customerConfig psDeviceConfig = 0xFFFFFFFF) := by
  unfold afterCustomer
  rw [afterWrite_sector_eq hblank, copies_eq_blankWord]

theorem afterBoth_sector_eq
    (hip2111 : r.sector JN516X_INDEX_SECTOR_IP2111_CONFIG_ADDRESS = blankWord)
    (hcustomer : r.sector JN516X_INDEX_SECTOR_CUSTOMER_CONFIG_ADDRESS = blankWord)
    : (afterCustomer env psDeviceConfig (afterIP2111 env r)).sector = r.sector
        ↔ ¬env.ip2111.programs
            ∧ (env.customer.programs → customerConfig psDeviceConfig = 0xFFFFFFFF) := by
  have hcustomer' := (afterIP2111_customer env r).trans hcustomer
  constructor
  . intro heq
    have hfirst : (afterIP2111 env r).sector = r.sector := by
      funext u32Address
      by_cases hne : u32Address = JN516X_INDEX_SECTOR_CUSTOMER_CONFIG_ADDRESS
      . rw [hne]
        exact afterIP2111_customer env r
      . exact (afterWrite_of_ne hne).symm.trans (congrFun heq u32Address)
    rw [← hfirst] at heq
    constructor
    . exact (afterIP2111_sector_eq hip2111).mp hfirst
    . exact (afterCustomer_sector_eq hcustomer').mp heq
  . rintro ⟨hprograms, hconfig⟩
    rw [(afterCustomer_sector_eq hcustomer').mpr hconfig, afterIP2111_sector_eq hip2111]
    exact hprograms

/--
A failure after the first word that is changed is the defect.
-/
def NoFailureAfterChange (env : IndexEnv) (psContext : IndexContext) (psDeviceConfig : DeviceConfig)
    (sector : UInt32 → IndexWord) : Prop :=
  let ip2111 := sector JN516X_INDEX_SECTOR_IP2111_CONFIG_ADDRESS
  let customer := sector JN516X_INDEX_SECTOR_CUSTOMER_CONFIG_ADDRESS
  if setsIP2111 psDeviceConfig then
    (Sent psContext env.ip2111 env.cbConfirm ip2111 → env.ip2111.programs →
      Completes psContext env.ip2111
        ∧ Sent psContext env.customer (some ePRG_ConfirmAlways) customer
        ∧ Completes psContext env.customer)
      ∧ (Sent psContext env.ip2111 env.cbConfirm ip2111 → Completes psContext env.ip2111 →
          Sent psContext env.customer (some ePRG_ConfirmAlways) customer →
          env.customer.programs → customerConfig psDeviceConfig ≠ 0xFFFFFFFF →
          Completes psContext env.customer)
  else
    Sent psContext env.customer env.cbConfirm customer → env.customer.programs →
      customerConfig psDeviceConfig ≠ 0xFFFFFFFF → Completes psContext env.customer

theorem commits_writeIP2111Config
    : Commits (writeIP2111Config env psContext) r
        (Sent psContext env.ip2111 env.cbConfirm
          (r.sector JN516X_INDEX_SECTOR_IP2111_CONFIG_ADDRESS)) ()
        (Completes psContext env.ip2111) (afterIP2111 env r) :=
  commits_indexSectorWrite

theorem commits_writeCustomerConfig {cbConfirm : Option (String → String → Status)}
    : Commits (writeCustomerConfig env psContext psDeviceConfig cbConfirm) r
        (Sent psContext env.customer cbConfirm
          (r.sector JN516X_INDEX_SECTOR_CUSTOMER_CONFIG_ADDRESS)) ()
        (Completes psContext env.customer) (afterCustomer env psDeviceConfig r) :=
  commits_indexSectorWrite

theorem deviceConfigSet_atomic_iff
    : Atomic IndexRun.sector (ePRG_DeviceConfigSet env psContext psDeviceConfig) r
        ↔ NoFailureAfterChange env psContext psDeviceConfig r.sector := by
  unfold ePRG_DeviceConfigSet NoFailureAfterChange
  rw [atomic_bind_modify]
  unfold writeDeviceConfig
  rw [checks_refuse.atomic_bind_iff]
  split
  . have hcustomer : Commits
        (writeCustomerConfig env psContext psDeviceConfig (some ePRG_ConfirmAlways))
        (afterIP2111 env r)
        (Sent psContext env.customer (some ePRG_ConfirmAlways)
          ((afterIP2111 env r).sector JN516X_INDEX_SECTOR_CUSTOMER_CONFIG_ADDRESS)) ()
        (Completes psContext env.customer)
        (afterCustomer env psDeviceConfig (afterIP2111 env r)) :=
      commits_writeCustomerConfig
    rw [afterIP2111_customer] at hcustomer
    rw [commits_writeIP2111Config.atomic_bind_iff hcustomer]
    by_cases hip2111 : Sent psContext env.ip2111 env.cbConfirm
        (r.sector JN516X_INDEX_SECTOR_IP2111_CONFIG_ADDRESS)
    . rw [afterIP2111_sector_eq hip2111.blank]
      by_cases hsecond : Sent psContext env.customer (some ePRG_ConfirmAlways)
          (r.sector JN516X_INDEX_SECTOR_CUSTOMER_CONFIG_ADDRESS)
      . rw [afterBoth_sector_eq hip2111.blank hsecond.blank]
        have hchip := hip2111.chip
        grind
      . have hchip := hip2111.chip
        grind
    . grind
  . rw [commits_writeCustomerConfig.atomic_iff]
    by_cases hsent : Sent psContext env.customer env.cbConfirm
        (r.sector JN516X_INDEX_SECTOR_CUSTOMER_CONFIG_ADDRESS)
    . rw [afterCustomer_sector_eq hsent.blank]
      have hchip := hsent.chip
      grind
    . grind

theorem afterWrite_sDeviceConfig {attempt : Attempt} {u32Address : UInt32} {au32Data : IndexWord}
    : (afterWrite attempt u32Address au32Data r).sDeviceConfig = r.sDeviceConfig := by
  unfold afterWrite
  split
  . rfl
  . rfl

/--
What the programmer itself knows of the configuration changes with a success only.
-/
theorem sDeviceConfig_atomic
    : Atomic IndexRun.sDeviceConfig (ePRG_DeviceConfigSet env psContext psDeviceConfig) r := by
  unfold ePRG_DeviceConfigSet
  rw [atomic_bind_modify]
  unfold writeDeviceConfig
  rw [checks_refuse.atomic_bind_iff]
  intro _
  split
  . rw [commits_writeIP2111Config.atomic_bind_iff commits_writeCustomerConfig]
    constructor
    . intro _ _
      exact afterWrite_sDeviceConfig
    . intro _ _ _ _
      exact afterWrite_sDeviceConfig.trans afterWrite_sDeviceConfig
  . rw [commits_writeCustomerConfig.atomic_iff]
    intro _ _
    exact afterWrite_sDeviceConfig

end

/--
Every request is carried out, and answered.
-/
def answered : Attempt where
  read := .ok
  progress := none
  fwGetInfo := .ok
  memoryLoadExecute := .ok
  write := .ok
  programs := true
  memoryExecute := .ok
  setDefaultBaudRate := .ok
  setBaudRate := .ok

def defaultConfig : DeviceConfig := DeviceConfig.mk .default .default .default .default .default

def jn5168 : IndexContext where
  sFirmwareInfo := FWInfo.mk 0 0 0 false
  sChipDetails := ChipDetails.mk CHIP_ID_JN5168 0 0 0x01000000 (Vector.replicate 8 0)
  sDeviceConfig := defaultConfig
  u32FlashOffset := 0
  pu8FlashProgrammerExtensionStart := 0
  u32FlashProgrammerExtensionLength := 0

/--
A device with customer settings: the IP2111 configuration is written before they are looked at.
-/
def customerSet : IndexRun where
  sector u32Address :=
    if u32Address = JN516X_INDEX_SECTOR_CUSTOMER_CONFIG_ADDRESS then
      copies 0xFFFFFFEF
    else
      blankWord
  sDeviceConfig := defaultConfig

theorem deviceConfigSet_not_atomic
    : ¬Atomic IndexRun.sector
        (ePRG_DeviceConfigSet (IndexEnv.mk (some ePRG_ConfirmAlways) answered answered) jn5168
          { defaultConfig with eJtag := .disable }) customerSet := by
  intro hatomic
  have hsector := hatomic
    (Failure.mk .error "one time programmable data has already been set in this device")
    (afterWrite answered JN516X_INDEX_SECTOR_IP2111_CONFIG_ADDRESS (copies 0xFFFFFFF0) customerSet)
    rfl
  have hblank := (afterWrite_sector_eq rfl).mp hsector rfl
  exact absurd (copies_eq_blankWord.mp hblank) (by decide)

end JnFlasher
