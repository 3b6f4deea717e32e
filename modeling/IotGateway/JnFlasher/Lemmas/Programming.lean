import IotGateway.JnFlasher.Lemmas.BootLoader
import IotGateway.JnFlasher.Lemmas.Flash
import IotGateway.JnFlasher.Lemmas.Line

/-!
This module says what is in the flash of the device after an image has been programmed over the
serial line.
-/

namespace JnFlasher

namespace Line

open BootLoader Fallible Machine

/--
The device has done what has been requested.
-/
def Granted (r : Response) (eExpectedRxType : UInt8) : Prop :=
  r.eResponse = E_BL_RESPONSE_OK ∧ r.eType = eExpectedRxType

/--
What the device does with its flash if it grants a request. It can only write to what is blank.
-/
structure Programs {σ : Type} (answer : σ → UInt8 → List UInt8 → σ × Response)
    (flash : σ → Nat → UInt8) : Prop where
  erase : ∀ s, Granted (answer s E_BL_MSG_TYPE_FLASH_ERASE_REQUEST []).2
      E_BL_MSG_TYPE_FLASH_ERASE_RESPONSE →
    flash (answer s E_BL_MSG_TYPE_FLASH_ERASE_REQUEST []).1 = fun _ => 0xFF
  program : ∀ s u32Address data,
    Granted (answer s E_BL_MSG_TYPE_FLASH_PROGRAM_REQUEST (littleEndian u32Address ++ data)).2
      E_BL_MSG_TYPE_FLASH_PROGRAM_RESPONSE →
    (∀ i < data.length, flash s (u32Address.toNat + i) = 0xFF) →
    flash (answer s E_BL_MSG_TYPE_FLASH_PROGRAM_REQUEST (littleEndian u32Address ++ data)).1
      = Tiles.put (flash s) u32Address.toNat data
  read : ∀ s payload, flash (answer s E_BL_MSG_TYPE_FLASH_READ_REQUEST payload).1 = flash s

/--
A request to write, and its status.
-/
def writeFlash {σ : Type} (world : World σ) (s : State σ) (w : FlashWrite)
    : State σ × List Status :=
  let (eStatus, s) := eBL_FlashWrite world w.u32Address w.data s
  (s, [eStatus])

/--
The flash is blank before it is written if it can be read.
-/
def checksBlank (psContext : Context) : Bool :=
  psContext.sDeviceConfig.eCRP = .default ∨ psContext.sDeviceConfig.eCRP = .level0

/--
The statuses that the programmer sees are those of its requests over the line: the flash is erased
and checked, and then the requests to write are made in order. The result is the line behind them.
-/
structure Drives {σ : Type} (world : World σ) (psContext : Context) (env : Env) (r : Run)
    (writes : List FlashWrite) (s s' : State σ) : Prop where
  erase : (eBL_FlashErase world s).1 = env.erase
  blank : ∃ t,
    (if checksBlank psContext then
      (eBL_FlashRead world 0 64 (eBL_FlashErase world s).2).1.1 = env.read r.reads
        ∧ t = (eBL_FlashRead world 0 64 (eBL_FlashErase world s).2).2
    else
      t = (eBL_FlashErase world s).2)
    ∧ trace (writeFlash world) t writes
      = (List.range writes.length).map (fun i => env.write (r.writes.length + i))
    ∧ s' = exec (writeFlash world) t writes

section Requests

variable {σ : Type} {world : World σ} {answer : σ → UInt8 → List UInt8 → σ × Response}
  {flash : σ → Nat → UInt8} {eTxType eExpectedRxType : UInt8}

/--
A request whose reply is accepted has been answered by the device.
-/
theorem request_ok (hspeaks : Speaks world answer) {s : State σ} {q : Request} (hfits : q.Fits)
    (hreceived : s.received = []) {reply : Reply} {s' : State σ}
    (hrequest : eBL_Request world q.eTxType q.pu8Header q.pu8TxData s = (reply, s'))
    (h : eBL_CheckResponse reply.eResponse reply.eRxType eExpectedRxType = .ok)
    : AtRest s' (answer s.device q.eTxType q.payload).1
      ∧ Granted (answer s.device q.eTxType q.payload).2 eExpectedRxType := by
  have hresponse := checkResponse_ok h
  have hexchange : exchange world s q = (s', [reply]) := by
    unfold exchange
    rw [hrequest]
  by_cases hgood : inTime world answer s q
  . obtain ⟨hout, hrest⟩ := exchange_inTime hspeaks hfits hreceived hgood
    rw [hexchange] at hout hrest
    obtain rfl : reply = (answer s.device q.eTxType q.payload).2.reply := List.singleton_inj.mp hout
    refine ⟨hrest, hresponse, ?_⟩
    rw [eBL_CheckResponse, if_pos hresponse] at h
    by_contra htype
    have hdiffers : (answer s.device q.eTxType q.payload).2.reply.eRxType ≠ eExpectedRxType := htype
    rw [if_pos hdiffers] at h
    cases h
  . have hout := exchange_late hspeaks hfits hreceived hgood
    rw [hexchange] at hout
    rcases hout with hout | hout
    . obtain rfl := List.singleton_inj.mp hout
      cases hresponse
    . obtain rfl := List.singleton_inj.mp hout
      cases hresponse

theorem command_ok (hspeaks : Speaks world answer) {s : State σ} {pu8Header pu8TxData : List UInt8}
    (hfits : (pu8Header ++ pu8TxData).length < 0xfe) (hreceived : s.received = [])
    (h : (command world eTxType eExpectedRxType pu8Header pu8TxData s).1 = .ok)
    : AtRest (command world eTxType eExpectedRxType pu8Header pu8TxData s).2
        (answer s.device eTxType (pu8Header ++ pu8TxData)).1
      ∧ Granted (answer s.device eTxType (pu8Header ++ pu8TxData)).2 eExpectedRxType :=
  request_ok hspeaks (q := { eTxType, pu8Header, pu8TxData }) hfits hreceived rfl h

theorem readAt_ok (hspeaks : Speaks world answer) {s : State σ} (hreceived : s.received = [])
    {u32Address : UInt32} {u8Length : UInt8}
    (h : (readAt world eTxType eExpectedRxType u32Address u8Length s).1.1 = .ok)
    : AtRest (readAt world eTxType eExpectedRxType u32Address u8Length s).2
        (answer s.device eTxType (readCommand u32Address u8Length)).1 := by
  unfold readAt at h ⊢
  split at h
  . cases h
  . next hshort =>
    rw [if_neg hshort]
    simp only [bind, StateT.bind] at h ⊢
    rcases hrequest : eBL_Request world eTxType (readCommand u32Address u8Length) [] s
      with ⟨reply, s'⟩
    rw [hrequest] at h
    simp only at h ⊢
    split at h
    . cases h
    . next hlength =>
      rw [if_neg hlength]
      have hfits : (readCommand u32Address u8Length ++ []).length < 0xfe :=
        Nat.lt_of_sub_eq_succ rfl
      have hanswered := request_ok hspeaks
        (q := { eTxType, pu8Header := readCommand u32Address u8Length }) hfits hreceived hrequest h
      rw [Request.payload, List.append_nil] at hanswered
      exact hanswered.1

theorem flashErase_ok (hspeaks : Speaks world answer) (hflash : Programs answer flash) {s : State σ}
    (hreceived : s.received = []) (h : (eBL_FlashErase world s).1 = .ok)
    : ∃ device, AtRest (eBL_FlashErase world s).2 device ∧ flash device = fun _ => 0xFF := by
  obtain ⟨hrest, hgranted⟩ := command_ok hspeaks (Nat.zero_lt_succ _ : (([] : List UInt8) ++ []).length < 0xfe)
    hreceived h
  exact ⟨_, hrest, hflash.erase s.device hgranted⟩

/--
A write of at most 249 bytes that ends well puts its bytes where the flash has been blank.
-/
theorem writeFlash_ok (hspeaks : Speaks world answer) (hflash : Programs answer flash) {s : State σ}
    {device : σ} {w : FlashWrite} (hrest : AtRest s device) (hlength : w.data.length ≤ 249)
    (hblank : ∀ i < w.data.length, flash device (w.u32Address.toNat + i) = 0xFF)
    (h : (writeFlash world s w).2 = [.ok])
    : ∃ device', AtRest (writeFlash world s w).1 device'
        ∧ flash device' = Tiles.put (flash device) w.u32Address.toNat w.data := by
  obtain ⟨rfl, hreceived⟩ := hrest
  have hshort : ¬w.data.length > 0xfc := by omega
  have hfits : (littleEndian w.u32Address ++ w.data).length < 0xfe := by
    have hfour : (littleEndian w.u32Address).length = 4 := rfl
    rw [List.length_append, hfour]
    omega
  have hwrite : eBL_FlashWrite world w.u32Address w.data
      = command world E_BL_MSG_TYPE_FLASH_PROGRAM_REQUEST E_BL_MSG_TYPE_FLASH_PROGRAM_RESPONSE
          (littleEndian w.u32Address) w.data := by
    rw [eBL_FlashWrite, writeAt, if_neg hshort]
  unfold writeFlash at h ⊢
  rw [hwrite] at h ⊢
  obtain ⟨hrest, hgranted⟩ := command_ok hspeaks hfits hreceived (List.singleton_inj.mp h)
  exact ⟨_, hrest, hflash.program s.device w.u32Address w.data hgranted hblank⟩

/--
Requests that lay out the values one after the other put them into the flash.
-/
theorem writeFlash_run (hspeaks : Speaks world answer) (hflash : Programs answer flash) {a : Nat}
    {values : List UInt8} {writes : List FlashWrite} {s : State σ} {device : σ}
    (htiles : Tiles 128 a values (writes.map FlashWrite.placed)) (hrest : AtRest s device)
    (hblank : ∀ x, a ≤ x → x < a + values.length → flash device x = 0xFF)
    (h : ∀ eStatus ∈ trace (writeFlash world) s writes, eStatus = .ok)
    : ∃ device', AtRest (exec (writeFlash world) s writes) device'
        ∧ flash device' = Tiles.put (flash device) a values := by
  induction writes generalizing a values s device with
  | nil =>
    cases htiles
    refine ⟨device, hrest, ?_⟩
    funext x
    simp [Tiles.put]
  | cons w writes ih =>
    rw [List.map_cons] at htiles
    obtain ⟨address, data⟩ := w
    cases htiles with
    | @cons _ _ values _ hpos hle htail =>
      rw [trace_cons] at h
      have hfirst : (writeFlash world s ⟨address, data⟩).2 = [.ok] := by
        have hone := h _ (List.mem_append_left _ List.mem_cons_self)
        exact congrArg (fun eStatus => [eStatus]) hone
      rw [List.length_append] at hblank
      obtain ⟨next, hrest', hnext⟩ := writeFlash_ok hspeaks hflash hrest
        (Nat.le_trans hle (by decide)) (fun i hi => hblank _ (Nat.le_add_right _ _) (by omega))
        hfirst
      obtain ⟨device', hlast, hput⟩ := ih htail hrest' (fun x hax hxb => by
        rw [hnext, Tiles.put_of_outside (.inr hax)]
        exact hblank x (by omega) (by omega)) fun eStatus hstatus =>
          h eStatus (List.mem_append_right _ hstatus)
      refine ⟨device', hlast, ?_⟩
      rw [hput, hnext, Tiles.put_append]

end Requests

section Programmer

variable {env : Env} {psContext : Context}

theorem erase_ok {r r' : Run} {u : Unit} (h : Returns (ePRG_FlashErase env psContext) r u r')
    : env.erase = .ok ∧ (checksBlank psContext → env.read r.reads = .ok) := by
  unfold ePRG_FlashErase at h
  simp only [returns_bind, returns_ite, returns_withInfo, returns_check, returns_reportProgress,
    returns_flashRead, returns_pure, not_returns_setStatus, false_and, and_false, exists_false,
    false_or] at h
  obtain ⟨-, t, ⟨-, rfl⟩, -, t', ⟨herase, rfl⟩, h⟩ := h
  refine ⟨herase, fun hchecks => ?_⟩
  rcases h with ⟨-, bytes, t, ⟨-, hread, -, rfl⟩, -, -, rfl⟩ | ⟨hnot, -, rfl⟩
  . exact hread
  . exact absurd (decide_eq_true_eq.mp hchecks) hnot

/--
The loop only goes on behind a request that ended well.
-/
theorem writeLoop_ok {n : UInt32} {r r' : Run} {u : Unit}
    (h : Returns (writeLoop env psContext n) r u r')
    : ∀ i, r.writes.length ≤ i → i < r'.writes.length → env.write i = .ok := by
  generalize hleft : (psContext.sFirmwareInfo.u32ImageLength - n).toNat = left
  induction left using Nat.strongRecOn generalizing n r with
  | ind left ih =>
    subst hleft
    intro i hi hlt
    rw [writeLoop] at h
    by_cases hn : n < psContext.sFirmwareInfo.u32ImageLength
    . simp only [hn, dite_true, returns_bind, returns_withInfo, returns_flashWrite,
        returns_reportProgress] at h
      obtain ⟨-, t, ⟨-, hwrite, rfl⟩, -, t', ⟨-, rfl⟩, h⟩ := h
      rcases Nat.eq_or_lt_of_le hi with rfl | hi
      . exact hwrite
      . apply ih _ (chunkSize_decreases hn) h rfl i _ hlt
        simp only [Run.afterProgress, List.length_append, List.length_singleton]
        exact hi
    . simp only [hn, dite_false, returns_pure] at h
      obtain ⟨-, rfl⟩ := h
      omega

theorem program_ok {r prepared r' : Run}
    (hwrap : psContext.u32FlashOffset.toNat + psContext.sFirmwareInfo.u32ImageLength.toNat < 2 ^ 32)
    (hsetup : Returns (ePRG_SetUpImage psContext) r () prepared)
    (h : Returns (ePRG_FlashProgram env psContext) r () r')
    : env.erase = .ok ∧ (checksBlank psContext → env.read r.reads = .ok)
      ∧ ∀ i, r.writes.length ≤ i → i < r'.writes.length → env.write i = .ok := by
  unfold ePRG_FlashProgram at h
  simp only [returns_bind, returns_withInfo, returns_reportProgress] at h
  obtain ⟨_, t, hconfirm, _, t', hsetup', _, t'', hsize, _, t₃, herase, _, t₄, ⟨-, rfl⟩, _, t₅,
    hloop, -, rfl⟩ := h
  obtain rfl := keeps_confirmImage hconfirm
  obtain rfl := (setUpImage_eq hsetup rfl).mp hsetup'
  obtain ⟨-, rfl⟩ := (returns_checkSize hwrap).mp hsize
  obtain ⟨herased, hblank⟩ := erase_ok herase
  refine ⟨herased, hblank, fun i hi hlt => ?_⟩
  apply writeLoop_ok hloop i _ hlt
  rw [show (Run.afterProgress env t₃).writes = t₃.writes from rfl, (keeps_flashErase herase).writes]
  exact hi

end Programmer

/--
When the programmer reports success on a device behind the serial line, the flash of the device
holds the image from the offset on, and is blank everywhere else.
-/
theorem flash_of_program {σ : Type} (world : World σ)
    (answer : σ → UInt8 → List UInt8 → σ × Response) (flash : σ → Nat → UInt8)
    (hspeaks : Speaks world answer) (hflash : Programs answer flash) (env : Env)
    (psContext : Context) (r prepared r' : Run) (requests : List FlashWrite)
    (hwrap : psContext.u32FlashOffset.toNat + psContext.sFirmwareInfo.u32ImageLength.toNat < 2 ^ 32)
    (hsetup : Returns (ePRG_SetUpImage psContext) r () prepared)
    (hprogram : Returns (ePRG_FlashProgram env psContext) r () r')
    (hrequests : r'.writes = r.writes ++ requests) (s s' : State σ) (hreceived : s.received = [])
    (hdrives : Drives world psContext env r requests s s')
    : flash s'.device
        = Tiles.put (fun _ => 0xFF) psContext.u32FlashOffset.toNat (psContext.image prepared.mem)
      ∧ s'.received = [] := by
  obtain ⟨requests', hwrites, htiles, -⟩ := written_of_program hwrap hsetup hprogram
  obtain rfl : requests' = requests := List.append_cancel_left (hwrites.symm.trans hrequests)
  obtain ⟨herase, hread, hwrite⟩ := program_ok hwrap hsetup hprogram
  obtain ⟨device, hrest, hblank⟩ :=
    flashErase_ok hspeaks hflash hreceived (hdrives.erase.trans herase)
  obtain ⟨t, hcheck, hstatuses, rfl⟩ := hdrives.blank
  have hstart : ∃ device', AtRest t device' ∧ flash device' = fun _ => 0xFF := by
    split at hcheck
    . next hchecks =>
      obtain ⟨hstatus, rfl⟩ := hcheck
      have hanswered := readAt_ok hspeaks hrest.2 (hstatus.trans (hread hchecks))
      refine ⟨_, hanswered, ?_⟩
      rw [hflash.read, hrest.1, hblank]
    . rw [hcheck]
      exact ⟨device, hrest, hblank⟩
  obtain ⟨device', hrest', hblank'⟩ := hstart
  have hok : ∀ eStatus ∈ trace (writeFlash world) t requests', eStatus = .ok := by
    intro eStatus hstatus
    rw [hstatuses] at hstatus
    obtain ⟨i, hi, rfl⟩ := List.mem_map.mp hstatus
    apply hwrite
    . exact Nat.le_add_right _ _
    . rw [hrequests, List.length_append]
      exact Nat.add_lt_add_left (List.mem_range.mp hi) _
  obtain ⟨last, hlast, hput⟩ := writeFlash_run hspeaks hflash htiles hrest'
    (fun x _ _ => by rw [hblank']) hok
  rw [hlast.1, hput, hblank']
  exact ⟨rfl, hlast.2⟩

theorem addressOf_littleEndian (u32Address : UInt32) (data : List UInt8)
    : addressOf (littleEndian u32Address ++ data) = u32Address.toNat := by
  have hlt := u32Address.toNat_lt
  simp only [addressOf, littleEndian, List.cons_append, List.take_succ_cons, List.take_zero,
    Packed.host, UInt32.toNat_toUInt8, UInt32.toNat_shiftRight]
  simp only [UInt32.reduceToNat, Nat.reduceMod, Nat.shiftRight_eq_div_pow, Nat.reducePow]
  omega

theorem chip_programs : Programs chip id := by
  constructor
  . intro flash _
    rfl
  . intro flash u32Address data _ hblank
    funext x
    have hones (byte : UInt8) : 0xFF &&& byte = byte := UInt8.neg_one_and
    have hother : E_BL_MSG_TYPE_FLASH_PROGRAM_REQUEST ≠ E_BL_MSG_TYPE_FLASH_ERASE_REQUEST := by
      decide
    have hdata : (littleEndian u32Address ++ data).drop 4 = data := rfl
    rw [chip, if_neg hother, if_pos rfl]
    simp only [addressOf_littleEndian, hdata, id]
    by_cases hx : u32Address.toNat ≤ x ∧ x < u32Address.toNat + data.length
    . have hi : x - u32Address.toNat < data.length := by omega
      have hblank := hblank _ hi
      rw [Nat.add_sub_cancel' hx.1, id] at hblank
      rw [Tiles.put, Tiles.put, if_pos hx.1, if_pos hx.1, hblank, UInt8.and_comm, hones]
    . rw [Tiles.put_of_outside (by omega), Tiles.put_of_outside (by omega), hones]
  . intro flash payload
    rfl

/--
The programmer after an image of 300 bytes, and the line behind the requests.
-/
def smallAfter : Run :=
  match (ePRG_FlashProgram blankEnv smallContext).run smallRun with
  | .ok _ r => r
  | .error _ r => r

def smallErased : State (Nat → UInt8) := (eBL_FlashErase chipWorld chipState).2

def smallChecked : State (Nat → UInt8) := (eBL_FlashRead chipWorld 0 64 smallErased).2

def smallProgrammed : State (Nat → UInt8) :=
  exec (writeFlash chipWorld) smallChecked smallAfter.writes

theorem flash_of_program_small
    : smallProgrammed.device
        = Tiles.put (fun _ => 0xFF) 64 (smallContext.image smallRun.mem)
      ∧ smallProgrammed.received = [] := by
  have hreturns : Returns (ePRG_FlashProgram blankEnv smallContext) smallRun () smallAfter := by
    have hok : ((ePRG_FlashProgram blankEnv smallContext).run smallRun matches .ok _ _) = true := by
      decide +kernel
    unfold Returns smallAfter
    split
    . next heq => exact heq
    . next heq =>
      rw [heq] at hok
      cases hok
  apply flash_of_program chipWorld chip id chipWorld_speaks chip_programs
    blankEnv smallContext smallRun smallRun smallAfter smallAfter.writes (by decide) rfl hreturns
    (List.nil_append _).symm chipState smallProgrammed rfl
  refine ⟨by decide +kernel, smallChecked, ?_, ?_, rfl⟩
  . rw [if_pos (by decide)]
    exact ⟨by decide +kernel, rfl⟩
  . decide +kernel

end Line

end JnFlasher
