import IotGateway.Lib.Machine
import IotGateway.NfcDaemon.Lemmas.Commission

/-!
This module says when the messages of a tag are handled once, and again after a failure.
-/

namespace NfcDaemon

open Json Machine

/--
The command that a node gets in a mode.
-/
def commandOf (nfcmode : Int) : Option UInt8 :=
  if nfcmode = NFC_MODE_DECOMMISSION then
    some COMMAND_LEAVE
  else if nfcmode = NFC_MODE_FACTORYRESET then
    some COMMAND_FACTORYNEW
  else if nfcmode = NFC_MODE_COMMISSION then
    some COMMAND_JOIN
  else
    none

/--
The command in the bytes of a message.
-/
def commandIn (message : Mem) (plen : Nat) : Option UInt8 := (bytes message 0 plen)[IN_COMMAND]?

/--
A read of a message, and what has been done for it.
-/
structure Attempt where
  nfcmode : Int
  payload : Mem
  plen : Nat
  handled : Handled

def Attempt.seqNr (a : Attempt) : UInt8 := a.payload OUT_SEQNR

/--
The command of the mode has been on the tag already, or has been written to it.
-/
def Attempt.Accomplished (a : Attempt) : Prop :=
  ∃ command ∈ commandOf a.nfcmode,
    commandIn a.payload a.plen = some command
      ∨ (a.handled.stored = true
        ∧ ∃ message ∈ a.handled.written, commandIn message a.plen = some command)

/--
What is to be done for a read if `last` is the last attempt since a tag has been there.
-/
structure Diligent (last : Option Attempt) (a : Attempt) : Prop where
  accomplished : a.handled.ret = 1 → a.Accomplished
    ∨ ∃ b ∈ last, b.seqNr = a.seqNr ∧ b.nfcmode = a.nfcmode ∧ b.Accomplished
  once : ∀ b ∈ last, b.seqNr = a.seqNr → b.nfcmode = a.nfcmode → b.handled.ret = 1 →
    a.handled.alreadyHandled = true
  again : ∀ b ∈ last, b.seqNr = a.seqNr → b.handled.ret = 0 → a.handled.alreadyHandled = false
  new : (∀ b ∈ last, b.seqNr ≠ a.seqNr) → a.handled.alreadyHandled = false

/--
The variables of the daemon with the last attempt.
-/
structure Daemon where
  commission : Commission := {}
  last : Option Attempt := none

inductive TagEvent where
  | read (env : Surroundings) (payload : Mem) (plen : Nat)
  | departure

def Commission.attempt (s : Commission) (env : Surroundings) (payload : Mem) (plen : Nat)
    : Attempt where
  nfcmode := env.nfcmode
  payload
  plen
  handled := (commissionHandleNfc env payload plen s).2

/--
A message of another version is none for the daemon. After a departure every message is a new one.
-/
def tagStep (d : Daemon) : TagEvent → Daemon × List Attempt
  | .read env payload plen =>
    let a := d.commission.attempt env payload plen
    ({ commission := (commissionHandleNfc env payload plen d.commission).1
       last :=
        if payload VERSION = COMMISSION_SUPPORTED_VERSION ∧ a.handled.alreadyHandled = false then
          some a
        else
          d.last }, [a])
  | .departure => ({ commission := commissionReset d.commission, last := none }, [])

def ReadsDiligently (d : Daemon) : TagEvent → Prop
  | .read env payload plen =>
    payload VERSION = COMMISSION_SUPPORTED_VERSION →
      Diligent d.last (d.commission.attempt env payload plen)
  | .departure => True

/--
Neither has the last attempt for the message failed in this mode, nor is the message the first one
and has the number that stands for no message at all.
-/
def Unmarked (d : Daemon) : TagEvent → Prop
  | .read env payload _ =>
    payload VERSION = COMMISSION_SUPPORTED_VERSION →
      (∀ b ∈ d.last, b.seqNr = payload OUT_SEQNR → b.nfcmode = env.nfcmode → b.handled.ret ≠ 0)
        ∧ (d.last.isNone = true → payload OUT_SEQNR = 255 →
          d.commission.prevNfcMode ≠ env.nfcmode)
  | .departure => True

instance decidableUnmarked (d : Daemon) : (e : TagEvent) → Decidable (Unmarked d e)
  | .read _ _ _ => inferInstanceAs (Decidable (_ → _ ∧ _))
  | .departure => inferInstanceAs (Decidable True)

/--
The message has a place for the command.
-/
def TagEvent.Complete : TagEvent → Prop
  | .read _ _ plen => IN_COMMAND < plen
  | .departure => True

instance decidableComplete : (e : TagEvent) → Decidable e.Complete
  | .read _ _ plen => inferInstanceAs (Decidable (IN_COMMAND < plen))
  | .departure => inferInstanceAs (Decidable True)

/--
What the variables remember.
-/
structure Remembers (d : Daemon) : Prop where
  unhandled : d.last = none → d.commission.handled_seqnr = 255
  handled : ∀ b ∈ d.last, d.commission.handled_seqnr = b.seqNr
    ∧ d.commission.prevNfcMode = b.nfcmode
  accomplished : ∀ b ∈ d.last, b.handled.ret = 0 ∨ (b.handled.ret = 1 ∧ b.Accomplished)

theorem remembers_of_none {d : Daemon} (hlast : d.last = none)
    (hseqnr : d.commission.handled_seqnr = 255)
    : Remembers d := by
  have hnone : ∀ b, b ∉ d.last := by simp [hlast]
  exact ⟨fun _ => hseqnr, fun b hb => absurd hb (hnone b), fun b hb => absurd hb (hnone b)⟩

theorem commandIn_eq {message : Mem} {plen : Nat} (hplen : IN_COMMAND < plen)
    : commandIn message plen = some (message IN_COMMAND) := by
  unfold commandIn bytes
  rw [List.getElem?_map, List.getElem?_range hplen, Option.map_some, Nat.zero_add]

/--
The outcome of a mode: the command is there, or nothing has been achieved.
-/
structure Outcome (env : Surroundings) (payload : Mem) (plen : Nat) (s : Commission)
    (r : Commission × Handled) : Prop where
  acted : r.2.alreadyHandled = false
  prevNfcMode : r.1.prevNfcMode = s.prevNfcMode
  accomplished : r.2.ret = 0
    ∨ (r.2.ret = 1 ∧ Attempt.Accomplished ⟨env.nfcmode, payload, plen, r.2⟩)

section

variable {env : Surroundings} {payload : Mem} {plen : Nat} {s : Commission}

theorem setIn_command (payload : Mem) (seqNr command : UInt8) (network : List UInt8)
    : setIn payload (commissionIn seqNr command network) IN_COMMAND = command := by
  unfold setIn memcpy
  rw [if_pos]
  . rfl
  . simp only [commissionIn, List.length_append, List.length_cons, List.length_nil,
      List.length_replicate, IN, IN_COMMAND]
    omega

theorem writeBack_accomplished {command : UInt8} {message : Mem}
    (hmode : commandOf env.nfcmode = some command) (hplen : IN_COMMAND < plen)
    (hcommand : message IN_COMMAND = command) (edit : Object)
    : let r := writeBack env message plen edit
      r.ret = 0 ∨ (r.ret = 1 ∧ Attempt.Accomplished ⟨env.nfcmode, payload, plen, r⟩) := by
  unfold writeBack
  by_cases hres : (env.ndef_write message plen).2 = 0
  . left
    simp [hres]
  . right
    refine ⟨by simp [hres], command, hmode, .inr ⟨by simp [hres], message, rfl, ?_⟩⟩
    rw [commandIn_eq hplen, hcommand]

theorem handleLeave_outcome {command : UInt8} (hmode : commandOf env.nfcmode = some command)
    (hplen : IN_COMMAND < plen)
    : Outcome env payload plen s (handleLeave command env payload plen s) := by
  unfold handleLeave
  split
  . exact ⟨rfl, rfl, writeBack_accomplished hmode hplen (setIn_command _ _ _ _) _⟩
  . next hstands =>
    refine ⟨rfl, rfl, .inr ⟨rfl, command, hmode, .inl ?_⟩⟩
    rw [commandIn_eq hplen]
    exact congrArg some (not_not.mp hstands)

theorem commission_prevNfcMode (joiner : Joiner) (secjoin : Secjoin) (s : Commission)
    : (commission joiner secjoin s).1.prevNfcMode = s.prevNfcMode := by
  unfold commission
  split
  . split <;> rfl
  . rfl

theorem handleJoin_outcome (hmode : commandOf env.nfcmode = some COMMAND_JOIN)
    (hplen : IN_COMMAND < plen)
    : Outcome env payload plen s (handleJoin env payload plen s) := by
  have hprev := commission_prevNfcMode env.joiner env.secjoin s
  unfold handleJoin
  simp only
  generalize commission env.joiner env.secjoin s = r at *
  obtain ⟨s', secjoin, success⟩ := r
  cases success with
  | true =>
    let edit := jsonDbEditAdd (hex2nibblestr (bytes payload OUT_NODEMACADDRESS LEN_MAC))
      (Int32.ofInt (getDeviceDev (payload OUT_FROM))) (getDeviceType (payload OUT_FROM))
    exact ⟨rfl, hprev, writeBack_accomplished hmode hplen (setIn_command _ _ _ _) edit⟩
  | false => exact ⟨rfl, hprev, .inl rfl⟩

theorem handleMode_outcome (env : Surroundings) (payload : Mem) (hplen : IN_COMMAND < plen)
    (s : Commission)
    : Outcome env payload plen s (handleMode env payload plen s) := by
  unfold handleMode
  split
  . next hmode => exact handleLeave_outcome (by rw [hmode]; rfl) hplen
  . split
    . next hmode => exact handleLeave_outcome (by rw [hmode]; rfl) hplen
    . split
      . next hmode => exact handleJoin_outcome (by rw [hmode]; rfl) hplen
      . exact ⟨rfl, rfl, .inl rfl⟩

theorem commissionHandleNfc_known (plen : Nat)
    (hversion : payload VERSION = COMMISSION_SUPPORTED_VERSION) (hknown : Known env payload s)
    : commissionHandleNfc env payload plen s
      = (s, { ret := 1, tag := env.tag, alreadyHandled := true }) := by
  unfold Known at hknown
  rw [commissionHandleNfc, if_pos hversion, if_pos hknown]

theorem commissionHandleNfc_new (plen : Nat)
    (hversion : payload VERSION = COMMISSION_SUPPORTED_VERSION) (hnew : ¬Known env payload s)
    : commissionHandleNfc env payload plen s
      = ({ (handleMode env payload plen { s with prevNfcMode := env.nfcmode }).1 with
            handled_seqnr := payload OUT_SEQNR },
          (handleMode env payload plen { s with prevNfcMode := env.nfcmode }).2) := by
  unfold Known at hnew
  rw [commissionHandleNfc, if_pos hversion, if_neg hnew]

theorem commissionHandleNfc_version (env : Surroundings) (plen : Nat) (s : Commission)
    (hversion : payload VERSION ≠ COMMISSION_SUPPORTED_VERSION)
    : commissionHandleNfc env payload plen s = (s, { ret := 0, tag := env.tag }) := by
  rw [commissionHandleNfc, if_neg hversion]

end

theorem tagStep_last {d : Daemon} {env : Surroundings} {payload : Mem} {plen : Nat}
    (hversion : payload VERSION = COMMISSION_SUPPORTED_VERSION)
    (hacted : (d.commission.attempt env payload plen).handled.alreadyHandled = false)
    : (tagStep d (.read env payload plen)).1.last = some (d.commission.attempt env payload plen) :=
  if_pos ⟨hversion, hacted⟩

/--
One step: what the variables remember is the last attempt.
-/
theorem Remembers.tagStep {d : Daemon} (h : Remembers d) {e : TagEvent} (hcomplete : e.Complete)
    : Remembers (tagStep d e).1 := by
  cases e with
  | read env payload plen =>
    by_cases hversion : payload VERSION = COMMISSION_SUPPORTED_VERSION
    . by_cases hknown : Known env payload d.commission
      . have hstep := commissionHandleNfc_known plen hversion hknown
        simpa [NfcDaemon.tagStep, Commission.attempt, hstep] using h
      . have hstep := commissionHandleNfc_new plen hversion hknown
        obtain ⟨hacted, hprev, haccomplished⟩ := handleMode_outcome env payload hcomplete
          { d.commission with prevNfcMode := env.nfcmode }
        simp only [NfcDaemon.tagStep, Commission.attempt, hstep, hversion, hacted, and_self,
          if_true]
        constructor
        . nofun
        . intro b hb
          obtain rfl := Option.some.inj hb
          exact ⟨rfl, hprev⟩
        . intro b hb
          obtain rfl := Option.some.inj hb
          exact haccomplished
    . have hstep := commissionHandleNfc_version env plen d.commission hversion
      simpa [NfcDaemon.tagStep, Commission.attempt, hstep, hversion] using h
  | departure => exact remembers_of_none rfl rfl

/--
One step: what the variables remember decides whether the message is handled as it should be.
-/
theorem readsDiligently_iff {d : Daemon} (h : Remembers d) {e : TagEvent} (hcomplete : e.Complete)
    : ReadsDiligently d e ↔ Unmarked d e := by
  cases e with
  | read env payload plen =>
    refine imp_congr_right fun hversion => ?_
    unfold Commission.attempt
    by_cases hknown : Known env payload d.commission
    . -- success is reported although nothing is done
      rw [commissionHandleNfc_known plen hversion hknown]
      obtain ⟨hseqnr, hmode⟩ := hknown
      cases hlast : d.last with
      | none =>
        constructor
        . intro hdiligent
          have hacted := hdiligent.new fun b hb => absurd hb (Option.not_mem_none b)
          cases hacted
        . intro hunmarked
          exact absurd hmode (hunmarked.2 rfl (by rw [hseqnr, h.unhandled hlast]))
      | some b =>
        obtain ⟨hhandled, hprev⟩ := h.handled b hlast
        have hb : b.seqNr = payload OUT_SEQNR ∧ b.nfcmode = env.nfcmode :=
          ⟨by rw [← hhandled, hseqnr], by rw [← hprev, hmode]⟩
        constructor
        . intro hdiligent
          refine ⟨?_, nofun⟩
          rintro b' hb' hseqnr' - hret
          cases hdiligent.again b' hb' hseqnr' hret
        . intro hunmarked
          have hret := hunmarked.1 b rfl hb.1 hb.2
          obtain ⟨-, haccomplished⟩ := (h.accomplished b hlast).resolve_left hret
          constructor
          . exact fun _ => .inr ⟨b, rfl, hb.1, hb.2, haccomplished⟩
          . exact fun _ _ _ _ _ => rfl
          . intro b' hb' _ hret'
            obtain rfl := Option.some.inj hb'
            exact absurd hret' hret
          . intro hnew
            exact absurd hb.1 (hnew b rfl)
    . -- the message is acted on
      rw [commissionHandleNfc_new plen hversion hknown]
      obtain ⟨hacted, -, haccomplished⟩ := handleMode_outcome env payload hcomplete
        { d.commission with prevNfcMode := env.nfcmode }
      have hother : ∀ b ∈ d.last, b.seqNr = payload OUT_SEQNR → b.nfcmode ≠ env.nfcmode := by
        intro b hb hseqnr hmode
        obtain ⟨hhandled, hprev⟩ := h.handled b hb
        exact hknown ⟨by rw [hhandled, hseqnr], by rw [hprev, hmode]⟩
      constructor
      . intro _
        refine ⟨fun b hb hseqnr hmode => absurd hmode (hother b hb hseqnr), ?_⟩
        intro hnone hseqnr hmode
        exact hknown ⟨by rw [hseqnr, h.unhandled (Option.isNone_iff_eq_none.mp hnone)], hmode⟩
      . intro _
        constructor
        . intro hret
          exact .inl (haccomplished.resolve_left (by rw [hret]; decide)).2
        . exact fun b hb hseqnr hmode _ => absurd hmode (hother b hb hseqnr)
        . exact fun _ _ _ _ => hacted
        . exact fun _ => hacted
  | departure => exact Iff.rfl

/--
From its start on, the daemon handles the messages as it should exactly if it never finds one that
counts as handled only because of a failed attempt or of its number.
-/
theorem diligent_iff_unmarked (events : List TagEvent) (hcomplete : ∀ e ∈ events, e.Complete)
    : Along tagStep ReadsDiligently {} events ↔ Along tagStep Unmarked {} events := by
  have hstep : ∀ d, ∀ e ∈ events, Remembers d → Remembers (tagStep d e).1 :=
    fun _ e he h => h.tagStep (hcomplete e he)
  exact along_congr tagStep hstep (fun _ e he h => readsDiligently_iff h (hcomplete e he))
    (remembers_of_none rfl rfl)

/--
In decommission mode, a tag that takes the write commands or refuses them.
-/
def leaving (takes : Bool) : Surroundings :=
  { atJoiner answering with
    nfcmode := NFC_MODE_DECOMMISSION
    answer := fun _ => if takes then .done else .failed false }

def leavingTwice : List TagEvent :=
  [.read (leaving true) nodeMessage 217, .read (leaving true) nodeMessage 217, .departure,
    .read (leaving true) nodeMessage 217]

theorem diligent_iff_unmarked_leavingTwice : Along tagStep ReadsDiligently {} leavingTwice := by
  rw [diligent_iff_unmarked leavingTwice (by decide)]
  decide +kernel

/--
After a failure the message counts as handled, and 1 is returned for it.
-/
theorem refused_not_diligent
    : ¬Along tagStep ReadsDiligently {}
      [.read (leaving false) nodeMessage 217, .read (leaving true) nodeMessage 217] := by
  rintro ⟨-, h, -⟩
  have hacted := (h rfl).again _ (tagStep_last rfl (by decide +kernel)) (by decide +kernel)
    (by decide +kernel)
  revert hacted
  decide +kernel

end NfcDaemon
