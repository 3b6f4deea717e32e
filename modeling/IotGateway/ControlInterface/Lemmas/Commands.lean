import IotGateway.ControlInterface.Impl.Commands
import IotGateway.ControlInterface.Lemmas.Upload
import IotGateway.Lib.Machine

/-!
This module says which commands of a client are answered as their handlers have ended. The dispatcher
takes what most handlers return for their error for a success.
-/

namespace ControlInterface

open NewDb Json IotError

/--
An error is answered by this error, and no error by none.
-/
def Answer.Reported (a : Answer) : Prop :=
  if a.iotError = IOT_ERROR_NONE then
    ∀ error, a.response ≠ some (.jsonError error)
  else
    a.response = some (.jsonError a.iotError)

/--
No call of the queue functions fails.
-/
def Surroundings.QueueOk (env : Surroundings) : Prop := ∀ r ∈ env.queue, r = .ok

/--
The device is in the table, and the row of its parent is too if there is something to be tunnelled.
-/
def Controllable (attrs : Attrs) (db : Db) : Prop :=
  ∃ mac device, attrs.parsingGetStringAttr0 "mac" = some mac
    ∧ newDbGetDevice db mac.upper = some device
    ∧ (device.dev = DEVICE_DEV_UI ∨ device.dev = DEVICE_DEV_UISENSOR →
        device.par < NEWDB_MAX_DEVICES)

def TopoCommand.Uploads : TopoCommand → Prop
  | .endconf | .upload => True
  | .clearall | .declare _ => False

/--
Both queues open, every message is written and the commands fit into their array.
-/
structure Surroundings.UploadOk (env : Surroundings) (gen : TopoGen) : Prop where
  zcbQueue : env.schedule.zcbQueue = .ok ()
  controlQueue : env.schedule.controlQueue = .ok ()
  writes : ∀ i t, env.schedule.writes i t = true
  fits : (topoGenerate env.topodevs gen).iotError = IOT_ERROR_NONE

/--
A control command meets a device that it can control, and no call of the queues fails in it, in a
command for the ZCB daemon, a lamp or a group, and in an upload of the topology.
-/
def Permitted (s : Client) (cmd : Command) : Prop :=
  if cmd.name = "ctrl" then
    cmd.env.QueueOk ∧ Controllable cmd.attrs (cmd.env.others.foldl Mutation.apply s.db)
  else if cmd.name = "cmd" ∨ cmd.name = "lmp" ∨ cmd.name = "grp" then
    cmd.env.QueueOk
  else if cmd.name = "tp" ∨ cmd.name = "tp+" then
    ∀ topo, topoCommand cmd.attrs = .ok (some topo) → topo.Uploads → cmd.env.UploadOk s.upload.gen
  else
    True

section

variable {q : Queue}

/--
There is no error, and there will be none.
-/
structure Queue.Quiet (q : Queue) : Prop where
  iotError : q.iotError = IOT_ERROR_NONE
  results : ∀ r ∈ q.results, r = .ok

theorem Queue.Quiet.head (h : q.Quiet) : q.results.headD .ok = .ok := by
  cases hresults : q.results with
  | nil => rfl
  | cons r results =>
    apply h.results
    rw [hresults]
    exact List.mem_cons_self

theorem Queue.Quiet.tail (h : q.Quiet) : ∀ r ∈ q.results.tail, r = .ok :=
  fun r hr => h.results r (List.mem_of_mem_tail hr)

theorem Queue.Quiet.queueOpen (h : q.Quiet) : q.queueOpen.1.Quiet := by
  constructor
  . simp only [Queue.queueOpen, h.head]
    exact h.iotError
  . exact h.tail

theorem Queue.Quiet.queueWrite (h : q.Quiet) (message : Object) : (q.queueWrite message).Quiet := by
  constructor
  . simp only [Queue.queueWrite, h.head]
    exact h.iotError
  . exact h.tail

theorem Queue.Quiet.queueWriteOneMessage (h : q.Quiet) (message : Object)
    : (q.queueWriteOneMessage message).Quiet := by
  have hopen := h.queueOpen
  unfold Queue.queueWriteOneMessage
  split
  . next q' hq =>
    rw [hq] at hopen
    exact hopen.queueWrite message
  . next q' hq =>
    rw [hq] at hopen
    exact hopen

end

section

variable {s : Handler} (env : Surroundings) (attrs : Attrs)

theorem quiet_write (h : s.queue.Quiet) (message : Object) : (s.write message).queue.Quiet :=
  h.queueWriteOneMessage message

theorem quiet_tunnel {tunnelManager : Int} (h : s.queue.Quiet)
    (hmanager : tunnelManager < NEWDB_MAX_DEVICES) (tunnelMessage : Object)
    : (s.tunnel tunnelManager tunnelMessage).queue.Quiet := by
  have hopen := h.queueOpen
  unfold Handler.tunnel
  split
  . next hle =>
    split
    . split
      . next q hq =>
        rw [hq] at hopen
        exact ((hopen.queueWrite _).queueWrite _).queueWrite _
      . next q hq =>
        rw [hq] at hopen
        exact hopen
    . next hnone =>
      exfalso
      have hrow : rowOf NEWDB_MAX_DEVICES tunnelManager = none := Option.map_eq_none_iff.mp hnone
      rw [rowOf, dif_pos ⟨hle, hmanager⟩] at hrow
      cases hrow
  . exact h

theorem quiet_writes (h : s.queue.Quiet) (messages : List Object)
    : (messages.foldl Handler.write s).queue.Quiet := by
  induction messages generalizing s with
  | nil => exact h
  | cons message messages ih => exact ih (quiet_write h message)

theorem quiet_control {control : Control} (h : s.queue.Quiet)
    (hmanager : control.tunnelManager < NEWDB_MAX_DEVICES)
    : (s.control env control).queue.Quiet := by
  have hwrites := quiet_writes h control.messages
  unfold Handler.control
  simp only
  generalize control.messages.foldl Handler.write s = s' at hwrites
  split
  . have hdb : { s' with db := (newDbSetDevice s'.db control.device env.now).1 }.queue.Quiet :=
      hwrites
    exact quiet_tunnel hdb hmanager control.tunnelMessage
  . have hdb : { s' with db := s'.db }.queue.Quiet := hwrites
    exact quiet_tunnel hdb hmanager control.tunnelMessage

/--
The commands of the devices other than the UI are not tunnelled.
-/
theorem controlDevice_tunnelManager (rgb2xy : Int32 → Int32 × Int32) (mac : String) {device : Device}
    (hpar : device.dev = DEVICE_DEV_UI ∨ device.dev = DEVICE_DEV_UISENSOR →
      device.par < NEWDB_MAX_DEVICES)
    : (controlDevice rgb2xy attrs mac device).tunnelManager < NEWDB_MAX_DEVICES := by
  have hnone : (-1 : Int) < NEWDB_MAX_DEVICES := by decide
  unfold controlDevice
  split
  . next hui => exact hpar hui
  split
  . unfold controlPlug
    split
    . exact hnone
    . exact hnone
  split
  . exact hnone
  . exact hnone

theorem quiet_ctrlHandle (rgb2xy : Int32 → Int32 × Int32) (h : s.queue.Quiet)
    (hdevice : Controllable attrs s.db)
    : (s.ctrlHandle rgb2xy env attrs).1.queue.Quiet := by
  obtain ⟨mac, device, hmac, hget, hpar⟩ := hdevice
  have hreset : s.fail IOT_ERROR_NONE = s := by
    unfold Handler.fail
    rw [← h.iotError]
  unfold Handler.ctrlHandle
  simp only [hreset, hmac, hget]
  exact quiet_control env h (controlDevice_tunnelManager attrs rgb2xy mac.upper hpar)

theorem quiet_message (h : s.queue.Quiet) (message : Object) : (s.message message).1.queue.Quiet :=
  quiet_write h message

theorem quiet_cmdHandle (h : s.queue.Quiet) : (s.cmdHandle env attrs).1.queue.Quiet := by
  unfold Handler.cmdHandle
  simp only
  split
  . exact quiet_write h _
  split
  . split
    . unfold Handler.resetrsp
      simp only
      split
      . exact quiet_write (quiet_write h _) _
      . exact quiet_write h _
    . exact h
  split
  . exact quiet_message h _
  split
  . exact quiet_write h _
  split
  . exact h
  split
  . exact h
  split
  . exact quiet_write h _
  . exact h

theorem quiet_lmpHandle (h : s.queue.Quiet) : (s.lmpHandle attrs).1.queue.Quiet := by
  unfold Handler.lmpHandle
  simp only
  split
  . exact quiet_write h _
  . exact h

theorem quiet_grpHandle (rgb2xy kelvin2xy : Int32 → Int32 × Int32) (h : s.queue.Quiet)
    : (s.grpHandle rgb2xy kelvin2xy attrs).1.queue.Quiet :=
  quiet_message h _

theorem sensorHandle_iotError
    : (s.sensorHandle env attrs).1.queue.iotError = s.queue.iotError := by
  unfold Handler.sensorHandle
  simp only
  split <;> rfl

end

section

variable {sch : Schedule} (hwrites : ∀ i t, sch.writes i t = true)

theorem gen_foldl_trOn (s : Upload) (events : List Event) : (events.foldl trOn s).gen = s.gen := by
  induction events generalizing s with
  | nil => rfl
  | cons event events ih =>
    rw [List.foldl_cons, ih]
    cases event with
    | objectComplete name =>
      simp only [trOn]
      split <;> rfl
    | integer name value =>
      simp only [trOn]
      split <;> rfl
    | objectStart | error | arrayStart | arrayComplete | string => rfl

theorem gen_foldl_eat (s : Upload) (text : List Char) : (text.foldl Upload.eat s).gen = s.gen := by
  rw [foldl_eat]
  exact gen_foldl_trOn s _

include hwrites

theorem gen_queueWrite (i t : Nat) (text : List Char) (s : Upload)
    : (s.queueWrite sch i t text).gen = s.gen := by
  unfold Upload.queueWrite
  simp only [hwrites i t, if_true]

theorem gen_uploadTry (i t : Nat) (cmd : TopoString) (s : Upload)
    : (uploadTry sch i t cmd s).1.gen = s.gen := by
  unfold uploadTry
  simp only
  split
  . rw [gen_foldl_eat]
    exact gen_queueWrite hwrites i t cmd.text s
  . exact gen_queueWrite hwrites i t cmd.text s

theorem gen_uploadTries (i : Nat) (cmd : TopoString) (retries : Nat) (s : Upload)
    : (uploadTries sch i cmd retries s).1.gen = s.gen := by
  induction retries generalizing s with
  | zero => rfl
  | succ retries ih =>
    have htry := gen_uploadTry hwrites i (MAX_RETRIES - (retries + 1)) cmd s
    rw [uploadTries]
    simp only
    split
    . rw [ih, htry]
    . exact htry

theorem gen_uploadCommand (i : Nat) (cmd : TopoString) (s : Upload)
    : (uploadCommand sch i cmd s).1.gen = s.gen := by
  unfold uploadCommand
  simp only
  split
  . have htries :=
      gen_uploadTries hwrites i cmd MAX_RETRIES { s with topoOk := false, errcode := INT_MAX }
    split
    . obtain ⟨db, hjoined⟩ := setJoined_eq sch i cmd.manId
        (uploadTries sch i cmd MAX_RETRIES { s with topoOk := false, errcode := INT_MAX }).1
      rw [hjoined]
      exact htries
    split
    . exact htries
    . exact htries
  . exact gen_queueWrite hwrites i 0 cmd.text s

theorem gen_uploadCommands (i : Nat) (cmds : List TopoString) (s : Upload)
    : (uploadCommands sch i cmds s).1.gen = s.gen := by
  induction cmds generalizing i s with
  | nil => rfl
  | cons cmd cmds ih =>
    have hcmd := gen_uploadCommand hwrites i cmd s
    rw [uploadCommands]
    split
    next s' error heq =>
    rw [heq] at hcmd
    split
    . rw [ih, hcmd]
    . exact hcmd

end

theorem iotError_uploadTopo {env : Surroundings} {s : Upload} (h : env.UploadOk s.gen)
    (hnone : s.gen.iotError = IOT_ERROR_NONE)
    : (uploadTopo env.schedule env.topodevs s).1.gen.iotError = IOT_ERROR_NONE := by
  unfold uploadTopo
  split
  . exact hnone
  . unfold uploadLocked
    simp only [h.zcbQueue, h.controlQueue]
    rw [gen_uploadCommands h.writes]
    exact h.fits

section

variable {cmd : Command}

/--
The dispatcher sees the error, if there is one.
-/
def Seen (result : Client × Int × Bool) : Prop :=
  result.1.iotError = IOT_ERROR_NONE ∨ result.2.2 = true ∧ result.2.1 ≤ 0

theorem reported_of_seen {result : Client × Int × Bool} (h : Seen result)
    : Answer.Reported
        { iotError := result.1.iotError
          response := Client.respond cmd result.1.iotError result.2.1 result.2.2 } := by
  unfold Answer.Reported Client.respond
  by_cases hnone : result.1.iotError = IOT_ERROR_NONE
  . simp only [hnone, if_true, ite_self]
    intro error
    split
    . intro heq
      cases Option.some.inj heq
    . intro heq
      rw [if_neg (fun hne => hne rfl)] at heq
      cases heq
  . obtain ⟨hfailed, hret⟩ := h.resolve_left hnone
    simp only [hnone, hfailed, if_true, if_false]
    rw [if_neg (fun htopo => absurd htopo.2 (Int.not_lt.mpr hret)), if_pos hnone]

variable {s : Client} (env : Surroundings) (attrs : Attrs)

/--
The state in which a handler starts.
-/
def Client.handler (env : Surroundings) (s : Client) : Handler where
  db := s.db
  queue := { results := env.queue, iotError := s.iotError }

theorem quiet_handler {env : Surroundings} (hqueue : env.QueueOk)
    (hnone : s.iotError = IOT_ERROR_NONE)
    : (s.handler env).queue.Quiet :=
  ⟨hnone, hqueue⟩

/--
What is tested does not matter when there is no error.
-/
theorem seen_of_quiet {handle : Handler → Handler × Int}
    (h : (handle (s.handler env)).1.queue.iotError = IOT_ERROR_NONE) (ret : Int) (failed : Bool)
    : Seen ((s.handle env handle).1, ret, failed) :=
  .inl h

/--
The convention that the dispatcher follows for `dbget` and `dbedit`.
-/
theorem seen_of_noError {handle : Handler → Handler × Int}
    (h : (handle (s.handler env)).2 = (handle (s.handler env)).1.noError)
    : Seen ((s.handle env handle).1, (s.handle env handle).2,
        decide ((s.handle env handle).2 = 0)) := by
  have hret : (s.handle env handle).2 = (handle (s.handler env)).1.noError := h
  rw [hret]
  unfold Handler.noError
  by_cases hnone : (handle (s.handler env)).1.queue.iotError = IOT_ERROR_NONE
  . exact .inl hnone
  . rw [if_neg hnone]
    exact .inr ⟨rfl, Int.le_refl 0⟩

theorem seen_topoHandle (hnone : s.iotError = IOT_ERROR_NONE)
    (hupload : ∀ topo, topoCommand attrs = .ok (some topo) → topo.Uploads →
      env.UploadOk s.upload.gen)
    : Seen ((s.topoHandle env attrs).1, (s.topoHandle env attrs).2,
        decide ((s.topoHandle env attrs).2 < 0)) := by
  have hneg : (-1 : Int) ≤ 0 := by decide
  unfold Client.topoHandle
  cases hcommand : topoCommand attrs with
  | error error => exact .inr ⟨rfl, hneg⟩
  | ok found =>
    cases found with
    | none => exact .inl hnone
    | some topo =>
      have hlocked (s' : Client) (hgen : s'.upload.gen = s.upload.gen) (huploads : topo.Uploads)
          : Seen ((s'.topoUpload env).1, (s'.topoUpload env).2,
              decide ((s'.topoUpload env).2 < 0)) := by
        have hok : env.UploadOk s'.upload.gen := hgen ▸ hupload topo hcommand huploads
        have hquiet := iotError_uploadTopo hok (hgen ▸ hnone)
        unfold Client.topoUpload
        simp only
        split
        . exact .inr ⟨rfl, hneg⟩
        . exact .inl hquiet
      cases topo with
      | clearall => exact .inl hnone
      | declare d => exact .inl hnone
      | endconf => exact hlocked _ rfl trivial
      | upload => exact hlocked _ rfl trivial

variable (rgb2xy kelvin2xy : Int32 → Int32 × Int32)

theorem seen_dispatch (hnone : s.iotError = IOT_ERROR_NONE)
    (hpermitted : Permitted s cmd)
    : Seen ((s.setDb (cmd.env.others.foldl Mutation.apply s.db)).dispatch rgb2xy kelvin2xy cmd) := by
  have hstart : (s.setDb (cmd.env.others.foldl Mutation.apply s.db)).iotError = IOT_ERROR_NONE :=
    hnone
  unfold Client.dispatch
  unfold Permitted at hpermitted
  simp only
  split
  . exact seen_of_noError cmd.env rfl
  split
  . exact seen_of_noError cmd.env rfl
  split
  . next hctrl =>
    rw [if_pos hctrl] at hpermitted
    obtain ⟨hqueue, hdevice⟩ := hpermitted
    have hquiet := quiet_ctrlHandle cmd.env cmd.attrs rgb2xy (quiet_handler hqueue hstart) hdevice
    exact seen_of_quiet cmd.env hquiet.iotError _ _
  next hctrl =>
  rw [if_neg hctrl] at hpermitted
  split
  . next hcmd =>
    rw [if_pos (.inl hcmd)] at hpermitted
    have hquiet := quiet_cmdHandle cmd.env cmd.attrs (quiet_handler hpermitted hstart)
    exact seen_of_quiet cmd.env hquiet.iotError _ _
  next hcmd =>
  split
  . next hlmp =>
    rw [if_pos (.inr (.inl hlmp))] at hpermitted
    have hquiet := quiet_lmpHandle cmd.attrs (quiet_handler hpermitted hstart)
    exact seen_of_quiet cmd.env hquiet.iotError _ _
  next hlmp =>
  split
  . next hgrp =>
    rw [if_pos (.inr (.inr hgrp))] at hpermitted
    have hquiet := quiet_grpHandle cmd.attrs rgb2xy kelvin2xy (quiet_handler hpermitted hstart)
    exact seen_of_quiet cmd.env hquiet.iotError _ _
  next hgrp =>
  rw [if_neg fun h => h.elim hcmd fun h => h.elim hlmp hgrp] at hpermitted
  split
  . exact seen_of_quiet cmd.env ((sensorHandle_iotError cmd.env cmd.attrs).trans hstart) _ _
  split
  . next htopo =>
    rw [if_pos htopo] at hpermitted
    exact seen_topoHandle cmd.env cmd.attrs hstart hpermitted
  split
  . exact seen_of_quiet cmd.env hstart _ _
  . exact .inl hstart

/--
`iotError` is reset after each command, so that no error is left for the next.
-/
theorem iotError_ci_onObjectComplete (s : Client) (cmd : Command)
    : (ci_onObjectComplete rgb2xy kelvin2xy s cmd).1.iotError = IOT_ERROR_NONE := rfl

theorem commands_reported {commands : List Command} (hnone : s.iotError = IOT_ERROR_NONE)
    (hpermitted : Machine.Along (ci_onObjectComplete rgb2xy kelvin2xy) Permitted s commands)
    : ∀ answer ∈ Machine.trace (ci_onObjectComplete rgb2xy kelvin2xy) s commands,
        answer.Reported := by
  have hstep (s : Client) (cmd : Command) (_ : s.iotError = IOT_ERROR_NONE) (_ : Permitted s cmd)
      : (ci_onObjectComplete rgb2xy kelvin2xy s cmd).1.iotError = IOT_ERROR_NONE :=
    iotError_ci_onObjectComplete rgb2xy kelvin2xy s cmd
  have hout (s : Client) (cmd : Command) (hnone : s.iotError = IOT_ERROR_NONE)
      (hok : Permitted s cmd)
      : ∀ answer ∈ (ci_onObjectComplete rgb2xy kelvin2xy s cmd).2, answer.Reported := by
    intro answer hanswer
    rw [ci_onObjectComplete, List.mem_singleton] at hanswer
    rw [hanswer]
    exact reported_of_seen (seen_dispatch rgb2xy kelvin2xy hnone hok)
  exact Machine.forall_trace (ci_onObjectComplete rgb2xy kelvin2xy) hstep hout hnone hpermitted

end

def quiet : Surroundings where
  schedule := lateAnswer

def plugMac : Text := ⟨"00158D0000350123", by decide⟩

/--
There is a plug in the table.
-/
def plugClient : Client where
  upload :=
    { beforeUpload with
      db :=
        { Db.init with
          devices := fun i =>
            if i = 0 then { mac := plugMac.1, dev := DEVICE_DEV_PLUG } else { id := i } } }

def plugAttrs : Attrs := Attrs.parsingReset.parsingStringAttr "mac" plugMac.1

theorem commands_reported_plugClient
    : Machine.trace (ci_onObjectComplete (fun _ => (0, 0)) (fun _ => (0, 0))) plugClient
          [{ name := "dbget", attrs := .parsingReset, env := quiet },
            { name := "ctrl", attrs := plugAttrs.parsingStringAttr "cmd" "on", env := quiet },
            { name := "tp", attrs := plugAttrs, env := quiet }]
        = [⟨IOT_ERROR_NO_MAC, some (.jsonError IOT_ERROR_NO_MAC)⟩, ⟨IOT_ERROR_NONE, none⟩,
          ⟨IOT_ERROR_TOPO_MISSING_NAME, some (.jsonError IOT_ERROR_TOPO_MISSING_NAME)⟩]
      ∧ ∀ answer ∈ Machine.trace (ci_onObjectComplete (fun _ => (0, 0)) (fun _ => (0, 0))) plugClient
          [{ name := "dbget", attrs := .parsingReset, env := quiet },
            { name := "ctrl", attrs := plugAttrs.parsingStringAttr "cmd" "on", env := quiet },
            { name := "tp", attrs := plugAttrs, env := quiet }],
          answer.Reported := by
  refine ⟨by decide, commands_reported _ _ rfl ⟨trivial, ⟨?_, ?_⟩, ?_, trivial⟩⟩
  . intro r hr
    cases hr
  . refine ⟨plugMac, { mac := plugMac.1, dev := DEVICE_DEV_PLUG }, ?_, ?_, ?_⟩
    . decide
    . decide
    . intro _
      decide
  . intro topo htopo
    have herror : topoCommand plugAttrs = .error IOT_ERROR_TOPO_MISSING_NAME := rfl
    rw [herror] at htopo
    cases htopo

/--
The error of a control command without a device is not reported.
-/
theorem ctrl_not_reported
    : ¬ ∀ (rgb2xy kelvin2xy : Int32 → Int32 × Int32) (s : Client) (commands : List Command),
        s.iotError = IOT_ERROR_NONE →
          ∀ answer ∈ Machine.trace (ci_onObjectComplete rgb2xy kelvin2xy) s commands,
            answer.Reported := by
  intro h
  have htrace : Machine.trace (ci_onObjectComplete (fun _ => (0, 0)) (fun _ => (0, 0))) plugClient
      [{ name := "ctrl", attrs := .parsingReset, env := quiet }] = [⟨IOT_ERROR_NO_MAC, none⟩] := by
    decide
  have hreported := h (fun _ => (0, 0)) (fun _ => (0, 0)) plugClient
    [{ name := "ctrl", attrs := .parsingReset, env := quiet }] rfl ⟨IOT_ERROR_NO_MAC, none⟩
    (by rw [htrace]; exact List.mem_singleton_self _)
  rw [Answer.Reported, if_neg (by decide)] at hreported
  cases hreported

end ControlInterface
