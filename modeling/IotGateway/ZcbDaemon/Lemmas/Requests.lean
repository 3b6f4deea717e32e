import IotGateway.ZcbDaemon.Impl.Requests

/-!
This module says when the loop that sends a simple descriptor request ends, and when the requests that
wait for a response return the status of the right one.
-/

namespace ZcbDaemon

open NewDb Packed

section

variable (command : Command) {sending : Sending} (sendings : List Sending) (eStatus u8Retry : UInt8)

theorem descriptorLoop_ok (h : eSL_SendMessage sending = E_SL_OK)
    : descriptorLoop command (sending :: sendings) eStatus u8Retry = some (E_ZCB_OK, [command]) := by
  simp only [descriptorLoop, h, if_pos]
  rfl

theorem descriptorLoop_noMessage (h : eSL_SendMessage sending = E_SL_NOMESSAGE)
    : descriptorLoop command (sending :: sendings) eStatus u8Retry
        = if u8Retry - 1 ≠ 0 then
            (descriptorLoop command sendings eStatus (u8Retry - 1)).map fun (eStatus, sent) =>
              (eStatus, command :: sent)
          else
            some (eStatus, [command]) := by
  have hne : E_SL_NOMESSAGE ≠ E_SL_OK := by decide
  simp only [descriptorLoop, h, if_neg hne, if_pos]

/--
Any other result is as if there had been no attempt.
-/
theorem descriptorLoop_other {u8Retry : UInt8} (hok : eSL_SendMessage sending ≠ E_SL_OK)
    (hno : eSL_SendMessage sending ≠ E_SL_NOMESSAGE) (hretry : u8Retry ≠ 0)
    : descriptorLoop command (sending :: sendings) eStatus u8Retry
        = (descriptorLoop command sendings eStatus u8Retry).map fun (eStatus, sent) =>
            (eStatus, command :: sent) := by
  simp only [descriptorLoop, if_neg hok, if_neg hno, if_pos hretry]

end

/--
No more attempts than are left to be counted down: the loop ends if one of them is successful, or if
there are as many and each of them counts.
-/
theorem descriptorLoop_isSome_iff (command : Command) (sendings : List Sending) (eStatus : UInt8)
    {u8Retry : UInt8} (hpos : u8Retry ≠ 0) (hle : sendings.length ≤ u8Retry.toNat)
    : (descriptorLoop command sendings eStatus u8Retry).isSome
        ↔ (∃ s ∈ sendings, eSL_SendMessage s = E_SL_OK)
          ∨ sendings.length = u8Retry.toNat
            ∧ ∀ s ∈ sendings, eSL_SendMessage s = E_SL_NOMESSAGE := by
  have hpos' : 0 < u8Retry.toNat := by
    rw [Nat.pos_iff_ne_zero]
    exact fun h => hpos (UInt8.toNat_inj.mp h)
  induction sendings generalizing eStatus u8Retry with
  | nil =>
    rw [List.length_nil]
    simp [descriptorLoop, Nat.ne_of_lt hpos']
  | cons s sendings ih =>
    rw [List.length_cons] at hle ⊢
    by_cases hok : eSL_SendMessage s = E_SL_OK
    . rw [descriptorLoop_ok _ _ _ _ hok]
      simp [hok]
    by_cases hno : eSL_SendMessage s = E_SL_NOMESSAGE
    . have hsub : (u8Retry - 1).toNat = u8Retry.toNat - 1 :=
        UInt8.toNat_sub_of_le _ _ (UInt8.le_iff_toNat_le.mpr hpos')
      have hcount : sendings.length + 1 = u8Retry.toNat
          ↔ sendings.length = (u8Retry - 1).toNat := by omega
      rw [descriptorLoop_noMessage _ _ _ _ hno]
      rw [List.exists_mem_cons_iff, List.forall_mem_cons, hcount]
      have hne : E_SL_NOMESSAGE ≠ E_SL_OK := by decide
      simp only [hno, hne, false_or, true_and]
      by_cases hlast : u8Retry - 1 = 0
      . have hzero : (u8Retry - 1).toNat = 0 := congrArg UInt8.toNat hlast
        have hnil : sendings = [] := List.eq_nil_of_length_eq_zero (by omega)
        simp [hlast, hnil]
      . have hzero : 0 < (u8Retry - 1).toNat := by
          rw [Nat.pos_iff_ne_zero]
          exact fun h => hlast (UInt8.toNat_inj.mp h)
        rw [if_pos hlast, Option.isSome_map]
        exact ih eStatus hlast (by omega) hzero
    . have hshort : sendings.length < u8Retry.toNat := by omega
      have hrest := ih eStatus hpos (Nat.le_of_lt hshort) hpos'
      simp only [Nat.ne_of_lt hshort, false_and, or_false] at hrest
      rw [descriptorLoop_other _ _ _ hok hno hpos, Option.isSome_map]
      refine hrest.trans ?_
      rw [List.exists_mem_cons_iff, List.forall_mem_cons]
      simp only [hok, hno, false_or, false_and, and_false, or_false]

/--
The results of all attempts, if the loop needs so many.
-/
theorem SimpleDescriptorRequest_iff (u16ShortAddress : UInt16) (sendings : Nat → Sending)
    : (∃ n ≤ 3, (SimpleDescriptorRequest u16ShortAddress ((List.range n).map sendings)).isSome)
        ↔ (∃ i < 3, eSL_SendMessage (sendings i) = E_SL_OK)
          ∨ ∀ i < 3, eSL_SendMessage (sendings i) = E_SL_NOMESSAGE := by
  have hends (n : Nat) (hn : n ≤ 3)
      : (SimpleDescriptorRequest u16ShortAddress ((List.range n).map sendings)).isSome
          ↔ (∃ i < n, eSL_SendMessage (sendings i) = E_SL_OK)
            ∨ n = 3 ∧ ∀ i < n, eSL_SendMessage (sendings i) = E_SL_NOMESSAGE := by
    have hthree : (3 : UInt8).toNat = 3 := rfl
    rw [SimpleDescriptorRequest, descriptorLoop_isSome_iff]
    . simp [hthree]
    . decide
    . simpa [hthree] using hn
  constructor
  . rintro ⟨n, hn, h⟩
    rcases (hends n hn).mp h with ⟨i, hi, hok⟩ | ⟨rfl, hno⟩
    . exact .inl ⟨i, by omega, hok⟩
    . exact .inr hno
  . intro h
    exact ⟨3, Nat.le_refl 3, (hends 3 (Nat.le_refl 3)).mpr (h.imp_right fun hno => ⟨rfl, hno⟩)⟩

/--
The status `E_SL_MSG_STATUS_BUSY`.
-/
def busy : Sending := { written := .ok, waited := .ok, eStatus := 3, u8SequenceNo := 0 }

/--
A node that stays busy is asked again for ever.
-/
theorem busy_never_ends (n : Nat)
    : SimpleDescriptorRequest 0x1234 (List.replicate n busy) = none := by
  rw [SimpleDescriptorRequest]
  induction n with
  | zero => rfl
  | succ n ih =>
    rw [List.replicate_succ, descriptorLoop_other _ _ _ (by decide) (by decide) (by decide), ih]
    rfl

theorem busy_not_ended
    : ¬∃ n ≤ 3, (SimpleDescriptorRequest 0x1234 ((List.range n).map fun _ => busy)).isSome := by
  rintro ⟨n, -, h⟩
  have hreplicate : (List.range n).map (fun _ => busy) = List.replicate n busy := by
    rw [List.map_const', List.length_range]
  rw [hreplicate, busy_never_ends] at h
  cases h

/--
A request that waits for a response, with its arguments.
-/
inductive Request where
  | writeAttribute (w : WriteAttribute)
  | bind (db : Db) (b : Bind)
  | configureReporting (c : ConfigureReporting)

namespace Request

def run (line : Command → Sending) (responses : List Response) : Request → UInt8
  | .writeAttribute w => eZCB_WriteAttributeRequest line responses w
  | .bind db b => eZCB_SendBindCommand line responses db b
  | .configureReporting c => eZCB_SendConfigureReportingCommand line responses c

/--
What is sent, if the arguments are valid.
-/
def command : Request → Option Command
  | .writeAttribute w => w.command
  | .bind db b => some (b.command db)
  | .configureReporting c => some c.command

/--
The sequence number of a response.
-/
def sequenceNo (request : Request) (response : Response) : UInt8 :=
  match request with
  | .writeAttribute _ => response.pvMessage 14
  | .bind _ _ | .configureReporting _ => response.pvMessage 0

/--
The status that a response carries.
-/
def status (request : Request) (response : Response) : UInt8 :=
  match request with
  | .writeAttribute _ => response.pvMessage 16
  | .bind _ _ | .configureReporting _ => response.pvMessage 1

end Request

theorem sendAndAwait_first {line : Command → Sending} {command : Command}
    (hsent : eSL_SendMessage (line command) = E_SL_OK) (seqAt statusAt : Nat) (response : Response)
    (responses : List Response)
    : sendAndAwait line (response :: responses) seqAt statusAt command
        = if (line command).u8SequenceNo = response.pvMessage seqAt then
            response.pvMessage statusAt
          else
            E_ZCB_COMMS_FAILED := by
  rw [sendAndAwait, if_neg (not_not_intro hsent), awaitFirst]

/--
Only the first response counts.
-/
theorem run_first {request : Request} {line : Command → Sending} {command : Command}
    (hcommand : request.command = some command)
    (hsent : eSL_SendMessage (line command) = E_SL_OK) (response : Response)
    (responses : List Response)
    : request.run line (response :: responses)
        = if (line command).u8SequenceNo = request.sequenceNo response then
            request.status response
          else
            E_ZCB_COMMS_FAILED := by
  cases request with
  | writeAttribute w =>
    have hw : w.command = some command := hcommand
    rw [Request.run, eZCB_WriteAttributeRequest, hw]
    exact sendAndAwait_first hsent 14 16 response responses
  | bind db b =>
    obtain rfl := Option.some.inj hcommand
    exact sendAndAwait_first hsent 0 1 response responses
  | configureReporting c =>
    obtain rfl := Option.some.inj hcommand
    exact sendAndAwait_first hsent 0 1 response responses

theorem awaitMatching_foreign {u8SequenceNo : UInt8} {foreign : List Response} {right : Response}
    (hforeign : ∀ response ∈ foreign, response.pvMessage 0 ≠ u8SequenceNo)
    (hright : right.pvMessage 0 = u8SequenceNo) (later : List Response)
    : awaitMatching u8SequenceNo (foreign ++ right :: later) = some right := by
  induction foreign with
  | nil => rw [List.nil_append, awaitMatching, if_pos hright.symm]
  | cons response foreign ih =>
    have hne : u8SequenceNo ≠ response.pvMessage 0 :=
      (hforeign response List.mem_cons_self).symm
    rw [List.cons_append, awaitMatching, if_neg hne]
    exact ih fun r hr => hforeign r (List.mem_cons_of_mem response hr)

/--
The status of the right response is returned if no other response comes first, or if it is the one of
a request without a response. The loop for neighbour tables finds the right response in any case.
-/
theorem request_status_iff {request : Request} {line : Command → Sending} {command : Command}
    (hcommand : request.command = some command)
    (hsent : eSL_SendMessage (line command) = E_SL_OK) {foreign : List Response} {right : Response}
    (hforeign : ∀ r ∈ foreign, request.sequenceNo r ≠ (line command).u8SequenceNo)
    (hright : request.sequenceNo right = (line command).u8SequenceNo) (later : List Response)
    : (request.run line (foreign ++ right :: later) = request.status right
          ↔ foreign = [] ∨ request.status right = E_ZCB_COMMS_FAILED)
        ∧ ∀ (u8SequenceNo : UInt8) (foreign : List Response) (right : Response),
            (∀ r ∈ foreign, r.pvMessage 0 ≠ u8SequenceNo) → right.pvMessage 0 = u8SequenceNo →
              awaitMatching u8SequenceNo (foreign ++ right :: later) = some right := by
  refine ⟨?_, fun _ _ _ hforeign hright => awaitMatching_foreign hforeign hright later⟩
  cases foreign with
  | nil =>
    rw [List.nil_append, run_first hcommand hsent, if_pos hright.symm]
    simp
  | cons response foreign =>
    have hne : (line command).u8SequenceNo ≠ request.sequenceNo response :=
      (hforeign response List.mem_cons_self).symm
    rw [List.cons_append, run_first hcommand hsent, if_neg hne]
    simp [eq_comm]

/--
A bind request with the sequence number 7.
-/
def bindRequest : Request := .bind {} { u64IEEEAddress := 0x00158D0000000001, u16ClusterId := 6 }

def acceptedSeven : Sending := { written := .ok, waited := .ok, eStatus := 0, u8SequenceNo := 7 }

def bindResponse (u8SequenceNo u8Status : UInt8) : Response where
  u16Length := 2
  pvMessage i := if i = 0 then u8SequenceNo else u8Status

theorem bind_first
    : bindRequest.run (fun _ => acceptedSeven) [bindResponse 7 0x84, bindResponse 6 0] = 0x84 := by
  have hiff := @request_status_iff bindRequest (fun _ => acceptedSeven) _ rfl rfl []
    (bindResponse 7 0x84) (by simp) rfl [bindResponse 6 0]
  exact hiff.1.mpr (.inl rfl)

/--
The late response to an earlier request makes a successful one fail.
-/
theorem bind_foreign_failed
    : bindRequest.run (fun _ => acceptedSeven) [bindResponse 6 0, bindResponse 7 0]
        ≠ bindRequest.status (bindResponse 7 0) := by
  decide

end ZcbDaemon
