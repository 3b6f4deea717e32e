import IotGateway.Lib.Machine
import IotGateway.SecureJoiner.Lemmas.Response

/-!
This module says which answer the secure joiner gives to a client.
-/

namespace SecureJoiner

open Machine IotError

/--
The machine emits nothing.
-/
def step (s : State) (e : Step) : State × List Unit := (s.next e, [])

/--
What the client gets is from a response for its own device.
-/
def Request.Owns (dispatched : List AuthenticateResponse) (q : Request) : Prop :=
  ∀ a ∈ q.answer, a.isJoinSecure = true →
    ∃ r ∈ dispatched, r.mac = strtoupper q.mac ∧ a = r.joinSecure

/--
Every client gets the data of its own device or an error, and it gets the data if they arrive in
time. A request for which they have arrived is answered, or the joiner waits for it and has something
to read.
-/
structure Correlated (s : State) : Prop where
  own : ∀ q ∈ s.requests, q.Owns s.dispatched
  delivered : ∀ q ∈ s.requests, q.inTime = true → ∀ a ∈ q.answer, a.isJoinSecure = true
  awaited : ∀ q ∈ s.requests, q.inTime = true → q.answer = none →
    (∃ msec, s.phase = .wait q.mac msec) ∧ s.queue ≠ []

/--
A response that arrives in time for a request finds the joiner waiting for it, with nothing or with a
response for the same device in front of the queue, or the client has the data already.
-/
def Expected (s : State) : Step → Prop
  | .arrive r => ∀ q ∈ s.requests, q.Hears s.now r →
    (∃ a ∈ q.answer, a.isJoinSecure = true)
      ∨ q.answer = none ∧ ∀ first ∈ s.queue.head?, first.mac = strtoupper q.mac
  | _ => True

instance decidableExpected (s : State) : (e : Step) → Decidable (Expected s e)
  | .arrive r =>
    inferInstanceAs (Decidable (∀ q ∈ s.requests, q.Hears s.now r →
      (∃ a ∈ q.answer, a.isJoinSecure = true)
        ∨ q.answer = none ∧ ∀ first ∈ s.queue.head?, first.mac = strtoupper q.mac))
  | .linkinfo _ _ _ => inferInstanceAs (Decidable True)
  | .resume _ => inferInstanceAs (Decidable True)
  | .tick => inferInstanceAs (Decidable True)

/--
The joiner does not wait for this request.
-/
def Request.Settled (q : Request) : Prop := q.sentAt = none ∨ q.answer ≠ none

def Placed : Phase → List Request → Prop
  | .idle, requests => ∀ q ∈ requests, q.Settled
  | .flush mac _ _, q :: requests => q = { mac } ∧ ∀ q ∈ requests, q.Settled
  | .send mac _, q :: requests => q = { mac } ∧ ∀ q ∈ requests, q.Settled
  | .wait mac _, q :: requests =>
    (q.mac = mac ∧ q.sentAt ≠ none ∧ q.answer = none) ∧ ∀ q ∈ requests, q.Settled
  | _, [] => False

theorem placed_flush {requests : List Request} {mac linkkey : String} {msec : Nat}
    : Placed (.flush mac linkkey msec) requests ↔ Placed (.send mac linkkey) requests := by
  cases requests with
  | nil => exact Iff.rfl
  | cons => exact Iff.rfl

theorem placed_wait {requests : List Request} {mac : String} {msec msec' : Nat}
    (h : Placed (.wait mac msec) requests)
    : Placed (.wait mac msec') requests := by
  cases requests with
  | nil => exact h
  | cons => exact h

section

variable (now : Nat) (r : AuthenticateResponse) (q : Request)

@[simp]
theorem hear_mac : (q.hear now r).mac = q.mac := by
  unfold Request.hear
  split
  . rfl
  . rfl

@[simp]
theorem hear_sentAt : (q.hear now r).sentAt = q.sentAt := by
  unfold Request.hear
  split
  . rfl
  . rfl

@[simp]
theorem hear_answer : (q.hear now r).answer = q.answer := by
  unfold Request.hear
  split
  . rfl
  . rfl

theorem hear_inTime : (q.hear now r).inTime = true ↔ q.inTime = true ∨ q.Hears now r := by
  unfold Request.hear
  split
  . next h => simp [h]
  . next h => simp [h]

theorem hear_unsent (mac : String) : Request.hear now r { mac } = { mac } := by
  rw [Request.hear, if_neg]
  rintro ⟨⟨sentAt, hmem, -⟩, -⟩
  cases hmem

theorem hear_settled : (q.hear now r).Settled ↔ q.Settled := by
  simp only [Request.Settled, hear_sentAt, hear_answer]

variable {q} {requests : List Request}

theorem settled_hear (h : ∀ q ∈ requests, q.Settled)
    : ∀ q ∈ requests.map (·.hear now r), q.Settled := by
  simp only [List.forall_mem_map, hear_settled]
  exact h

theorem placed_hear {phase : Phase} (h : Placed phase requests)
    : Placed phase (requests.map (·.hear now r)) := by
  cases requests with
  | nil => exact h
  | cons q requests =>
    cases phase with
    | idle => exact settled_hear now r h
    | flush mac linkkey msec =>
      obtain ⟨rfl, hrest⟩ := h
      exact ⟨hear_unsent now r mac, settled_hear now r hrest⟩
    | send mac linkkey =>
      obtain ⟨rfl, hrest⟩ := h
      exact ⟨hear_unsent now r mac, settled_hear now r hrest⟩
    | wait mac msec =>
      obtain ⟨hhead, hrest⟩ := h
      refine ⟨?_, settled_hear now r hrest⟩
      simp only [hear_mac, hear_sentAt, hear_answer]
      exact hhead

end

/--
What holds in every run.
-/
structure Known (s : State) : Prop where
  queued : ∀ r ∈ s.queue, r ∈ s.dispatched
  own : ∀ q ∈ s.requests, q.Owns s.dispatched
  placed : Placed s.phase s.requests

/--
What holds as long as the responses are expected.
-/
structure Timely (s : State) : Prop where
  sent : ∀ q ∈ s.requests, q.inTime = true → q.sentAt ≠ none
  delivered : ∀ q ∈ s.requests, q.inTime = true → ∀ a ∈ q.answer, a.isJoinSecure = true
  front : ∀ q ∈ s.requests, q.inTime = true → q.answer = none →
    ∃ first ∈ s.queue.head?, first.mac = strtoupper q.mac

theorem Known.start : Known .start where
  queued := List.forall_mem_nil _
  own := List.forall_mem_nil _
  placed := List.forall_mem_nil _

theorem Timely.start : Timely .start where
  sent := List.forall_mem_nil _
  delivered := List.forall_mem_nil _
  front := List.forall_mem_nil _

section

variable {s : State} {mac : String} {msec : Nat}

/--
The request that the joiner waits for.
-/
theorem Known.waited (h : Known s) (hphase : s.phase = .wait mac msec)
    : ∃ q requests, s.requests = q :: requests ∧ q.mac = mac ∧ q.sentAt ≠ none ∧ q.answer = none
        ∧ ∀ q ∈ requests, q.Settled := by
  have hplaced := h.placed
  rw [hphase] at hplaced
  match hrequests : s.requests with
  | [] =>
    rw [hrequests] at hplaced
    exact hplaced.elim
  | q :: requests =>
    rw [hrequests] at hplaced
    obtain ⟨⟨hmac, hsent, hanswer⟩, hrest⟩ := hplaced
    exact ⟨q, requests, rfl, hmac, hsent, hanswer, hrest⟩

theorem Timely.not_settled (h : Timely s) {q : Request} (hq : q ∈ s.requests)
    (hin : q.inTime = true) (hanswer : q.answer = none)
    : ¬q.Settled := by
  rintro (hsent | hnone)
  . exact h.sent q hq hin hsent
  . exact hnone hanswer

theorem Known.answer (h : Known s) (hphase : s.phase = .wait mac msec) {a : Answer}
    (ha : a.isJoinSecure = true → ∃ r ∈ s.dispatched, r.mac = strtoupper mac ∧ a = r.joinSecure)
    : Known (s.answer a) := by
  obtain ⟨q, requests, hrequests, rfl, -, -, hrest⟩ := h.waited hphase
  have hafter : (s.answer a).requests = { q with answer := some a } :: requests := by
    simp only [State.answer, State.updateRequest, hrequests, List.modifyHead_cons]
  have hown := h.own
  rw [hrequests, List.forall_mem_cons] at hown
  refine ⟨h.queued, ?_, ?_⟩
  . rw [hafter, List.forall_mem_cons]
    refine ⟨?_, hown.2⟩
    intro a' ha'
    obtain rfl := Option.some.inj ha'
    exact ha
  . show ∀ q ∈ (s.answer a).requests, q.Settled
    rw [hafter, List.forall_mem_cons]
    exact ⟨.inr (Option.some_ne_none a), hrest⟩

theorem Timely.answer (h : Timely s) (hknown : Known s) (hphase : s.phase = .wait mac msec)
    {a : Answer}
    (ha : (∃ first ∈ s.queue.head?, first.mac = strtoupper mac) → a.isJoinSecure = true)
    (queue : List AuthenticateResponse)
    : Timely { s.answer a with queue } := by
  obtain ⟨q, requests, hrequests, rfl, hsent, hanswer, hrest⟩ := hknown.waited hphase
  have hafter : (s.answer a).requests = { q with answer := some a } :: requests := by
    simp only [State.answer, State.updateRequest, hrequests, List.modifyHead_cons]
  have hmem : q ∈ s.requests := by
    rw [hrequests]
    exact List.mem_cons_self
  refine ⟨?_, ?_, ?_⟩
  . show ∀ q ∈ (s.answer a).requests, _
    rw [hafter, List.forall_mem_cons]
    refine ⟨fun _ => hsent, ?_⟩
    intro q' hq'
    exact h.sent q' (by rw [hrequests]; exact List.mem_cons_of_mem q hq')
  . show ∀ q ∈ (s.answer a).requests, _
    rw [hafter, List.forall_mem_cons]
    constructor
    . intro hin a' ha'
      obtain rfl := Option.some.inj ha'
      exact ha (h.front q hmem hin hanswer)
    . intro q' hq'
      exact h.delivered q' (by rw [hrequests]; exact List.mem_cons_of_mem q hq')
  . show ∀ q ∈ (s.answer a).requests, _
    rw [hafter, List.forall_mem_cons]
    constructor
    . intro _ hnone
      cases hnone
    . intro q' hq' hin hnone
      have hmem' : q' ∈ s.requests := by
        rw [hrequests]
        exact List.mem_cons_of_mem q hq'
      exact absurd (hrest q' hq') (h.not_settled hmem' hin hnone)

theorem Known.handle (h : Known s) (hphase : s.phase = .wait mac msec) {r : AuthenticateResponse}
    {queue : List AuthenticateResponse} (hqueue : s.queue = r :: queue)
    : Known ({ s with queue }.handle mac r) := by
  obtain ⟨parser, zcb, heq⟩ := handle_eq { s with queue } mac r
  rw [heq]
  have hqueued := h.queued
  rw [hqueue, List.forall_mem_cons] at hqueued
  apply Known.answer (s := { s with queue, parser, zcb }) ⟨hqueued.2, h.own, h.placed⟩ hphase
  intro hjoin
  split at hjoin
  . next hmac => exact ⟨r, hqueued.1, hmac, if_pos hmac⟩
  . cases hjoin

theorem Timely.handle (h : Timely s) (hknown : Known s) (hphase : s.phase = .wait mac msec)
    {r : AuthenticateResponse} {queue : List AuthenticateResponse} (hqueue : s.queue = r :: queue)
    : Timely ({ s with queue }.handle mac r) := by
  obtain ⟨parser, zcb, heq⟩ := handle_eq { s with queue } mac r
  rw [heq]
  apply Timely.answer (s := { s with parser, zcb }) ⟨h.sent, h.delivered, h.front⟩
    ⟨hknown.queued, hknown.own, hknown.placed⟩ hphase
  rintro ⟨first, hfirst, hmac⟩
  rw [hqueue] at hfirst
  obtain rfl := Option.some.inj hfirst
  rw [if_pos hmac]
  rfl

theorem Known.resume (h : Known s) (written : Bool) : Known (s.resume written) := by
  have hplaced := h.placed
  unfold State.resume
  cases hphase : s.phase with
  | idle => exact h
  | flush mac linkkey msec =>
    rw [hphase] at hplaced
    cases hqueue : s.queue with
    | nil =>
      dsimp only
      split
      . exact ⟨List.forall_mem_nil _, h.own, placed_flush.mpr (placed_flush.mp hplaced)⟩
      . exact ⟨List.forall_mem_nil _, h.own, placed_flush.mp hplaced⟩
    | cons r queue =>
      have hqueued := h.queued
      rw [hqueue, List.forall_mem_cons] at hqueued
      exact ⟨hqueued.2, h.own, placed_flush.mpr (placed_flush.mp hplaced)⟩
  | send mac linkkey =>
    rw [hphase] at hplaced
    match hrequests : s.requests with
    | [] =>
      rw [hrequests] at hplaced
      exact hplaced.elim
    | q :: requests =>
      rw [hrequests] at hplaced
      obtain ⟨rfl, hrest⟩ := hplaced
      have hown := h.own
      rw [hrequests, List.forall_mem_cons] at hown
      cases written with
      | true =>
        refine ⟨h.queued, ?_, ?_⟩
        . simp only [State.updateRequest, hrequests, List.modifyHead_cons, if_true,
            List.forall_mem_cons]
          exact hown
        . simp only [State.updateRequest, hrequests, List.modifyHead_cons, if_true]
          exact ⟨⟨rfl, Option.some_ne_none s.now, rfl⟩, hrest⟩
      | false =>
        exact ⟨h.queued, List.forall_mem_cons.mpr hown, List.forall_mem_cons.mpr ⟨.inl rfl, hrest⟩⟩
  | wait mac msec =>
    cases hqueue : s.queue with
    | nil =>
      dsimp only
      split
      . rw [hphase] at hplaced
        exact ⟨List.forall_mem_nil _, h.own, placed_wait hplaced⟩
      . apply h.answer hphase
        intro hjoin
        cases hjoin
    | cons r queue =>
      have hhandle := h.handle hphase hqueue
      rw [hphase] at hhandle
      exact hhandle

theorem Timely.resume (h : Timely s) (hknown : Known s) (written : Bool)
    : Timely (s.resume written) := by
  have hplaced := hknown.placed
  unfold State.resume
  cases hphase : s.phase with
  | idle => exact h
  | flush mac linkkey msec =>
    rw [hphase] at hplaced
    cases hqueue : s.queue with
    | nil =>
      have hfront := h.front
      rw [hqueue] at hfront
      dsimp only
      split
      . exact ⟨h.sent, h.delivered, hfront⟩
      . exact ⟨h.sent, h.delivered, hfront⟩
    | cons r queue =>
      refine ⟨h.sent, h.delivered, ?_⟩
      intro q hq hin hanswer
      have hsettled : q.Settled := by
        match hrequests : s.requests with
        | [] =>
          rw [hrequests] at hplaced
          exact hplaced.elim
        | first :: requests =>
          rw [hrequests] at hplaced hq
          obtain ⟨rfl, hrest⟩ := hplaced
          cases hq with
          | head => exact .inl rfl
          | tail _ hq => exact hrest q hq
      exact absurd hsettled (h.not_settled hq hin hanswer)
  | send mac linkkey =>
    rw [hphase] at hplaced
    match hrequests : s.requests with
    | [] =>
      rw [hrequests] at hplaced
      exact hplaced.elim
    | q :: requests =>
      rw [hrequests] at hplaced
      obtain ⟨rfl, hrest⟩ := hplaced
      obtain ⟨hsent, hdelivered, hfront⟩ := h
      rw [hrequests, List.forall_mem_cons] at hsent hdelivered hfront
      cases written with
      | true =>
        simp only [if_true]
        refine ⟨?_, ?_, ?_⟩
        all_goals
          simp only [State.updateRequest, hrequests, List.modifyHead_cons, List.forall_mem_cons]
        . exact ⟨fun _ => Option.some_ne_none s.now, hsent.2⟩
        . exact hdelivered
        . exact ⟨fun hin => absurd hin Bool.false_ne_true, hfront.2⟩
      | false =>
        exact ⟨List.forall_mem_cons.mpr hsent, List.forall_mem_cons.mpr hdelivered,
          List.forall_mem_cons.mpr hfront⟩
  | wait mac msec =>
    cases hqueue : s.queue with
    | nil =>
      dsimp only
      split
      . have hfront := h.front
        rw [hqueue] at hfront
        exact ⟨h.sent, h.delivered, hfront⟩
      . have hanswer := h.answer hknown hphase (a := .error IOT_ERROR_AUTHORIZE_TIMEOUT) ?_ s.queue
        . exact hanswer
        . rintro ⟨first, hfirst, -⟩
          rw [hqueue] at hfirst
          cases hfirst
    | cons r queue =>
      have hhandle := h.handle hknown hphase hqueue
      rw [hphase] at hhandle
      exact hhandle

theorem Known.next (h : Known s) (e : Step) : Known (s.next e) := by
  cases e with
  | arrive r =>
    refine ⟨?_, ?_, placed_hear s.now r h.placed⟩
    . intro r' hr'
      rcases List.mem_append.mp hr' with hmem | hmem
      . exact List.mem_cons_of_mem r (h.queued r' hmem)
      . rw [List.mem_singleton.mp hmem]
        exact List.mem_cons_self
    . simp only [State.next, List.forall_mem_map]
      intro q hq a ha hjoin
      rw [hear_answer] at ha
      obtain ⟨r', hr', hmac, heq⟩ := h.own q hq a ha hjoin
      rw [hear_mac]
      exact ⟨r', List.mem_cons_of_mem r hr', hmac, heq⟩
  | linkinfo mac linkkey opened =>
    simp only [State.next]
    cases hphase : s.phase with
    | idle =>
      have hplaced := h.placed
      rw [hphase] at hplaced
      refine ⟨h.queued, ?_, ?_⟩
      . rw [List.forall_mem_cons]
        exact ⟨fun a ha => absurd ha (Option.not_mem_none a), h.own⟩
      . cases opened with
        | true => exact ⟨rfl, hplaced⟩
        | false => exact List.forall_mem_cons.mpr ⟨.inl rfl, hplaced⟩
    | flush | send | wait => exact h
  | resume written =>
    simp only [State.next]
    split
    . exact h
    . exact h.resume written
  | tick => exact ⟨h.queued, h.own, h.placed⟩

theorem Timely.next (h : Timely s) (hknown : Known s) (e : Step) (hok : Expected s e)
    : Timely (s.next e) := by
  cases e with
  | arrive r =>
    refine ⟨?_, ?_, ?_⟩
    . simp only [State.next, List.forall_mem_map, hear_sentAt, hear_inTime]
      rintro q hq (hin | ⟨⟨sentAt, hsent, -⟩, -⟩)
      . exact h.sent q hq hin
      . exact Option.ne_none_iff_exists'.mpr ⟨sentAt, hsent⟩
    . simp only [State.next, List.forall_mem_map, hear_answer, hear_inTime]
      rintro q hq (hin | hhears) a ha
      . exact h.delivered q hq hin a ha
      . rcases hok q hq hhears with ⟨a', ha', hjoin⟩ | ⟨hnone, -⟩
        . rwa [Option.mem_unique ha ha']
        . rw [hnone] at ha
          exact absurd ha (Option.not_mem_none a)
    . simp only [State.next, List.forall_mem_map, hear_answer, hear_mac, hear_inTime,
        List.head?_append]
      rintro q hq (hin | hhears) hanswer
      . obtain ⟨first, hfirst, hmac⟩ := h.front q hq hin hanswer
        rw [Option.mem_def.mp hfirst]
        exact ⟨first, rfl, hmac⟩
      . rcases hok q hq hhears with ⟨a, ha, -⟩ | ⟨-, hfront⟩
        . rw [hanswer] at ha
          exact absurd ha (Option.not_mem_none a)
        . cases hqueue : s.queue.head? with
          | none => exact ⟨r, rfl, hhears.2⟩
          | some first => exact ⟨first, rfl, hfront first hqueue⟩
  | linkinfo mac linkkey opened =>
    simp only [State.next]
    cases hphase : s.phase with
    | idle =>
      refine ⟨?_, ?_, ?_⟩
      all_goals rw [List.forall_mem_cons]
      . exact ⟨fun hin => absurd hin Bool.false_ne_true, h.sent⟩
      . exact ⟨fun hin => absurd hin Bool.false_ne_true, h.delivered⟩
      . exact ⟨fun hin => absurd hin Bool.false_ne_true, h.front⟩
    | flush | send | wait => exact h
  | resume written =>
    simp only [State.next]
    split
    . exact h
    . exact h.resume hknown written
  | tick => exact ⟨h.sent, h.delivered, h.front⟩

theorem Timely.correlated (h : Timely s) (hknown : Known s) : Correlated s where
  own := hknown.own
  delivered := h.delivered
  awaited := by
    intro q hq hin hanswer
    obtain ⟨first, hfirst, -⟩ := h.front q hq hin hanswer
    have hnot := h.not_settled hq hin hanswer
    have hqueue : s.queue ≠ [] := by
      intro hnil
      rw [hnil] at hfirst
      cases hfirst
    refine ⟨?_, hqueue⟩
    have hplaced := hknown.placed
    match hrequests : s.requests with
    | [] =>
      rw [hrequests] at hq
      cases hq
    | q' :: requests =>
      rw [hrequests] at hplaced hq
      cases hphase : s.phase with
      | idle =>
        rw [hphase] at hplaced
        exact absurd (hplaced q hq) hnot
      | flush mac linkkey msec | send mac linkkey =>
        rw [hphase] at hplaced
        obtain ⟨rfl, hrest⟩ := hplaced
        cases hq with
        | head => exact absurd (.inl rfl) hnot
        | tail _ hq => exact absurd (hrest q hq) hnot
      | wait mac msec =>
        rw [hphase] at hplaced
        obtain ⟨⟨rfl, -⟩, hrest⟩ := hplaced
        cases hq with
        | head => exact ⟨msec, rfl⟩
        | tail _ hq => exact absurd (hrest q hq) hnot

end

theorem known_exec (steps : List Step) : Known (exec step .start steps) :=
  inv_exec_all step (fun _ e h => h.next e) steps Known.start

/--
Whatever arrives, no client gets the data of another device.
-/
theorem owns_exec (steps : List Step)
    : ∀ q ∈ (exec step .start steps).requests, q.Owns (exec step .start steps).dispatched :=
  (known_exec steps).own

theorem timely_exec {steps : List Step} (hok : Along step Expected .start steps)
    : Known (exec step .start steps) ∧ Timely (exec step .start steps) := by
  have hstep (s : State) (e : Step) (h : Known s ∧ Timely s) (hexpected : Expected s e)
      : Known (s.next e) ∧ Timely (s.next e) :=
    ⟨h.1.next e, h.2.next h.1 e hexpected⟩
  exact inv_exec step hstep ⟨Known.start, Timely.start⟩ hok

/--
A joiner that waits and has something to read answers the client as soon as it goes on.
-/
theorem resume_answers {s : State} {mac : String} {msec : Nat} (hphase : s.phase = .wait mac msec)
    (hqueue : s.queue ≠ []) (hwake : s.wake ≤ s.now) (written : Bool)
    : ∃ a, (s.next (.resume written)).requests
        = s.requests.modifyHead fun q => { q with answer := some a } := by
  obtain ⟨r, queue, hcons⟩ := List.exists_cons_of_ne_nil hqueue
  obtain ⟨parser, zcb, hhandle⟩ := handle_eq { s with queue } mac r
  have hresume : s.next (.resume written) = { s with queue }.handle mac r := by
    simp only [State.next, if_neg (Nat.not_lt_of_le hwake), State.resume]
    split
    . next h => rw [hphase] at h; cases h
    . next h => rw [hphase] at h; cases h
    . next h => rw [hphase] at h; cases h
    . next mac' msec' h =>
      rw [hphase] at h
      cases h
      rw [hcons]
  rw [hresume, hhandle]
  exact ⟨_, rfl⟩

/--
In every run in which the responses are expected, every client is answered as it should.
-/
theorem correlated_of_expected (steps : List Step) (hok : Along step Expected .start steps)
    : Correlated (exec step .start steps) := by
  obtain ⟨hknown, htimely⟩ := timely_exec hok
  exact htimely.correlated hknown

/--
The joiner flushes its empty queue for 100 milliseconds and writes to the ZCB.
-/
def asks (mac : String) : List Step :=
  .linkinfo mac "000102030405060708090A0B0C0D0E0F" true :: .resume true
    :: List.replicate 50 .tick ++ [.resume true, .resume true]

def responseOf (u64IEEEAddress : UInt64) : AuthenticateResponse where
  u64IEEEAddress
  au8NetworkKey := Vector.replicate 16 0x5A
  au8MIC := Vector.replicate 4 0xC3
  u64TrustCenterAddress := 0x00158D0000000001
  u8KeySequenceNumber := 0
  u8Channel := 15
  u16PanID := 0xABCD
  u64PanID := 0x1234

/--
Two clients, each of which gets a response for its own device.
-/
def inTurn : List Step :=
  asks "00158d0000350a11" ++ [.arrive (responseOf 0x00158D0000350A11), .resume true]
    ++ asks "00158d0000350a22" ++ [.arrive (responseOf 0x00158D0000350A22), .resume true]

theorem correlated_inTurn : Correlated (exec step .start inTurn) :=
  correlated_of_expected inTurn (by decide +kernel)

/--
The response for the first device is repeated before that for the second one arrives.
-/
def repeated : List Step :=
  asks "00158d0000350a11" ++ [.arrive (responseOf 0x00158D0000350A11), .resume true]
    ++ asks "00158d0000350a22"
    ++ [.arrive (responseOf 0x00158D0000350A11), .arrive (responseOf 0x00158D0000350A22), .resume true]

theorem repeated_not_correlated : ¬∀ steps, Correlated (exec step .start steps) := by
  intro h
  have hdelivered := (h repeated).delivered
  have hbad : ∃ q ∈ (exec step .start repeated).requests, q.inTime = true
      ∧ q.answer = some (.error IOT_ERROR_AUTHORIZE_RESPONSE) := by
    decide +kernel
  obtain ⟨q, hq, hin, hanswer⟩ := hbad
  cases hdelivered q hq hin _ hanswer

end SecureJoiner
