import IotGateway.Dbp.Impl.LocReceiver
import IotGateway.Dbp.Lemmas.Copy
import IotGateway.Json.Lemmas.Parse

/-!
This module says which cuts of a stream of locations make no difference for the parser.
-/

namespace Dbp.LocReceiver

open Client Json Machine

section Text

variable {c : Char} {rest beyond : Client.Text} {x : Piece} {request : Request}

theorem removeFirst_of_mem (h : '\x00' ∈ rest)
    : untilNul (removeFirst (c :: rest) ++ beyond) = untilNul rest := by
  induction rest generalizing c with
  | nil => cases h
  | cons d rest ih =>
    rw [removeFirst]
    by_cases hd : d = '\x00'
    . rw [if_pos hd, hd]
      simp [untilNul]
    . have hrest : '\x00' ∈ rest := by
        cases h with
        | head => exact absurd rfl hd
        | tail _ h => exact h
      have hfirst := ih (c := d) hrest
      rw [if_neg hd]
      simpa [untilNul, hd] using hfirst

theorem removeFirst_of_not_mem (c : Char) (h : '\x00' ∉ rest) (beyond : Client.Text)
    : rest.length ≤ (untilNul (removeFirst (c :: rest) ++ beyond)).length := by
  induction rest generalizing c with
  | nil => exact Nat.zero_le _
  | cons d rest ih =>
    rw [List.mem_cons, not_or] at h
    have hfirst := ih d h.2
    rw [removeFirst, if_neg (Ne.symm h.1)]
    have hd : d ≠ '\x00' := Ne.symm h.1
    simpa [untilNul, hd] using hfirst

/--
The text of a piece is what follows its first byte, if it can be queued.
-/
theorem queueWrite_text : queueWrite x.text = queueWrite (untilNul x.request.bytes.tail) := by
  obtain ⟨⟨bytes, hpos, hle⟩, beyond⟩ := x
  cases bytes with
  | nil => exact absurd hpos (Nat.lt_irrefl 0)
  | cons c rest =>
    have htext : Piece.text ⟨⟨c :: rest, hpos, hle⟩, beyond⟩
        = untilNul (removeFirst (c :: (rest ++ Buffer.zero.bytes.drop (rest.length + 1)))
          ++ beyond) := rfl
    rw [htext]
    rw [List.length_cons] at hle
    by_cases hnul : '\x00' ∈ rest
    . rw [removeFirst_of_mem (List.mem_append_left _ hnul), (untilNul_append_of_mem hnul _).1]
      rfl
    . have hall : untilNul rest = rest := untilNul_of_not_mem hnul
      by_cases hshort : rest.length + 1 < 512
      . have hzeros := drop_zero hshort
        have hmem : '\x00' ∈ rest ++ Buffer.zero.bytes.drop (rest.length + 1) := by
          rw [hzeros]
          exact List.mem_append_right _ List.mem_cons_self
        rw [removeFirst_of_mem hmem, untilNul_append_of_not_mem hnul, hzeros]
        show queueWrite (rest ++ []) = queueWrite (untilNul rest)
        rw [List.append_nil, hall]
      . have hfull : Buffer.zero.bytes.drop (rest.length + 1) = [] := by
          apply List.drop_of_length_le
          rw [Buffer.zero.length_eq]
          omega
        have hlong := removeFirst_of_not_mem c hnul beyond
        rw [hfull, List.append_nil]
        unfold queueWrite MAXMESSAGESIZE
        rw [if_pos (by omega), if_pos]
        show 300 - 2 < (untilNul rest).length
        rw [hall]
        omega

end Text

section Parser

variable {p : ParserData} {before : List Json.Event} {m : Message} {c : Char} {text : Client.Text}

/--
The message is an object that the parser reads right.
-/
def Message.IsDocument (m : Message) : Prop :=
  '\x00' ∉ m.text ∧ ∃ d : Doc, d.IsText m.text ∧ d.Fits ∧ d.Regular

/--
The events of a message on its own.
-/
def Message.events (m : Message) : List Json.Event := trace eatStep (jsonReset .init) m.text

theorem document_at {d : Doc} (hat : At .none [] [] before p) (htext : d.IsText text)
    (hfits : d.Fits ∧ d.Regular)
    : At .none [] [] (before ++ d.events atoiOf) (exec eatStep p text) := by
  obtain ⟨body, space, rfl, hbody, hspace⟩ := htext
  rw [exec_append]
  exact exec_blanks (blank_at rfl)
    ((doc_settles d (Nat.le_refl before.length)).reads hfits _ hat body hbody) hspace

theorem trace_of_at {events' : List Json.Event} (hat : At .none [] [] before p)
    (hat' : At .none [] [] (before ++ events') (exec eatStep p text))
    : trace eatStep p text = events' := by
  have hevents := events_exec p text
  rw [hat'.events_eq, hat.events_eq] at hevents
  exact (List.append_cancel_left hevents).symm

/--
Wherever the parser is between two objects it reports the events of the message.
-/
theorem message_at (hm : m.IsDocument) (hat : At .none [] [] before p)
    : trace eatStep p m.text = m.events
      ∧ At .none [] [] (before ++ m.events) (exec eatStep p m.text) := by
  obtain ⟨-, d, htext, hfits⟩ := hm
  have hown : m.events = d.events atoiOf :=
    trace_of_at (at_jsonReset .init) (document_at (at_jsonReset .init) htext hfits)
  have hread := document_at hat htext hfits
  rw [hown]
  exact ⟨trace_of_at hat hread, hread⟩

theorem events_ne_nil (hm : m.IsDocument) : m.events ≠ [] := by
  obtain ⟨-, d, htext, hfits⟩ := hm
  have hown : m.events = d.events atoiOf :=
    trace_of_at (at_jsonReset .init) (document_at (at_jsonReset .init) htext hfits)
  rw [hown]
  exact List.cons_ne_nil _ _

/--
Between two objects the parser skips what opens none.
-/
theorem lead_at (hat : At .none [] [] before p) (hbrace : c ≠ '{') (hquote : c ≠ '"')
    : (eatStep p c).2 = [] ∧ At .none [] [] before (eatStep p c).1 := by
  have heat : jsonEat p c = p.log c := by
    apply jsonEat_once
    unfold eatOnce
    rw [(hat.log c).state_eq]
    simp [hbrace, hquote]
  have hlog := hat.log c
  show (jsonEat p c).events.drop p.events.length = [] ∧ At .none [] [] before (jsonEat p c)
  rw [heat, hlog.events_eq, hat.events_eq, List.drop_length]
  exact ⟨rfl, hlog⟩

/--
The messages behind the first one with their leading bytes.
-/
theorem messages_at {ms : List Message} (hms : ∀ m ∈ ms, m.IsDocument)
    (hleads : ∀ m ∈ ms, m.lead ≠ '{' ∧ m.lead ≠ '"') (hat : At .none [] [] before p)
    : trace eatStep p (stream ms) = ms.flatMap Message.events := by
  induction ms generalizing p before with
  | nil => rfl
  | cons m ms ih =>
    obtain ⟨hbrace, hquote⟩ := hleads m List.mem_cons_self
    obtain ⟨hnothing, hlead⟩ := lead_at hat hbrace hquote
    obtain ⟨htrace, hmessage⟩ := message_at (hms m List.mem_cons_self) hlead
    have hrest := ih (fun n hn => hms n (List.mem_cons_of_mem _ hn))
      (fun n hn => hleads n (List.mem_cons_of_mem _ hn)) hmessage
    have hbytes : stream (m :: ms) = m.lead :: (m.text ++ stream ms) := rfl
    rw [hbytes, trace_cons, trace_append, hnothing, htrace, hrest]
    rfl

end Parser

section Groups

variable {g : List Message} {ms : List Message} {p : ParserData} {x : Piece}

/--
The messages in a piece up to the first one with a leading byte of 0, and the others.
-/
def kept : List Message → List Message
  | [] => []
  | m :: rest => m :: rest.takeWhile fun m => m.lead ≠ '\x00'

def lost : List Message → List Message
  | [] => []
  | _ :: rest => rest.dropWhile fun m => m.lead ≠ '\x00'

/--
The messages without the first leading byte.
-/
def joined (ms : List Message) : Client.Text := (stream ms).tail

theorem untilNul_messages (hms : ∀ m ∈ ms, m.IsDocument)
    : untilNul (stream ms)
      = stream (ms.takeWhile fun m => m.lead ≠ '\x00') := by
  induction ms with
  | nil => rfl
  | cons m ms ih =>
    have hbytes : stream (m :: ms) = m.lead :: (m.text ++ stream ms) := rfl
    have hrest := ih fun n hn => hms n (List.mem_cons_of_mem _ hn)
    rw [hbytes]
    by_cases hlead : m.lead = '\x00'
    . simp only [untilNul, hlead, ne_eq, not_true, decide_false, Bool.false_eq_true,
        not_false_eq_true, List.takeWhile_cons_of_neg]
      rfl
    . have htext := untilNul_append_of_not_mem (hms m List.mem_cons_self).1
        (stream ms)
      rw [hrest] at htext
      rw [List.takeWhile_cons_of_pos (by simpa using hlead)]
      show untilNul (m.lead :: (m.text ++ stream ms))
        = m.lead :: (m.text ++ stream (ms.takeWhile fun m => m.lead ≠ '\x00'))
      rw [← htext]
      simp [untilNul, hlead]

theorem untilNul_joined (hms : ∀ m ∈ g, m.IsDocument)
    : untilNul (joined g) = joined (kept g) := by
  cases g with
  | nil => rfl
  | cons m rest =>
    show untilNul (m.text ++ stream rest)
      = m.text ++ stream (rest.takeWhile fun m => m.lead ≠ '\x00')
    rw [untilNul_append_of_not_mem (hms m List.mem_cons_self).1,
      untilNul_messages fun n hn => hms n (List.mem_cons_of_mem _ hn)]

theorem trace_joined (hms : ∀ m ∈ g, m.IsDocument)
    (hleads : ∀ m ∈ g.tail, m.lead ≠ '{' ∧ m.lead ≠ '"')
    : trace eatStep (jsonReset p) (joined g) = g.flatMap Message.events := by
  cases g with
  | nil => rfl
  | cons m rest =>
    obtain ⟨htrace, hat⟩ := message_at (hms m List.mem_cons_self) (at_jsonReset p)
    have hrest := messages_at (fun n hn => hms n (List.mem_cons_of_mem _ hn)) hleads hat
    show trace eatStep (jsonReset p) (m.text ++ stream rest) = _
    rw [trace_append, htrace, hrest]
    rfl

/--
The events of a message in a piece of its own.
-/
def Message.alone (m : Message) : List Json.Event := if 298 < m.text.length then [] else m.events

/--
The events of the messages in one piece.
-/
def together (g : List Message) : List Json.Event :=
  if 298 < (joined (kept g)).length then [] else (kept g).flatMap Message.events

/--
Nothing gets lost when the messages are in one piece: the part of it that is read can be queued, and
what is not read could not be.
-/
structure Whole (g : List Message) : Prop where
  queued : (kept g).length ≤ 1 ∨ (joined (kept g)).length ≤ 298
  lost : ∀ m ∈ lost g, 298 < m.text.length

theorem kept_append_lost (g : List Message) : kept g ++ lost g = g := by
  cases g with
  | nil => rfl
  | cons m rest =>
    show m :: (rest.takeWhile _ ++ rest.dropWhile _) = m :: rest
    rw [List.takeWhile_append_dropWhile]

theorem text_le_joined {m : Message} (hm : m ∈ g) : m.text.length ≤ (joined g).length := by
  have hmem : m.request.bytes.length ≤ (stream g).length := by
    obtain ⟨before, after, rfl⟩ := List.append_of_mem hm
    unfold stream
    rw [List.flatMap_append, List.flatMap_cons]
    simp only [List.length_append]
    omega
  have hlength : m.request.bytes.length = m.text.length + 1 := rfl
  unfold joined
  rw [List.length_tail]
  omega

/--
Of two messages in one piece one can be queued.
-/
theorem exists_short {m n : Message} {rest : List Message}
    (hle : (stream (m :: n :: rest)).length ≤ 512) : m.text.length ≤ 298 ∨ n.text.length ≤ 298 := by
  have hbytes : stream (m :: n :: rest)
      = m.lead :: (m.text ++ n.lead :: (n.text ++ stream rest)) := rfl
  rw [hbytes] at hle
  simp only [List.length_cons, List.length_append] at hle
  omega

theorem alone_eq_nil_iff {m : Message} (hm : m.IsDocument)
    : m.alone = [] ↔ 298 < m.text.length := by
  unfold Message.alone
  split
  . next hlong => exact iff_of_true rfl hlong
  . next hshort => exact iff_of_false (events_ne_nil hm) hshort

theorem alone_of_short {m : Message} (h : m.text.length ≤ 298) : m.alone = m.events :=
  if_neg (Nat.not_lt_of_le h)

/--
If the part that is read can be queued all of its messages could be.
-/
theorem flatMap_alone (h : (joined ms).length ≤ 298)
    : ms.flatMap Message.alone = ms.flatMap Message.events := by
  apply List.flatMap_congr
  intro m hm
  exact alone_of_short (Nat.le_trans (text_le_joined hm) h)

theorem alone_split (g : List Message)
    : g.flatMap Message.alone
      = (kept g).flatMap Message.alone ++ (lost g).flatMap Message.alone := by
  rw [← List.flatMap_append, kept_append_lost]

theorem together_of_whole (hg : Whole g) : together g = g.flatMap Message.alone := by
  have hlost : (lost g).flatMap Message.alone = [] := by
    rw [List.flatMap_eq_nil_iff]
    intro m hm
    exact if_pos (hg.lost m hm)
  rw [alone_split, hlost, List.append_nil]
  unfold together
  by_cases hshort : (joined (kept g)).length ≤ 298
  . rw [if_neg (Nat.not_lt_of_le hshort), flatMap_alone hshort]
  . have hone : (kept g).length ≤ 1 := hg.queued.resolve_right hshort
    cases hkept : kept g with
    | nil => rfl
    | cons m rest =>
      rw [hkept, List.length_cons] at hone
      have hrest : rest = [] := List.length_eq_zero_iff.mp (by omega)
      subst hrest
      have htext : joined [m] = m.text := List.append_nil _
      rw [htext, List.flatMap_singleton, List.flatMap_singleton]
      rfl

theorem together_le (g : List Message)
    : (together g).length ≤ ((kept g).flatMap Message.alone).length := by
  unfold together
  split
  . exact Nat.zero_le _
  . next hshort => rw [flatMap_alone (Nat.le_of_not_lt hshort)]

theorem alone_pos {m : Message} (hmem : m ∈ ms) (hm : m.IsDocument) (hshort : m.text.length ≤ 298)
    : 0 < (ms.flatMap Message.alone).length := by
  rw [List.length_pos_iff, ne_eq, List.flatMap_eq_nil_iff]
  intro hnil
  have hlong := (alone_eq_nil_iff hm).mp (hnil m hmem)
  omega

theorem together_lt (hms : ∀ m ∈ g, m.IsDocument) (hle : (stream g).length ≤ 512) (hg : ¬Whole g)
    : (together g).length < (g.flatMap Message.alone).length := by
  have hle' := together_le g
  have hmem : ∀ m, m ∈ kept g ∨ m ∈ lost g → m.IsDocument := by
    intro m hm
    apply hms
    rw [← kept_append_lost g]
    exact List.mem_append.mpr hm
  rw [alone_split, List.length_append]
  by_cases hlost : ∀ m ∈ lost g, 298 < m.text.length
  . obtain ⟨htwo, hlong⟩ := not_or.mp fun hqueued => hg ⟨hqueued, hlost⟩
    have hnothing : together g = [] := if_pos (Nat.lt_of_not_le hlong)
    have hpos : 0 < ((kept g).flatMap Message.alone).length := by
      have hkept : (stream (kept g)).length ≤ 512 := by
        have happend : stream (kept g) ++ stream (lost g) = stream g := by
          unfold stream
          rw [← List.flatMap_append, kept_append_lost]
        rw [← happend, List.length_append] at hle
        omega
      match hcases : kept g, htwo, hkept with
      | [], htwo, _ => exact absurd (Nat.zero_le 1) htwo
      | [_], htwo, _ => exact absurd (Nat.le_refl 1) htwo
      | m :: n :: rest, _, hkept =>
        rw [hcases] at hmem
        rcases exists_short hkept with hshort | hshort
        . exact alone_pos List.mem_cons_self (hmem m (.inl List.mem_cons_self)) hshort
        . have hn : n ∈ m :: n :: rest := List.mem_cons_of_mem _ List.mem_cons_self
          exact alone_pos hn (hmem n (.inl hn)) hshort
    rw [hnothing, List.length_nil]
    omega
  . simp only [not_forall] at hlost
    obtain ⟨m, hm, hshort⟩ := hlost
    have hpos := alone_pos hm (hmem m (.inr hm)) (Nat.le_of_not_lt hshort)
    omega

end Groups

section Cut

variable {groups : List (List Message)} {messages : List Message} {pieces own : List Piece}
  {p : ParserData}

/--
The stream is cut between messages: each piece has one group of them.
-/
def Cut (groups : List (List Message)) (pieces : List Piece) : Prop :=
  List.Forall₂ (fun g x => x.request.bytes = stream g) groups pieces

theorem receiver_cut (hcut : Cut groups pieces) (hdocs : ∀ g ∈ groups, ∀ m ∈ g, m.IsDocument)
    (hleads : ∀ g ∈ groups, ∀ m ∈ g.tail, m.lead ≠ '{' ∧ m.lead ≠ '"')
    : zigbee_msg_receiver (dbp_loc_receiver pieces) p = groups.flatMap together := by
  induction hcut generalizing p with
  | nil => rfl
  | @cons g x groups pieces hbytes hcut ih =>
    have hg := hdocs g List.mem_cons_self
    have hrest := fun q => ih (p := q) (fun h hh => hdocs h (List.mem_cons_of_mem g hh))
      (fun h hh => hleads h (List.mem_cons_of_mem g hh))
    have hkept : ∀ m ∈ kept g, m.IsDocument := by
      intro m hm
      apply hg
      rw [← kept_append_lost g]
      exact List.mem_append_left _ hm
    have hkeptLeads : ∀ m ∈ (kept g).tail, m.lead ≠ '{' ∧ m.lead ≠ '"' := by
      intro m hm
      apply hleads g List.mem_cons_self
      cases g with
      | nil => cases hm
      | cons n rest => exact (List.takeWhile_prefix _).subset hm
    have htext : queueWrite x.text = queueWrite (joined (kept g)) := by
      rw [queueWrite_text, hbytes, ← untilNul_joined hg]
      rfl
    show zigbee_msg_receiver (queueWrite x.text ++ dbp_loc_receiver pieces) p
      = together g ++ groups.flatMap together
    rw [htext]
    by_cases hlong : 298 < (joined (kept g)).length
    . have hqueue : queueWrite (joined (kept g)) = [] := if_pos hlong
      have htogether : together g = [] := if_pos hlong
      rw [hqueue, htogether]
      exact hrest p
    . have hqueue : queueWrite (joined (kept g)) = [joined (kept g)] := if_neg hlong
      have htogether : together g = (kept g).flatMap Message.events := if_neg hlong
      rw [hqueue, htogether, ← trace_joined (p := p) hkept hkeptLeads]
      exact congrArg _ (hrest _)

theorem cut_alone (messages : List Message) (h : own.map (·.request) = messages.map Message.request)
    : Cut (messages.map fun m => [m]) own := by
  induction messages generalizing own with
  | nil =>
    rw [List.map_nil, List.map_eq_nil_iff] at h
    rw [h]
    exact List.Forall₂.nil
  | cons m messages ih =>
    obtain ⟨x, rest, rfl, hx, hrest⟩ := List.map_eq_cons_iff.mp h
    refine List.Forall₂.cons ?_ (ih hrest)
    rw [hx]
    exact (List.append_nil _).symm

theorem together_alone (m : Message) : together [m] = m.alone := by
  have htext : joined (kept [m]) = m.text := List.append_nil _
  unfold together Message.alone
  rw [htext]
  split
  . rfl
  . exact List.append_nil _

theorem receiver_alone (hdocs : ∀ m ∈ messages, m.IsDocument)
    (h : own.map (·.request) = messages.map Message.request)
    : zigbee_msg_receiver (dbp_loc_receiver own) p = messages.flatMap Message.alone := by
  rw [receiver_cut (cut_alone messages h)]
  . rw [List.flatMap_map]
    apply List.flatMap_congr
    intro m _
    exact together_alone m
  . intro g hg m hm
    obtain ⟨n, hn, rfl⟩ := List.mem_map.mp hg
    rw [List.mem_singleton.mp hm]
    exact hdocs n hn
  . intro g hg m hm
    obtain ⟨n, -, rfl⟩ := List.mem_map.mp hg
    cases hm

/--
The parser reports the same as if each message had arrived in a piece of its own.
-/
def SameEvents (messages : List Message) (pieces : List Piece) : Prop :=
  ∀ own p, own.map (fun x : Piece => x.request) = messages.map Message.request →
    zigbee_msg_receiver (dbp_loc_receiver pieces) p
      = zigbee_msg_receiver (dbp_loc_receiver own) p

/--
What is in memory behind the buffer makes no difference.
-/
theorem sameEvents_own (h : own.map (·.request) = messages.map Message.request)
    : SameEvents messages own := by
  intro own' p hown
  have hqueued : ∀ xs ys : List Piece, xs.map (·.request) = ys.map (·.request) →
      dbp_loc_receiver xs = dbp_loc_receiver ys := by
    intro xs
    induction xs with
    | nil =>
      intro ys hys
      rw [List.map_eq_nil_iff.mp hys.symm]
    | cons x xs ih =>
      intro ys hys
      obtain ⟨y, rest, rfl, hy, hrest⟩ := List.map_eq_cons_iff.mp hys.symm
      show queueWrite x.text ++ dbp_loc_receiver xs = queueWrite y.text ++ dbp_loc_receiver rest
      rw [ih rest hrest.symm, queueWrite_text, queueWrite_text, hy]
  rw [hqueued own own' (h.trans hown.symm)]

theorem together_groups_le (hcut : Cut groups pieces)
    (hdocs : ∀ g ∈ groups, ∀ m ∈ g, m.IsDocument)
    : (groups.flatMap together).length ≤ (groups.flatten.flatMap Message.alone).length
      ∧ (¬(∀ g ∈ groups, Whole g) →
        (groups.flatMap together).length < (groups.flatten.flatMap Message.alone).length) := by
  induction hcut with
  | nil => exact ⟨Nat.le_refl _, fun h => absurd (List.forall_mem_nil _) h⟩
  | @cons g x groups pieces hbytes hcut ih =>
    obtain ⟨hle, hlt⟩ := ih fun h hh => hdocs h (List.mem_cons_of_mem g hh)
    have hsize : (stream g).length ≤ 512 := by
      rw [← hbytes]
      exact x.request.le
    have hlt' := together_lt (hdocs g List.mem_cons_self) hsize
    have hle' : (together g).length ≤ (g.flatMap Message.alone).length := by
      by_cases hg : Whole g
      . rw [together_of_whole hg]
      . exact Nat.le_of_lt (hlt' hg)
    rw [List.flatMap_cons, List.flatten_cons, List.flatMap_append, List.length_append,
      List.length_append]
    refine ⟨Nat.add_le_add hle' hle, fun hnot => ?_⟩
    by_cases hg : Whole g
    . have hrest : ¬∀ h ∈ groups, Whole h := fun h => hnot (List.forall_mem_cons.mpr ⟨hg, h⟩)
      have hlt := hlt hrest
      omega
    . have hlt := hlt' hg
      omega

theorem together_groups (hwhole : ∀ g ∈ groups, Whole g)
    : groups.flatMap together = groups.flatten.flatMap Message.alone := by
  induction groups with
  | nil => rfl
  | cons g groups ih =>
    rw [List.flatMap_cons, List.flatten_cons, List.flatMap_append,
      together_of_whole (hwhole g List.mem_cons_self),
      ih fun h hh => hwhole h (List.mem_cons_of_mem g hh)]

/--
Pieces of their own make no difference, and objects may be together in a piece exactly if nothing of
them gets lost.
-/
theorem sameEvents_iff (hcut : Cut groups pieces) (hdocs : ∀ g ∈ groups, ∀ m ∈ g, m.IsDocument)
    (hleads : ∀ g ∈ groups, ∀ m ∈ g.tail, m.lead ≠ '{' ∧ m.lead ≠ '"')
    : (SameEvents groups.flatten pieces ↔ ∀ g ∈ groups, Whole g)
      ∧ ∀ messages own, own.map (fun x : Piece => x.request) = messages.map Message.request →
        SameEvents messages own := by
  refine ⟨?_, fun messages own => sameEvents_own⟩
  have hflatten : ∀ m ∈ groups.flatten, m.IsDocument := by
    intro m hm
    obtain ⟨g, hg, hm⟩ := List.mem_flatten.mp hm
    exact hdocs g hg m hm
  constructor
  . intro hsame
    by_contra hnot
    have hlt := (together_groups_le hcut hdocs).2 hnot
    have hrequests : (groups.flatten.map fun m => (⟨m.request, []⟩ : Piece)).map (·.request)
        = groups.flatten.map Message.request := by
      rw [List.map_map]
      rfl
    have hown := hsame _ .init hrequests
    rw [receiver_cut hcut hdocs hleads, receiver_alone hflatten hrequests] at hown
    rw [hown] at hlt
    exact Nat.lt_irrefl _ hlt
  . intro hwhole own p hown
    rw [receiver_cut hcut hdocs hleads, receiver_alone hflatten hown, together_groups hwhole]

theorem isNum_one : ∀ c ∈ ['1'], isNum c = true := by decide
theorem one_ne_nil : ['1'] ≠ [] := by decide
theorem one_short : (Sign.none.text ++ ['1']).length < MAXVALUE := by decide

def location : Doc where
  name := none
  members := .one ⟨['x'], by decide, by decide⟩
    (.integer ⟨.none, ['1'], isNum_one, one_ne_nil, one_short⟩)

def locationMessage (lead : Char) : Message := ⟨lead, location.tokens.flatten, by decide⟩

theorem sameEvents_location
    : (SameEvents [locationMessage ' ', locationMessage ' ']
          [⟨⟨stream [locationMessage ' ', locationMessage ' '], by decide, by decide⟩, []⟩]
        ↔ ∀ g ∈ [[locationMessage ' ', locationMessage ' ']], Whole g)
      ∧ ∀ messages own, own.map (fun x : Piece => x.request) = messages.map Message.request →
        SameEvents messages own := by
  have hcut : Cut [[locationMessage ' ', locationMessage ' ']]
      [⟨⟨stream [locationMessage ' ', locationMessage ' '], by decide, by decide⟩, []⟩] :=
    List.Forall₂.cons rfl List.Forall₂.nil
  have hdocument : (locationMessage ' ').IsDocument := by
    refine ⟨by decide, location, isText_flatten _, ?_, ?_⟩
    . simp [location, Doc.Fits, Value.Fits, Members.Fits]
      decide
    . simp [location, Doc.Regular, Value.Regular, Members.Regular]
  refine sameEvents_iff hcut ?_ ?_
  . intro g hg m hm
    rw [List.mem_singleton.mp hg] at hm
    have hlocation : m = locationMessage ' ' := by simpa using hm
    rw [hlocation]
    exact hdocument
  . intro g hg m hm
    rw [List.mem_singleton.mp hg] at hm
    rw [List.mem_singleton.mp hm]
    decide

/--
The second of two messages in one piece gets lost behind its leading 0.
-/
theorem location_lost
    : ¬∀ messages pieces, pieces.flatMap (fun x : Piece => x.request.bytes) = stream messages →
      SameEvents messages pieces := by
  intro h
  have hsame := h [locationMessage '\x00', locationMessage '\x00']
    [⟨⟨stream [locationMessage '\x00', locationMessage '\x00'], by decide, by decide⟩, []⟩]
    (List.append_nil _)
    [⟨(locationMessage '\x00').request, []⟩, ⟨(locationMessage '\x00').request, []⟩] .init rfl
  revert hsame
  decide +kernel

end Cut

end Dbp.LocReceiver
