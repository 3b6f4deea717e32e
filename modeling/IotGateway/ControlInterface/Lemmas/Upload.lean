import IotGateway.ControlInterface.Impl.Upload
import IotGateway.Json.Lemmas.Create

/-!
This module says when an upload of the topology that reports no error has had every command accepted.
A response does not say what it answers, so the upload takes the first one that it reads for an
answer to the command that it has written last.
-/

namespace ControlInterface

open NewDb IotError Json Machine

/--
Before any command behind `i` is written, a response without an error to a written try of `i` is read.
-/
def Accepted (log : List UploadEvent) (i : Nat) : Prop :=
  ∃ before j t r after, log = before ++ .read j t r :: after ∧ r.errcode = 0
    ∧ (∃ t' text, r.answers = some (i, t') ∧ .write i t' text true ∈ before)
    ∧ ∀ k t' text ok, .write k t' text ok ∈ before → k ≤ i

def Awaited (cmds : List TopoString) (i : Nat) : Prop := ∃ cmd, cmds[i]? = some cmd ∧ cmd.ackWait ≠ 0

/--
The response read after try `t` ends the wait for command `i`. `INT_MAX` stands for no response.
-/
structure Schedule.Decides (sch : Schedule) (i t : Nat) (r : Response) : Prop where
  lt : t < MAX_RETRIES
  read : sch.reads i t = some r
  definite : r.errcode ≠ Int32.maxValue
  first : ∀ t' < t, ∀ r', sch.reads i t' = some r' → r'.errcode = Int32.maxValue

def Schedule.Confirms (sch : Schedule) (i : Nat) : Prop := ∃ t r, sch.Decides i t r ∧ r.errcode = 0

/--
The response that ends the wait answers a try of the command that has been written before.
-/
def Schedule.Answers (sch : Schedule) (i : Nat) : Prop :=
  ∃ t r t', sch.Decides i t r ∧ r.answers = some (i, t') ∧ t' ≤ t ∧ sch.writes i t' = true

section

variable {sch : Schedule} {i t t' : Nat} {r r' : Response}

theorem Schedule.Decides.unique (h : sch.Decides i t r) (h' : sch.Decides i t' r')
    : t = t' ∧ r = r' := by
  have heq : t = t' := by
    rcases Nat.lt_trichotomy t t' with hlt | heq | hlt
    . exact absurd (h'.first t hlt r h.read) h.definite
    . exact heq
    . exact absurd (h.first t' hlt r' h'.read) h'.definite
  subst heq
  exact ⟨rfl, Option.some.inj (h.read.symm.trans h'.read)⟩

theorem errcode_eq_INT_MAX_iff {errcode : Int32}
    : errcode.toInt = INT_MAX ↔ errcode = Int32.maxValue := by
  rw [← Int32.toInt_inj]
  rfl

theorem errcode_eq_zero_iff {errcode : Int32} : errcode.toInt = 0 ↔ errcode = 0 := by
  rw [← Int32.toInt_inj]
  rfl

end

/--
The parser is between two messages.
-/
def Between (p : ParserData) : Prop := ∃ events, At .none [] [] events p

theorem between_jsonReset (p : ParserData) : Between (jsonReset p) := ⟨p.events, at_jsonReset p⟩

theorem response_readable (errcode : Int32)
    : (jsonTopoResponse errcode).Shaped ∧ NamesValid (jsonTopoResponse errcode).members
        ∧ (jsonTopoResponse errcode).InLimits := by
  have hbuilt : Built (fun _ => (0, 0)) (fun _ => (0, 0)) (jsonTopoResponse errcode) :=
    .jsonTopoResponse errcode
  have hname : Clean "errcode" ∧ "errcode".toList.length < MAXNAME := by
    unfold Clean
    decide
  have hlength := length_decimal_le errcode
  have hmember : (int "errcode" errcode).text.length ≤ 21 := by
    show ('"' :: "errcode".toList ++ ['"', ':'] ++ decimal errcode).length ≤ 21
    have hquoted : ('"' :: "errcode".toList ++ ['"', ':']).length = 10 := by decide
    rw [List.length_append]
    omega
  refine ⟨built_shaped hbuilt, ?_, ⟨?_, ?_, ?_, ?_⟩⟩
  . apply namesAll_nil.cons
    dsimp only [int]
    decide
  . intro m hm
    rw [List.mem_singleton.mp hm]
    exact hname
  . intro m hm value hvalue
    rw [List.mem_singleton.mp hm] at hvalue
    cases hvalue
  . intro m hm
    rw [List.mem_singleton.mp hm]
    exact Nat.le_trans hmember (by decide)
  . show ('"' :: "tprsp".toList ++ ['"'] ++ " : \x7b ".toList ++ (int "errcode" errcode).text
      ++ " \x7d\n".toList).length < 500
    have hopen : ('"' :: "tprsp".toList ++ ['"'] ++ " : \x7b ".toList).length = 12 := by
      decide
    have hclose : " \x7d\n".toList.length = 3 := by decide
    rw [List.length_append, List.length_append, hopen, hclose]
    omega

theorem reads_response {events : List Event} {p : ParserData} (hp : At .none [] [] events p)
    (r : Response)
    : At .none [] []
        (events ++ [.objectStart "tprsp".toList, .integer "errcode".toList r.errcode.toInt,
          .objectComplete "tprsp".toList])
        (exec eatStep p r.text) := by
  obtain ⟨hshaped, hnames, hlimits⟩ := response_readable r.errcode
  have hcount : (jsonTopoResponse r.errcode).members.length ≤ 8 := Nat.succ_le_succ (Nat.zero_le 7)
  have hread := reads_named hp hshaped hnames hlimits hcount
  rw [← message_eq hlimits.whole] at hread
  exact hread

section

variable (s : Upload)

theorem trOn_with (p : ParserData) (event : Event)
    : trOn { s with parser := p } event = { trOn s event with parser := p } := by
  cases event with
  | objectComplete name =>
    simp only [trOn]
    split
    . rfl
    . rfl
  | integer name value =>
    simp only [trOn]
    split
    . rfl
    . rfl
  | objectStart | error | arrayStart | arrayComplete | string => rfl

theorem foldl_trOn_with (p : ParserData) (events : List Event)
    : events.foldl trOn { s with parser := p } = { events.foldl trOn s with parser := p } := by
  induction events generalizing s with
  | nil => rfl
  | cons event events ih =>
    rw [List.foldl_cons, trOn_with, ih]
    rfl

/--
The callbacks do not use the parser, so they might as well be called after the whole text is read.
-/
theorem foldl_eat (text : List Char)
    : text.foldl Upload.eat s
        = { (trace eatStep s.parser text).foldl trOn s with parser := exec eatStep s.parser text } := by
  induction text generalizing s with
  | nil => rfl
  | cons c text ih =>
    have heat : s.eat c
        = { (eatStep s.parser c).2.foldl trOn s with parser := jsonEat s.parser c } :=
      foldl_trOn_with s (jsonEat s.parser c) (eatStep s.parser c).2
    rw [List.foldl_cons, heat, ih, foldl_trOn_with, trace_cons, List.foldl_append]
    rfl

theorem eat_response (h : Between s.parser) (r : Response)
    : ∃ parser, Between parser ∧ r.text.foldl Upload.eat s
        = { s with parser, errcode := r.errcode.toInt, topoOk := decide (r.errcode = 0) } := by
  obtain ⟨events, hat⟩ := h
  have hread := reads_response hat r
  have htrace : trace eatStep s.parser r.text
      = [.objectStart "tprsp".toList, .integer "errcode".toList r.errcode.toInt,
        .objectComplete "tprsp".toList] := by
    have hevents := events_exec s.parser r.text
    rw [hread.events_eq, hat.events_eq] at hevents
    exact (List.append_cancel_left hevents).symm
  refine ⟨_, ⟨_, hread⟩, ?_⟩
  rw [foldl_eat, htrace]
  simp only [List.foldl_cons, List.foldl_nil, trOn, if_pos]
  rw [decide_eq_decide.mpr errcode_eq_zero_iff]

end

section

variable (sch : Schedule) (i : Nat) (text : List Char)

def tryEvents (t : Nat) : List UploadEvent :=
  .write i t text (sch.writes i t) :: ((sch.reads i t).map (.read i t)).toList

/--
What the first `t` tries of a command do to the queues.
-/
def triesEvents (t : Nat) : List UploadEvent := (List.range t).flatMap (tryEvents sch i text)

theorem triesEvents_succ (t : Nat)
    : triesEvents sch i text (t + 1) = triesEvents sch i text t ++ tryEvents sch i text t := by
  rw [triesEvents, List.range_succ, List.flatMap_append, List.flatMap_singleton]
  rfl

variable {sch i text}

theorem mem_triesEvents {t : Nat} {e : UploadEvent}
    : e ∈ triesEvents sch i text t
      ↔ ∃ t' < t, e = .write i t' text (sch.writes i t')
          ∨ ∃ r, sch.reads i t' = some r ∧ e = .read i t' r := by
  simp only [triesEvents, tryEvents, List.mem_flatMap, List.mem_range, List.mem_cons,
    Option.mem_toList, Option.map_eq_some_iff]
  constructor
  . rintro ⟨t', hlt, rfl | ⟨r, hread, rfl⟩⟩
    . exact ⟨t', hlt, .inl rfl⟩
    . exact ⟨t', hlt, .inr ⟨r, hread, rfl⟩⟩
  . rintro ⟨t', hlt, rfl | ⟨r, hread, rfl⟩⟩
    . exact ⟨t', hlt, .inl rfl⟩
    . exact ⟨t', hlt, .inr ⟨r, hread, rfl⟩⟩

theorem write_mem_triesEvents {t k t' : Nat} {text' : List Char} {ok : Bool}
    (h : .write k t' text' ok ∈ triesEvents sch i text t)
    : k = i ∧ t' < t ∧ ok = sch.writes i t' := by
  obtain ⟨t₁, hlt, heq | ⟨r, -, heq⟩⟩ := mem_triesEvents.mp h
  . injection heq with hk ht _ hok
    subst hk ht
    exact ⟨rfl, hlt, hok⟩
  . cases heq

theorem read_mem_triesEvents {t k t' : Nat} {r : Response}
    (h : .read k t' r ∈ triesEvents sch i text t)
    : t' < t ∧ sch.reads i t' = some r := by
  obtain ⟨t₁, hlt, heq | ⟨r', hread, heq⟩⟩ := mem_triesEvents.mp h
  . cases heq
  . injection heq with _ ht hr
    subst ht hr
    exact ⟨hlt, hread⟩

end

section

variable (sch : Schedule) (i : Nat) (cmd : TopoString) (log : List UploadEvent)

/--
The first `t` tries of the command, which began with `log`, have not ended the wait.
-/
structure Waiting (t : Nat) (s : Upload) : Prop where
  between : Between s.parser
  topoOk : s.topoOk = false
  errcode : s.errcode = INT_MAX
  log : s.log = log ++ triesEvents sch i cmd.text t
  undecided : ∀ t' < t, ∀ r, sch.reads i t' = some r → r.errcode = Int32.maxValue

structure Decided (t : Nat) (r : Response) (s : Upload) : Prop where
  decides : sch.Decides i t r
  between : Between s.parser
  topoOk : s.topoOk = decide (r.errcode = 0)
  errcode : s.errcode ≠ INT_MAX
  log : s.log = log ++ triesEvents sch i cmd.text (t + 1)

variable {sch i cmd log} {s : Upload}

theorem queueWrite_eq (sch : Schedule) (i t : Nat) (text : List Char) (s : Upload)
    : ∃ gen, s.queueWrite sch i t text
        = { s with gen, log := s.log ++ [.write i t text (sch.writes i t)] } := by
  unfold Upload.queueWrite
  dsimp only
  split
  . exact ⟨s.gen, rfl⟩
  . exact ⟨_, rfl⟩

theorem setJoined_eq (sch : Schedule) (i : Nat) (manId : Int) (s : Upload)
    : ∃ db, setJoined sch i manId s = { s with db } := by
  unfold setJoined
  dsimp only
  split
  . split
    . exact ⟨_, rfl⟩
    . exact ⟨_, rfl⟩
  . exact ⟨_, rfl⟩

theorem uploadTry_spec {t : Nat} (h : Waiting sch i cmd log t s) (ht : t < MAX_RETRIES)
    : Waiting sch i cmd log (t + 1) (uploadTry sch i t cmd s).1
      ∨ ∃ r, Decided sch i cmd log t r (uploadTry sch i t cmd s).1
          ∧ (uploadTry sch i t cmd s).2 = IOT_ERROR_NONE := by
  obtain ⟨gen, hwrite⟩ := queueWrite_eq sch i t cmd.text s
  unfold uploadTry
  rw [hwrite]
  cases hread : sch.reads i t with
  | none =>
    left
    refine ⟨h.between, h.topoOk, h.errcode, ?_, ?_⟩
    . simp [h.log, triesEvents_succ, tryEvents, hread]
    . intro t' ht' r hr
      rcases Nat.lt_succ_iff_lt_or_eq.mp ht' with hlt | rfl
      . exact h.undecided t' hlt r hr
      . rw [hread] at hr
        cases hr
  | some r =>
    have hlog : s.log ++ [.write i t cmd.text (sch.writes i t)] ++ [.read i t r]
        = log ++ triesEvents sch i cmd.text (t + 1) := by
      simp [h.log, triesEvents_succ, tryEvents, hread]
    dsimp only
    rw [hlog]
    obtain ⟨parser, hbetween, heat⟩ := eat_response
      { s with gen, log := log ++ triesEvents sch i cmd.text (t + 1) } h.between r
    rw [heat]
    by_cases hmax : r.errcode = Int32.maxValue
    . left
      refine ⟨hbetween, ?_, errcode_eq_INT_MAX_iff.mpr hmax, rfl, ?_⟩
      . show decide (r.errcode = 0) = false
        rw [hmax]
        rfl
      . intro t' ht' r' hr'
        rcases Nat.lt_succ_iff_lt_or_eq.mp ht' with hlt | rfl
        . exact h.undecided t' hlt r' hr'
        . rw [hread] at hr'
          obtain rfl := Option.some.inj hr'
          exact hmax
    . right
      refine ⟨r, ⟨⟨ht, hread, hmax, h.undecided⟩, hbetween, rfl, ?_, rfl⟩, rfl⟩
      exact fun heq => hmax (errcode_eq_INT_MAX_iff.mp heq)

theorem uploadTries_spec {retries : Nat} (hpos : 0 < retries) (hle : retries ≤ MAX_RETRIES)
    (h : Waiting sch i cmd log (MAX_RETRIES - retries) s)
    : Waiting sch i cmd log MAX_RETRIES (uploadTries sch i cmd retries s).1
      ∨ ∃ t r, Decided sch i cmd log t r (uploadTries sch i cmd retries s).1
          ∧ (uploadTries sch i cmd retries s).2 = IOT_ERROR_NONE := by
  induction retries generalizing s with
  | zero => exact absurd hpos (Nat.lt_irrefl 0)
  | succ retries ih =>
    have hnext : MAX_RETRIES - (retries + 1) + 1 = MAX_RETRIES - retries := by omega
    have htry := uploadTry_spec h (by omega)
    rw [uploadTries]
    generalize uploadTry sch i (MAX_RETRIES - (retries + 1)) cmd s = result at htry ⊢
    obtain ⟨q, error⟩ := result
    dsimp only at htry ⊢
    rcases htry with hwaiting | ⟨r, hdecided, herror⟩
    . rw [hnext] at hwaiting
      by_cases hretry : 0 < retries
      . rw [if_pos ⟨hwaiting.errcode, hretry⟩]
        exact ih hretry (by omega) hwaiting
      . rw [if_neg fun hcond => hretry hcond.2]
        left
        rwa [Nat.eq_zero_of_not_pos hretry] at hwaiting
    . rw [if_neg fun hcond => hdecided.errcode hcond.1]
      exact .inr ⟨_, r, hdecided, herror⟩

theorem Waiting.not_decides (h : Waiting sch i cmd log MAX_RETRIES s) (t : Nat) (r : Response)
    : ¬ sch.Decides i t r := by
  intro hdecides
  exact hdecides.definite (h.undecided t hdecides.lt r hdecides.read)

end

section

variable {sch : Schedule} {i : Nat} {xs ys : List UploadEvent}

theorem accepted_append_left (hxs : ∀ k t text ok, .write k t text ok ∈ xs → k < i)
    : Accepted (xs ++ ys) i ↔ Accepted ys i := by
  constructor
  . rintro ⟨before, j, t, r, after, heq, herrcode, ⟨t', text, hanswers, hmem⟩, hle⟩
    rcases List.append_eq_append_iff.mp heq with ⟨rest, rfl, hrest⟩ | ⟨rest, rfl, -⟩
    . refine ⟨rest, j, t, r, after, hrest, herrcode, ⟨t', text, hanswers, ?_⟩, ?_⟩
      . rcases List.mem_append.mp hmem with hmem | hmem
        . exact absurd (hxs i t' text true hmem) (Nat.lt_irrefl i)
        . exact hmem
      . intro k t'' text' ok hwrite
        exact hle k t'' text' ok (List.mem_append_right xs hwrite)
    . have hearly := hxs i t' text true (List.mem_append_left rest hmem)
      exact absurd hearly (Nat.lt_irrefl i)
  . rintro ⟨before, j, t, r, after, rfl, herrcode, ⟨t', text, hanswers, hmem⟩, hle⟩
    refine ⟨xs ++ before, j, t, r, after, (List.append_assoc _ _ _).symm, herrcode,
      ⟨t', text, hanswers, List.mem_append_right xs hmem⟩, ?_⟩
    intro k t'' text' ok hwrite
    rcases List.mem_append.mp hwrite with hwrite | hwrite
    . exact Nat.le_of_lt (hxs k t'' text' ok hwrite)
    . exact hle k t'' text' ok hwrite

theorem accepted_append_right
    (hys : ∀ e ∈ ys.head?, ∃ k t text ok, e = .write k t text ok ∧ i < k)
    : Accepted (xs ++ ys) i ↔ Accepted xs i := by
  constructor
  . rintro ⟨before, j, t, r, after, heq, herrcode, hanswers, hle⟩
    rcases List.append_eq_append_iff.mp heq with ⟨rest, rfl, hrest⟩ | ⟨rest, hrest, heq'⟩
    . exfalso
      cases rest with
      | nil =>
        obtain ⟨k, t', text, ok, he, -⟩ := hys (.read j t r) (by rw [hrest]; rfl)
        cases he
      | cons e rest =>
        obtain ⟨k, t', text, ok, rfl, hlt⟩ := hys e (by rw [hrest]; rfl)
        have hmem : .write k t' text ok ∈ xs ++ .write k t' text ok :: rest := by simp
        exact Nat.lt_irrefl i (Nat.lt_of_lt_of_le hlt (hle k t' text ok hmem))
    . cases rest with
      | nil =>
        exfalso
        obtain ⟨k, t', text, ok, he, -⟩ := hys (.read j t r) (by rw [← List.nil_append ys, ← heq']; rfl)
        cases he
      | cons e rest =>
        obtain ⟨rfl, -⟩ := List.cons.inj heq'
        exact ⟨before, j, t, r, rest, hrest, herrcode, hanswers, hle⟩
  . rintro ⟨before, j, t, r, after, rfl, herrcode, hanswers, hle⟩
    exact ⟨before, j, t, r, after ++ ys, by simp, herrcode, hanswers, hle⟩

theorem accepted_tries {t : Nat} {r : Response} (text : List Char) (h : sch.Decides i t r)
    (herrcode : r.errcode = 0)
    : Accepted (triesEvents sch i text (t + 1)) i ↔ sch.Answers i := by
  constructor
  . rintro ⟨before, j, t₁, r', after, heq, herrcode', ⟨t', text', hanswers, hmem⟩, -⟩
    have hread : .read j t₁ r' ∈ triesEvents sch i text (t + 1) := by
      rw [heq]
      simp
    have hwrite : .write i t' text' true ∈ triesEvents sch i text (t + 1) := by
      rw [heq]
      exact List.mem_append_left _ hmem
    obtain ⟨hlt, hresponse⟩ := read_mem_triesEvents hread
    obtain ⟨-, hle, hok⟩ := write_mem_triesEvents hwrite
    have ht : t₁ = t := by
      rcases Nat.lt_succ_iff_lt_or_eq.mp hlt with hlt | heq
      . have hmax := h.first t₁ hlt r' hresponse
        rw [herrcode'] at hmax
        exact absurd hmax (by decide)
      . exact heq
    subst ht
    obtain rfl := Option.some.inj (h.read.symm.trans hresponse)
    exact ⟨t₁, r, t', h, hanswers, Nat.le_of_lt_succ hle, hok.symm⟩
  . rintro ⟨t₁, r₁, t', hdecides, hanswers, hle, hok⟩
    obtain ⟨rfl, rfl⟩ := h.unique hdecides
    have hevents : triesEvents sch i text (t + 1)
        = (triesEvents sch i text t ++ [.write i t text (sch.writes i t)]) ++ .read i t r :: [] := by
      rw [triesEvents_succ, tryEvents, h.read]
      simp
    refine ⟨_, i, t, r, [], hevents, herrcode, ⟨t', text, hanswers, ?_⟩, ?_⟩
    . rcases Nat.lt_or_eq_of_le hle with hlt | rfl
      . apply List.mem_append_left
        exact mem_triesEvents.mpr ⟨t', hlt, .inl (by rw [hok])⟩
      . rw [hok]
        simp
    . intro k t'' text' ok hmem
      have hmem' : .write k t'' text' ok ∈ triesEvents sch i text (t + 1) := by
        rw [hevents]
        exact List.mem_append_left _ hmem
      obtain ⟨rfl, -, -⟩ := write_mem_triesEvents hmem'
      exact Nat.le_refl k

end

/--
What one command does to the queues.
-/
structure Block (i : Nat) (block : List UploadEvent) : Prop where
  starts : ∃ t text ok, block.head? = some (.write i t text ok)
  writes : ∀ k t text ok, .write k t text ok ∈ block → k = i

theorem block_tries (sch : Schedule) (i : Nat) (text : List Char) (t : Nat)
    : Block i (triesEvents sch i text (t + 1)) := by
  constructor
  . refine ⟨0, text, sch.writes i 0, ?_⟩
    rw [triesEvents, List.range_succ_eq_map, List.flatMap_cons]
    rfl
  . intro k t' text' ok hmem
    exact (write_mem_triesEvents hmem).1

/--
What an upload makes of one command.
-/
structure Sent (sch : Schedule) (i : Nat) (cmd : TopoString) (before : List UploadEvent)
    (result : Upload × Int) (block : List UploadEvent) : Prop where
  isBlock : Block i block
  log : result.1.log = before ++ block
  between : Between result.1.parser
  none_iff : result.2 = IOT_ERROR_NONE ↔ (cmd.ackWait ≠ 0 → sch.Confirms i)
  accepted_iff : cmd.ackWait ≠ 0 → sch.Confirms i → (Accepted block i ↔ sch.Answers i)

theorem not_accepted_ne_none : IOT_ERROR_TOPO_NOT_ACCEPTED ≠ IOT_ERROR_NONE := by decide

theorem uploadCommand_spec {s : Upload} (sch : Schedule) (i : Nat) (cmd : TopoString)
    (h : Between s.parser)
    : ∃ block, Sent sch i cmd s.log (uploadCommand sch i cmd s) block := by
  unfold uploadCommand
  by_cases hwait : cmd.ackWait ≠ 0
  . rw [if_pos hwait]
    have hstart : Waiting sch i cmd s.log (MAX_RETRIES - MAX_RETRIES)
        { s with topoOk := false, errcode := INT_MAX } := by
      refine ⟨h, rfl, rfl, (List.append_nil s.log).symm, ?_⟩
      intro t' ht'
      exact absurd ht' (Nat.not_lt_zero t')
    have htries := uploadTries_spec (by decide) (Nat.le_refl MAX_RETRIES) hstart
    generalize uploadTries sch i cmd MAX_RETRIES { s with topoOk := false, errcode := INT_MAX }
      = result at htries ⊢
    obtain ⟨q, error⟩ := result
    dsimp only at htries ⊢
    rcases htries with hwaiting | ⟨t, r, hdecided, rfl⟩
    . have hno : ¬ sch.Confirms i := fun ⟨t, r, hdecides, _⟩ => hwaiting.not_decides t r hdecides
      have hblock := block_tries sch i cmd.text 2
      rw [if_neg (by rw [hwaiting.topoOk]; exact Bool.false_ne_true)]
      split
      . exact ⟨_, hblock, hwaiting.log, hwaiting.between,
          ⟨fun hnone => absurd hnone not_accepted_ne_none, fun hyes => absurd (hyes hwait) hno⟩,
          fun _ hyes => absurd hyes hno⟩
      . next herror =>
        exact ⟨_, hblock, hwaiting.log, hwaiting.between,
          ⟨fun hnone => absurd hnone herror, fun hyes => absurd (hyes hwait) hno⟩,
          fun _ hyes => absurd hyes hno⟩
    . have hblock := block_tries sch i cmd.text t
      by_cases herrcode : r.errcode = 0
      . obtain ⟨db, hjoined⟩ := setJoined_eq sch i cmd.manId q
        have hyes : sch.Confirms i := ⟨t, r, hdecided.decides, herrcode⟩
        rw [if_pos (hdecided.topoOk.trans (decide_eq_true herrcode)), hjoined]
        exact ⟨_, hblock, hdecided.log, hdecided.between, ⟨fun _ _ => hyes, fun _ => rfl⟩,
          fun _ _ => accepted_tries cmd.text hdecided.decides herrcode⟩
      . have hno : ¬ sch.Confirms i := by
          rintro ⟨t', r', hdecides, hzero⟩
          apply herrcode
          rw [(hdecided.decides.unique hdecides).2]
          exact hzero
        rw [if_neg (by rw [hdecided.topoOk, decide_eq_true_eq]; exact herrcode), if_pos rfl]
        exact ⟨_, hblock, hdecided.log, hdecided.between,
          ⟨fun hnone => absurd hnone not_accepted_ne_none, fun hyes => absurd (hyes hwait) hno⟩,
          fun _ hyes => absurd hyes hno⟩
  . rw [if_neg hwait]
    obtain ⟨gen, hwrite⟩ := queueWrite_eq sch i 0 cmd.text s
    rw [hwrite]
    refine ⟨[.write i 0 cmd.text (sch.writes i 0)], ⟨⟨0, cmd.text, sch.writes i 0, rfl⟩, ?_⟩, rfl,
      h, ⟨fun _ hyes => absurd hyes hwait, fun _ => rfl⟩, fun hyes => absurd hyes hwait⟩
    intro k t text ok hmem
    injection List.mem_singleton.mp hmem

@[simp]
theorem awaited_zero (cmd : TopoString) (cmds : List TopoString)
    : Awaited (cmd :: cmds) 0 ↔ cmd.ackWait ≠ 0 := by
  simp [Awaited]

@[simp]
theorem awaited_succ (cmd : TopoString) (cmds : List TopoString) (k : Nat)
    : Awaited (cmd :: cmds) (k + 1) ↔ Awaited cmds k := by
  simp [Awaited]

/--
What an upload makes of the commands from the one with the index `i` on.
-/
structure SentAll (sch : Schedule) (i : Nat) (cmds : List TopoString) (before : List UploadEvent)
    (result : Upload × Int) (after : List UploadEvent) : Prop where
  log : result.1.log = before ++ after
  starts : ∀ e ∈ after.head?, ∃ t text ok, e = .write i t text ok
  none_iff : result.2 = IOT_ERROR_NONE ↔ ∀ k, Awaited cmds k → sch.Confirms (i + k)
  accepted_iff : result.2 = IOT_ERROR_NONE → ∀ k, Awaited cmds k →
    (Accepted after (i + k) ↔ sch.Answers (i + k))

theorem uploadCommands_spec {s : Upload} (sch : Schedule) (i : Nat) (cmds : List TopoString)
    (h : Between s.parser)
    : ∃ after, SentAll sch i cmds s.log (uploadCommands sch i cmds s) after := by
  induction cmds generalizing i s with
  | nil =>
    have hno (k : Nat) : ¬ Awaited [] k := by simp [Awaited]
    exact ⟨[], (List.append_nil s.log).symm, by simp,
      ⟨fun _ k hk => absurd hk (hno k), fun _ => rfl⟩, fun _ k hk => absurd hk (hno k)⟩
  | cons cmd cmds ih =>
    obtain ⟨block, hblock, hlog, hbetween, hnone, haccepted⟩ := uploadCommand_spec sch i cmd h
    rw [uploadCommands]
    generalize uploadCommand sch i cmd s = result at hlog hbetween hnone ⊢
    obtain ⟨q, error⟩ := result
    dsimp only at hlog hbetween hnone ⊢
    obtain ⟨t, text, ok, hstarts⟩ := hblock.starts
    obtain ⟨rest, rfl⟩ := List.head?_eq_some_iff.mp hstarts
    by_cases herror : error = IOT_ERROR_NONE
    . rw [if_pos herror]
      obtain ⟨after, hlog', hstarts', hnone', haccepted'⟩ := ih (i + 1) hbetween
      have hconfirms := hnone.mp herror
      refine ⟨(.write i t text ok :: rest) ++ after, ?_, ?_, ?_, ?_⟩
      . rw [hlog', hlog, List.append_assoc]
      . intro e he
        obtain rfl := Option.mem_some_iff.mp he
        exact ⟨t, text, ok, rfl⟩
      . rw [hnone']
        constructor
        . intro hrest k hk
          cases k with
          | zero => exact hconfirms ((awaited_zero cmd cmds).mp hk)
          | succ k =>
            rw [← Nat.succ_add_eq_add_succ]
            exact hrest k ((awaited_succ cmd cmds k).mp hk)
        . intro hall k hk
          rw [Nat.succ_add_eq_add_succ]
          exact hall (k + 1) ((awaited_succ cmd cmds k).mpr hk)
      . intro hdone k hk
        cases k with
        | zero =>
          have hwait := (awaited_zero cmd cmds).mp hk
          refine Iff.trans (accepted_append_right ?_) (haccepted hwait (hconfirms hwait))
          intro e he
          obtain ⟨t', text', ok', rfl⟩ := hstarts' e he
          exact ⟨i + 1, t', text', ok', rfl, Nat.lt_succ_self i⟩
        | succ k =>
          rw [← Nat.succ_add_eq_add_succ]
          refine Iff.trans (accepted_append_left ?_)
            (haccepted' hdone k ((awaited_succ cmd cmds k).mp hk))
          intro k' t' text' ok' hmem
          rw [hblock.writes k' t' text' ok' hmem]
          omega
    . rw [if_neg herror]
      refine ⟨_, hlog, ?_, ?_, fun hdone => absurd hdone herror⟩
      . intro e he
        obtain rfl := Option.mem_some_iff.mp he
        exact ⟨t, text, ok, rfl⟩
      . constructor
        . intro hdone
          exact absurd hdone herror
        . intro hall
          apply hnone.mpr
          intro hwait
          exact hall 0 ((awaited_zero cmd cmds).mpr hwait)

theorem not_accepted_nil (i : Nat) : ¬ Accepted [] i := by
  rintro ⟨before, j, t, r, after, heq, -⟩
  exact absurd heq.symm (List.append_ne_nil_of_right_ne_nil before (List.cons_ne_nil _ after))

/--
If there is something to wait for, both queues open, and unless a command is left without a response
that confirms it, every response that ends a wait answers the command waited for.
-/
def Schedule.Honest (sch : Schedule) (cmds : List TopoString) : Prop :=
  (∃ i, Awaited cmds i) →
    sch.zcbQueue = .ok () ∧ sch.controlQueue = .ok ()
      ∧ ((∀ i, Awaited cmds i → sch.Confirms i) → ∀ i, Awaited cmds i → sch.Answers i)

section

variable (sch : Schedule) (topodevs : List TopoDev) {s : Upload}

/--
An upload with a queue that does not open has nothing accepted.
-/
theorem unsent_iff_honest {cmds : List TopoString} {log : List UploadEvent} (hlog : log = [])
    (hfail : ¬ (sch.zcbQueue = .ok () ∧ sch.controlQueue = .ok ()))
    : (IOT_ERROR_NONE = IOT_ERROR_NONE → ∀ i, Awaited cmds i → Accepted log i) ↔ sch.Honest cmds := by
  rw [hlog]
  constructor
  . rintro hall ⟨i, hi⟩
    exact absurd (hall rfl i hi) (not_accepted_nil i)
  . rintro hhonest - i hi
    obtain ⟨hzcb, hcontrol, -⟩ := hhonest ⟨i, hi⟩
    exact absurd ⟨hzcb, hcontrol⟩ hfail

theorem uploadLocked_accepted_iff (hlog : s.log = [])
    : ((uploadLocked sch topodevs s).2 = IOT_ERROR_NONE →
          ∀ i, Awaited (topoGenerate topodevs s.gen).topoStrings i →
            Accepted (uploadLocked sch topodevs s).1.log i)
        ↔ sch.Honest (topoGenerate topodevs s.gen).topoStrings := by
  unfold uploadLocked
  cases hzcb : sch.zcbQueue with
  | error error =>
    apply unsent_iff_honest sch hlog
    rw [hzcb]
    rintro ⟨⟨⟩, -⟩
  | ok =>
    cases hcontrol : sch.controlQueue with
    | error error =>
      apply unsent_iff_honest sch hlog
      rw [hcontrol]
      rintro ⟨-, ⟨⟩⟩
    | ok =>
      let start : Upload :=
        { s with
          parser := jsonReset s.parser
          gen := topoGenerate topodevs s.gen
          log := s.log ++ sch.flushed.map .flush }
      have hstart : Between start.parser := between_jsonReset s.parser
      obtain ⟨after, hafter, -, hnone, haccepted⟩ :=
        uploadCommands_spec sch 0 start.gen.topoStrings hstart
      simp only [Nat.zero_add] at hnone haccepted
      have hflush (i : Nat) : Accepted (start.log ++ after) i ↔ Accepted after i := by
        apply accepted_append_left
        intro k t text ok hmem
        simp [start, hlog] at hmem
      show ((uploadCommands sch 0 start.gen.topoStrings start).2 = IOT_ERROR_NONE →
          ∀ i, Awaited start.gen.topoStrings i →
            Accepted (uploadCommands sch 0 start.gen.topoStrings start).1.log i)
        ↔ sch.Honest start.gen.topoStrings
      rw [hafter]
      simp only [hflush]
      constructor
      . intro hall _
        refine ⟨hzcb, hcontrol, ?_⟩
        intro hconfirms i hi
        have hdone := hnone.mpr hconfirms
        exact (haccepted hdone i hi).mp (hall hdone i hi)
      . intro hhonest hdone i hi
        obtain ⟨-, -, hanswers⟩ := hhonest ⟨i, hi⟩
        exact (haccepted hdone i hi).mpr (hanswers (hnone.mp hdone) i hi)

/--
An upload that reports no error has had every command with a wait accepted before the next one was
written exactly if the schedule is honest or the upload does not get the lock.
-/
theorem uploadTopo_accepted_iff (s : Upload)
    : ((uploadTopo sch topodevs s).2 = IOT_ERROR_NONE →
          ∀ i, Awaited (topoGenerate topodevs s.gen).topoStrings i →
            Accepted (uploadTopo sch topodevs s).1.log i)
        ↔ ((lockTopoUpload sch.lock 10 s.db).2 = true →
            sch.Honest (topoGenerate topodevs s.gen).topoStrings) := by
  unfold uploadTopo
  rcases hlock : lockTopoUpload sch.lock 10 s.db with ⟨db, locked⟩
  cases locked with
  | false =>
    constructor
    . rintro - ⟨⟩
    . intro _ hnone
      exact absurd hnone (show IOT_ERROR_TOPO_TIMEOUT ≠ IOT_ERROR_NONE by decide)
  | true =>
    have hlocked := uploadLocked_accepted_iff sch topodevs (s := { s with db, log := [] }) rfl
    exact hlocked.trans ⟨fun hhonest _ => hhonest, fun hhonest => hhonest rfl⟩

end

/--
The clear command of a manager is written twice, since its answer is late. The answer to the second
try is then read while `endconf` is waited for, which the node may never get.
-/
def lateAnswer : Schedule where
  reads := fun i t =>
    if i = 1 ∧ t = 1 then some { errcode := 0, answers := some (1, 0) }
    else if i = 2 ∧ t = 0 then some { errcode := 0, answers := some (1, 1) }
    else none

def oneManager : List TopoDev :=
  [{ id := 3, dev := DEVICE_DEV_MANAGER, par := 0, mac := "00158D0000350123", nm := "man" }]

def beforeUpload : Upload where
  parser := .init
  topoOk := false
  errcode := 0
  gen := {}
  db := .init
  log := []

/--
Some response that is read answers the command.
-/
def answered (log : List UploadEvent) (i : Nat) : Bool :=
  log.any fun e =>
    match e with
    | .read _ _ r => r.answers.any fun answer => answer.1 = i
    | _ => false

theorem answered_of_accepted {log : List UploadEvent} {i : Nat} (h : Accepted log i)
    : answered log i = true := by
  obtain ⟨before, j, t, r, after, rfl, -, ⟨t', text, hanswers, -⟩, -⟩ := h
  simp [answered, hanswers]

theorem lateAnswer_not_accepted
    : ¬ ∀ (sch : Schedule) (topodevs : List TopoDev) (s : Upload),
        (uploadTopo sch topodevs s).2 = IOT_ERROR_NONE →
          ∀ i, Awaited (topoGenerate topodevs s.gen).topoStrings i →
            Accepted (uploadTopo sch topodevs s).1.log i := by
  intro h
  have hnone : (uploadTopo lateAnswer oneManager beforeUpload).2 = IOT_ERROR_NONE := by
    decide
  have hawaited : Awaited (topoGenerate oneManager beforeUpload.gen).topoStrings 2 :=
    ⟨_, rfl, by decide⟩
  have hanswered := answered_of_accepted (h lateAnswer oneManager beforeUpload hnone 2 hawaited)
  revert hanswered
  decide

end ControlInterface
