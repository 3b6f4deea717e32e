import IotGateway.Lib.Ring
import IotGateway.NewLog.Impl

/-!
This module contains what `newLogLoop` presents of the lines that have been added.
-/

namespace NewLog

/--
A reader is presented lines until it does not want any more. What is left comes back too.
-/
def present (cb : Nat → Bool) : Nat → List OneLog → List OneLog × List OneLog
  | _, [] => ([], [])
  | k, line :: lines =>
    if cb k then
      let rest := present cb (k + 1) lines
      (line :: rest.1, rest.2)
    else
      ([line], lines)

theorem present_append (cb : Nat → Bool) (k : Nat) (lines : List OneLog)
    : (present cb k lines).1 ++ (present cb k lines).2 = lines := by
  induction lines generalizing k with
  | nil => rfl
  | cons line lines ih =>
    simp only [present]
    split
    . exact congrArg (line :: ·) (ih (k + 1))
    . rfl

theorem present_snd (cb : Nat → Bool) (k : Nat) (lines : List OneLog)
    : (present cb k lines).2 = lines.drop (present cb k lines).1.length := by
  have hdrop := congrArg (List.drop (present cb k lines).1.length) (present_append cb k lines)
  rw [List.drop_left] at hdrop
  exact hdrop

theorem present_all (k : Nat) (lines : List OneLog)
    : (present (fun _ => true) k lines).1 = lines := by
  induction lines generalizing k with
  | nil => rfl
  | cons line lines ih => exact congrArg (line :: ·) (ih (k + 1))

theorem nextIndex_eq {index : Nat} (h : index < NEWLOG_MAX_LOGS)
    : nextIndex index = (index + 1) % NEWLOG_MAX_LOGS := by
  unfold nextIndex
  split
  . next hge =>
    have heq : index + 1 = NEWLOG_MAX_LOGS := by omega
    rw [heq, Nat.mod_self]
  . next hlt => rw [Nat.mod_eq_of_lt (by omega)]

namespace Log

/--
The slot of the first of the `m` lines that have been stored last.
-/
def first (l : Log) (m : Nat) : Nat := (l.index + NEWLOG_MAX_LOGS - m) % NEWLOG_MAX_LOGS

/--
The `m` lines that have been stored last.
-/
def last (l : Log) (m : Nat) : List OneLog :=
  Ring.window l.log NEWLOG_MAX_LOGS (l.index + NEWLOG_MAX_LOGS - m) m

theorem last_store (l : Log) (line : OneLog) {m : Nat} (hm : m < NEWLOG_MAX_LOGS)
    : (l.store line).last (m + 1) = l.last m ++ [line] := by
  have hlt := l.index_lt
  have hstart : (nextIndex l.index + NEWLOG_MAX_LOGS - (m + 1)) % NEWLOG_MAX_LOGS
      = (l.index + NEWLOG_MAX_LOGS - m) % NEWLOG_MAX_LOGS := by
    rw [nextIndex_eq hlt]
    simp only [NEWLOG_MAX_LOGS] at *
    omega
  have hslot : l.index = (l.index + NEWLOG_MAX_LOGS - m + m) % NEWLOG_MAX_LOGS := by
    simp only [NEWLOG_MAX_LOGS] at *
    omega
  have hpush : Ring.window
      (Function.update l.log ((l.index + NEWLOG_MAX_LOGS - m + m) % NEWLOG_MAX_LOGS) line)
      NEWLOG_MAX_LOGS (l.index + NEWLOG_MAX_LOGS - m) (m + 1) = l.last m ++ [line] :=
    Ring.window_push line hm
  rw [← hslot] at hpush
  show Ring.window (Function.update l.log l.index line) _ (nextIndex l.index + _ - _) _ = _
  rw [← Ring.window_mod, hstart, Ring.window_mod, hpush]

theorem last_stores (l : Log) (lines : List OneLog) {m : Nat}
    (hm : m + lines.length ≤ NEWLOG_MAX_LOGS)
    : (lines.foldl store l).last (m + lines.length) = l.last m ++ lines := by
  induction lines generalizing l m with
  | nil => exact (List.append_nil _).symm
  | cons line lines ih =>
    rw [List.length_cons] at hm ⊢
    rw [List.foldl_cons, Nat.add_comm lines.length, ← Nat.add_assoc,
      ih (l.store line) (by omega), l.last_store line (by omega), List.append_assoc]
    rfl

theorem index_stores (l : Log) (lines : List OneLog)
    : (lines.foldl store l).index = (l.index + lines.length) % NEWLOG_MAX_LOGS := by
  induction lines generalizing l with
  | nil => exact (Nat.mod_eq_of_lt l.index_lt).symm
  | cons line lines ih =>
    rw [List.foldl_cons, ih, List.length_cons]
    show (nextIndex l.index + _) % _ = _
    rw [nextIndex_eq l.index_lt, Nat.mod_add_mod]
    congr 1
    omega

theorem first_stores (l : Log) (lines : List OneLog) {m : Nat}
    (hm : m + lines.length ≤ NEWLOG_MAX_LOGS)
    : (lines.foldl store l).first (m + lines.length) = l.first m := by
  have hlt := l.index_lt
  rw [first, first, index_stores]
  simp only [NEWLOG_MAX_LOGS] at *
  omega

theorem first_sub (l : Log) {k m : Nat} (hk : k ≤ m) (hm : m ≤ NEWLOG_MAX_LOGS)
    : (l.first m + k) % NEWLOG_MAX_LOGS = l.first (m - k) := by
  rw [first, first, Nat.mod_add_mod]
  congr 1
  omega

theorem first_lt (l : Log) (m : Nat) : l.first m < NEWLOG_MAX_LOGS := Nat.mod_lt _ (by decide)

theorem first_zero (l : Log) : l.first 0 = l.index := by
  rw [first, Nat.sub_zero, Nat.add_mod_right, Nat.mod_eq_of_lt l.index_lt]

/--
The lines after the first `k` of them.
-/
theorem drop_last (l : Log) {k m : Nat} (hk : k ≤ m) (hm : m ≤ NEWLOG_MAX_LOGS)
    : (l.last m).drop k = l.last (m - k) := by
  obtain ⟨n, rfl⟩ := Nat.exists_eq_add_of_le hk
  rw [last, Ring.drop_window, Nat.add_sub_cancel_left, last]
  congr 1
  omega

theorem cnt_stores (l : Log) (lines : List OneLog) (hcnt : l.cnt = toInt l.cnt)
    : (lines.foldl store l).cnt = toInt (l.cnt + lines.length) := by
  induction lines generalizing l with
  | nil => rw [List.foldl_nil, List.length_nil, Int.natCast_zero, Int.add_zero, ← hcnt]
  | cons line lines ih =>
    rw [List.foldl_cons, ih (l.store line) Int.bmod_bmod.symm, List.length_cons]
    simp only [store, toInt, Int.bmod_add_bmod]
    congr 1
    omega

end Log

/--
`cnt` lines are presented if the loop is not stopped.
-/
theorem length_loopFrom (log : Nat → OneLog) (turns k : Nat) (start : Int)
    : (loopFrom log NEWLOG_FROM_NONE (fun _ => true) turns k start).1.length = turns := by
  induction turns generalizing k start with
  | zero => rfl
  | succ turns ih =>
    simp only [loopFrom, true_or, if_true]
    rw [List.length_cons, ih]

/--
The loop over the slots presents what is in the window, and stops behind what it has presented.
-/
theorem loopFrom_eq (log : Nat → OneLog) (cb : Nat → Bool) (turns k : Nat) {start : Nat}
    (hstart : start < NEWLOG_MAX_LOGS)
    : loopFrom log NEWLOG_FROM_NONE cb turns k start
        = let presented := (present cb k (Ring.window log NEWLOG_MAX_LOGS start turns)).1
          (presented, (((start + presented.length) % NEWLOG_MAX_LOGS : Nat) : Int)) := by
  induction turns generalizing k start with
  | zero =>
    simp only [loopFrom, Ring.window_zero, present, List.length_nil, Nat.add_zero,
      Nat.mod_eq_of_lt hstart]
  | succ turns ih =>
    have hnext : (if (start : Int) + 1 ≥ NEWLOG_MAX_LOGS then 0 else (start : Int) + 1)
        = ((start + 1) % NEWLOG_MAX_LOGS : Nat) := by
      simp only [NEWLOG_MAX_LOGS] at *
      omega
    have hlt : (start + 1) % NEWLOG_MAX_LOGS < NEWLOG_MAX_LOGS := Nat.mod_lt _ (by decide)
    rw [Ring.window_cons, Nat.mod_eq_of_lt hstart]
    simp only [loopFrom, true_or, if_true, hnext, Int.toNat_natCast, present]
    split
    . rw [ih (k + 1) hlt, Ring.window_mod]
      simp only [List.length_cons, Nat.mod_add_mod]
      congr 3
      omega
    . simp only [List.length_singleton]

/--
A loop over the lines that have been stored last.
-/
theorem newLogLoop_eq (l : Log) (startIndex : Int) (cb : Nat → Bool) {m : Nat}
    (hm : m < NEWLOG_MAX_LOGS) (hcount : l.loopCount startIndex = m)
    : newLogLoop NEWLOG_FROM_NONE startIndex cb l
        = let presented := (present cb 0 (l.last m)).1
          (presented, (((l.first m + presented.length) % NEWLOG_MAX_LOGS : Nat) : Int)) := by
  have hlt := l.index_lt
  have hstart : (if (l.index : Int) - m < 0 then (l.index : Int) - m + NEWLOG_MAX_LOGS
        else (l.index : Int) - m) = l.first m := by
    simp only [Log.first, NEWLOG_MAX_LOGS] at *
    omega
  simp only [newLogLoop, hcount, hstart, Int.toNat_natCast]
  have hwindow : Ring.window l.log NEWLOG_MAX_LOGS (l.first m) m = l.last m :=
    Ring.window_mod _ _ _ _
  rw [loopFrom_eq _ _ _ _ (l.first_lt m), hwindow]

/--
A call of `newLogAdd` at the time `now`.
-/
structure Add where
  logFrom : Nat
  now : Int
  text : List UInt8

/--
The pieces that the loop of `newLogAdd` takes of a text.
-/
def pieces (text : List UInt8) (len : Int) : List (List UInt8) :=
  if 0 < len then
    text.take NEWLOG_MAX_TEXT :: pieces (text.drop NEWLOG_MAX_TEXT) (len - NEWLOG_MAX_TEXT)
  else
    []
termination_by len.toNat
decreasing_by
  simp only [NEWLOG_MAX_TEXT]
  omega

namespace Add

def line (a : Add) (text : List UInt8) : OneLog where
  logFrom := a.logFrom
  ts := a.now
  text

/--
The chunks that are written.
-/
def lines (a : Add) : List OneLog := (pieces a.text (toInt a.text.length)).map a.line

def run (l : Log) (a : Add) : Log := newLogAdd a.logFrom a.now a.text l

end Add

theorem addLoop_eq (a : Add) (text : List UInt8) (len : Int) (l : Log)
    : addLoop a.logFrom a.now text len l = ((pieces text len).map a.line).foldl Log.store l := by
  induction text, len using pieces.induct generalizing l with
  | case1 text len hlen ih =>
    rw [addLoop, pieces, if_pos hlen, if_pos hlen, ih]
    rfl
  | case2 text len hlen =>
    rw [addLoop, pieces, if_neg hlen, if_neg hlen]
    rfl

theorem Add.run_eq (l : Log) (a : Add) : a.run l = a.lines.foldl Log.store l :=
  addLoop_eq a a.text (toInt a.text.length) l

theorem length_pieces (text : List UInt8) (len : Int)
    : (pieces text len).length = (len.toNat + 97) / NEWLOG_MAX_TEXT := by
  induction text, len using pieces.induct with
  | case1 text len hlen ih =>
    rw [pieces, if_pos hlen, List.length_cons, ih]
    simp only [NEWLOG_MAX_TEXT]
    omega
  | case2 text len hlen =>
    rw [pieces, if_neg hlen]
    simp only [NEWLOG_MAX_TEXT, List.length_nil]
    omega

theorem flatten_pieces (text : List UInt8) (len : Int)
    : (pieces text len).flatten = text.take (NEWLOG_MAX_TEXT * (pieces text len).length) := by
  induction text, len using pieces.induct with
  | case1 text len hlen ih =>
    rw [pieces, if_pos hlen, List.flatten_cons, ih, List.length_cons, Nat.mul_succ, Nat.add_comm,
      List.take_add]
  | case2 text len hlen =>
    rw [pieces, if_neg hlen]
    simp

theorem toInt_of_lt {n : Nat} (h : n < 2 ^ 31) : toInt n = n := by
  apply Int.bmod_eq_of_le
  . omega
  . omega

namespace Add

/--
The slots that a text needs.
-/
def slots (a : Add) : Nat := (a.text.length + 97) / NEWLOG_MAX_TEXT

theorem texts_lines (a : Add)
    : a.lines.map OneLog.text = pieces a.text (toInt a.text.length) := by
  rw [lines, List.map_map]
  exact List.map_id _

theorem length_lines {a : Add} (h : a.text.length < 2 ^ 31) : a.lines.length = a.slots := by
  rw [lines, List.length_map, length_pieces, toInt_of_lt h, Int.toNat_natCast]
  rfl

theorem flatten_lines {a : Add} (h : a.text.length < 2 ^ 31)
    : (a.lines.map OneLog.text).flatten = a.text := by
  rw [texts_lines, flatten_pieces, length_pieces, toInt_of_lt h, Int.toNat_natCast]
  apply List.take_of_length_le
  simp only [NEWLOG_MAX_TEXT]
  omega

/--
A text that does not fit in an `int` would fill the ring.
-/
theorem length_of_flatten_lines {a : Add} (hflatten : (a.lines.map OneLog.text).flatten = a.text)
    (hlines : a.lines.length < NEWLOG_MAX_LOGS)
    : a.text.length < 2 ^ 31 := by
  rw [texts_lines, flatten_pieces] at hflatten
  rw [lines, List.length_map] at hlines
  have hle := congrArg List.length hflatten
  rw [List.length_take] at hle
  simp only [NEWLOG_MAX_LOGS, NEWLOG_MAX_TEXT] at *
  omega

end Add

/--
The log after some calls of `newLogAdd`.
-/
def logged (adds : List Add) : Log := adds.foldl Add.run .create

theorem run_eq (l : Log) (adds : List Add)
    : adds.foldl Add.run l = (adds.flatMap Add.lines).foldl Log.store l := by
  induction adds generalizing l with
  | nil => rfl
  | cons a adds ih => rw [List.foldl_cons, ih, Add.run_eq, List.flatMap_cons, List.foldl_append]

theorem length_flatMap_lines {adds : List Add} (h : ∀ a ∈ adds, a.text.length < 2 ^ 31)
    : (adds.flatMap Add.lines).length = (adds.map Add.slots).sum := by
  rw [List.length_flatMap]
  congr 1
  apply List.map_congr_left
  intro a ha
  exact Add.length_lines (h a ha)

/--
The lines that a ring of `NEWLOG_MAX_LOGS` lines can still hold.
-/
def lastLines (lines : List OneLog) : List OneLog :=
  lines.drop (lines.length - min lines.length NEWLOG_MAX_LOGS)

theorem cnt_logged (adds : List Add)
    : (logged adds).cnt = toInt (adds.flatMap Add.lines).length := by
  rw [logged, run_eq, Log.cnt_stores _ _ rfl]
  exact congrArg toInt (Int.zero_add _)

theorem loop_logged {adds : List Add} (h : (adds.flatMap Add.lines).length < NEWLOG_MAX_LOGS)
    : (newLogLoop NEWLOG_FROM_NONE (-1) (fun _ => true) (logged adds)).1
        = adds.flatMap Add.lines := by
  have hcount : (logged adds).loopCount (-1) = (adds.flatMap Add.lines).length := by
    have hlt : (adds.flatMap Add.lines).length < 2 ^ 31 := Nat.lt_trans h (by decide)
    rw [Log.loopCount, if_pos (by decide), cnt_logged, toInt_of_lt hlt,
      Int.tmod_eq_of_lt (Int.natCast_nonneg _) (Int.ofNat_lt.mpr h)]
  rw [newLogLoop_eq _ _ _ h hcount]
  have hlast := Log.last_stores .create (adds.flatMap Add.lines) (m := 0)
    (by rw [Nat.zero_add]; exact Nat.le_of_lt h)
  rw [← run_eq, Nat.zero_add] at hlast
  show (present _ 0 ((logged adds).last _)).1 = _
  rw [present_all]
  exact hlast

theorem length_loop_logged (adds : List Add)
    : (newLogLoop NEWLOG_FROM_NONE (-1) (fun _ => true) (logged adds)).1.length
        < NEWLOG_MAX_LOGS := by
  have hlt : (logged adds).cnt.tmod NEWLOG_MAX_LOGS < NEWLOG_MAX_LOGS :=
    Int.tmod_lt_of_pos _ (by decide)
  show (loopFrom _ _ _ _ _ _).1.length < _
  rw [length_loopFrom, Log.loopCount, if_pos (by decide)]
  simp only [NEWLOG_MAX_LOGS] at *
  omega

/--
The whole log is presented as long as the ring has never been full.
-/
theorem loop_logged_iff (adds : List Add)
    : ((newLogLoop NEWLOG_FROM_NONE (-1) (fun _ => true) (logged adds)).1
            = lastLines (adds.flatMap Add.lines)
          ∧ ∀ a ∈ adds, (a.lines.map OneLog.text).flatten = a.text)
        ↔ (adds.map Add.slots).sum < NEWLOG_MAX_LOGS ∧ ∀ a ∈ adds, a.text.length < 2 ^ 31 := by
  constructor
  . rintro ⟨hlast, htexts⟩
    have hlength := length_loop_logged adds
    rw [hlast, lastLines, List.length_drop] at hlength
    have hfits : (adds.flatMap Add.lines).length < NEWLOG_MAX_LOGS := by omega
    have hshort : ∀ a ∈ adds, a.text.length < 2 ^ 31 := by
      intro a ha
      have hle := (List.sublist_flatten_of_mem (List.mem_map_of_mem (f := Add.lines) ha)).length_le
      rw [← List.flatMap_def] at hle
      exact Add.length_of_flatten_lines (htexts a ha) (by omega)
    rw [length_flatMap_lines hshort] at hfits
    exact ⟨hfits, hshort⟩
  . rintro ⟨hslots, hshort⟩
    rw [← length_flatMap_lines hshort] at hslots
    constructor
    . rw [loop_logged hslots, lastLines, Nat.min_eq_left (by omega), Nat.sub_self, List.drop_zero]
    . intro a ha
      exact Add.flatten_lines (hshort a ha)

def shortText : Add where
  logFrom := 1
  now := 0
  text := [65]

theorem sum_slots_replicate (n : Nat) (a : Add)
    : ((List.replicate n a).map Add.slots).sum = n * a.slots := by
  induction n with
  | zero => rw [Nat.zero_mul, List.replicate_zero, List.map_nil, List.sum_nil]
  | succ n ih =>
    rw [List.replicate_succ, List.map_cons, List.sum_cons, ih, Nat.succ_mul, Nat.add_comm]

/--
The ring is exactly full: the loop turns `NEWLOG_MAX_LOGS % NEWLOG_MAX_LOGS` times.
-/
theorem full_log_not_presented
    : ¬((newLogLoop NEWLOG_FROM_NONE (-1) (fun _ => true)
              (logged (List.replicate NEWLOG_MAX_LOGS shortText))).1
            = lastLines ((List.replicate NEWLOG_MAX_LOGS shortText).flatMap Add.lines)
          ∧ ∀ a ∈ List.replicate NEWLOG_MAX_LOGS shortText,
              (a.lines.map OneLog.text).flatten = a.text) := by
  rintro ⟨hlast, -⟩
  have hshort : ∀ a ∈ List.replicate NEWLOG_MAX_LOGS shortText, a.text.length < 2 ^ 31 := by
    intro a ha
    rw [List.eq_of_mem_replicate ha]
    decide
  have hlength := length_loop_logged (List.replicate NEWLOG_MAX_LOGS shortText)
  rw [hlast, lastLines, List.length_drop, length_flatMap_lines hshort, sum_slots_replicate] at hlength
  exact absurd hlength (by decide)

end NewLog
