import Mathlib.Data.List.Induction
import IotGateway.Lib.Machine
import IotGateway.NewDb.Impl.Save

/-!
This module contains what is restored after any number of attempts to save.
-/

namespace NewDb

section

variable {α : Type} {disk : Disk α} {data : List α} {results : List Int}

/--
The file that `newDbRestoreTable` reads.
-/
def Disk.newest (disk : Disk α) : Option (List α) := disk.filename <|> disk.backup

theorem newDbRestoreTable_eq {len : Nat} (hlen : 0 < len)
    : newDbRestoreTable len disk
        = disk.newest.bind fun file => if len ≤ file.length then some (file.take len) else none := by
  unfold newDbRestoreTable Disk.newest
  rw [if_pos hlen]
  cases disk.filename <|> disk.backup with
  | none => rfl
  | some file => rfl

/--
The number of calls in front of the one that creates the file.
-/
def callsToCreate (disk : Disk α) : Nat :=
  match disk.filename, disk.backup with
  | none, _ => 0
  | some _, none => 1
  | some _, some _ => 2

/--
The calls that move the file to the backup succeed.
-/
def Moves (disk : Disk α) (results : List Int) : Prop :=
  callsToCreate disk ≤ results.length ∧ ∀ ret ∈ results.take (callsToCreate disk), ret = 0

/--
An attempt gets as far as creating the new file.
-/
def Creates (disk : Disk α) (results : List Int) : Prop :=
  Moves disk results ∧ ∃ fd ∈ results[callsToCreate disk]?, 0 ≤ fd

instance (disk : Disk α) (results : List Int) : Decidable (Moves disk results) :=
  inferInstanceAs (Decidable (_ ∧ _))

instance (disk : Disk α) (results : List Int) : Decidable (Creates disk results) :=
  inferInstanceAs (Decidable (_ ∧ _))

def total (results : List Int) : Nat := ((results.takeWhile (0 ≤ ·)).map Int.toNat).sum

/--
The number of bytes that the calls of an attempt can write to the new file.
-/
def written (disk : Disk α) (results : List Int) : Nat :=
  match results.drop (callsToCreate disk + 1) with
  | [] => 0
  | fd :: results => if 0 ≤ fd then total results else 0

theorem backUp_moves (h : Moves disk results)
    : backUp results disk
        = ({ filename := none, backup := disk.newest }, .next (results.drop (callsToCreate disk))) := by
  obtain ⟨filename, backup⟩ := disk
  obtain ⟨hlen, hzero⟩ := h
  cases filename with
  | none => rfl
  | some file =>
    cases backup with
    | none =>
      match results with
      | [] => cases hlen
      | ret :: results =>
        have hret : ret = 0 := hzero ret List.mem_cons_self
        simp [backUp, removeBackup, renameToBackup, Disk.newest, callsToCreate, hret]
    | some old =>
      match results with
      | [] => cases hlen
      | [ret] => simp [callsToCreate] at hlen
      | ret :: ret' :: results =>
        have hret : ret = 0 := hzero ret List.mem_cons_self
        have hret' : ret' = 0 := hzero ret' (List.mem_cons_of_mem _ List.mem_cons_self)
        simp [backUp, removeBackup, renameToBackup, Disk.newest, callsToCreate, hret, hret']

/--
The backup is not removed unless there is a file.
-/
theorem backUp_stops (h : ¬ Moves disk results)
    : (backUp results disk).1.newest = disk.newest
        ∧ ∀ rest, (backUp results disk).2 ≠ .next rest := by
  obtain ⟨filename, backup⟩ := disk
  unfold Moves at h
  cases filename with
  | none =>
    exfalso
    apply h
    simp [callsToCreate]
  | some file =>
    cases backup with
    | none =>
      match results with
      | [] => simp [backUp, removeBackup, renameToBackup]
      | ret :: results =>
        have hret : ret ≠ 0 := by
          intro hret
          apply h
          simp [callsToCreate, hret]
        simp [backUp, removeBackup, renameToBackup, hret]
    | some old =>
      match results with
      | [] => simp [backUp, removeBackup]
      | [ret] =>
        by_cases hret : ret = 0
        . simp [backUp, removeBackup, renameToBackup, hret, Disk.newest]
        . simp [backUp, removeBackup, hret]
      | ret :: ret' :: results =>
        by_cases hret : ret = 0
        . have hret' : ret' ≠ 0 := by
            intro hret'
            apply h
            simp [callsToCreate, hret, hret']
          simp [backUp, removeBackup, renameToBackup, hret, hret', Disk.newest]
        . simp [backUp, removeBackup, hret]

theorem overwrite_length (file buf : List α) : overwrite file file.length buf = file ++ buf := by
  simp [overwrite]

theorem total_cons {n : Int} (hn : 0 ≤ n) (results : List Int)
    : total (n :: results) = n.toNat + total results := by
  simp [total, hn]

theorem writeLoop_file (results : List Int) (buf file : List α)
    : (writeLoop results buf file.length file).1 = file ++ buf.take (total results) := by
  induction results generalizing buf file with
  | nil =>
    cases buf with
    | nil => simp [writeLoop]
    | cons b buf => simp [writeLoop, total]
  | cons n results ih =>
    cases buf with
    | nil => simp [writeLoop]
    | cons b buf =>
      unfold writeLoop
      split
      . next hn =>
        simp only
        rw [overwrite_length, ← List.length_append, ih, total_cons hn, List.append_assoc]
        congr 1
        rw [List.take_add]
        congr 1
        have hchunk : (b :: buf).drop ((b :: buf).take n.toNat).length = (b :: buf).drop n.toNat := by
          rw [List.length_take]
          rcases Nat.le_total n.toNat (b :: buf).length with hle | hle
          . rw [Nat.min_eq_left hle]
          . rw [Nat.min_eq_right hle, List.drop_length, List.drop_eq_nil_of_le hle]
        rw [hchunk]
      . next hn => simp [total, hn]

theorem writeLoop_done (results rest : List Int) (buf : List α) (pos : Nat) (file : List α)
    (h : (writeLoop results buf pos file).2 = some (rest, true))
    : buf.length ≤ total results := by
  induction results generalizing buf pos file with
  | nil =>
    cases buf with
    | nil => simp
    | cons b buf => cases h
  | cons n results ih =>
    cases buf with
    | nil => simp
    | cons b buf =>
      unfold writeLoop at h
      split at h
      . next hn =>
        have hrest := ih _ _ _ h
        rw [total_cons hn]
        simp only [List.length_drop, List.length_take] at hrest
        omega
      . cases h

/--
What is in the new file is the part of the data that could be written.
-/
theorem newDbSaveTable_creates (data : List α) (hdata : 0 < data.length) (h : Creates disk results)
    : (newDbSaveTable data results disk).1.filename = some (data.take (written disk results))
        ∧ ((newDbSaveTable data results disk).2 = some true → data.length ≤ written disk results) := by
  obtain ⟨hmoves, fd, hfd, hcreated⟩ := h
  obtain ⟨hlt, hget⟩ := List.getElem?_eq_some_iff.mp hfd
  have hdrop : results.drop (callsToCreate disk)
      = fd :: results.drop (callsToCreate disk + 1) := by
    rw [List.drop_eq_getElem_cons hlt, hget]
  unfold newDbSaveTable
  rw [if_pos hdata, backUp_moves hmoves]
  simp only [hdrop, fileCreateRW, if_pos hcreated, Option.getD_none, Option.getD_some]
  unfold writeData written
  cases results.drop (callsToCreate disk + 1) with
  | nil => simp
  | cons fd' writes =>
    simp only
    split
    . next hopen =>
      have hfile := writeLoop_file writes data ([] : List α)
      have hdone := fun rest => writeLoop_done writes rest data 0 []
      rw [List.nil_append, List.length_nil] at hfile
      match hloop : writeLoop writes data 0 [] with
      | (file, none) =>
        rw [hloop] at hfile
        exact ⟨congrArg some hfile, nofun⟩
      | (file, some ([], ret)) =>
        rw [hloop] at hfile
        exact ⟨congrArg some hfile, nofun⟩
      | (file, some (sync :: rest, ret)) =>
        rw [hloop] at hfile
        refine ⟨congrArg some hfile, ?_⟩
        intro hret
        obtain rfl := Option.some.inj hret
        apply hdone (sync :: rest)
        rw [hloop]
    . next hopen =>
      have hne : data ≠ [] := List.ne_nil_of_length_pos hdata
      simp [hne]

theorem newDbSaveTable_not_creates (data : List α) (hdata : 0 < data.length)
    (h : ¬ Creates disk results)
    : (newDbSaveTable data results disk).1.newest = disk.newest
        ∧ (newDbSaveTable data results disk).2 ≠ some true := by
  unfold newDbSaveTable
  rw [if_pos hdata]
  by_cases hmoves : Moves disk results
  . rw [backUp_moves hmoves]
    simp only
    cases hdrop : results.drop (callsToCreate disk) with
    | nil => simp [fileCreateRW, Disk.newest]
    | cons fd rest =>
      have hfd : ¬ 0 ≤ fd := by
        intro hfd
        apply h
        refine ⟨hmoves, fd, ?_, hfd⟩
        rw [Option.mem_def, ← List.head?_drop, hdrop]
        rfl
      simp [fileCreateRW, hfd, Disk.newest]
  . obtain ⟨hnewest, hended⟩ := backUp_stops hmoves
    match hback : backUp results disk with
    | (disk', .died) =>
      rw [hback] at hnewest
      exact ⟨hnewest, nofun⟩
    | (disk', .error) =>
      rw [hback] at hnewest
      exact ⟨hnewest, nofun⟩
    | (disk', .next rest) =>
      rw [hback] at hended
      exact absurd rfl (hended rest)

end

/--
An attempt to save, with what its system calls return.
-/
structure Attempt (α : Type) where
  data : List α
  results : List Int

/--
The files beside the images that may be restored: the one of the last save that completed and those
of the attempts since.
-/
structure Saves (α : Type) where
  disk : Disk α
  images : List (List α)

section

variable {α : Type}

def saveStep (s : Saves α) (a : Attempt α) : Saves α × List Empty :=
  match newDbSaveTable a.data a.results s.disk with
  | (disk, some true) => ({ disk, images := [a.data] }, [])
  | (disk, _) => ({ disk, images := a.data :: s.images }, [])

theorem saveStep_disk (s : Saves α) (a : Attempt α)
    : (saveStep s a).1.disk = (newDbSaveTable a.data a.results s.disk).1 := by
  unfold saveStep
  split
  . next heq => rw [heq]
  . next heq => rw [heq]

theorem saveStep_mem (s : Saves α) (a : Attempt α) : a.data ∈ (saveStep s a).1.images := by
  unfold saveStep
  split
  . exact List.mem_cons_self
  . exact List.mem_cons_self

theorem saveStep_images {s : Saves α} {a : Attempt α}
    (h : (newDbSaveTable a.data a.results s.disk).2 ≠ some true)
    : (saveStep s a).1.images = a.data :: s.images := by
  unfold saveStep
  split
  . next heq =>
    rw [heq] at h
    exact absurd rfl h
  . rfl

/--
The attempts that create the new file, each with the files before it.
-/
def creating (disk : Disk α) : List (Attempt α) → List (Disk α × Attempt α)
  | [] => []
  | a :: attempts =>
    let rest := creating (newDbSaveTable a.data a.results disk).1 attempts
    if Creates disk a.results then (disk, a) :: rest else rest

theorem creating_cons (s : Saves α) (a : Attempt α) (attempts : List (Attempt α))
    : creating s.disk (a :: attempts)
        = creating s.disk [a] ++ creating (saveStep s a).1.disk attempts := by
  rw [saveStep_disk]
  simp only [creating]
  split
  . rfl
  . rfl

theorem creating_append (s : Saves α) (attempts : List (Attempt α)) (a : Attempt α)
    : creating s.disk (attempts ++ [a])
        = creating s.disk attempts
          ++ creating (Machine.exec saveStep s attempts).disk [a] := by
  induction attempts generalizing s with
  | nil => rfl
  | cons b attempts ih =>
    rw [List.cons_append, Machine.exec_cons, creating_cons, creating_cons s b attempts, ih,
      List.append_assoc]

/--
The last attempt that creates the new file writes the whole image to it.
-/
def LastWhole (disk : Disk α) (attempts : List (Attempt α)) : Prop :=
  ∀ last ∈ (creating disk attempts).getLast?, last.2.data.length ≤ written last.1 last.2.results

instance (disk : Disk α) (attempts : List (Attempt α)) : Decidable (LastWhole disk attempts) :=
  inferInstanceAs (Decidable (∀ last ∈ (creating disk attempts).getLast?, _))

theorem newDbRestoreTable_whole {disk : Disk α} (data : List α) {n : Nat} (hdata : 0 < data.length)
    (h : disk.filename = some (data.take n))
    : newDbRestoreTable data.length disk = if data.length ≤ n then some data else none := by
  have hnewest : disk.newest = some (data.take n) := by
    rw [Disk.newest, h]
    rfl
  rw [newDbRestoreTable_eq hdata, hnewest, Option.bind_some, List.length_take]
  split
  . next hle =>
    rw [Nat.le_min] at hle
    rw [if_pos hle.1, List.take_of_length_le (by simp), List.take_of_length_le hle.1]
  . next hle =>
    rw [if_neg]
    intro hle'
    apply hle
    exact Nat.le_min.mpr ⟨hle', Nat.le_refl _⟩

/--
One of the images may be restored, or there is nothing to restore.
-/
def Saves.Restores (len : Nat) (s : Saves α) (whole : Prop) : Prop :=
  (whole → ∃ image ∈ s.images, newDbRestoreTable len s.disk = some image)
    ∧ (¬ whole → newDbRestoreTable len s.disk = none)

theorem Saves.Restores.step {s : Saves α} {a : Attempt α} {whole : Prop} (hdata : 0 < a.data.length)
    (h : s.Restores a.data.length whole)
    : (saveStep s a).1.Restores a.data.length
        (if Creates s.disk a.results then a.data.length ≤ written s.disk a.results else whole) := by
  unfold Saves.Restores
  split
  . next hcreates =>
    obtain ⟨hfile, -⟩ := newDbSaveTable_creates a.data hdata hcreates
    rw [← saveStep_disk] at hfile
    rw [newDbRestoreTable_whole a.data hdata hfile]
    constructor
    . intro hle
      exact ⟨a.data, saveStep_mem s a, if_pos hle⟩
    . intro hle
      exact if_neg hle
  . next hcreates =>
    -- The file that is restored stays
    obtain ⟨hnewest, hret⟩ := newDbSaveTable_not_creates a.data hdata hcreates
    rw [← saveStep_disk] at hnewest
    rw [newDbRestoreTable_eq hdata, hnewest, ← newDbRestoreTable_eq hdata, saveStep_images hret]
    obtain ⟨hwhole, htorn⟩ := h
    refine ⟨?_, htorn⟩
    intro hw
    obtain ⟨image, hmem, hrestore⟩ := hwhole hw
    exact ⟨image, List.mem_cons_of_mem _ hmem, hrestore⟩

theorem lastWhole_append (s : Saves α) (attempts : List (Attempt α)) (a : Attempt α)
    : LastWhole s.disk (attempts ++ [a])
        = if Creates (Machine.exec saveStep s attempts).disk a.results then
            a.data.length ≤ written (Machine.exec saveStep s attempts).disk a.results
          else
            LastWhole s.disk attempts := by
  unfold LastWhole
  rw [creating_append]
  simp only [creating]
  split
  . simp
  . simp

theorem run_restores (s : Saves α) (attempts : List (Attempt α)) {len : Nat} (hpos : 0 < len)
    (h : ∃ image ∈ s.images, newDbRestoreTable len s.disk = some image)
    (hlen : ∀ a ∈ attempts, a.data.length = len)
    : (Machine.exec saveStep s attempts).Restores len (LastWhole s.disk attempts) := by
  induction attempts using List.reverseRecOn with
  | nil =>
    refine ⟨fun _ => h, ?_⟩
    intro hnot
    exfalso
    apply hnot
    intro last hlast
    cases hlast
  | append_singleton attempts a ih =>
    have ha : a.data.length = len := hlen a (by simp)
    have ih := ih fun b hb => hlen b (List.mem_append_left _ hb)
    rw [Machine.exec_append, lastWhole_append]
    subst ha
    exact ih.step hpos

/--
After attempts to save, when the last save that completed before has left `image`.
-/
def afterAttempts (disk : Disk α) (image : List α) (attempts : List (Attempt α)) : Saves α :=
  Machine.exec saveStep { disk, images := [image] } attempts

/--
What is restored after any attempts is the image of the last save that completed or of a later
attempt, unless the last new file is not whole.
-/
theorem restores_iff_lastWhole {len : Nat} {disk : Disk α} {image : List α}
    (h : newDbRestoreTable len disk = some image) {attempts : List (Attempt α)}
    (hlen : ∀ a ∈ attempts, a.data.length = len)
    : (∃ image' ∈ (afterAttempts disk image attempts).images,
        newDbRestoreTable len (afterAttempts disk image attempts).disk = some image')
      ↔ LastWhole disk attempts := by
  have hpos : 0 < len := by
    by_contra hpos
    rw [newDbRestoreTable, if_neg hpos] at h
    cases h
  obtain ⟨hwhole, htorn⟩ :=
    run_restores { disk, images := [image] } attempts hpos ⟨image, List.mem_cons_self, h⟩ hlen
  refine ⟨?_, hwhole⟩
  rintro ⟨image', -, hsome⟩
  by_contra hnot
  rw [afterAttempts, htorn hnot] at hsome
  cases hsome

end

/--
The process dies after it has removed the old backup and after it has moved the file, then a save
completes.
-/
def interrupted : List (Attempt UInt8) :=
  [{ data := [4, 5, 6], results := [0] },
    { data := [7, 8, 9], results := [0] },
    { data := [1, 1, 1], results := [3, 3, 1, 2, 0] }]

def twoFiles : Disk UInt8 := { filename := some [1, 2, 3], backup := some [0, 0, 0] }

theorem restores_iff_lastWhole_interrupted
    : (∃ image' ∈ (afterAttempts twoFiles [1, 2, 3] interrupted).images,
        newDbRestoreTable 3 (afterAttempts twoFiles [1, 2, 3] interrupted).disk = some image')
      ↔ LastWhole twoFiles interrupted := by
  apply restores_iff_lastWhole
  . decide
  . decide

/--
No space is left after the first byte.
-/
def diskFull : List (Attempt UInt8) := [{ data := [4, 5, 6], results := [0, 0, 3, 3, 1, -1, 0] }]

theorem diskFull_not_restored
    : ¬ ∃ image' ∈ (afterAttempts twoFiles [1, 2, 3] diskFull).images,
        newDbRestoreTable 3 (afterAttempts twoFiles [1, 2, 3] diskFull).disk = some image' := by
  decide

end NewDb
