import IotGateway.Lib.Separated
import IotGateway.NewDb.Impl.Serialize
import Mathlib.Data.List.Forall2

/-!
This module contains proofs about the serialization of the tables: how much of the buffer is written,
and what can be read back from the text.
-/

namespace NewDb

def rowText (columns : List Column) : List Char := Separated.join ',' (columns.map Column.text)

/--
The header as a row, and the rows that are serialized.
-/
def Sheet.lines (s : Sheet) : List (List Column) := s.headers.map .str :: s.liveRows

def linesText (lines : List (List Column)) : List Char :=
  Separated.encode ';' ',' (lines.map (List.map Column.text))

def Sheet.text (s : Sheet) : List Char := linesText s.lines

/--
The text of the header and the first `k` rows.
-/
def Sheet.textTo (s : Sheet) (k : Nat) : List Char := linesText (s.lines.take (k + 1))

theorem linesText_cons (columns : List Column) (lines : List (List Column))
    : linesText (columns :: lines)
        = rowText columns ++ lines.flatMap fun columns => ';' :: rowText columns := by
  rw [linesText, List.map_cons, Separated.encode_cons, List.flatMap_map]
  rfl

theorem rowText_cons (column : Column) (columns : List Column)
    : rowText (column :: columns)
        = column.text ++ columns.flatMap fun column => ',' :: column.text := by
  rw [rowText, List.map_cons, Separated.join_cons, List.flatMap_map]

/--
The rows that are serialized are those in use, in the order of the table.
-/
theorem View.sheet_liveRows {n : Nat} {ρ : Type} (v : View n ρ) (db : Db) (headers : List String)
    (columns : ρ → List Column)
    : (v.sheet db headers columns).liveRows
        = (((List.finRange n).map (v.table db)).filter v.used).map columns := by
  rw [Sheet.liveRows, View.sheet, List.filterMap_map]
  induction List.finRange n with
  | nil => rfl
  | cons i rows ih =>
    rw [List.map_cons]
    cases hused : v.used (v.table db i) with
    | true =>
      rw [List.filterMap_cons_some (show _ = some (columns (v.table db i)) by simp [hused]), ih,
        List.filter_cons_of_pos hused, List.map_cons]
    | false =>
      rw [List.filterMap_cons_none (by simp [hused]), ih,
        List.filter_cons_of_neg (by simp [hused])]

/--
Every line has two columns or more.
-/
def Sheet.Wide (s : Sheet) : Prop := ∀ columns ∈ s.lines, 2 ≤ columns.length

theorem View.sheet_wide {n : Nat} {ρ : Type} (v : View n ρ) (db : Db) {headers : List String}
    {columns : ρ → List Column} (hheaders : 2 ≤ headers.length)
    (hcolumns : ∀ row, 2 ≤ (columns row).length)
    : (v.sheet db headers columns).Wide := by
  intro line hline
  rw [Sheet.lines, View.sheet_liveRows] at hline
  cases hline with
  | head =>
    rw [List.length_map]
    exact hheaders
  | tail _ hline =>
    obtain ⟨row, -, rfl⟩ := List.mem_map.mp hline
    exact hcolumns row

theorem Serialize.run_eq (db : Db) (MAXBUF : Int) (t : Serialize)
    : t.run db MAXBUF = (t.sheet db).serialize MAXBUF := by
  cases t <;> rfl

theorem Serialize.sheet_wide (db : Db) (t : Serialize) : (t.sheet db).Wide := by
  cases t with
  | system => exact systemView.sheet_wide db (by decide) fun sys => by simp [System.columns]
  | plugHist => exact plughistView.sheet_wide db (by decide) fun hist => by simp [PlugHist.columns]
  | zcb => exact zcbView.sheet_wide db (by decide) fun zcb => by simp [Zcb.columns]
  | _ => exact (devicesView _ _).sheet_wide db (by decide) fun dev => by simp [Device.columns]

section

variable {MAXBUF : Int}

/--
The buffer has the text `t`, and the next helper is called.
-/
def Buffer.Holds (b : Buffer) (t : List Char) : Prop := b.text = t ∧ ∃ p ≤ t.length, b.buf = some p

/--
What writing the text `t` comes to: all of it is in the buffer if it fits, and otherwise the
serialization has stopped within the buffer.
-/
def Buffer.Wrote (MAXBUF : Int) (b : Buffer) (t : List Char) : Prop :=
  (t.length : Int) + 1 ≤ MAXBUF ∧ b.Holds t
    ∨ MAXBUF < (t.length : Int) + 1 ∧ b.buf = none ∧ (b.bytes : Int) ≤ MAXBUF

theorem newDbSerializeHelper_eq (MAXBUF : Int) (b : Buffer) (column : Column) (comma : Bool)
    : newDbSerializeHelper MAXBUF b column comma
        = newDbSerializeHelperStr (b.room MAXBUF) b column.text comma := by
  cases column <;> rfl

theorem newDbSerializeHelper_null {b : Buffer} (h : b.buf = none) (column : Column) (comma : Bool)
    : newDbSerializeHelper MAXBUF b column comma = b := by
  rw [newDbSerializeHelper_eq]
  simp only [newDbSerializeHelperStr, h]

theorem serializeColumns_null {b : Buffer} (h : b.buf = none) (columns : List Column) (comma : Bool)
    : serializeColumns MAXBUF b columns comma = b := by
  induction columns generalizing comma with
  | nil => rfl
  | cons column columns ih => rw [serializeColumns, newDbSerializeHelper_null h, ih]

/--
The check counts from the terminator on, wherever `buf` points to.
-/
theorem Buffer.Holds.helper {b : Buffer} {t : List Char} (h : b.Holds t) (column : Column)
    (comma : Bool)
    : newDbSerializeHelper MAXBUF b column comma
        = if (t.length : Int) + column.text.length + 1 < MAXBUF then
            { text := t ++ (if comma then [','] else []) ++ column.text
              buf := some (t.length + column.text.length) }
          else
            { b with buf := none } := by
  obtain ⟨htext, p, hp, hbuf⟩ := h
  rw [newDbSerializeHelper_eq, newDbSerializeHelperStr]
  simp only [hbuf, Buffer.room, Option.getD_some, htext]
  have hroom : ((t.length - p + column.text.length + 1 : Nat) : Int) < MAXBUF - (p : Int)
      ↔ (t.length : Int) + column.text.length + 1 < MAXBUF := by
    omega
  have hend : p + (t.length - p + column.text.length) = t.length + column.text.length := by omega
  rw [if_congr hroom rfl rfl, hend]
  cases comma with
  | true => simp only [strcat, htext, if_true]
  | false => simp only [strcat, htext, Bool.false_eq_true, if_false, List.append_nil]

theorem Buffer.Holds.comma {b : Buffer} {t : List Char} (h : b.Holds t)
    (hroom : (t.length : Int) + 1 ≤ MAXBUF) (column : Column)
    : (newDbSerializeHelper MAXBUF b column true).Wrote MAXBUF (t ++ ',' :: column.text) := by
  rw [h.helper]
  split
  . next hlt =>
    left
    simp only [List.length_append, List.length_cons]
    refine ⟨by omega, by simp, _, ?_, rfl⟩
    simp only [List.length_append, List.length_cons]
    omega
  . next hlt =>
    right
    refine ⟨?_, rfl, ?_⟩
    . simp only [List.length_append, List.length_cons]
      omega
    . rw [Buffer.bytes, h.1]
      omega

/--
The columns behind the first one.
-/
theorem Buffer.Wrote.columns {b : Buffer} {t : List Char} (h : b.Wrote MAXBUF t)
    (columns : List Column)
    : (serializeColumns MAXBUF b columns true).Wrote MAXBUF
        (t ++ columns.flatMap fun column => ',' :: column.text) := by
  induction columns generalizing b t with
  | nil =>
    rw [List.flatMap_nil, List.append_nil]
    exact h
  | cons column columns ih =>
    rw [List.flatMap_cons, ← List.append_assoc, serializeColumns]
    apply ih
    cases h with
    | inl h => exact h.2.comma h.1 column
    | inr h =>
      obtain ⟨hlt, hnull, hbytes⟩ := h
      rw [newDbSerializeHelper_null hnull]
      right
      refine ⟨?_, hnull, hbytes⟩
      rw [List.length_append]
      omega

/--
A row of two columns or more. Without a comma a column needs room for one character more, and the
comma of the second column needs that room as well.
-/
theorem Buffer.Holds.row {b : Buffer} {t : List Char} (h : b.Holds t)
    (hroom : (t.length : Int) + 1 ≤ MAXBUF) {columns : List Column} (hwide : 2 ≤ columns.length)
    : (serializeColumns MAXBUF b columns false).Wrote MAXBUF (t ++ rowText columns) := by
  obtain ⟨first, second, columns, rfl⟩ :
      ∃ first second rest, columns = first :: second :: rest := by
    cases columns with
    | nil => simp at hwide
    | cons first columns =>
      cases columns with
      | nil => simp at hwide
      | cons second columns => exact ⟨first, second, columns, rfl⟩
  rw [serializeColumns, serializeColumns, rowText_cons, List.flatMap_cons, ← List.append_assoc,
    ← List.append_assoc]
  apply Buffer.Wrote.columns
  rw [h.helper]
  split
  . next hlt =>
    apply Buffer.Holds.comma
    . refine ⟨by simp, _, ?_, rfl⟩
      rw [List.length_append]
    . rw [List.length_append]
      omega
  . next hlt =>
    rw [newDbSerializeHelper_null rfl]
    right
    refine ⟨?_, rfl, ?_⟩
    . simp only [List.length_append, List.length_cons]
      omega
    . rw [Buffer.bytes, h.1]
      omega

theorem Buffer.Holds.strcat {b : Buffer} {t : List Char} (h : b.Holds t) (string : List Char)
    : (strcat b string).Holds (t ++ string) := by
  obtain ⟨htext, p, hp, hbuf⟩ := h
  refine ⟨by rw [NewDb.strcat, htext], p, ?_, hbuf⟩
  rw [List.length_append]
  omega

theorem foldl_serializeRow_null {b : Buffer} (h : b.buf = none) (rows : List (Option (List Column)))
    : rows.foldl (serializeRow MAXBUF) b = b := by
  induction rows with
  | nil => rfl
  | cons row rows ih =>
    have hrow : serializeRow MAXBUF b row = b := by
      unfold serializeRow
      split
      . next hbuf =>
        rw [h] at hbuf
        cases hbuf
      . rfl
    rw [List.foldl_cons, hrow]
    exact ih

/--
The text with the live rows of `rows` behind it.
-/
def withRows (t : List Char) (live : List (List Column)) : List Char :=
  t ++ live.flatMap fun columns => ';' :: rowText columns

theorem length_le_withRows (t : List Char) (live : List (List Column))
    : t.length ≤ (withRows t live).length := by
  rw [withRows, List.length_append]
  omega

theorem withRows_cons (t : List Char) (columns : List Column) (live : List (List Column))
    : withRows t (columns :: live) = withRows (t ++ ';' :: rowText columns) live := by
  rw [withRows, withRows, List.flatMap_cons, ← List.append_assoc]

/--
Some text with a row behind it fills the buffer to the last byte, so that there is no room for the
semicolon.
-/
def Filled (MAXBUF : Int) (t : List Char) (live : List (List Column)) : Prop :=
  ∃ k < live.length, ((withRows t (live.take k)).length : Int) + 1 = MAXBUF

theorem filled_cons {t : List Char} {columns : List Column} {live : List (List Column)}
    : Filled MAXBUF t (columns :: live)
        ↔ (t.length : Int) + 1 = MAXBUF ∨ Filled MAXBUF (t ++ ';' :: rowText columns) live := by
  constructor
  . rintro ⟨k, hk, hfull⟩
    cases k with
    | zero =>
      left
      rw [List.take_zero, withRows, List.flatMap_nil, List.append_nil] at hfull
      exact hfull
    | succ k =>
      right
      rw [List.take_succ_cons, withRows_cons] at hfull
      exact ⟨k, Nat.lt_of_succ_lt_succ hk, hfull⟩
  . rintro (hfull | ⟨k, hk, hfull⟩)
    . refine ⟨0, Nat.zero_lt_succ _, ?_⟩
      rw [List.take_zero, withRows, List.flatMap_nil, List.append_nil]
      exact hfull
    . refine ⟨k + 1, Nat.succ_lt_succ hk, ?_⟩
      rw [List.take_succ_cons, withRows_cons]
      exact hfull

theorem not_filled_of_lt {t : List Char} (h : MAXBUF < (t.length : Int) + 1)
    (live : List (List Column))
    : ¬ Filled MAXBUF t live := by
  rintro ⟨k, -, hfull⟩
  have := length_le_withRows t (live.take k)
  omega

/--
What the loop over the rows leaves behind if it starts with the text `t`.
-/
structure RowsIn (MAXBUF : Int) (t : List Char) (live : List (List Column)) (b : Buffer) : Prop where
  returned : b.returned
    = if ((withRows t live).length : Int) + 1 ≤ MAXBUF then some (withRows t live) else none
  bytes : (b.bytes : Int) ≤ MAXBUF ↔ ¬ Filled MAXBUF t live

theorem rows_of_stopped {t : List Char} {b : Buffer} (h : MAXBUF < (t.length : Int) + 1)
    (hnull : b.buf = none) (hbytes : (b.bytes : Int) ≤ MAXBUF) (live : List (List Column))
    : RowsIn MAXBUF t live b where
  returned := by
    have := length_le_withRows t live
    rw [if_neg (by omega), Buffer.returned, hnull]
  bytes := iff_of_true hbytes (not_filled_of_lt h live)

/--
One row. The semicolon is written without a check.
-/
theorem Buffer.Holds.serializeRow {b : Buffer} {t : List Char} (h : b.Holds t)
    (hroom : (t.length : Int) + 1 ≤ MAXBUF) {columns : List Column} (hwide : 2 ≤ columns.length)
    : (t.length : Int) + 1 ≠ MAXBUF
          ∧ (serializeRow MAXBUF b (some columns)).Wrote MAXBUF (t ++ ';' :: rowText columns)
        ∨ (t.length : Int) + 1 = MAXBUF
          ∧ (serializeRow MAXBUF b (some columns)).buf = none
          ∧ ((serializeRow MAXBUF b (some columns)).bytes : Int) = MAXBUF + 1 := by
  obtain ⟨p, -, hbuf⟩ := h.2
  have hsemi := h.strcat [';']
  simp only [NewDb.serializeRow, hbuf]
  by_cases hfull : (t.length : Int) + 1 = MAXBUF
  . right
    cases columns with
    | nil => simp at hwide
    | cons column columns =>
      rw [serializeColumns, hsemi.helper, if_neg, serializeColumns_null rfl]
      . refine ⟨hfull, rfl, ?_⟩
        rw [Buffer.bytes, hsemi.1, List.length_append, List.length_singleton]
        omega
      . rw [List.length_append, List.length_singleton]
        omega
  . left
    refine ⟨hfull, ?_⟩
    have hroom : ((t ++ [';']).length : Int) + 1 ≤ MAXBUF := by
      rw [List.length_append, List.length_singleton]
      omega
    have hrow := hsemi.row hroom hwide
    rw [List.append_assoc] at hrow
    exact hrow

theorem Buffer.Wrote.rows {b : Buffer} {t : List Char} (h : b.Wrote MAXBUF t)
    (rows : List (Option (List Column))) (hwide : ∀ columns, some columns ∈ rows → 2 ≤ columns.length)
    : RowsIn MAXBUF t (rows.filterMap id) (rows.foldl (serializeRow MAXBUF) b) := by
  induction rows generalizing b t with
  | nil =>
    cases h with
    | inl h =>
      obtain ⟨hroom, htext, p, hp, hbuf⟩ := h
      constructor
      . rw [List.foldl_nil, Buffer.returned, hbuf, List.filterMap_nil, withRows, List.flatMap_nil,
          List.append_nil, if_pos hroom, htext]
      . rw [List.foldl_nil, Buffer.bytes, htext]
        apply iff_of_true
        . omega
        . rintro ⟨k, hk, -⟩
          exact absurd hk (Nat.not_lt_zero k)
    | inr h => exact rows_of_stopped h.1 h.2.1 h.2.2 _
  | cons row rows ih =>
    have ih {b t} h := @ih b t h fun columns hmem => hwide columns (List.mem_cons_of_mem _ hmem)
    cases h with
    | inr h =>
      rw [foldl_serializeRow_null h.2.1]
      exact rows_of_stopped h.1 h.2.1 h.2.2 _
    | inl h =>
      obtain ⟨hroom, hholds⟩ := h
      rw [List.foldl_cons]
      cases row with
      | none =>
        rw [List.filterMap_cons_none rfl]
        obtain ⟨p, -, hbuf⟩ := hholds.2
        have hskip : serializeRow MAXBUF b none = b := by simp only [serializeRow, hbuf]
        rw [hskip]
        exact ih (.inl ⟨hroom, hholds⟩)
      | some columns =>
        rw [List.filterMap_cons_some (show id (some columns) = some columns from rfl)]
        cases hholds.serializeRow hroom (hwide columns (List.mem_cons_self ..)) with
        | inl hwrote =>
          obtain ⟨hne, hwrote⟩ := hwrote
          have hrows := ih hwrote
          constructor
          . rw [withRows_cons]
            exact hrows.returned
          . rw [filled_cons, or_iff_right hne]
            exact hrows.bytes
        | inr hfull =>
          -- the loop ends at this row, with the semicolon behind the buffer
          obtain ⟨hfull, hnull, hbytes⟩ := hfull
          rw [foldl_serializeRow_null hnull]
          have hle := length_le_withRows (t ++ ';' :: rowText columns) (rows.filterMap id)
          rw [List.length_append, List.length_cons] at hle
          constructor
          . rw [withRows_cons, if_neg (by omega), Buffer.returned, hnull]
          . apply iff_of_false
            . omega
            . rw [filled_cons, not_not]
              exact .inl hfull

theorem Sheet.rows_serialize (s : Sheet) (hwide : s.Wide) (h : 1 ≤ MAXBUF)
    : RowsIn MAXBUF (rowText (s.headers.map .str)) s.liveRows (s.serialize MAXBUF) := by
  apply Buffer.Wrote.rows
  . rw [← List.nil_append (rowText _)]
    apply Buffer.Holds.row
    . exact ⟨rfl, 0, Nat.le_refl _, rfl⟩
    . exact h
    . exact hwide _ (List.mem_cons_self ..)
  . intro columns hmem
    apply hwide
    exact List.mem_cons_of_mem _ (List.mem_filterMap.mpr ⟨some columns, hmem, rfl⟩)

theorem Sheet.textTo_eq (s : Sheet) (k : Nat)
    : s.textTo k = withRows (rowText (s.headers.map .str)) (s.liveRows.take k) := by
  rw [Sheet.textTo, Sheet.lines, List.take_succ_cons, linesText_cons, withRows]

theorem Sheet.text_eq (s : Sheet)
    : s.text = withRows (rowText (s.headers.map .str)) s.liveRows := by
  rw [Sheet.text, Sheet.lines, linesText_cons, withRows]

theorem Serialize.returned_eq (db : Db) (t : Serialize) (h : 1 ≤ MAXBUF)
    : (t.run db MAXBUF).returned
        = if ((t.sheet db).text.length : Int) + 1 ≤ MAXBUF then some (t.sheet db).text else none := by
  rw [t.run_eq, Sheet.text_eq]
  exact ((t.sheet db).rows_serialize (t.sheet_wide db) h).returned

theorem Sheet.returned_of_lt {s : Sheet} (hwide : s.Wide) (h : MAXBUF < 1)
    : (s.serialize MAXBUF).returned = none := by
  have hheader : 2 ≤ (s.headers.map Column.str).length := hwide _ (List.mem_cons_self ..)
  have hempty : Buffer.Holds {} [] := ⟨rfl, 0, Nat.le_refl _, rfl⟩
  rw [Sheet.serialize, newDbSerializeHelperHeader]
  cases hcolumns : s.headers.map Column.str with
  | nil =>
    rw [hcolumns] at hheader
    simp at hheader
  | cons column columns =>
    rw [serializeColumns, hempty.helper, if_neg (by simp; omega), serializeColumns_null rfl,
      foldl_serializeRow_null rfl]
    rfl

theorem Serialize.eq_text {db : Db} {t : Serialize} {text : List Char}
    (h : (t.run db MAXBUF).returned = some text)
    : text = (t.sheet db).text := by
  by_cases hpos : 1 ≤ MAXBUF
  . rw [t.returned_eq db hpos] at h
    split at h
    . cases h
      rfl
    . cases h
  . rw [t.run_eq, Sheet.returned_of_lt (t.sheet_wide db) (by omega)] at h
    cases h

/--
A table is serialized within `MAXBUF` bytes, and not at all if its text does not fit, unless the
header and the first rows fill the buffer exactly and another row follows.
-/
theorem serialize_in_buffer_iff (db : Db) (t : Serialize) (h : 1 ≤ MAXBUF)
    : ((t.run db MAXBUF).bytes ≤ MAXBUF
          ∧ (MAXBUF < ((t.sheet db).text.length : Int) + 1 → (t.run db MAXBUF).returned = none))
        ↔ ∀ k < (t.sheet db).liveRows.length, ((t.sheet db).textTo k).length + 1 ≠ MAXBUF := by
  have hrows := (t.sheet db).rows_serialize (t.sheet_wide db) h
  have hnull : MAXBUF < ((t.sheet db).text.length : Int) + 1 → (t.run db MAXBUF).returned = none := by
    intro hlt
    rw [t.returned_eq db h, if_neg (by omega)]
  rw [and_iff_left hnull, t.run_eq, hrows.bytes, Filled]
  simp only [Sheet.textTo_eq, not_exists, not_and, ne_eq]

theorem serialize_in_buffer_init
    : (1 : Int) ≤ 33
        ∧ (((Serialize.system.run Db.init 33).bytes ≤ (33 : Int)
            ∧ ((33 : Int) < ((Serialize.system.sheet Db.init).text.length : Int) + 1 →
              (Serialize.system.run Db.init 33).returned = none))
          ↔ ∀ k < (Serialize.system.sheet Db.init).liveRows.length,
              (((Serialize.system.sheet Db.init).textTo k).length : Int) + 1 ≠ 33) :=
  ⟨by decide, serialize_in_buffer_iff Db.init .system (by decide)⟩

/--
The header of the system table has 32 characters.
-/
theorem serialize_overrun
    : let db := Mutation.apply Db.init (.newSystem "nodename" 5)
      (1 : Int) ≤ 33
        ∧ (Serialize.system.run db 33).bytes = 34
        ∧ (Serialize.system.run db 33).returned = none := by
  decide

end

/--
`parseInt` of the pages, on the text of a whole number.
-/
def parseInt (text : List Char) : Int :=
  match text with
  | '-' :: digits => -Nat.ofDigitChars 10 digits 0
  | digits => Nat.ofDigitChars 10 digits 0

theorem parseInt_of_digits {text : List Char} (h : ∀ c ∈ text, c.isDigit = true)
    : parseInt text = Nat.ofDigitChars 10 text 0 := by
  unfold parseInt
  split
  . next digits =>
    have hminus := h '-' (List.mem_cons_self ..)
    cases hminus
  . rfl

theorem isDigit_toDigits {n : Nat} : ∀ c ∈ Nat.toDigits 10 n, c.isDigit = true :=
  fun _ hc => Nat.isDigit_of_mem_toDigits (by decide) (by decide) hc

theorem parseInt_intbuf (num : Int) : parseInt (intbuf num) = num := by
  unfold intbuf
  split
  . rw [parseInt, Nat.ofDigitChars_ten_toDigits]
    omega
  . rw [parseInt_of_digits isDigit_toDigits, Nat.ofDigitChars_ten_toDigits]
    omega

/--
The field `text` gives the value of the column.
-/
def Column.Reads (column : Column) (text : List Char) : Prop :=
  match column with
  | .int num => parseInt text = num
  | .str string => text = string.toList

theorem Column.reads_text (column : Column) : column.Reads column.text := by
  cases column with
  | int num => exact parseInt_intbuf num
  | str string => rfl

/--
Splitting the text at the semicolons and the lines at the commas gives the header and the rows, with
the values of their columns.
-/
def Sheet.Decodes (s : Sheet) (text : List Char) : Prop :=
  List.Forall₂ (List.Forall₂ Column.Reads) s.lines (Separated.decode ';' ',' text)

/--
No string of the rows has a separator in it.
-/
def Sheet.Unseparated (s : Sheet) : Prop :=
  ∀ columns ∈ s.liveRows, ∀ string, .str string ∈ columns → ';' ∉ string.toList ∧ ',' ∉ string.toList

theorem exists_of_forall₂ {α β : Type} {r : α → β → Prop} {l : List α} {l' : List β}
    (h : List.Forall₂ r l l') {a : α} (ha : a ∈ l)
    : ∃ b ∈ l', r a b := by
  induction h with
  | nil => cases ha
  | cons hab _ ih =>
    cases ha with
    | head => exact ⟨_, List.mem_cons_self .., hab⟩
    | tail _ ha =>
      obtain ⟨b, hb, hr⟩ := ih ha
      exact ⟨b, List.mem_cons_of_mem _ hb, hr⟩

theorem Sheet.Decodes.unseparated {s : Sheet} {text : List Char} (h : s.Decodes text)
    : s.Unseparated := by
  intro columns hcolumns string hstring
  obtain ⟨line, hline, hreads⟩ := exists_of_forall₂ h (List.mem_cons_of_mem _ hcolumns)
  obtain ⟨field, hfield, hread⟩ := exists_of_forall₂ hreads hstring
  have hclean := Separated.clean_decode text line hline field hfield
  rw [show field = string.toList from hread] at hclean
  exact hclean

theorem not_mem_intbuf {c : Char} (hdigit : c.isDigit = false) (hminus : c ≠ '-') (num : Int)
    : c ∉ intbuf num := by
  intro hmem
  have hdigits : c ∉ Nat.toDigits 10 num.natAbs := by
    intro hmem
    rw [isDigit_toDigits c hmem] at hdigit
    cases hdigit
  unfold intbuf at hmem
  split at hmem
  . cases hmem with
    | head => exact hminus rfl
    | tail _ hmem => exact hdigits hmem
  . exact hdigits hmem

theorem Sheet.Unseparated.clean {s : Sheet} (h : s.Unseparated)
    (hheaders : ∀ name ∈ s.headers, ';' ∉ name.toList ∧ ',' ∉ name.toList)
    : Separated.Clean ';' ',' (s.lines.map (List.map Column.text)) := by
  intro fields hfields field hfield
  obtain ⟨columns, hcolumns, rfl⟩ := List.mem_map.mp hfields
  obtain ⟨column, hcolumn, rfl⟩ := List.mem_map.mp hfield
  cases column with
  | int num => exact ⟨not_mem_intbuf rfl (by decide) num, not_mem_intbuf rfl (by decide) num⟩
  | str string =>
    cases hcolumns with
    | head =>
      obtain ⟨name, hname, heq⟩ := List.mem_map.mp hcolumn
      cases heq
      exact hheaders string hname
    | tail _ hcolumns => exact h columns hcolumns string hcolumn

theorem Serialize.headers_unseparated (db : Db) (t : Serialize)
    : ∀ name ∈ (t.sheet db).headers, ';' ∉ name.toList ∧ ',' ∉ name.toList := by
  cases t with
  | system =>
    show ∀ name ∈ newdb_system_columns, _
    decide
  | plugHist =>
    show ∀ name ∈ newdb_plughist_columns, _
    decide
  | zcb =>
    show ∀ name ∈ newdb_zcb_columns, _
    decide
  | _ =>
    show ∀ name ∈ newdb_devs_columns, _
    decide

theorem Sheet.decodes_text {s : Sheet} (hwide : s.Wide) (h : s.Unseparated)
    (hheaders : ∀ name ∈ s.headers, ';' ∉ name.toList ∧ ',' ∉ name.toList)
    : s.Decodes s.text := by
  have hne : ∀ row ∈ s.lines.map (List.map Column.text), row ≠ [] := by
    intro row hrow hnil
    obtain ⟨columns, hcolumns, rfl⟩ := List.mem_map.mp hrow
    have hlength := hwide columns hcolumns
    rw [List.map_eq_nil_iff.mp hnil] at hlength
    simp at hlength
  rw [Sheet.Decodes, Sheet.text, linesText,
    Separated.decode_encode (by decide) (by simp [Sheet.lines]) hne (h.clean hheaders),
    List.forall₂_map_right_iff, List.forall₂_same]
  intro columns _
  rw [List.forall₂_map_right_iff, List.forall₂_same]
  intro column _
  exact column.reads_text

/--
The text of a table gives back its rows if and only if none of their strings has a separator in it.
-/
theorem serialize_decodes_iff (db : Db) (t : Serialize) {MAXBUF : Int} {text : List Char}
    (h : (t.run db MAXBUF).returned = some text)
    : (t.sheet db).Decodes text ↔ (t.sheet db).Unseparated := by
  rw [Serialize.eq_text h]
  constructor
  . exact Sheet.Decodes.unseparated
  . intro hunseparated
    exact Sheet.decodes_text (t.sheet_wide db) hunseparated (t.headers_unseparated db)

/--
A lamp with a comma in its name.
-/
def lampName (nm : String) : Db :=
  let mac := "00158D0000000001"
  [Mutation.newDevice mac 1, .setDevice { mac, dev := DEVICE_DEV_LAMP, nm } 2].foldl Mutation.apply
    Db.init

theorem serialize_decodes_lampName
    : ∃ text, (Serialize.lamps.run (lampName "hall 1") 1000).returned = some text
        ∧ ((Serialize.lamps.sheet (lampName "hall 1")).Decodes text
          ↔ (Serialize.lamps.sheet (lampName "hall 1")).Unseparated) := by
  have hreturned := Serialize.lamps.returned_eq (lampName "hall 1") (show (1 : Int) ≤ 1000 by decide)
  rw [if_pos (by decide +kernel)] at hreturned
  exact ⟨_, hreturned, serialize_decodes_iff _ .lamps hreturned⟩

theorem serialize_not_decodes
    : ∃ text, (Serialize.lamps.run (lampName "hall,1") 1000).returned = some text
        ∧ ¬ (Serialize.lamps.sheet (lampName "hall,1")).Decodes text := by
  have hreturned := Serialize.lamps.returned_eq (lampName "hall,1") (show (1 : Int) ≤ 1000 by decide)
  rw [if_pos (by decide +kernel)] at hreturned
  refine ⟨_, hreturned, ?_⟩
  intro hdecodes
  have hseparated : ∃ columns ∈ (Serialize.lamps.sheet (lampName "hall,1")).liveRows,
      Column.str "hall,1" ∈ columns := by
    decide
  obtain ⟨columns, hcolumns, hstring⟩ := hseparated
  have := (hdecodes.unseparated columns hcolumns _ hstring).2
  exact this (by decide)

end NewDb
