import Mathlib.Data.List.Basic

/-!
This module contains tables of texts that are written with one separator between the rows and one
between the fields of a row, and when such a table can be read back.
-/

namespace Separated

variable {α : Type}

def join (sep : α) (fields : List (List α)) : List α := [sep].intercalate fields

def encode (rowSep fieldSep : α) (rows : List (List (List α))) : List α :=
  join rowSep (rows.map (join fieldSep))

theorem join_cons (sep : α) (field : List α) (fields : List (List α))
    : join sep (field :: fields) = field ++ fields.flatMap (sep :: ·) := by
  induction fields generalizing field with
  | nil => simp [join]
  | cons next fields ih =>
    have hnext := ih next
    simp only [join] at hnext ⊢
    rw [List.intercalate_cons_cons, hnext]
    simp

theorem encode_cons (rowSep fieldSep : α) (row : List (List α)) (rows : List (List (List α)))
    : encode rowSep fieldSep (row :: rows)
        = join fieldSep row ++ rows.flatMap fun row => rowSep :: join fieldSep row := by
  rw [encode, List.map_cons, join_cons, List.flatMap_map]

theorem mem_join_iff {sep c : α} {fields : List (List α)} (hsep : c ≠ sep)
    : c ∈ join sep fields ↔ ∃ field ∈ fields, c ∈ field := by
  cases fields with
  | nil => simp [join]
  | cons field fields => simp [join_cons, hsep]

/--
No field has a separator in it.
-/
def Clean (rowSep fieldSep : α) (rows : List (List (List α))) : Prop :=
  ∀ row ∈ rows, ∀ field ∈ row, rowSep ∉ field ∧ fieldSep ∉ field

variable [DecidableEq α]

def decode (rowSep fieldSep : α) (text : List α) : List (List (List α)) :=
  (text.splitOn rowSep).map (List.splitOn fieldSep)

theorem not_mem_of_mem_splitOn {sep : α} {text field : List α} (h : field ∈ text.splitOn sep)
    : sep ∉ field := by
  induction text generalizing field with
  | nil =>
    simp only [List.splitOn_nil, List.mem_singleton] at h
    rw [h]
    exact List.not_mem_nil
  | cons c text ih =>
    rw [List.splitOn_cons_eq_if_modifyHead] at h
    split at h
    . cases h with
      | head => exact List.not_mem_nil
      | tail _ h => exact ih h
    . next hc =>
      obtain ⟨head, tail, hsplit⟩ :=
        List.exists_cons_of_ne_nil (List.splitOn_ne_nil sep text)
      rw [hsplit, List.modifyHead_cons] at h
      rw [hsplit] at ih
      cases h with
      | head =>
        intro hmem
        cases hmem with
        | head => exact hc (beq_self_eq_true sep)
        | tail _ hmem => exact ih (List.mem_cons_self ..) hmem
      | tail _ h => exact ih (List.mem_cons_of_mem _ h)

theorem clean_decode {rowSep fieldSep : α} (text : List α)
    : Clean rowSep fieldSep (decode rowSep fieldSep text) := by
  intro row hrow field hfield
  obtain ⟨line, hline, rfl⟩ := List.mem_map.mp hrow
  have hjoin : join fieldSep (line.splitOn fieldSep) = line := List.intercalate_splitOn fieldSep
  constructor
  . intro hmem
    apply not_mem_of_mem_splitOn hline
    by_cases hsep : rowSep = fieldSep
    . rw [hsep] at hmem
      exact absurd hmem (not_mem_of_mem_splitOn hfield)
    . rw [← hjoin, mem_join_iff hsep]
      exact ⟨field, hfield, hmem⟩
  . exact not_mem_of_mem_splitOn hfield

theorem decode_encode {rowSep fieldSep : α} {rows : List (List (List α))} (hsep : rowSep ≠ fieldSep)
    (hrows : rows ≠ []) (hne : ∀ row ∈ rows, row ≠ []) (hclean : Clean rowSep fieldSep rows)
    : decode rowSep fieldSep (encode rowSep fieldSep rows) = rows := by
  rw [decode, encode]
  have hlines : (join rowSep (rows.map (join fieldSep))).splitOn rowSep
      = rows.map (join fieldSep) := by
    apply List.splitOn_intercalate
    . intro line hline hmem
      obtain ⟨row, hrow, rfl⟩ := List.mem_map.mp hline
      obtain ⟨field, hfield, hmem⟩ := (mem_join_iff hsep).mp hmem
      exact (hclean row hrow field hfield).1 hmem
    . exact fun h => hrows (List.map_eq_nil_iff.mp h)
  rw [hlines, List.map_map]
  apply (List.map_congr_left _).trans rows.map_id
  intro row hrow
  exact List.splitOn_intercalate fieldSep (fun field hfield => (hclean row hrow field hfield).2)
    (hne row hrow)

end Separated
