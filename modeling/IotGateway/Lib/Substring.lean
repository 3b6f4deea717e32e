import Mathlib.Data.List.Infix

/-!
This module contains the search for a text in another one, as `strstr` does it, and how a text is cut
into lines.
-/

namespace Substring

variable {α : Type} [DecidableEq α]

/--
The rest of the text from the first place on at which `needle` stands.
-/
def strstr (needle : List α) : (text : List α) → Option (List α)
  | [] => if needle = [] then some [] else none
  | c :: text => if needle <+: c :: text then some (c :: text) else strstr needle text

theorem suffix_of_strstr {needle text found : List α} (h : strstr needle text = some found)
    : found <:+ text ∧ needle <+: found := by
  induction text with
  | nil =>
    unfold strstr at h
    split at h
    . next hneedle =>
      cases h
      rw [hneedle]
      exact ⟨List.suffix_rfl, List.prefix_rfl⟩
    . cases h
  | cons c text ih =>
    unfold strstr at h
    split at h
    . next hbegins =>
      cases h
      exact ⟨List.suffix_rfl, hbegins⟩
    . obtain ⟨hsuffix, hbegins⟩ := ih h
      exact ⟨hsuffix.trans (List.suffix_cons c text), hbegins⟩

/--
The search is successful if there is such a place.
-/
theorem strstr_isSome_of_suffix {needle text found : List α} (hsuffix : found <:+ text)
    (hbegins : needle <+: found) : (strstr needle text).isSome = true := by
  induction text with
  | nil =>
    rw [List.suffix_nil.mp hsuffix] at hbegins
    rw [List.prefix_nil.mp hbegins]
    rfl
  | cons c text ih =>
    unfold strstr
    split
    . rfl
    . next hnot =>
      rcases List.suffix_cons_iff.mp hsuffix with rfl | hsuffix
      . exact absurd hbegins hnot
      . exact ih hsuffix

theorem strstr_eq_none_of_not_mem {needle text : List α} {c : α} (hneedle : c ∈ needle)
    (htext : c ∉ text) : strstr needle text = none := by
  cases h : strstr needle text with
  | none => rfl
  | some found =>
    obtain ⟨hsuffix, hbegins⟩ := suffix_of_strstr h
    exact absurd (hsuffix.subset (hbegins.subset hneedle)) htext

/--
A single letter is found at its first place.
-/
theorem strstr_singleton {c : α} {before after : List α} (h : c ∉ before)
    : strstr [c] (before ++ c :: after) = some (c :: after) := by
  induction before with
  | nil =>
    show strstr [c] (c :: after) = _
    rw [strstr, if_pos (List.cons_prefix_cons.mpr ⟨rfl, List.nil_prefix⟩)]
  | cons d before ih =>
    rw [List.mem_cons, not_or] at h
    show strstr [c] (d :: (before ++ c :: after)) = _
    rw [strstr, if_neg, ih h.2]
    intro hbegins
    exact h.1 (List.cons_prefix_cons.mp hbegins).1

/--
The lines of a text with their ends. The last one may be without.
-/
def lines (eol : α) : List α → List (List α)
  | [] => []
  | c :: text =>
    if c = eol then
      [c] :: lines eol text
    else
      match lines eol text with
      | [] => [[c]]
      | line :: rest => (c :: line) :: rest

/--
The line has an end, which is nowhere else in it.
-/
def Ended (eol : α) (line : List α) : Prop := ∃ text, line = text ++ [eol] ∧ eol ∉ text

/--
These are the lines of a text.
-/
def Lines (eol : α) : List (List α) → Prop
  | [] => True
  | line :: rest => (Ended eol line ∨ (rest = [] ∧ line ≠ [] ∧ eol ∉ line)) ∧ Lines eol rest

section Lines

variable {eol : α} {line : List α} {xs ys : List (List α)}

theorem flatten_lines (text : List α) : (lines eol text).flatten = text := by
  induction text with
  | nil => rfl
  | cons c text ih =>
    unfold lines
    split
    . rw [List.flatten_cons, ih]
      rfl
    . cases hlines : lines eol text with
      | nil =>
        rw [hlines] at ih
        rw [← ih]
        rfl
      | cons line rest =>
        rw [hlines] at ih
        rw [← ih]
        rfl

theorem lines_lines (text : List α) : Lines eol (lines eol text) := by
  induction text with
  | nil => trivial
  | cons c text ih =>
    unfold lines
    split
    . next hc => exact ⟨.inl ⟨[], by rw [hc]; rfl, List.not_mem_nil⟩, ih⟩
    . next hc =>
      cases hlines : lines eol text with
      | nil =>
        refine ⟨.inr ⟨rfl, List.cons_ne_nil c [], ?_⟩, trivial⟩
        rw [List.mem_singleton]
        exact Ne.symm hc
      | cons line rest =>
        rw [hlines] at ih
        obtain ⟨hline, hrest⟩ := ih
        refine ⟨?_, hrest⟩
        rcases hline with ⟨text, rfl, htext⟩ | ⟨hnil, hne, heol⟩
        . left
          refine ⟨c :: text, rfl, ?_⟩
          rw [List.mem_cons, not_or]
          exact ⟨Ne.symm hc, htext⟩
        . right
          refine ⟨hnil, List.cons_ne_nil c line, ?_⟩
          rw [List.mem_cons, not_or]
          exact ⟨Ne.symm hc, heol⟩

omit [DecidableEq α] in
theorem Lines.mem (h : Lines eol xs) (hline : line ∈ xs)
    : ∃ text, eol ∉ text ∧ (line = text ++ [eol] ∨ line = text) := by
  induction xs with
  | nil => cases hline
  | cons first xs ih =>
    cases hline with
    | head =>
      rcases h.1 with ⟨text, rfl, heol⟩ | ⟨-, -, heol⟩
      . exact ⟨text, heol, .inl rfl⟩
      . exact ⟨_, heol, .inr rfl⟩
    | tail _ hline => exact ih h.2 hline

omit [DecidableEq α] in
/--
Lines may be replaced by lines with an end.
-/
theorem Lines.replace {zs : List (List α)} {f : List α → List α} (h : Lines eol (xs ++ (ys ++ zs)))
    (hreplaced : ∀ line ∈ ys, f line = line ∨ Ended eol (f line))
    : Lines eol (xs ++ (ys.map f ++ zs)) := by
  induction xs with
  | nil =>
    induction ys with
    | nil => exact h
    | cons first ys ih =>
      refine ⟨?_, ih (fun line hline => hreplaced line (List.mem_cons_of_mem _ hline)) h.2⟩
      rcases hreplaced first List.mem_cons_self with heq | hended
      . rcases h.1 with hended | ⟨hnil, hopen⟩
        . left
          rw [heq]
          exact hended
        . right
          have hnil' : ys = [] ∧ zs = [] := List.append_eq_nil_iff.mp hnil
          rw [hnil'.1, hnil'.2, heq]
          exact ⟨rfl, hopen⟩
      . exact .inl hended
  | cons first xs ih =>
    refine ⟨?_, ih h.2⟩
    rcases h.1 with hended | ⟨hnil, hopen⟩
    . exact .inl hended
    . right
      refine ⟨?_, hopen⟩
      obtain ⟨rfl, hrest⟩ := List.append_eq_nil_iff.mp hnil
      obtain ⟨rfl, rfl⟩ := List.append_eq_nil_iff.mp hrest
      rfl

omit [DecidableEq α] in
/--
A line with an end may be added before another line.
-/
theorem Lines.insert (h : Lines eol (xs ++ ys)) (hys : ys ≠ []) (hline : Ended eol line)
    : Lines eol (xs ++ line :: ys) := by
  induction xs with
  | nil => exact ⟨.inl hline, h⟩
  | cons first xs ih =>
    obtain ⟨hfirst, hrest⟩ := h
    refine ⟨?_, ih hrest⟩
    rcases hfirst with hended | ⟨hnil, -⟩
    . exact .inl hended
    . exact absurd (List.append_eq_nil_iff.mp hnil).2 hys

end Lines

end Substring
