import IotGateway.ConfigEdit.Grammar

/-!
This module follows the loop of the editor over the lines of a section.
-/

namespace ConfigEdit

open Substring

section Lines

variable {text line : Text}

/--
Lines that fit into a call of `fgets` are read one by one.
-/
theorem fgets_eq_lines {room : Nat}
    (hfirst : ∀ line ∈ (lines '\n' text).head?, line.length ≤ room + 1)
    (hrest : ∀ line ∈ (lines '\n' text).tail, line.length ≤ 199)
    : fgets room text = lines '\n' text := by
  induction text generalizing room with
  | nil =>
    cases room with
    | zero => rfl
    | succ room => rfl
  | cons c text ih =>
    have hnext : c = '\n' → fgets 198 text = lines '\n' text := by
      rintro rfl
      rw [lines, if_pos rfl] at hrest
      apply ih
      . intro line hline
        exact hrest line (List.mem_of_mem_head? hline)
      . intro line hline
        exact hrest line (List.mem_of_mem_tail hline)
    by_cases hc : c = '\n'
    . rw [lines, if_pos hc, ← hnext hc]
      cases room with
      | zero => rfl
      | succ room => rw [fgets, if_pos hc]
    . have hlines : Lines '\n' (lines '\n' text) := lines_lines text
      have hflatten : (lines '\n' text).flatten = text := flatten_lines text
      rw [lines, if_neg hc] at hfirst hrest ⊢
      cases htext : lines '\n' text with
      | nil =>
        rw [htext] at hflatten
        rw [← hflatten]
        cases room with
        | zero => rfl
        | succ room =>
          rw [fgets, if_neg hc]
          cases room with
          | zero => rfl
          | succ room => rfl
      | cons line rest =>
        rw [htext] at hfirst hrest hlines ih
        have hlength : (c :: line).length ≤ room + 1 := hfirst _ rfl
        cases room with
        | zero =>
          rcases hlines.1 with ⟨text, rfl, -⟩ | ⟨-, hne, -⟩
          . simp at hlength
          . have hnil : line = [] := by simpa using hlength
            exact absurd hnil hne
        | succ room =>
          have hread : fgets room text = line :: rest := by
            apply ih
            . rintro line' ⟨⟩
              simpa using hlength
            . exact hrest
          rw [fgets, if_neg hc, hread]

theorem dropWhile_isSpace_iff : line.dropWhile isSpace = [] ↔ IsEmpty line := by
  unfold IsEmpty firstWord
  cases h : line.dropWhile isSpace with
  | nil => simp
  | cons c rest =>
    have hc := List.head?_dropWhile_not isSpace line
    rw [h] at hc
    simp only [List.head?_cons] at hc
    simp [hc]

theorem IsEmpty.isSpace (h : IsEmpty line) {c : Char} (hc : c ∈ line) : isSpace c = true :=
  List.dropWhile_eq_nil_iff.mp (dropWhile_isSpace_iff.mpr h) c hc

theorem IsConfig.strstr (h : IsConfig line) : ∃ s, strstr "config".toList line = some s := by
  have hsome : (Substring.strstr "config".toList line).isSome = true := by
    apply strstr_isSome_of_suffix (List.dropWhile_suffix isSpace)
    rw [← h]
    exact List.takeWhile_prefix _
  exact Option.isSome_iff_exists.mp hsome

theorem cstr_eq (h : '\x00' ∉ line) : cstr line = line := by
  apply List.takeWhile_eq_self_iff.mpr
  intro c hc
  apply decide_eq_true
  rintro rfl
  exact h hc

end Lines

section Writes

variable {env : Env} {section' option strval : Text} {xs ys new new' : List Text} {e : Edit}
  {found found' insection insection' : Bool} {line : Text}

/--
The pass over these lines has a result. If nothing fails it leaves these variables, and the new lines
have been written.
-/
def Writes (env : Env) (section' option strval : Text) (xs : List Text) (e : Edit)
    (found insection : Bool) (new : List Text) : Prop :=
  ∃ e', editLines env section' option strval xs e = some e'
    ∧ (e'.ret = true → e'.found = found ∧ e'.insection = insection ∧ e'.out = e.out ++ new.flatten)

theorem editLines_stopped (h : e.ret = false) (xs : List Text)
    : editLines env section' option strval xs e = some e := by
  cases xs with
  | nil => rfl
  | cons line xs =>
    rw [editLines, h]
    rfl

theorem editLines_append
    : editLines env section' option strval (xs ++ ys) e
        = (editLines env section' option strval xs e).bind
          (editLines env section' option strval ys) := by
  induction xs generalizing e with
  | nil => rfl
  | cons line xs ih =>
    rw [List.cons_append, editLines, editLines]
    split
    . cases editLine env section' option strval (cstr line) e with
      | none => rfl
      | some e' => exact ih
    . next hret => exact (editLines_stopped (Bool.eq_false_iff.mpr hret) ys).symm

theorem writes_nil : Writes env section' option strval [] e e.found e.insection [] :=
  ⟨e, rfl, fun _ => ⟨rfl, rfl, (List.append_nil _).symm⟩⟩

theorem Writes.append (hxs : Writes env section' option strval xs e found insection new)
    (hys : ∀ e', e'.ret = true → e'.found = found → e'.insection = insection →
      Writes env section' option strval ys e' found' insection' new')
    : Writes env section' option strval (xs ++ ys) e found' insection' (new ++ new') := by
  obtain ⟨e', hedit, hvalues⟩ := hxs
  unfold Writes
  rw [editLines_append, hedit]
  by_cases hret : e'.ret = true
  . obtain ⟨hfound, hinsection, hout⟩ := hvalues hret
    obtain ⟨e'', hedit', hvalues'⟩ := hys e' hret hfound hinsection
    refine ⟨e'', hedit', fun hret' => ?_⟩
    obtain ⟨hfound', hinsection', hout'⟩ := hvalues' hret'
    rw [hout', hout, List.flatten_append, List.append_assoc]
    exact ⟨hfound', hinsection', rfl⟩
  . refine ⟨e', editLines_stopped (Bool.eq_false_iff.mpr hret) ys, fun h => absurd h hret⟩

theorem writes_line {e₁ : Edit} {line' : Text} {added : List Text} (hret : e.ret = true)
    (hnul : '\x00' ∉ line)
    (hedit : editLine env section' option strval line e = some (fputs env line' e₁))
    (hout : e₁.out = e.out ++ added.flatten)
    : Writes env section' option strval [line] e e₁.found e₁.insection (added ++ [line']) := by
  refine ⟨fputs env line' e₁, ?_, fun hwritten => ⟨rfl, rfl, ?_⟩⟩
  . rw [editLines, if_pos hret, cstr_eq hnul, hedit]
    rfl
  . have hfputs : env.fputs e₁.calls = true := hwritten
    unfold fputs
    rw [if_pos hfputs, hout, List.flatten_append, List.append_assoc]
    simp

theorem writes_only {e₁ : Edit} {line' : Text} (hret : e.ret = true) (hnul : '\x00' ∉ line)
    (hedit : editLine env section' option strval line e = some (fputs env line' e₁))
    (hout : e₁.out = e.out)
    : Writes env section' option strval [line] e e₁.found e₁.insection [line'] := by
  have hnone : e₁.out = e.out ++ ([] : List Text).flatten := by
    rw [hout]
    exact (List.append_nil _).symm
  exact writes_line hret hnul hedit hnone

/--
Outside of the section a line stays as it is.
-/
theorem writes_outside (hret : e.ret = true) (hnul : '\x00' ∉ line)
    (hconfig : strstr "config".toList line = none) (hinsection : e.insection = false)
    : Writes env section' option strval [line] e e.found false [line] := by
  have hedit : editLine env section' option strval line e = some (fputs env line e) := by
    unfold editLine
    rw [hconfig]
    cases strstr "option".toList line with
    | some s => simp [hinsection]
    | none => simp [hinsection]
  have hwrites := writes_only hret hnul hedit rfl
  rw [hinsection] at hwrites
  exact hwrites

theorem writes_outsides {lines : List Text} (hret : e.ret = true)
    (hnul : ∀ line ∈ lines, '\x00' ∉ line)
    (hconfig : ∀ line ∈ lines, strstr "config".toList line = none)
    (hinsection : e.insection = false)
    : Writes env section' option strval lines e e.found false lines := by
  induction lines generalizing e with
  | nil =>
    rw [← hinsection]
    exact writes_nil
  | cons line lines ih =>
    have hline : Writes env section' option strval [line] e e.found false [line] :=
      writes_outside hret (hnul line List.mem_cons_self) (hconfig line List.mem_cons_self)
        hinsection
    refine hline.append fun e' hret' hfound hinsection' => ?_
    rw [← hfound]
    exact ih hret' (fun l hl => hnul l (List.mem_cons_of_mem _ hl))
      (fun l hl => hconfig l (List.mem_cons_of_mem _ hl)) hinsection'

theorem writes_head {s : Text} (hret : e.ret = true) (hnul : '\x00' ∉ line)
    (hconfig : strstr "config".toList line = some s)
    : Writes env section' option strval [line] e e.found (strstr section' s).isSome [line] := by
  have hedit : editLine env section' option strval line e
      = some (fputs env line { e with insection := (strstr section' s).isSome }) := by
    unfold editLine
    rw [hconfig]
  exact writes_only hret hnul hedit rfl

/--
What the editor finds in a line of the section.
-/
def findOption (option line : Text) : Option Text :=
  (strstr "option".toList line).bind (strstr option)

/--
The editor reads the line as it is meant, and the value can be written into it.
-/
structure ReadsOption (option strval line : Text) : Prop where
  found : (findOption option line).isSome = true ↔ IsOption option line
  value : ∀ s, findOption option line = some s → headTo option line s = headOf line
    ∧ IsHead option (headOf line) ∧ (headOf line).length + strval.length + 2 ≤ sizeofLine
    ∧ '\n' ∉ strval

def setOption (option strval line : Text) : Text :=
  if IsOption option line then headOf line ++ strval ++ ['\n'] else line

theorem writes_inside (hret : e.ret = true) (hnul : '\x00' ∉ line)
    (hconfig : strstr "config".toList line = none) (hempty : ¬IsEmpty line)
    (hreads : ReadsOption option strval line) (hinsection : e.insection = true)
    : Writes env section' option strval [line] e (e.found || decide (IsOption option line)) true
      [setOption option strval line] := by
  have hspace : line.dropWhile isSpace ≠ [] := fun h => hempty (dropWhile_isSpace_iff.mp h)
  by_cases hoption : IsOption option line
  . obtain ⟨s', hfound⟩ := Option.isSome_iff_exists.mp (hreads.found.mpr hoption)
    obtain ⟨hhead, -, hfits, -⟩ := hreads.value s' hfound
    obtain ⟨s, hs, hs'⟩ := Option.bind_eq_some_iff.mp hfound
    have hreplace : replaceValue option strval line s' = some (setOption option strval line) := by
      unfold replaceValue setOption
      rw [hhead, if_pos hfits, if_pos hoption]
    have hedit : editLine env section' option strval line e
        = some (fputs env (setOption option strval line) { e with found := true }) := by
      unfold editLine
      simp only [hconfig, hs, hs', hinsection, if_true, hreplace, Option.bind_eq_bind,
        Option.bind_some]
    have hwrites := writes_only hret hnul hedit rfl
    dsimp only at hwrites
    rw [hinsection] at hwrites
    rw [decide_eq_true hoption, Bool.or_true]
    exact hwrites
  . have hnone : findOption option line = none := by
      cases hfound : findOption option line with
      | none => rfl
      | some s' => exact absurd (hreads.found.mp (by rw [hfound]; rfl)) hoption
    have hedit : editLine env section' option strval line e = some (fputs env line e) := by
      unfold editLine
      cases hs : strstr "option".toList line with
      | some s =>
        rw [findOption, hs, Option.bind_some] at hnone
        simp only [hconfig, hinsection, if_true, hnone]
      | none => simp only [hconfig, hspace, false_and, if_false]
    have hwrites := writes_only hret hnul hedit rfl
    rw [hinsection] at hwrites
    rw [decide_eq_false hoption, Bool.or_false, setOption, if_neg hoption]
    exact hwrites

theorem writes_body {body : List Text} (hret : e.ret = true) (hnul : ∀ line ∈ body, '\x00' ∉ line)
    (hconfig : ∀ line ∈ body, strstr "config".toList line = none)
    (hempty : ∀ line ∈ body, ¬IsEmpty line) (hreads : ∀ line ∈ body, ReadsOption option strval line)
    (hinsection : e.insection = true)
    : Writes env section' option strval body e
      (e.found || decide (∃ line ∈ body, IsOption option line)) true
      (body.map (setOption option strval)) := by
  induction body generalizing e with
  | nil =>
    rw [← hinsection]
    simpa using writes_nil (e := e)
  | cons line body ih =>
    have hline : Writes env section' option strval [line] e
        (e.found || decide (IsOption option line)) true [setOption option strval line] :=
      writes_inside hret (hnul line List.mem_cons_self) (hconfig line List.mem_cons_self)
        (hempty line List.mem_cons_self) (hreads line List.mem_cons_self) hinsection
    refine hline.append fun e' hret' hfound hinsection' => ?_
    have hbody := ih hret' (fun l hl => hnul l (List.mem_cons_of_mem _ hl))
      (fun l hl => hconfig l (List.mem_cons_of_mem _ hl))
      (fun l hl => hempty l (List.mem_cons_of_mem _ hl))
      (fun l hl => hreads l (List.mem_cons_of_mem _ hl)) hinsection'
    rw [hfound, Bool.or_assoc] at hbody
    simpa using hbody

/--
The empty line behind the section: this is where the option is added.
-/
theorem writes_empty (hret : e.ret = true) (hnul : '\x00' ∉ line) (hempty : IsEmpty line)
    (hinsection : e.insection = true)
    : Writes env section' option strval [line] e true false
      ((if e.found then [] else [addedLine option strval]) ++ [line]) := by
  have hletter : 'o' ∉ line := by
    intro ho
    have hspace := hempty.isSpace ho
    revert hspace
    decide
  have hconfig : strstr "config".toList line = none :=
    strstr_eq_none_of_not_mem (by decide) hletter
  have hoption : strstr "option".toList line = none :=
    strstr_eq_none_of_not_mem (by decide) hletter
  have hspace : line.dropWhile isSpace = [] := dropWhile_isSpace_iff.mpr hempty
  have hedit : editLine env section' option strval line e
      = some (fputs env line
        { e with
          found := true
          insection := false
          out := if e.found then e.out else e.out ++ addedLine option strval }) := by
    unfold editLine
    simp only [hconfig, hoption, hspace, hinsection, and_self, if_true]
  apply writes_line hret hnul hedit
  cases e.found with
  | true => simp
  | false => simp

/--
If the section has an end the option is there afterwards.
-/
theorem writes_tail {tail : List Text} (hret : e.ret = true) (hnul : ∀ line ∈ tail, '\x00' ∉ line)
    (hconfig : ∀ line ∈ tail, strstr "config".toList line = none)
    (hempty : ∀ line rest, tail = line :: rest → IsEmpty line) (hinsection : e.insection = true)
    : Writes env section' option strval tail e (e.found || !tail.isEmpty) tail.isEmpty
      ((if e.found ∨ tail = [] then [] else [addedLine option strval]) ++ tail) := by
  cases tail with
  | nil =>
    have hnil : Writes env section' option strval [] e e.found e.insection [] := writes_nil
    rw [hinsection] at hnil
    simpa using hnil
  | cons line rest =>
    have hline : Writes env section' option strval [line] e true false
        ((if e.found then [] else [addedLine option strval]) ++ [line]) :=
      writes_empty hret (hnul line List.mem_cons_self) (hempty line rest rfl) hinsection
    have htail : Writes env section' option strval ([line] ++ rest) e true false
        (((if e.found then [] else [addedLine option strval]) ++ [line]) ++ rest) := by
      refine hline.append fun e' hret' hfound hinsection' => ?_
      rw [← hfound]
      exact writes_outsides hret' (fun l hl => hnul l (List.mem_cons_of_mem _ hl))
        (fun l hl => hconfig l (List.mem_cons_of_mem _ hl)) hinsection'
    simpa using htail

end Writes

end ConfigEdit
