import IotGateway.ConfigEdit.Lemmas

/-!
This module says of which files, options and values the editor makes what it should.
-/

namespace ConfigEdit

open Substring

section Blocks

variable {env : Env} {section' option strval : Text} {b : Block} {bs : List Block} {e : Edit}

/--
The editor takes the lines of the section for what they are.
-/
structure Block.Readable (section' option strval : Text) (b : Block) : Prop where
  head : ∀ s, strstr "config".toList b.head = some s →
    ((strstr section' s).isSome = true ↔ Names section' b.head)
  config : ∀ line ∈ b.body ++ b.tail, strstr "config".toList line = none
  body : Names section' b.head → ∀ line ∈ b.body, ReadsOption option strval line
  tail : Names section' b.head → ¬b.HasOption option → b.tail ≠ [] →
    IsWord option ∧ '\n' ∉ strval

/--
The option is in the section, or can be added to it.
-/
def Block.Edits (section' option : Text) (b : Block) : Prop :=
  Names section' b.head ∧ (b.HasOption option ∨ b.tail ≠ [])

instance Block.decidableEdits (section' option : Text) (b : Block)
    : Decidable (b.Edits section' option) :=
  inferInstanceAs (Decidable (_ ∧ _))

def addedTo (option strval : Text) (found : Bool) (b : Block) : List Text :=
  if found ∨ b.HasOption option ∨ b.tail = [] then [] else [addedLine option strval]

def editBlock (section' option strval : Text) (found : Bool) (b : Block) : Block :=
  if Names section' b.head then
    { b with body := b.body.map (setOption option strval) ++ addedTo option strval found b }
  else
    b

def editBlocks (section' option strval : Text) : (found : Bool) → List Block → List Block
  | _, [] => []
  | found, b :: rest =>
    editBlock section' option strval found b
      :: editBlocks section' option strval (found || decide (b.Edits section' option)) rest

/--
The loop is still in the section after its lines.
-/
def Block.leavesOpen (section' : Text) (b : Block) : Bool :=
  decide (Names section' b.head ∧ b.tail = [])

theorem writes_section (hformed : b.Formed) (hreadable : b.Readable section' option strval)
    (hnul : ∀ line ∈ b.body ++ b.tail, '\x00' ∉ line) (hnames : Names section' b.head)
    (hret : e.ret = true) (hinsection : e.insection = true)
    : Writes env section' option strval (b.body ++ b.tail) e
      (e.found || decide (b.Edits section' option)) (b.leavesOpen section')
      ((editBlock section' option strval e.found b).body ++ b.tail) := by
  have hbody : Writes env section' option strval b.body e
      (e.found || decide (b.HasOption option)) true (b.body.map (setOption option strval)) :=
    writes_body hret (fun l hl => hnul l (List.mem_append_left _ hl))
      (fun l hl => hreadable.config l (List.mem_append_left _ hl)) hformed.body
      (hreadable.body hnames) hinsection
  have hlines : (editBlock section' option strval e.found b).body ++ b.tail
      = b.body.map (setOption option strval) ++ (addedTo option strval e.found b ++ b.tail) := by
    rw [editBlock, if_pos hnames, List.append_assoc]
  rw [hlines]
  refine hbody.append fun e' hret' hfound' hinsection' => ?_
  have htail : Writes env section' option strval b.tail e' (e'.found || !b.tail.isEmpty)
      b.tail.isEmpty
      ((if e'.found ∨ b.tail = [] then [] else [addedLine option strval]) ++ b.tail) :=
    writes_tail hret' (fun l hl => hnul l (List.mem_append_right _ hl))
      (fun l hl => hreadable.config l (List.mem_append_right _ hl)) hformed.tail hinsection'
  have hfound : (e'.found || !b.tail.isEmpty) = (e.found || decide (b.Edits section' option)) := by
    rw [hfound', Bool.or_assoc]
    cases htail : b.tail with
    | nil => simp [Block.Edits, hnames, htail]
    | cons line rest => simp [Block.Edits, hnames, htail]
  have hadded : (if e'.found ∨ b.tail = [] then [] else [addedLine option strval])
      = addedTo option strval e.found b := by
    unfold addedTo
    rw [hfound']
    simp only [Bool.or_eq_true, decide_eq_true_eq, or_assoc]
  have hopen : b.tail.isEmpty = b.leavesOpen section' := by
    cases htail : b.tail with
    | nil => simp [Block.leavesOpen, hnames, htail]
    | cons line rest => simp [Block.leavesOpen, htail]
  rw [hfound, hadded, hopen] at htail
  exact htail

theorem writes_block (hformed : b.Formed) (hreadable : b.Readable section' option strval)
    (hnul : ∀ line ∈ b.lines, '\x00' ∉ line) (hret : e.ret = true)
    : Writes env section' option strval b.lines e
      (e.found || decide (b.Edits section' option)) (b.leavesOpen section')
      (editBlock section' option strval e.found b).lines := by
  obtain ⟨s, hs⟩ := hformed.head.strstr
  have hhead : Writes env section' option strval [b.head] e e.found (strstr section' s).isSome
      [b.head] :=
    writes_head hret (hnul _ List.mem_cons_self) hs
  have hnul' : ∀ line ∈ b.body ++ b.tail, '\x00' ∉ line := fun line hline =>
    hnul line (List.mem_cons_of_mem _ hline)
  by_cases hnames : Names section' b.head
  . rw [(hreadable.head s hs).mpr hnames] at hhead
    have hlines : (editBlock section' option strval e.found b).lines
        = [b.head] ++ ((editBlock section' option strval e.found b).body ++ b.tail) := by
      rw [editBlock, if_pos hnames]
      rfl
    rw [hlines]
    refine hhead.append fun e₁ hret₁ hfound₁ hinsection₁ => ?_
    rw [← hfound₁]
    exact writes_section hformed hreadable hnul' hnames hret₁ hinsection₁
  . have houtside : (strstr section' s).isSome = false := by
      rw [Bool.eq_false_iff]
      exact fun h => hnames ((hreadable.head s hs).mp h)
    rw [houtside] at hhead
    have hedits : ¬b.Edits section' option := fun h => hnames h.1
    have hopen : b.leavesOpen section' = false := decide_eq_false fun h => hnames h.1
    rw [decide_eq_false hedits, Bool.or_false, hopen, editBlock, if_neg hnames]
    refine hhead.append fun e₁ hret₁ hfound₁ hinsection₁ => ?_
    rw [← hfound₁]
    exact writes_outsides hret₁ hnul' hreadable.config hinsection₁

theorem writes_blocks (hformed : ∀ b ∈ bs, b.Formed)
    (hreadable : ∀ b ∈ bs, b.Readable section' option strval)
    (hnul : ∀ b ∈ bs, ∀ line ∈ b.lines, '\x00' ∉ line) (hret : e.ret = true)
    : Writes env section' option strval (bs.flatMap Block.lines) e
      (e.found || decide (∃ b ∈ bs, b.Edits section' option))
      (bs.foldl (fun _ b => b.leavesOpen section') e.insection)
      ((editBlocks section' option strval e.found bs).flatMap Block.lines) := by
  induction bs generalizing e with
  | nil =>
    have hnil : Writes env section' option strval [] e e.found e.insection [] := writes_nil
    simpa [editBlocks] using hnil
  | cons b rest ih =>
    have hblock : Writes env section' option strval b.lines e
        (e.found || decide (b.Edits section' option)) (b.leavesOpen section')
        (editBlock section' option strval e.found b).lines :=
      writes_block (hformed b List.mem_cons_self) (hreadable b List.mem_cons_self)
        (hnul b List.mem_cons_self) hret
    rw [editBlocks, List.flatMap_cons, List.flatMap_cons, List.foldl_cons]
    refine hblock.append fun e' hret' hfound hinsection => ?_
    have hrest := ih (fun c hc => hformed c (List.mem_cons_of_mem _ hc))
      (fun c hc => hreadable c (List.mem_cons_of_mem _ hc))
      (fun c hc => hnul c (List.mem_cons_of_mem _ hc)) hret'
    rw [hfound, hinsection, Bool.or_assoc] at hrest
    simpa using hrest

end Blocks

section Words

variable {spaces word rest line section' option strval : Text} {b : Block}

theorem afterWord_suffix (line : Text) : afterWord line <:+ line :=
  (List.dropWhile_suffix _).trans (List.dropWhile_suffix _)

/--
The end of the line is not a part of what is before the value.
-/
theorem IsHead.not_mem {head text : Text} (hhead : IsHead option head) (hbegins : head <+: line)
    (htext : '\n' ∉ text) (hline : line = text ++ ['\n'] ∨ line = text) : '\n' ∉ head := by
  rcases hline with rfl | rfl
  . rcases List.prefix_concat_iff.mp hbegins with hall | hbegins
    . obtain ⟨-, hne, hblank⟩ := hhead
      have hsuffix : afterWord (afterWord head) <:+ text ++ ['\n'] := by
        rw [← hall]
        exact (afterWord_suffix _).trans (afterWord_suffix _)
      have hlast : '\n' ∈ afterWord (afterWord head) := by
        rcases List.suffix_concat_iff.mp hsuffix with hnil | ⟨before, hrest, -⟩
        . exact absurd hnil hne
        . rw [hrest]
          exact List.mem_concat_self
      exact absurd (hblank _ hlast) (by decide)
    . exact fun h => htext (hbegins.subset h)
  . exact fun h => htext (hbegins.subset h)

end Words

section Correct

variable {env : Env} {section' option strval filename text line : Text} {files : Files}
  {xs : List Text} {e e' : Edit}

/--
The editor reads the text as it is meant, and at most one section is edited.
-/
structure Editable (section' option strval text : Text) : Prop where
  nul : '\x00' ∉ text
  length : ∀ line ∈ lines '\n' text, line.length ≤ 199
  preamble : ∀ line ∈ (parse (lines '\n' text)).1, strstr "config".toList line = none
  readable : ∀ b ∈ (parse (lines '\n' text)).2, b.Readable section' option strval
  single : (parse (lines '\n' text)).2.Pairwise fun b c =>
    b.Edits section' option → Names section' c.head → ¬c.HasOption option

theorem Editable.fgets_eq (h : Editable section' option strval text)
    : fgets 198 text = lines '\n' text :=
  fgets_eq_lines (fun line hline => h.length line (List.mem_of_mem_head? hline))
    (fun line hline => h.length line (List.mem_of_mem_tail hline))

theorem Editable.not_mem (h : Editable section' option strval text)
    (hline : line ∈ lines '\n' text) : '\x00' ∉ line := by
  intro hnul
  apply h.nul
  have hflatten : (lines '\n' text).flatten = text := flatten_lines text
  rw [← hflatten]
  exact List.mem_flatten_of_mem hline hnul

/--
What the loop writes.
-/
theorem Editable.writes (h : Editable section' option strval text) (env : Env)
    : Writes env section' option strval (fgets 198 text) {}
      (decide (∃ b ∈ (parse (lines '\n' text)).2, b.Edits section' option))
      ((parse (lines '\n' text)).2.foldl (fun _ b => b.leavesOpen section') false)
      ((parse (lines '\n' text)).1
        ++ (editBlocks section' option strval false (parse (lines '\n' text)).2).flatMap
          Block.lines) := by
  have hlines := parse_lines (lines '\n' text)
  rw [h.fgets_eq]
  nth_rewrite 1 [← hlines]
  have hpreamble : Writes env section' option strval (parse (lines '\n' text)).1 {} false false
      (parse (lines '\n' text)).1 := by
    apply writes_outsides rfl _ h.preamble rfl
    intro line hline
    apply h.not_mem
    rw [← hlines]
    exact List.mem_append_left _ hline
  refine hpreamble.append fun e' hret' hfound hinsection => ?_
  have hnul : ∀ b ∈ (parse (lines '\n' text)).2, ∀ line ∈ b.lines, '\x00' ∉ line := by
    intro b hb line hline
    apply h.not_mem
    rw [← hlines]
    exact List.mem_append_right _ (List.mem_flatMap_of_mem hb hline)
  have hblocks : Writes env section' option strval
      ((parse (lines '\n' text)).2.flatMap Block.lines) e' _ _ _ :=
    writes_blocks (fun b hb => parse_formed hb) h.readable hnul hret'
  rw [hfound, hinsection, Bool.false_or] at hblocks
  exact hblocks

end Correct

section Examples

end Examples

end ConfigEdit
