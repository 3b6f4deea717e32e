import IotGateway.Cgi.Impl

/-!
This module says how a form is split into pairs, and for which requests the programs stay inside their
arrays.
-/

namespace Cgi

open Accesses Substring

section Split

variable {formdata before after : Text} {c : Char}

/--
The texts before and after the first `=`.
-/
def pair (part : Text) : Option (Text × Text) :=
  if '=' ∈ part then
    some (part.takeWhile (· ≠ '='), (part.dropWhile (· ≠ '=')).tail)
  else
    none

/--
The parts between the `&` that are pairs.
-/
def pairs (formdata : Text) : List (Text × Text) := (formdata.splitOn '&').filterMap pair

theorem strpos_of_not_mem (h : c ∉ formdata) : strpos formdata [c] = none := by
  unfold strpos
  rw [strstr_eq_none_of_not_mem List.mem_cons_self h]
  rfl

theorem strpos_append (h : c ∉ before)
    : strpos (before ++ c :: after) [c] = some before.length := by
  unfold strpos
  rw [strstr_singleton h, Option.map_some, List.length_append, Nat.add_sub_cancel]

theorem parsePostdata_append (start : Nat) (h : '&' ∉ before)
    : parsePostdata start (before ++ '&' :: after)
      = { calls :=
            (parsePostdata start before).calls
              ++ (parsePostdata (start + before.length + 1) after).calls
          accesses :=
            ⟨.filled, start, before.length + 1⟩ :: ⟨.postdata, start + before.length, 1⟩
              :: ((parsePostdata start before).accesses
                ++ (parsePostdata (start + before.length + 1) after).accesses) } := by
  have hfirst : (before ++ '&' :: after).take before.length = before := List.take_left' rfl
  have hsecond : (before ++ '&' :: after).drop (before.length + 1) = after := by
    rw [List.drop_append, Nat.add_sub_cancel_left]
    simp
  rw [parsePostdata]
  split
  . next pos hpos =>
    rw [strpos_append h] at hpos
    cases hpos
    rw [hfirst, hsecond]
  . next hnone =>
    rw [strpos_append h] at hnone
    cases hnone

theorem parsePostdata_part (start : Nat) (h : '&' ∉ formdata)
    : (parsePostdata start formdata).calls = (pair formdata).toList
      ∧ (parsePostdata start formdata).accesses
        = ⟨.filled, start, formdata.length + 1⟩
          :: if '=' ∈ formdata then
            [⟨.postdata, start + (formdata.takeWhile (· ≠ '=')).length, 1⟩]
          else
            [] := by
  rw [parsePostdata]
  split
  . next pos hpos =>
    rw [strpos_of_not_mem h] at hpos
    cases hpos
  . by_cases hmem : '=' ∈ formdata
    . obtain ⟨before, after, rfl, hbefore⟩ := List.eq_append_cons_of_mem hmem
      have hall : ∀ c ∈ before, decide (c ≠ '=') = true := by
        intro c hc
        apply decide_eq_true
        rintro rfl
        exact hbefore hc
      have hfirst : (before ++ '=' :: after).take before.length = before := List.take_left' rfl
      have hsecond : (before ++ '=' :: after).drop (before.length + 1) = after := by
        rw [List.drop_append, Nat.add_sub_cancel_left]
        simp
      have htake : (before ++ '=' :: after).takeWhile (· ≠ '=') = before := by
        rw [List.takeWhile_append_of_pos hall]
        simp
      have hdrop : (before ++ '=' :: after).dropWhile (· ≠ '=') = '=' :: after := by
        rw [List.dropWhile_append_of_pos hall]
        simp
      rw [strpos_append hbefore, pair, if_pos hmem, if_pos hmem, htake, hdrop]
      dsimp only
      rw [hfirst, hsecond]
      exact ⟨rfl, rfl⟩
    . rw [strpos_of_not_mem hmem, pair, if_neg hmem, if_neg hmem]
      exact ⟨rfl, rfl⟩

/--
`parseNameValue` is called for the pairs.
-/
theorem calls_eq (start : Nat) (formdata : Text)
    : (parsePostdata start formdata).calls = pairs formdata := by
  induction hlength : formdata.length using Nat.strong_induction_on generalizing start formdata with
  | h n ih =>
    by_cases hmem : '&' ∈ formdata
    . obtain ⟨before, after, rfl, hbefore⟩ := List.eq_append_cons_of_mem hmem
      rw [List.length_append, List.length_cons] at hlength
      have hsecond := ih after.length (by omega) (start + before.length + 1) after rfl
      rw [parsePostdata_append start hbefore, hsecond, (parsePostdata_part start hbefore).1, pairs,
        pairs, List.splitOn_append_cons_self_of_not_mem hbefore]
      cases hpair : pair before with
      | none => rw [List.filterMap_cons_none hpair]; rfl
      | some call => rw [List.filterMap_cons_some hpair]; rfl
    . rw [(parsePostdata_part start hmem).1, pairs, List.splitOn_eq_singleton hmem]
      cases hpair : pair formdata with
      | none => rw [List.filterMap_cons_none hpair]; rfl
      | some call => rw [List.filterMap_cons_some hpair]; rfl

/--
Splitting stays inside of the text.
-/
theorem parsePostdata_inside {filled : Nat} (start : Nat) (formdata : Text)
    (hfilled : start + formdata.length + 1 ≤ filled) (hpostdata : filled ≤ 200)
    : Inside (size filled) (parsePostdata start formdata).accesses := by
  induction hlength : formdata.length using Nat.strong_induction_on generalizing start formdata with
  | h n ih =>
    by_cases hmem : '&' ∈ formdata
    . obtain ⟨before, after, rfl, hbefore⟩ := List.eq_append_cons_of_mem hmem
      rw [List.length_append, List.length_cons] at hlength hfilled
      have hfirst := ih before.length (by omega) start before (by omega) rfl
      have hsecond := ih after.length (by omega) (start + before.length + 1) after (by omega) rfl
      rw [parsePostdata_append start hbefore, inside_cons, inside_cons, inside_append]
      refine ⟨.inr ?_, .inr ?_, hfirst, hsecond⟩
      . show start + (before.length + 1) ≤ filled
        omega
      . show start + before.length + 1 ≤ 200
        omega
    . rw [(parsePostdata_part start hmem).2, inside_cons]
      refine ⟨.inr ?_, ?_⟩
      . show start + (formdata.length + 1) ≤ filled
        omega
      . split
        . have hle : (formdata.takeWhile (· ≠ '=')).length ≤ formdata.length :=
            (List.takeWhile_prefix _).length_le
          rw [inside_cons]
          refine ⟨.inr ?_, inside_nil⟩
          show start + (formdata.takeWhile (· ≠ '=')).length + 1 ≤ 200
          omega
        . exact inside_nil

end Split

section Body

variable {filled : Nat} {lenstr : Option Text} {stdin memory formdata : Text} {len : Int}
  {parseNameValue : Text → Text → List (Access Arr)}

def firstLine (stdin : Text) : Text := (lines '\n' stdin).headD []

/--
`postdata` is filled, and what is stored fits.
-/
structure BodyFits (len : Int) (stdin : Text) : Prop where
  nonneg : 0 ≤ len
  noOverflow : len < 2 ^ 31 - 1
  filled : len = 0 ∨ stdin ≠ []
  short : len ≤ 199 ∨ (firstLine stdin).length ≤ 199

/--
The text of the body.
-/
def bodyText (len : Int) (stdin : Text) : Text :=
  ((firstLine stdin).take len.toNat).takeWhile (· ≠ '\x00')

theorem atoi_range (string : Text) : -2 ^ 31 ≤ Json.Atoi string ∧ Json.Atoi string < 2 ^ 31 := by
  unfold Json.Atoi
  split
  . decide
  . exact ⟨Int.le_bmod (by decide), Int.bmod_lt (by decide)⟩

theorem fgets_eq (hrange : -2 ^ 31 ≤ len ∧ len < 2 ^ 31)
    : fgets (Int.bmod (len + 1) (2 ^ 32)) stdin
      = if 0 ≤ len ∧ len < 2 ^ 31 - 1 ∧ (len = 0 ∨ stdin ≠ []) then
        some ((firstLine stdin).take len.toNat)
      else
        none := by
  obtain ⟨hlow, hhigh⟩ := hrange
  by_cases hmax : len = 2 ^ 31 - 1
  . subst hmax
    rw [if_neg fun h => absurd h.2.1 (by decide)]
    rfl
  . have hmod : Int.bmod (len + 1) (2 ^ 32) = len + 1 :=
      Int.bmod_eq_of_le (by omega) (by omega)
    rw [hmod]
    unfold fgets
    by_cases hneg : len < 0
    . rw [if_pos (by omega), if_neg (by omega)]
    . rw [if_neg (by omega)]
      by_cases hzero : len = 0
      . subst hzero
        rw [if_pos (by decide), if_pos (by simp)]
        rfl
      . rw [if_neg (by omega)]
        by_cases hempty : stdin = []
        . rw [if_pos hempty, if_neg (by simp [hzero, hempty])]
        . rw [if_neg hempty, if_pos ⟨by omega, by omega, .inr hempty⟩, Int.add_sub_cancel]
          rfl

theorem stored_inside_iff
    (hfilled : 0 ≤ len ∧ len < 2 ^ 31 - 1 ∧ (len = 0 ∨ stdin ≠ []))
    : (Inside (size (((firstLine stdin).take len.toNat).length + 1))
          [⟨.postdata, 0, ((firstLine stdin).take len.toNat).length + 1⟩,
            ⟨.filled, 0, (bodyText len stdin).length + 1⟩,
            ⟨.postdata_cpy, 0, (bodyText len stdin).length + 1⟩]
        ∧ Inside (size (((firstLine stdin).take len.toNat).length + 1))
          (parsePostdata 0 (bodyText len stdin)).accesses)
      ↔ BodyFits len stdin := by
  have htext : (bodyText len stdin).length ≤ ((firstLine stdin).take len.toNat).length :=
    (List.takeWhile_prefix _).length_le
  constructor
  . rintro ⟨hstored, -⟩
    refine ⟨hfilled.1, hfilled.2.1, hfilled.2.2, ?_⟩
    simp only [inside_cons, size, List.length_take] at hstored
    omega
  . intro hfits
    have hshort := hfits.short
    have hlength : ((firstLine stdin).take len.toNat).length ≤ 199 := by
      rw [List.length_take]
      omega
    constructor
    . simp only [inside_cons, size]
      refine ⟨?_, ?_, ?_, inside_nil⟩
      . omega
      . omega
      . omega
    . apply parsePostdata_inside
      . omega
      . omega

/--
The body is read inside of the arrays exactly if it fits and the values of its pairs do.
-/
theorem readBody_inside_iff {P : Text → Prop}
    (hcalls : ∀ filled formdata, Inside (size filled)
      ((pairs formdata).flatMap fun call => parseNameValue call.1 call.2) ↔ P formdata)
    : Inside (size (readBody parseNameValue lenstr stdin memory).filled)
        (readBody parseNameValue lenstr stdin memory).accesses
      ↔ ∀ s ∈ lenstr, BodyFits (Json.Atoi s) stdin ∧ P (bodyText (Json.Atoi s) stdin) := by
  unfold readBody
  cases lenstr with
  | none => simp
  | some s =>
    dsimp only
    rw [fgets_eq (atoi_range s)]
    simp only [Option.mem_some_iff, forall_eq']
    by_cases hfilled : 0 ≤ Json.Atoi s ∧ Json.Atoi s < 2 ^ 31 - 1
        ∧ (Json.Atoi s = 0 ∨ stdin ≠ [])
    . rw [if_pos hfilled]
      dsimp only
      rw [calls_eq, inside_append, inside_append, hcalls]
      exact and_congr_left fun _ => stored_inside_iff hfilled
    . rw [if_neg hfilled]
      refine iff_of_false ?_ fun h => hfilled ⟨h.1.nonneg, h.1.noOverflow, h.1.filled⟩
      dsimp only
      rw [List.append_assoc, List.cons_append, inside_cons]
      rintro ⟨hread, -⟩
      simp only [size] at hread
      omega

end Body

section Programs

variable {filled : Nat} {formdata : Text}

/--
The values that are copied fit into `mac` and `cmd`.
-/
def PairsFit (formdata : Text) : Prop :=
  ∀ call ∈ pairs formdata, (call.1 = "mac".toList → call.2.length ≤ 39)
    ∧ (call.1 = "cmd".toList → call.2.length ≤ 7)

theorem parseNameValue_inside_iff {name value : Text}
    : Inside (size filled) (Plugs.parseNameValue name value)
      ↔ (name = "mac".toList → value.length ≤ 39) ∧ (name = "cmd".toList → value.length ≤ 7) := by
  have hother : "cmd".toList ≠ "mac".toList := by decide
  unfold Plugs.parseNameValue
  split
  . next h => simp [h]
  split
  . next h =>
    simp only [h, hother.symm, inside_cons, size, inside_nil, Nat.add_eq_zero_iff,
      List.length_eq_zero_iff, Nat.succ_ne_self, and_false, zero_add, Nat.reduceLeDiff, false_or,
      and_true, forall_const, IsEmpty.forall_iff]
  split
  . next h =>
    simp only [h, hother, inside_cons, size, inside_nil, Nat.add_eq_zero_iff,
      List.length_eq_zero_iff, Nat.succ_ne_self, and_false, zero_add, Nat.reduceLeDiff, false_or,
      and_true, true_and, forall_const, IsEmpty.forall_iff]
  . next hmac hcmd =>
    refine iff_of_true inside_nil ⟨?_, ?_⟩
    . exact fun h => absurd h hmac
    . exact fun h => absurd h hcmd

theorem plugs_calls_inside_iff (filled : Nat) (formdata : Text)
    : Inside (size filled)
        ((pairs formdata).flatMap fun call => Plugs.parseNameValue call.1 call.2)
      ↔ PairsFit formdata := by
  unfold PairsFit
  induction pairs formdata with
  | nil => simp
  | cons call calls ih =>
    rw [List.flatMap_cons, inside_append, ih, parseNameValue_inside_iff, List.forall_mem_cons]

/--
The query string and the body fit into the arrays of `plugs`, and so do the values in them.
-/
structure PlugsFits (formdata lenstr : Option Text) (stdin : Text) : Prop where
  query : ∀ s ∈ formdata, s.length ≤ 199 ∧ PairsFit s
  body : ∀ s ∈ lenstr, BodyFits (Json.Atoi s) stdin ∧ PairsFit (bodyText (Json.Atoi s) stdin)

/--
The body fits into the arrays of `control`.
-/
def ControlFits (lenstr : Option Text) (stdin : Text) : Prop :=
  ∀ s ∈ lenstr, BodyFits (Json.Atoi s) stdin

theorem plugs_inside_iff (formdata lenstr : Option Text) (stdin memory : Text)
    : Inside (size (Plugs.readForm formdata lenstr stdin memory).filled)
        (Plugs.readForm formdata lenstr stdin memory).accesses
      ↔ PlugsFits formdata lenstr stdin := by
  have hbody : Inside (size (readBody Plugs.parseNameValue lenstr stdin memory).filled)
        (readBody Plugs.parseNameValue lenstr stdin memory).accesses
      ↔ ∀ s ∈ lenstr, BodyFits (Json.Atoi s) stdin ∧ PairsFit (bodyText (Json.Atoi s) stdin) :=
    readBody_inside_iff plugs_calls_inside_iff
  have hsplit : Inside (size (Plugs.readForm formdata lenstr stdin memory).filled)
        (Plugs.readForm formdata lenstr stdin memory).accesses
      ↔ (∀ s ∈ formdata, s.length ≤ 199 ∧ PairsFit s)
        ∧ Inside (size (readBody Plugs.parseNameValue lenstr stdin memory).filled)
          (readBody Plugs.parseNameValue lenstr stdin memory).accesses := by
    unfold Plugs.readForm
    dsimp only
    rw [List.cons_append, inside_cons, inside_append, inside_cons]
    cases formdata with
    | none => simp [size]
    | some s =>
      dsimp only
      split
      . rw [inside_cons, calls_eq, plugs_calls_inside_iff]
        simp only [size, Nat.succ_ne_self, zero_add, Nat.reduceLeDiff, or_true, Nat.add_eq_zero_iff,
          List.length_eq_zero_iff, and_false, false_or, true_and, Option.mem_def, Option.some.injEq,
          forall_eq']
      . next hempty =>
        have hnil : s = [] := List.length_eq_zero_iff.mp (by omega)
        have hpairs : PairsFit [] := fun call hcall => by cases hcall
        simp [hnil, hpairs, size]
  rw [hsplit, hbody]
  exact ⟨fun h => ⟨h.1, h.2⟩, fun h => ⟨h.query, h.body⟩⟩

theorem control_inside_iff (lenstr : Option Text) (stdin memory : Text)
    : Inside (size (Control.readForm lenstr stdin memory).filled)
        (Control.readForm lenstr stdin memory).accesses
      ↔ ControlFits lenstr stdin := by
  have hcalls : ∀ filled formdata, Inside (size filled)
      ((pairs formdata).flatMap fun call => Control.parseNameValue call.1 call.2) ↔ True := by
    intro filled formdata
    refine iff_of_true ?_ trivial
    intro access haccess
    obtain ⟨call, -, hnone⟩ := List.mem_flatMap.mp haccess
    cases hnone
  have hbody : Inside (size (readBody Control.parseNameValue lenstr stdin memory).filled)
        (readBody Control.parseNameValue lenstr stdin memory).accesses
      ↔ ∀ s ∈ lenstr, BodyFits (Json.Atoi s) stdin ∧ True :=
    readBody_inside_iff hcalls
  simp only [and_true] at hbody
  exact hbody

/--
Both programs stay inside of their arrays exactly if the form fits, and split it as it is meant.
-/
theorem forms_inside_iff (formdata lenstr : Option Text) (stdin memory : Text)
    : (Inside (size (Plugs.readForm formdata lenstr stdin memory).filled)
        (Plugs.readForm formdata lenstr stdin memory).accesses
        ↔ PlugsFits formdata lenstr stdin)
      ∧ (Inside (size (Control.readForm lenstr stdin memory).filled)
          (Control.readForm lenstr stdin memory).accesses
        ↔ ControlFits lenstr stdin)
      ∧ ∀ start text, (parsePostdata start text).calls = pairs text :=
  ⟨plugs_inside_iff formdata lenstr stdin memory, control_inside_iff lenstr stdin memory, calls_eq⟩

/--
The query string of the client is copied as long as it is.
-/
theorem query_not_inside
    : ¬∀ (formdata lenstr : Option Text) (stdin memory : Text),
      Inside (size (Plugs.readForm formdata lenstr stdin memory).filled)
        (Plugs.readForm formdata lenstr stdin memory).accesses
      ∧ Inside (size (Control.readForm lenstr stdin memory).filled)
        (Control.readForm lenstr stdin memory).accesses := by
  intro h
  obtain ⟨hplugs, -⟩ := h (some (List.replicate 200 'a')) none [] []
  have hlong : (List.replicate 200 'a').length > 0 := by
    rw [List.length_replicate]
    decide
  unfold Plugs.readForm at hplugs
  simp only [if_pos hlong, List.cons_append, inside_cons, size] at hplugs
  rw [List.length_replicate] at hplugs
  omega

end Programs

end Cgi
