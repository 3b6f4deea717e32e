import IotGateway.NewDb.Lemmas.Cleanup
import Mathlib.Data.List.Induction

/-!
This module contains what the search for a row of the plug history finds.
-/

namespace NewDb

def Matches (mac : String) (min : Int) (hist : PlugHist) : Prop :=
  minuteOf hist.lastupdate = min ∧ hist.mac = mac

/--
The row that a new sample of a plug gets: the one of the same minute, else a free one, else an oldest
one.
-/
structure Chosen (mac : String) (min : Int) (t : PlugHistory) (i : Fin NEWDB_MAX_PLUGHIST) : Prop where
  matching : ∀ j, Matches mac min (t j) → Matches mac min (t i)
  free : (∀ j, ¬Matches mac min (t j)) → ∀ j, (t j).mac = "" → (t i).mac = ""
  oldest : (∀ j, ¬Matches mac min (t j)) → (∀ j, (t j).mac ≠ "") →
    ∀ j, (t i).lastupdate ≤ (t j).lastupdate

/--
What the scan has found in the rows `pre`.
-/
structure Found (mac : String) (min : Int) (t : PlugHistory) (pre : List (Fin NEWDB_MAX_PLUGHIST))
    (scan : PlugHistScan) : Prop where
  matching : ∀ i, scan.matching = some i → Matches mac min (t i)
  unmatched : scan.matching = none → ∀ i ∈ pre, ¬Matches mac min (t i)
  firstempty : ∀ i, scan.firstempty = some i → (t i).mac = ""
  occupied : scan.matching = none → scan.firstempty = none → ∀ i ∈ pre, (t i).mac ≠ ""
  oldest : ∀ i, scan.oldest = some i → scan.ts = (t i).lastupdate ∧ (t i).mac ≠ ""
  unset : scan.oldest = none → scan.ts < 0
  least : scan.matching = none → ∀ i ∈ pre, (t i).mac ≠ "" →
    scan.oldest ≠ none ∧ scan.ts ≤ (t i).lastupdate

section

variable {db : Db} {mac : Text} {min now : Int} {pre : List (Fin NEWDB_MAX_PLUGHIST)}
  {scan : PlugHistScan} {i : Fin NEWDB_MAX_PLUGHIST}

/--
A free row does not match, and a scan that has not stopped goes on behind it.
-/
theorem Found.skip (h : Found mac min db.plughist pre scan) (hmatching : scan.matching = none)
    (hempty : (db.plughist i).mac = "")
    : Found mac min db.plughist (pre ++ [i])
        { scan with firstempty := scan.firstempty <|> some i } where
  matching := h.matching
  unmatched := by
    intro _ j hj
    rcases List.mem_append.mp hj with hj | hj
    . exact h.unmatched hmatching j hj
    . rw [List.mem_singleton.mp hj]
      rintro ⟨-, hmac⟩
      exact mac.2 (hmac.symm.trans hempty)
  firstempty := by
    intro j hj
    cases hfirst : scan.firstempty with
    | none =>
      rw [hfirst] at hj
      obtain rfl := Option.some.inj hj
      exact hempty
    | some k =>
      rw [hfirst] at hj
      obtain rfl := Option.some.inj hj
      exact h.firstempty k hfirst
  occupied := by
    intro _ hnone
    cases hfirst : scan.firstempty with
    | none =>
      rw [hfirst] at hnone
      cases hnone
    | some k =>
      rw [hfirst] at hnone
      cases hnone
  oldest := h.oldest
  unset := h.unset
  least := by
    intro _ j hj hlive
    rcases List.mem_append.mp hj with hj | hj
    . exact h.least hmatching j hj hlive
    . rw [List.mem_singleton.mp hj] at hlive
      exact absurd hempty hlive

def PlugHistScan.compare (db : Db) (scan : PlugHistScan) (i : Fin NEWDB_MAX_PLUGHIST) : PlugHistScan :=
  if scan.ts < 0 ∨ (db.plughist i).lastupdate < scan.ts then
    { scan with ts := (db.plughist i).lastupdate, oldest := some i }
  else
    scan

theorem Found.compare (h : Found mac min db.plughist pre scan)
    (hpos : ∀ j, (db.plughist j).mac ≠ "" → 0 ≤ (db.plughist j).lastupdate)
    (hlive : (db.plughist i).mac ≠ "")
    : (scan.compare db i).matching = scan.matching
        ∧ (scan.compare db i).firstempty = scan.firstempty
        ∧ (∃ k, (scan.compare db i).oldest = some k
          ∧ (scan.compare db i).ts = (db.plughist k).lastupdate ∧ (db.plughist k).mac ≠ "")
        ∧ (scan.compare db i).ts ≤ (db.plughist i).lastupdate
        ∧ (scan.oldest ≠ none → (scan.compare db i).ts ≤ scan.ts) := by
  unfold PlugHistScan.compare
  split
  . next hless =>
    refine ⟨rfl, rfl, ⟨i, rfl, rfl, hlive⟩, Int.le_refl _, ?_⟩
    intro hsome
    obtain ⟨k, hk⟩ := Option.ne_none_iff_exists'.mp hsome
    obtain ⟨hts, hkmac⟩ := h.oldest k hk
    have hkpos := hpos k hkmac
    rw [hts] at hless ⊢
    simp only
    omega
  . next hnot =>
    have hsome : scan.oldest ≠ none := by
      intro hnone
      exact hnot (.inl (h.unset hnone))
    obtain ⟨k, hk⟩ := Option.ne_none_iff_exists'.mp hsome
    refine ⟨rfl, rfl, ⟨k, hk, h.oldest k hk⟩, ?_, fun _ => Int.le_refl _⟩
    omega

theorem Found.next (h : Found mac min db.plughist pre scan)
    (hpos : ∀ j, (db.plughist j).mac ≠ "" → 0 ≤ (db.plughist j).lastupdate)
    : Found mac min db.plughist (pre ++ [i]) (PlugHistScan.next db mac min scan i) := by
  unfold PlugHistScan.next
  simp only
  split
  -- The scan has stopped
  . next hmatching =>
    have hsome : ∀ {P : Prop}, scan.matching = none → P := by
      intro P hnone
      rw [hnone] at hmatching
      cases hmatching
    exact { h with unmatched := hsome, occupied := hsome, least := hsome }
  . next hmatching =>
    have hnone : scan.matching = none := by simpa using hmatching
    split
    . next hempty => exact h.skip hnone hempty
    . next hlive =>
      rw [← PlugHistScan.compare]
      obtain ⟨hsame, hfirst, ⟨k, hk, hts, hkmac⟩, hle, hless⟩ := h.compare hpos hlive
      have holdest : ∀ j, (scan.compare db i).oldest = some j →
          (scan.compare db i).ts = (db.plughist j).lastupdate ∧ (db.plughist j).mac ≠ "" := by
        intro j hj
        obtain rfl := Option.some.inj (hk.symm.trans hj)
        exact ⟨hts, hkmac⟩
      have hunset : (scan.compare db i).oldest = none → (scan.compare db i).ts < 0 := by
        intro hnone
        rw [hk] at hnone
        cases hnone
      split
      . next hmatch =>
        constructor
        case matching =>
          intro j hj
          obtain rfl := Option.some.inj hj
          exact hmatch
        case firstempty =>
          intro j hj
          exact h.firstempty j (hfirst ▸ hj)
        case oldest => exact holdest
        case unset => exact hunset
        all_goals
          rintro ⟨⟩
      . next hmatch =>
        constructor
        case matching =>
          intro j hj
          exact h.matching j (hsame ▸ hj)
        case unmatched =>
          intro _ j hj
          rcases List.mem_append.mp hj with hj | hj
          . exact h.unmatched hnone j hj
          . rw [List.mem_singleton.mp hj]
            exact hmatch
        case firstempty =>
          intro j hj
          exact h.firstempty j (hfirst ▸ hj)
        case occupied =>
          intro _ hnoempty j hj
          rcases List.mem_append.mp hj with hj | hj
          . exact h.occupied hnone (hfirst ▸ hnoempty) j hj
          . rw [List.mem_singleton.mp hj]
            exact hlive
        case oldest => exact holdest
        case unset => exact hunset
        case least =>
          intro _ j hj hjlive
          refine ⟨by simp [hk], ?_⟩
          rcases List.mem_append.mp hj with hj | hj
          . obtain ⟨hsome, hlej⟩ := h.least hnone j hj hjlive
            exact Int.le_trans (hless hsome) hlej
          . rw [List.mem_singleton.mp hj]
            exact hle

theorem found_scan (mac : Text) (min : Int)
    (hpos : ∀ j, (db.plughist j).mac ≠ "" → 0 ≤ (db.plughist j).lastupdate)
    (rows : List (Fin NEWDB_MAX_PLUGHIST))
    : Found mac min db.plughist rows (rows.foldl (PlugHistScan.next db mac min) {}) := by
  induction rows using List.reverseRecOn with
  | nil =>
    constructor
    case unset =>
      intro _
      exact Int.negSucc_lt_zero 0
    all_goals simp
  | append_singleton rows i ih =>
    rw [List.foldl_append]
    exact ih.next hpos

theorem Found.chosen (h : Found mac min db.plughist (List.finRange NEWDB_MAX_PLUGHIST) scan)
    : ∃ i, (scan.matching <|> scan.firstempty <|> scan.oldest) = some i
        ∧ Chosen mac min db.plughist i := by
  cases hmatching : scan.matching with
  | some i =>
    have hi := h.matching i hmatching
    refine ⟨i, rfl, fun _ _ => hi, ?_, ?_⟩
    . intro hnone
      exact absurd hi (hnone i)
    . intro hnone
      exact absurd hi (hnone i)
  | none =>
    have hnone : ∀ j, ¬Matches mac min (db.plughist j) := fun j =>
      h.unmatched hmatching j (List.mem_finRange j)
    cases hfirst : scan.firstempty with
    | some i =>
      have hi := h.firstempty i hfirst
      refine ⟨i, rfl, fun j hj => absurd hj (hnone j), fun _ _ _ => hi, ?_⟩
      intro _ hfull
      exact absurd hi (hfull i)
    | none =>
      have hfull : ∀ j, (db.plughist j).mac ≠ "" := fun j =>
        h.occupied hmatching hfirst j (List.mem_finRange j)
      have hsome : scan.oldest ≠ none :=
        (h.least hmatching ⟨0, by decide⟩ (List.mem_finRange _) (hfull _)).1
      obtain ⟨i, hi⟩ := Option.ne_none_iff_exists'.mp hsome
      refine ⟨i, hi, fun j hj => absurd hj (hnone j), ?_, ?_⟩
      . intro _ j hj
        exact absurd hj (hfull j)
      . intro _ _ j
        rw [← (h.oldest i hi).1]
        exact (h.least hmatching j (List.mem_finRange j) (hfull j)).2

def sample (i : Fin NEWDB_MAX_PLUGHIST) (mac : String) (sum lastupdate : Int) : PlugHist :=
  { id := i, mac, sum, lastupdate }

/--
There is always a row for a new sample.
-/
theorem newDbGetMatchingOrNewPlugHist_spec
    (hpos : ∀ j, (db.plughist j).mac ≠ "" → 0 ≤ (db.plughist j).lastupdate)
    (hmac : mac.1.toList.length ≤ LEN_MAC_NIBBLE) (min now : Int)
    : ∃ i db', Chosen mac min db.plughist i
        ∧ newDbGetMatchingOrNewPlugHist db mac min now = (db', some (sample i mac 0 now))
        ∧ db'.plughist = Function.update db.plughist i (sample i mac 0 now) := by
  obtain ⟨i, hi, hchosen⟩ := (found_scan mac min hpos
    (List.finRange NEWDB_MAX_PLUGHIST)).chosen
  unfold newDbGetMatchingOrNewPlugHist
  simp only [newDbStrNcpy_eq hmac, hi]
  exact ⟨i, _, hchosen, rfl, rfl⟩

theorem newDbGetMatchingOrNewPlugHist_cases (hmac : mac.1.toList.length ≤ LEN_MAC_NIBBLE)
    (db : Db) (min now : Int)
    : newDbGetMatchingOrNewPlugHist db mac min now = (db, none)
      ∨ ∃ i db', newDbGetMatchingOrNewPlugHist db mac min now = (db', some (sample i mac 0 now))
        ∧ db'.plughist = Function.update db.plughist i (sample i mac 0 now) := by
  unfold newDbGetMatchingOrNewPlugHist
  simp only [newDbStrNcpy_eq hmac]
  split
  . next i _ => exact .inr ⟨i, _, rfl, rfl⟩
  . exact .inl rfl

theorem newDbSetPlugHist_plughist (db : Db) (i : Fin NEWDB_MAX_PLUGHIST) (mac : String)
    (sum lastupdate now : Int)
    : (newDbSetPlugHist db (sample i mac sum lastupdate) now).1.plughist
      = Function.update db.plughist i (sample i mac sum now) := by
  simp [newDbSetPlugHist, setRow, sample]

end

end NewDb
