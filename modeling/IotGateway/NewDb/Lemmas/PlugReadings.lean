import IotGateway.NewDb.Impl.PlugReadings
import IotGateway.NewDb.Lemmas.Cleanup
import Mathlib.Algebra.BigOperators.Group.Finset.Basic

/-!
This module compares what is computed of the plug history with what its readings say: the usage of
the last hour and the last day, and the history of a number of periods.
-/

namespace NewDb

theorem loopRows_eq_foldl {σ ρ : Type} {callback : ρ → σ → σ × Bool}
    (h : ∀ row s, (callback row s).2 = true) (rows : List ρ) (s : σ)
    : loopRows callback rows s = (rows.foldl (fun s row => (callback row s).1) s, true) := by
  induction rows generalizing s with
  | nil => rfl
  | cons row rows ih =>
    have hpair : callback row s = ((callback row s).1, true) := Prod.ext rfl (h row s)
    rw [loopRows, hpair]
    exact ih _

/--
The readings of the last `period` minutes.
-/
def windowSums (now period : Int) (rows : List PlugHist) : List Int :=
  (rows.filter fun hist => minuteOf now - period ≤ minuteOf hist.lastupdate
    ∧ minuteOf hist.lastupdate ≤ minuteOf now).map PlugHist.sum

def spread (sums : List Int) : Int :=
  if sums.length < 2 then 0 else sums.max?.getD 0 - sums.min?.getD 0

theorem spread_eq_zero_iff (sums : List Int)
    : spread sums = 0 ↔ ∀ a ∈ sums, ∀ b ∈ sums, a = b := by
  match sums with
  | [] => simp [spread]
  | [sum] => simp [spread]
  | first :: second :: rest =>
    have hmax := List.max?_eq_some_max (l := first :: second :: rest) (by simp)
    have hmin := List.min?_eq_some_min (l := first :: second :: rest) (by simp)
    generalize (first :: second :: rest).max (by simp) = greatest at hmax
    generalize (first :: second :: rest).min (by simp) = least at hmin
    obtain ⟨hgreatest, hle⟩ := List.max?_eq_some_iff.mp hmax
    obtain ⟨hleast, hge⟩ := List.min?_eq_some_iff.mp hmin
    rw [spread, if_neg (by simp), hmax, hmin, Option.getD_some, Option.getD_some]
    constructor
    . intro h a ha b hb
      have := hle a ha
      have := hle b hb
      have := hge a ha
      have := hge b hb
      omega
    . intro h
      have := h greatest hgreatest least hleast
      omega

/--
The window ends before it starts.
-/
theorem plugFindUsage_eq_zero (db : Db) (mac : String) (now : Int) {period : Int} (h : 0 < period)
    : plugFindUsage db mac now period = 0 := by
  have hcallback (row : PlugHist) (s : FindUsage)
      : plugFindUsageCb (Int.tdiv now 60) (Int.tdiv now 60 - period) row s = (s, true) := by
    unfold plugFindUsageCb
    simp only
    split
    . rfl
    . rw [if_neg (by omega)]
  have hloop (rows : List PlugHist) (s : FindUsage)
      : loopRows (plugFindUsageCb (Int.tdiv now 60) (Int.tdiv now 60 - period)) rows s
        = (s, true) := by
    induction rows with
    | nil => rfl
    | cons row rows ih =>
      rw [loopRows, hcallback]
      exact ih
  simp only [plugFindUsage, newDbLoopPlugHist, hloop]
  decide

/--
The usage is right as long as it is 0.
-/
theorem plugFindUsage_iff (db : Db) (mac : String) (now : Int)
    : (plugFindHourUsage db mac now = spread (windowSums now 60 (plugRows mac db.plughist))
        ↔ ∀ a ∈ windowSums now 60 (plugRows mac db.plughist),
          ∀ b ∈ windowSums now 60 (plugRows mac db.plughist), a = b)
      ∧ (plugFindDayUsage db mac now
          = spread (windowSums now (24 * 60) (plugRows mac db.plughist))
        ↔ ∀ a ∈ windowSums now (24 * 60) (plugRows mac db.plughist),
          ∀ b ∈ windowSums now (24 * 60) (plugRows mac db.plughist), a = b) := by
  constructor
  . rw [plugFindHourUsage, plugFindUsage_eq_zero db mac now (by decide), eq_comm]
    exact spread_eq_zero_iff _
  . rw [plugFindDayUsage, plugFindUsage_eq_zero db mac now (by decide), eq_comm]
    exact spread_eq_zero_iff _

/--
The table after readings of a plug, given as times and sums.
-/
def sampled (mac : String) (readings : List (Int × Int)) : Db :=
  readings.foldl (fun db (time, sum) =>
    match newDbGetMatchingOrNewPlugHist db mac (minuteOf time) time with
    | (db, some hist) => (newDbSetPlugHist db { hist with sum } time).1
    | (db, none) => db) Db.init

def meteredMac : String := "00158D0000350F30"

/--
Ten minutes ago the sum was 9, and ten minutes before that 5.
-/
theorem hourUsage_wrong
    : plugFindHourUsage (sampled meteredMac [(600, 5), (1200, 9)]) meteredMac 1800 = 0
      ∧ spread (windowSums 1800 60
          (plugRows meteredMac (sampled meteredMac [(600, 5), (1200, 9)]).plughist)) = 4 := by
  decide +kernel

/--
What is remembered in `histmax`: a reading of 0 is replaced by any other one.
-/
def keepMax (sums : List Int) : Int :=
  sums.foldl (fun histmax sum => if histmax = 0 ∨ sum > histmax then sum else histmax) 0

/--
What is remembered in `histmin`.
-/
def keepMin (sums : List Int) : Int :=
  sums.foldl (fun histmin sum => if histmin = 0 ∨ sum < histmin then sum else histmin) 0

theorem keepMax_append (sums : List Int) (sum : Int)
    : keepMax (sums ++ [sum])
        = if keepMax sums = 0 ∨ sum > keepMax sums then sum else keepMax sums := by
  rw [keepMax, List.foldl_append]
  rfl

theorem keepMin_append (sums : List Int) (sum : Int)
    : keepMin (sums ++ [sum])
        = if keepMin sums = 0 ∨ sum < keepMin sums then sum else keepMin sums := by
  rw [keepMin, List.foldl_append]
  rfl

section

variable {sums : List Int}

theorem keepMax_spec (hnonneg : ∀ sum ∈ sums, 0 ≤ sum)
    : (∀ sum ∈ sums, sum ≤ keepMax sums) ∧ (keepMax sums = 0 ∨ keepMax sums ∈ sums) := by
  induction sums using List.reverseRecOn with
  | nil => exact ⟨nofun, .inl rfl⟩
  | append_singleton sums sum ih =>
    have hsum := hnonneg sum (by simp)
    obtain ⟨hle, hmem⟩ := ih fun x hx => hnonneg x (List.mem_append_left _ hx)
    rw [keepMax_append]
    split
    . next hreplaced =>
      refine ⟨?_, .inr (by simp)⟩
      intro x hx
      rcases List.mem_append.mp hx with hx | hx
      . have := hle x hx
        omega
      . rw [List.mem_singleton.mp hx]
    . next hkept =>
      refine ⟨?_, hmem.imp_right (List.mem_append_left _)⟩
      intro x hx
      rcases List.mem_append.mp hx with hx | hx
      . exact hle x hx
      . rw [List.mem_singleton.mp hx]
        omega

theorem keepMin_nonneg (hnonneg : ∀ sum ∈ sums, 0 ≤ sum) : 0 ≤ keepMin sums := by
  induction sums using List.reverseRecOn with
  | nil => exact Int.le_refl 0
  | append_singleton sums sum ih =>
    have hsum := hnonneg sum (by simp)
    have hih := ih fun x hx => hnonneg x (List.mem_append_left _ hx)
    rw [keepMin_append]
    split
    . exact hsum
    . exact hih

/--
After a reading of 0 the next one counts as the first.
-/
theorem keepMin_eq_zero_iff (hnonneg : ∀ sum ∈ sums, 0 ≤ sum)
    : keepMin sums = 0 ↔ ∀ sum, sums.getLast? = some sum → sum = 0 := by
  cases sums using List.reverseRecOn with
  | nil => exact iff_of_true rfl nofun
  | append_singleton sums sum =>
    have hsum := hnonneg sum (by simp)
    have hmin := keepMin_nonneg fun x hx => hnonneg x (List.mem_append_left _ hx)
    rw [keepMin_append, List.getLast?_concat]
    simp only [Option.some.injEq, forall_eq']
    split <;> omega

theorem keepMin_spec (hpos : ∀ sum ∈ sums, 0 < sum)
    : (∀ sum ∈ sums, keepMin sums ≤ sum) ∧ (sums = [] ∨ keepMin sums ∈ sums) := by
  induction sums using List.reverseRecOn with
  | nil => exact ⟨nofun, .inl rfl⟩
  | append_singleton sums sum ih =>
    have hinit : ∀ x ∈ sums, 0 < x := fun x hx => hpos x (List.mem_append_left _ hx)
    obtain ⟨hle, hmem⟩ := ih hinit
    rw [keepMin_append]
    split
    . next hreplaced =>
      refine ⟨?_, .inr (by simp)⟩
      intro x hx
      rcases List.mem_append.mp hx with hx | hx
      . have := hle x hx
        have := hinit x hx
        rcases hmem with rfl | hmem
        . cases hx
        . have := hinit _ hmem
          omega
      . rw [List.mem_singleton.mp hx]
    . next hkept =>
      refine ⟨?_, .inr ?_⟩
      . intro x hx
        rcases List.mem_append.mp hx with hx | hx
        . exact hle x hx
        . rw [List.mem_singleton.mp hx]
          omega
      . rcases hmem with rfl | hmem
        . exact absurd (Or.inl rfl) hkept
        . exact List.mem_append_left _ hmem

end

section

variable (now period : Int) (num : Nat)

/--
The reading that a period has in the history. The period with the index 0 ends at `now`.
-/
def readingAt (rows : List PlugHist) (i : Nat) : Int :=
  let past := (rows.filter fun hist => i * period ≤ ageOf now hist).map PlugHist.sum
  let inRange := (rows.filter fun hist =>
    0 ≤ ageOf now hist ∧ ageOf now hist < num * period).map PlugHist.sum
  past.max?.getD (inRange.min?.getD 0)

structure FollowsReadings (rows : List PlugHist) (history : Nat → Int) : Prop where
  reading : ∀ i < num, history i = readingAt now period num rows i
  rising : ∀ i, i + 1 < num → 0 ≤ history i - history (i + 1)
  total : ∑ i ∈ Finset.range (num - 1), (history i - history (i + 1)) = history 0 - history (num - 1)

/--
What the code takes for a sample in the range of the history. The division rounds toward 0.
-/
def Sampled (hist : PlugHist) : Prop :=
  -period < ageOf now hist ∧ ageOf now hist < num * period

instance : DecidablePred (Sampled now period num) := fun _ => inferInstanceAs (Decidable (_ ∧ _))

/--
No sample of the period after `now` is higher than those before. The history starts with a reading
above 0, or there are no readings of 0, or one of them is in the last row that is sampled.
-/
structure Recorded (rows : List PlugHist) : Prop where
  future : ∀ hist ∈ rows, -period < ageOf now hist → ageOf now hist < 0 →
    hist.sum = 0 ∨ ∃ past ∈ rows, 0 ≤ ageOf now past ∧ hist.sum ≤ past.sum
  start : (∃ hist ∈ rows, (num - 1 : Nat) * period ≤ ageOf now hist ∧ 0 < hist.sum)
    ∨ (∀ hist ∈ rows, 0 ≤ ageOf now hist → hist.sum ≠ 0)
    ∨ ∀ hist, (rows.filter (Sampled now period num)).getLast? = some hist → hist.sum = 0

end

/--
The readings are those of a meter.
-/
structure NeverDecrease (rows : List PlugHist) : Prop where
  nonneg : ∀ hist ∈ rows, 0 ≤ hist.sum
  rising : ∀ hist ∈ rows, ∀ later ∈ rows,
    minuteOf hist.lastupdate < minuteOf later.lastupdate → hist.sum ≤ later.sum

theorem tdiv_neg_iff {a b : Int} (hb : 0 < b) : Int.tdiv a b < 0 ↔ a ≤ -b := by
  cases Int.le_total 0 a with
  | inl hpos =>
    have := Int.tdiv_nonneg hpos hb.le
    omega
  | inr hneg =>
    rw [← Int.neg_neg a, Int.neg_tdiv, Int.tdiv_eq_ediv_of_nonneg (by omega)]
    have hdiv : 1 ≤ -a / b ↔ 1 * b ≤ -a := Int.le_ediv_iff_mul_le hb
    omega

theorem le_tdiv_iff {a b i : Int} (hb : 0 < b) (hi : 0 < i) : i ≤ Int.tdiv a b ↔ i * b ≤ a := by
  have hib : 0 < i * b := Int.mul_pos hi hb
  cases Int.le_total 0 a with
  | inl hpos =>
    rw [Int.tdiv_eq_ediv_of_nonneg hpos]
    exact Int.le_ediv_iff_mul_le hb
  | inr hneg =>
    have hdiv : Int.tdiv a b ≤ 0 := by
      rw [← Int.neg_neg a, Int.neg_tdiv, Int.tdiv_eq_ediv_of_nonneg (by omega)]
      have := Int.ediv_nonneg (Int.neg_nonneg.mpr hneg) hb.le
      omega
    have hne : a = 0 ∨ a < i * b := by omega
    omega

section

variable {now period : Int} {num : Nat}

/--
The index of the period.
-/
def sampleOf (now period : Int) (hist : PlugHist) : Int := Int.tdiv (ageOf now hist) period

theorem sampled_iff (hperiod : 0 < period) (hnum : 0 < num) (hist : PlugHist)
    : Sampled now period num hist
        ↔ 0 ≤ sampleOf now period hist ∧ sampleOf now period hist < num := by
  have hneg := tdiv_neg_iff (a := ageOf now hist) hperiod
  have hle := le_tdiv_iff (a := ageOf now hist) hperiod (Int.natCast_pos.mpr hnum)
  unfold Sampled sampleOf
  omega

theorem older_iff (hperiod : 0 < period) (hnum : 0 < num) (hist : PlugHist)
    : (num : Int) ≤ sampleOf now period hist ↔ num * period ≤ ageOf now hist :=
  le_tdiv_iff hperiod (Int.natCast_pos.mpr hnum)

/--
What the loop has found in the rows that it has seen.
-/
structure Loop (now period : Int) (num : Nat) (rows : List PlugHist) (s : History) : Prop where
  le : ∀ hist ∈ rows, ∀ i < num, sampleOf now period hist = i → hist.sum ≤ s.histbuffer i
  highest : ∀ i, 0 ≤ s.histbuffer i ∧ (s.histbuffer i = 0
    ∨ ∃ hist ∈ rows, sampleOf now period hist = i ∧ hist.sum = s.histbuffer i)
  histmin : s.histmin = keepMin ((rows.filter (Sampled now period num)).map PlugHist.sum)
  histmax : s.histmax
    = keepMax ((rows.filter fun hist => num * period ≤ ageOf now hist).map PlugHist.sum)

theorem filter_append_singleton {P : PlugHist → Prop} [DecidablePred P] (rows : List PlugHist)
    (hist : PlugHist)
    : ((rows ++ [hist]).filter (fun hist => P hist)).map PlugHist.sum
        = (rows.filter (fun hist => P hist)).map PlugHist.sum
          ++ if P hist then [hist.sum] else [] := by
  rw [List.filter_append, List.map_append, List.filter_singleton]
  by_cases h : P hist
  . simp [h]
  . simp [h]

section

variable {hist : PlugHist} {s : History}

theorem plugHistCb_future (h : sampleOf now period hist < 0)
    : plugHistCb (Int.tdiv now 60) period num hist s = (s, true) :=
  if_pos h

theorem plugHistCb_sampled {sample : Nat} (h : sampleOf now period hist = sample)
    (hlt : sample < num)
    : plugHistCb (Int.tdiv now 60) period num hist s
        = ({ s with
              histbuffer :=
                if hist.sum > s.histbuffer sample then Function.update s.histbuffer sample hist.sum
                else s.histbuffer
              histmin := if s.histmin = 0 ∨ hist.sum < s.histmin then hist.sum else s.histmin },
            true) := by
  have hsample : Int.tdiv (Int.tdiv now 60 - Int.tdiv hist.lastupdate 60) period = sample := h
  unfold plugHistCb
  simp only [hsample]
  rw [if_neg (by omega), if_pos (by omega), Int.toNat_natCast]

theorem plugHistCb_older (h : (num : Int) ≤ sampleOf now period hist)
    : plugHistCb (Int.tdiv now 60) period num hist s
        = ({ s with
              histmax := if s.histmax = 0 ∨ hist.sum > s.histmax then hist.sum else s.histmax },
            true) := by
  have hsample : (num : Int) ≤ Int.tdiv (Int.tdiv now 60 - Int.tdiv hist.lastupdate 60) period := h
  unfold plugHistCb
  simp only
  rw [if_neg (by omega), if_neg (by omega)]

theorem Loop.le_append {rows : List PlugHist} (h : Loop now period num rows s) {s' : History}
    (hle : ∀ i, s.histbuffer i ≤ s'.histbuffer i)
    (hnew : ∀ i < num, sampleOf now period hist = i → hist.sum ≤ s'.histbuffer i)
    : ∀ row ∈ rows ++ [hist], ∀ i < num, sampleOf now period row = i →
        row.sum ≤ s'.histbuffer i := by
  intro row hrow i hi hsample
  rcases List.mem_append.mp hrow with hrow | hrow
  . exact (h.le row hrow i hi hsample).trans (hle i)
  . rw [List.mem_singleton.mp hrow] at hsample ⊢
    exact hnew i hi hsample

theorem Loop.highest_append {rows : List PlugHist} (h : Loop now period num rows s) (i : Nat)
    : 0 ≤ s.histbuffer i ∧ (s.histbuffer i = 0
      ∨ ∃ row ∈ rows ++ [hist], sampleOf now period row = i ∧ row.sum = s.histbuffer i) := by
  refine ⟨(h.highest i).1, (h.highest i).2.imp_right ?_⟩
  rintro ⟨row, hrow, hsum⟩
  exact ⟨row, List.mem_append_left _ hrow, hsum⟩

theorem Loop.next_future {rows : List PlugHist} (h : Loop now period num rows s)
    (hfuture : sampleOf now period hist < 0) (hnot : ¬ Sampled now period num hist)
    (hage : ¬ num * period ≤ ageOf now hist)
    : Loop now period num (rows ++ [hist])
        (plugHistCb (Int.tdiv now 60) period num hist s).1 := by
  rw [plugHistCb_future hfuture]
  constructor
  case le => exact h.le_append (fun i => Int.le_refl _) fun i _ hsample => by omega
  case highest => exact h.highest_append
  case histmin =>
    rw [filter_append_singleton, if_neg hnot, List.append_nil]
    exact h.histmin
  case histmax =>
    rw [filter_append_singleton, if_neg hage, List.append_nil]
    exact h.histmax

theorem Loop.next_sampled {rows : List PlugHist} (h : Loop now period num rows s) {sample : Nat}
    (hsample : sampleOf now period hist = sample) (hlt : sample < num)
    (hin : Sampled now period num hist) (hage : ¬ num * period ≤ ageOf now hist)
    : Loop now period num (rows ++ [hist])
        (plugHistCb (Int.tdiv now 60) period num hist s).1 := by
  rw [plugHistCb_sampled hsample hlt]
  constructor
  case le =>
    apply h.le_append
    . intro i
      dsimp only
      split
      . next hgt =>
        by_cases hi : i = sample
        . rw [hi, Function.update_self]
          omega
        . rw [Function.update_of_ne hi]
      . exact Int.le_refl _
    . intro i _ hi
      have hi : i = sample := by omega
      rw [hi]
      dsimp only
      split
      . rw [Function.update_self]
      . omega
  case highest =>
    intro i
    dsimp only
    split
    . next hgt =>
      by_cases hi : i = sample
      . rw [hi, Function.update_self]
        have hpos := (h.highest sample).1
        exact ⟨by omega, .inr ⟨hist, by simp, hsample, rfl⟩⟩
      . rw [Function.update_of_ne hi]
        exact h.highest_append i
    . exact h.highest_append i
  case histmin =>
    rw [filter_append_singleton, if_pos hin, keepMin_append, ← h.histmin]
  case histmax =>
    rw [filter_append_singleton, if_neg hage, List.append_nil]
    exact h.histmax

theorem Loop.next_older {rows : List PlugHist} (h : Loop now period num rows s)
    (holder : (num : Int) ≤ sampleOf now period hist) (hnot : ¬ Sampled now period num hist)
    (hage : num * period ≤ ageOf now hist)
    : Loop now period num (rows ++ [hist])
        (plugHistCb (Int.tdiv now 60) period num hist s).1 := by
  rw [plugHistCb_older holder]
  constructor
  case le => exact h.le_append (fun i => Int.le_refl _) fun i hi hi' => by omega
  case highest => exact h.highest_append
  case histmin =>
    rw [filter_append_singleton, if_neg hnot, List.append_nil]
    exact h.histmin
  case histmax =>
    rw [filter_append_singleton, if_pos hage, keepMax_append, ← h.histmax]

theorem Loop.next (hperiod : 0 < period) (hnum : 0 < num) {rows : List PlugHist}
    (h : Loop now period num rows s) (hist : PlugHist)
    : Loop now period num (rows ++ [hist])
        (plugHistCb (Int.tdiv now 60) period num hist s).1 := by
  have hsampled : Sampled now period num hist ↔ _ := sampled_iff hperiod hnum hist
  have holder : (num : Int) ≤ sampleOf now period hist ↔ _ := older_iff hperiod hnum hist
  by_cases hfuture : sampleOf now period hist < 0
  . exact h.next_future hfuture (fun hin => by have := hsampled.mp hin; omega) (by omega)
  obtain ⟨sample, hsample⟩ := Int.eq_ofNat_of_zero_le (Int.not_lt.mp hfuture)
  by_cases hlt : sample < num
  . exact h.next_sampled hsample hlt (hsampled.mpr (by omega)) (by omega)
  . exact h.next_older (by omega) (fun hin => by have := hsampled.mp hin; omega)
      (holder.mp (by omega))

end

theorem loop_spec (now : Int) (hperiod : 0 < period) (hnum : 0 < num) (db : Db) (mac : String)
    : Loop now period num (plugRows mac db.plughist)
        (newDbLoopPlugHist db mac (plugHistCb (Int.tdiv now 60) period num) {}).1 := by
  have hcallback (row : PlugHist) (s : History)
      : (plugHistCb (Int.tdiv now 60) period num row s).2 = true := by
    unfold plugHistCb
    simp only
    split
    . rfl
    . split <;> rfl
  unfold newDbLoopPlugHist
  simp only [loopRows_eq_foldl hcallback]
  change Loop now period num (plugRows mac db.plughist) ((plugRows mac db.plughist).foldl _ {})
  generalize plugRows mac db.plughist = rows
  induction rows using List.reverseRecOn with
  | nil => exact ⟨nofun, fun _ => ⟨Int.le_refl 0, .inl rfl⟩, rfl, rfl⟩
  | append_singleton rows hist ih =>
    rw [List.foldl_append]
    exact ih.next hperiod hnum hist

section

variable {rows : List PlugHist} {i : Nat}

theorem readingAt_past {hist : PlugHist} (hmem : hist ∈ rows) (hage : i * period ≤ ageOf now hist)
    (hle : ∀ row ∈ rows, i * period ≤ ageOf now row → row.sum ≤ hist.sum)
    : readingAt now period num rows i = hist.sum := by
  have hmax : ((rows.filter fun hist => i * period ≤ ageOf now hist).map PlugHist.sum).max?
      = some hist.sum := by
    apply List.max?_eq_some_iff.mpr
    simp only [List.mem_map, List.mem_filter, decide_eq_true_eq]
    refine ⟨⟨hist, ⟨hmem, hage⟩, rfl⟩, ?_⟩
    rintro _ ⟨row, ⟨hrow, hrowage⟩, rfl⟩
    exact hle row hrow hrowage
  rw [readingAt, hmax]
  rfl

theorem readingAt_no_past (hpast : ∀ row ∈ rows, ¬ i * period ≤ ageOf now row)
    : readingAt now period num rows i
        = ((rows.filter fun hist =>
            0 ≤ ageOf now hist ∧ ageOf now hist < num * period).map PlugHist.sum).min?.getD 0 := by
  have hnil : rows.filter (fun hist => i * period ≤ ageOf now hist) = [] := by
    apply List.filter_eq_nil_iff.mpr
    intro row hrow
    simpa using hpast row hrow
  rw [readingAt, hnil]
  rfl

theorem readingAt_range (hpast : ∀ row ∈ rows, ¬ i * period ≤ ageOf now row) {hist : PlugHist}
    (hmem : hist ∈ rows) (hage : 0 ≤ ageOf now hist ∧ ageOf now hist < num * period)
    (hge : ∀ row ∈ rows, 0 ≤ ageOf now row ∧ ageOf now row < num * period → hist.sum ≤ row.sum)
    : readingAt now period num rows i = hist.sum := by
  have hmin : ((rows.filter fun hist =>
      0 ≤ ageOf now hist ∧ ageOf now hist < num * period).map PlugHist.sum).min?
      = some hist.sum := by
    apply List.min?_eq_some_iff.mpr
    simp only [List.mem_map, List.mem_filter, decide_eq_true_eq]
    refine ⟨⟨hist, ⟨hmem, hage⟩, rfl⟩, ?_⟩
    rintro _ ⟨row, ⟨hrow, hrowage⟩, rfl⟩
    exact hge row hrow hrowage
  rw [readingAt_no_past hpast, hmin]
  rfl

theorem readingAt_none (hpast : ∀ row ∈ rows, ¬ i * period ≤ ageOf now row)
    (hrange : ∀ row ∈ rows, ¬ (0 ≤ ageOf now row ∧ ageOf now row < num * period))
    : readingAt now period num rows i = 0 := by
  have hnil : rows.filter (fun hist => 0 ≤ ageOf now hist ∧ ageOf now hist < num * period) = [] := by
    apply List.filter_eq_nil_iff.mpr
    intro row hrow
    simpa using hrange row hrow
  rw [readingAt_no_past hpast, hnil]
  rfl

end

theorem fillGaps_spec (histbuffer : Nat → Int) (n : Nat)
    : (∀ i, n ≤ i → fillGaps histbuffer n i = histbuffer i)
      ∧ ∀ i < n, fillGaps histbuffer n i
        = if histbuffer i = 0 then fillGaps histbuffer n (i + 1) else histbuffer i := by
  induction n generalizing histbuffer with
  | zero => exact ⟨fun _ _ => rfl, fun _ h => absurd h (Nat.not_lt_zero _)⟩
  | succ n ih =>
    rw [fillGaps]
    by_cases hzero : histbuffer n = 0
    . rw [if_pos hzero]
      obtain ⟨hkept, hfilled⟩ := ih (Function.update histbuffer n (histbuffer (n + 1)))
      constructor
      . intro i hi
        rw [hkept i (Nat.le_of_succ_le hi), Function.update_of_ne (by omega)]
      . intro i hi
        by_cases hin : i = n
        . rw [hin, if_pos hzero, hkept n (Nat.le_refl n), hkept (n + 1) (Nat.le_succ n),
            Function.update_self, Function.update_of_ne (by omega)]
        . rw [hfilled i (by omega), Function.update_of_ne hin]
    . rw [if_neg hzero]
      obtain ⟨hkept, hfilled⟩ := ih histbuffer
      constructor
      . exact fun i hi => hkept i (Nat.le_of_succ_le hi)
      . intro i hi
        by_cases hin : i = n
        . rw [hin, if_neg hzero, hkept n (Nat.le_refl n)]
        . exact hfilled i (by omega)

/--
What the history is made of.
-/
structure HistoryFilled (s : History) (num : Nat) (history : Nat → Int) : Prop where
  last : history (num - 1)
    = if s.histbuffer (num - 1) ≠ 0 then s.histbuffer (num - 1)
      else if s.histmax ≠ 0 then s.histmax else s.histmin
  gaps : ∀ i, i + 1 < num → history i = if s.histbuffer i = 0 then history (i + 1) else s.histbuffer i

theorem plugGetHistory_filled (db : Db) (mac : String)
    : HistoryFilled (newDbLoopPlugHist db mac (plugHistCb (Int.tdiv now 60) period num) {}).1 num
        (plugGetHistory db mac now period num) := by
  unfold plugGetHistory
  simp only
  generalize (newDbLoopPlugHist db mac (plugHistCb (Int.tdiv now 60) period num) {}).1 = s
  constructor
  . rw [(fillGaps_spec _ (num - 1)).1 _ (Nat.le_refl _)]
    by_cases hzero : s.histbuffer (num - 1) = 0
    . rw [if_pos hzero, Function.update_self, if_neg (not_not_intro hzero)]
    . rw [if_neg hzero, if_pos hzero]
  . intro i hi
    rw [(fillGaps_spec _ (num - 1)).2 i (by omega)]
    by_cases hzero : s.histbuffer (num - 1) = 0
    . rw [if_pos hzero, Function.update_of_ne (by omega)]
    . rw [if_neg hzero]

theorem sampleOf_eq_iff (hperiod : 0 < period) (hist : PlugHist) (i : Nat)
    : sampleOf now period hist = i
        ↔ (i * period ≤ ageOf now hist ∨ i = 0 ∧ -period < ageOf now hist)
          ∧ ageOf now hist < i * period + period := by
  have hnext := le_tdiv_iff (a := ageOf now hist) (i := i + 1) hperiod (by omega)
  have hmul : ((i : Int) + 1) * period = i * period + period := by
    rw [Int.add_mul, Int.one_mul]
  rw [hmul] at hnext
  unfold sampleOf
  cases Nat.eq_zero_or_pos i with
  | inl hzero =>
    have hneg := tdiv_neg_iff (a := ageOf now hist) hperiod
    have hmulzero : (i : Int) * period = 0 := by
      rw [hzero]
      exact Int.zero_mul period
    rw [hmulzero] at hnext ⊢
    omega
  | inr hpos =>
    have hle := le_tdiv_iff (a := ageOf now hist) hperiod (Int.natCast_pos.mpr hpos)
    omega

section

variable {rows : List PlugHist} {s : History} {i : Nat}

theorem NeverDecrease.le_of_age (h : NeverDecrease rows) (now : Int) {older newer : PlugHist}
    (hold : older ∈ rows) (hnew : newer ∈ rows) (hage : ageOf now newer < ageOf now older)
    : older.sum ≤ newer.sum := by
  apply h.rising older hold newer hnew
  unfold ageOf at hage
  omega

/--
A period whose highest reading is remembered. All that is older is not higher.
-/
theorem readingAt_of_ne_zero (hperiod : 0 < period) (hloop : Loop now period num rows s)
    (hrows : NeverDecrease rows)
    (hfuture : ∀ hist ∈ rows, -period < ageOf now hist → ageOf now hist < 0 →
      hist.sum = 0 ∨ ∃ past ∈ rows, 0 ≤ ageOf now past ∧ hist.sum ≤ past.sum)
    (hi : i < num) (hne : s.histbuffer i ≠ 0)
    : readingAt now period num rows i = s.histbuffer i := by
  obtain ⟨hist, hmem, hsample, hsum⟩ := (hloop.highest i).2.resolve_left hne
  obtain ⟨hstart, hend⟩ := (sampleOf_eq_iff hperiod hist i).mp hsample
  have hle : ∀ row ∈ rows, i * period ≤ ageOf now row → row.sum ≤ s.histbuffer i := by
    intro row hrow hage
    by_cases hsame : ageOf now row < i * period + period
    . exact hloop.le row hrow i hi ((sampleOf_eq_iff hperiod row i).mpr ⟨.inl hage, hsame⟩)
    . rw [← hsum]
      exact hrows.le_of_age now hrow hmem (by omega)
  rcases hstart with hage | ⟨hzero, hage⟩
  . rw [← hsum] at hle ⊢
    exact readingAt_past hmem hage hle
  by_cases hneg : ageOf now hist < 0
  . obtain ⟨past, hpast, hpastage, hpastsum⟩ :=
      (hfuture hist hmem hage hneg).resolve_left (by omega)
    have hback := hrows.le_of_age now hpast hmem (by omega)
    have heq : past.sum = s.histbuffer i := by omega
    rw [← heq] at hle ⊢
    subst hzero
    exact readingAt_past hpast (by simpa using hpastage) hle
  . rw [← hsum] at hle ⊢
    subst hzero
    exact readingAt_past hmem (by simpa using hneg) hle

theorem readingAt_zero (hrows : NeverDecrease rows) (hzero : ∀ row ∈ rows,
    i * period ≤ ageOf now row → row.sum = 0) {hist : PlugHist} (hmem : hist ∈ rows)
    (hsum : hist.sum = 0) (hage : 0 ≤ ageOf now hist) (hi : i < num) (hperiod : 0 < period)
    : readingAt now period num rows i = 0 := by
  by_cases hpast : ∃ row ∈ rows, i * period ≤ ageOf now row
  . obtain ⟨row, hrow, hrowage⟩ := hpast
    rw [← hzero row hrow hrowage]
    apply readingAt_past hrow hrowage
    intro other hother hotherage
    rw [hzero other hother hotherage, hzero row hrow hrowage]
  . have hnone : ∀ row ∈ rows, ¬ i * period ≤ ageOf now row := fun row hrow hrowage =>
      hpast ⟨row, hrow, hrowage⟩
    have hlt := hnone hist hmem
    have hmul : (i : Int) * period ≤ num * period :=
      Int.mul_le_mul_of_nonneg_right (by omega) hperiod.le
    rw [← hsum]
    apply readingAt_range hnone hmem ⟨hage, by omega⟩
    intro row hrow _
    rw [hsum]
    exact hrows.nonneg row hrow

/--
A period without a reading, or with readings of 0, is like the one before it.
-/
theorem readingAt_succ (hperiod : 0 < period) (hloop : Loop now period num rows s)
    (hrows : NeverDecrease rows) (hi : i + 1 < num) (hzero : s.histbuffer i = 0)
    : readingAt now period num rows i = readingAt now period num rows (i + 1) := by
  have hmul : ((i : Int) + 1) * period = i * period + period := by
    rw [Int.add_mul, Int.one_mul]
  have hpos : 0 ≤ (i : Int) * period := Int.mul_nonneg (by omega) hperiod.le
  have hbucket : ∀ row ∈ rows, i * period ≤ ageOf now row →
      ageOf now row < i * period + period → row.sum = 0 := by
    intro row hrow hage hlt
    have hle := hloop.le row hrow i (by omega)
      ((sampleOf_eq_iff hperiod row i).mpr ⟨.inl hage, hlt⟩)
    have := hrows.nonneg row hrow
    omega
  by_cases hany : ∃ row ∈ rows, i * period ≤ ageOf now row ∧ ageOf now row < i * period + period
  . obtain ⟨hist, hmem, hage, hlt⟩ := hany
    have hsum := hbucket hist hmem hage hlt
    have hall : ∀ row ∈ rows, i * period ≤ ageOf now row → row.sum = 0 := by
      intro row hrow hrowage
      by_cases hsame : ageOf now row < i * period + period
      . exact hbucket row hrow hrowage hsame
      . have hle := hrows.le_of_age now hrow hmem (by omega)
        have := hrows.nonneg row hrow
        omega
    have hall' : ∀ row ∈ rows, (i + 1 : Nat) * period ≤ ageOf now row → row.sum = 0 := by
      intro row hrow hrowage
      apply hall row hrow
      push_cast at hrowage
      omega
    rw [readingAt_zero hrows hall hmem hsum (by omega) (by omega) hperiod,
      readingAt_zero hrows hall' hmem hsum (by omega) hi hperiod]
  . have hsame : rows.filter (fun hist => i * period ≤ ageOf now hist)
        = rows.filter (fun hist => (i + 1 : Nat) * period ≤ ageOf now hist) := by
      apply List.filter_congr
      intro row hrow
      have hnot : ¬ (i * period ≤ ageOf now row ∧ ageOf now row < i * period + period) :=
        fun h => hany ⟨row, hrow, h⟩
      push_cast
      rw [decide_eq_decide, hmul]
      omega
    rw [readingAt, hsame]
    rfl

theorem exists_readingAt (period : Int) (num : Nat) {hist : PlugHist} (hmem : hist ∈ rows)
    (hage : i * period ≤ ageOf now hist)
    : ∃ past ∈ rows, i * period ≤ ageOf now past
        ∧ past.sum = readingAt now period num rows i := by
  have hne : (rows.filter fun hist => i * period ≤ ageOf now hist).map PlugHist.sum ≠ [] := by
    apply List.ne_nil_of_mem (a := hist.sum)
    exact List.mem_map.mpr ⟨hist, List.mem_filter.mpr ⟨hmem, decide_eq_true hage⟩, rfl⟩
  have hmax := List.max?_eq_some_max hne
  obtain ⟨past, hpast, hsum⟩ := List.mem_map.mp (List.max?_eq_some_iff.mp hmax).1
  obtain ⟨hpastmem, hpastage⟩ := List.mem_filter.mp hpast
  refine ⟨past, hpastmem, of_decide_eq_true hpastage, ?_⟩
  rw [readingAt, hmax]
  exact hsum

/--
Before the first period with a reading above 0, the smallest of the readings is right.
-/
theorem readingAt_first (hperiod : 0 < period) (hloop : Loop now period num rows s)
    (hrows : NeverDecrease rows)
    (hfuture : ∀ hist ∈ rows, -period < ageOf now hist → ageOf now hist < 0 →
      hist.sum = 0 ∨ ∃ past ∈ rows, 0 ≤ ageOf now past ∧ hist.sum ≤ past.sum)
    (hpast : ∀ row ∈ rows, ¬ i * period ≤ ageOf now row) (hi : i < num)
    (hne : ∀ row ∈ rows, 0 ≤ ageOf now row → row.sum ≠ 0)
    : readingAt now period num rows i = s.histmin := by
  have hmul : (i : Int) * period ≤ num * period :=
    Int.mul_le_mul_of_nonneg_right (by omega) hperiod.le
  rw [hloop.histmin]
  by_cases hrange : ∃ row ∈ rows, 0 ≤ ageOf now row
  . obtain ⟨first, hfirst, hfirstage⟩ := hrange
    have hfirstlt := hpast first hfirst
    have hpos : ∀ sum ∈ (rows.filter (Sampled now period num)).map PlugHist.sum, 0 < sum := by
      intro sum hsum
      obtain ⟨row, hrow, rfl⟩ := List.mem_map.mp hsum
      have hmem := (List.mem_filter.mp hrow).1
      have hnonneg := hrows.nonneg row hmem
      by_cases hage : 0 ≤ ageOf now row
      . have := hne row hmem hage
        omega
      . have hle := hrows.le_of_age now hfirst hmem (by omega)
        have := hne first hfirst hfirstage
        have := hrows.nonneg first hfirst
        omega
    have hin : first.sum ∈ (rows.filter (Sampled now period num)).map PlugHist.sum := by
      have hsampled : Sampled now period num first := ⟨by omega, by omega⟩
      exact List.mem_map.mpr ⟨first, List.mem_filter.mpr ⟨hfirst, decide_eq_true hsampled⟩, rfl⟩
    obtain ⟨hle, hmem⟩ := keepMin_spec hpos
    obtain ⟨row, hrow, hsum⟩ := List.mem_map.mp (hmem.resolve_left (List.ne_nil_of_mem hin))
    obtain ⟨hrowmem, hsampled⟩ := List.mem_filter.mp hrow
    have hsampled : Sampled now period num row := of_decide_eq_true hsampled
    have hleast : ∀ other ∈ rows, 0 ≤ ageOf now other ∧ ageOf now other < num * period →
        row.sum ≤ other.sum := by
      intro other hother hage
      rw [hsum]
      have hsampled : Sampled now period num other := ⟨by omega, hage.2⟩
      exact hle _ (List.mem_map.mpr
        ⟨other, List.mem_filter.mpr ⟨hother, decide_eq_true hsampled⟩, rfl⟩)
    by_cases hage : 0 ≤ ageOf now row
    . rw [← hsum]
      exact readingAt_range hpast hrowmem ⟨hage, hsampled.2⟩ hleast
    . have hback := hrows.le_of_age now hfirst hrowmem (by omega)
      have hforth := hleast first hfirst ⟨hfirstage, by omega⟩
      have heq : first.sum = row.sum := Int.le_antisymm hback hforth
      rw [← hsum, ← heq]
      rw [← heq] at hleast
      exact readingAt_range hpast hfirst ⟨hfirstage, by omega⟩ hleast
  . have hnone : ∀ row ∈ rows, ¬ 0 ≤ ageOf now row := fun row hrow hage => hrange ⟨row, hrow, hage⟩
    have hnonneg : ∀ sum ∈ (rows.filter (Sampled now period num)).map PlugHist.sum, 0 ≤ sum := by
      intro sum hsum
      obtain ⟨row, hrow, rfl⟩ := List.mem_map.mp hsum
      exact hrows.nonneg row (List.mem_filter.mp hrow).1
    rw [readingAt_none hpast fun row hrow hage => hnone row hrow hage.1, eq_comm,
      keepMin_eq_zero_iff hnonneg]
    intro sum hsum
    obtain ⟨row, hrow, rfl⟩ := List.mem_map.mp (List.mem_of_getLast? hsum)
    obtain ⟨hmem, hsampled⟩ := List.mem_filter.mp hrow
    have hsampled : Sampled now period num row := of_decide_eq_true hsampled
    rcases hfuture row hmem hsampled.1 (Int.not_le.mp (hnone row hmem)) with hzero | ⟨past, hpast, hage, -⟩
    . exact hzero
    . exact absurd hage (hnone past hpast)

theorem Loop.histmin_eq_zero_iff (hloop : Loop now period num rows s) (hrows : NeverDecrease rows)
    : s.histmin = 0
        ↔ ∀ hist, (rows.filter (Sampled now period num)).getLast? = some hist → hist.sum = 0 := by
  have hnonneg : ∀ sum ∈ (rows.filter (Sampled now period num)).map PlugHist.sum, 0 ≤ sum := by
    intro sum hsum
    obtain ⟨row, hrow, rfl⟩ := List.mem_map.mp hsum
    exact hrows.nonneg row (List.mem_filter.mp hrow).1
  rw [hloop.histmin, keepMin_eq_zero_iff hnonneg, List.getLast?_map]
  constructor
  . intro h hist hlast
    exact h hist.sum (by rw [hlast, Option.map_some])
  . intro h sum hsum
    obtain ⟨hist, hlast, rfl⟩ := Option.map_eq_some_iff.mp hsum
    exact h hist hlast

theorem Loop.histmax_spec (hloop : Loop now period num rows s) (hrows : NeverDecrease rows)
    : (∀ hist ∈ rows, num * period ≤ ageOf now hist → hist.sum ≤ s.histmax)
      ∧ (s.histmax = 0
        ∨ ∃ hist ∈ rows, num * period ≤ ageOf now hist ∧ hist.sum = s.histmax) := by
  have hnonneg : ∀ sum ∈ (rows.filter fun hist => num * period ≤ ageOf now hist).map PlugHist.sum,
      0 ≤ sum := by
    intro sum hsum
    obtain ⟨row, hrow, rfl⟩ := List.mem_map.mp hsum
    exact hrows.nonneg row (List.mem_filter.mp hrow).1
  obtain ⟨hle, hmem⟩ := keepMax_spec hnonneg
  rw [hloop.histmax]
  constructor
  . intro hist hhist hage
    exact hle _ (List.mem_map.mpr ⟨hist, List.mem_filter.mpr ⟨hhist, decide_eq_true hage⟩, rfl⟩)
  . apply hmem.imp_right
    intro hmem
    obtain ⟨hist, hhist, hsum⟩ := List.mem_map.mp hmem
    obtain ⟨hhist, hage⟩ := List.mem_filter.mp hhist
    exact ⟨hist, hhist, of_decide_eq_true hage, hsum⟩

/--
If the oldest period has no reading above 0
-/
theorem readingAt_last (hperiod : 0 < period) (hnum : 0 < num) (hloop : Loop now period num rows s)
    (hrows : NeverDecrease rows) (h : Recorded now period num rows)
    (hzero : s.histbuffer (num - 1) = 0)
    : readingAt now period num rows (num - 1) = if s.histmax ≠ 0 then s.histmax else s.histmin := by
  have hmul : ((num - 1 : Nat) : Int) * period + period = num * period := by
    have hone : ((num - 1 : Nat) : Int) + 1 = num := by omega
    rw [← hone, Int.add_mul, Int.one_mul]
  obtain ⟨hmaxle, hmaxmem⟩ := hloop.histmax_spec hrows
  have hbucket : ∀ row ∈ rows, (num - 1 : Nat) * period ≤ ageOf now row →
      ageOf now row < num * period → row.sum = 0 := by
    intro row hrow hage hlt
    have hle := hloop.le row hrow (num - 1) (by omega)
      ((sampleOf_eq_iff hperiod row (num - 1)).mpr ⟨.inl hage, by omega⟩)
    have := hrows.nonneg row hrow
    omega
  by_cases hmax : s.histmax = 0
  . rw [if_neg (not_not_intro hmax)]
    have hpast : ∀ row ∈ rows, (num - 1 : Nat) * period ≤ ageOf now row → row.sum = 0 := by
      intro row hrow hage
      by_cases hlt : ageOf now row < num * period
      . exact hbucket row hrow hage hlt
      . have hle := hmaxle row hrow (by omega)
        have := hrows.nonneg row hrow
        omega
    by_cases hany : ∃ row ∈ rows, 0 ≤ ageOf now row ∧ row.sum = 0
    . obtain ⟨row, hrow, hage, hsum⟩ := hany
      have hlast := (h.start.resolve_left fun ⟨old, hold, holdage, hpos⟩ => by
        have := hpast old hold holdage
        omega).resolve_left fun hne => hne row hrow hage hsum
      rw [(hloop.histmin_eq_zero_iff hrows).mpr hlast]
      exact readingAt_zero hrows hpast hrow hsum hage (by omega) hperiod
    . have hne : ∀ row ∈ rows, 0 ≤ ageOf now row → row.sum ≠ 0 :=
        fun row hrow hage hsum => hany ⟨row, hrow, hage, hsum⟩
      have hpos : 0 ≤ ((num - 1 : Nat) : Int) * period := Int.mul_nonneg (by omega) hperiod.le
      apply readingAt_first hperiod hloop hrows h.future _ (by omega) hne
      intro row hrow hage
      exact hne row hrow (by omega) (hpast row hrow hage)
  . rw [if_pos hmax]
    obtain ⟨hist, hmem, hage, hsum⟩ := hmaxmem.resolve_left hmax
    rw [← hsum]
    apply readingAt_past hmem (by omega)
    intro row hrow hrowage
    rw [hsum]
    by_cases hlt : ageOf now row < num * period
    . rw [hbucket row hrow hrowage hlt, ← hsum]
      exact hrows.nonneg hist hmem
    . exact hmaxle row hrow (by omega)

theorem HistoryFilled.of_ne_zero {history : Nat → Int} (h : HistoryFilled s num history) (hi : i < num)
    (hne : s.histbuffer i ≠ 0)
    : history i = s.histbuffer i := by
  by_cases hlast : i + 1 < num
  . rw [h.gaps i hlast, if_neg hne]
  . have heq : i = num - 1 := by omega
    subst heq
    rw [h.last, if_pos hne]

/--
The newest reading tells of the samples after `now`.
-/
theorem future_of_reading (hperiod : 0 < period) (hnum : 0 < num)
    (hloop : Loop now period num rows s) (hrows : NeverDecrease rows) {history : Nat → Int}
    (hfilled : HistoryFilled s num history) (h : history 0 = readingAt now period num rows 0)
    {hist : PlugHist} (hmem : hist ∈ rows) (hage : -period < ageOf now hist)
    (hneg : ageOf now hist < 0)
    : hist.sum = 0 ∨ ∃ past ∈ rows, 0 ≤ ageOf now past ∧ hist.sum ≤ past.sum := by
  by_cases hsum : hist.sum = 0
  . exact .inl hsum
  have hnonneg := hrows.nonneg hist hmem
  have hle := hloop.le hist hmem 0 hnum
    ((sampleOf_eq_iff hperiod hist 0).mpr ⟨.inr ⟨rfl, hage⟩, by omega⟩)
  rw [hfilled.of_ne_zero hnum (by omega)] at h
  by_cases hany : ∃ row ∈ rows, 0 ≤ ageOf now row
  . obtain ⟨row, hrow, hrowage⟩ := hany
    obtain ⟨past, hpast, hpastage, hpastsum⟩ :=
      exists_readingAt period num (i := 0) hrow (by simpa using hrowage)
    exact .inr ⟨past, hpast, by simpa using hpastage, by omega⟩
  . have hnone : readingAt now period num rows 0 = 0 := by
      apply readingAt_none
      . intro row hrow hrowage
        exact hany ⟨row, hrow, by simpa using hrowage⟩
      . exact fun row hrow hrowage => hany ⟨row, hrow, hrowage.1⟩
    omega

/--
The oldest reading tells of the start of the history.
-/
theorem start_of_reading (hperiod : 0 < period) (hnum : 0 < num)
    (hloop : Loop now period num rows s) (hrows : NeverDecrease rows) {history : Nat → Int}
    (hfilled : HistoryFilled s num history)
    (h : history (num - 1) = readingAt now period num rows (num - 1))
    : (∃ hist ∈ rows, (num - 1 : Nat) * period ≤ ageOf now hist ∧ 0 < hist.sum)
      ∨ (∀ hist ∈ rows, 0 ≤ ageOf now hist → hist.sum ≠ 0)
      ∨ ∀ hist, (rows.filter (Sampled now period num)).getLast? = some hist → hist.sum = 0 := by
  by_cases hold : ∃ hist ∈ rows, (num - 1 : Nat) * period ≤ ageOf now hist ∧ 0 < hist.sum
  . exact .inl hold
  by_cases hany : ∀ hist ∈ rows, 0 ≤ ageOf now hist → hist.sum ≠ 0
  . exact .inr (.inl hany)
  push Not at hany
  obtain ⟨hist, hmem, hage, hsum⟩ := hany
  have hpast : ∀ row ∈ rows, (num - 1 : Nat) * period ≤ ageOf now row → row.sum = 0 := by
    intro row hrow hrowage
    have hnonneg := hrows.nonneg row hrow
    have hnot : ¬ 0 < row.sum := fun hpos => hold ⟨row, hrow, hrowage, hpos⟩
    omega
  rw [readingAt_zero hrows hpast hmem hsum hage (by omega) hperiod, hfilled.last] at h
  refine .inr (.inr ((hloop.histmin_eq_zero_iff hrows).mp ?_))
  split at h
  . omega
  . split at h
    . omega
    . exact h

/--
A period without a sample has the reading of the one before it, the oldest one is right.
-/
theorem reading_of_recorded (hperiod : 0 < period) (hnum : 0 < num)
    (hloop : Loop now period num rows s) (hrows : NeverDecrease rows) {history : Nat → Int}
    (hfilled : HistoryFilled s num history) (h : Recorded now period num rows)
    : ∀ i < num, history i = readingAt now period num rows i := by
  -- from the oldest period on
  suffices hback : ∀ k < num, history (num - 1 - k) = readingAt now period num rows (num - 1 - k) by
    intro i hi
    have hi' : num - 1 - (num - 1 - i) = i := by omega
    rw [← hi']
    exact hback _ (by omega)
  intro k
  induction k with
  | zero =>
    intro _
    rw [Nat.sub_zero, hfilled.last]
    split
    . next hne =>
      exact (readingAt_of_ne_zero hperiod hloop hrows h.future (by omega) hne).symm
    . next hzero =>
      exact (readingAt_last hperiod hnum hloop hrows h (not_not.mp hzero)).symm
  | succ k ih =>
    intro hk
    have hnext : num - 1 - (k + 1) + 1 = num - 1 - k := by omega
    rw [hfilled.gaps _ (by omega)]
    split
    . next hzero =>
      rw [readingAt_succ hperiod hloop hrows (by omega) hzero, hnext]
      exact ih (by omega)
    . next hne =>
      exact (readingAt_of_ne_zero hperiod hloop hrows h.future (by omega) hne).symm

theorem reading_iff_recorded (hperiod : 0 < period) (hnum : 0 < num)
    (hloop : Loop now period num rows s) (hrows : NeverDecrease rows) {history : Nat → Int}
    (hfilled : HistoryFilled s num history)
    : (∀ i < num, history i = readingAt now period num rows i) ↔ Recorded now period num rows := by
  constructor
  . intro h
    constructor
    case future =>
      intro hist hmem hage hneg
      exact future_of_reading hperiod hnum hloop hrows hfilled (h 0 hnum) hmem hage hneg
    case start =>
      exact start_of_reading hperiod hnum hloop hrows hfilled (h (num - 1) (by omega))
  . exact reading_of_recorded hperiod hnum hloop hrows hfilled

theorem readingAt_anti (now : Int) (hperiod : 0 < period) (rows : List PlugHist) (hi : i + 1 < num)
    : readingAt now period num rows (i + 1) ≤ readingAt now period num rows i := by
  have hmul : ((i + 1 : Nat) : Int) * period = i * period + period := by
    rw [Int.natCast_add, Int.add_mul]
    exact congrArg _ (Int.one_mul period)
  have hmulnum : ((i + 1 : Nat) : Int) * period ≤ num * period :=
    Int.mul_le_mul_of_nonneg_right (by omega) hperiod.le
  have hpos : 0 ≤ (i : Int) * period := Int.mul_nonneg (by omega) hperiod.le
  have hmax {past : PlugHist} (hmem : past ∈ rows) (hage : i * period ≤ ageOf now past)
      : past.sum ≤ readingAt now period num rows i := by
    have hin : past.sum ∈ (rows.filter fun hist => i * period ≤ ageOf now hist).map PlugHist.sum :=
      List.mem_map.mpr ⟨past, List.mem_filter.mpr ⟨hmem, decide_eq_true hage⟩, rfl⟩
    have hsome := List.max?_eq_some_max (List.ne_nil_of_mem hin)
    rw [readingAt, hsome]
    exact (List.max?_eq_some_iff.mp hsome).2 _ hin
  by_cases hpast : ∃ row ∈ rows, (i + 1 : Nat) * period ≤ ageOf now row
  . obtain ⟨row, hrow, hage⟩ := hpast
    obtain ⟨past, hmem, hpastage, hsum⟩ := exists_readingAt period num hrow hage
    rw [← hsum]
    exact hmax hmem (by omega)
  have hnext : ∀ row ∈ rows, ¬ (i + 1 : Nat) * period ≤ ageOf now row :=
    fun row hrow hage => hpast ⟨row, hrow, hage⟩
  rw [readingAt_no_past hnext]
  by_cases hthis : ∃ row ∈ rows, i * period ≤ ageOf now row
  . obtain ⟨row, hrow, hage⟩ := hthis
    have hlt := hnext row hrow
    have hin : row.sum ∈ (rows.filter fun hist =>
        0 ≤ ageOf now hist ∧ ageOf now hist < num * period).map PlugHist.sum := by
      refine List.mem_map.mpr ⟨row, List.mem_filter.mpr ⟨hrow, decide_eq_true ?_⟩, rfl⟩
      omega
    have hsome := List.min?_eq_some_min (List.ne_nil_of_mem hin)
    rw [hsome]
    exact ((List.min?_eq_some_iff.mp hsome).2 _ hin).trans (hmax hrow hage)
  . rw [readingAt_no_past fun row hrow hage => hthis ⟨row, hrow, hage⟩]

end

/--
In whatever slots the readings are, the history follows them as long as no reading of 0 is taken for
none, and no sample of the future for one of the present.
-/
theorem plugGetHistory_iff (hperiod : 0 < period) (hnum : 0 < num) (db : Db) (mac : String)
    (hrows : NeverDecrease (plugRows mac db.plughist))
    : FollowsReadings now period num (plugRows mac db.plughist)
          (plugGetHistory db mac now period num)
        ↔ Recorded now period num (plugRows mac db.plughist) := by
  have hiff := reading_iff_recorded hperiod hnum (loop_spec now hperiod hnum db mac) hrows
    (plugGetHistory_filled db mac)
  rw [← hiff]
  constructor
  . exact FollowsReadings.reading
  . intro h
    constructor
    case reading => exact h
    case rising =>
      intro i hi
      have hanti := readingAt_anti now hperiod (plugRows mac db.plughist) hi
      rw [h i (by omega), h (i + 1) hi]
      omega
    case total => exact Finset.sum_range_sub' _ _

end

/--
A plug that has been new more than a day ago, and has used 5 since then
-/
def fresh : Db := sampled meteredMac [(60, 0), (198000, 5)]

theorem fresh_neverDecrease : NeverDecrease (plugRows meteredMac fresh.plughist) := by
  constructor
  . decide +kernel
  . decide +kernel

theorem plugGetHistory_fresh
    : FollowsReadings 3660 60 1 (plugRows meteredMac fresh.plughist)
          (plugGetHistory fresh meteredMac 3660 60 1)
        ↔ Recorded 3660 60 1 (plugRows meteredMac fresh.plughist) :=
  plugGetHistory_iff (by decide) (by decide) fresh meteredMac fresh_neverDecrease

/--
The usage of the day is 0, and it has a reading of the next half hour in it.
-/
theorem history_wrong
    : NeverDecrease (plugRows meteredMac fresh.plughist)
      ∧ (plugGetHistory fresh meteredMac 200000 60 24 0
            - plugGetHistory fresh meteredMac 200000 60 24 23 = 0
          ∧ readingAt 200000 60 24 (plugRows meteredMac fresh.plughist) 0 = 5
          ∧ readingAt 200000 60 24 (plugRows meteredMac fresh.plughist) 23 = 0)
      ∧ plugGetHistory fresh meteredMac 196200 60 24 0 = 5
        ∧ readingAt 196200 60 24 (plugRows meteredMac fresh.plughist) 0 = 0 :=
  ⟨fresh_neverDecrease, by decide +kernel⟩

end NewDb
