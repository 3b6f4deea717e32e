import IotGateway.NewDb.Lemmas.CleanScan
import Mathlib.Data.Fintype.Card
import Mathlib.Data.List.FinRange

/-!
This module says for which plug histories the cleanup follows its policy.
-/

namespace NewDb

abbrev PlugHistory : Type := Fin NEWDB_MAX_PLUGHIST → PlugHist

/--
How many minutes before `now` a sample has been taken.
-/
def ageOf (now : Int) (hist : PlugHist) : Int := minuteOf now - minuteOf hist.lastupdate

/--
The samples that the policy counts as one: those of a minute of the last hour, of an hour of the last
24 hours, and of the day before.
-/
def policyBucket (now : Int) (hist : PlugHist) : Option Int :=
  if ageOf now hist < 0 then
    none
  else if ageOf now hist < 60 then
    some (ageOf now hist)
  else if ageOf now hist < 60 * 24 then
    some (60 + ageOf now hist / 60)
  else if ageOf now hist < 60 * 24 * 2 then
    some (60 + 24)
  else
    none

def OlderThanTwoDays (now : Int) (hist : PlugHist) : Prop := 60 * 24 * 2 ≤ ageOf now hist

/--
What the cleanup of the plug `mac` has to make of the history `t`.
-/
structure Retained (mac : Text) (now : Int) (t t' : PlugHistory) : Prop where
  old : ∀ i, (t' i).mac = mac → ¬OlderThanTwoDays now (t' i)
  highest : ∀ i b, (t i).mac = mac → policyBucket now (t i) = some b → b < 60 + 24 →
    ∃ j, t' j = t j ∧ (t j).mac = mac ∧ policyBucket now (t j) = some b ∧ (t i).sum ≤ (t j).sum
  only : ∀ i, (t i).mac = mac → t' i ≠ t i → OlderThanTwoDays now (t i) ∨
    ∃ j b, j ≠ i ∧ t' j = t j ∧ (t j).mac = mac ∧ policyBucket now (t i) = some b
      ∧ policyBucket now (t j) = some b ∧ (t i).sum ≤ (t j).sum
  others : ∀ i, (t i).mac ≠ mac → t' i = t i

/--
The cleanup of `mac` is repeated until it reports that all is done.
-/
inductive CleanedUp (mac : Text) (now : Int) : Db → Db → Prop
  | done {db db' : Db} (clock : Nat → Int)
      (h : plugHistoryCleanup mac now clock db = (db', true)) : CleanedUp mac now db db'
  | again {db db' db'' : Db} (clock : Nat → Int)
      (h : plugHistoryCleanup mac now clock db = (db', false))
      (rest : CleanedUp mac now db' db'') : CleanedUp mac now db db''

/--
Every row knows its index.
-/
def HistIndexed (t : PlugHistory) : Prop := ∀ i, (t i).id = i

def plugRows (mac : String) (t : PlugHistory) : List PlugHist :=
  ((List.finRange NEWDB_MAX_PLUGHIST).map t).filter fun hist => hist.mac = mac

section

variable {mac : String} {t : PlugHistory}

theorem mem_plugRows {hist : PlugHist} : hist ∈ plugRows mac t ↔ ∃ i, t i = hist ∧ (t i).mac = mac := by
  simp only [plugRows, List.mem_filter, List.mem_map, List.mem_finRange, true_and,
    decide_eq_true_eq]
  constructor
  . rintro ⟨⟨i, rfl⟩, hmac⟩
    exact ⟨i, rfl, hmac⟩
  . rintro ⟨i, rfl, hmac⟩
    exact ⟨⟨i, rfl⟩, hmac⟩

theorem HistIndexed.distinctIds (h : HistIndexed t) : DistinctIds (plugRows mac t) := by
  have hall : (((List.finRange NEWDB_MAX_PLUGHIST).map t).map PlugHist.id).Nodup := by
    rw [List.map_map]
    apply List.Nodup.map
    . intro i j heq
      simp only [Function.comp_apply, h i, h j] at heq
      exact Fin.ext (Int.ofNat.inj heq)
    . exact List.nodup_finRange _
  exact hall.sublist (List.filter_sublist.map _)

theorem HistIndexed.id_nonneg (h : HistIndexed t) : ∀ r ∈ plugRows mac t, 0 ≤ r.id := by
  intro r hr
  obtain ⟨i, rfl, -⟩ := mem_plugRows.mp hr
  rw [h i]
  exact Int.natCast_nonneg _

theorem pairwise_plugRows_iff {R : PlugHist → PlugHist → Prop}
    : (plugRows mac t).Pairwise R
      ↔ ∀ i j, i < j → (t i).mac = mac → (t j).mac = mac → R (t i) (t j) := by
  rw [plugRows, List.pairwise_filter, List.pairwise_map]
  simp only [decide_eq_true_eq]
  constructor
  . intro h i j hlt
    have hget := List.pairwise_iff_getElem.mp h i.val j.val (by simp) (by simp) hlt
    simpa using hget
  . intro h
    exact (List.pairwise_lt_finRange _).imp fun hlt => h _ _ hlt

end

theorem newDbDeletePlugHist_index (db : Db) (i : Fin NEWDB_MAX_PLUGHIST) (now : Int)
    : newDbDeletePlugHist db i now
      = ({ db with
          plughist := Function.update db.plughist i { db.plughist i with mac := "" }
          numwrites := db.numwrites + 1
          lastupdate_plughist := now }, true) := by
  simp [newDbDeletePlugHist]

theorem deleteAll_plughist {ids : List Int} {clock : Nat → Int} {db : Db}
    (h : ∀ id ∈ ids, ∃ i : Fin NEWDB_MAX_PLUGHIST, id = i) (i : Fin NEWDB_MAX_PLUGHIST)
    : (deleteAll ids clock db).plughist i
      = if (i : Int) ∈ ids then { db.plughist i with mac := "" } else db.plughist i := by
  induction ids generalizing db clock with
  | nil => simp [deleteAll]
  | cons id ids ih =>
    obtain ⟨j, rfl⟩ := h id List.mem_cons_self
    rw [deleteAll, newDbDeletePlugHist_index]
    simp only
    rw [ih fun id hid => h id (List.mem_cons_of_mem _ hid)]
    by_cases hij : i = j
    . subst hij
      simp
    . have hne : (i : Int) ≠ j := fun heq => hij (Fin.ext (Int.ofNat.inj heq))
      simp [Function.update_of_ne hij, hne]

def HasPair (mac : String) (cleanstart b : Int) (t : PlugHistory) : Prop :=
  ∃ i j, i < j ∧ (t i).mac = mac ∧ (t j).mac = mac ∧ Pair cleanstart b (t i) (t j)

/--
What is left of `t` after any number of calls.
-/
def Thinned (mac : String) (cleanstart : Int) (t t' : PlugHistory) : Prop :=
  ∀ i, t' i = t i ∨ (t i).mac = mac ∧ t' i = { t i with mac := "" }
    ∧ (Far cleanstart (t i) ∨ ∃ b, codeBucket cleanstart (t i) = some b
      ∧ HasPair mac cleanstart b t ∧ ∃ j, j ≠ i ∧ (t j).mac = mac ∧ t' j = t j
        ∧ codeBucket cleanstart (t j) = some b ∧ (t i).sum ≤ (t j).sum)

/--
What is still there after the last call.
-/
structure Finished (mac : String) (cleanstart : Int) (t t' : PlugHistory) : Prop where
  far : ∀ i, (t i).mac = mac → Far cleanstart (t i) → t' i ≠ t i
  pairs : ∀ b, HasPair mac cleanstart b t →
    ∃ i, (t i).mac = mac ∧ codeBucket cleanstart (t i) = some b ∧ t' i ≠ t i

theorem not_pairwise_iff_hasPair {mac : String} {cleanstart b : Int} {t : PlugHistory}
    : (¬(plugRows mac t).Pairwise fun r r' => ¬Pair cleanstart b r r')
      ↔ HasPair mac cleanstart b t := by
  rw [pairwise_plugRows_iff]
  unfold HasPair
  push Not
  rfl

section

variable {db : Db} {mac : Text} {now : Int}

theorem cleanList_spec (mac : Text) (now : Int) (h : HistIndexed db.plughist)
    : ∃ (scanned rest : List PlugHist) (s : CleanScan), plugRows mac db.plughist = scanned ++ rest
        ∧ Scanned (minuteOf now) scanned s ∧ s.cleanIdList = cleanList mac now db
        ∧ ((cleanList mac now db).length < MAXCLEANIDLIST → rest = []) := by
  obtain ⟨scanned, rest, happend, hscanned, hrest⟩ :=
    (Scanned.nil (minuteOf now)).loop (plugRows mac db.plughist) h.distinctIds h.id_nonneg
      (by decide)
  exact ⟨scanned, rest, _, happend, hscanned, rfl, hrest⟩

theorem cleanList_index (h : HistIndexed db.plughist)
    : ∀ id ∈ cleanList mac now db, ∃ i : Fin NEWDB_MAX_PLUGHIST, id = i := by
  obtain ⟨scanned, rest, s, happend, hscanned, hlist, -⟩ := cleanList_spec mac now h
  rw [← hlist]
  intro id hid
  obtain ⟨r, hr, rfl, -⟩ := hscanned.cleaned id hid
  have hmem : r ∈ plugRows mac db.plughist := by
    rw [happend]
    exact List.mem_append_left _ hr
  obtain ⟨i, rfl, -⟩ := mem_plugRows.mp hmem
  exact ⟨i, h i⟩

theorem plugHistoryCleanup_plughist (h : HistIndexed db.plughist) (clock : Nat → Int)
    (i : Fin NEWDB_MAX_PLUGHIST)
    : (plugHistoryCleanup mac now clock db).1.plughist i
      = if (i : Int) ∈ cleanList mac now db then { db.plughist i with mac := "" }
        else db.plughist i :=
  deleteAll_plughist (cleanList_index h) i

theorem HistIndexed.plugHistoryCleanup (h : HistIndexed db.plughist) (mac : Text) (now : Int)
    (clock : Nat → Int)
    : HistIndexed (plugHistoryCleanup mac now clock db).1.plughist := by
  intro i
  rw [plugHistoryCleanup_plughist h]
  split
  . exact h i
  . exact h i

theorem changed_iff_listed (h : HistIndexed db.plughist) (clock : Nat → Int)
    {i : Fin NEWDB_MAX_PLUGHIST} (hmac : (db.plughist i).mac = mac)
    : (NewDb.plugHistoryCleanup mac now clock db).1.plughist i ≠ db.plughist i
      ↔ (i : Int) ∈ cleanList mac now db := by
  rw [plugHistoryCleanup_plughist h]
  split
  . next hlisted =>
    simp only [hlisted, iff_true]
    intro heq
    have hempty : "" = (db.plughist i).mac := congrArg PlugHist.mac heq
    exact mac.2 (hmac.symm.trans hempty.symm)
  . next hnot => simp [hnot]

theorem thinned_plugHistoryCleanup (mac : Text) (now : Int) (h : HistIndexed db.plughist)
    (clock : Nat → Int)
    : Thinned mac (minuteOf now) db.plughist
        (NewDb.plugHistoryCleanup mac now clock db).1.plughist := by
  obtain ⟨scanned, rest, s, happend, hscanned, hlist, -⟩ := cleanList_spec mac now h
  have hrow : ∀ r ∈ scanned, ∃ i, db.plughist i = r ∧ (db.plughist i).mac = mac := by
    intro r hr
    apply mem_plugRows.mp
    rw [happend]
    exact List.mem_append_left _ hr
  intro i
  rw [plugHistoryCleanup_plughist h]
  split
  . next hlisted =>
    right
    rw [← hlist] at hlisted
    obtain ⟨r, hr, hid, hwhy⟩ := hscanned.cleaned _ hlisted
    obtain ⟨k, rfl, hmac⟩ := hrow r hr
    have hki : k = i := by
      rw [h k] at hid
      exact Fin.ext (Int.ofNat.inj hid)
    subst hki
    refine ⟨hmac, rfl, hwhy.imp_right ?_⟩
    rintro ⟨b, hbucket, hheld, hle⟩
    refine ⟨b, hbucket, ?_, ?_⟩
    . rw [← not_pairwise_iff_hasPair, happend, List.pairwise_append]
      intro hall
      exact (hscanned.paired b).mp ⟨_, hr, hbucket, hid ▸ hlisted⟩ hall.1
    -- The remembered sample
    . obtain ⟨x, hx, hxb, hxsum, -, hnot⟩ := hscanned.held b hheld
      obtain ⟨j, rfl, hjmac⟩ := hrow x hx
      rw [h j, hlist] at hnot
      refine ⟨j, ?_, hjmac, ?_, hxb, ?_⟩
      . rintro rfl
        exact hnot (hlist ▸ hlisted)
      . rw [plugHistoryCleanup_plughist h, if_neg hnot]
      . rw [hxsum]
        exact hle
  . exact .inl rfl

theorem finished_plugHistoryCleanup (mac : Text) (now : Int) (h : HistIndexed db.plughist)
    (clock : Nat → Int)
    (hdone : (NewDb.plugHistoryCleanup mac now clock db).2 = true)
    : Finished mac (minuteOf now) db.plughist
        (NewDb.plugHistoryCleanup mac now clock db).1.plughist := by
  obtain ⟨scanned, rest, s, happend, hscanned, hlist, hrest⟩ := cleanList_spec mac now h
  rw [hrest (of_decide_eq_true hdone), List.append_nil] at happend
  subst happend
  constructor
  . intro i hmac hfar
    rw [changed_iff_listed h clock hmac, ← hlist, ← h i]
    exact hscanned.far _ (mem_plugRows.mpr ⟨i, rfl, hmac⟩) hfar
  . intro b hpair
    obtain ⟨r, hr, hbucket, hlisted⟩ := (hscanned.paired b).mpr (not_pairwise_iff_hasPair.mpr hpair)
    obtain ⟨i, rfl, hmac⟩ := mem_plugRows.mp hr
    refine ⟨i, hmac, hbucket, ?_⟩
    rwa [changed_iff_listed h clock hmac, ← hlist, ← h i]

theorem exists_changed_of_not_done (mac : Text) (now : Int) (h : HistIndexed db.plughist)
    (clock : Nat → Int)
    (hdone : (NewDb.plugHistoryCleanup mac now clock db).2 = false)
    : ∃ i, (db.plughist i).mac = mac
        ∧ (NewDb.plugHistoryCleanup mac now clock db).1.plughist i ≠ db.plughist i := by
  obtain ⟨scanned, rest, s, happend, hscanned, hlist, -⟩ := cleanList_spec mac now h
  have hlong : MAXCLEANIDLIST ≤ (cleanList mac now db).length :=
    Nat.not_lt.mp (of_decide_eq_false hdone)
  obtain ⟨id, hid⟩ := List.exists_mem_of_length_pos (Nat.lt_of_lt_of_le (by decide) hlong)
  obtain ⟨r, hr, rfl, -⟩ := hscanned.cleaned id (hlist ▸ hid)
  have hmem : r ∈ plugRows mac db.plughist := by
    rw [happend]
    exact List.mem_append_left _ hr
  obtain ⟨i, rfl, hmac⟩ := mem_plugRows.mp hmem
  refine ⟨i, hmac, ?_⟩
  rwa [changed_iff_listed h clock hmac, ← h i]

end

section

variable {mac : Text} {cleanstart now : Int} {t t' t'' : PlugHistory}

theorem Thinned.mac_eq (h : Thinned mac cleanstart t t') {i : Fin NEWDB_MAX_PLUGHIST}
    (hmac : (t' i).mac = mac)
    : t' i = t i := by
  rcases h i with heq | ⟨-, hdeleted, -⟩
  . exact heq
  . rw [hdeleted] at hmac
    exact absurd hmac.symm mac.2

theorem HasPair.of_thinned (h : Thinned mac cleanstart t t') {b : Int}
    (hpair : HasPair mac cleanstart b t')
    : HasPair mac cleanstart b t := by
  obtain ⟨i, j, hlt, hi, hj, hpair⟩ := hpair
  have hti := h.mac_eq hi
  have htj := h.mac_eq hj
  rw [hti] at hi hpair
  rw [htj] at hj hpair
  exact ⟨i, j, hlt, hi, hj, hpair⟩

theorem Thinned.trans (h : Thinned mac cleanstart t t') (h' : Thinned mac cleanstart t' t'')
    : Thinned mac cleanstart t t'' := by
  intro i
  rcases h i with heq | ⟨hmac, hdeleted, hwhy⟩
  . rcases h' i with heq' | ⟨hmac, hdeleted, hwhy⟩
    . exact .inl (heq'.trans heq)
    . right
      rw [heq] at hmac hdeleted hwhy
      refine ⟨hmac, hdeleted, hwhy.imp_right ?_⟩
      rintro ⟨b, hbucket, hpair, j, hne, hjmac, hkept, hjb, hle⟩
      have htj := h.mac_eq hjmac
      rw [htj] at hjmac hkept hjb hle
      exact ⟨b, hbucket, hpair.of_thinned h, j, hne, hjmac, hkept, hjb, hle⟩
  . right
    have hgone : t'' i = t' i := by
      rcases h' i with heq | ⟨hmac', -⟩
      . exact heq
      . rw [hdeleted] at hmac'
        exact absurd hmac'.symm mac.2
    refine ⟨hmac, hgone.trans hdeleted, hwhy.imp_right ?_⟩
    rintro ⟨b, hbucket, hpair, j, hne, hjmac, hkept, hjb, hle⟩
    refine ⟨b, hbucket, hpair, ?_⟩
    rcases h' j with heq | ⟨-, -, hwhy'⟩
    . exact ⟨j, hne, hjmac, heq.trans hkept, hjb, hle⟩
    -- The sample for which the row has been deleted has been deleted for another one
    . rw [hkept] at hwhy'
      rcases hwhy' with hfar | ⟨b', hjb', -, k, hkj, hkmac, hkept', hkb, hle'⟩
      . rw [codeBucket_of_far hfar] at hjb
        cases hjb
      . obtain rfl := Option.some.inj (hjb.symm.trans hjb')
        have htk := h.mac_eq hkmac
        rw [htk] at hkmac hkept' hkb hle'
        refine ⟨k, ?_, hkmac, hkept', hkb, Int.le_trans hle hle'⟩
        rintro rfl
        rw [hdeleted] at htk
        have hempty : "" = (t k).mac := congrArg PlugHist.mac htk
        exact mac.2 (hmac.symm.trans hempty.symm)

/--
Repeating the cleanup ends, and thins the history until nothing is left to delete.
-/
theorem CleanedUp.spec {db db' : Db} (h : HistIndexed db.plughist) (hcleaned : CleanedUp mac now db db')
    : ∃ t, Thinned mac (minuteOf now) db.plughist t ∧ Thinned mac (minuteOf now) t db'.plughist
        ∧ Finished mac (minuteOf now) t db'.plughist := by
  induction hcleaned with
  | @done db db' clock hcall =>
    have hthinned := thinned_plugHistoryCleanup mac now h clock
    have hfinished := finished_plugHistoryCleanup mac now h clock
    rw [hcall] at hthinned hfinished
    exact ⟨db.plughist, fun i => .inl rfl, hthinned, hfinished rfl⟩
  | @again db db' db'' clock hcall rest ih =>
    have hthinned := thinned_plugHistoryCleanup mac now h clock
    have hindexed := h.plugHistoryCleanup mac now clock
    rw [hcall] at hthinned hindexed
    obtain ⟨t, hbefore, hafter, hfinished⟩ := ih hindexed
    exact ⟨t, hthinned.trans hbefore, hafter, hfinished⟩

theorem exists_cleanedUp (mac : Text) (now : Int) (db : Db) (h : HistIndexed db.plughist)
    : ∃ db', CleanedUp mac now db db' := by
  -- Each call that has not finished leaves fewer samples of the plug
  induction hcard : (Finset.univ.filter fun i => (db.plughist i).mac = mac).card
    using Nat.strong_induction_on generalizing db with
  | _ samples ih =>
    subst hcard
    rcases hcall : plugHistoryCleanup mac now (fun _ => now) db with ⟨db', _ | _⟩
    . have hthinned := thinned_plugHistoryCleanup mac now h fun _ => now
      have hindexed := h.plugHistoryCleanup mac now fun _ => now
      have hchanged := exists_changed_of_not_done mac now h fun _ => now
      rw [hcall] at hthinned hindexed hchanged
      obtain ⟨i, hmac, hne⟩ := hchanged rfl
      have hless : (Finset.univ.filter fun i => (db'.plughist i).mac = mac)
          ⊂ Finset.univ.filter fun i => (db.plughist i).mac = mac := by
        rw [Finset.ssubset_iff_of_subset]
        . refine ⟨i, by simpa using hmac, ?_⟩
          simp only [Finset.mem_filter, Finset.mem_univ, true_and]
          exact fun hstill => hne (hthinned.mac_eq hstill)
        . intro j
          simp only [Finset.mem_filter, Finset.mem_univ, true_and]
          intro hj
          rwa [← hthinned.mac_eq hj]
      obtain ⟨db'', hrest⟩ := ih _ (Finset.card_lt_card hless) db' hindexed rfl
      exact ⟨db'', .again _ hcall hrest⟩
    . exact ⟨db', .done _ hcall⟩

end

/--
The plug has no sample that is too old or far in the future, and of two other samples of the future
with one index the first one does not count.
-/
structure Retainable (mac : Text) (now : Int) (t : PlugHistory) : Prop where
  old : ∀ i, (t i).mac = mac → ¬OlderThanTwoDays now (t i)
  far : ∀ i, (t i).mac = mac → ¬Far (minuteOf now) (t i)
  future : ∀ b, 0 < b → ¬HasPair mac (minuteOf now) b t

section

variable {mac : Text} {now : Int} {t t' : PlugHistory}

theorem policyBucket_of_now {hist : PlugHist} (h : minuteOf hist.lastupdate = minuteOf now)
    : policyBucket now hist = some 0 := by
  have hage : ageOf now hist = 0 := by
    unfold ageOf
    omega
  simp [policyBucket, hage]

theorem Thinned.retained (h : Thinned mac (minuteOf now) t t') (hok : Retainable mac now t)
    : Retained mac now t t' := by
  -- What is deleted is of the present minute, for which the cleanup agrees with the policy
  have hwhy : ∀ i, (t i).mac = mac → t' i ≠ t i → policyBucket now (t i) = some 0
      ∧ ∃ j, j ≠ i ∧ t' j = t j ∧ (t j).mac = mac ∧ policyBucket now (t j) = some 0
        ∧ (t i).sum ≤ (t j).sum := by
    intro i hmac hne
    rcases h i with heq | ⟨-, -, hfar | ⟨b, hbucket, hpair, j, hji, hjmac, hkept, hjb, hle⟩⟩
    . exact absurd heq hne
    . exact absurd hfar (hok.far i hmac)
    . have hpresent : ∀ hist : PlugHist, codeBucket (minuteOf now) hist = some b →
          policyBucket now hist = some 0 := by
        intro hist hb
        rcases codeBucket_cases hb with ⟨hnow, -⟩ | ⟨-, -, hpos⟩
        . exact policyBucket_of_now hnow
        . exact absurd hpair (hok.future b hpos)
      exact ⟨hpresent _ hbucket, j, hji, hkept, hjmac, hpresent _ hjb, hle⟩
  constructor
  case old =>
    intro i hmac
    have hti := h.mac_eq hmac
    rw [hti] at hmac ⊢
    exact hok.old i hmac
  case highest =>
    intro i b hmac hb _
    by_cases heq : t' i = t i
    . exact ⟨i, heq, hmac, hb, Int.le_refl _⟩
    . obtain ⟨hzero, j, -, hkept, hjmac, hjzero, hle⟩ := hwhy i hmac heq
      refine ⟨j, hkept, hjmac, ?_, hle⟩
      rw [hjzero, ← hzero, hb]
  case only =>
    intro i hmac hne
    obtain ⟨hzero, j, hji, hkept, hjmac, hjzero, hle⟩ := hwhy i hmac hne
    exact .inr ⟨j, 0, hji, hkept, hjmac, hzero, hjzero, hle⟩
  case others =>
    intro i hmac
    rcases h i with heq | ⟨hmac', -⟩
    . exact heq
    . exact absurd hmac' hmac

theorem policyBucket_of_future {hist : PlugHist} (h : minuteOf now < minuteOf hist.lastupdate)
    : policyBucket now hist = none ∧ ¬OlderThanTwoDays now hist := by
  have hage : ageOf now hist < 0 := by
    unfold ageOf
    omega
  refine ⟨by simp [policyBucket, hage], ?_⟩
  unfold OlderThanTwoDays
  omega

theorem Retained.keeps_future (h : Retained mac now t t') {i : Fin NEWDB_MAX_PLUGHIST}
    (hmac : (t i).mac = mac) (hfuture : minuteOf now < minuteOf (t i).lastupdate)
    : t' i = t i := by
  by_contra hne
  obtain ⟨hbucket, hold⟩ := policyBucket_of_future hfuture
  rcases h.only i hmac hne with hold' | ⟨j, b, -, -, -, hb, -⟩
  . exact hold hold'
  . rw [hbucket] at hb
    cases hb

theorem far_future {hist : PlugHist} (h : Far (minuteOf now) hist)
    : minuteOf now < minuteOf hist.lastupdate := by
  unfold Far at h
  omega

theorem future_of_pos {hist : PlugHist} {b : Int} (hb : 0 < b)
    (hbucket : codeBucket (minuteOf now) hist = some b)
    : minuteOf now < minuteOf hist.lastupdate := by
  rcases codeBucket_cases hbucket with ⟨-, rfl⟩ | ⟨hfuture, -⟩
  . exact absurd hb (Int.lt_irrefl 0)
  . exact hfuture

end

theorem CleanedUp.retained_iff {mac : Text} {now : Int} {db db' : Db}
    (h : HistIndexed db.plughist) (hcleaned : CleanedUp mac now db db')
    : Retained mac now db.plughist db'.plughist ↔ Retainable mac now db.plughist := by
  obtain ⟨t, hbefore, hafter, hfinished⟩ := hcleaned.spec h
  have hthinned := hbefore.trans hafter
  constructor
  . intro hretained
    -- A sample of the future is in every table up to the last one
    have hstays : ∀ i, (db.plughist i).mac = mac →
        minuteOf now < minuteOf (db.plughist i).lastupdate →
        t i = db.plughist i ∧ db'.plughist i = t i := by
      intro i hmac hfuture
      have hkept := hretained.keeps_future hmac hfuture
      have hti : db'.plughist i = t i := by
        apply hafter.mac_eq
        rw [hkept]
        exact hmac
      exact ⟨hti.symm.trans hkept, hti⟩
    constructor
    . intro i hmac hold
      have hkept : db'.plughist i = db.plughist i := by
        rcases hthinned i with heq | ⟨-, -, hfar | ⟨b, hbucket, -⟩⟩
        . exact heq
        . have hfuture := far_future hfar
          exact absurd hold (policyBucket_of_future hfuture).2
        . unfold OlderThanTwoDays ageOf at hold
          rcases codeBucket_cases hbucket with ⟨hnow, -⟩ | ⟨hfuture, -, -⟩
          . omega
          . omega
      apply hretained.old i
      . rw [hkept]
        exact hmac
      . rw [hkept]
        exact hold
    . intro i hmac hfar
      obtain ⟨hti, hkept⟩ := hstays i hmac (far_future hfar)
      apply hfinished.far i
      . rw [hti]
        exact hmac
      . rw [hti]
        exact hfar
      . exact hkept
    . rintro b hb ⟨i, j, hlt, hi, hj, hpair⟩
      obtain ⟨hti, -⟩ := hstays i hi (future_of_pos hb hpair.1)
      obtain ⟨htj, -⟩ := hstays j hj (future_of_pos hb hpair.2.1)
      have hpair' : HasPair mac (minuteOf now) b t := by
        refine ⟨i, j, hlt, ?_⟩
        rw [hti, htj]
        exact ⟨hi, hj, hpair⟩
      obtain ⟨k, hkmac, hkb, hdeleted⟩ := hfinished.pairs b hpair'
      have htk := hbefore.mac_eq hkmac
      rw [htk] at hkmac hkb
      exact hdeleted (hstays k hkmac (future_of_pos hb hkb)).2
  . exact hthinned.retained

/--
Repeating the cleanup ends, and the result follows the policy for exactly these histories.
-/
theorem plugHistoryCleanup_retained_iff (mac : Text) (now : Int) (db : Db)
    (h : HistIndexed db.plughist)
    : (∃ db', CleanedUp mac now db db')
        ∧ ∀ db', CleanedUp mac now db db' →
          (Retained mac now db.plughist db'.plughist ↔ Retainable mac now db.plughist) :=
  ⟨exists_cleanedUp mac now db h, fun _ hcleaned => hcleaned.retained_iff h⟩

def plugMac : Text := ⟨"00158D0000350F20", by decide⟩

/--
The history of a plug with one sample for each of the times.
-/
def historyOf (times : List Int) : Db where
  plughist := fun i =>
    match times[i.val]? with
    | some time => { id := i, mac := plugMac, sum := i, lastupdate := time }
    | none => { id := i }

theorem historyOf_indexed (times : List Int) : HistIndexed (historyOf times).plughist := by
  intro i
  simp only [historyOf]
  split
  . rfl
  . rfl

theorem plugHistoryCleanup_retained_iff_historyOf
    : (∃ db', CleanedUp plugMac 200000 (historyOf [200000, 199999, 190000]) db')
        ∧ ∀ db', CleanedUp plugMac 200000 (historyOf [200000, 199999, 190000]) db' →
          (Retained plugMac 200000 (historyOf [200000, 199999, 190000]).plughist db'.plughist
            ↔ Retainable plugMac 200000 (historyOf [200000, 199999, 190000]).plughist) :=
  plugHistoryCleanup_retained_iff plugMac 200000 _ (historyOf_indexed _)

/--
The sample is older than two days.
-/
theorem oldSample_not_retained
    : ¬∃ db', CleanedUp plugMac 200000 (historyOf [20000]) db'
        ∧ Retained plugMac 200000 (historyOf [20000]).plughist db'.plughist := by
  rintro ⟨db', hcleaned, hretained⟩
  have hok := (hcleaned.retained_iff (historyOf_indexed _)).mp hretained
  have hage : OlderThanTwoDays 200000 ((historyOf [20000]).plughist ⟨0, by decide⟩) := by
    unfold OlderThanTwoDays
    decide
  exact hok.old _ rfl hage

end NewDb
