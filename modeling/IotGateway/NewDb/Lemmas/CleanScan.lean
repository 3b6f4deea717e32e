import IotGateway.NewDb.Impl.PlugUsage
import Mathlib.Data.List.Nodup
import Mathlib.Tactic.Common

/-!
This module contains what the scan of the plug history knows after each row. It takes samples of the
future for those of the past, and puts nothing on the list for a sample of the past.
-/

namespace NewDb

def minuteOf (time : Int) : Int := Int.tdiv time 60

/--
The index that the cleanup uses for a sample.
-/
def codeBucket (cleanstart : Int) (hist : PlugHist) : Option Int :=
  match sampleAt cleanstart (minuteOf hist.lastupdate) with
  | .index sample => if sample < 0 then none else some sample
  | _ => none

/--
What the cleanup deletes without another sample for it.
-/
def Far (cleanstart : Int) (hist : PlugHist) : Prop :=
  cleanstart + 60 * 24 * 2 ≤ minuteOf hist.lastupdate

section

variable {cleanstart : Int} {hist : PlugHist} {b : Int}

theorem sampleAt_clean_iff {min : Int}
    : sampleAt cleanstart min = .clean ↔ cleanstart + 60 * 24 * 2 ≤ min := by
  unfold sampleAt
  split_ifs <;> simp <;> omega

theorem tdiv_hour_gt (minutes : Int) (h : -(60 * 24) < minutes) : -24 < Int.tdiv minutes 60 := by
  cases Int.le_total 0 minutes with
  | inl hpos =>
    have hdiv := Int.tdiv_nonneg hpos (by decide : (0 : Int) ≤ 60)
    omega
  | inr hneg =>
    rw [← Int.neg_neg minutes, Int.neg_tdiv, Int.tdiv_eq_ediv_of_nonneg (by omega)]
    omega

theorem sampleAt_index {min sample : Int} (h : sampleAt cleanstart min = .index sample)
    (hsample : 0 ≤ sample)
    : min = cleanstart ∧ sample = 0
        ∨ cleanstart < min ∧ min < cleanstart + 60 * 24 * 2 ∧ 0 < sample := by
  unfold sampleAt at h
  split_ifs at h
  . have := Sample.index.inj h
    omega
  . have hdiv := tdiv_hour_gt (cleanstart - min) (by omega)
    have := Sample.index.inj h
    omega
  . have := Sample.index.inj h
    omega

theorem codeBucket_eq_some_iff
    : codeBucket cleanstart hist = some b
      ↔ sampleAt cleanstart (minuteOf hist.lastupdate) = .index b ∧ 0 ≤ b := by
  unfold codeBucket
  split
  . next sample heq =>
    rw [heq, Sample.index.injEq]
    split_ifs with hneg
    . constructor
      . rintro ⟨⟩
      . rintro ⟨rfl, hpos⟩
        omega
    . constructor
      . rintro ⟨rfl⟩
        exact ⟨rfl, Int.not_lt.mp hneg⟩
      . rintro ⟨rfl, -⟩
        rfl
  . next hother =>
    constructor
    . rintro ⟨⟩
    . rintro ⟨heq, -⟩
      exact absurd heq (hother b)

theorem codeBucket_cases (h : codeBucket cleanstart hist = some b)
    : minuteOf hist.lastupdate = cleanstart ∧ b = 0
        ∨ cleanstart < minuteOf hist.lastupdate ∧ ¬Far cleanstart hist ∧ 0 < b := by
  obtain ⟨heq, hpos⟩ := codeBucket_eq_some_iff.mp h
  rcases sampleAt_index heq hpos with hnow | ⟨hfuture, hnear, hb⟩
  . exact .inl hnow
  . exact .inr ⟨hfuture, Int.not_le.mpr hnear, hb⟩

end

def CleanScan.hold (s : CleanScan) (b : Int) (hist : PlugHist) : CleanScan :=
  { s with
    minhourday := Function.update s.minhourday b hist.sum
    mhd_sample := Function.update s.mhd_sample b hist.id }

def CleanScan.list (s : CleanScan) (id : Int) : CleanScan :=
  { s with cleanIdList := s.cleanIdList ++ [id] }

/--
What the call-back does with a row.
-/
inductive CleanStep (cleanstart : Int) (hist : PlugHist) (s : CleanScan) : CleanScan → Prop
  | keep (hbucket : codeBucket cleanstart hist = none) (hnear : ¬Far cleanstart hist) :
      CleanStep cleanstart hist s s
  | far (hfar : Far cleanstart hist) : CleanStep cleanstart hist s (s.list hist.id)
  | first (b : Int) (hbucket : codeBucket cleanstart hist = some b) (hfree : s.minhourday b < 0) :
      CleanStep cleanstart hist s (s.hold b hist)
  | supersedes (b : Int) (hbucket : codeBucket cleanstart hist = some b)
      (hheld : 0 ≤ s.minhourday b) (hsum : s.minhourday b ≤ hist.sum) :
      CleanStep cleanstart hist s ((s.list (s.mhd_sample b)).hold b hist)
  | superseded (b : Int) (hbucket : codeBucket cleanstart hist = some b)
      (hheld : 0 ≤ s.minhourday b) (hsum : hist.sum < s.minhourday b) :
      CleanStep cleanstart hist s (s.list hist.id)

/--
The list is not full and nothing but indices is put on it.
-/
structure Ready (s : CleanScan) : Prop where
  short : s.cleanIdList.length < MAXCLEANIDLIST
  held : ∀ b, 0 ≤ s.minhourday b → 0 ≤ s.mhd_sample b

theorem plugCleanPrepareCb_spec (cleanstart : Int) {hist : PlugHist} {s : CleanScan}
    (hready : Ready s) (hid : 0 ≤ hist.id)
    : ∃ s', CleanStep cleanstart hist s s'
        ∧ plugCleanPrepareCb cleanstart hist s
          = (s', decide (s'.cleanIdList.length < MAXCLEANIDLIST)) := by
  have hshort := hready.short
  cases hsample : sampleAt cleanstart (Int.tdiv hist.lastupdate 60) with
  | none =>
    refine ⟨s, .keep ?_ ?_, ?_⟩
    . simp [codeBucket, minuteOf, hsample]
    . rw [Far, ← sampleAt_clean_iff, minuteOf, hsample]
      rintro ⟨⟩
    . simp [plugCleanPrepareCb, hsample, hshort]
  | clean =>
    refine ⟨s.list hist.id, .far (sampleAt_clean_iff.mp hsample), ?_⟩
    simp [plugCleanPrepareCb, hsample, hid, hshort, CleanScan.list]
  | index b =>
    by_cases hneg : b < 0
    . refine ⟨s, .keep ?_ ?_, ?_⟩
      . simp [codeBucket, minuteOf, hsample, hneg]
      . rw [Far, ← sampleAt_clean_iff, minuteOf, hsample]
        rintro ⟨⟩
      . simp [plugCleanPrepareCb, hsample, hneg, hshort]
    . have hbucket : codeBucket cleanstart hist = some b :=
        codeBucket_eq_some_iff.mpr ⟨hsample, Int.not_lt.mp hneg⟩
      by_cases hfree : s.minhourday b < 0
      . refine ⟨s.hold b hist, .first b hbucket hfree, ?_⟩
        simp [plugCleanPrepareCb, hsample, hneg, hfree, hshort, CleanScan.hold]
      . have hheld := Int.not_lt.mp hfree
        by_cases hsum : s.minhourday b ≤ hist.sum
        . refine ⟨_, .supersedes b hbucket hheld hsum, ?_⟩
          simp [plugCleanPrepareCb, hsample, hneg, hfree, hsum, hready.held b hheld, hshort,
            CleanScan.hold, CleanScan.list]
        . refine ⟨_, .superseded b hbucket hheld (Int.not_le.mp hsum), ?_⟩
          simp [plugCleanPrepareCb, hsample, hneg, hfree, hsum, hid, hshort, CleanScan.list]

/--
Two samples of one index, of which the first one is remembered, so that one of them is deleted.
-/
def Pair (cleanstart b : Int) (hist hist' : PlugHist) : Prop :=
  codeBucket cleanstart hist = some b ∧ codeBucket cleanstart hist' = some b ∧ 0 ≤ hist.sum

/--
What the scan knows after the rows `pre`. A remembered sample is not on the list, and what is on the
list is far in the future or is superseded by the remembered one.
-/
structure Scanned (cleanstart : Int) (pre : List PlugHist) (s : CleanScan) : Prop where
  held : ∀ b, 0 ≤ s.minhourday b → ∃ r ∈ pre, codeBucket cleanstart r = some b
    ∧ r.sum = s.minhourday b ∧ r.id = s.mhd_sample b ∧ r.id ∉ s.cleanIdList
  nonneg : ∀ r ∈ pre, ∀ b, codeBucket cleanstart r = some b → 0 ≤ r.sum → 0 ≤ s.minhourday b
  cleaned : ∀ id ∈ s.cleanIdList, ∃ r ∈ pre, r.id = id ∧ (Far cleanstart r
    ∨ ∃ b, codeBucket cleanstart r = some b ∧ 0 ≤ s.minhourday b ∧ r.sum ≤ s.minhourday b)
  far : ∀ r ∈ pre, Far cleanstart r → r.id ∈ s.cleanIdList
  paired : ∀ b, (∃ r ∈ pre, codeBucket cleanstart r = some b ∧ r.id ∈ s.cleanIdList)
    ↔ ¬pre.Pairwise fun r r' => ¬Pair cleanstart b r r'

def DistinctIds (rows : List PlugHist) : Prop := (rows.map PlugHist.id).Nodup

theorem Scanned.nil (cleanstart : Int) : Scanned cleanstart [] {} where
  held := by
    intro b hb
    exact absurd hb (Int.not_le.mpr (Int.negSucc_lt_zero 0))
  nonneg := by simp
  cleaned := by simp
  far := by simp
  paired := by simp

theorem codeBucket_of_far {cleanstart : Int} {hist : PlugHist} (h : Far cleanstart hist)
    : codeBucket cleanstart hist = none := by
  rw [Far, ← sampleAt_clean_iff] at h
  simp [codeBucket, h]

section

variable {cleanstart : Int} {pre : List PlugHist} {hist : PlugHist} {s : CleanScan}

theorem Scanned.not_listed (h : Scanned cleanstart pre s) (hnew : ∀ r ∈ pre, r.id ≠ hist.id)
    : hist.id ∉ s.cleanIdList := by
  intro hlisted
  obtain ⟨r, hr, hid, -⟩ := h.cleaned _ hlisted
  exact hnew r hr hid

theorem Scanned.paired_other (h : Scanned cleanstart pre s) {b : Int} {ids : List Int}
    (hother : codeBucket cleanstart hist ≠ some b)
    (hlisted : ∀ r ∈ pre, codeBucket cleanstart r = some b → (r.id ∈ ids ↔ r.id ∈ s.cleanIdList))
    : (∃ r ∈ pre ++ [hist], codeBucket cleanstart r = some b ∧ r.id ∈ ids)
      ↔ ¬(pre ++ [hist]).Pairwise fun r r' => ¬Pair cleanstart b r r' := by
  have hpair : ((pre ++ [hist]).Pairwise fun r r' => ¬Pair cleanstart b r r')
      ↔ pre.Pairwise fun r r' => ¬Pair cleanstart b r r' := by
    rw [List.pairwise_append]
    constructor
    . exact fun hall => hall.1
    . intro hpre
      refine ⟨hpre, List.pairwise_singleton _ _, ?_⟩
      intro r _ r' hr' hp
      rw [List.mem_singleton.mp hr'] at hp
      exact hother hp.2.1
  rw [hpair, ← h.paired b]
  constructor
  . rintro ⟨r, hr, hbucket, hid⟩
    rcases List.mem_append.mp hr with hr | hr
    . exact ⟨r, hr, hbucket, (hlisted r hr hbucket).mp hid⟩
    . rw [List.mem_singleton.mp hr] at hbucket
      exact absurd hbucket hother
  . rintro ⟨r, hr, hbucket, hid⟩
    exact ⟨r, List.mem_append_left _ hr, hbucket, (hlisted r hr hbucket).mpr hid⟩

theorem paired_of_held {b : Int} {ids : List Int} {r x : PlugHist} (hr : r ∈ pre)
    (hbucket : codeBucket cleanstart r = some b) (hsum : 0 ≤ r.sum)
    (hhist : codeBucket cleanstart hist = some b) (hx : x ∈ pre ++ [hist])
    (hxb : codeBucket cleanstart x = some b) (hlisted : x.id ∈ ids)
    : (∃ r ∈ pre ++ [hist], codeBucket cleanstart r = some b ∧ r.id ∈ ids)
      ↔ ¬(pre ++ [hist]).Pairwise fun r r' => ¬Pair cleanstart b r r' := by
  constructor
  . intro _ hall
    rw [List.pairwise_append] at hall
    exact hall.2.2 r hr hist (List.mem_singleton_self hist) ⟨hbucket, hhist, hsum⟩
  . intro _
    exact ⟨x, hx, hxb, hlisted⟩

theorem Scanned.keep (h : Scanned cleanstart pre s) (hbucket : codeBucket cleanstart hist = none)
    (hnear : ¬Far cleanstart hist)
    : Scanned cleanstart (pre ++ [hist]) s where
  held := by
    intro b hb
    obtain ⟨r, hr, hspec⟩ := h.held b hb
    exact ⟨r, List.mem_append_left _ hr, hspec⟩
  nonneg := by
    intro r hr b hrb hsum
    rcases List.mem_append.mp hr with hr | hr
    . exact h.nonneg r hr b hrb hsum
    . rw [List.mem_singleton.mp hr, hbucket] at hrb
      cases hrb
  cleaned := by
    intro id hid
    obtain ⟨r, hr, hspec⟩ := h.cleaned id hid
    exact ⟨r, List.mem_append_left _ hr, hspec⟩
  far := by
    intro r hr hfar
    rcases List.mem_append.mp hr with hr | hr
    . exact h.far r hr hfar
    . rw [List.mem_singleton.mp hr] at hfar
      exact absurd hfar hnear
  paired := by
    intro b
    apply h.paired_other
    . simp [hbucket]
    . exact fun _ _ _ => Iff.rfl

theorem Scanned.list (h : Scanned cleanstart pre s) (hnew : ∀ r ∈ pre, r.id ≠ hist.id)
    (hwhy : Far cleanstart hist ∨ ∃ b, codeBucket cleanstart hist = some b ∧ 0 ≤ s.minhourday b
      ∧ hist.sum ≤ s.minhourday b)
    : Scanned cleanstart (pre ++ [hist]) (s.list hist.id) where
  held := by
    intro b hb
    obtain ⟨r, hr, hrb, hsum, hid, hnot⟩ := h.held b hb
    refine ⟨r, List.mem_append_left _ hr, hrb, hsum, hid, ?_⟩
    simp [CleanScan.list, hnot, hnew r hr]
  nonneg := by
    intro r hr b hrb hsum
    rcases List.mem_append.mp hr with hr | hr
    . exact h.nonneg r hr b hrb hsum
    . rw [List.mem_singleton.mp hr] at hrb
      rcases hwhy with hfar | ⟨b', hbucket, hheld, -⟩
      . rw [codeBucket_of_far hfar] at hrb
        cases hrb
      . obtain rfl := Option.some.inj (hbucket.symm.trans hrb)
        exact hheld
  cleaned := by
    intro id hid
    rcases List.mem_append.mp hid with hid | hid
    . obtain ⟨r, hr, hspec⟩ := h.cleaned id hid
      exact ⟨r, List.mem_append_left _ hr, hspec⟩
    . rw [List.mem_singleton.mp hid]
      exact ⟨hist, by simp, rfl, hwhy⟩
  far := by
    intro r hr hrfar
    rcases List.mem_append.mp hr with hr | hr
    . exact List.mem_append_left _ (h.far r hr hrfar)
    . rw [List.mem_singleton.mp hr]
      exact List.mem_append_right _ (List.mem_singleton_self _)
  paired := by
    intro b
    by_cases hb : codeBucket cleanstart hist = some b
    . rcases hwhy with hfar | ⟨b', hbucket, hheld, -⟩
      . rw [codeBucket_of_far hfar] at hb
        cases hb
      . obtain rfl := Option.some.inj (hbucket.symm.trans hb)
        obtain ⟨r, hr, hrb, hrsum, -, -⟩ := h.held b' hheld
        apply paired_of_held hr hrb (hrsum ▸ hheld) hbucket (x := hist) (by simp) hbucket
        simp [CleanScan.list]
    . apply h.paired_other hb
      intro r hr _
      simp [CleanScan.list, hnew r hr]

/--
The sample becomes the remembered one of its index, in the place of another one if there is one.
-/
theorem Scanned.hold (h : Scanned cleanstart pre s) (hids : DistinctIds pre)
    (hnew : ∀ r ∈ pre, r.id ≠ hist.id) {b : Int} (hbucket : codeBucket cleanstart hist = some b)
    (hsum : 0 ≤ s.minhourday b → s.minhourday b ≤ hist.sum) {ids : List Int}
    (hlist : ∀ id, id ∈ ids ↔ id ∈ s.cleanIdList ∨ 0 ≤ s.minhourday b ∧ id = s.mhd_sample b)
    : Scanned cleanstart (pre ++ [hist]) ({ s with cleanIdList := ids }.hold b hist) := by
  have hother : ∀ r ∈ pre, codeBucket cleanstart r ≠ some b →
      (r.id ∈ ids ↔ r.id ∈ s.cleanIdList) := by
    intro r hr hrb
    rw [hlist, or_iff_left]
    rintro ⟨hheld, hid⟩
    obtain ⟨x, hx, hxb, -, hxid, -⟩ := h.held b hheld
    have hrx : r = x := List.inj_on_of_nodup_map hids hr hx (hid.trans hxid.symm)
    rw [hrx] at hrb
    exact hrb hxb
  have hunlisted : hist.id ∉ ids := by
    rw [hlist]
    rintro (hlisted | ⟨hheld, hid⟩)
    . exact h.not_listed hnew hlisted
    . obtain ⟨x, hx, -, -, hxid, -⟩ := h.held b hheld
      exact hnew x hx (hxid.trans hid.symm)
  constructor
  case held =>
    intro b' hb'
    simp only [CleanScan.hold] at hb' ⊢
    by_cases hb : b' = b
    . subst hb
      simp only [Function.update_self]
      exact ⟨hist, by simp, hbucket, rfl, rfl, hunlisted⟩
    . rw [Function.update_of_ne hb] at hb' ⊢
      rw [Function.update_of_ne hb]
      obtain ⟨r, hr, hrb, hrsum, hrid, hnot⟩ := h.held b' hb'
      refine ⟨r, List.mem_append_left _ hr, hrb, hrsum, hrid, ?_⟩
      rw [hother r hr]
      . exact hnot
      . rw [hrb]
        exact fun heq => hb (Option.some.inj heq)
  case nonneg =>
    intro r hr b' hrb hrsum
    simp only [CleanScan.hold]
    by_cases hb : b' = b
    . subst hb
      rw [Function.update_self]
      rcases List.mem_append.mp hr with hr | hr
      . have hheld := h.nonneg r hr b' hrb hrsum
        exact Int.le_trans hheld (hsum hheld)
      . rw [← List.mem_singleton.mp hr]
        exact hrsum
    . rw [Function.update_of_ne hb]
      rcases List.mem_append.mp hr with hr | hr
      . exact h.nonneg r hr b' hrb hrsum
      . rw [List.mem_singleton.mp hr] at hrb
        exact absurd (Option.some.inj (hrb.symm.trans hbucket)) hb
  case cleaned =>
    intro id hid
    simp only [CleanScan.hold] at hid ⊢
    rcases (hlist id).mp hid with hid | ⟨hheld, rfl⟩
    . obtain ⟨r, hr, hrid, hspec⟩ := h.cleaned id hid
      refine ⟨r, List.mem_append_left _ hr, hrid, hspec.imp_right ?_⟩
      rintro ⟨b', hrb, hheld, hle⟩
      refine ⟨b', hrb, ?_⟩
      by_cases hb : b' = b
      . subst hb
        rw [Function.update_self]
        have hmore := hsum hheld
        exact ⟨Int.le_trans hheld hmore, Int.le_trans hle hmore⟩
      . rw [Function.update_of_ne hb]
        exact ⟨hheld, hle⟩
    . obtain ⟨x, hx, hxb, hxsum, hxid, -⟩ := h.held b hheld
      refine ⟨x, List.mem_append_left _ hx, hxid, .inr ⟨b, hxb, ?_⟩⟩
      rw [Function.update_self, hxsum]
      exact ⟨Int.le_trans hheld (hsum hheld), hsum hheld⟩
  case far =>
    intro r hr hrfar
    rcases List.mem_append.mp hr with hr | hr
    . exact (hlist r.id).mpr (.inl (h.far r hr hrfar))
    . rw [List.mem_singleton.mp hr] at hrfar
      rw [codeBucket_of_far hrfar] at hbucket
      cases hbucket
  case paired =>
    intro b'
    simp only [CleanScan.hold]
    by_cases hb : b' = b
    . subst hb
      by_cases hheld : 0 ≤ s.minhourday b'
      . obtain ⟨x, hx, hxb, hxsum, hxid, -⟩ := h.held b' hheld
        apply paired_of_held hx hxb (hxsum ▸ hheld) hbucket (List.mem_append_left _ hx) hxb
        exact (hlist x.id).mpr (.inr ⟨hheld, hxid⟩)
      -- No sample of this index counts yet
      . have hnone : ∀ r ∈ pre, ∀ r', ¬Pair cleanstart b' r r' := by
          intro r hr r' hpair
          exact hheld (h.nonneg r hr b' hpair.1 hpair.2.2)
        have hpre : pre.Pairwise fun r r' => ¬Pair cleanstart b' r r' :=
          List.pairwise_of_forall_mem_list fun r hr r' _ => hnone r hr r'
        constructor
        . rintro ⟨r, hr, hrb, hlisted⟩
          rcases List.mem_append.mp hr with hr | hr
          . rw [hlist, or_iff_left (fun hand => hheld hand.1)] at hlisted
            exact absurd hpre ((h.paired b').mp ⟨r, hr, hrb, hlisted⟩)
          . rw [List.mem_singleton.mp hr] at hlisted
            exact absurd hlisted hunlisted
        . intro hpairs
          exfalso
          apply hpairs
          rw [List.pairwise_append]
          exact ⟨hpre, List.pairwise_singleton _ _, fun r hr r' _ => hnone r hr r'⟩
    . apply h.paired_other
      . rw [hbucket]
        exact fun heq => hb (Option.some.inj heq).symm
      . intro r hr hrb
        apply hother r hr
        rw [hrb]
        exact fun heq => hb (Option.some.inj heq)

theorem Scanned.next {s' : CleanScan} (h : Scanned cleanstart pre s) (hids : DistinctIds pre)
    (hnew : ∀ r ∈ pre, r.id ≠ hist.id) (hstep : CleanStep cleanstart hist s s')
    : Scanned cleanstart (pre ++ [hist]) s' := by
  cases hstep with
  | keep hbucket hnear => exact h.keep hbucket hnear
  | far hfar => exact h.list hnew (.inl hfar)
  | first b hbucket hfree =>
    have hnot := Int.not_le.mpr hfree
    apply h.hold hids hnew hbucket
    . intro hheld
      exact absurd hheld hnot
    . simp [hnot]
  | supersedes b hbucket hheld hsum =>
    apply h.hold hids hnew hbucket
    . exact fun _ => hsum
    . simp [hheld]
  | superseded b hbucket hheld hsum =>
    exact h.list hnew (.inr ⟨b, hbucket, hheld, Int.le_of_lt hsum⟩)

end

theorem Scanned.ready {cleanstart : Int} {pre : List PlugHist} {s : CleanScan}
    (h : Scanned cleanstart pre s) (hpos : ∀ r ∈ pre, 0 ≤ r.id)
    (hshort : s.cleanIdList.length < MAXCLEANIDLIST)
    : Ready s where
  short := hshort
  held := by
    intro b hb
    obtain ⟨r, hr, -, -, hid, -⟩ := h.held b hb
    rw [← hid]
    exact hpos r hr

/--
The scan stops before the end only with a full list.
-/
theorem Scanned.loop {cleanstart : Int} {pre : List PlugHist} {s : CleanScan}
    (h : Scanned cleanstart pre s) (rows : List PlugHist) (hids : DistinctIds (pre ++ rows))
    (hpos : ∀ r ∈ pre ++ rows, 0 ≤ r.id) (hshort : s.cleanIdList.length < MAXCLEANIDLIST)
    : ∃ scanned rest, pre ++ rows = scanned ++ rest
        ∧ Scanned cleanstart scanned (loopRows (plugCleanPrepareCb cleanstart) rows s).1
        ∧ ((loopRows (plugCleanPrepareCb cleanstart) rows s).1.cleanIdList.length < MAXCLEANIDLIST
          → rest = []) := by
  induction rows generalizing pre s with
  | nil => exact ⟨pre, [], rfl, h, fun _ => rfl⟩
  | cons hist rows ih =>
    have hids' : DistinctIds pre ∧ ∀ r ∈ pre, r.id ≠ hist.id := by
      rw [DistinctIds, List.map_append, List.nodup_append] at hids
      refine ⟨hids.1, ?_⟩
      intro r hr
      exact hids.2.2 r.id (List.mem_map_of_mem hr) hist.id (by simp)
    have hready := h.ready (fun r hr => hpos r (List.mem_append_left _ hr)) hshort
    obtain ⟨s', hstep, hcb⟩ := plugCleanPrepareCb_spec cleanstart hready
      (hpos hist (by simp))
    have hnext := h.next hids'.1 hids'.2 hstep
    rw [loopRows, hcb]
    by_cases hshort' : s'.cleanIdList.length < MAXCLEANIDLIST
    . simp only [hshort', decide_true]
      rw [List.append_cons] at hids hpos ⊢
      exact ih hnext hids hpos hshort'
    . simp only [hshort', decide_false]
      refine ⟨pre ++ [hist], rows, by simp, hnext, ?_⟩
      rintro ⟨⟩

end NewDb
