import IotGateway.Lib.Machine
import IotGateway.NewDb.Lemmas.PlugHist
import IotGateway.ZcbDaemon.Lemmas.PlugIsolation

/-!
This module contains what the reports of the plugs do to their history.
-/

namespace ZcbDaemon.Plug

open NewDb Machine

/--
There is one live row at most for a plug and a minute.
-/
def UniquePerMinute (t : PlugHistory) : Prop :=
  ∀ i j, (t i).mac ≠ "" → (t i).mac = (t j).mac →
    minuteOf (t i).lastupdate = minuteOf (t j).lastupdate → i = j

/--
A history up to the time `time`.
-/
structure HistoryUntil (time : Int) (t : PlugHistory) : Prop where
  nonneg : 0 ≤ time
  indexed : HistIndexed t
  past : ∀ i, (t i).mac ≠ "" → 0 ≤ (t i).lastupdate ∧ (t i).lastupdate ≤ time
  unique : UniquePerMinute t

/--
A call of `handlePlugData`. The variables have any values.
-/
structure Call where
  u64IEEEAddress : UInt64
  meter : Meter
  clock : Clock

def callStep (s : Int × Db) (c : Call) : (Int × Db) × List Unit :=
  (handlePlugData c.u64IEEEAddress c.meter c.clock s.1 s.2, [])

/--
The clock does not go back in a call.
-/
structure Clock.Steady (c : Clock) (time : Int) : Prop where
  start : time ≤ c.setDevice
  now : c.setDevice ≤ c.now
  getPlugHist : c.now ≤ c.getPlugHist
  setPlugHist : c.getPlugHist ≤ c.setPlugHist

/--
Nor does it between the calls.
-/
def SteadyFrom (time : Int) : List Call → Prop
  | [] => True
  | c :: calls => c.clock.Steady time ∧ SteadyFrom c.clock.setPlugHist calls

/--
The sum is stored in the row of the plug that has been chosen for it, first with a sum of 0. Then the
cleanup may delete rows of this plug.
-/
def StoredIn (mac : Text) (sum : Int) (clock : Clock) (t t' : PlugHistory) : Prop :=
  ∃ i, Chosen mac (minuteOf clock.now) t i
    ∧ UniquePerMinute (Function.update t i (sample i mac 0 clock.getPlugHist))
    ∧ UniquePerMinute (Function.update t i (sample i mac sum clock.setPlugHist))
    ∧ ∀ j, t' j = Function.update t i (sample i mac sum clock.setPlugHist) j
      ∨ (Function.update t i (sample i mac sum clock.setPlugHist) j).mac = mac
        ∧ t' j = { Function.update t i (sample i mac sum clock.setPlugHist) j with mac := "" }

theorem minuteOf_mono {a b : Int} (ha : 0 ≤ a) (hab : a ≤ b) : minuteOf a ≤ minuteOf b := by
  unfold minuteOf
  rw [Int.tdiv_eq_ediv_of_nonneg ha, Int.tdiv_eq_ediv_of_nonneg (Int.le_trans ha hab)]
  omega

section

variable {time now later sum : Int} {t t' : PlugHistory} {mac : Text} {i : Fin NEWDB_MAX_PLUGHIST}

/--
A minute that begins between the search and the store has no row of the plug yet.
-/
theorem HistoryUntil.write (h : HistoryUntil time t) (hchosen : Chosen mac (minuteOf now) t i)
    (hnow : time ≤ now) (hlater : now ≤ later) (sum : Int)
    : HistoryUntil later (Function.update t i (sample i mac sum later)) := by
  have hpos : 0 ≤ later := Int.le_trans h.nonneg (Int.le_trans hnow hlater)
  have honly : ∀ j, j ≠ i → (t j).mac = mac →
      minuteOf later ≠ minuteOf (t j).lastupdate := by
    intro j hji hmac hminute
    have hlive : (t j).mac ≠ "" := by
      rw [hmac]
      exact mac.2
    obtain ⟨hjpos, hjtime⟩ := h.past j hlive
    have hbelow := minuteOf_mono hjpos (Int.le_trans hjtime hnow)
    have habove := minuteOf_mono (Int.le_trans h.nonneg hnow) hlater
    have hmatch : Matches mac (minuteOf now) (t j) := ⟨by omega, hmac⟩
    obtain ⟨himinute, himac⟩ := hchosen.matching j hmatch
    apply hji
    apply h.unique j i hlive
    . rw [hmac, himac]
    . rw [hmatch.1, himinute]
  constructor
  case nonneg => exact hpos
  case indexed =>
    intro j
    by_cases hji : j = i
    . rw [hji, Function.update_self]
      rfl
    . rw [Function.update_of_ne hji]
      exact h.indexed j
  case past =>
    intro j
    by_cases hji : j = i
    . rw [hji, Function.update_self]
      exact fun _ => ⟨hpos, Int.le_refl _⟩
    . rw [Function.update_of_ne hji]
      intro hlive
      obtain ⟨hjpos, hjtime⟩ := h.past j hlive
      exact ⟨hjpos, Int.le_trans hjtime (Int.le_trans hnow hlater)⟩
  case unique =>
    intro a b
    by_cases ha : a = i
    . subst ha
      by_cases hb : b = a
      . exact fun _ _ _ => hb.symm
      . rw [Function.update_self, Function.update_of_ne hb]
        intro _ hmac hminute
        exact absurd hminute (honly b hb hmac.symm)
    . rw [Function.update_of_ne ha]
      by_cases hb : b = i
      . subst hb
        rw [Function.update_self]
        intro _ hmac hminute
        exact absurd hminute.symm (honly a ha hmac)
      . rw [Function.update_of_ne hb]
        exact h.unique a b

theorem HistoryUntil.delete (h : HistoryUntil time t)
    (hdeleted : ∀ j, t' j = t j ∨ (t j).mac = mac ∧ t' j = { t j with mac := "" })
    : HistoryUntil time t' := by
  have hlive : ∀ j, (t' j).mac ≠ "" → t' j = t j := by
    intro j hj
    rcases hdeleted j with heq | ⟨-, heq⟩
    . exact heq
    . rw [heq] at hj
      exact absurd rfl hj
  constructor
  case nonneg => exact h.nonneg
  case indexed =>
    intro j
    rcases hdeleted j with heq | ⟨-, heq⟩
    . rw [heq]
      exact h.indexed j
    . rw [heq]
      exact h.indexed j
  case past =>
    intro j hj
    have heq := hlive j hj
    rw [heq] at hj ⊢
    exact h.past j hj
  case unique =>
    intro a b ha hmac
    have hb : (t' b).mac ≠ "" := hmac ▸ ha
    have haeq := hlive a ha
    have hbeq := hlive b hb
    rw [haeq] at ha hmac ⊢
    rw [hbeq] at hmac ⊢
    exact h.unique a b ha hmac

end

theorem newDbSetDevice_plughist (db : Db) (dev : Device) (now : Int)
    : (newDbSetDevice db dev now).1.plughist = db.plughist := by
  unfold newDbSetDevice
  split
  . rfl
  . rfl

section

variable {time : Int} {db : Db} {plug : UInt64} {clock : Clock}

theorem store_spec (h : HistoryUntil time db.plughist) (hclock : clock.Steady time) {device : Device}
    (hdevice : newDbGetDevice db (macOf plug) = some device) (eInstDemand eSumDeliv cleanupCnt : Int)
    : StoredIn (macOf plug) eSumDeliv clock db.plughist
        (store (macOf plug) eInstDemand eSumDeliv clock cleanupCnt db).2.plughist := by
  have hnow := Int.le_trans hclock.start hclock.now
  have hset := Int.le_trans hclock.getPlugHist hclock.setPlugHist
  simp only [store, hdevice]
  generalize hdb₁ : (newDbSetDevice db _ clock.setDevice).1 = db₁
  have hsame : db₁.plughist = db.plughist := by
    rw [← hdb₁, newDbSetDevice_plughist]
  rw [← hsame] at h ⊢
  obtain ⟨i, db₂, hchosen, hget, hplaced⟩ := newDbGetMatchingOrNewPlugHist_spec
    (fun j hj => (h.past j hj).1) (macOf_length plug) (minuteOf clock.now) clock.getPlugHist
  rw [minuteOf] at hget
  simp only [hget]
  have hwritten := h.write hchosen hnow hset eSumDeliv
  have hstored : (newDbSetPlugHist db₂ (sample i (macOf plug) eSumDeliv clock.getPlugHist)
      clock.setPlugHist).1.plughist
      = Function.update db₁.plughist i (sample i (macOf plug) eSumDeliv clock.setPlugHist) := by
    rw [newDbSetPlugHist_plughist, hplaced, Function.update_idem]
  refine ⟨i, hchosen, (h.write hchosen hnow hclock.getPlugHist 0).unique, hwritten.unique, ?_⟩
  rw [← hstored] at hwritten ⊢
  have hsample : { sample i (macOf plug) 0 clock.getPlugHist with sum := eSumDeliv }
      = sample i (macOf plug) eSumDeliv clock.getPlugHist := rfl
  rw [hsample]
  generalize (newDbSetPlugHist db₂ _ clock.setPlugHist).1 = db₃ at hwritten ⊢
  have hcleaned : ∀ j, (plugHistoryCleanup (macOf plug) clock.now clock.delete db₃).1.plughist j
      = db₃.plughist j ∨ (db₃.plughist j).mac = (macOf plug)
        ∧ (plugHistoryCleanup (macOf plug) clock.now clock.delete db₃).1.plughist j
          = { db₃.plughist j with mac := "" } := by
    intro j
    rcases thinned_plugHistoryCleanup (macOf plug) clock.now hwritten.indexed clock.delete j with
      heq | ⟨hmac, heq, -⟩
    . exact .inl heq
    . exact .inr ⟨hmac, heq⟩
  split
  . split
    . next db₄ hcall =>
      rw [hcall] at hcleaned
      exact hcleaned
    . next db₄ hcall =>
      rw [hcall] at hcleaned
      exact hcleaned
  . exact fun j => .inl rfl

theorem StoredIn.historyUntil {mac : Text} {sum : Int} {t t' : PlugHistory} (h : HistoryUntil time t)
    (hclock : clock.Steady time) (hstored : StoredIn mac sum clock t t')
    : HistoryUntil clock.setPlugHist t' := by
  obtain ⟨i, hchosen, -, -, hdeleted⟩ := hstored
  have hnow := Int.le_trans hclock.start hclock.now
  have hset := Int.le_trans hclock.getPlugHist hclock.setPlugHist
  exact (h.write hchosen hnow hset sum).delete hdeleted

theorem HistoryUntil.later {t : PlugHistory} (h : HistoryUntil time t) {time' : Int}
    (hle : time ≤ time')
    : HistoryUntil time' t where
  nonneg := Int.le_trans h.nonneg hle
  indexed := h.indexed
  past := fun j hj => ⟨(h.past j hj).1, Int.le_trans (h.past j hj).2 hle⟩
  unique := h.unique

/--
What a call does to the history.
-/
def CallSpec (c : Call) (db db' : Db) : Prop :=
  match c.meter.reading, newDbGetDevice db (macOf c.u64IEEEAddress) with
  | some (_, eSumDeliv), some _ =>
    StoredIn (macOf c.u64IEEEAddress) eSumDeliv c.clock db.plughist db'.plughist
  | _, _ => db'.plughist = db.plughist

theorem call_spec {c : Call} (cleanupCnt : Int) (h : HistoryUntil time db.plughist)
    (hclock : c.clock.Steady time)
    : CallSpec c db (callStep (cleanupCnt, db) c).1.2
        ∧ HistoryUntil c.clock.setPlugHist (callStep (cleanupCnt, db) c).1.2.plughist := by
  have hlater : time ≤ c.clock.setPlugHist :=
    Int.le_trans hclock.start (Int.le_trans hclock.now
      (Int.le_trans hclock.getPlugHist hclock.setPlugHist))
  unfold CallSpec callStep handlePlugData
  simp only
  cases hreading : c.meter.reading with
  | none => exact ⟨rfl, h.later hlater⟩
  | some reading =>
    cases hdevice : newDbGetDevice db (macOf c.u64IEEEAddress) with
    | none =>
      simp only [store, hdevice]
      exact ⟨trivial, h.later hlater⟩
    | some device =>
      have hstored := store_spec h hclock hdevice reading.1 reading.2 cleanupCnt
      exact ⟨hstored, hstored.historyUntil h hclock⟩

end

/--
In every run each call stores its sum in the row that is chosen for it and keeps all other rows, but
for those that are cleaned up, and no plug ever has two rows for a minute.
-/
theorem handlePlugData_history (db : Db) (time cleanupCnt : Int) (calls : List Call)
    (h : HistoryUntil time db.plughist) (hsteady : SteadyFrom time calls)
    : ∀ before c after, calls = before ++ c :: after →
        UniquePerMinute (exec callStep (cleanupCnt, db) before).2.plughist
          ∧ UniquePerMinute (exec callStep (cleanupCnt, db) (before ++ [c])).2.plughist
          ∧ CallSpec c (exec callStep (cleanupCnt, db) before).2
            (exec callStep (cleanupCnt, db) (before ++ [c])).2 := by
  induction calls generalizing db time cleanupCnt with
  | nil =>
    intro before c after hcalls
    exact absurd hcalls (by simp)
  | cons first calls ih =>
    obtain ⟨hclock, hrest⟩ := hsteady
    obtain ⟨hspec, hnext⟩ := call_spec cleanupCnt h hclock
    rintro (_ | ⟨first', before⟩) c after hcalls
    . obtain ⟨rfl, rfl⟩ := List.cons.inj hcalls
      exact ⟨h.unique, hnext.unique, hspec⟩
    . obtain ⟨rfl, htail⟩ := List.cons.inj hcalls
      exact ih _ _ _ hnext hrest before c after htail

def call (u64IEEEAddress eSummationDelivered : UInt64) (time : Int) : Call where
  u64IEEEAddress
  meter :=
    { eSummationDelivered, eMeteringDeviceType := 0, eUnitOfMeasure := 0, eMultiplier := 1,
      eDivisor := 1000 }
  -- A minute passes between the search and the store
  clock :=
    { setDevice := time, now := time, getPlugHist := time + 60, setPlugHist := time + 60,
      delete := fun _ => time + 60 }

def joined : Db := { Db.init with devices := plugs.devices }

theorem handlePlugData_history_joined
    : UniquePerMinute (exec callStep (0, joined) [call 0x00158D0000350F30 5 600]).2.plughist
        ∧ UniquePerMinute (exec callStep (0, joined)
          ([call 0x00158D0000350F30 5 600] ++ [call 0x00158D0000350F31 7 700])).2.plughist
        ∧ CallSpec (call 0x00158D0000350F31 7 700)
          (exec callStep (0, joined) [call 0x00158D0000350F30 5 600]).2
          (exec callStep (0, joined)
            ([call 0x00158D0000350F30 5 600] ++ [call 0x00158D0000350F31 7 700])).2 := by
  apply handlePlugData_history joined 0 0
    [call 0x00158D0000350F30 5 600, call 0x00158D0000350F31 7 700]
  . constructor
    . exact Int.le_refl 0
    . exact fun _ => rfl
    . exact fun _ hlive => absurd rfl hlive
    . exact fun _ _ hlive => absurd rfl hlive
  . refine ⟨⟨?_, ?_, ?_, ?_⟩, ⟨?_, ?_, ?_, ?_⟩, trivial⟩ <;> decide
  . rfl

end ZcbDaemon.Plug
