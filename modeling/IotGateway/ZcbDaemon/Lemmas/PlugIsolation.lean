import IotGateway.Lib.Machine
import IotGateway.NewDb.Lemmas.Edit
import IotGateway.ZcbDaemon.Impl.Plug
import IotGateway.ZcbDaemon.Lemmas.Nodes

/-!
This module compares what is stored for a plug with what would be stored if no other plug reported
anything. All plugs share the variables in which the attributes are collected.
-/

namespace ZcbDaemon.Plug

open NewDb Table Machine

def step (s : State) (r : Report) : State × List Unit := (handleAttribute r s, [])

/--
The power and the energy sum in the row of a plug.
-/
def stored (db : Db) (plug : UInt64) : Option (Int × Int) :=
  (newDbGetDevice db (macOf plug)).map fun dev => (dev.act, dev.sum)

/--
The values that have been reported last.
-/
def lastValues (reports : List Report) : Meter :=
  reports.foldl (fun m r => m.assign r.u16AttributeID r.u64Data) {}

section

variable {db db' : Db} {mac : Text}

theorem newDbGetDevice_congr (mac : String) (h : db.devices = db'.devices)
    : newDbGetDevice db mac = newDbGetDevice db' mac := by
  unfold newDbGetDevice
  rw [h]

theorem newDbGetMatchingOrNewPlugHist_devices (db : Db) (mac : String) (min now : Int)
    : (newDbGetMatchingOrNewPlugHist db mac min now).1.devices = db.devices := by
  unfold newDbGetMatchingOrNewPlugHist
  simp only
  split
  . rfl
  . rfl

theorem newDbSetPlugHist_devices (db : Db) (hist : PlugHist) (now : Int)
    : (newDbSetPlugHist db hist now).1.devices = db.devices := by
  unfold newDbSetPlugHist
  split
  . rfl
  . rfl

theorem deleteAll_devices (ids : List Int) (clock : Nat → Int) (db : Db)
    : (deleteAll ids clock db).devices = db.devices := by
  induction ids generalizing clock db with
  | nil => rfl
  | cons id ids ih =>
    have hdelete : (newDbDeletePlugHist db id (clock 0)).1.devices = db.devices := by
      unfold newDbDeletePlugHist
      split
      . rfl
      . rfl
    rw [deleteAll]
    split
    . next db' heq =>
      rw [ih, ← hdelete, heq]
    . next db' heq =>
      rw [← hdelete, heq]

theorem plugHistoryCleanup_devices (mac : String) (now : Int) (clock : Nat → Int) (db : Db)
    : (plugHistoryCleanup mac now clock db).1.devices = db.devices :=
  deleteAll_devices _ clock db

/--
The history is in a table of its own.
-/
theorem store_devices (db : Db) (mac : Text) (eInstDemand eSumDeliv : Int) (clock : Clock)
    (cleanupCnt : Int)
    : (store mac eInstDemand eSumDeliv clock cleanupCnt db).2.devices
      = ((ZcbDaemon.handlePlugData mac eInstDemand eSumDeliv).run clock.setDevice clock.setDevice
          db).1.devices := by
  unfold store Edit.run
  cases hget : newDbGetDevice db mac with
  | none => simp [ZcbDaemon.handlePlugData, hget]
  | some device =>
    simp only [ZcbDaemon.handlePlugData, hget]
    generalize (newDbSetDevice db _ clock.setDevice).1 = db₁
    have hhist := newDbGetMatchingOrNewPlugHist_devices db₁ mac (Int.tdiv clock.now 60)
      clock.getPlugHist
    split
    . next db₂ hnew =>
      rw [hnew] at hhist
      exact hhist
    . next db₂ plughist hnew =>
      rw [hnew] at hhist
      have hset := newDbSetPlugHist_devices db₂ { plughist with sum := eSumDeliv } clock.setPlugHist
      generalize (newDbSetPlugHist db₂ _ clock.setPlugHist).1 = db₃ at hset
      have hclean := plugHistoryCleanup_devices mac clock.now clock.delete db₃
      split
      . split
        . next db₄ hcall =>
          rw [hcall] at hclean
          exact hclean.trans (hset.trans hhist)
        . next db₄ hcall =>
          rw [hcall] at hclean
          exact hclean.trans (hset.trans hhist)
      . exact hset.trans hhist

theorem macOf_length (u64IEEEAddress : UInt64)
    : (macOf u64IEEEAddress).1.toList.length ≤ LEN_MAC_NIBBLE :=
  Nat.le_of_eq (u642nibblestr_length u64IEEEAddress)

theorem macOf_ne {plug plug' : UInt64} (h : plug ≠ plug') : (macOf plug).1 ≠ (macOf plug').1 :=
  fun heq => h (u642nibblestr_inj heq)

theorem stored_store (hindexed : Indexed db) (plug plug' : UInt64) (eInstDemand eSumDeliv : Int)
    (clock : Clock) (cleanupCnt : Int)
    : Indexed (store (macOf plug) eInstDemand eSumDeliv clock cleanupCnt db).2
        ∧ stored (store (macOf plug) eInstDemand eSumDeliv clock cleanupCnt db).2 plug'
          = if plug' = plug then (stored db plug).map fun _ => (eInstDemand, eSumDeliv)
            else stored db plug' := by
  have hdevices := store_devices db (macOf plug) eInstDemand eSumDeliv clock cleanupCnt
  generalize hdb' : (store (macOf plug) eInstDemand eSumDeliv clock cleanupCnt db).2 = db' at hdevices ⊢
  have hindexed' : ∀ db : Db, Indexed db → db'.devices = db.devices → Indexed db' := by
    intro db hdb heq i
    rw [heq]
    exact hdb i
  unfold stored
  cases hrow : first (· == (macOf plug).1) db.macs with
  | none =>
    have hmissing := (ZcbDaemon.handlePlugData (macOf plug) eInstDemand eSumDeliv).run_missing
      clock.setDevice clock.setDevice hrow (.inl rfl)
    rw [hmissing] at hdevices
    refine ⟨hindexed' db hindexed hdevices, ?_⟩
    have hget : newDbGetDevice db (macOf plug) = none := Option.map_eq_none_iff.mpr hrow
    rw [newDbGetDevice_congr _ hdevices]
    split
    . next heq => rw [heq, hget, Option.map_none, Option.map_none]
    . rfl
  | some i =>
    obtain ⟨-, hwritten⟩ := (ZcbDaemon.handlePlugData (macOf plug) eInstDemand eSumDeliv).run_found
      clock.setDevice clock.setDevice hindexed hrow rfl
    refine ⟨hindexed' _ hwritten.indexed hdevices, ?_⟩
    have hmacs : db'.macs = db.macs := by
      have hplace : _ = place "" db.macs (macOf plug) := hwritten.macs
      rw [place_of_mem hrow] at hplace
      rw [← hplace]
      funext j
      simp only [Db.macs, hdevices]
    split
    . next heq =>
      subst heq
      have hget : newDbGetDevice db (macOf plug') = some (db.devices i) :=
        newDbGetDevice_eq_some_iff.mpr ⟨i, hrow, rfl⟩
      have hget' : newDbGetDevice db' (macOf plug') = some (db'.devices i) :=
        newDbGetDevice_eq_some_iff.mpr ⟨i, by rw [hmacs]; exact hrow, rfl⟩
      rw [hget, hget', hdevices, hwritten.device]
      rfl
    . next hne =>
      cases hrow' : first (· == (macOf plug').1) db.macs with
      | none =>
        have hget : newDbGetDevice db (macOf plug') = none := Option.map_eq_none_iff.mpr hrow'
        have hget' : newDbGetDevice db' (macOf plug') = none := by
          apply Option.map_eq_none_iff.mpr
          exact (congrArg _ hmacs).trans hrow'
        rw [hget, hget']
      | some j =>
        have hget : newDbGetDevice db (macOf plug') = some (db.devices j) :=
          newDbGetDevice_eq_some_iff.mpr ⟨j, hrow', rfl⟩
        have hget' : newDbGetDevice db' (macOf plug') = some (db'.devices j) :=
          newDbGetDevice_eq_some_iff.mpr ⟨j, by rw [hmacs]; exact hrow', rfl⟩
        have hji : j ≠ i := by
          rintro rfl
          exact macOf_ne hne ((first_key hrow').symm.trans (first_key hrow))
        rw [hget, hget', hdevices, hwritten.others j hji]

end

section

variable {s : State} {plug : UInt64} {r : Report}

theorem Indexed.handleAttribute (hindexed : Indexed s.db) (r : Report)
    : Indexed (handleAttribute r s).db := by
  unfold Plug.handleAttribute Plug.handlePlugData
  simp only
  split
  . split
    . exact hindexed
    . exact (stored_store hindexed r.u64IEEEAddress r.u64IEEEAddress _ _ _ _).1
  . exact hindexed

theorem stored_handleAttribute (hindexed : Indexed s.db) (plug : UInt64) (r : Report)
    : stored (handleAttribute r s).db plug
      = if r.u64IEEEAddress = plug ∧ r.u16AttributeID = E_ZB_ATTRIBUTEID_SM_INSTANTANEOUS_DEMAND then
          (stored s.db plug).map (handleAttribute r s).meter.reading.getD
        else
          stored s.db plug := by
  have hmeter : (handleAttribute r s).meter = s.meter.assign r.u16AttributeID r.u64Data := by
    unfold handleAttribute
    split
    . rfl
    . rfl
  rw [hmeter]
  by_cases hdemand : r.u16AttributeID = E_ZB_ATTRIBUTEID_SM_INSTANTANEOUS_DEMAND
  . unfold handleAttribute handlePlugData
    simp only [if_pos hdemand]
    cases hreading : (s.meter.assign r.u16AttributeID r.u64Data).reading with
    | none =>
      have hsame : (stored s.db plug).map (none : Option (Int × Int)).getD = stored s.db plug :=
        Option.map_id'
      rw [hsame, ite_self]
    | some reading =>
      obtain ⟨-, hstored⟩ := stored_store hindexed r.u64IEEEAddress plug reading.1 reading.2 r.clock
        s.cleanupCnt
      simp only
      rw [hstored]
      by_cases hplug : r.u64IEEEAddress = plug
      . subst hplug
        rw [if_pos rfl, if_pos ⟨rfl, hdemand⟩]
        rfl
      . rw [if_neg (Ne.symm hplug), if_neg fun h => hplug h.1]
  . unfold handleAttribute
    simp only [if_neg hdemand]
    rw [if_neg fun h => hdemand h.2]

end

theorem exec_indexed {db : Db} (hindexed : Indexed db) (reports : List Report)
    : Indexed (exec step { db } reports).db := by
  induction reports using List.reverseRecOn with
  | nil => exact hindexed
  | append_singleton reports r ih =>
    rw [exec_append]
    exact Indexed.handleAttribute ih r

theorem exec_meter (db : Db) (reports : List Report)
    : (exec step { db } reports).meter = lastValues reports := by
  induction reports using List.reverseRecOn with
  | nil => rfl
  | append_singleton reports r ih =>
    rw [exec_append, lastValues, List.foldl_append, ← lastValues, ← ih]
    simp only [exec_cons, exec_nil, step, List.foldl_cons, List.foldl_nil, handleAttribute]
    split
    . rfl
    . rfl

theorem stored_exec_append {db : Db} (hindexed : Indexed db) (plug : UInt64) (reports : List Report)
    (r : Report)
    : stored (exec step { db } (reports ++ [r])).db plug
      = if r.u64IEEEAddress = plug ∧ r.u16AttributeID = E_ZB_ATTRIBUTEID_SM_INSTANTANEOUS_DEMAND then
          (stored (exec step { db } reports).db plug).map
            (lastValues (reports ++ [r])).reading.getD
        else
          stored (exec step { db } reports).db plug := by
  have hstep := stored_handleAttribute (exec_indexed hindexed reports) plug r
  rw [← exec_meter db, exec_append]
  exact hstep

/--
Two plugs that have joined.
-/
def plugs : Db where
  devices := fun i =>
    if i = 0 then
      { id := 0, mac := u642nibblestr 0x00158D0000350F30, dev := DEVICE_DEV_PLUG }
    else if i = 1 then
      { id := 1, mac := u642nibblestr 0x00158D0000350F31, dev := DEVICE_DEV_PLUG }
    else
      { id := i }

def report (u64IEEEAddress : UInt64) (u16AttributeID : UInt16) (u64Data : UInt64) : Report where
  u64IEEEAddress
  u16AttributeID
  u64Data
  clock :=
    { setDevice := 60, now := 60, getPlugHist := 60, setPlugHist := 60, delete := fun _ => 60 }

end ZcbDaemon.Plug
