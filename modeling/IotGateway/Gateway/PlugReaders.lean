import IotGateway.Lib.Machine
import IotGateway.NewDb.Lemmas.PlugHist
import IotGateway.ZcbDaemon.Lemmas.PlugIsolation

/-!
This module contains the ZCB daemon as it stores readings of plugs, and the processes that read the
history of a plug meanwhile. Each access of the history is a critical section of its own.
-/

namespace Gateway.PlugReaders

open NewDb ZcbDaemon.Plug

/--
A writer has got a row and is about to store `copy`. What is `reported` and `seen`, and the rows
that have been got and not been stored, are only remembered.
-/
structure World where
  db : Db
  copy : Nat → Option PlugHist := fun _ => none
  waiting : Fin NEWDB_MAX_PLUGHIST → Bool := fun _ => false
  reported : List (Text × Int) := []
  seen : List (Text × Int) := []

inductive Event where
  -- The steps of `handlePlugData`
  | getPlugHist (p : Nat) (u64IEEEAddress : UInt64) (eSumDeliv min now : Int)
  | setPlugHist (p : Nat) (now : Int)
  -- A writer dies, and another one takes its place
  | die (p : Nat)
  | deletePlugHist (id now : Int)
  | emptyPlugHist (now : Int)
  | read (u64IEEEAddress : UInt64)

/--
All call-backs of the readers go on with the next row.
-/
def seeSum (hist : PlugHist) (sums : List Int) : List Int × Bool := (sums ++ [hist.sum], true)

/--
An event of a writer that is not possible where it stands does nothing.
-/
def World.next (s : World) : Event → World
  | .getPlugHist p u64IEEEAddress eSumDeliv min now =>
    match s.copy p with
    | some _ => s
    | none =>
      let reported := s.reported ++ [(macOf u64IEEEAddress, eSumDeliv)]
      match newDbGetMatchingOrNewPlugHist s.db (macOf u64IEEEAddress) min now with
      | (db, none) => { s with db, reported }
      | (db, some plughist) =>
        { s with
          db
          copy := Function.update s.copy p (some { plughist with sum := eSumDeliv })
          waiting := fun i => s.waiting i || i = plughist.id
          reported }
  | .setPlugHist p now =>
    match s.copy p with
    | some plughist =>
      { s with
        db := (newDbSetPlugHist s.db plughist now).1
        copy := Function.update s.copy p none
        waiting := fun i => s.waiting i && i ≠ plughist.id }
    | none => s
  | .die p => { s with copy := Function.update s.copy p none }
  | .deletePlugHist id now => { s with db := (newDbDeletePlugHist s.db id now).1 }
  | .emptyPlugHist now => { s with db := newDbEmptyPlugHist s.db now }
  | .read u64IEEEAddress =>
    let sums := (newDbLoopPlugHist s.db (macOf u64IEEEAddress) seeSum []).1
    { s with seen := s.seen ++ sums.map fun sum => (macOf u64IEEEAddress, sum) }

def step (s : World) (e : Event) : World × List Unit := (s.next e, [])

/--
Every sum that has been seen for a plug has been reported by it.
-/
def SeesReported (s : World) : Prop := ∀ x ∈ s.seen, x ∈ s.reported

/--
A plug is read while none of its rows waits to be stored, or it has reported the sum 0.
-/
def Settled (s : World) : Event → Prop
  | .read u64IEEEAddress =>
    (∃ i, s.waiting i = true ∧ (s.db.plughist i).mac = macOf u64IEEEAddress) →
      (macOf u64IEEEAddress, 0) ∈ s.reported
  | _ => True

/--
A row that waits has the sum 0, and all others have sums that have been reported.
-/
structure Sound (s : World) : Prop where
  waiting : ∀ i, s.waiting i = true → (s.db.plughist i).sum = 0
  rows : ∀ i (mac : Text), s.waiting i = false → (s.db.plughist i).mac = mac →
    (mac, (s.db.plughist i).sum) ∈ s.reported
  copies : ∀ p copy, s.copy p = some copy →
    ∃ (i : Fin NEWDB_MAX_PLUGHIST) (mac : Text), copy.id = i ∧ copy.mac = mac
      ∧ (mac, copy.sum) ∈ s.reported
  seen : SeesReported s

theorem loopRows_seeSum (rows : List PlugHist) (sums : List Int)
    : loopRows seeSum rows sums = (sums ++ rows.map PlugHist.sum, true) := by
  induction rows generalizing sums with
  | nil => simp [loopRows]
  | cons hist rows ih => simp [loopRows, seeSum, ih]

theorem mem_seen_sums {db : Db} {mac : String} {sum : Int}
    : sum ∈ (newDbLoopPlugHist db mac seeSum []).1
      ↔ ∃ i, (db.plughist i).mac = mac ∧ (db.plughist i).sum = sum := by
  have hloop : (newDbLoopPlugHist db mac seeSum []).1
      = (plugRows mac db.plughist).map PlugHist.sum := by
    unfold newDbLoopPlugHist
    simp only [loopRows_seeSum]
    rfl
  rw [hloop, List.mem_map]
  constructor
  . rintro ⟨hist, hmem, rfl⟩
    obtain ⟨i, rfl, hmac⟩ := mem_plugRows.mp hmem
    exact ⟨i, hmac, rfl⟩
  . rintro ⟨i, hmac, rfl⟩
    exact ⟨_, mem_plugRows.mpr ⟨i, rfl, hmac⟩, rfl⟩

theorem forall_copies_update {copy : Nat → Option PlugHist} {P : PlugHist → Prop}
    (h : ∀ p hist, copy p = some hist → P hist) (p : Nat) {new : Option PlugHist}
    (hnew : ∀ hist, new = some hist → P hist)
    : ∀ q hist, Function.update copy p new q = some hist → P hist := by
  intro q hist hq
  by_cases hqp : q = p
  . rw [hqp, Function.update_self] at hq
    exact hnew hist hq
  . rw [Function.update_of_ne hqp] at hq
    exact h q hist hq

section

variable {s : World} (h : Sound s)

include h

theorem Sound.getPlugHist (p : Nat) (u64IEEEAddress : UInt64) (eSumDeliv min now : Int)
    : Sound (s.next (.getPlugHist p u64IEEEAddress eSumDeliv min now)) := by
  have hreported : ∀ {x}, x ∈ s.reported → x ∈ s.reported ++ [(macOf u64IEEEAddress, eSumDeliv)] :=
    List.mem_append_left _
  simp only [World.next]
  split
  . exact h
  . rcases newDbGetMatchingOrNewPlugHist_cases (macOf_length u64IEEEAddress) s.db min now
      with heq | ⟨i, db, heq, hplughist⟩
    . rw [heq]
      constructor
      case waiting => exact h.waiting
      case rows => exact fun i mac hi hmac => hreported (h.rows i mac hi hmac)
      case copies =>
        intro q copy hq
        obtain ⟨j, mac, hid, hmac, hmem⟩ := h.copies q copy hq
        exact ⟨j, mac, hid, hmac, hreported hmem⟩
      case seen => exact fun x hx => hreported (h.seen x hx)
    . simp only [heq]
      constructor
      case waiting =>
        intro j hj
        simp only [hplughist]
        by_cases hji : j = i
        . rw [hji, Function.update_self]
          rfl
        . have hne : ¬(j : Int) = i := fun heq => hji (Fin.ext (Int.ofNat.inj heq))
          rw [Function.update_of_ne hji]
          apply h.waiting
          simpa [sample, hne] using hj
      case rows =>
        intro j mac hj hmac
        simp only [hplughist] at hmac ⊢
        by_cases hji : j = i
        . simp [sample, hji] at hj
        . rw [Function.update_of_ne hji] at hmac ⊢
          apply hreported
          apply h.rows j mac _ hmac
          exact (Bool.or_eq_false_iff.mp hj).1
      case copies =>
        apply forall_copies_update
        . intro q copy hq
          obtain ⟨j, mac, hid, hmac, hmem⟩ := h.copies q copy hq
          exact ⟨j, mac, hid, hmac, hreported hmem⟩
        . intro copy hcopy
          obtain rfl := Option.some.inj hcopy
          exact ⟨i, macOf u64IEEEAddress, rfl, rfl, by simp⟩
      case seen => exact fun x hx => hreported (h.seen x hx)

theorem Sound.setPlugHist (p : Nat) (now : Int) : Sound (s.next (.setPlugHist p now)) := by
  simp only [World.next]
  split
  . next copy hcopy =>
    obtain ⟨i, mac, hid, hmac, hmem⟩ := h.copies p copy hcopy
    have hplughist : (newDbSetPlugHist s.db copy now).1.plughist
        = Function.update s.db.plughist i { copy with lastupdate := now } := by
      simp [newDbSetPlugHist, setRow, hid]
    constructor
    case waiting =>
      intro j hj
      simp only [hplughist]
      have hand : s.waiting j = true ∧ ¬(j : Int) = copy.id := by simpa using hj
      have hji : j ≠ i := by
        rintro rfl
        exact hand.2 hid.symm
      rw [Function.update_of_ne hji]
      exact h.waiting j hand.1
    case rows =>
      intro j mac' hj hmac'
      simp only [hplughist] at hmac' ⊢
      by_cases hji : j = i
      . subst hji
        rw [Function.update_self] at hmac' ⊢
        have heq : mac = mac' := Subtype.ext (hmac.symm.trans hmac')
        rw [← heq]
        exact hmem
      . have hne : ¬(j : Int) = copy.id := by
          rw [hid]
          exact fun heq => hji (Fin.ext (Int.ofNat.inj heq))
        rw [Function.update_of_ne hji] at hmac' ⊢
        apply h.rows j mac' _ hmac'
        simpa [hne] using hj
    case copies => exact forall_copies_update h.copies p (by simp)
    case seen => exact h.seen
  . exact h

theorem Sound.die (p : Nat) : Sound (s.next (.die p)) where
  waiting := h.waiting
  rows := h.rows
  copies := forall_copies_update h.copies p (by simp)
  seen := h.seen

theorem Sound.remove {db : Db}
    (hrows : ∀ i, (db.plughist i).sum = (s.db.plughist i).sum
      ∧ ((db.plughist i).mac = (s.db.plughist i).mac ∨ (db.plughist i).mac = ""))
    : Sound { s with db } where
  waiting := by
    intro i hi
    simp only [(hrows i).1]
    exact h.waiting i hi
  rows := by
    intro i mac hi hmac
    simp only at hmac ⊢
    rw [(hrows i).1]
    rcases (hrows i).2 with heq | hempty
    . exact h.rows i mac hi (heq.symm.trans hmac)
    . exact absurd (hmac.symm.trans hempty) mac.2
  copies := h.copies
  seen := h.seen

theorem Sound.deletePlugHist (id now : Int) : Sound (s.next (.deletePlugHist id now)) := by
  apply h.remove
  intro i
  unfold newDbDeletePlugHist
  split
  . next j _ =>
    by_cases hij : i = j
    . subst hij
      simp
    . simp [Function.update_of_ne hij]
  . exact ⟨rfl, .inl rfl⟩

theorem Sound.emptyPlugHist (now : Int) : Sound (s.next (.emptyPlugHist now)) :=
  h.remove fun _ => ⟨rfl, .inr rfl⟩

theorem Sound.read {u64IEEEAddress : UInt64} (hok : Settled s (.read u64IEEEAddress))
    : Sound (s.next (.read u64IEEEAddress)) where
  waiting := h.waiting
  rows := h.rows
  copies := h.copies
  seen := by
    intro x hx
    rcases List.mem_append.mp hx with hx | hx
    . exact h.seen x hx
    . obtain ⟨sum, hsum, rfl⟩ := List.mem_map.mp hx
      obtain ⟨i, hmac, rfl⟩ := mem_seen_sums.mp hsum
      cases hwaiting : s.waiting i with
      | true =>
        rw [h.waiting i hwaiting]
        exact hok ⟨i, hwaiting, hmac⟩
      | false => exact h.rows i _ hwaiting hmac

theorem settled_of_seesReported (e : Event) (hafter : SeesReported (s.next e)) : Settled s e := by
  cases e with
  | read u64IEEEAddress =>
    rintro ⟨i, hwaiting, hmac⟩
    apply hafter
    apply List.mem_append_right
    apply List.mem_map.mpr
    exact ⟨0, mem_seen_sums.mpr ⟨i, hmac, h.waiting i hwaiting⟩, rfl⟩
  | _ => trivial

end

/--
Readers see what has been reported exactly as long as they read at settled times.
-/
theorem seesReported_iff_settled (db : Db) (reported : List (Text × Int))
    (hdb : ∀ i (mac : Text), (db.plughist i).mac = mac → (mac, (db.plughist i).sum) ∈ reported)
    (events : List Event)
    : (∀ before after, events = before ++ after →
        SeesReported (Machine.exec step { db, reported } before))
      ↔ Machine.Along step Settled { db, reported } events := by
  apply Machine.along_iff_forall_exec step Sound SeesReported
  . intro s e h hok
    cases e with
    | getPlugHist p u64IEEEAddress eSumDeliv min now =>
      exact h.getPlugHist p u64IEEEAddress eSumDeliv min now
    | setPlugHist p now => exact h.setPlugHist p now
    | die p => exact h.die p
    | deletePlugHist id now => exact h.deletePlugHist id now
    | emptyPlugHist now => exact h.emptyPlugHist now
    | read u64IEEEAddress => exact h.read hok
  . exact fun s h => h.seen
  . exact fun s e h hafter => settled_of_seesReported h e hafter
  . constructor
    case waiting => simp
    case rows => exact fun i mac _ hmac => hdb i mac hmac
    case copies => simp
    case seen => simp [SeesReported]

/--
A plug is read while its first reading is being stored.
-/
def readBetween : List Event :=
  [.getPlugHist 0 0x00158D0000350F34 5 10 600, .read 0x00158D0000350F34, .setPlugHist 0 600]

theorem seesReported_iff_settled_readBetween
    : (∀ before after, readBetween = before ++ after →
        SeesReported (Machine.exec step { db := Db.init } before))
      ↔ Machine.Along step Settled { db := Db.init } readBetween := by
  apply seesReported_iff_settled Db.init []
  intro i mac hmac
  exact absurd hmac.symm mac.2

theorem readBetween_sees_unreported
    : ¬SeesReported (Machine.exec step { db := Db.init } readBetween) := by
  intro h
  have hseen : (macOf 0x00158D0000350F34, 0)
      ∈ (Machine.exec step { db := Db.init } readBetween).seen := by
    decide +kernel
  have hreported : (macOf 0x00158D0000350F34, 0)
      ∉ (Machine.exec step { db := Db.init } readBetween).reported := by
    decide +kernel
  exact hreported (h _ hseen)

end Gateway.PlugReaders
