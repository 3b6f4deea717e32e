import IotGateway.ZcbDaemon.Impl.Discovery
import IotGateway.ZcbDaemon.Lemmas.Nodes

/-!
This module says where the types and profiles in the node table come from.
-/

namespace ZcbDaemon

open NewDb

/--
The node table, and which node has sent which simple descriptor. The latter is only remembered.
-/
structure Discovery where
  db : Db
  reported : List (UInt64 × SimpleDescriptor) := []

inductive DiscoveryEvent where
  | announce (shortAddress : UInt16) (extendedAddress : UInt64) (now now' : Int)
  | leave (extendedAddress : UInt64) (keep : Bool) (now : Int)
  -- The response of `node` only says its short address
  | descriptor (node : UInt64) (shortAddress : UInt16) (descriptor : SimpleDescriptor)
    (now now' : Int)
  -- Other messages may come between the entries of a neighbour table
  | neighbour (neighbour : Neighbour)

def Discovery.next (s : Discovery) : DiscoveryEvent → Discovery
  | .announce shortAddress extendedAddress now now' =>
    { s with db := ZCB_HandleDeviceAnnounce shortAddress extendedAddress now now' s.db }
  | .leave extendedAddress keep now =>
    { s with db := ZCB_HandleDeviceLeave extendedAddress keep now s.db }
  | .descriptor node shortAddress descriptor now now' =>
    { db := ZCB_HandleSimpleDescriptorResponse shortAddress descriptor now now' s.db
      reported := s.reported ++ [(node, descriptor)] }
  | .neighbour neighbour => { s with db := handleNeighbour s.db neighbour }

def discoveryStep (s : Discovery) (e : DiscoveryEvent) : Discovery × List Empty := (s.next e, [])

/--
A whole neighbour table is the events of its entries.
-/
theorem exec_managementLQI (s : Discovery) (asNeighbours : List Neighbour)
    : Machine.exec discoveryStep s (asNeighbours.map .neighbour)
      = { s with db := managementLQI asNeighbours s.db } := by
  induction asNeighbours generalizing s with
  | nil => rfl
  | cons neighbour asNeighbours ih =>
    rw [List.map_cons, Machine.exec_cons, ih]
    rfl

/--
The type and the profile are unknown, or the node with this MAC has reported both.
-/
def Fits (reported : List (UInt64 × SimpleDescriptor)) (mac : String) (type : Int)
    (profile : UInt16) : Prop :=
  (type = SIMPLE_DESCR_UNKNOWN ∧ profile = 0)
    ∨ ∃ report ∈ reported, u642nibblestr report.1 = mac ∧ type = report.2.u16DeviceID.toNat
      ∧ profile = report.2.u16ProfileID

def Provenance (s : Discovery) : Prop :=
  ∀ i, (s.db.zcb i).status ≠ .free →
    Fits s.reported (s.db.zcb i).mac (s.db.zcb i).type (s.db.zcb i).u16ProfileId

/--
A node does not take the row of another one, unless type and profile are right for it as well. If
all rows are in use, none is cleared for it.
-/
def AddTraceable (s : Discovery) (shortAddress : UInt16) (extendedAddress : UInt64) (now : Int)
    : Prop :=
  let mac := u642nibblestr extendedAddress
  match newDbGetZcbSaddr s.db shortAddress.toNat with
  | some zcb => zcb.mac = mac ∨ Fits s.reported mac zcb.type zcb.u16ProfileId
  | none =>
    newDbGetZcb s.db mac = none →
      (∃ i, (s.db.zcb i).status = .free) ∨ (∀ i, now ≤ (s.db.zcb i).lastupdate)
        ∨ Fits s.reported mac 0 0

/--
What a node reports is stored for the MAC that the table has for its short address.
-/
def Traceable (s : Discovery) : DiscoveryEvent → Prop
  | .announce shortAddress extendedAddress now _ => AddTraceable s shortAddress extendedAddress now
  | .leave _ _ _ => True
  | .descriptor node shortAddress descriptor _ _ =>
    ∀ zcb ∈ newDbGetZcbSaddr s.db shortAddress.toNat, zcb.mac = u642nibblestr node
      ∨ Fits s.reported zcb.mac descriptor.u16DeviceID.toNat descriptor.u16ProfileID
  | .neighbour neighbour =>
    neighbour.legal = true →
      newDbGetZcbSaddr s.db neighbour.u16ShortAddress.toNat = none →
      AddTraceable s neighbour.u16ShortAddress neighbour.u64IEEEAddress neighbour.now

/--
The rows in use know their index, and their types and profiles have been reported.
-/
def Traced (reported : List (UInt64 × SimpleDescriptor)) (t : Fin NEWDB_MAX_ZCB → Zcb) : Prop :=
  ∀ i, (t i).status ≠ .free →
    (t i).id = i ∧ Fits reported (t i).mac (t i).type (t i).u16ProfileId

theorem Fits.append {reported reported' : List (UInt64 × SimpleDescriptor)} {mac : String}
    {type : Int} {profile : UInt16} (h : Fits reported mac type profile)
    : Fits (reported ++ reported') mac type profile := by
  rcases h with h | ⟨report, hreport, h⟩
  . exact .inl h
  . exact .inr ⟨report, List.mem_append_left _ hreport, h⟩

theorem fits_append_singleton {reported : List (UInt64 × SimpleDescriptor)} {mac : String}
    {node : UInt64} {descriptor : SimpleDescriptor}
    : Fits (reported ++ [(node, descriptor)]) mac descriptor.u16DeviceID.toNat descriptor.u16ProfileID
      ↔ mac = u642nibblestr node
        ∨ Fits reported mac descriptor.u16DeviceID.toNat descriptor.u16ProfileID := by
  constructor
  . rintro (hunknown | ⟨report, hreport, hmac, htype, hprofile⟩)
    . exact .inr (.inl hunknown)
    . rcases List.mem_append.mp hreport with hreport | hreport
      . exact .inr (.inr ⟨report, hreport, hmac, htype, hprofile⟩)
      . obtain rfl := List.mem_singleton.mp hreport
        exact .inl hmac.symm
  . rintro (rfl | h)
    . exact .inr ⟨_, List.mem_append_right _ (List.mem_singleton_self _), rfl, rfl, rfl⟩
    . exact h.append

section

variable {reported : List (UInt64 × SimpleDescriptor)} {t : Fin NEWDB_MAX_ZCB → Zcb}
  {i : Fin NEWDB_MAX_ZCB} {zcb : Zcb}

theorem Traced.append (h : Traced reported t) (reported' : List (UInt64 × SimpleDescriptor))
    : Traced (reported ++ reported') t := by
  intro i hi
  exact ⟨(h i hi).1, (h i hi).2.append⟩

theorem Traced.update (h : Traced reported t) (hid : zcb.id = i)
    (hfits : zcb.status ≠ .free → Fits reported zcb.mac zcb.type zcb.u16ProfileId)
    : Traced reported (Function.update t i zcb) := by
  intro j hj
  by_cases hji : j = i
  . subst hji
    rw [Function.update_self] at hj ⊢
    exact ⟨hid, hfits hj⟩
  . rw [Function.update_of_ne hji] at hj ⊢
    exact h j hj

end

/--
A scan without a free row stops at a row that is older than where it has begun, if there is one.
-/
theorem scan_full {db : Db} (hfull : ∀ i, (db.zcb i).status ≠ .free)
    (rows : List (Fin NEWDB_MAX_ZCB)) (scan : ZcbScan) (hscan : scan.added = false)
    : (rows.foldl (ZcbScan.next db) scan).added = false
      ∧ ((rows.foldl (ZcbScan.next db) scan).index = none
        ↔ scan.index = none ∧ ∀ i ∈ rows, scan.oldest ≤ (db.zcb i).lastupdate) := by
  induction rows generalizing scan with
  | nil => exact ⟨hscan, by simp⟩
  | cons i rows ih =>
    rw [List.foldl_cons]
    by_cases hold : (db.zcb i).lastupdate < scan.oldest
    . have hnext : ZcbScan.next db scan i
          = { scan with oldest := (db.zcb i).lastupdate, index := some i } := by
        simp [ZcbScan.next, hscan, hfull i, hold]
      rw [hnext]
      obtain ⟨hadded, hindex⟩ :=
        ih { scan with oldest := (db.zcb i).lastupdate, index := some i } hscan
      refine ⟨hadded, hindex.trans ?_⟩
      constructor
      . rintro ⟨hnone, -⟩
        cases hnone
      . rintro ⟨-, hyoung⟩
        exact absurd hold (Int.not_lt.mpr (hyoung i List.mem_cons_self))
    . have hnext : ZcbScan.next db scan i = scan := by
        simp [ZcbScan.next, hscan, hfull i, hold]
      rw [hnext]
      obtain ⟨hadded, hindex⟩ := ih scan hscan
      refine ⟨hadded, hindex.trans ?_⟩
      simp [Int.not_lt.mp hold]

/--
If no row is free then one that is older than now is cleared, but nothing is returned.
-/
theorem newDbGetNewZcb_full {db : Db} (mac : String) (now : Int)
    (hfull : ∀ i, (db.zcb i).status ≠ .free)
    : (newDbGetNewZcb db mac now = (db, none) ∧ ∀ i, now ≤ (db.zcb i).lastupdate)
      ∨ ((newDbGetNewZcb db mac now).2 = none ∧ (∃ i, (db.zcb i).lastupdate < now)
        ∧ ∃ i, (newDbGetNewZcb db mac now).1.zcb
          = Function.update db.zcb i (newZcb i mac now)) := by
  obtain ⟨hadded, hindex⟩ :=
    scan_full hfull (List.finRange NEWDB_MAX_ZCB) { oldest := now } rfl
  unfold newDbGetNewZcb
  simp only [hadded]
  generalize (List.finRange NEWDB_MAX_ZCB).foldl (ZcbScan.next db) { oldest := now } = scan at *
  cases hscan : scan.index with
  | none =>
    left
    exact ⟨rfl, fun i => (hindex.mp hscan).2 i (List.mem_finRange i)⟩
  | some i =>
    right
    refine ⟨rfl, ?_, i, rfl⟩
    by_contra hyoung
    push Not at hyoung
    rw [hindex.mpr ⟨rfl, fun i _ => hyoung i⟩] at hscan
    cases hscan

/--
At most one row is written, and it fits if and only if `ok`.
-/
def Writes (reported : List (UInt64 × SimpleDescriptor)) (ok : Prop)
    (t t' : Fin NEWDB_MAX_ZCB → Zcb) : Prop :=
  (t' = t ∧ ok) ∨ ∃ i zcb, t' = Function.update t i zcb ∧ zcb.id = i
    ∧ ((zcb.status ≠ .free → Fits reported zcb.mac zcb.type zcb.u16ProfileId) ↔ ok)

section

variable {reported : List (UInt64 × SimpleDescriptor)} {t t' : Fin NEWDB_MAX_ZCB → Zcb} {ok : Prop}

theorem Writes.traced (hwrites : Writes reported ok t t') (h : Traced reported t) (hok : ok)
    : Traced reported t' := by
  rcases hwrites with ⟨rfl, -⟩ | ⟨i, zcb, rfl, hid, hfits⟩
  . exact h
  . exact h.update hid (hfits.mpr hok)

theorem Writes.ok_of_fits (hwrites : Writes reported ok t t')
    (hafter : ∀ i, (t' i).status ≠ .free →
      Fits reported (t' i).mac (t' i).type (t' i).u16ProfileId)
    : ok := by
  rcases hwrites with ⟨-, hok⟩ | ⟨i, zcb, rfl, -, hfits⟩
  . exact hok
  . apply hfits.mp
    have hrow := hafter i
    rwa [Function.update_self] at hrow

end

section

variable {s : Discovery} (h : Traced s.reported s.db.zcb)

include h

theorem zcbAddNode_writes (shortAddress : UInt16) (extendedAddress : UInt64) (now now' : Int)
    : Writes s.reported (AddTraceable s shortAddress extendedAddress now) s.db.zcb
        (zcbAddNode shortAddress extendedAddress now now' s.db).1.zcb := by
  have hjoined : ZcbStatus.joined ≠ .free := by decide
  unfold zcbAddNode AddTraceable
  simp only
  cases hsaddr : newDbGetZcbSaddr s.db shortAddress.toNat with
  | some zcb =>
    obtain ⟨i, rfl, hlive, -⟩ := newDbGetZcbSaddr_spec hsaddr
    obtain ⟨hid, hfits⟩ := h i hlive
    simp only
    rw [newDbSetZcb_zcb (i := i) ?hid]
    case hid => exact hid
    refine .inr ⟨i, _, rfl, hid, ?_⟩
    constructor
    . exact fun hrow => .inr (hrow hjoined)
    . rintro (hmac | hrow) _
      . rw [← hmac]
        exact hfits
      . exact hrow
  | none =>
    cases hmac : newDbGetZcb s.db (u642nibblestr extendedAddress) with
    | some zcb =>
      obtain ⟨i, rfl, hlive, -⟩ := newDbGetZcb_spec hmac
      obtain ⟨hid, hfits⟩ := h i hlive
      simp only
      rw [newDbSetZcb_zcb (i := i) ?hid]
      case hid => exact hid
      refine .inr ⟨i, _, rfl, hid, ?_⟩
      exact ⟨fun _ hnone => absurd hnone (Option.some_ne_none _), fun _ _ => hfits⟩
    | none =>
      simp only [forall_const]
      by_cases hfree : ∃ i, (s.db.zcb i).status = .free
      . obtain ⟨i, -, hdb, hrow⟩ :=
          newDbGetNewZcb_spec (u642nibblestr extendedAddress) now hfree
        rw [show newDbGetNewZcb s.db (u642nibblestr extendedAddress) now
          = ((newDbGetNewZcb s.db (u642nibblestr extendedAddress) now).1, some _)
          from Prod.ext rfl hrow]
        simp only
        rw [newDbSetZcb_zcb (i := i) ?hid, hdb, Function.update_idem]
        case hid => rfl
        refine .inr ⟨i, _, rfl, rfl, ?_⟩
        exact ⟨fun _ => .inl hfree, fun _ _ => .inl ⟨rfl, rfl⟩⟩
      . have hfull : ∀ i, (s.db.zcb i).status ≠ .free := not_exists.mp hfree
        rcases newDbGetNewZcb_full (u642nibblestr extendedAddress) now hfull with
          ⟨heq, hyoung⟩ | ⟨hrow, ⟨i, hold⟩, j, hdb⟩
        . rw [heq]
          exact .inl ⟨rfl, .inr (.inl hyoung)⟩
        . rw [show newDbGetNewZcb s.db (u642nibblestr extendedAddress) now
            = ((newDbGetNewZcb s.db (u642nibblestr extendedAddress) now).1, none)
            from Prod.ext rfl hrow]
          have hused : ZcbStatus.used ≠ .free := by decide
          refine .inr ⟨j, _, hdb, rfl, ?_⟩
          rw [newZcb_mac]
          constructor
          . exact fun hcleared => .inr (.inr (hcleared hused))
          . rintro (hfree' | hyoung | hcleared) _
            . exact absurd hfree' hfree
            . exact absurd hold (Int.not_lt.mpr (hyoung i))
            . exact hcleared

theorem zcbNodeLeft_writes (extendedAddress : UInt64) (keep : Bool) (now : Int)
    : Writes s.reported True s.db.zcb (zcbNodeLeft extendedAddress keep now s.db).1.zcb := by
  unfold zcbNodeLeft
  cases hmac : newDbGetZcb s.db (u642nibblestr extendedAddress) with
  | none => exact .inl ⟨rfl, trivial⟩
  | some zcb =>
    obtain ⟨i, rfl, hlive, -⟩ := newDbGetZcb_spec hmac
    obtain ⟨hid, hfits⟩ := h i hlive
    simp only
    rw [newDbSetZcb_zcb (i := i) ?hid]
    case hid => exact hid
    refine .inr ⟨i, _, rfl, hid, ?_⟩
    exact ⟨fun _ => trivial, fun _ _ => hfits⟩

theorem handleNeighbour_writes (neighbour : Neighbour)
    : Writes s.reported (Traceable s (.neighbour neighbour)) s.db.zcb
        (handleNeighbour s.db neighbour).zcb := by
  unfold handleNeighbour Traceable
  by_cases hlegal : neighbour.legal = true
  . simp only [hlegal, if_true, forall_const]
    cases hsaddr : newDbGetZcbSaddr s.db neighbour.u16ShortAddress.toNat with
    | some zcb => exact .inl ⟨rfl, nofun⟩
    | none =>
      simp only [forall_const]
      exact zcbAddNode_writes h neighbour.u16ShortAddress neighbour.u64IEEEAddress neighbour.now
        neighbour.now'
  . rw [if_neg hlegal]
    exact .inl ⟨rfl, fun hlegal' => absurd hlegal' hlegal⟩

theorem simpleDescriptor_writes (node : UInt64) (shortAddress : UInt16)
    (descriptor : SimpleDescriptor) (now now' : Int)
    : Writes (s.reported ++ [(node, descriptor)])
        (Traceable s (.descriptor node shortAddress descriptor now now')) s.db.zcb
        (ZCB_HandleSimpleDescriptorResponse shortAddress descriptor now now' s.db).zcb := by
  simp only [ZCB_HandleSimpleDescriptorResponse, Traceable]
  cases hsaddr : newDbGetZcbSaddr s.db shortAddress.toNat with
  | none => exact .inl ⟨rfl, fun zcb hzcb => absurd hzcb (Option.not_mem_none zcb)⟩
  | some zcb =>
    obtain ⟨i, rfl, hlive, -⟩ := newDbGetZcbSaddr_spec hsaddr
    obtain ⟨hid, -⟩ := h i hlive
    simp only [Option.mem_some_iff, forall_eq']
    rw [newDbSetZcb_zcb (i := i) ?first, newDbSetZcb_zcb (i := i) ?second, Function.update_idem]
    case first => exact hid
    case second => exact hid
    refine .inr ⟨i, _, rfl, hid, ?_⟩
    simp only
    rw [fits_append_singleton]
    exact ⟨fun hrow => hrow hlive, fun hrow _ => hrow⟩

/--
Each event writes at most one row, which fits if and only if the event is traceable.
-/
theorem next_writes (e : DiscoveryEvent)
    : Writes (s.next e).reported (Traceable s e) s.db.zcb (s.next e).db.zcb := by
  cases e with
  | announce shortAddress extendedAddress now now' =>
    exact zcbAddNode_writes h shortAddress extendedAddress now now'
  | leave extendedAddress keep now => exact zcbNodeLeft_writes h extendedAddress keep now
  | descriptor node shortAddress descriptor now now' =>
    exact simpleDescriptor_writes h node shortAddress descriptor now now'
  | neighbour neighbour => exact handleNeighbour_writes h neighbour

end

theorem reported_next (s : Discovery) (e : DiscoveryEvent)
    : ∃ reported, (s.next e).reported = s.reported ++ reported := by
  cases e with
  | descriptor node shortAddress descriptor now now' => exact ⟨_, rfl⟩
  | _ => exact ⟨[], (List.append_nil _).symm⟩

/--
The types and profiles in the table come from the nodes themselves exactly as long as all events are
traceable.
-/
theorem provenance_iff_traceable (db : Db) (reported : List (UInt64 × SimpleDescriptor))
    (hdb : Traced reported db.zcb) (events : List DiscoveryEvent)
    : (∀ before after, events = before ++ after →
        Provenance (Machine.exec discoveryStep { db, reported } before))
      ↔ Machine.Along discoveryStep Traceable { db, reported } events := by
  apply Machine.along_iff_forall_exec discoveryStep
    (fun s => Traced s.reported s.db.zcb) Provenance
  . intro s e h hok
    obtain ⟨reported', hreported⟩ := reported_next s e
    have hbefore : Traced (s.next e).reported s.db.zcb := by
      rw [hreported]
      exact h.append reported'
    exact (next_writes h e).traced hbefore hok
  . exact fun s h i hi => (h i hi).2
  . exact fun s e h hafter => (next_writes h e).ok_of_fits hafter
  . exact hdb

/--
A light answers, and then another node gets its short address.
-/
def readdressed : List DiscoveryEvent :=
  [.announce 0x1234 0xA 0 0, .descriptor 0xA 0x1234 ⟨0x0101, 0x0104, 1⟩ 1 1,
    .announce 0x1234 0xB 2 2]

theorem provenance_iff_traceable_readdressed
    : (∀ before after, readdressed = before ++ after →
        Provenance (Machine.exec discoveryStep { db := Db.init } before))
      ↔ Machine.Along discoveryStep Traceable { db := Db.init } readdressed := by
  apply provenance_iff_traceable Db.init []
  intro i hi
  exact absurd rfl hi

theorem readdressed_not_provenance
    : ¬Provenance (Machine.exec discoveryStep { db := Db.init } readdressed) := by
  intro h
  rcases h 0 (by decide +kernel) with ⟨htype, -⟩ | ⟨report, hreport, hmac, -⟩
  . revert htype
    decide +kernel
  . have hreported : (Machine.exec discoveryStep { db := Db.init } readdressed).reported
        = [(0xA, ⟨0x0101, 0x0104, 1⟩)] := rfl
    rw [hreported] at hreport
    obtain rfl := List.mem_singleton.mp hreport
    revert hmac
    decide

end ZcbDaemon
