import IotGateway.Lib.Machine
import IotGateway.ZcbDaemon.Impl.NeighbourTable
import IotGateway.ZcbDaemon.Lemmas.Nodes
import IotGateway.ZcbDaemon.Lemmas.Requests

/-!
This module follows the sweeps of the main loop over the neighbour table, and says when a sweep that
is complete leaves no node without a type for which no request has been accepted.
-/

namespace ZcbDaemon

open NewDb Table

/--
An attempt is accepted before there have been three without an answer.
-/
def Accepted (sendings : List Sending) : Prop :=
  ∃ i : Fin sendings.length, eSL_SendMessage (sendings.get i) = E_SL_OK
    ∧ (sendings.take i).countP (fun s => eSL_SendMessage s = E_SL_NOMESSAGE) < 3

instance decidableAccepted (sendings : List Sending) : Decidable (Accepted sendings) :=
  inferInstanceAs (Decidable (∃ _ : Fin sendings.length, _ ∧ _))

theorem exists_map_cons {command : Command} {eStatus : UInt8} {o : Option (UInt8 × List Command)}
    : (∃ sent, (o.map fun (eStatus, sent) => (eStatus, command :: sent)) = some (eStatus, sent))
        ↔ ∃ sent, o = some (eStatus, sent) := by
  constructor
  . rintro ⟨sent, h⟩
    obtain ⟨⟨eStatus', sent'⟩, ho, heq⟩ := Option.map_eq_some_iff.mp h
    obtain ⟨rfl, -⟩ := Prod.mk.inj heq
    exact ⟨sent', ho⟩
  . rintro ⟨sent, rfl⟩
    exact ⟨command :: sent, rfl⟩

theorem descriptorLoop_ok_iff (command : Command) (sendings : List Sending) {eStatus u8Retry : UInt8}
    (hstatus : eStatus ≠ E_ZCB_OK) (hpos : u8Retry ≠ 0)
    : (∃ sent, descriptorLoop command sendings eStatus u8Retry = some (E_ZCB_OK, sent))
        ↔ ∃ i : Fin sendings.length, eSL_SendMessage (sendings.get i) = E_SL_OK
          ∧ (sendings.take i).countP (fun s => eSL_SendMessage s = E_SL_NOMESSAGE)
            < u8Retry.toNat := by
  induction sendings generalizing u8Retry with
  | nil =>
    constructor
    . rintro ⟨sent, h⟩
      cases h
    . rintro ⟨i, -⟩
      exact i.elim0
  | cons s sendings ih =>
    have hpos' : 0 < u8Retry.toNat := by
      rw [Nat.pos_iff_ne_zero]
      exact fun h => hpos (UInt8.toNat_inj.mp h)
    refine Iff.trans ?_ Fin.exists_fin_succ.symm
    simp only [List.get_cons_zero, Fin.val_zero, Fin.val_succ, List.take_zero,
      List.take_succ_cons, List.countP_nil, List.countP_cons, hpos', and_true]
    by_cases hok : eSL_SendMessage s = E_SL_OK
    . rw [descriptorLoop_ok _ _ _ _ hok]
      simp [hok]
    simp only [hok, false_or]
    by_cases hno : eSL_SendMessage s = E_SL_NOMESSAGE
    . rw [descriptorLoop_noMessage _ _ _ _ hno]
      have hsub : (u8Retry - 1).toNat = u8Retry.toNat - 1 :=
        UInt8.toNat_sub_of_le _ _ (UInt8.le_iff_toNat_le.mpr hpos')
      simp only [hno, decide_true, if_true, ← Nat.lt_sub_iff_add_lt, ← hsub]
      by_cases hlast : u8Retry - 1 = 0
      . simp [hlast, hstatus]
      . rw [if_pos hlast, exists_map_cons]
        exact ih hlast
    . rw [descriptorLoop_other _ _ _ hok hno hpos, exists_map_cons]
      simp only [hno, decide_false, Bool.false_eq_true, if_false, Nat.add_zero]
      exact ih hpos

theorem SimpleDescriptorRequest_ok_iff (u16ShortAddress : UInt16) (sendings : List Sending)
    : (∃ sent, SimpleDescriptorRequest u16ShortAddress sendings = some (E_ZCB_OK, sent))
        ↔ Accepted sendings := by
  apply descriptorLoop_ok_iff
  . decide
  . decide

/--
The row that the table has for the short address of a node, if it is the row of this node.
-/
def nodeRow (db : Db) (u16ShortAddress : UInt16) (u64IEEEAddress : UInt64)
    : Option (Fin NEWDB_MAX_ZCB) :=
  (lookup Zcb.saddrKey u16ShortAddress.toNat db.zcb).filter fun i =>
    (db.zcb i).mac = u642nibblestr u64IEEEAddress

/--
The rows of nodes for which a request has been accepted after they have been inserted.
-/
abbrev Asked : Type := Fin NEWDB_MAX_ZCB → Bool

/--
A node has been stored, and a request for it has been accepted or not.
-/
def Asked.stored (asked : Asked) (db db' : Db) (u16ShortAddress : UInt16) (accepted : Bool) : Asked :=
  match lookup Zcb.saddrKey u16ShortAddress.toNat db'.zcb with
  | some i =>
    let same := (db.zcb i).status ≠ .free ∧ (db.zcb i).mac = (db'.zcb i).mac
    Function.update asked i (accepted || same && asked i)
  | none => asked

/--
The entries that have been looked at in this sweep: their indices, and the rows of the legal ones.
-/
structure Watch where
  loop : MainLoop
  asked : Asked
  covered : List Nat := []
  listed : List (Option (Fin NEWDB_MAX_ZCB)) := []

/--
A sweep that has come to the end without an error.
-/
structure Sweep where
  u8NeighbourTableSize : UInt8
  covered : List Nat
  listed : List (Option (Fin NEWDB_MAX_ZCB))
  db : Db
  asked : Asked

/--
The type of a node is known, or a request for it has been accepted.
-/
def Known (zcb : Zcb) (asked : Bool) : Prop := zcb.type ≠ SIMPLE_DESCR_UNKNOWN ∨ asked = true

instance decidableKnown (zcb : Zcb) (asked : Bool) : Decidable (Known zcb asked) :=
  inferInstanceAs (Decidable (_ ∨ _))

def Sweep.Complete (s : Sweep) : Prop :=
  (∀ k < s.u8NeighbourTableSize.toNat, k ∈ s.covered)
    ∧ ∀ row ∈ s.listed, ∃ i, row = some i ∧ Known (s.db.zcb i) (s.asked i)

instance decidableComplete (s : Sweep) : Decidable s.Complete := inferInstanceAs (Decidable (_ ∧ _))

/--
What the entries of a response do, beside what is remembered of them.
-/
structure Listing where
  db : Db
  asked : Asked
  listed : List (Option (Fin NEWDB_MAX_ZCB))

def Listing.add (s : Listing) (neighbour : Neighbour) (sendings : List Sending) : Listing :=
  if neighbour.legal then
    let db := handleNeighbour s.db neighbour
    { db
      asked :=
        if (newDbGetZcbSaddr s.db neighbour.u16ShortAddress.toNat).isSome then
          s.asked
        else
          s.asked.stored s.db db neighbour.u16ShortAddress (Accepted sendings)
      listed := s.listed ++ [nodeRow db neighbour.u16ShortAddress neighbour.u64IEEEAddress] }
  else
    s

def Listing.addAll (response : Response) (occasions : Nat → Occasion)
    : (n i : Nat) → Listing → Listing
  | 0, _, s => s
  | n + 1, i, s =>
    addAll response occasions n (i + 1)
      (s.add (response.neighbour (occasions i) i) (occasions i).sendings)

/--
A response with the right number that tells no error.
-/
def Answers.success (answers : Answers) (start : Int) : Option Response :=
  (answers.response start).filter fun response => response.u8Status = CZD_NW_STATUS_SUCCESS

def Watch.request (w : Watch) (answers : Answers) : Watch × List Sweep :=
  let loop := w.loop.next (.request answers)
  if w.loop.stuck then
    (w, [])
  else
    match eZCB_NeighbourTableRequest w.loop.start answers w.loop.db,
        answers.success w.loop.start with
    -- The request goes on for ever
    | none, _ => ({ w with loop }, [])
    -- The sweep ends with an error
    | some _, none => ({ loop, asked := w.asked }, [])
    | some (ret, _), some response =>
      let listing :=
        Listing.addAll response answers.occasions response.u8TableEntries.toNat 0
          { db := w.loop.db, asked := w.asked, listed := w.listed }
      let asked := listing.asked
      let indices :=
        (List.range response.u8TableEntries.toNat).map ((UInt8.ofInt w.loop.start).toNat + ·)
      let covered := w.covered ++ indices
      if ret = 0 then
        ({ loop, asked },
          [{ u8NeighbourTableSize := response.u8NeighbourTableSize
             covered
             listed := listing.listed
             db := loop.db
             asked }])
      else if ret < 0 then
        ({ loop, asked }, [])
      else
        ({ loop, asked, covered, listed := listing.listed }, [])

/--
The main loop with what is remembered of it. The outputs are the sweeps that are complete.
-/
def watchStep (w : Watch) (ev : LoopEvent) : Watch × List Sweep :=
  let loop := w.loop.next ev
  match ev with
  | .request answers => w.request answers
  | .announce u16ShortAddress _ _ _ sendings =>
    let accepted := announceRequests u16ShortAddress loop.db ∧ Accepted sendings
    ({ w with loop, asked := w.asked.stored w.loop.db loop.db u16ShortAddress accepted }, [])
  | .message | .descriptor _ _ _ _ | .leave _ _ _ => ({ w with loop }, [])

/--
The entries of the response are one or two, and none are left out at the end of the table.
-/
def Answered (w : Watch) : LoopEvent → Prop
  | .request answers =>
    ∀ response ∈ answers.success w.loop.start,
      response.u8TableEntries = 1 ∨ response.u8TableEntries = 2
        ∨ response.u8TableEntries = 0 ∧ response.u8NeighbourTableSize.toNat ≤ w.loop.start
  | .message | .descriptor _ _ _ _ | .announce _ _ _ _ _ | .leave _ _ _ => True

/--
A node that is in no row is put in a free one, and a request for it is accepted.
-/
def Inserted (db : Db) (u16ShortAddress : UInt16) (u64IEEEAddress : UInt64)
    (sendings : List Sending) : Prop :=
  newDbGetZcbSaddr db u16ShortAddress.toNat = none →
    newDbGetZcb db (u642nibblestr u64IEEEAddress) = none →
      (∃ i, (db.zcb i).status = .free) ∧ Accepted sendings

instance decidableInserted (db : Db) (u16ShortAddress : UInt16) (u64IEEEAddress : UInt64)
    (sendings : List Sending) : Decidable (Inserted db u16ShortAddress u64IEEEAddress sendings) :=
  inferInstanceAs (Decidable (_ → _))

/--
No other node has the short address of an entry, and a new node is asked with success.
-/
def EntryAsked (db : Db) (neighbour : Neighbour) (sendings : List Sending) : Prop :=
  neighbour.legal = true →
    (∀ zcb ∈ newDbGetZcbSaddr db neighbour.u16ShortAddress.toNat,
        zcb.mac = u642nibblestr neighbour.u64IEEEAddress)
      ∧ Inserted db neighbour.u16ShortAddress neighbour.u64IEEEAddress sendings

instance decidableEntryAsked (db : Db) (neighbour : Neighbour) (sendings : List Sending)
    : Decidable (EntryAsked db neighbour sendings) :=
  inferInstanceAs (Decidable (_ → _))

def EntriesAsked (response : Response) (occasions : Nat → Occasion) : (n i : Nat) → Db → Prop
  | 0, _, _ => True
  | n + 1, i, db =>
    let neighbour := response.neighbour (occasions i) i
    EntryAsked db neighbour (occasions i).sendings
      ∧ EntriesAsked response occasions n (i + 1) (handleNeighbour db neighbour)

instance decidableEntriesAsked (response : Response) (occasions : Nat → Occasion)
    : (n i : Nat) → (db : Db) → Decidable (EntriesAsked response occasions n i db)
  | 0, _, _ => inferInstanceAs (Decidable True)
  | n + 1, i, db =>
    have := decidableEntriesAsked response occasions n (i + 1)
      (handleNeighbour db (response.neighbour (occasions i) i))
    inferInstanceAs (Decidable (_ ∧ _))

/--
Every node that is put in the table is asked what it is with success. A descriptor does not make the
type of a node unknown, and a node that takes the row of another one has its type or is asked.
-/
def NewAsked (w : Watch) : LoopEvent → Prop
  | .message => True
  | .request answers =>
    ∀ response ∈ answers.success w.loop.start,
      EntriesAsked response answers.occasions response.u8TableEntries.toNat 0 w.loop.db
  | .descriptor u16ShortAddress descriptor _ _ =>
    ∀ i ∈ lookup Zcb.saddrKey u16ShortAddress.toNat w.loop.db.zcb,
      descriptor.u16DeviceID ≠ 0xFFFF ∨ w.asked i = true
  | .announce u16ShortAddress u64IEEEAddress _ _ sendings =>
    (∀ zcb ∈ newDbGetZcbSaddr w.loop.db u16ShortAddress.toNat,
        zcb.mac = u642nibblestr u64IEEEAddress ∨ zcb.type ≠ SIMPLE_DESCR_UNKNOWN
          ∨ Accepted sendings)
      ∧ Inserted w.loop.db u16ShortAddress u64IEEEAddress sendings
  | .leave _ _ _ => True

instance decidableAnswered (w : Watch) : (ev : LoopEvent) → Decidable (Answered w ev)
  | .request _ => inferInstanceAs (Decidable (∀ _ ∈ _, _))
  | .message | .descriptor _ _ _ _ | .announce _ _ _ _ _ | .leave _ _ _ =>
    inferInstanceAs (Decidable True)

instance decidableNewAsked (w : Watch) : (ev : LoopEvent) → Decidable (NewAsked w ev)
  | .request _ => inferInstanceAs (Decidable (∀ _ ∈ _, _))
  | .descriptor _ _ _ _ => inferInstanceAs (Decidable (∀ _ ∈ _, _))
  | .announce _ _ _ _ _ => inferInstanceAs (Decidable (_ ∧ _))
  | .message | .leave _ _ _ => inferInstanceAs (Decidable True)

theorem handleEntry_db {neighbour : Neighbour} {sendings : List Sending} {ret ret' : Int} {db db' : Db}
    (h : handleEntry neighbour sendings ret db = some (ret', db'))
    : db' = handleNeighbour db neighbour := by
  unfold handleEntry at h
  unfold handleNeighbour
  split at h
  . next hlegal =>
    rw [if_pos hlegal]
    cases hsaddr : newDbGetZcbSaddr db neighbour.u16ShortAddress.toNat with
    | some zcb =>
      rw [hsaddr] at h
      obtain ⟨-, rfl⟩ := Prod.mk.inj (Option.some.inj h)
      rfl
    | none =>
      rw [hsaddr] at h
      obtain ⟨_, _, heq⟩ := Option.map_eq_some_iff.mp h
      exact (Prod.mk.inj heq).2.symm
  . next hlegal =>
    rw [if_neg hlegal]
    exact (Prod.mk.inj (Option.some.inj h)).2.symm

theorem add_db (s : Listing) (neighbour : Neighbour) (sendings : List Sending)
    : (s.add neighbour sendings).db = handleNeighbour s.db neighbour := by
  unfold Listing.add
  split
  . rfl
  . next hlegal => rw [handleNeighbour, if_neg hlegal]

/--
What is remembered is about the table that the request leaves.
-/
theorem handleEntries_db {response : Response} {occasions : Nat → Occasion} {n i : Nat}
    {ret ret' : Int} {db' : Db} (s : Listing)
    (h : handleEntries response occasions n i ret s.db = some (ret', db'))
    : db' = (Listing.addAll response occasions n i s).db := by
  induction n generalizing i ret s with
  | zero => exact (Prod.mk.inj (Option.some.inj h)).2.symm
  | succ n ih =>
    rw [handleEntries] at h
    split at h
    . next ret'' db'' hentry =>
      rw [Listing.addAll]
      refine ih _ (?_ : handleEntries response occasions n (i + 1) ret'' _ = _)
      rw [add_db, ← handleEntry_db hentry]
      exact h
    . cases h

/--
The rows in use know their index, and the type of their node is known or the node has been asked.
-/
structure Sound (t : Fin NEWDB_MAX_ZCB → Zcb) (asked : Asked)
    (listed : List (Option (Fin NEWDB_MAX_ZCB))) : Prop where
  ids : ∀ i, (t i).status ≠ .free → (t i).id = i
  rows : ∀ i, (t i).status ≠ .free → Known (t i) (asked i)
  listed : ∀ row ∈ listed, ∃ i, row = some i ∧ Known (t i) (asked i)

section

variable {t : Fin NEWDB_MAX_ZCB → Zcb} {asked : Asked} {listed : List (Option (Fin NEWDB_MAX_ZCB))}

theorem Sound.update (h : Sound t asked listed) {i : Fin NEWDB_MAX_ZCB} {zcb : Zcb} {b : Bool}
    (hid : zcb.id = i) (hknown : Known zcb b)
    : Sound (Function.update t i zcb) (Function.update asked i b) listed := by
  have hrow : ∀ j, (j ≠ i → Known (t j) (asked j))
      → Known (Function.update t i zcb j) (Function.update asked i b j) := by
    intro j hj
    by_cases hji : j = i
    . subst hji
      rw [Function.update_self, Function.update_self]
      exact hknown
    . rw [Function.update_of_ne hji, Function.update_of_ne hji]
      exact hj hji
  constructor
  . intro j hlive
    by_cases hji : j = i
    . subst hji
      rw [Function.update_self]
      exact hid
    . rw [Function.update_of_ne hji] at hlive ⊢
      exact h.ids j hlive
  . intro j hlive
    apply hrow
    intro hji
    rw [Function.update_of_ne hji] at hlive
    exact h.rows j hlive
  . intro row hmem
    obtain ⟨j, rfl, hj⟩ := h.listed row hmem
    exact ⟨j, rfl, hrow j fun _ => hj⟩

/--
The row of a node is written again, with a type that is known if the node has not been asked.
-/
theorem Sound.rewrite (h : Sound t asked listed) {i : Fin NEWDB_MAX_ZCB} {zcb : Zcb}
    (hid : zcb.id = i) (hknown : Known zcb (asked i))
    : Sound (Function.update t i zcb) asked listed := by
  have hsound := h.update hid hknown
  rwa [Function.update_eq_self] at hsound

theorem nodeRow_spec {db : Db} {saddr : UInt16} {node : UInt64} {i : Fin NEWDB_MAX_ZCB}
    (h : nodeRow db saddr node = some i)
    : Zcb.Holds node saddr (db.zcb i) := by
  obtain ⟨hlookup, hmac⟩ := Option.filter_eq_some_iff.mp h
  obtain ⟨hlive, hsaddr⟩ := saddrKey_eq_some_iff.mp (lookup_spec hlookup)
  exact ⟨hlive, of_decide_eq_true hmac, hsaddr⟩

theorem Sound.list {db : Db} (h : Sound db.zcb asked listed) {saddr : UInt16} {node : UInt64}
    (hrow : (nodeRow db saddr node).isSome)
    : Sound db.zcb asked (listed ++ [nodeRow db saddr node]) := by
  obtain ⟨i, hi⟩ := Option.isSome_iff_exists.mp hrow
  refine ⟨h.ids, h.rows, ?_⟩
  intro row hmem
  rcases List.mem_append.mp hmem with hmem | hmem
  . exact h.listed row hmem
  . obtain rfl := List.mem_singleton.mp hmem
    exact ⟨i, hi, h.rows i (nodeRow_spec hi).1⟩

end

/--
A node is stored in one row: that of its short address, that of its MAC, or a free one.
-/
theorem zcbAddNode_row {db : Db} (hids : ∀ i, (db.zcb i).status ≠ .free → (db.zcb i).id = i)
    (saddr : UInt16) (node : UInt64) (now now' : Int)
    (hroom : newDbGetZcbSaddr db saddr.toNat = none → newDbGetZcb db (u642nibblestr node) = none →
      ∃ i, (db.zcb i).status = .free)
    : ∃ i zcb, (zcbAddNode saddr node now now' db).1.zcb = Function.update db.zcb i zcb
        ∧ zcb.id = i ∧ Zcb.Holds node saddr zcb
        ∧ (∀ j < i, Zcb.saddrKey (db.zcb j) ≠ some (saddr.toNat : Int))
        ∧ ((db.zcb i).status ≠ .free ∧ zcb.type = (db.zcb i).type
              ∧ ((db.zcb i).mac = u642nibblestr node
                ∨ newDbGetZcbSaddr db saddr.toNat = some (db.zcb i))
          ∨ newDbGetZcbSaddr db saddr.toNat = none
              ∧ newDbGetZcb db (u642nibblestr node) = none) := by
  unfold zcbAddNode
  simp only
  cases hsaddr : newDbGetZcbSaddr db saddr.toNat with
  | some zcb =>
    have hrow := hsaddr
    rw [newDbGetZcbSaddr_eq] at hrow
    obtain ⟨i, hlookup, rfl⟩ := Option.map_eq_some_iff.mp hrow
    obtain ⟨hlive, hkey⟩ := saddrKey_eq_some_iff.mp (lookup_spec hlookup)
    refine ⟨i, _, newDbSetZcb_zcb (hids i hlive), hids i hlive, ⟨nofun, rfl, hkey⟩, ?_, ?_⟩
    . intro j hj
      exact beq_eq_false_iff_ne.mp (first_min hlookup hj)
    . exact .inl ⟨hlive, rfl, .inr rfl⟩
  | none =>
    have hbefore := newDbGetZcbSaddr_eq_none hsaddr
    cases hget : newDbGetZcb db (u642nibblestr node) with
    | some zcb =>
      obtain ⟨i, rfl, hlive, hkey⟩ := newDbGetZcb_spec hget
      refine ⟨i, _, newDbSetZcb_zcb (hids i hlive), hids i hlive, ⟨nofun, hkey, rfl⟩, ?_, ?_⟩
      . intro j _
        exact hbefore j
      . exact .inl ⟨hlive, rfl, .inl hkey⟩
    | none =>
      obtain ⟨i, hfree, hdb, hnew⟩ :=
        newDbGetNewZcb_spec (u642nibblestr node) now (hroom hsaddr hget)
      rw [show newDbGetNewZcb db (u642nibblestr node) now
        = ((newDbGetNewZcb db (u642nibblestr node) now).1, some _) from Prod.ext rfl hnew]
      simp only
      rw [newDbSetZcb_zcb (i := i) ?hid, hdb, Function.update_idem]
      case hid => rfl
      refine ⟨i, _, rfl, rfl, ⟨nofun, newZcb_mac i node now, rfl⟩, ?_, .inr ⟨trivial, trivial⟩⟩
      intro j _
      exact hbefore j

section

variable {db : Db} {asked : Asked} {listed : List (Option (Fin NEWDB_MAX_ZCB))} {saddr : UInt16}
  {node : UInt64} {now now' : Int} {sendings : List Sending} {accepted : Bool}

theorem stored_eq {db' : Db} {i : Fin NEWDB_MAX_ZCB} {zcb : Zcb}
    (hlookup : lookup Zcb.saddrKey saddr.toNat db'.zcb = some i) (hzcb : db'.zcb i = zcb)
    : asked.stored db db' saddr accepted
      = Function.update asked i
          (accepted || decide ((db.zcb i).status ≠ .free ∧ (db.zcb i).mac = zcb.mac) && asked i) := by
  subst hzcb
  simp only [Asked.stored, hlookup]

/--
A node is stored and asked if this is necessary.
-/
theorem Sound.store (h : Sound db.zcb asked listed) (now now' : Int) (accepted : Bool)
    (hinserted : Inserted db saddr node sendings)
    (htaken : ∀ zcb ∈ newDbGetZcbSaddr db saddr.toNat,
      zcb.mac = u642nibblestr node ∨ zcb.type ≠ SIMPLE_DESCR_UNKNOWN ∨ Accepted sendings)
    (haccepted : announceRequests saddr (zcbAddNode saddr node now now' db).1 = true →
      Accepted sendings → accepted = true)
    : Sound (zcbAddNode saddr node now now' db).1.zcb
          (asked.stored db (zcbAddNode saddr node now now' db).1 saddr accepted) listed
        ∧ (nodeRow (zcbAddNode saddr node now now' db).1 saddr node).isSome := by
  obtain ⟨i, zcb, hdb, hid, ⟨hlive, hmac, hsaddr⟩, hbefore, horigin⟩ :=
    zcbAddNode_row h.ids saddr node now now' fun hs hm => (hinserted hs hm).1
  generalize (zcbAddNode saddr node now now' db).1 = db' at hdb haccepted ⊢
  have hlookup : lookup Zcb.saddrKey saddr.toNat db'.zcb = some i := by
    rw [hdb]
    exact lookup_update_self (saddrKey_eq_some_iff.mpr ⟨hlive, hsaddr⟩) hbefore
  have hzcb : db'.zcb i = zcb := by rw [hdb, Function.update_self]
  refine ⟨?_, ?_⟩
  . rw [stored_eq hlookup hzcb, hdb]
    apply h.update hid
    by_cases htype : zcb.type = SIMPLE_DESCR_UNKNOWN
    . right
      have hrequests : announceRequests saddr db' = true := by
        simp [announceRequests, newDbGetZcbSaddr_eq, hlookup, hzcb, htype]
      rw [Bool.or_eq_true]
      rcases horigin with ⟨hold, hsame, horigin⟩ | ⟨hs, hm⟩
      . -- The row was that of this node, or of one that has had its short address
        by_cases hmac' : (db.zcb i).mac = zcb.mac
        . right
          rcases h.rows i hold with hknown | hasked
          . exact absurd (hsame.symm.trans htype) hknown
          . simp [hold, hmac', hasked]
        . left
          apply haccepted hrequests
          rcases horigin with hmac'' | hfound
          . exact absurd (hmac''.trans hmac.symm) hmac'
          . rcases htaken _ hfound with hmac'' | hknown | hyes
            . exact absurd (hmac''.trans hmac.symm) hmac'
            . exact absurd (hsame.symm.trans htype) hknown
            . exact hyes
      . exact .inl (haccepted hrequests (hinserted hs hm).2)
    . exact .inl htype
  . rw [nodeRow, hlookup]
    simp [hzcb, hmac]

theorem Sound.leave (h : Sound db.zcb asked listed) (bRejoin : Bool)
    : Sound (ZCB_HandleDeviceLeave node bRejoin now db).zcb asked listed := by
  unfold ZCB_HandleDeviceLeave zcbNodeLeft
  cases hget : newDbGetZcb db (u642nibblestr node) with
  | none => exact h
  | some zcb =>
    obtain ⟨i, rfl, hlive, -⟩ := newDbGetZcb_spec hget
    simp only
    rw [newDbSetZcb_zcb (i := i) ?hid]
    case hid => exact h.ids i hlive
    exact h.rewrite (h.ids i hlive) (h.rows i hlive)

theorem Sound.descriptor (h : Sound db.zcb asked listed) (descriptor : SimpleDescriptor)
    (hknown : ∀ i ∈ lookup Zcb.saddrKey saddr.toNat db.zcb,
      descriptor.u16DeviceID ≠ 0xFFFF ∨ asked i = true)
    : Sound (ZCB_HandleSimpleDescriptorResponse saddr descriptor now now' db).zcb asked listed := by
  unfold ZCB_HandleSimpleDescriptorResponse
  rw [newDbGetZcbSaddr_eq]
  cases hlookup : lookup Zcb.saddrKey (saddr.toNat : Int) db.zcb with
  | none => exact h
  | some i =>
    obtain ⟨hlive, -⟩ := saddrKey_eq_some_iff.mp (lookup_spec hlookup)
    have hid : (db.zcb i).id = i := h.ids i hlive
    simp only [Option.map_some]
    rw [newDbSetZcb_zcb (i := i) ?last, newDbSetZcb_zcb (i := i) ?first, Function.update_idem]
    case last => exact hid
    case first => exact hid
    refine h.rewrite ?_ ?_
    . exact hid
    rcases hknown i hlookup with hdevice | hasked
    . left
      intro htype
      apply hdevice
      apply UInt16.toNat_inj.mp
      have hnat : ((descriptor.u16DeviceID.toNat : Nat) : Int) = (0xFFFF : Nat) := htype
      exact Int.ofNat.inj hnat
    . exact .inr hasked

/--
An entry of the table keeps the rows sound, and is listed with its row if its addresses are legal.
-/
theorem Sound.add {s : Listing} (h : Sound s.db.zcb s.asked s.listed) {neighbour : Neighbour}
    (hok : EntryAsked s.db neighbour sendings)
    : Sound (s.add neighbour sendings).db.zcb (s.add neighbour sendings).asked
        (s.add neighbour sendings).listed := by
  unfold Listing.add
  split
  . next hlegal =>
    obtain ⟨hown, hinserted⟩ := hok hlegal
    simp only
    rw [handleNeighbour, if_pos hlegal]
    cases hsaddr : newDbGetZcbSaddr s.db neighbour.u16ShortAddress.toNat with
    | some zcb =>
      apply h.list
      have hmac := hown zcb hsaddr
      rw [newDbGetZcbSaddr_eq] at hsaddr
      obtain ⟨i, hlookup, rfl⟩ := Option.map_eq_some_iff.mp hsaddr
      rw [nodeRow, hlookup]
      simp [hmac]
    | none =>
      obtain ⟨hsound, hrow⟩ := h.store neighbour.now neighbour.now' (Accepted sendings) hinserted
        (by simp [hsaddr]) (by simp)
      exact hsound.list hrow
  . exact h

theorem Sound.addAll {response : Response} {occasions : Nat → Occasion} {n i : Nat} {s : Listing}
    (h : Sound s.db.zcb s.asked s.listed) (hok : EntriesAsked response occasions n i s.db)
    : Sound (Listing.addAll response occasions n i s).db.zcb
        (Listing.addAll response occasions n i s).asked
        (Listing.addAll response occasions n i s).listed := by
  induction n generalizing i s with
  | zero => exact h
  | succ n ih =>
    obtain ⟨hentry, hrest⟩ := hok
    apply ih (h.add hentry)
    rw [add_db]
    exact hrest

end

theorem handleEntry_ret {neighbour : Neighbour} {sendings : List Sending} {ret ret' : Int} {db db' : Db}
    (h : handleEntry neighbour sendings ret db = some (ret', db'))
    : ret' = ret ∨ ret' = -1 := by
  unfold handleEntry at h
  split at h
  . split at h
    . exact .inl (Prod.mk.inj (Option.some.inj h)).1.symm
    . obtain ⟨⟨eStatus, sent⟩, -, heq⟩ := Option.map_eq_some_iff.mp h
      obtain ⟨rfl, -⟩ := Prod.mk.inj heq
      by_cases hstatus : eStatus = E_ZCB_OK
      . simp [hstatus]
      . simp [hstatus]
  . exact .inl (Prod.mk.inj (Option.some.inj h)).1.symm

theorem handleEntries_ret {response : Response} {occasions : Nat → Occasion} {n i : Nat}
    {ret ret' : Int} {db db' : Db}
    (h : handleEntries response occasions n i ret db = some (ret', db'))
    : ret' = ret ∨ ret' = -1 := by
  induction n generalizing i ret db with
  | zero => exact .inl (Prod.mk.inj (Option.some.inj h)).1.symm
  | succ n ih =>
    rw [handleEntries] at h
    split at h
    . next ret'' db'' hentry =>
      rcases ih h with rfl | rfl
      . exact handleEntry_ret hentry
      . exact .inr rfl
    . cases h

/--
What a request returns if its response tells no error: an error of its own, or where it goes on.
-/
theorem NeighbourTableRequest_spec {start ret : Int} {answers : Answers} {db db' : Db}
    {response : Response} (hsuccess : answers.success start = some response)
    (h : eZCB_NeighbourTableRequest start answers db = some (ret, db'))
    : (∀ s : Listing, s.db = db →
        db' = (Listing.addAll response answers.occasions response.u8TableEntries.toNat 0 s).db)
      ∧ (ret = nextStart response start ∨ ret = -1) := by
  obtain ⟨hresponse, hstatus⟩ := Option.filter_eq_some_iff.mp hsuccess
  unfold eZCB_NeighbourTableRequest at h
  simp only [hresponse, of_decide_eq_true hstatus, if_true] at h
  obtain ⟨⟨ret', db''⟩, hentries, heq⟩ := Option.map_eq_some_iff.mp h
  obtain ⟨hret, rfl⟩ := Prod.mk.inj heq
  constructor
  . rintro s rfl
    exact handleEntries_db s hentries
  . rcases handleEntries_ret hentries with rfl | rfl
    . exact .inl hret.symm
    . exact .inr hret.symm

theorem NeighbourTableRequest_error {start ret : Int} {answers : Answers} {db db' : Db}
    (hsuccess : answers.success start = none)
    (h : eZCB_NeighbourTableRequest start answers db = some (ret, db'))
    : db' = db ∧ ret = -1 := by
  unfold eZCB_NeighbourTableRequest at h
  split at h
  . obtain ⟨rfl, rfl⟩ := Prod.mk.inj (Option.some.inj h)
    exact ⟨rfl, rfl⟩
  . next response hresponse =>
    have hstatus : response.u8Status ≠ CZD_NW_STATUS_SUCCESS := by
      intro hstatus
      have hnone := Option.filter_eq_none_iff.mp hsuccess response hresponse
      exact hnone (decide_eq_true hstatus)
    rw [if_neg hstatus] at h
    obtain ⟨rfl, rfl⟩ := Prod.mk.inj (Option.some.inj h)
    exact ⟨rfl, rfl⟩

theorem nextStart_bounds (response : Response) {start : Int} (hstart : 0 ≤ start)
    : 0 ≤ nextStart response start ∧ nextStart response start < 256 := by
  have hsize : response.u8NeighbourTableSize.toNat < 256 := UInt8.toNat_lt _
  unfold nextStart
  split
  . simp only
    split
    . omega
    . omega
  . omega

/--
The table ends with the response if the next request is for its first index.
-/
theorem nextStart_end {response : Response} {start : Int} (h : nextStart response start = 0)
    (hentries : response.u8TableEntries = 1 ∨ response.u8TableEntries = 2
      ∨ response.u8TableEntries = 0 ∧ response.u8NeighbourTableSize.toNat ≤ start)
    (hstart : 0 ≤ start)
    : (response.u8NeighbourTableSize.toNat : Int) ≤ start + response.u8TableEntries.toNat := by
  unfold nextStart at h
  split at h
  . next hpos =>
    have hpos' : 0 < response.u8TableEntries.toNat := UInt8.lt_iff_toNat_lt.mp hpos
    simp only at h
    split at h
    . next hsize => exact hsize
    . omega
  . next hpos =>
    rcases hentries with hone | htwo | ⟨hzero, hsize⟩
    . exact absurd (hone ▸ by decide) hpos
    . exact absurd (htwo ▸ by decide) hpos
    . omega

theorem nextStart_pos {response : Response} {start : Int} (h : nextStart response start ≠ 0)
    : nextStart response start = start + response.u8TableEntries.toNat := by
  unfold nextStart at h ⊢
  split at h
  . next hentries =>
    simp only at h ⊢
    rw [if_pos hentries]
    split at h
    . exact absurd rfl h
    . next hsize => rw [if_neg hsize]
  . exact absurd rfl h

/--
The rows are sound, and the indices before the one that is requested next have been covered.
-/
structure Watch.Good (w : Watch) : Prop where
  sound : Sound w.loop.db.zcb w.asked w.listed
  start : 0 ≤ w.loop.start ∧ w.loop.start < 256
  covered : ∀ k : Nat, k < w.loop.start → k ∈ w.covered

/--
A response covers the indices from the one that has been requested.
-/
theorem Watch.Good.cover {w : Watch} (h : w.Good) {n k : Nat} (hk : k < w.loop.start + n)
    : k ∈ w.covered ++ (List.range n).map ((UInt8.ofInt w.loop.start).toNat + ·) := by
  obtain ⟨hnonneg, hlt⟩ := h.start
  have hbyte : (UInt8.ofInt w.loop.start).toNat = w.loop.start.toNat := by
    rw [UInt8.ofInt, UInt8.toNat_ofNat']
    omega
  by_cases hold : (k : Int) < w.loop.start
  . exact List.mem_append_left _ (h.covered k hold)
  . apply List.mem_append_right
    rw [hbyte]
    refine List.mem_map.mpr ⟨k - w.loop.start.toNat, List.mem_range.mpr ?_, ?_⟩
    . omega
    . omega

/--
The sweep begins anew, nothing of it is remembered.
-/
theorem Sound.forget {t : Fin NEWDB_MAX_ZCB → Zcb} {asked : Asked}
    {listed : List (Option (Fin NEWDB_MAX_ZCB))} (h : Sound t asked listed)
    : Sound t asked [] :=
  ⟨h.ids, h.rows, nofun⟩

theorem Watch.Good.request {w : Watch} (h : w.Good) {answers : Answers}
    (hanswered : Answered w (.request answers)) (hasked : NewAsked w (.request answers))
    : (w.request answers).1.Good ∧ ∀ sweep ∈ (w.request answers).2, sweep.Complete := by
  unfold Watch.request
  simp only [MainLoop.next]
  by_cases hstuck : w.loop.stuck
  . rw [if_pos hstuck]
    exact ⟨h, by simp⟩
  simp only [if_neg hstuck]
  cases hrequest : eZCB_NeighbourTableRequest w.loop.start answers w.loop.db with
  | none => exact ⟨⟨h.sound, h.start, h.covered⟩, by simp⟩
  | some result =>
    obtain ⟨ret, db⟩ := result
    cases hsuccess : answers.success w.loop.start with
    | none =>
      obtain ⟨rfl, rfl⟩ := NeighbourTableRequest_error hsuccess hrequest
      refine ⟨⟨h.sound.forget, ?_, ?_⟩, by simp⟩
      . simp
      . intro k hk
        simp at hk
        omega
    | some response =>
      obtain ⟨hdb, hret⟩ := NeighbourTableRequest_spec hsuccess hrequest
      obtain rfl := hdb ⟨w.loop.db, w.asked, w.listed⟩ rfl
      have hsound := h.sound.addAll (s := ⟨w.loop.db, w.asked, w.listed⟩) (hasked response hsuccess)
      simp only
      generalize Listing.addAll response answers.occasions response.u8TableEntries.toNat 0
        ⟨w.loop.db, w.asked, w.listed⟩ = listing at hsound ⊢
      split
      . next hzero =>
        subst hzero
        refine ⟨⟨hsound.forget, by simp, ?_⟩, ?_⟩
        . intro k hk
          simp at hk
          omega
        . intro sweep hsweep
          obtain rfl := List.mem_singleton.mp hsweep
          refine ⟨?_, hsound.listed⟩
          intro k hk
          apply h.cover
          have hend := nextStart_end (hret.resolve_right (by decide)).symm
            (hanswered response hsuccess) h.start.1
          have hsize : k < response.u8NeighbourTableSize.toNat := hk
          omega
      . next hnonzero =>
        split
        . next hneg =>
          refine ⟨⟨hsound.forget, ?_, ?_⟩, by simp⟩
          . simp [Int.not_le.mpr hneg]
          . intro k hk
            rw [if_neg (Int.not_le.mpr hneg)] at hk
            have hzero : (k : Int) < 0 := hk
            omega
        . next hneg =>
          obtain rfl := hret.resolve_right (by omega)
          have hnonneg := Int.not_lt.mp hneg
          rw [if_pos hnonneg]
          refine ⟨⟨hsound, nextStart_bounds response h.start.1, ?_⟩, by simp⟩
          intro k hk
          apply h.cover
          rw [← nextStart_pos hnonzero]
          exact hk

theorem watchStep_sound {w : Watch} {ev : LoopEvent} (h : w.Good)
    (hok : Answered w ev ∧ NewAsked w ev)
    : (watchStep w ev).1.Good ∧ ∀ sweep ∈ (watchStep w ev).2, sweep.Complete := by
  obtain ⟨hanswered, hasked⟩ := hok
  cases ev with
  | message => exact ⟨h, by simp [watchStep]⟩
  | request answers => exact h.request hanswered hasked
  | descriptor u16ShortAddress descriptor now now' =>
    refine ⟨⟨?_, h.start, h.covered⟩, by simp [watchStep]⟩
    exact h.sound.descriptor descriptor hasked
  | announce u16ShortAddress u64IEEEAddress now now' sendings =>
    refine ⟨⟨?_, h.start, h.covered⟩, by simp [watchStep]⟩
    obtain ⟨htaken, hinserted⟩ := hasked
    refine (h.sound.store now now' _ hinserted htaken ?_).1
    intro hrequests haccepted
    exact decide_eq_true ⟨hrequests, haccepted⟩
  | leave u64IEEEAddress bRejoin now =>
    refine ⟨⟨?_, h.start, h.covered⟩, by simp [watchStep]⟩
    exact h.sound.leave bRejoin

theorem watchStep_loop (w : Watch) (ev : LoopEvent) : (watchStep w ev).1.loop = w.loop.next ev := by
  cases ev with
  | request answers =>
    simp only [watchStep, Watch.request]
    by_cases hstuck : w.loop.stuck
    . rw [if_pos hstuck, MainLoop.next, if_pos hstuck]
    . rw [if_neg hstuck]
      split
      . rfl
      . rfl
      . split
        . rfl
        . split <;> rfl
  | message => rfl
  | descriptor u16ShortAddress descriptor now now' => rfl
  | announce u16ShortAddress u64IEEEAddress now now' sendings => rfl
  | leave u64IEEEAddress bRejoin now => rfl

/--
The loop that is watched is the main loop.
-/
theorem exec_watchStep_loop (w : Watch) (events : List LoopEvent)
    : (Machine.exec watchStep w events).loop = events.foldl MainLoop.next w.loop := by
  induction events generalizing w with
  | nil => rfl
  | cons ev events ih =>
    rw [Machine.exec_cons, ih, watchStep_loop, List.foldl_cons]

/--
The sweeps that are complete, in every run from a table of nodes that have been asked.
-/
theorem sweeps_complete (db : Db) (asked : Asked) (events : List LoopEvent)
    (hids : ∀ i, (db.zcb i).status ≠ .free → (db.zcb i).id = i)
    (hknown : ∀ i, (db.zcb i).status ≠ .free → Known (db.zcb i) (asked i))
    (hok : Machine.Along watchStep (fun w ev => Answered w ev ∧ NewAsked w ev)
      { loop := { db }, asked } events)
    : ∀ sweep ∈ Machine.trace watchStep { loop := { db }, asked } events, sweep.Complete := by
  have hstep : ∀ w ev, Watch.Good w → Answered w ev ∧ NewAsked w ev → Watch.Good (watchStep w ev).1 :=
    fun w ev h hok => (watchStep_sound h hok).1
  have hout : ∀ w ev, Watch.Good w → Answered w ev ∧ NewAsked w ev →
      ∀ sweep ∈ (watchStep w ev).2, sweep.Complete :=
    fun w ev h hok => (watchStep_sound h hok).2
  refine Machine.forall_trace watchStep hstep hout ?_ hok
  refine ⟨⟨hids, hknown, nofun⟩, by simp, ?_⟩
  intro k hk
  have hzero : (k : Int) < 0 := hk
  omega

/--
A table with one node.
-/
def oneNeighbour : Response where
  u16Length := 26
  pvMessage n :=
    [7, 0, 1, 1, 0, 0x12, 0x34, 0, 0, 0, 0, 0, 0, 0, 1, 0, 0x15, 0x8D, 0, 0, 0, 0, 1, 1, 255,
      0x12].getD n 0

def noAnswer : Sending := { written := .ok, waited := .noMessage, eStatus := 0, u8SequenceNo := 0 }

def askNeighbours (sendings : List Sending) : LoopEvent :=
  .request
    { line := fun _ => acceptedSeven
      responses := [oneNeighbour]
      occasions := fun _ => { now := 0, now' := 0, sendings } }

theorem sweeps_complete_accepted
    : (Machine.trace watchStep { loop := { db := Db.init }, asked := fun _ => false }
          [askNeighbours [noAnswer, acceptedSeven], .message, askNeighbours []]).length = 2
      ∧ ∀ sweep ∈ Machine.trace watchStep { loop := { db := Db.init }, asked := fun _ => false }
          [askNeighbours [noAnswer, acceptedSeven], .message, askNeighbours []], sweep.Complete := by
  constructor
  . decide
  . apply sweeps_complete Db.init (fun _ => false)
    . decide
    . decide
    . decide

/--
The request for the new node is not answered, and the next sweep does not ask it again.
-/
theorem failed_not_retried
    : Machine.Along watchStep Answered { loop := { db := Db.init }, asked := fun _ => false }
        [askNeighbours [noAnswer, noAnswer, noAnswer], askNeighbours [acceptedSeven]]
      ∧ ¬∀ sweep ∈ Machine.trace watchStep
          { loop := { db := Db.init }, asked := fun _ => false }
          [askNeighbours [noAnswer, noAnswer, noAnswer], askNeighbours [acceptedSeven]],
        sweep.Complete := by
  decide +kernel

end ZcbDaemon
