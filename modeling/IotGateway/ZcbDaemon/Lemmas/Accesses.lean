import IotGateway.ZcbDaemon.Impl.NeighbourTable

/-!
This module says which responses are read inside their length, and that what is done with a response
depends on the bytes that are said to be read.
-/

namespace ZcbDaemon

open NewDb

/--
The bytes are in a message of this length, the element is in its array.
-/
def Access.Inside (u16Length : UInt16) : Access → Prop
  | .bytes offset width => offset + width ≤ u16Length.toNat
  | .element i => i < NEIGHBOURS

def Response.ReadsInside (response : Response) (accesses : List Access) : Prop :=
  ∀ access ∈ accesses, access.Inside response.u16Length

/--
The length that an entry takes. The last three bytes of an entry with an invalid address are not read.
-/
def Response.entryEnd (response : Response) (i : Nat) : Nat :=
  let legal := (response.neighbour { now := 0, now' := 0, sendings := [] } i).legal
  neighbourOffset i + if legal then 21 else 18

/--
The message is as long as it says itself, and has two entries at most.
-/
structure NeighbourSized (u8SequenceNo : UInt8) (response : Response) : Prop where
  sequenceNo : 1 ≤ response.u16Length.toNat
  status : response.pvMessage 0 = u8SequenceNo → 2 ≤ response.u16Length.toNat
  header : response.pvMessage 0 = u8SequenceNo → response.u8Status = CZD_NW_STATUS_SUCCESS →
    5 ≤ response.u16Length.toNat
  entries : response.pvMessage 0 = u8SequenceNo → response.u8Status = CZD_NW_STATUS_SUCCESS →
    ∀ i < response.u8TableEntries.toNat,
      i < NEIGHBOURS ∧ response.entryEnd i ≤ response.u16Length.toNat

/--
The message has its fixed part and, if the node is in the table, the clusters that it counts.
-/
structure DescriptorSized (db : Db) (response : Response) : Prop where
  header : 11 ≤ response.u16Length.toNat
  clusters : (newDbGetZcbSaddr db response.descriptorShortAddress.toNat).isSome →
    12 + 2 * response.u8ClusterCount.toNat ≤ response.u16Length.toNat

variable {response : Response}

theorem readsInside_append {xs ys : List Access}
    : response.ReadsInside (xs ++ ys) ↔ response.ReadsInside xs ∧ response.ReadsInside ys :=
  List.forall_mem_append

theorem readsInside_cons {access : Access} {accesses : List Access}
    : response.ReadsInside (access :: accesses)
        ↔ access.Inside response.u16Length ∧ response.ReadsInside accesses :=
  List.forall_mem_cons

theorem readsInside_nil : response.ReadsInside [] := List.forall_mem_nil _

theorem readsInside_flatMap {n : Nat} {accesses : Nat → List Access}
    : response.ReadsInside ((List.range n).flatMap accesses)
        ↔ ∀ i < n, response.ReadsInside (accesses i) := by
  simp only [Response.ReadsInside, List.mem_flatMap, List.mem_range]
  constructor
  . intro h i hi access haccess
    exact h access ⟨i, hi, haccess⟩
  . rintro h access ⟨i, hi, haccess⟩
    exact h i hi access haccess

theorem entry_inside_iff (i : Nat)
    : response.ReadsInside (entryAccesses response i)
        ↔ i < NEIGHBOURS ∧ response.entryEnd i ≤ response.u16Length.toNat := by
  simp only [entryAccesses, Response.entryEnd]
  split
  . simp only [readsInside_append, readsInside_cons, readsInside_nil, Access.Inside, and_true]
    omega
  . simp only [readsInside_append, readsInside_cons, readsInside_nil, Access.Inside, and_true]
    omega

theorem neighbour_inside_iff (u8SequenceNo : UInt8) (response : Response)
    : response.ReadsInside (neighbourAccesses u8SequenceNo response)
        ↔ NeighbourSized u8SequenceNo response := by
  unfold neighbourAccesses
  by_cases hown : response.pvMessage 0 = u8SequenceNo
  . rw [if_neg (not_not_intro hown.symm)]
    by_cases hstatus : response.u8Status = CZD_NW_STATUS_SUCCESS
    . rw [if_pos hstatus]
      have hsize : response.ReadsInside (if 0 < response.u8TableEntries then [.bytes 2 1] else [])
          ↔ (0 < response.u8TableEntries → 3 ≤ response.u16Length.toNat) := by
        split
        . next hpos => simp [readsInside_cons, readsInside_nil, Access.Inside, hpos]
        . next hpos => simp [readsInside_nil, hpos]
      simp only [readsInside_append, readsInside_cons, readsInside_nil, readsInside_flatMap,
        entry_inside_iff, hsize, Access.Inside]
      constructor
      . rintro ⟨⟨h0, -⟩, ⟨h1, -⟩, ⟨⟨⟨-, -, h4, -⟩, hentries⟩, -⟩, -⟩
        exact ⟨h0, fun _ => h1, fun _ _ => h4, fun _ _ => hentries⟩
      . rintro ⟨h0, h1, h4, hentries⟩
        have hheader := h4 hown hstatus
        have hentries' := hentries hown hstatus
        have h2 : 2 + 1 ≤ response.u16Length.toNat := by omega
        have h3 : 3 + 1 ≤ response.u16Length.toNat := by omega
        exact ⟨⟨h0, trivial⟩, ⟨h1 hown, trivial⟩,
          ⟨⟨⟨h2, h3, hheader, trivial⟩, hentries'⟩, h3, trivial⟩, fun _ => h2⟩
    . rw [if_neg hstatus]
      simp only [readsInside_append, readsInside_cons, readsInside_nil, Access.Inside]
      constructor
      . rintro ⟨⟨h0, -⟩, ⟨h1, -⟩, -⟩
        exact ⟨h0, fun _ => h1, fun _ h => absurd h hstatus, fun _ h => absurd h hstatus⟩
      . rintro ⟨h0, h1, -, -⟩
        exact ⟨⟨h0, trivial⟩, ⟨h1 hown, trivial⟩, trivial⟩
  . have hforeign : u8SequenceNo ≠ response.pvMessage 0 := fun h => hown h.symm
    rw [if_pos hforeign]
    simp only [readsInside_append, readsInside_cons, readsInside_nil, Access.Inside]
    constructor
    . rintro ⟨⟨h0, -⟩, -⟩
      exact ⟨h0, fun h => absurd h hown, fun h => absurd h hown, fun h => absurd h hown⟩
    . rintro ⟨h0, -, -, -⟩
      exact ⟨⟨h0, trivial⟩, trivial⟩

theorem cluster_inside_iff (h : 11 ≤ response.u16Length.toNat) (k : Nat)
    : response.ReadsInside ([.bytes (12 + 2 * k) 2]
          ++ if response.au16Clusters k = E_ZB_CLUSTERID_ONOFF then [.bytes 5 1] else [])
        ↔ 12 + 2 * k + 2 ≤ response.u16Length.toNat := by
  split
  . simp only [readsInside_append, readsInside_cons, readsInside_nil, Access.Inside, and_true]
    omega
  . simp only [readsInside_append, readsInside_cons, readsInside_nil, Access.Inside, and_true]

theorem descriptor_inside_iff (db : Db) (response : Response)
    : response.ReadsInside (descriptorAccesses db response) ↔ DescriptorSized db response := by
  unfold descriptorAccesses
  have hheader : response.ReadsInside [.bytes 2 2, .bytes 8 2, .bytes 10 1, .bytes 6 2]
      ↔ 11 ≤ response.u16Length.toNat := by
    simp only [readsInside_cons, readsInside_nil, Access.Inside, and_true]
    omega
  rw [readsInside_append, hheader]
  by_cases hknown : (newDbGetZcbSaddr db response.descriptorShortAddress.toNat).isSome
  . rw [if_pos hknown, readsInside_append, readsInside_append, readsInside_flatMap]
    constructor
    . rintro ⟨h, ⟨hcount, hclusters⟩, -⟩
      refine ⟨h, fun _ => ?_⟩
      have hcount : 11 + 1 ≤ response.u16Length.toNat := (readsInside_cons.mp hcount).1
      cases hn : response.u8ClusterCount.toNat with
      | zero => omega
      | succ n =>
        have hlast := (cluster_inside_iff h n).mp (hclusters n (by omega))
        omega
    . rintro ⟨h, hclusters⟩
      have hclusters := hclusters hknown
      have hcount : response.ReadsInside [.bytes 11 1] := by
        simp only [readsInside_cons, readsInside_nil, Access.Inside, and_true]
        omega
      refine ⟨h, ⟨hcount, fun k hk => ?_⟩, hcount⟩
      rw [cluster_inside_iff h]
      omega
  . rw [if_neg hknown]
    constructor
    . rintro ⟨h, -⟩
      exact ⟨h, fun hknown' => absurd hknown' hknown⟩
    . rintro ⟨h, -⟩
      exact ⟨h, readsInside_nil⟩

/--
The reads stay inside the message exactly for the messages that are as long as they say.
-/
theorem responses_inside_iff (u8SequenceNo : UInt8) (db : Db) (response : Response)
    : (response.ReadsInside (neighbourAccesses u8SequenceNo response)
          ↔ NeighbourSized u8SequenceNo response)
        ∧ (response.ReadsInside (descriptorAccesses db response) ↔ DescriptorSized db response) :=
  ⟨neighbour_inside_iff u8SequenceNo response, descriptor_inside_iff db response⟩

/--
A neighbour table response with three entries, in a message that is long enough for them.
-/
def threeEntries : Response where
  u16Length := 68
  pvMessage i := if i = 3 then 3 else if i = 0 then 7 else 0

/--
A simple descriptor response that counts more clusters than it has.
-/
def manyClusters : Response where
  u16Length := 12
  pvMessage i := if i = 11 then 200 else 0

theorem responses_not_inside
    : ¬threeEntries.ReadsInside (neighbourAccesses 7 threeEntries)
        ∧ ¬manyClusters.ReadsInside
          (descriptorAccesses { zcb := fun _ => { status := .joined } } manyClusters) := by
  constructor
  . rw [neighbour_inside_iff]
    intro h
    have hthird := (h.entries rfl rfl 2 (by decide)).1
    revert hthird
    decide
  . rw [descriptor_inside_iff]
    intro h
    have hclusters := h.clusters (by decide +kernel)
    revert hclusters
    decide

/--
The two messages have the same bytes where the first one is read.
-/
def Response.SameOn (accesses : List Access) (response response' : Response) : Prop :=
  ∀ offset width, .bytes offset width ∈ accesses →
    ∀ n < width, response.pvMessage (offset + n) = response'.pvMessage (offset + n)

section

variable {response response' : Response}

theorem Response.SameOn.mono {accesses accesses' : List Access}
    (h : response.SameOn accesses response') (hsub : ∀ access ∈ accesses', access ∈ accesses)
    : response.SameOn accesses' response' :=
  fun offset width hmem => h offset width (hsub _ hmem)

theorem bigEndian_congr {bytes bytes' : Nat → UInt8} {n : Nat} (h : ∀ i < n, bytes i = bytes' i)
    : bigEndian bytes n = bigEndian bytes' n := by
  induction n with
  | zero => rfl
  | succ n ih =>
    rw [bigEndian, bigEndian, ih fun i hi => h i (Nat.lt_succ_of_lt hi), h n (Nat.lt_succ_self n)]

theorem bytesAt_congr {accesses : List Access} (h : response.SameOn accesses response')
    {offset width : Nat} (hmem : .bytes offset width ∈ accesses)
    : bigEndian (response.bytesAt offset) width = bigEndian (response'.bytesAt offset) width :=
  bigEndian_congr (h offset width hmem)

theorem ntohs_congr {accesses : List Access} (h : response.SameOn accesses response')
    {offset : Nat} (hmem : .bytes offset 2 ∈ accesses)
    : ntohs (response.bytesAt offset) = ntohs (response'.bytesAt offset) :=
  congrArg UInt16.ofNat (bytesAt_congr h hmem)

theorem byte_congr {accesses : List Access} (h : response.SameOn accesses response')
    {offset : Nat} (hmem : .bytes offset 1 ∈ accesses)
    : response.pvMessage offset = response'.pvMessage offset :=
  h offset 1 hmem 0 Nat.one_pos

theorem neighbour_congr (occasion : Occasion) {i : Nat}
    (h : response.SameOn (entryAccesses response i) response')
    : response.neighbour occasion i = response'.neighbour occasion i := by
  have hshort : response.u16ShortAddress i = response'.u16ShortAddress i :=
    ntohs_congr h (by simp [entryAccesses])
  have hieee : response.u64IEEEAddress i = response'.u64IEEEAddress i :=
    congrArg UInt64.ofNat (bytesAt_congr h (by simp [entryAccesses]))
  rw [Response.neighbour, Response.neighbour, hshort, hieee]

theorem handleEntries_congr (occasions : Nat → Occasion) {n i : Nat}
    (h : ∀ k, i ≤ k → k < i + n → response.SameOn (entryAccesses response k) response') (ret : Int)
    (db : Db)
    : handleEntries response occasions n i ret db = handleEntries response' occasions n i ret db := by
  induction n generalizing i ret db with
  | zero => rfl
  | succ n ih =>
    have hentry := neighbour_congr (occasions i) (h i (Nat.le_refl i) (by omega))
    rw [handleEntries, handleEntries, hentry]
    cases handleEntry (response'.neighbour (occasions i) i) (occasions i).sendings ret db with
    | none => rfl
    | some result =>
      obtain ⟨ret', db'⟩ := result
      exact ih (fun k hk hk' => h k (by omega) (by omega)) ret' db'

/--
A message with other bytes where the response is not read is handled in the same way.
-/
theorem neighbour_reads (start : Int) (line : Command → Sending) (occasions : Nat → Occasion)
    (db : Db)
    (h : response.SameOn
      (neighbourAccesses (line (managementLQICommand start)).u8SequenceNo response) response')
    : eZCB_NeighbourTableRequest start { line, responses := [response], occasions } db
        = eZCB_NeighbourTableRequest start { line, responses := [response'], occasions } db := by
  generalize hseq : (line (managementLQICommand start)).u8SequenceNo = u8SequenceNo at h
  have hfirst : response.pvMessage 0 = response'.pvMessage 0 :=
    byte_congr h (by simp [neighbourAccesses])
  simp only [eZCB_NeighbourTableRequest, Answers.response, awaitMatching, hseq, ← hfirst]
  by_cases hsent : eSL_SendMessage (line (managementLQICommand start)) ≠ E_SL_OK
  . rw [if_pos hsent, if_pos hsent]
  rw [if_neg hsent, if_neg hsent]
  by_cases hown : u8SequenceNo = response.pvMessage 0
  . rw [if_pos hown, if_pos hown]
    simp only [neighbourAccesses, if_neg (not_not_intro hown)] at h
    have hstatus : response.u8Status = response'.u8Status := byte_congr h (by simp)
    simp only [← hstatus]
    by_cases hok : response.u8Status = CZD_NW_STATUS_SUCCESS
    . simp only [if_pos hok] at h ⊢
      have hsize : response.u8NeighbourTableSize = response'.u8NeighbourTableSize :=
        byte_congr h (by simp)
      have hcount : response.u8TableEntries = response'.u8TableEntries := byte_congr h (by simp)
      have hentries := handleEntries_congr (i := 0) (n := response.u8TableEntries.toNat) occasions
        (fun k _ hk => h.mono fun access haccess => by
          simp only [List.mem_append, List.mem_flatMap, List.mem_range]
          exact .inr (.inr (.inl (.inl (.inr ⟨k, by omega, haccess⟩))))) 0 db
      have hnext : nextStart response start = nextStart response' start := by
        rw [nextStart, nextStart, hcount, hsize]
      rw [hentries, hcount, hnext]
    . rw [if_neg hok, if_neg hok]
  . rw [if_neg hown, if_neg hown]

theorem descriptor_reads (now now' : Int) (db : Db)
    (h : response.SameOn (descriptorAccesses db response) response')
    : handleDescriptorMessage response now now' db
        = handleDescriptorMessage response' now now' db := by
  have hshort : response.descriptorShortAddress = response'.descriptorShortAddress :=
    ntohs_congr h (by simp [descriptorAccesses])
  have hdescriptor : response.descriptor = response'.descriptor := by
    have hid : ntohs (response.bytesAt 8) = ntohs (response'.bytesAt 8) :=
      ntohs_congr h (by simp [descriptorAccesses])
    have hprofile : ntohs (response.bytesAt 6) = ntohs (response'.bytesAt 6) :=
      ntohs_congr h (by simp [descriptorAccesses])
    have hversion : response.pvMessage 10 = response'.pvMessage 10 :=
      byte_congr h (by simp [descriptorAccesses])
    rw [Response.descriptor, Response.descriptor, hid, hprofile, hversion]
  simp only [handleDescriptorMessage, ← hshort, ← hdescriptor]
  by_cases hknown : (newDbGetZcbSaddr db response.descriptorShortAddress.toNat).isSome
  . rw [if_pos hknown, if_pos hknown]
    simp only [descriptorAccesses, if_pos hknown] at h
    have hcount : response.u8ClusterCount = response'.u8ClusterCount := byte_congr h (by simp)
    have hrequests : descriptorRequests response = descriptorRequests response' := by
      rw [descriptorRequests, descriptorRequests, hcount]
      apply List.flatMap_congr
      intro k hk
      rw [← hcount] at hk
      have hcluster : response.au16Clusters k = response'.au16Clusters k := by
        apply ntohs_congr h
        simp only [List.mem_append, List.mem_flatMap]
        exact .inr (.inl (.inr ⟨k, hk, .inl (List.mem_singleton_self _)⟩))
      rw [← hcluster]
      by_cases honoff : response.au16Clusters k = E_ZB_CLUSTERID_ONOFF
      . have hendpoint : response.descriptorEndpoint = response'.descriptorEndpoint := by
          apply byte_congr h
          simp only [List.mem_append, List.mem_flatMap]
          refine .inr (.inl (.inr ⟨k, hk, .inr ?_⟩))
          rw [if_pos honoff]
          exact List.mem_singleton_self _
        rw [if_pos honoff, if_pos honoff, hendpoint]
      . rw [if_neg honoff, if_neg honoff]
    rw [hrequests]
  . rw [if_neg hknown, if_neg hknown]

end

end ZcbDaemon
