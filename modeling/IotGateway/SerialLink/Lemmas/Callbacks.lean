import IotGateway.SerialLink.Impl.Callbacks

/-!
This module says from which lists of callback functions an entry is removed as it is meant to be.
-/

namespace SerialLink

section

variable {φ υ : Type}

/--
A call of `eSL_AddListener`, and whether its memory could be allocated.
-/
structure AddCall (φ υ : Type) where
  mallocOk : Bool
  entry : CallbackEntry φ υ

/--
The list that calls of `eSL_AddListener` build.
-/
def listenerList (calls : List (AddCall φ υ)) : List (CallbackEntry φ υ) :=
  calls.foldl (fun psListHead call =>
    (eSL_AddListener call.mallocOk call.entry.u16Type call.entry.prCallback call.entry.pvUser
      psListHead).2) []

theorem insertAtEnd_eq (entry : CallbackEntry φ υ) (list : List (CallbackEntry φ υ))
    : insertAtEnd entry list = list ++ [entry] := by
  induction list with
  | nil => rfl
  | cons head list ih => rw [insertAtEnd, ih, List.cons_append]

/--
The entries are in the order of the calls.
-/
theorem listenerList_eq (calls : List (AddCall φ υ))
    : listenerList calls = (calls.filter AddCall.mallocOk).map AddCall.entry := by
  have hfrom (list : List (CallbackEntry φ υ))
      : calls.foldl (fun psListHead call =>
          (eSL_AddListener call.mallocOk call.entry.u16Type call.entry.prCallback call.entry.pvUser
            psListHead).2) list
          = list ++ (calls.filter AddCall.mallocOk).map AddCall.entry := by
    induction calls generalizing list with
    | nil => exact (List.append_nil list).symm
    | cons call calls ih =>
      rw [List.foldl_cons, ih]
      cases hmalloc : call.mallocOk with
      | false =>
        rw [List.filter_cons_of_neg (by simp [hmalloc])]
        rfl
      | true =>
        rw [List.filter_cons_of_pos hmalloc, List.map_cons, List.append_cons]
        congr 1
        exact insertAtEnd_eq _ list
  exact hfrom []

end

section

variable {φ υ : Type} [DecidableEq φ]

def CallbackEntry.matches (u16Type : UInt16) (prCallback : φ) (entry : CallbackEntry φ υ) : Bool :=
  entry.u16Type = u16Type && entry.prCallback = prCallback

/--
The status and the list after the first entry with the type and the callback has been removed.
-/
def removeFirst (u16Type : UInt16) (prCallback : φ) (list : List (CallbackEntry φ υ))
    : Status × List (CallbackEntry φ υ) :=
  if list.any (CallbackEntry.matches u16Type prCallback) then
    (.ok, list.eraseP (CallbackEntry.matches u16Type prCallback))
  else
    (.error, list)

/--
There is an entry. If there is another one behind it, then the first entry with the callback is one of
the first two. Such an entry has the type, too.
-/
def Removable (u16Type : UInt16) (prCallback : φ) : List (CallbackEntry φ υ) → Prop
  | [] => False
  | [head] => head.prCallback = prCallback → head.u16Type = u16Type
  | head :: next :: _ =>
    head.matches u16Type prCallback
      ∨ head.prCallback ≠ prCallback ∧ next.matches u16Type prCallback

theorem matches_iff {u16Type : UInt16} {prCallback : φ} {entry : CallbackEntry φ υ}
    : entry.matches u16Type prCallback = true
        ↔ entry.u16Type = u16Type ∧ entry.prCallback = prCallback := by
  rw [CallbackEntry.matches, Bool.and_eq_true, decide_eq_true_eq, decide_eq_true_eq]

theorem not_matches_of_ne {u16Type : UInt16} {prCallback : φ} {entry : CallbackEntry φ υ}
    (h : entry.prCallback ≠ prCallback)
    : entry.matches u16Type prCallback = false := by
  rw [CallbackEntry.matches, decide_eq_false h, Bool.and_false]

theorem removeFirst_of_matches {u16Type : UInt16} {prCallback : φ} {head : CallbackEntry φ υ}
    (h : head.matches u16Type prCallback = true) (list : List (CallbackEntry φ υ))
    : removeFirst u16Type prCallback (head :: list) = (.ok, list) := by
  rw [removeFirst, List.any_cons, h, Bool.true_or, if_pos rfl, List.eraseP_cons_of_pos h]

theorem removeFirst_cons {u16Type : UInt16} {prCallback : φ} {head : CallbackEntry φ υ}
    (h : head.matches u16Type prCallback = false) (list : List (CallbackEntry φ υ))
    : removeFirst u16Type prCallback (head :: list)
        = ((removeFirst u16Type prCallback list).1,
          head :: (removeFirst u16Type prCallback list).2) := by
  have hneg : ¬head.matches u16Type prCallback = true := by
    rw [h]
    exact Bool.false_ne_true
  simp only [removeFirst, List.any_cons, h, Bool.false_or]
  split
  . rw [List.eraseP_cons_of_neg hneg]
  . rfl

/--
Removing an entry that is not the right one leaves another list than removing the right one.
-/
theorem removeFirst_ne {u16Type : UInt16} {prCallback : φ} {head : CallbackEntry φ υ}
    (h : head.matches u16Type prCallback = false) (list : List (CallbackEntry φ υ))
    : removeFirst u16Type prCallback (head :: list) ≠ (.ok, list) := by
  induction list generalizing head with
  | nil =>
    rw [removeFirst_cons h]
    simp
  | cons next list ih =>
    rw [removeFirst_cons h]
    intro heq
    obtain ⟨hstatus, hlist⟩ := Prod.mk.inj heq
    obtain ⟨rfl, hrest⟩ := List.cons.inj hlist
    exact ih h (Prod.ext hstatus hrest)

/--
The loop never gets past an entry without the callback.
-/
theorem removeBehind_stuck {prCallback : φ} {next : CallbackEntry φ υ}
    (h : next.prCallback ≠ prCallback) (fuel : Nat) (head : CallbackEntry φ υ)
    (rest : List (CallbackEntry φ υ))
    : removeBehind prCallback fuel head (next :: rest) = none := by
  induction fuel with
  | zero => rfl
  | succ fuel ih => rw [removeBehind, if_neg h, ih]

section

variable {u16Type : UInt16} {prCallback : φ} {head next : CallbackEntry φ υ}

/--
The call returns, and has removed what it has to.
-/
def Removes (u16Type : UInt16) (prCallback : φ) (list : List (CallbackEntry φ υ)) : Prop :=
  ∃ fuel, eSL_RemoveListener u16Type prCallback list fuel
    = .returned (removeFirst u16Type prCallback list).1 (removeFirst u16Type prCallback list).2

/--
The first entry is taken out for its callback alone.
-/
theorem removes_head (hhead : head.prCallback = prCallback) (rest : List (CallbackEntry φ υ))
    : Removes u16Type prCallback (head :: rest) ↔ head.u16Type = u16Type := by
  simp only [Removes, eSL_RemoveListener, if_pos hhead, Removal.returned.injEq, exists_const]
  cases hmatch : head.matches u16Type prCallback with
  | true =>
    rw [removeFirst_of_matches hmatch]
    simp [(matches_iff.mp hmatch).1]
  | false =>
    have htype : head.u16Type ≠ u16Type := by
      intro h
      rw [matches_iff.mpr ⟨h, hhead⟩] at hmatch
      cases hmatch
    constructor
    . rintro ⟨hstatus, hlist⟩
      exact absurd (Prod.ext hstatus.symm hlist.symm) (removeFirst_ne hmatch rest)
    . intro h
      exact absurd h htype

theorem removes_single (hhead : head.prCallback ≠ prCallback)
    : Removes u16Type prCallback [head] := by
  refine ⟨1, ?_⟩
  rw [removeFirst_cons (not_matches_of_ne hhead), eSL_RemoveListener, if_neg hhead]
  rfl

/--
Behind the first entry the loop looks at the second one only.
-/
theorem removes_second (hhead : head.prCallback ≠ prCallback) (rest : List (CallbackEntry φ υ))
    : Removes u16Type prCallback (head :: next :: rest) ↔ next.matches u16Type prCallback := by
  have hmiss : head.matches u16Type prCallback = false := not_matches_of_ne hhead
  simp only [Removes, eSL_RemoveListener, if_neg hhead, removeFirst_cons hmiss]
  by_cases hnext : next.prCallback = prCallback
  . -- one turn is enough
    have hturn (fuel : Nat) : removeBehind prCallback (fuel + 1) head (next :: rest)
        = some (some next, head :: rest) := by
      rw [removeBehind, if_pos hnext]
    constructor
    . rintro ⟨fuel, h⟩
      cases fuel with
      | zero => cases h
      | succ fuel =>
        simp only [hturn, Removal.returned.injEq, List.cons.injEq, true_and] at h
        by_contra hmatch
        rw [Bool.not_eq_true] at hmatch
        exact removeFirst_ne hmatch rest (Prod.ext h.1.symm h.2.symm)
    . intro h
      refine ⟨1, ?_⟩
      rw [hturn, removeFirst_of_matches h]
  . simp only [removeBehind_stuck hnext, reduceCtorEq, exists_const, not_matches_of_ne hnext,
      Bool.false_eq_true]

end

/--
The list is one that calls of `eSL_AddListener` have built.
-/
theorem eSL_RemoveListener_iff (calls : List (AddCall φ υ)) (u16Type : UInt16) (prCallback : φ)
    : Removes u16Type prCallback (listenerList calls)
        ↔ Removable u16Type prCallback (listenerList calls) := by
  cases listenerList calls with
  | nil => simp [Removes, eSL_RemoveListener, Removable]
  | cons head rest =>
    by_cases hhead : head.prCallback = prCallback
    . rw [removes_head hhead]
      cases rest with
      | nil => simp [Removable, hhead]
      | cons next rest => simp [Removable, hhead, matches_iff]
    . cases rest with
      | nil => simp [Removable, hhead, removes_single hhead]
      | cons next rest =>
        rw [removes_second hhead]
        simp [Removable, hhead, not_matches_of_ne hhead]

/--
Three callbacks for three types. To remove the last one is an endless loop.
-/
theorem third_not_removed
    : ¬Removes 0x8043 30 (@listenerList Nat Unit
        [⟨true, 0x004D, 10, ()⟩, ⟨true, 0x8048, 20, ()⟩, ⟨true, 0x8043, 30, ()⟩]) := by
  rintro ⟨fuel, h⟩
  have hlist : @listenerList Nat Unit
      [⟨true, 0x004D, 10, ()⟩, ⟨true, 0x8048, 20, ()⟩, ⟨true, 0x8043, 30, ()⟩]
        = [⟨0x004D, 10, ()⟩, ⟨0x8048, 20, ()⟩, ⟨0x8043, 30, ()⟩] := rfl
  rw [hlist, eSL_RemoveListener, if_neg (by decide), removeBehind_stuck (by decide)] at h
  cases h

end

end SerialLink
