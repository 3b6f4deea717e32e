import Mathlib.Data.List.Induction
import Mathlib.Data.List.Nodup

/-!
This module contains arrays whose places are taken from the front, each with a name, and the names
that get a place.
-/

/--
An array of `max` places of which the first `num` are taken.
-/
structure Registry (β : Type) (max : Nat) where
  places : List β
  num : Nat
  length_eq : places.length = max
  num_le : num ≤ max

namespace Registry

variable {β ν : Type} {max : Nat}

def static (zero : β) : Registry β max where
  places := List.replicate max zero
  num := 0
  length_eq := List.length_replicate
  num_le := Nat.zero_le _

def used (r : Registry β max) : List β := r.places.take r.num

def index (p : β → Bool) (r : Registry β max) : Option Nat := r.used.findIdx? p

def find (p : β → Bool) (r : Registry β max) : Option β := r.used.find? p

/--
Take the next place, which keeps what `f` does not write.
-/
def push (f : β → β) (r : Registry β max) (h : r.num < max) : Registry β max where
  places := r.places.modify r.num f
  num := r.num + 1
  length_eq := by rw [List.length_modify, r.length_eq]
  num_le := h

def modify (i : Nat) (f : β → β) (r : Registry β max) : Registry β max where
  places := r.places.modify i f
  num := r.num
  length_eq := by rw [List.length_modify, r.length_eq]
  num_le := r.num_le

def mapUsed (f : β → β) (r : Registry β max) : Registry β max where
  places := r.used.map f ++ r.places.drop r.num
  num := r.num
  length_eq := by
    rw [List.length_append, List.length_map, ← List.length_append]
    unfold used
    rw [List.take_append_drop, r.length_eq]
  num_le := r.num_le

/--
The places that are taken hold `l`, the others are as they were at first.
-/
structure Holds (zero : β) (l : List β) (r : Registry β max) : Prop where
  places_eq : r.places = l ++ List.replicate (max - l.length) zero
  num_eq : r.num = l.length

section

variable {zero : β} {l : List β} {r : Registry β max} {f : β → β} {p : β → Bool} {i : Nat}

theorem modify_append_of_lt (hi : i < l.length) (rest : List β)
    : (l ++ rest).modify i f = l.modify i f ++ rest := by
  induction l generalizing i with
  | nil => cases hi
  | cons a l ih =>
    cases i with
    | zero => rfl
    | succ i =>
      have htail := ih (Nat.lt_of_succ_lt_succ hi)
      simpa using htail

theorem modify_length_append (l : List β) (a : β) (rest : List β)
    : (l ++ a :: rest).modify l.length f = l ++ f a :: rest := by
  induction l with
  | nil => rfl
  | cons b l ih => simpa using ih

theorem holds_static : (static zero : Registry β max).Holds zero [] := ⟨rfl, rfl⟩

theorem Holds.used_eq (h : r.Holds zero l) : r.used = l := by
  unfold used
  rw [h.places_eq, h.num_eq, List.take_left]

theorem Holds.length_le (h : r.Holds zero l) : l.length ≤ max := h.num_eq ▸ r.num_le

theorem Holds.push (h : r.Holds zero l) (hlt : r.num < max)
    : (r.push f hlt).Holds zero (l ++ [f zero]) := by
  have hnum := h.num_eq
  have hrest : List.replicate (max - l.length) zero
      = zero :: List.replicate (max - (l.length + 1)) zero := by
    rw [← List.replicate_succ]
    congr 1
    omega
  constructor
  . show r.places.modify r.num f = _
    rw [h.places_eq, hnum, hrest, modify_length_append, List.length_append, List.append_assoc]
    rfl
  . show r.num + 1 = _
    rw [hnum, List.length_append]
    rfl

theorem Holds.modify (h : r.Holds zero l) (hi : i < l.length)
    : (r.modify i f).Holds zero (l.modify i f) := by
  constructor
  . show r.places.modify i f = _
    rw [h.places_eq, modify_append_of_lt hi, List.length_modify]
  . exact h.num_eq.trans (List.length_modify f l i).symm

theorem Holds.mapUsed (h : r.Holds zero l) : (r.mapUsed f).Holds zero (l.map f) := by
  constructor
  . show r.used.map f ++ r.places.drop r.num = _
    rw [h.used_eq, h.places_eq, h.num_eq, List.drop_left, List.length_map]
  . exact h.num_eq.trans (List.length_map f).symm

/--
If at most one place has `p`, the first with it is all of them.
-/
theorem modify_findIdx (hone : l.Pairwise fun a b => ¬(p a = true ∧ p b = true))
    (hi : l.findIdx? p = some i)
    : l.modify i f = l.map fun a => if p a then f a else a := by
  induction l generalizing i with
  | nil => cases hi
  | cons a l ih =>
    rw [List.pairwise_cons] at hone
    by_cases ha : p a = true
    . rw [List.findIdx?_cons, if_pos ha] at hi
      obtain rfl := Option.some.inj hi
      have hrest : l.map (fun b => if p b then f b else b) = l.map id := by
        apply List.map_congr_left
        intro b hb
        exact if_neg fun hp => hone.1 b hb ⟨ha, hp⟩
      rw [List.map_cons, if_pos ha, hrest, List.map_id]
      rfl
    . rw [List.findIdx?_cons, if_neg ha] at hi
      obtain ⟨j, hj, rfl⟩ := Option.map_eq_some_iff.mp hi
      rw [List.map_cons, if_neg ha, ← ih hone.2 hj]
      rfl

theorem map_of_findIdx (hi : l.findIdx? p = none)
    : (l.map fun a => if p a then f a else a) = l := by
  rw [List.findIdx?_eq_none_iff] at hi
  conv_rhs => rw [← List.map_id l]
  apply List.map_congr_left
  intro a ha
  exact if_neg (by rw [hi a ha]; exact Bool.false_ne_true)

end

section

variable {zero : β} {names : List ν} {g : ν → β} {r : Registry β max} {f : β → β} {p : β → Bool}
  {name : ν}

/--
With one row for each name only the row with `p` changes.
-/
theorem Holds.update (h : r.Holds zero (names.map g)) (g' : ν → β) (hnames : names.Nodup)
    (hp : ∀ n, p (g n) = true → n = name) (hrow : ∀ n ∈ names, p (g n) = true → g' n = f (g n))
    (hrest : ∀ n ∈ names, p (g n) = false → g' n = g n)
    : ((match r.index p with
        | some i => r.modify i f
        | none => r) : Registry β max).Holds zero (names.map g') := by
  have hone : (names.map g).Pairwise fun a b => ¬(p a = true ∧ p b = true) := by
    rw [List.pairwise_map]
    refine hnames.imp fun {a b} hab hboth => hab ?_
    rw [hp a hboth.1, hp b hboth.2]
  have hmap : names.map g' = (names.map g).map fun a => if p a then f a else a := by
    rw [List.map_map]
    apply List.map_congr_left
    intro n hn
    by_cases hyes : p (g n) = true
    . rw [hrow n hn hyes]
      exact (if_pos hyes).symm
    . rw [hrest n hn (Bool.eq_false_iff.mpr hyes)]
      exact (if_neg hyes).symm
  have hindex : r.index p = (names.map g).findIdx? p := by
    unfold index
    rw [h.used_eq]
  rw [hmap, hindex]
  cases hi : (names.map g).findIdx? p with
  | none =>
    rw [map_of_findIdx hi]
    exact h
  | some i =>
    rw [← modify_findIdx hone hi]
    obtain ⟨hlt, -⟩ := List.findIdx?_eq_some_iff_getElem.mp hi
    exact h.modify hlt

theorem Holds.find [DecidableEq ν] (h : r.Holds zero (names.map g))
    (hp : ∀ n, p (g n) = true ↔ n = name)
    : r.find p = if name ∈ names then some (g name) else none := by
  unfold Registry.find
  rw [h.used_eq]
  clear h
  induction names with
  | nil => rfl
  | cons n names ih =>
    rw [List.map_cons, List.find?_cons]
    by_cases hn : n = name
    . rw [(hp n).mpr hn, if_pos (hn ▸ List.mem_cons_self), hn]
    . have hno : p (g n) = false := Bool.eq_false_iff.mpr fun hyes => hn ((hp n).mp hyes)
      rw [hno, ih]
      have hmem : name ∈ n :: names ↔ name ∈ names := by
        rw [List.mem_cons]
        exact or_iff_right (Ne.symm hn)
      simp only [hmem]

theorem Holds.index_isSome (h : r.Holds zero (names.map g)) (hp : ∀ n, p (g n) = true ↔ n = name)
    : (r.index p).isSome = true ↔ name ∈ names := by
  unfold index
  rw [h.used_eq, List.findIdx?_isSome, List.any_map, List.any_eq_true]
  constructor
  . rintro ⟨n, hn, hyes⟩
    rw [← (hp n).mp hyes]
    exact hn
  . intro hname
    exact ⟨name, hname, (hp name).mpr rfl⟩

end

section

variable {ο : Type} [DecidableEq ν] {new : ο → Option ν} {op : ο} {h : List ο} {name : ν}

/--
The first `max` different names.
-/
def firstNames (max : Nat) (l : List ν) : List ν := l.eraseDups.take max

theorem eraseDups_concat (l : List ν) (n : ν)
    : (l ++ [n]).eraseDups = if n ∈ l then l.eraseDups else l.eraseDups ++ [n] := by
  rw [List.eraseDups_append]
  by_cases hn : n ∈ l
  . rw [if_pos hn]
    simp [List.removeAll, hn]
  . rw [if_neg hn]
    simp [List.removeAll, hn, List.eraseDups_cons]

/--
One more name gets the next place if it has none and there is one.
-/
theorem firstNames_concat (l : List ν) (n : ν)
    : firstNames max (l ++ [n])
      = if n ∈ firstNames max l ∨ max ≤ (firstNames max l).length then
          firstNames max l
        else
          firstNames max l ++ [n] := by
  unfold firstNames
  rw [eraseDups_concat]
  have hlength : (l.eraseDups.take max).length = Nat.min max l.eraseDups.length := List.length_take
  by_cases hfull : max ≤ l.eraseDups.length
  . have hstay : (if n ∈ l then l.eraseDups else l.eraseDups ++ [n]).take max
        = l.eraseDups.take max := by
      split
      . rfl
      . exact List.take_append_of_le_length hfull
    have hmax : max ≤ (l.eraseDups.take max).length :=
      Nat.le_of_eq (hlength.trans (Nat.min_eq_left hfull)).symm
    rw [hstay, if_pos (.inr hmax)]
  . have htake : l.eraseDups.take max = l.eraseDups := List.take_of_length_le (by omega)
    rw [htake]
    by_cases hn : n ∈ l
    . have hmem : n ∈ l.eraseDups := List.mem_eraseDups.mpr hn
      rw [if_pos hn, if_pos (Or.inl hmem), htake]
    . have hnot : ¬(n ∈ l.eraseDups ∨ max ≤ l.eraseDups.length) := by
        rw [List.mem_eraseDups]
        exact not_or.mpr ⟨hn, hfull⟩
      rw [if_neg hn, if_neg hnot, List.take_of_length_le]
      rw [List.length_append, List.length_singleton]
      omega

theorem nodup_firstNames (l : List ν) : (firstNames max l).Nodup := by
  apply List.Nodup.sublist (List.take_sublist _ _)
  induction l using List.reverseRecOn with
  | nil => exact List.nodup_nil
  | append_singleton l n ih =>
    rw [eraseDups_concat]
    split
    . exact ih
    . next hn =>
      rw [List.nodup_append]
      refine ⟨ih, List.nodup_singleton n, ?_⟩
      intro a ha b hb hab
      rw [List.mem_singleton.mp hb] at hab
      rw [List.mem_eraseDups, hab] at ha
      exact hn ha

/--
The names that a history registers. Its last event is the first in the list.
-/
def named (max : Nat) (new : ο → Option ν) (h : List ο) : List ν :=
  firstNames max (h.reverse.filterMap new)

theorem named_of_none (hop : new op = none) : named max new (op :: h) = named max new h := by
  unfold named
  rw [List.reverse_cons, List.filterMap_append, List.filterMap_cons_none hop, List.filterMap_nil,
    List.append_nil]

theorem named_of_some (hop : new op = some name)
    : named max new (op :: h)
      = if name ∈ named max new h ∨ max ≤ (named max new h).length then
          named max new h
        else
          named max new h ++ [name] := by
  unfold named
  rw [List.reverse_cons, List.filterMap_append, List.filterMap_cons_some hop, List.filterMap_nil,
    firstNames_concat]

theorem named_subset (op : ο) (h : List ο) : named max new h ⊆ named max new (op :: h) := by
  cases hop : new op with
  | none =>
    rw [named_of_none hop]
    exact List.Subset.refl _
  | some name =>
    rw [named_of_some hop]
    split
    . exact List.Subset.refl _
    . exact List.subset_append_left _ _

theorem nodup_named (h : List ο) : (named max new h).Nodup := nodup_firstNames _

end

end Registry
