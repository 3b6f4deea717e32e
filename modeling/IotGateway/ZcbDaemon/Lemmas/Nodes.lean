import IotGateway.Lib.Machine
import IotGateway.ZcbDaemon.Impl.Nodes

/-!
This module contains the bindings between nodes and short addresses that the network announces, and
says when the node table has them.
-/

namespace ZcbDaemon

open NewDb Table

theorem num2nibble_inj {a b : Nat} (ha : a < 16) (hb : b < 16) (h : num2nibble a = num2nibble b)
    : a = b := by
  have hall : ∀ a < 16, ∀ b < 16, num2nibble a = num2nibble b → a = b := by decide
  exact hall a ha b hb h

theorem nibbles_length (i num : Nat) (text : List Char)
    : (nibbles i num text).length = i + text.length := by
  induction i generalizing num text with
  | zero => simp [nibbles]
  | succ i ih =>
    rw [nibbles, ih, List.length_cons]
    omega

theorem nibbles_inj {i num num' : Nat} {text text' : List Char}
    (h : nibbles i num text = nibbles i num' text')
    : num % 16 ^ i = num' % 16 ^ i ∧ text = text' := by
  induction i generalizing num num' text text' with
  | zero => exact ⟨by simp only [Nat.pow_zero, Nat.mod_one], h⟩
  | succ i ih =>
    obtain ⟨hhigh, hcons⟩ := ih h
    obtain ⟨hnibble, htext⟩ := List.cons.inj hcons
    have hlow : num % 16 = num' % 16 := by
      apply num2nibble_inj
      . exact Nat.mod_lt _ (by decide)
      . exact Nat.mod_lt _ (by decide)
      . exact hnibble
    refine ⟨?_, htext⟩
    rw [Nat.pow_succ', Nat.mod_mul, Nat.mod_mul, hlow, hhigh]

theorem u642nibblestr_length (u64 : UInt64) : (u642nibblestr u64).toList.length = LEN_MAC_NIBBLE := by
  rw [u642nibblestr, String.toList_ofList, nibbles_length]
  rfl

theorem u642nibblestr_inj {a b : UInt64} (h : u642nibblestr a = u642nibblestr b) : a = b := by
  obtain ⟨hmod, -⟩ := nibbles_inj (String.ofList_injective h)
  have ha : a.toNat % 16 ^ 16 = a.toNat := Nat.mod_eq_of_lt a.toNat_lt
  have hb : b.toNat % 16 ^ 16 = b.toNat := Nat.mod_eq_of_lt b.toNat_lt
  rw [ha, hb] at hmod
  exact UInt64.toNat_inj.mp hmod

/--
For every node the short address that it has announced last, unless it has left or another node has
announced the address since.
-/
abbrev Bindings : Type := UInt64 → Option UInt16

def Bindings.announce (shortAddress : UInt16) (extendedAddress : UInt64) (b : Bindings) : Bindings :=
  fun node =>
    if node = extendedAddress then
      some shortAddress
    else if b node = some shortAddress then
      none
    else
      b node

def Bindings.after (b : Bindings) : NodeEvent → Bindings
  | .announce shortAddress extendedAddress _ _ => b.announce shortAddress extendedAddress
  | .leave extendedAddress keep _ => if keep then b else Function.update b extendedAddress none
  | .deviceID _ _ _ => b

def Bindings.empty : Bindings := fun _ => none

/--
Each key is in at most one row that is not free, and both lookups find the bindings.
-/
structure Bound (db : Db) (b : Bindings) : Prop where
  macs : ∀ i j, (db.zcb i).status ≠ .free → (db.zcb j).status ≠ .free →
    (db.zcb i).mac = (db.zcb j).mac → i = j
  saddrs : ∀ i j, (db.zcb i).status ≠ .free → (db.zcb j).status ≠ .free →
    (db.zcb i).saddr = (db.zcb j).saddr → i = j
  byMac : ∀ node,
    (newDbGetZcb db (u642nibblestr node)).map Zcb.saddr = (b node).map fun saddr => (saddr.toNat : Int)
  bySaddr : ∀ (saddr : UInt16) node,
    (newDbGetZcbSaddr db saddr.toNat).map Zcb.mac = some (u642nibblestr node) ↔ b node = some saddr
  unbound : ∀ saddr : UInt16,
    newDbGetZcbSaddr db saddr.toNat = none ↔ ∀ node, b node ≠ some saddr

def Zcb.macKey (zcb : Zcb) : Option String := if zcb.status = .free then none else some zcb.mac

def Zcb.saddrKey (zcb : Zcb) : Option Int := if zcb.status = .free then none else some zcb.saddr

theorem macKey_eq_some_iff {zcb : Zcb} {mac : String}
    : Zcb.macKey zcb = some mac ↔ zcb.status ≠ .free ∧ zcb.mac = mac := by
  unfold Zcb.macKey
  split <;> simp_all

theorem saddrKey_eq_some_iff {zcb : Zcb} {saddr : Int}
    : Zcb.saddrKey zcb = some saddr ↔ zcb.status ≠ .free ∧ zcb.saddr = saddr := by
  unfold Zcb.saddrKey
  split <;> simp_all

theorem newDbGetZcb_eq (db : Db) (mac : String)
    : newDbGetZcb db mac = (lookup Zcb.macKey mac db.zcb).map db.zcb := by
  unfold newDbGetZcb lookup
  congr 2
  funext zcb
  rw [Bool.eq_iff_iff, beq_iff_eq, macKey_eq_some_iff]
  simp

theorem newDbGetZcbSaddr_eq (db : Db) (saddr : Int)
    : newDbGetZcbSaddr db saddr = (lookup Zcb.saddrKey saddr db.zcb).map db.zcb := by
  unfold newDbGetZcbSaddr lookup
  congr 2
  funext zcb
  rw [Bool.eq_iff_iff, beq_iff_eq, saddrKey_eq_some_iff]
  simp

/--
The row of a node with its short address.
-/
def Zcb.Holds (node : UInt64) (saddr : UInt16) (zcb : Zcb) : Prop :=
  zcb.status ≠ .free ∧ zcb.mac = u642nibblestr node ∧ zcb.saddr = saddr.toNat

/--
The rows that are not free are those of the bindings, and know their index.
-/
structure Nodes (t : Fin NEWDB_MAX_ZCB → Zcb) (b : Bindings) : Prop where
  macs : Keyed Zcb.macKey t
  saddrs : Keyed Zcb.saddrKey t
  sound : ∀ i, (t i).status ≠ .free →
    (t i).id = i ∧ ∃ node saddr, Zcb.Holds node saddr (t i) ∧ b node = some saddr
  complete : ∀ node saddr, b node = some saddr → ∃ i, Zcb.Holds node saddr (t i)

section

variable {t : Fin NEWDB_MAX_ZCB → Zcb} {b : Bindings} {i : Fin NEWDB_MAX_ZCB} {zcb : Zcb}
  {node : UInt64} {saddr : UInt16}

theorem toNat_inj {a b : UInt16} (h : (a.toNat : Int) = b.toNat) : a = b :=
  UInt16.toNat_inj.mp (Int.ofNat.inj h)

theorem Nodes.row (h : Nodes t b) (hnode : Zcb.Holds node saddr (t i)) : b node = some saddr := by
  obtain ⟨hlive, hmac, hsaddr⟩ := hnode
  obtain ⟨-, node', saddr', ⟨-, hmac', hsaddr'⟩, hb⟩ := h.sound i hlive
  rw [hmac] at hmac'
  rw [hsaddr] at hsaddr'
  rwa [u642nibblestr_inj hmac', toNat_inj hsaddr']

theorem Nodes.lookup_mac (h : Nodes t b)
    : lookup Zcb.macKey (u642nibblestr node) t = some i ↔ ∃ saddr, Zcb.Holds node saddr (t i) := by
  rw [h.macs.lookup_eq_some_iff, macKey_eq_some_iff]
  constructor
  . rintro ⟨hlive, hmac⟩
    obtain ⟨-, -, saddr, ⟨-, -, hsaddr⟩, -⟩ := h.sound i hlive
    exact ⟨saddr, hlive, hmac, hsaddr⟩
  . rintro ⟨saddr, hlive, hmac, -⟩
    exact ⟨hlive, hmac⟩

theorem Nodes.lookup_saddr (h : Nodes t b)
    : lookup Zcb.saddrKey saddr.toNat t = some i ↔ ∃ node, Zcb.Holds node saddr (t i) := by
  rw [h.saddrs.lookup_eq_some_iff, saddrKey_eq_some_iff]
  constructor
  . rintro ⟨hlive, hsaddr⟩
    obtain ⟨-, node, -, ⟨-, hmac, -⟩, -⟩ := h.sound i hlive
    exact ⟨node, hlive, hmac, hsaddr⟩
  . rintro ⟨node, hlive, -, hsaddr⟩
    exact ⟨hlive, hsaddr⟩

/--
A row may be written whose keys are in no other row, over a free row or one with one of the keys.
-/
theorem Nodes.announce (h : Nodes t b) (hid : zcb.id = i) (hholds : Zcb.Holds node saddr zcb)
    (hold : (t i).status = .free ∨ (t i).mac = u642nibblestr node ∨ (t i).saddr = saddr.toNat)
    (hmac : ∀ j, j ≠ i → Zcb.macKey (t j) ≠ some (u642nibblestr node))
    (hsaddr : ∀ j, j ≠ i → Zcb.saddrKey (t j) ≠ some (saddr.toNat : Int))
    : Nodes (Function.update t i zcb) (b.announce saddr node) := by
  obtain ⟨hlive, hzmac, hzsaddr⟩ := hholds
  have hmacKey : Zcb.macKey zcb = some (u642nibblestr node) :=
    macKey_eq_some_iff.mpr ⟨hlive, hzmac⟩
  have hsaddrKey : Zcb.saddrKey zcb = some (saddr.toNat : Int) :=
    saddrKey_eq_some_iff.mpr ⟨hlive, hzsaddr⟩
  constructor
  . apply h.macs.update
    intro j k hj hk
    rw [hmacKey] at hk
    obtain rfl := Option.some.inj hk
    exact hmac j hj
  . apply h.saddrs.update
    intro j k hj hk
    rw [hsaddrKey] at hk
    obtain rfl := Option.some.inj hk
    exact hsaddr j hj
  . intro j hj
    by_cases hji : j = i
    . subst hji
      rw [Function.update_self]
      refine ⟨hid, node, saddr, ⟨hlive, hzmac, hzsaddr⟩, ?_⟩
      simp [Bindings.announce]
    . rw [Function.update_of_ne hji] at hj ⊢
      obtain ⟨hjid, node', saddr', hholds', hb⟩ := h.sound j hj
      refine ⟨hjid, node', saddr', hholds', ?_⟩
      have hnode : node' ≠ node := by
        rintro rfl
        exact hmac j hji (macKey_eq_some_iff.mpr ⟨hj, hholds'.2.1⟩)
      have hne : saddr' ≠ saddr := by
        rintro rfl
        exact hsaddr j hji (saddrKey_eq_some_iff.mpr ⟨hj, hholds'.2.2⟩)
      simp [Bindings.announce, hnode, hb, hne]
  . intro node' saddr' hb
    unfold Bindings.announce at hb
    split at hb
    . next heq =>
      obtain rfl := Option.some.inj hb
      subst heq
      exact ⟨i, by rw [Function.update_self]; exact ⟨hlive, hzmac, hzsaddr⟩⟩
    . next hnode =>
      split at hb
      . cases hb
      . next hfree =>
        obtain ⟨j, hj⟩ := h.complete node' saddr' hb
        refine ⟨j, ?_⟩
        have hji : j ≠ i := by
          rintro rfl
          rcases hold with hold | hold | hold
          . exact hj.1 hold
          . apply hnode
            apply u642nibblestr_inj
            rw [← hj.2.1, hold]
          . apply hfree
            rw [hb, toNat_inj (hj.2.2.symm.trans hold)]
        rwa [Function.update_of_ne hji]

theorem Nodes.keep (h : Nodes t b) (hlive : (t i).status ≠ .free) (hid : zcb.id = i)
    (hstatus : zcb.status ≠ .free) (hmac : zcb.mac = (t i).mac) (hsaddr : zcb.saddr = (t i).saddr)
    : Nodes (Function.update t i zcb) b := by
  have hholds : ∀ node saddr, Zcb.Holds node saddr zcb ↔ Zcb.Holds node saddr (t i) := by
    intro node saddr
    simp [Zcb.Holds, hlive, hstatus, hmac, hsaddr]
  constructor
  . apply h.macs.update_same
    simp [Zcb.macKey, hlive, hstatus, hmac]
  . apply h.saddrs.update_same
    simp [Zcb.saddrKey, hlive, hstatus, hsaddr]
  . intro j hj
    by_cases hji : j = i
    . subst hji
      rw [Function.update_self]
      obtain ⟨-, node, saddr, hrow, hb⟩ := h.sound j hlive
      exact ⟨hid, node, saddr, (hholds node saddr).mpr hrow, hb⟩
    . rw [Function.update_of_ne hji] at hj ⊢
      exact h.sound j hj
  . intro node saddr hb
    obtain ⟨j, hj⟩ := h.complete node saddr hb
    refine ⟨j, ?_⟩
    by_cases hji : j = i
    . subst hji
      rw [Function.update_self]
      exact (hholds node saddr).mpr hj
    . rwa [Function.update_of_ne hji]

theorem Nodes.free (h : Nodes t b) (hrow : Zcb.Holds node saddr (t i)) (hstatus : zcb.status = .free)
    : Nodes (Function.update t i zcb) (Function.update b node none) := by
  have hb : b node = some saddr := h.row hrow
  constructor
  . apply h.macs.update_none
    simp [Zcb.macKey, hstatus]
  . apply h.saddrs.update_none
    simp [Zcb.saddrKey, hstatus]
  . intro j hj
    have hji : j ≠ i := by
      rintro rfl
      rw [Function.update_self] at hj
      exact hj hstatus
    rw [Function.update_of_ne hji] at hj ⊢
    obtain ⟨hid, node', saddr', hrow', hb'⟩ := h.sound j hj
    refine ⟨hid, node', saddr', hrow', ?_⟩
    have hne : node' ≠ node := by
      rintro rfl
      apply hji
      apply h.macs j i (u642nibblestr node')
      . exact macKey_eq_some_iff.mpr ⟨hj, hrow'.2.1⟩
      . exact macKey_eq_some_iff.mpr ⟨hrow.1, hrow.2.1⟩
    rwa [Function.update_of_ne hne]
  . intro node' saddr' hb'
    have hne : node' ≠ node := by
      rintro rfl
      rw [Function.update_self] at hb'
      cases hb'
    rw [Function.update_of_ne hne] at hb'
    obtain ⟨j, hj⟩ := h.complete node' saddr' hb'
    refine ⟨j, ?_⟩
    have hji : j ≠ i := by
      rintro rfl
      apply hne
      apply u642nibblestr_inj
      rw [← hj.2.1, hrow.2.1]
    rwa [Function.update_of_ne hji]

theorem Nodes.bound {db : Db} (h : Nodes db.zcb b) : Bound db b := by
  constructor
  . intro i j hi hj heq
    apply h.macs i j (db.zcb i).mac
    . exact macKey_eq_some_iff.mpr ⟨hi, rfl⟩
    . exact macKey_eq_some_iff.mpr ⟨hj, heq.symm⟩
  . intro i j hi hj heq
    apply h.saddrs i j (db.zcb i).saddr
    . exact saddrKey_eq_some_iff.mpr ⟨hi, rfl⟩
    . exact saddrKey_eq_some_iff.mpr ⟨hj, heq.symm⟩
  . intro node
    rw [newDbGetZcb_eq]
    cases hlookup : lookup Zcb.macKey (u642nibblestr node) db.zcb with
    | none =>
      rw [lookup_eq_none_iff] at hlookup
      cases hb : b node with
      | none => rfl
      | some saddr =>
        obtain ⟨i, hlive, hmac, -⟩ := h.complete node saddr hb
        exact absurd (macKey_eq_some_iff.mpr ⟨hlive, hmac⟩) (hlookup i)
    | some i =>
      obtain ⟨saddr, hrow⟩ := h.lookup_mac.mp hlookup
      rw [h.row hrow]
      exact congrArg some hrow.2.2
  . intro saddr node
    rw [newDbGetZcbSaddr_eq, Option.map_map, Option.map_eq_some_iff]
    constructor
    . rintro ⟨i, hlookup, hmac⟩
      obtain ⟨node', hrow⟩ := h.lookup_saddr.mp hlookup
      have hnode : node' = node := by
        apply u642nibblestr_inj
        rw [← hrow.2.1]
        exact hmac
      rw [← hnode]
      exact h.row hrow
    . intro hb
      obtain ⟨i, hrow⟩ := h.complete node saddr hb
      exact ⟨i, h.lookup_saddr.mpr ⟨node, hrow⟩, hrow.2.1⟩
  . intro saddr
    rw [newDbGetZcbSaddr_eq, Option.map_eq_none_iff, lookup_eq_none_iff]
    constructor
    . intro hnone node hb
      obtain ⟨i, hlive, -, hsaddr⟩ := h.complete node saddr hb
      exact hnone i (saddrKey_eq_some_iff.mpr ⟨hlive, hsaddr⟩)
    . intro hnone i hkey
      obtain ⟨hlive, hsaddr⟩ := saddrKey_eq_some_iff.mp hkey
      obtain ⟨-, node, saddr', hrow, hb⟩ := h.sound i hlive
      apply hnone node
      rw [hb, toNat_inj (hrow.2.2.symm.trans hsaddr)]

theorem Nodes.empty (hfree : ∀ i, (t i).status = .free) : Nodes t .empty := by
  have hmac : ∀ i, Zcb.macKey (t i) = none := fun i => if_pos (hfree i)
  have hsaddr : ∀ i, Zcb.saddrKey (t i) = none := fun i => if_pos (hfree i)
  constructor
  . intro i j k hi
    rw [hmac] at hi
    cases hi
  . intro i j k hi
    rw [hsaddr] at hi
    cases hi
  . intro i hi
    exact absurd (hfree i) hi
  . intro node saddr hb
    cases hb

end

section

variable {db : Db} {mac : String} {now : Int}

theorem newDbGetZcb_spec {zcb : Zcb} (h : newDbGetZcb db mac = some zcb)
    : ∃ i, db.zcb i = zcb ∧ zcb.status ≠ .free ∧ zcb.mac = mac := by
  rw [newDbGetZcb_eq] at h
  obtain ⟨i, hlookup, rfl⟩ := Option.map_eq_some_iff.mp h
  exact ⟨i, rfl, macKey_eq_some_iff.mp (lookup_spec hlookup)⟩

theorem newDbGetZcbSaddr_spec {zcb : Zcb} {saddr : Int} (h : newDbGetZcbSaddr db saddr = some zcb)
    : ∃ i, db.zcb i = zcb ∧ zcb.status ≠ .free ∧ zcb.saddr = saddr := by
  rw [newDbGetZcbSaddr_eq] at h
  obtain ⟨i, hlookup, rfl⟩ := Option.map_eq_some_iff.mp h
  exact ⟨i, rfl, saddrKey_eq_some_iff.mp (lookup_spec hlookup)⟩

theorem newDbGetZcb_eq_none (h : newDbGetZcb db mac = none) (i : Fin NEWDB_MAX_ZCB)
    : Zcb.macKey (db.zcb i) ≠ some mac := by
  rw [newDbGetZcb_eq, Option.map_eq_none_iff, lookup_eq_none_iff] at h
  exact h i

theorem newDbGetZcbSaddr_eq_none {saddr : Int} (h : newDbGetZcbSaddr db saddr = none)
    (i : Fin NEWDB_MAX_ZCB)
    : Zcb.saddrKey (db.zcb i) ≠ some saddr := by
  rw [newDbGetZcbSaddr_eq, Option.map_eq_none_iff, lookup_eq_none_iff] at h
  exact h i

theorem newDbSetZcb_zcb {zcb : Zcb} {i : Fin NEWDB_MAX_ZCB} (h : zcb.id = i)
    : (newDbSetZcb db zcb now).1.zcb = Function.update db.zcb i { zcb with lastupdate := now } := by
  simp [newDbSetZcb, setRow, h]

theorem scan_of_added {scan : ZcbScan} (h : scan.added = true) (rows : List (Fin NEWDB_MAX_ZCB))
    : rows.foldl (ZcbScan.next db) scan = scan := by
  induction rows with
  | nil => rfl
  | cons i rows ih =>
    have hnext : ZcbScan.next db scan i = scan := if_pos h
    rw [List.foldl_cons, hnext, ih]

theorem scan_free {rows : List (Fin NEWDB_MAX_ZCB)} (scan : ZcbScan) (hscan : scan.added = false)
    (h : ∃ i ∈ rows, (db.zcb i).status = .free)
    : ∃ i, (db.zcb i).status = .free ∧ (rows.foldl (ZcbScan.next db) scan).index = some i
        ∧ (rows.foldl (ZcbScan.next db) scan).added = true := by
  induction rows generalizing scan with
  | nil =>
    obtain ⟨i, hi, -⟩ := h
    cases hi
  | cons j rows ih =>
    rw [List.foldl_cons]
    by_cases hj : (db.zcb j).status = .free
    . have hnext : ZcbScan.next db scan j = { scan with added := true, index := some j } := by
        simp [ZcbScan.next, hscan, hj]
      rw [hnext, scan_of_added rfl]
      exact ⟨j, hj, rfl, rfl⟩
    . apply ih
      . unfold ZcbScan.next
        simp only [hscan, hj, Bool.false_eq_true, if_false]
        split
        . rfl
        . exact hscan
      . obtain ⟨i, hi, hfree⟩ := h
        rcases List.mem_cons.mp hi with rfl | hi
        . exact absurd hfree hj
        . exact ⟨i, hi, hfree⟩

/--
The row that is made for a MAC.
-/
def newZcb (i : Fin NEWDB_MAX_ZCB) (mac : String) (now : Int) : Zcb :=
  { id := i, status := .used, mac := newDbStrNcpy "" (some mac) LEN_MAC_NIBBLE, lastupdate := now }

@[simp]
theorem newZcb_mac (i : Fin NEWDB_MAX_ZCB) (node : UInt64) (now : Int)
    : (newZcb i (u642nibblestr node) now).mac = u642nibblestr node := by
  rw [newZcb, newDbStrNcpy_eq (u642nibblestr_length node).le]

theorem newDbGetNewZcb_spec (mac : String) (now : Int) (h : ∃ i, (db.zcb i).status = .free)
    : ∃ i, (db.zcb i).status = .free
        ∧ (newDbGetNewZcb db mac now).1.zcb = Function.update db.zcb i (newZcb i mac now)
        ∧ (newDbGetNewZcb db mac now).2 = some (newZcb i mac now) := by
  obtain ⟨i, hi⟩ := h
  obtain ⟨j, hj, hindex, hadded⟩ :=
    scan_free { oldest := now } rfl ⟨i, List.mem_finRange i, hi⟩
  refine ⟨j, hj, ?_⟩
  unfold newDbGetNewZcb
  simp only [hindex, hadded, if_true]
  exact ⟨rfl, rfl⟩

end

/--
The two lookups of an announcement do not find different rows, and a new node finds a free row.
-/
def Admits (db : Db) : NodeEvent → Prop
  | .announce shortAddress extendedAddress _ _ =>
    let bySaddr := newDbGetZcbSaddr db shortAddress.toNat
    let byMac := newDbGetZcb db (u642nibblestr extendedAddress)
    (∀ zcb ∈ bySaddr, ∀ zcb' ∈ byMac, zcb.id = zcb'.id)
      ∧ (bySaddr = none ∧ byMac = none → ∃ i, (db.zcb i).status = .free)
  | .leave _ _ _ => True
  | .deviceID _ _ _ => True

instance decidableAdmits (db : Db) : (ev : NodeEvent) → Decidable (Admits db ev)
  | .announce _ _ _ _ => inferInstanceAs (Decidable (_ ∧ _))
  | .leave _ _ _ => inferInstanceAs (Decidable True)
  | .deviceID _ _ _ => inferInstanceAs (Decidable True)

theorem Nodes.zcbAddNode {db : Db} {b : Bindings} {saddr : UInt16} {node : UInt64} {now now' : Int}
    (h : Nodes db.zcb b) (hok : Admits db (.announce saddr node now now'))
    : Nodes (zcbAddNode saddr node now now' db).1.zcb (b.announce saddr node) := by
  obtain ⟨hsame, hroom⟩ := hok
  unfold ZcbDaemon.zcbAddNode
  simp only
  cases hsaddr : newDbGetZcbSaddr db saddr.toNat with
  | some zcb =>
    obtain ⟨i, rfl, hlive, hkey⟩ := newDbGetZcbSaddr_spec hsaddr
    obtain ⟨hid, -⟩ := h.sound i hlive
    simp only
    rw [newDbSetZcb_zcb (i := i) ?hid]
    case hid => exact hid
    apply h.announce
    . exact hid
    . exact ⟨nofun, rfl, hkey⟩
    . exact .inr (.inr hkey)
    . intro j hj hmac
      cases hget : newDbGetZcb db (u642nibblestr node) with
      | none => exact newDbGetZcb_eq_none hget j hmac
      | some zcb' =>
        have hids : (db.zcb i).id = zcb'.id := hsame _ hsaddr _ hget
        obtain ⟨k, rfl, hlive', hmac'⟩ := newDbGetZcb_spec hget
        have hjk : j = k := h.macs j k _ hmac (macKey_eq_some_iff.mpr ⟨hlive', hmac'⟩)
        rw [hid, (h.sound k hlive').1] at hids
        omega
    . intro j hj hother
      exact hj (h.saddrs j i _ hother (saddrKey_eq_some_iff.mpr ⟨hlive, hkey⟩))
  | none =>
    cases hget : newDbGetZcb db (u642nibblestr node) with
    | some zcb =>
      obtain ⟨i, rfl, hlive, hkey⟩ := newDbGetZcb_spec hget
      obtain ⟨hid, -⟩ := h.sound i hlive
      simp only
      rw [newDbSetZcb_zcb (i := i) ?hid]
      case hid => exact hid
      apply h.announce
      . exact hid
      . exact ⟨nofun, hkey, rfl⟩
      . exact .inr (.inl hkey)
      . intro j hj hother
        exact hj (h.macs j i _ hother (macKey_eq_some_iff.mpr ⟨hlive, hkey⟩))
      . intro j _
        exact newDbGetZcbSaddr_eq_none hsaddr j
    | none =>
      obtain ⟨i, hfree, hdb, hrow⟩ :=
        newDbGetNewZcb_spec (u642nibblestr node) now (hroom ⟨hsaddr, hget⟩)
      simp only
      rw [show newDbGetNewZcb db (u642nibblestr node) now
        = ((newDbGetNewZcb db (u642nibblestr node) now).1, some _) from Prod.ext rfl hrow]
      simp only
      rw [newDbSetZcb_zcb (i := i) ?hid, hdb, Function.update_idem]
      case hid => rfl
      apply h.announce
      . rfl
      . exact ⟨nofun, newZcb_mac i node now, rfl⟩
      . exact .inl hfree
      . intro j _
        exact newDbGetZcb_eq_none hget j
      . intro j _
        exact newDbGetZcbSaddr_eq_none hsaddr j

theorem Nodes.zcbNodeLeft {db : Db} {b : Bindings} {node : UInt64} {keep : Bool} {now : Int}
    (h : Nodes db.zcb b)
    : Nodes (zcbNodeLeft node keep now db).1.zcb (b.after (.leave node keep now)) := by
  unfold ZcbDaemon.zcbNodeLeft Bindings.after
  cases hget : newDbGetZcb db (u642nibblestr node) with
  | none =>
    cases keep with
    | true => exact h
    | false =>
      have hb : b node = none := by
        cases hb : b node with
        | none => rfl
        | some saddr =>
          obtain ⟨i, hlive, hmac, -⟩ := h.complete node saddr hb
          exact absurd (macKey_eq_some_iff.mpr ⟨hlive, hmac⟩) (newDbGetZcb_eq_none hget i)
      simp only [Bool.false_eq_true, if_false]
      rw [← hb, Function.update_eq_self]
      exact h
  | some zcb =>
    obtain ⟨i, rfl, hlive, hmac⟩ := newDbGetZcb_spec hget
    obtain ⟨hid, -, saddr, ⟨-, -, hsaddr⟩, -⟩ := h.sound i hlive
    simp only
    rw [newDbSetZcb_zcb (i := i) ?hid]
    case hid => exact hid
    cases keep with
    | true =>
      apply h.keep (i := i) hlive
      . exact hid
      . simp
      . rfl
      . rfl
    | false => exact h.free ⟨hlive, hmac, hsaddr⟩ rfl

theorem Nodes.zcbNodeSetDeviceID {db : Db} {b : Bindings} {saddr deviceID : UInt16} {now : Int}
    (h : Nodes db.zcb b)
    : Nodes (zcbNodeSetDeviceID saddr deviceID now db).1.zcb b := by
  unfold ZcbDaemon.zcbNodeSetDeviceID
  cases hget : newDbGetZcbSaddr db saddr.toNat with
  | none => exact h
  | some zcb =>
    obtain ⟨i, rfl, hlive, -⟩ := newDbGetZcbSaddr_spec hget
    obtain ⟨hid, -⟩ := h.sound i hlive
    simp only
    split
    . rw [newDbSetZcb_zcb (i := i) ?hid]
      case hid => exact hid
      apply h.keep (i := i) hlive
      . exact hid
      . exact hlive
      . rfl
      . rfl
    . exact h

/--
The table beside the bindings that it should have.
-/
def networkStep (s : Db × Bindings) (ev : NodeEvent) : (Db × Bindings) × List Empty :=
  ((nodeStep s.1 ev, s.2.after ev), [])

def HasNodes (s : Db × Bindings) : Prop := Nodes s.1.zcb s.2

theorem networkStep_nodes (s : Db × Bindings) (ev : NodeEvent) (h : HasNodes s)
    (hok : Admits s.1 ev)
    : HasNodes (networkStep s ev).1 := by
  cases ev with
  | announce saddr node now now' => exact Nodes.zcbAddNode h hok
  | leave node keep now => exact Nodes.zcbNodeLeft h
  | deviceID saddr deviceID now => exact Nodes.zcbNodeSetDeviceID h

/--
The bindings are in the table after every run that the table admits.
-/
theorem run_bound (db : Db) (events : List NodeEvent) (hempty : ∀ i, (db.zcb i).status = .free)
    (hok : Machine.Along networkStep (fun s ev => Admits s.1 ev) (db, .empty) events)
    : Bound (Machine.exec networkStep (db, .empty) events).1
        (Machine.exec networkStep (db, .empty) events).2 := by
  have hnodes : HasNodes (Machine.exec networkStep (db, .empty) events) := by
    apply Machine.inv_exec networkStep networkStep_nodes
    . exact Nodes.empty hempty
    . exact hok
  exact Nodes.bound hnodes

/--
A node that leaves for good and joins again with the address of another one, which has moved.
-/
def rejoin : List NodeEvent :=
  [.announce 1 0xA 0 0, .announce 2 0xB 1 1, .announce 3 0xA 2 2, .leave 0xB false 3,
    .announce 1 0xB 4 4, .deviceID 1 0x0302 5]

theorem run_bound_rejoin
    : Bound (Machine.exec networkStep (Db.init, .empty) rejoin).1
        (Machine.exec networkStep (Db.init, .empty) rejoin).2 := by
  apply run_bound
  . intro i
    rfl
  . decide

/--
A node that is in the table gets the address of another one that is in the table.
-/
def takeover : List NodeEvent := [.announce 1 0xA 0 0, .announce 2 0xB 1 1, .announce 1 0xB 2 2]

theorem takeover_not_bound
    : ¬ Bound (Machine.exec networkStep (Db.init, .empty) takeover).1
        (Machine.exec networkStep (Db.init, .empty) takeover).2 := by
  intro h
  have hrows : (0 : Fin NEWDB_MAX_ZCB) = 1 := by
    apply h.macs
    . decide +kernel
    . decide +kernel
    . decide +kernel
  cases hrows

end ZcbDaemon
