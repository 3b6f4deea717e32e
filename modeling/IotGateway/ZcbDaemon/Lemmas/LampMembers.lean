import Mathlib.Data.List.Forall2
import IotGateway.ZcbDaemon.Lemmas.Lamp

/-!
This module says which of the numbers in a JSON message to a lamp or a group arrive at the node.
-/

namespace ZcbDaemon

open NewDb Packed

/--
A number that fits in its field is what is read from it.
-/
def Carried (wanted : Nat × Int) (got : Nat) : Prop :=
  0 ≤ wanted.2 → wanted.2 < 256 ^ wanted.1 → (got : Int) = wanted.2

/--
A message of this type and with fields of these widths, whose numbers it carries.
-/
structure Carries (command : Command) (wanted : UInt16 × List (Nat × Int)) : Prop where
  u16Type : command.u16Type = wanted.1
  length : command.pvMessage.length = (wanted.2.map Prod.fst).sum
  fields : List.Forall₂ Carried wanted.2 (decode (wanted.2.map Prod.fst) command.pvMessage)

/--
In Zigbee the level is from 0 to 255, but the highest one is not used.
-/
def scaledLevel (lvl : Int) : Int := if lvl * 255 / 100 = 255 then 254 else lvl * 255 / 100

def wantedLevel (target : List (Nat × Int)) (lvl : Int) : List (UInt16 × List (Nat × Int)) :=
  if 0 ≤ lvl then
    [(E_SL_MSG_MOVE_TO_LEVEL_ONOFF, target ++ [(1, 0), (1, scaledLevel lvl), (2, 5)])]
  else
    []

def wantedColour (target : List (Nat × Int)) (xcr ycr : Int) : List (UInt16 × List (Nat × Int)) :=
  if 0 ≤ xcr ∧ 0 ≤ ycr then
    [(E_SL_MSG_MOVE_TO_COLOUR, target ++ [(2, xcr), (2, ycr), (2, 5)])]
  else
    []

section

variable (address : UInt16)

def lampTarget : List (Nat × Int) := [(1, 2), (2, address.toNat), (1, 1), (1, 1)]

-- the mode without an acknowledgement
def noAckTarget : List (Nat × Int) := [(1, 7), (2, address.toNat), (1, 1), (1, 1)]

def wantedLmpCmd (cmd : Option Text) : List (UInt16 × List (Nat × Int)) :=
  match cmd with
  | some cmd => [(E_SL_MSG_ONOFF, lampTarget address ++ [(1, if cmd.val = "on" then 1 else 0)])]
  | none => []

def wantedKelvin (kelvin : Int) : List (UInt16 × List (Nat × Int)) :=
  if 0 < kelvin then
    [(E_SL_MSG_MOVE_TO_COLOUR_TEMPERATURE, lampTarget address ++ [(2, 1000000 / kelvin), (2, 5)])]
  else
    []

def wantedLmpGrp (grp : Option Text) (gid : Int) : List (UInt16 × List (Nat × Int)) :=
  match grp with
  | some grp =>
    if grp.val = "remall" then
      [(E_SL_MSG_REMOVE_ALL_GROUPS, noAckTarget address)]
    else if 0 ≤ gid ∧ grp.val = "add" then
      [(E_SL_MSG_ADD_GROUP_REQUEST, noAckTarget address ++ [(2, gid)])]
    else if 0 ≤ gid ∧ grp.val = "rem" then
      [(E_SL_MSG_REMOVE_GROUP_REQUEST, noAckTarget address ++ [(2, gid)])]
    else
      []
  | none => []

/--
The commands for scenes of one lamp with the scene as argument.
-/
def sceneType (scn : String) : Option UInt16 :=
  if scn = "add" ∨ scn = "store" then some E_SL_MSG_STORE_SCENE
  else if scn = "rem" then some E_SL_MSG_REMOVE_SCENE
  else if scn = "recall" then some E_SL_MSG_RECALL_SCENE
  else none

def wantedLmpScn (scn : Option Text) (gid sid : Int) : List (UInt16 × List (Nat × Int)) :=
  match scn with
  | some scn =>
    if 0 ≤ gid then
      if scn.val = "remall" then
        [(E_SL_MSG_REMOVE_ALL_SCENES, noAckTarget address ++ [(2, gid)])]
      else if 0 ≤ sid then
        (sceneType scn.val).toList.map fun u16Type =>
          (u16Type, noAckTarget address ++ [(2, gid), (1, sid)])
      else
        []
    else
      []
  | none => []

end

/--
What an `lmp` message should make the node read, if its numbers had no bounds.
-/
def lmpWanted (attrs : Attrs) (db : Db) : List (UInt16 × List (Nat × Int)) :=
  match attrs.parsingGetStringAttr0 "mac" with
  | none => []
  | some mac =>
    let address := zcbNodeGetShortAddress mac.val db
    if address = 0xFFFF then
      []
    else
      let member (name : String) : Int := (attrs.parsingGetIntAttr name).toInt
      wantedLmpCmd address (attrs.parsingGetStringAttr0 "cmd")
        ++ wantedLevel (lampTarget address) (member "lvl")
        ++ wantedColour (lampTarget address) (member "xcr") (member "ycr")
        ++ wantedKelvin address (member "kelvin")
        ++ wantedLmpGrp address (attrs.parsingGetStringAttr0 "grp") (member "grpid")
        ++ wantedLmpScn address (attrs.parsingGetStringAttr0 "scn") (member "grpid")
          (member "scnid")

def groupTarget (gid : Int) : List (Nat × Int) := [(1, 1), (2, gid), (1, 1), (1, 3)]

def wantedGrpCmd (gid : Int) (cmd : Option Text) : List (UInt16 × List (Nat × Int)) :=
  match cmd with
  | some cmd =>
    if cmd.val = "on" then [(E_SL_MSG_ONOFF, groupTarget gid ++ [(1, 1)])]
    else if cmd.val = "off" then [(E_SL_MSG_ONOFF, groupTarget gid ++ [(1, 0)])]
    else []
  | none => []

def wantedGrpScn (gid : Int) (scn : Option Text) (sid : Int) : List (UInt16 × List (Nat × Int)) :=
  let target : List (Nat × Int) := [(1, 1), (2, gid), (1, 1), (1, 1), (2, gid)]
  match scn with
  | some scn =>
    if scn.val = "recall" ∧ 0 ≤ sid then [(E_SL_MSG_RECALL_SCENE, target ++ [(1, sid)])]
    else if scn.val = "remall" then [(E_SL_MSG_REMOVE_ALL_SCENES, target)]
    else []
  | none => []

/--
The same for a `grp` message.
-/
def grpWanted (attrs : Attrs) : List (UInt16 × List (Nat × Int)) :=
  let member (name : String) : Int := (attrs.parsingGetIntAttr name).toInt
  let gid := member "grpid"
  if 0 ≤ gid then
    wantedGrpCmd gid (attrs.parsingGetStringAttr0 "cmd")
      ++ wantedGrpScn gid (attrs.parsingGetStringAttr0 "scn") (member "scnid")
      ++ wantedLevel (groupTarget gid) (member "lvl")
      ++ wantedColour (groupTarget gid) (member "xcr") (member "ycr")
  else
    []

/--
The levels that are sent.
-/
def levels (commands : List Command) : List Nat :=
  (commands.filter fun command => command.u16Type = E_SL_MSG_MOVE_TO_LEVEL_ONOFF).map
    fun command => (decode [1, 2, 1, 1, 1, 1, 2] command.pvMessage).getD 5 0

/--
A field of a message, and the number that it is for.
-/
def IsFor (f : Field) (wanted : Nat × Int) : Prop :=
  f.width = wanted.1 ∧ Carried wanted (network (bytes f.width f.value))

theorem layout_carries {u16Type : UInt16} {fields : List Field} {wanted : List (Nat × Int)}
    (h : List.Forall₂ IsFor fields wanted)
    : Carries { u16Type, pvMessage := layout fields } (u16Type, wanted) := by
  have hwidths : wanted.map Prod.fst = fields.map Field.width := by
    induction h with
    | nil => rfl
    | cons hfield _ ih => rw [List.map_cons, List.map_cons, ih, hfield.1]
  constructor
  . rfl
  . simp only
    rw [length_layout, hwidths]
  . simp only
    rw [hwidths, decode_layout]
    rw [List.forall₂_map_right_iff]
    exact h.flip.imp fun _ _ hfield => hfield.2

theorem isFor_u8 (value : UInt8) : IsFor (u8 value) (1, value.toNat) := by
  refine ⟨rfl, fun _ _ => ?_⟩
  rw [u8, network_u8]

theorem isFor_u16 (value : UInt16) : IsFor (u16 (htons value)) (2, value.toNat) := by
  refine ⟨rfl, fun _ _ => ?_⟩
  rw [u16, network_htons]

theorem isFor_toU8 (value : Int32) : IsFor (u8 (toU8 value)) (1, value.toInt) := by
  refine ⟨rfl, fun hnonneg hlt => ?_⟩
  simp only at hnonneg hlt
  rw [u8, network_u8, toU8, UInt8.ofInt, UInt8.toNat_ofNat']
  omega

theorem isFor_toU16 (value : Int32) : IsFor (u16 (htons (toU16 value))) (2, value.toInt) := by
  refine ⟨rfl, fun hnonneg hlt => ?_⟩
  simp only at hnonneg hlt
  rw [u16, network_htons, toU16, UInt16.ofInt, UInt16.toNat_ofNat']
  omega

/--
A level that fits in the field is at most 100, so that nothing overflows.
-/
theorem toInt_level {lvl : Int32} (hnonneg : 0 ≤ lvl.toInt) (hle : lvl.toInt ≤ 100)
    : (lvl * 255 / 100).toInt = lvl.toInt * 255 / 100 := by
  have hmul : (lvl * 255).toInt = lvl.toInt * 255 := by
    rw [Int32.toInt_mul, show (255 : Int32).toInt = 255 from rfl]
    apply Int.bmod_eq_of_le_mul_two
    . omega
    . omega
  rw [Int32.toInt_div, hmul, show (100 : Int32).toInt = 100 from rfl,
    Int.tdiv_eq_ediv_of_nonneg (by omega)]
  apply Int.bmod_eq_of_le_mul_two
  . omega
  . omega

theorem toInt_kelvin {kelvin : Int32} (hpos : 0 < kelvin.toInt)
    : (1000000 / kelvin).toInt = 1000000 / kelvin.toInt := by
  rw [Int32.toInt_div, show (1000000 : Int32).toInt = 1000000 from rfl,
    Int.tdiv_eq_ediv_of_nonneg (by omega)]
  have hnonneg : 0 ≤ 1000000 / kelvin.toInt := Int.ediv_nonneg (by omega) hpos.le
  have hle : 1000000 / kelvin.toInt ≤ 1000000 := Int.ediv_le_self _ (by omega)
  apply Int.bmod_eq_of_le_mul_two
  . omega
  . omega

theorem level_toNat_eq {lvl : Int32} (hnonneg : 0 ≤ lvl.toInt) (hle : lvl.toInt ≤ 100)
    : ((if 254 < toU8 (lvl * 255 / 100) then 254 else toU8 (lvl * 255 / 100)).toNat : Int)
      = scaledLevel lvl.toInt := by
  have hbyte : ((toU8 (lvl * 255 / 100)).toNat : Int) = lvl.toInt * 255 / 100 := by
    rw [toU8, toInt_level hnonneg hle, UInt8.ofInt, UInt8.toNat_ofNat']
    omega
  rw [level_toNat, scaledLevel]
  split <;> omega

theorem isFor_level {lvl : Int32} (hnonneg : 0 ≤ lvl.toInt)
    : IsFor (u8 (if 254 < toU8 (lvl * 255 / 100) then 254 else toU8 (lvl * 255 / 100)))
        (1, scaledLevel lvl.toInt) := by
  refine ⟨rfl, fun _ hlt => ?_⟩
  have hle : lvl.toInt ≤ 100 := by
    simp only [scaledLevel] at hlt
    split at hlt <;> omega
  rw [u8, network_u8]
  exact level_toNat_eq hnonneg hle

theorem isFor_kelvin {kelvin : Int32} (hpos : 0 < kelvin.toInt)
    : IsFor (u16 (htons (toU16 (1000000 / kelvin)))) (2, 1000000 / kelvin.toInt) := by
  rw [← toInt_kelvin hpos]
  exact isFor_toU16 _

section

variable (line : Command → Sending)

theorem carries_single {u16Type : UInt16} {fields : List Field} {wanted : List (Nat × Int)}
    (h : List.Forall₂ IsFor fields wanted) (statusOk statusFailed : UInt8)
    : List.Forall₂ Carries (sent (sendCommand line u16Type fields statusOk statusFailed))
        [(u16Type, wanted)] :=
  .cons (layout_carries h) .nil

theorem lampHeader_isFor {address : UInt16} (h : address ≠ 0xFFFF)
    : List.Forall₂ IsFor (initDefaultHeader address 0) (lampTarget address) := by
  rw [initDefaultHeader, if_pos h]
  exact .cons (isFor_u8 _) (.cons (isFor_u16 _) (.cons (isFor_u8 _) (.cons (isFor_u8 _) .nil)))

theorem groupHeader_isFor (gid : Int32)
    : List.Forall₂ IsFor (initDefaultHeader 0xFFFF (toU16 gid)) (groupTarget gid.toInt) := by
  rw [initDefaultHeader, if_neg (by decide)]
  exact .cons (isFor_u8 _) (.cons (isFor_toU16 _) (.cons (isFor_u8 _) (.cons (isFor_u8 _) .nil)))

theorem noAckHeader_isFor (address : UInt16)
    : List.Forall₂ IsFor (groupHeader address) (noAckTarget address) :=
  .cons (isFor_u8 _) (.cons (isFor_u16 _) (.cons (isFor_u8 _) (.cons (isFor_u8 _) .nil)))

theorem isFor_append {fields fields' : List Field} {wanted wanted' : List (Nat × Int)}
    (h : List.Forall₂ IsFor fields wanted) (h' : List.Forall₂ IsFor fields' wanted')
    : List.Forall₂ IsFor (fields ++ fields') (wanted ++ wanted') := List.rel_append h h'

theorem nonneg_iff {value : Int32} : 0 ≤ value ↔ 0 ≤ value.toInt := Int32.le_iff_toInt_le

section

variable {u16ShortAddress u16GroupAddress : UInt16} {target : List (Nat × Int)}
  (hheader : List.Forall₂ IsFor (initDefaultHeader u16ShortAddress u16GroupAddress) target)

include hheader

theorem sendLevel_carries (lvl : Int32)
    : List.Forall₂ Carries (sendLevel line u16ShortAddress u16GroupAddress lvl)
        (wantedLevel target lvl.toInt) := by
  unfold sendLevel wantedLevel
  simp only [nonneg_iff]
  split
  . next hnonneg =>
    apply carries_single
    apply isFor_append hheader
    exact .cons (isFor_u8 0) (.cons (isFor_level hnonneg) (.cons (isFor_u16 5) .nil))
  . exact .nil

theorem sendColour_carries (xcr ycr : Int32)
    : List.Forall₂ Carries (sendColour line u16ShortAddress u16GroupAddress xcr ycr)
        (wantedColour target xcr.toInt ycr.toInt) := by
  unfold sendColour wantedColour
  simp only [nonneg_iff]
  split
  . apply carries_single
    apply isFor_append hheader
    exact .cons (isFor_toU16 xcr) (.cons (isFor_toU16 ycr) (.cons (isFor_u16 5) .nil))
  . exact .nil

end

section

variable {address : UInt16} (haddress : address ≠ 0xFFFF)

include haddress

theorem lmpCmd_carries (cmd : Option Text)
    : List.Forall₂ Carries (lmpCmd line address cmd) (wantedLmpCmd address cmd) := by
  cases cmd with
  | none => exact .nil
  | some cmd =>
    unfold lmpCmd wantedLmpCmd
    by_cases hon : cmd.val = "on"
    . simp only [hon, if_true]
      exact carries_single line
        (isFor_append (lampHeader_isFor haddress) (.cons (isFor_u8 1) .nil)) _ _
    . simp only [hon, if_false]
      exact carries_single line
        (isFor_append (lampHeader_isFor haddress) (.cons (isFor_u8 0) .nil)) _ _

theorem lmpKelvin_carries (kelvin : Int32)
    : List.Forall₂ Carries (lmpKelvin line address kelvin) (wantedKelvin address kelvin.toInt) := by
  have hpos_iff : 0 < kelvin ↔ 0 < kelvin.toInt := Int32.lt_iff_toInt_lt
  unfold lmpKelvin wantedKelvin
  simp only [hpos_iff]
  split
  . next hpos =>
    apply carries_single
    apply isFor_append (lampHeader_isFor haddress)
    exact .cons (isFor_kelvin hpos) (.cons (isFor_u16 5) .nil)
  . exact .nil

omit haddress in
theorem lmpGrp_carries (grp : Option Text) (gid : Int32)
    : List.Forall₂ Carries (lmpGrp line address grp gid)
        (wantedLmpGrp address grp gid.toInt) := by
  have hgid : List.Forall₂ IsFor (groupHeader address ++ [u16 (htons (toU16 gid))])
      (noAckTarget address ++ [(2, gid.toInt)]) :=
    isFor_append (noAckHeader_isFor address) (.cons (isFor_toU16 gid) .nil)
  cases grp with
  | none => exact .nil
  | some grp =>
    unfold lmpGrp wantedLmpGrp
    simp only [nonneg_iff]
    by_cases hremall : grp.val = "remall"
    . rw [if_pos hremall, if_pos hremall]
      exact carries_single line (noAckHeader_isFor address) _ _
    rw [if_neg hremall, if_neg hremall]
    by_cases hnonneg : 0 ≤ gid.toInt
    . simp only [hnonneg, if_true, true_and]
      by_cases hadd : grp.val = "add"
      . rw [if_pos hadd, if_pos hadd]
        exact carries_single line hgid _ _
      rw [if_neg hadd, if_neg hadd]
      by_cases hrem : grp.val = "rem"
      . rw [if_pos hrem, if_pos hrem]
        exact carries_single line hgid _ _
      . rw [if_neg hrem, if_neg hrem]
        exact .nil
    . simp only [hnonneg, if_false, false_and]
      exact .nil

theorem sceneHeader_isFor (gid : Int32)
    : List.Forall₂ IsFor (sceneHeader address (toU16 gid))
        (noAckTarget address ++ [(2, gid.toInt)]) := by
  rw [sceneHeader, if_pos haddress]
  exact .cons (isFor_u8 _) (.cons (isFor_u16 _)
    (.cons (isFor_u8 _) (.cons (isFor_u8 _) (.cons (isFor_toU16 gid) .nil))))

theorem sceneCommand_carries (u16Type : UInt16) (gid sid : Int32)
    : List.Forall₂ Carries (sent (sceneCommand line address (toU16 gid) u16Type [u8 (toU8 sid)]))
        [(u16Type, noAckTarget address ++ [(2, gid.toInt), (1, sid.toInt)])] :=
  carries_single line
    (isFor_append (sceneHeader_isFor haddress gid) (.cons (isFor_toU8 sid) .nil)) _ _

theorem lmpScn_carries (scn : Option Text) (gid sid : Int32)
    : List.Forall₂ Carries (lmpScn line address scn gid sid)
        (wantedLmpScn address scn gid.toInt sid.toInt) := by
  cases scn with
  | none => exact .nil
  | some scn =>
    unfold lmpScn wantedLmpScn
    simp only [nonneg_iff]
    by_cases hgid : 0 ≤ gid.toInt
    . rw [if_pos hgid, if_pos hgid]
      by_cases hremall : scn.val = "remall"
      . rw [if_pos hremall, if_pos hremall]
        exact carries_single line (isFor_append (sceneHeader_isFor haddress gid) .nil) _ _
      rw [if_neg hremall, if_neg hremall]
      by_cases hsid : 0 ≤ sid.toInt
      . rw [if_pos hsid, if_pos hsid, sceneType]
        by_cases hadd : scn.val = "add"
        . simp only [hadd, if_true, true_or]
          exact sceneCommand_carries line haddress _ gid sid
        by_cases hrem : scn.val = "rem"
        . simp only [hrem]
          exact sceneCommand_carries line haddress _ gid sid
        by_cases hstore : scn.val = "store"
        . simp only [hstore]
          exact sceneCommand_carries line haddress _ gid sid
        by_cases hrecall : scn.val = "recall"
        . simp only [hrecall]
          exact sceneCommand_carries line haddress _ gid sid
        . simp only [hadd, hrem, hstore, hrecall, if_false, false_or]
          exact .nil
      . rw [if_neg hsid, if_neg hsid]
        exact .nil
    . rw [if_neg hgid, if_neg hgid]
      exact .nil

end

theorem grpCmd_carries (gid : Int32) (cmd : Option Text)
    : List.Forall₂ Carries (grpCmd line gid cmd) (wantedGrpCmd gid.toInt cmd) := by
  cases cmd with
  | none => exact .nil
  | some cmd =>
    unfold grpCmd wantedGrpCmd
    simp only
    by_cases hon : cmd.val = "on"
    . rw [if_pos hon, if_pos hon]
      exact carries_single line
        (isFor_append (groupHeader_isFor gid) (.cons (isFor_u8 1) .nil)) _ _
    rw [if_neg hon, if_neg hon]
    by_cases hoff : cmd.val = "off"
    . rw [if_pos hoff, if_pos hoff]
      exact carries_single line
        (isFor_append (groupHeader_isFor gid) (.cons (isFor_u8 0) .nil)) _ _
    . rw [if_neg hoff, if_neg hoff]
      exact .nil

theorem grpSceneHeader_isFor (gid : Int32)
    : List.Forall₂ IsFor (sceneHeader 0xFFFF (toU16 gid))
        [(1, 1), (2, gid.toInt), (1, 1), (1, 1), (2, gid.toInt)] := by
  rw [sceneHeader, if_neg (by decide)]
  exact .cons (isFor_u8 _) (.cons (isFor_toU16 gid)
    (.cons (isFor_u8 _) (.cons (isFor_u8 _) (.cons (isFor_toU16 gid) .nil))))

theorem grpScn_carries (gid : Int32) (scn : Option Text) (sid : Int32)
    : List.Forall₂ Carries (grpScn line gid scn sid)
        (wantedGrpScn gid.toInt scn sid.toInt) := by
  cases scn with
  | none => exact .nil
  | some scn =>
    unfold grpScn wantedGrpScn
    simp only [nonneg_iff]
    by_cases hrecall : scn.val = "recall"
    . rw [if_pos hrecall]
      by_cases hsid : 0 ≤ sid.toInt
      . rw [if_pos hsid, if_pos ⟨hrecall, hsid⟩]
        exact carries_single line
          (isFor_append (grpSceneHeader_isFor gid) (.cons (isFor_toU8 sid) .nil)) _ _
      . have hremall : scn.val ≠ "remall" := by
          rw [hrecall]
          decide
        have hboth : ¬(scn.val = "recall" ∧ 0 ≤ sid.toInt) := fun h => hsid h.2
        rw [if_neg hsid, if_neg hboth, if_neg hremall]
        exact .nil
    have hboth : ¬(scn.val = "recall" ∧ 0 ≤ sid.toInt) := fun h => hrecall h.1
    rw [if_neg hrecall, if_neg hboth]
    by_cases hremall : scn.val = "remall"
    . rw [if_pos hremall, if_pos hremall]
      exact carries_single line (isFor_append (grpSceneHeader_isFor gid) .nil) _ _
    . rw [if_neg hremall, if_neg hremall]
      exact .nil

theorem lmpHandle_carries (attrs : Attrs) (db : Db)
    : List.Forall₂ Carries (lmpHandle line attrs db) (lmpWanted attrs db) := by
  unfold lmpHandle lmpWanted
  cases attrs.parsingGetStringAttr0 "mac" with
  | none => exact .nil
  | some mac =>
    simp only
    by_cases haddress : zcbNodeGetShortAddress mac.val db = 0xFFFF
    . rw [if_neg (not_not_intro haddress), if_pos haddress]
      exact .nil
    rw [if_pos haddress, if_neg haddress]
    have hheader := lampHeader_isFor haddress
    apply List.rel_append
    . apply List.rel_append
      . apply List.rel_append
        . apply List.rel_append
          . apply List.rel_append
            . exact lmpCmd_carries line haddress _
            . exact sendLevel_carries line hheader _
          . exact sendColour_carries line hheader _ _
        . exact lmpKelvin_carries line haddress _
      . exact lmpGrp_carries line _ _
    . exact lmpScn_carries line haddress _ _ _

theorem grpHandle_carries (attrs : Attrs)
    : List.Forall₂ Carries (grpHandle line attrs) (grpWanted attrs) := by
  unfold grpHandle grpWanted
  simp only [nonneg_iff]
  split
  . have hheader := groupHeader_isFor (attrs.parsingGetIntAttr "grpid")
    apply List.rel_append
    . apply List.rel_append
      . apply List.rel_append
        . exact grpCmd_carries line _ _
        . exact grpScn_carries line _ _ _
      . exact sendLevel_carries line hheader _
    . exact sendColour_carries line hheader _ _
  . exact .nil

@[simp]
theorem levels_append (xs ys : List Command) : levels (xs ++ ys) = levels xs ++ levels ys := by
  simp only [levels, List.filter_append, List.map_append]

@[simp]
theorem levels_nil : levels [] = [] := rfl

section

variable (u16ShortAddress u16GroupAddress : UInt16) (address : UInt16)

theorem levels_sendColour (xcr ycr : Int32)
    : levels (sendColour line u16ShortAddress u16GroupAddress xcr ycr) = [] := by
  unfold sendColour
  split <;> rfl

theorem levels_lmpCmd (cmd : Option Text) : levels (lmpCmd line address cmd) = [] := by
  cases cmd with
  | none => rfl
  | some cmd =>
    unfold lmpCmd
    simp only
    split <;> rfl

theorem levels_lmpKelvin (kelvin : Int32) : levels (lmpKelvin line address kelvin) = [] := by
  unfold lmpKelvin
  split <;> rfl

theorem levels_lmpGrp (grp : Option Text) (gid : Int32)
    : levels (lmpGrp line address grp gid) = [] := by
  unfold lmpGrp
  repeat' split
  all_goals rfl

theorem levels_lmpScn (scn : Option Text) (gid sid : Int32)
    : levels (lmpScn line address scn gid sid) = [] := by
  unfold lmpScn
  repeat' split
  all_goals rfl

theorem levels_grpCmd (gid : Int32) (cmd : Option Text) : levels (grpCmd line gid cmd) = [] := by
  unfold grpCmd
  repeat' split
  all_goals rfl

theorem levels_grpScn (gid : Int32) (scn : Option Text) (sid : Int32)
    : levels (grpScn line gid scn sid) = [] := by
  unfold grpScn
  repeat' split
  all_goals rfl

theorem levels_moveToLevel (u8Level : UInt8) (u16TransitionTime : UInt16)
    : levels (sent (lmpgrp_MoveToLevel line u16ShortAddress u16GroupAddress u8Level
          u16TransitionTime))
        = [(if 254 < u8Level then 254 else u8Level).toNat] := by
  generalize hlevel : (if 254 < u8Level then 254 else u8Level) = level
  have hwidths : [1, 2, 1, 1, 1, 1, 2]
      = (initDefaultHeader u16ShortAddress u16GroupAddress
          ++ [u8 0, u8 level, u16 (htons u16TransitionTime)]).map Field.width := by
    unfold initDefaultHeader
    split <;> rfl
  have hfilter : levels (sent (lmpgrp_MoveToLevel line u16ShortAddress u16GroupAddress u8Level
        u16TransitionTime))
      = [(decode [1, 2, 1, 1, 1, 1, 2] (layout (initDefaultHeader u16ShortAddress u16GroupAddress
          ++ [u8 0, u8 level, u16 (htons u16TransitionTime)]))).getD 5 0] := by
    rw [← hlevel]
    rfl
  rw [hfilter, hwidths, decode_layout]
  unfold initDefaultHeader
  split
  . exact congrArg (fun got => [got]) (network_u8 level)
  . exact congrArg (fun got => [got]) (network_u8 level)

/--
The level in the only message that has one.
-/
theorem mem_levels_sendLevel {lvl : Int32} (hle : lvl ≤ 100) {level : Nat}
    (h : level ∈ levels (sendLevel line u16ShortAddress u16GroupAddress lvl))
    : 0 ≤ lvl.toInt ∧ (level : Int) = scaledLevel lvl.toInt := by
  unfold sendLevel at h
  split at h
  . next hnonneg =>
    have hnonneg' := nonneg_iff.mp hnonneg
    have hle' : lvl.toInt ≤ 100 := Int32.le_iff_toInt_le.mp hle
    rw [levels_moveToLevel] at h
    obtain rfl := List.mem_singleton.mp h
    exact ⟨hnonneg', level_toNat_eq hnonneg' hle'⟩
  . cases h

end

theorem scaledLevel_mono {lvl lvl' : Int} (h : lvl ≤ lvl')
    : scaledLevel lvl ≤ scaledLevel lvl' := by
  have hdiv : lvl * 255 / 100 ≤ lvl' * 255 / 100 := by omega
  unfold scaledLevel
  split <;> split <;> omega

section

variable {attrs : Attrs} {level : Nat} (hle : attrs.parsingGetIntAttr "lvl" ≤ 100)

include hle

theorem mem_levels_lmpHandle {db : Db} (h : level ∈ levels (lmpHandle line attrs db))
    : (level : Int) = scaledLevel (attrs.parsingGetIntAttr "lvl").toInt := by
  unfold lmpHandle at h
  split at h
  . cases h
  . simp only at h
    split at h
    . simp only [levels_append, levels_lmpCmd, levels_sendColour, levels_lmpKelvin, levels_lmpGrp,
        levels_lmpScn, List.append_nil, List.nil_append] at h
      exact (mem_levels_sendLevel line _ _ hle h).2
    . cases h

theorem mem_levels_grpHandle (h : level ∈ levels (grpHandle line attrs))
    : (level : Int) = scaledLevel (attrs.parsingGetIntAttr "lvl").toInt := by
  unfold grpHandle at h
  simp only at h
  split at h
  . simp only [levels_append, levels_grpCmd, levels_grpScn, levels_sendColour, List.append_nil,
      List.nil_append] at h
    exact (mem_levels_sendLevel line _ _ hle h).2
  . cases h

end

/--
The message with another level.
-/
def withLevel (attrs : Attrs) (lvl : Int32) : Attrs := attrs.parsingIntAttr "lvl" lvl

theorem withLevel_lvl (attrs : Attrs) (lvl : Int32)
    : (withLevel attrs lvl).parsingGetIntAttr "lvl" = lvl := by
  simp only [withLevel, Attrs.parsingIntAttr, if_true]

/--
Every number that fits in its field arrives there, the level after its scaling. Up to 100 a higher
level is never sent as a lower one.
-/
theorem members_arrive (attrs : Attrs) (db : Db)
    : List.Forall₂ Carries (lmpHandle line attrs db) (lmpWanted attrs db)
      ∧ List.Forall₂ Carries (grpHandle line attrs) (grpWanted attrs)
      ∧ ∀ lvl lvl' : Int32, lvl ≤ lvl' → lvl' ≤ 100 →
        (∀ level ∈ levels (lmpHandle line (withLevel attrs lvl) db),
          ∀ level' ∈ levels (lmpHandle line (withLevel attrs lvl') db), level ≤ level')
        ∧ ∀ level ∈ levels (grpHandle line (withLevel attrs lvl)),
          ∀ level' ∈ levels (grpHandle line (withLevel attrs lvl')), level ≤ level' := by
  refine ⟨lmpHandle_carries line attrs db, grpHandle_carries line attrs, ?_⟩
  intro lvl lvl' hlvl hle'
  have hle : lvl ≤ 100 := Int32.le_trans hlvl hle'
  have hmono : scaledLevel lvl.toInt ≤ scaledLevel lvl'.toInt :=
    scaledLevel_mono (Int32.le_iff_toInt_le.mp hlvl)
  rw [← withLevel_lvl attrs lvl] at hle
  rw [← withLevel_lvl attrs lvl'] at hle'
  constructor
  . intro level hlevel level' hlevel'
    have heq := mem_levels_lmpHandle line hle hlevel
    have heq' := mem_levels_lmpHandle line hle' hlevel'
    rw [withLevel_lvl] at heq heq'
    omega
  . intro level hlevel level' hlevel'
    have heq := mem_levels_grpHandle line hle hlevel
    have heq' := mem_levels_grpHandle line hle' hlevel'
    rw [withLevel_lvl] at heq heq'
    omega

end

/--
A message to group 7 with a level.
-/
def groupLevel (lvl : Int32) : Attrs := withLevel (Attrs.parsingReset.parsingIntAttr "grpid" 7) lvl

/--
100 percent are not sent as 255, and 101 percent are sent as less than 50 percent.
-/
theorem members_not_arrive
    : levels (grpHandle (fun _ => acceptedSeven) (groupLevel 100)) ≠ [100 * 255 / 100]
      ∧ ¬∀ level ∈ levels (grpHandle (fun _ => acceptedSeven) (groupLevel 50)),
        ∀ level' ∈ levels (grpHandle (fun _ => acceptedSeven) (groupLevel 101)),
          level ≤ level' := by
  decide +kernel

end ZcbDaemon
