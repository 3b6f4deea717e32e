import IotGateway.ControlInterface.Impl.Topo

/-!
This module contains what a list of declarations says about the devices in it, and when the fields of
a row that has been in the table before come to agree with it.
-/

namespace ControlInterface

open NewDb

/--
What a declaration gives a device as its parent: a device, no row at all or nothing.
-/
inductive Parent where
  | noRow
  | unset
  | device (mac : Text)
  deriving DecidableEq

/--
The fields of a device that a declaration sets.
-/
structure Fields (π : Type) where
  dev : Int
  par : π
  nm : String
  deriving DecidableEq

def DeviceKind.nextDev (kind : DeviceKind) (dev : Int) : Int :=
  match kind with
  | .man => DEVICE_DEV_MANAGER
  | .ui =>
    if dev = DEVICE_DEV_UNKNOWN then
      DEVICE_DEV_UI
    else if dev = DEVICE_DEV_SENSOR then
      DEVICE_DEV_UISENSOR
    else
      dev
  | .sen =>
    if dev = DEVICE_DEV_UNKNOWN then
      DEVICE_DEV_SENSOR
    else if dev = DEVICE_DEV_UI then
      DEVICE_DEV_UISENSOR
    else
      dev
  | .pmp => DEVICE_DEV_PUMP
  | .lmp => DEVICE_DEV_LAMP
  | .plg => DEVICE_DEV_PLUG

/--
A device that a sensor declaration gives its parent and name.
-/
def IsSensor (dev : Int) : Prop := dev = DEVICE_DEV_UNKNOWN ∨ dev = DEVICE_DEV_SENSOR

instance (dev : Int) : Decidable (IsSensor dev) := inferInstanceAs (Decidable (_ ∨ _))

def DeviceKind.SetsPar (kind : DeviceKind) (dev : Int) : Prop :=
  kind = .ui ∨ kind = .pmp ∨ kind = .sen ∧ IsSensor dev

def DeviceKind.SetsName (kind : DeviceKind) (dev : Int) : Prop := kind ≠ .sen ∨ IsSensor dev

instance (kind : DeviceKind) (dev : Int) : Decidable (kind.SetsPar dev) :=
  inferInstanceAs (Decidable (_ ∨ _ ∨ _ ∧ _))

instance (kind : DeviceKind) (dev : Int) : Decidable (kind.SetsName dev) :=
  inferInstanceAs (Decidable (_ ∨ _))

def Fields.declare {π : Type} (kind : DeviceKind) (par : π) (nm : String) (f : Fields π) : Fields π where
  dev := kind.nextDev f.dev
  par := if kind.SetsPar f.dev then par else f.par
  nm := if kind.SetsName f.dev then nm else f.nm

def Declaration.name (d : Declaration) : String := newDbStrNcpy "" (some d.nm.1) LEN_NM

/--
What the declarations say, and the devices declared last. This depends on nothing else.
-/
structure Plan where
  entries : String → Option (Fields Parent)
  manager : Parent
  ui : Parent
  sensor : Parent

def Plan.empty : Plan where
  entries := fun _ => none
  manager := .noRow
  ui := .noRow
  sensor := .noRow

def Plan.parent (plan : Plan) : DeviceKind → Parent
  | .ui => plan.manager
  | .sen => plan.ui
  | .pmp => plan.sensor
  | .man | .lmp | .plg => .unset

/--
A device that is declared for the first time is of no kind yet.
-/
def Plan.entry (plan : Plan) (mac : String) : Fields Parent :=
  (plan.entries mac).getD { dev := DEVICE_DEV_UNKNOWN, par := .unset, nm := "" }

def Plan.after (plan : Plan) (kind : DeviceKind) (mac : Text) : Plan :=
  match kind with
  | .man => { plan with manager := .device mac, ui := .noRow, sensor := .noRow }
  | .ui => { plan with ui := .device mac, sensor := .device mac }
  | .sen => { plan with sensor := .device mac }
  | .pmp | .lmp | .plg => plan

def Plan.declare (plan : Plan) (d : Declaration) : Plan :=
  let entry := (plan.entry d.mac).declare d.kind (plan.parent d.kind) d.name
  { plan.after d.kind d.mac with entries := Function.update plan.entries d.mac (some entry) }

def planOf (declarations : List Declaration) : Plan := declarations.foldl Plan.declare .empty

/--
The kinds that a device is declared as, in order.
-/
def kindsOf (declarations : List Declaration) (mac : String) : List DeviceKind :=
  (declarations.filter fun d => d.mac.1 = mac).map Declaration.kind

/--
One of the kinds replaces whatever the device was before.
-/
def Overridden (kinds : List DeviceKind) : Prop := ∃ kind ∈ kinds, kind ≠ .ui ∧ kind ≠ .sen

instance (kinds : List DeviceKind) : Decidable (Overridden kinds) :=
  inferInstanceAs (Decidable (∃ kind ∈ kinds, _))

/--
The old kind of the device is overridden, or it is a part of what the device is declared as.
-/
def DevSettled (dev : Int) (kinds : List DeviceKind) : Prop :=
  Overridden kinds
    ∨ dev = DEVICE_DEV_UNKNOWN
    ∨ dev = DEVICE_DEV_UI ∧ .ui ∈ kinds
    ∨ dev = DEVICE_DEV_SENSOR ∧ .sen ∈ kinds
    ∨ dev = DEVICE_DEV_UISENSOR ∧ .ui ∈ kinds ∧ .sen ∈ kinds

/--
The old parent is replaced.
-/
def ParReplaced (dev : Int) (kinds : List DeviceKind) : Prop :=
  .ui ∈ kinds ∨ .pmp ∈ kinds ∨ kinds.head? = some .sen ∧ IsSensor dev

instance (dev : Int) (kinds : List DeviceKind) : Decidable (DevSettled dev kinds) :=
  inferInstanceAs (Decidable (_ ∨ _ ∨ _ ∨ _ ∨ _))

instance (dev : Int) (kinds : List DeviceKind) : Decidable (ParReplaced dev kinds) :=
  inferInstanceAs (Decidable (_ ∨ _ ∨ _ ∧ _))

/--
A kind made of the two roles, `UNKNOWN` without any.
-/
def role (isUi isSensor : Bool) : Int :=
  match isUi, isSensor with
  | false, false => DEVICE_DEV_UNKNOWN
  | true, false => DEVICE_DEV_UI
  | false, true => DEVICE_DEV_SENSOR
  | true, true => DEVICE_DEV_UISENSOR

/--
A device that has one of the kinds made of the two roles.
-/
def HasRoles (dev : Int) : Prop :=
  dev = DEVICE_DEV_UNKNOWN ∨ dev = DEVICE_DEV_UI ∨ dev = DEVICE_DEV_SENSOR ∨ dev = DEVICE_DEV_UISENSOR

instance (dev : Int) : Decidable (HasRoles dev) := inferInstanceAs (Decidable (_ ∨ _ ∨ _ ∨ _))

/--
The kind of a device after it has got roles. Any other kind stays.
-/
def withRoles (dev : Int) (isUi isSensor : Bool) : Int :=
  if dev = DEVICE_DEV_UNKNOWN then
    role isUi isSensor
  else if dev = DEVICE_DEV_UI then
    role true isSensor
  else if dev = DEVICE_DEV_SENSOR then
    role isUi true
  else
    dev

section

theorem IsSensor.hasRoles {dev : Int} (h : IsSensor dev) : HasRoles dev := by
  rcases h with h | h
  . exact .inl h
  . exact .inr (.inr (.inl h))

theorem withRoles_of_not {dev : Int} (h : ¬ HasRoles dev) (isUi isSensor : Bool)
    : withRoles dev isUi isSensor = dev := by
  simp only [HasRoles, not_or] at h
  simp [withRoles, h]

theorem nextDev_of_not {dev : Int} (h : ¬ HasRoles dev)
    : DeviceKind.ui.nextDev dev = dev ∧ DeviceKind.sen.nextDev dev = dev := by
  simp only [HasRoles, not_or] at h
  simp [DeviceKind.nextDev, h]

theorem nextDev_ui (dev : Int) (isUi isSensor : Bool)
    : DeviceKind.ui.nextDev (withRoles dev isUi isSensor) = withRoles dev true isSensor := by
  by_cases h : HasRoles dev
  . rcases h with rfl | rfl | rfl | rfl
    all_goals revert isUi isSensor; decide
  . rw [withRoles_of_not h, withRoles_of_not h]
    exact (nextDev_of_not h).1

theorem nextDev_sen (dev : Int) (isUi isSensor : Bool)
    : DeviceKind.sen.nextDev (withRoles dev isUi isSensor) = withRoles dev isUi true := by
  by_cases h : HasRoles dev
  . rcases h with rfl | rfl | rfl | rfl
    all_goals revert isUi isSensor; decide
  . rw [withRoles_of_not h, withRoles_of_not h]
    exact (nextDev_of_not h).2

theorem nextDev_other {kind : DeviceKind} (h : kind ≠ .ui ∧ kind ≠ .sen) (dev dev' : Int)
    : kind.nextDev dev = kind.nextDev dev' ∧ ¬ HasRoles (kind.nextDev dev) := by
  cases kind with
  | ui => exact absurd rfl h.1
  | sen => exact absurd rfl h.2
  | man => exact ⟨rfl, show ¬ HasRoles DEVICE_DEV_MANAGER by decide⟩
  | pmp => exact ⟨rfl, show ¬ HasRoles DEVICE_DEV_PUMP by decide⟩
  | lmp => exact ⟨rfl, show ¬ HasRoles DEVICE_DEV_LAMP by decide⟩
  | plg => exact ⟨rfl, show ¬ HasRoles DEVICE_DEV_PLUG by decide⟩

theorem not_isSensor_nextDev {kind : DeviceKind} {dev : Int} (h : kind ≠ .sen ∨ ¬ IsSensor dev)
    : ¬ IsSensor (kind.nextDev dev) := by
  by_cases hroles : HasRoles dev
  . rcases hroles with rfl | rfl | rfl | rfl
    all_goals revert h; cases kind <;> decide
  . by_cases hkind : kind ≠ .ui ∧ kind ≠ .sen
    . exact fun hsensor => (nextDev_other hkind dev dev).2 hsensor.hasRoles
    . have hsame : kind.nextDev dev = dev := by
        cases kind with
        | ui => exact (nextDev_of_not hroles).1
        | sen => exact (nextDev_of_not hroles).2
        | _ => simp at hkind
      rw [hsame]
      exact fun hsensor => hroles hsensor.hasRoles

end

/--
The fields `c` of a row that had the kind `dev` and the parent `par` before, and the fields `e` that
the declarations say, after the device has been declared as `kinds`. `rep` relates row ids to
parents.
-/
structure Tracks (rep : Int → Parent → Prop) (dev par : Int) (kinds : List DeviceKind)
    (c : Fields Int) (e : Fields Parent) : Prop where
  notSensor : (∃ kind ∈ kinds, kind ≠ .sen) → ¬ IsSensor c.dev ∧ ¬ IsSensor e.dev
  overridden : Overridden kinds → c.dev = e.dev ∧ ¬ HasRoles c.dev
  roles : ¬ Overridden kinds →
    c.dev = withRoles dev (.ui ∈ kinds) (.sen ∈ kinds) ∧ e.dev = role (.ui ∈ kinds) (.sen ∈ kinds)
  parReplaced : ParReplaced dev kinds → rep c.par e.par
  parKept : ¬ ParReplaced dev kinds → c.par = par
  parUnset : .ui ∉ kinds → .pmp ∉ kinds → kinds.head? ≠ some .sen → e.par = .unset
  nm : kinds ≠ [] → (∃ kind ∈ kinds, kind ≠ .sen) ∨ IsSensor dev → c.nm = e.nm

section

variable {rep : Int → Parent → Prop} {dev par : Int} {kinds : List DeviceKind} {c : Fields Int}
  {e : Fields Parent}

theorem withRoles_false (dev : Int) : withRoles dev false false = dev := by
  by_cases hroles : HasRoles dev
  . rcases hroles with rfl | rfl | rfl | rfl
    all_goals decide
  . exact withRoles_of_not hroles false false

theorem Tracks.start (rep : Int → Parent → Prop) (dev par : Int) (nm : String)
    : Tracks rep dev par [] ⟨dev, par, nm⟩ ⟨DEVICE_DEV_UNKNOWN, .unset, ""⟩ := by
  constructor
  . rintro ⟨kind, hkind, -⟩
    cases hkind
  . rintro ⟨kind, hkind, -⟩
    cases hkind
  . intro _
    exact ⟨(withRoles_false dev).symm, rfl⟩
  . rintro (hui | hpmp | ⟨hsen, -⟩)
    . cases hui
    . cases hpmp
    . cases hsen
  . intro _
    rfl
  . intro _ _ _
    rfl
  . intro hne
    exact absurd rfl hne

theorem Tracks.isSensor (h : Tracks rep dev par kinds c e) (hdev : IsSensor dev)
    (hall : ¬ ∃ kind ∈ kinds, kind ≠ .sen)
    : IsSensor c.dev ∧ IsSensor e.dev := by
  have hover : ¬ Overridden kinds := by
    rintro ⟨kind, hkind, -, hsen⟩
    exact hall ⟨kind, hkind, hsen⟩
  have hui : DeviceKind.ui ∉ kinds := fun hui => hall ⟨.ui, hui, by decide⟩
  obtain ⟨hc, he⟩ := h.roles hover
  rw [hc, he, decide_eq_false hui]
  generalize decide (DeviceKind.sen ∈ kinds) = isSensor
  rcases hdev with rfl | rfl
  all_goals revert isSensor; decide

theorem Tracks.not_isSensor (h : Tracks rep dev par kinds c e) (hdev : ¬ IsSensor dev)
    : ¬ IsSensor c.dev := by
  by_cases hall : ∃ kind ∈ kinds, kind ≠ .sen
  . exact (h.notSensor hall).1
  . have hover : ¬ Overridden kinds := by
      rintro ⟨kind, hkind, -, hsen⟩
      exact hall ⟨kind, hkind, hsen⟩
    have hui : DeviceKind.ui ∉ kinds := fun hui => hall ⟨.ui, hui, by decide⟩
    rw [(h.roles hover).1, decide_eq_false hui]
    generalize decide (DeviceKind.sen ∈ kinds) = isSensor
    by_cases hroles : HasRoles dev
    . rcases hroles with rfl | rfl | rfl | rfl
      all_goals revert hdev isSensor; decide
    . rwa [withRoles_of_not hroles]

theorem overridden_append {kind : DeviceKind}
    : Overridden (kinds ++ [kind]) ↔ Overridden kinds ∨ kind ≠ .ui ∧ kind ≠ .sen := by
  simp [Overridden, or_and_right, exists_or]

theorem nonSensor_append {kind : DeviceKind}
    : (∃ k ∈ kinds ++ [kind], k ≠ .sen) ↔ (∃ k ∈ kinds, k ≠ .sen) ∨ kind ≠ .sen := by
  simp [or_and_right, exists_or]

theorem head?_append_single {kind : DeviceKind} (h : kinds ≠ [])
    : (kinds ++ [kind]).head? = kinds.head? := by
  cases kinds with
  | nil => exact absurd rfl h
  | cons first rest => rfl

theorem nonSensor_of_head (hne : kinds ≠ []) (hhead : kinds.head? ≠ some .sen)
    : ∃ kind ∈ kinds, kind ≠ .sen := by
  cases kinds with
  | nil => exact absurd rfl hne
  | cons first rest => exact ⟨first, List.mem_cons_self, fun heq => hhead (congrArg some heq)⟩

theorem ParReplaced.of_append {kind : DeviceKind} (h : ParReplaced dev (kinds ++ [kind]))
    (hui : kind ≠ .ui) (hpmp : kind ≠ .pmp) (hne : kinds ≠ [] ∨ kind ≠ .sen)
    : ParReplaced dev kinds := by
  unfold ParReplaced at h ⊢
  simp only [List.mem_append, List.mem_singleton, hui.symm, hpmp.symm, or_false] at h
  refine h.imp_right (Or.imp_right ?_)
  rintro ⟨hhead, hdev⟩
  by_cases hnil : kinds = []
  . subst hnil
    have hkind : kind ≠ .sen := hne.resolve_left (fun hne => hne rfl)
    exact absurd (Option.some.inj hhead) hkind
  . rw [head?_append_single hnil] at hhead
    exact ⟨hhead, hdev⟩

theorem ParReplaced.append (h : ParReplaced dev kinds) (kind : DeviceKind)
    : ParReplaced dev (kinds ++ [kind]) := by
  rcases h with hui | hpmp | ⟨hsen, hdev⟩
  . exact .inl (List.mem_append_left _ hui)
  . exact .inr (.inl (List.mem_append_left _ hpmp))
  . refine .inr (.inr ⟨?_, hdev⟩)
    rw [head?_append_single]
    . exact hsen
    . rintro rfl
      cases hsen

theorem declare_setsPar {π : Type} {f : Fields π} {kind : DeviceKind} (h : kind.SetsPar f.dev) (p : π)
    (nm : String)
    : (f.declare kind p nm).par = p := if_pos h

theorem declare_not_setsPar {π : Type} {f : Fields π} {kind : DeviceKind} (h : ¬ kind.SetsPar f.dev)
    (p : π) (nm : String)
    : (f.declare kind p nm).par = f.par := if_neg h

theorem not_setsPar {kind : DeviceKind} {dev : Int} (hui : kind ≠ .ui) (hpmp : kind ≠ .pmp)
    (hsen : kind = .sen → ¬ IsSensor dev)
    : ¬ kind.SetsPar dev := by
  rintro (h | h | ⟨h, hdev⟩)
  . exact hui h
  . exact hpmp h
  . exact hsen h hdev

section

variable (h : Tracks rep dev par kinds c e) {kind : DeviceKind} {p : Int} {a : Parent}
  (hrep : rep p a) (nm : String)

include h

theorem Tracks.declare_roles (hover : ¬ Overridden (kinds ++ [kind]))
    : (c.declare kind p nm).dev = withRoles dev (.ui ∈ kinds ++ [kind]) (.sen ∈ kinds ++ [kind])
        ∧ (e.declare kind a nm).dev = role (.ui ∈ kinds ++ [kind]) (.sen ∈ kinds ++ [kind]) := by
  rw [overridden_append, not_or] at hover
  obtain ⟨hkinds, hkind⟩ := hover
  obtain ⟨hc, he⟩ := h.roles hkinds
  have hrole : ∀ u s, role u s = withRoles DEVICE_DEV_UNKNOWN u s := fun _ _ => rfl
  simp only [Fields.declare, hc, he, hrole]
  cases kind with
  | ui =>
    rw [nextDev_ui, nextDev_ui]
    simp
  | sen =>
    rw [nextDev_sen, nextDev_sen]
    simp
  | _ => simp at hkind

theorem Tracks.declare_overridden (hover : Overridden (kinds ++ [kind]))
    : (c.declare kind p nm).dev = (e.declare kind a nm).dev
        ∧ ¬ HasRoles (c.declare kind p nm).dev := by
  by_cases hkind : kind ≠ .ui ∧ kind ≠ .sen
  . exact nextDev_other hkind c.dev e.dev
  . have hkinds : Overridden kinds := (overridden_append.mp hover).resolve_right hkind
    obtain ⟨hdev, hroles⟩ := h.overridden hkinds
    refine ⟨congrArg kind.nextDev hdev, ?_⟩
    have hsame : kind.nextDev c.dev = c.dev := by
      cases kind with
      | ui => exact (nextDev_of_not hroles).1
      | sen => exact (nextDev_of_not hroles).2
      | _ => simp at hkind
    rw [Fields.declare]
    rwa [hsame]

include hrep

theorem Tracks.declare_par (hpar : ParReplaced dev (kinds ++ [kind]))
    : rep (c.declare kind p nm).par (e.declare kind a nm).par := by
  by_cases hsets : kind = .ui ∨ kind = .pmp
  . have hboth : ∀ dev, kind.SetsPar dev := fun dev => hsets.imp_right .inl
    rwa [declare_setsPar (hboth c.dev), declare_setsPar (hboth e.dev)]
  . rw [not_or] at hsets
    by_cases hfirst : kind = .sen ∧ ¬ ∃ k ∈ kinds, k ≠ .sen
    -- A sensor declaration behind sensor declarations only
    . obtain ⟨rfl, hall⟩ := hfirst
      have hui : DeviceKind.ui ∉ kinds := fun hui => hall ⟨.ui, hui, by decide⟩
      have hpmp : DeviceKind.pmp ∉ kinds := fun hpmp => hall ⟨.pmp, hpmp, by decide⟩
      have hdev : IsSensor dev := by
        rcases hpar with hpar | hpar | ⟨-, hdev⟩
        . simp [hui] at hpar
        . simp [hpmp] at hpar
        . exact hdev
      obtain ⟨hc, he⟩ := h.isSensor hdev hall
      rwa [declare_setsPar (.inr (.inr ⟨rfl, hc⟩)), declare_setsPar (.inr (.inr ⟨rfl, he⟩))]
    . have hsen : kind = .sen → ¬ IsSensor c.dev ∧ ¬ IsSensor e.dev := by
        intro heq
        apply h.notSensor
        by_contra hall
        exact hfirst ⟨heq, hall⟩
      rw [declare_not_setsPar (not_setsPar hsets.1 hsets.2 fun heq => (hsen heq).1),
        declare_not_setsPar (not_setsPar hsets.1 hsets.2 fun heq => (hsen heq).2)]
      apply h.parReplaced
      apply hpar.of_append hsets.1 hsets.2
      by_contra hnil
      rw [not_or, not_not, not_not] at hnil
      apply hfirst
      refine ⟨hnil.2, ?_⟩
      simp [hnil.1]

omit hrep

theorem Tracks.declare_parKept (hpar : ¬ ParReplaced dev (kinds ++ [kind]))
    : (c.declare kind p nm).par = par := by
  have hkeep : ¬ ParReplaced dev kinds := fun hkinds => hpar (hkinds.append kind)
  have hsen : kind = .sen → ¬ IsSensor c.dev := by
    rintro rfl
    by_cases hall : ∃ k ∈ kinds, k ≠ .sen
    . exact (h.notSensor hall).1
    . apply h.not_isSensor
      intro hdev
      apply hpar
      refine .inr (.inr ⟨?_, hdev⟩)
      cases kinds with
      | nil => rfl
      | cons first rest =>
        by_contra hne
        exact hall ⟨first, List.mem_cons_self, fun heq => hne (congrArg some heq)⟩
  rw [declare_not_setsPar (not_setsPar ?_ ?_ hsen)]
  . exact h.parKept hkeep
  . rintro rfl
    exact hpar (.inl (by simp))
  . rintro rfl
    exact hpar (.inr (.inl (by simp)))

theorem Tracks.declare_parUnset (hui : .ui ∉ kinds ++ [kind]) (hpmp : .pmp ∉ kinds ++ [kind])
    (hhead : (kinds ++ [kind]).head? ≠ some .sen)
    : (e.declare kind a nm).par = .unset := by
  simp only [List.mem_append, List.mem_singleton, not_or] at hui hpmp
  have hkinds : kinds.head? ≠ some .sen := by
    intro hsen
    apply hhead
    rw [head?_append_single]
    . exact hsen
    . rintro rfl
      cases hsen
  have hsen : kind = .sen → ¬ IsSensor e.dev := by
    rintro rfl
    refine (h.notSensor ?_).2
    apply nonSensor_of_head
    . rintro rfl
      exact hhead rfl
    . exact hkinds
  rw [declare_not_setsPar (not_setsPar (Ne.symm hui.2) (Ne.symm hpmp.2) hsen)]
  exact h.parUnset hui.1 hpmp.1 hkinds

include hrep

theorem Tracks.declare
    : Tracks rep dev par (kinds ++ [kind]) (c.declare kind p nm) (e.declare kind a nm) := by
  constructor
  . intro hnon
    have hsensor : kind ≠ .sen ∨ ¬ IsSensor c.dev ∧ ¬ IsSensor e.dev := by
      rcases nonSensor_append.mp hnon with hkinds | hkind
      . exact .inr (h.notSensor hkinds)
      . exact .inl hkind
    exact ⟨not_isSensor_nextDev (hsensor.imp_right And.left),
      not_isSensor_nextDev (hsensor.imp_right And.right)⟩
  . exact h.declare_overridden nm
  . exact h.declare_roles nm
  . exact h.declare_par hrep nm
  . exact h.declare_parKept nm
  . exact h.declare_parUnset nm
  . intro _ hnm
    by_cases hkind : kind = .sen
    . subst hkind
      by_cases hall : ∃ k ∈ kinds, k ≠ .sen
      . obtain ⟨hc, he⟩ := h.notSensor hall
        have hne : kinds ≠ [] := by
          rintro rfl
          obtain ⟨k, hk, -⟩ := hall
          cases hk
        simpa [Fields.declare, DeviceKind.SetsName, hc, he] using h.nm hne (.inl hall)
      . have hdev : IsSensor dev := by
          rcases hnm with hnon | hdev
          . exact absurd ((nonSensor_append.mp hnon).resolve_right (by simp)) hall
          . exact hdev
        obtain ⟨hc, he⟩ := h.isSensor hdev hall
        simp [Fields.declare, DeviceKind.SetsName, hc, he]
    . simp [Fields.declare, DeviceKind.SetsName, hkind]

end

theorem Tracks.mono {rep' : Int → Parent → Prop} (h : Tracks rep dev par kinds c e)
    (hrep : ∀ p a, rep p a → rep' p a)
    : Tracks rep' dev par kinds c e :=
  { h with parReplaced := fun hpar => hrep _ _ (h.parReplaced hpar) }

theorem DevSettled.saved (h : DevSettled dev kinds)
    : (∃ kind ∈ kinds, kind ≠ .sen) ∨ IsSensor dev := by
  rcases h with ⟨kind, hkind, -, hsen⟩ | hdev | ⟨-, hui⟩ | ⟨hdev, -⟩ | ⟨-, hui, -⟩
  . exact .inl ⟨kind, hkind, hsen⟩
  . exact .inr (.inl hdev)
  . exact .inl ⟨.ui, hui, by decide⟩
  . exact .inr (.inr hdev)
  . exact .inl ⟨.ui, hui, by decide⟩

end

end ControlInterface
