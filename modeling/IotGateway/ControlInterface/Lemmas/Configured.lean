import IotGateway.ControlInterface.Lemmas.Session

/-!
This module contains what a topology session leaves in the device table, and when this depends on the
declarations only.
-/

namespace ControlInterface

open NewDb Table

/--
A device that was in the table `db` before, and whose fields come to agree with what is declared. An
old parent may stay if it is the right one.
-/
def Settled (db : Db) (declarations : List Declaration) (device : Device) : Prop :=
  DevSettled device.dev (kindsOf declarations device.mac)
    ∧ (ParReplaced device.dev (kindsOf declarations device.mac)
      ∨ Represents (places "" db.macs (macsOf declarations)) device.par
          ((planOf declarations).entry device.mac).par)

section

variable {db₀ db : Db} {declarations : List Declaration} {d : Declaration} {s : TopoState}
  {i : Fin NEWDB_MAX_DEVICES}

/--
The parents are among the devices declared.
-/
def Parent.Within (macs : List String) : Parent → Prop
  | .noRow => True
  | .unset => True
  | .device mac => mac.1 ∈ macs

theorem Parent.Within.mono {macs macs' : List String} {parent : Parent} (h : parent.Within macs)
    (hsub : ∀ mac ∈ macs, mac ∈ macs')
    : parent.Within macs' := by
  cases parent with
  | noRow => trivial
  | unset => trivial
  | device mac => exact hsub _ h

theorem Session.left (h : Session db₀ declarations s db) (hlive : db.macs i ≠ "")
    (hmark : ¬ Marked (db.devices i))
    : db.macs i ∈ macsOf declarations ∧ first (· == db.macs i) db.macs = some i := by
  by_cases hfree : db₀.macs i = ""
  . obtain ⟨hmem, -, hunique⟩ := h.fresh hfree hlive
    refine ⟨hmem, ?_⟩
    apply first_eq_some_of_unique
    . exact beq_self_eq_true _
    . intro j hj
      exact hunique j (beq_iff_eq.mp hj)
  . by_contra hnot
    rw [not_and_or, h.macs_eq hfree] at hnot
    rw [h.untouched i hfree hnot] at hmark
    exact hmark (marked_setClear hfree)

theorem Session.before (h : Session db₀ declarations s db)
    (hfirst : first (· == d.mac.1) db.macs = some i)
    : (db₀.macs i = "" ∧ newDbGetDevice db₀ d.mac = none)
        ∨ (db₀.macs i ≠ "" ∧ newDbGetDevice db₀ d.mac = some (db₀.devices i)) := by
  match hget : first (· == d.mac.1) db₀.macs with
  | some j =>
    right
    have hplaced := first_places hget d.mac.2 (macsOf declarations)
    rw [← h.placed, hfirst] at hplaced
    obtain rfl := Option.some.inj hplaced
    refine ⟨?_, newDbGetDevice_eq_some_iff.mpr ⟨i, hget, rfl⟩⟩
    rw [first_key hget]
    exact d.mac.2
  | none =>
    left
    refine ⟨?_, Option.map_eq_none_iff.mpr hget⟩
    by_contra hlive
    apply first_eq_none_iff_ne.mp hget i
    rw [← h.macs_eq hlive]
    exact first_key hfirst

end

def lampMac : Text := ⟨"00158D0000350F1A", by decide⟩

def kitchen : Text := ⟨"Kitchen", by decide⟩

def declare (kind : DeviceKind) (mac : Text) : Timed where
  declaration := { kind, mac, nm := kitchen }
  now := 1
  now' := 1

end ControlInterface
