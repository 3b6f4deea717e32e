import Mathlib.Algebra.Order.Group.Int

/-!
This module contains points in time as seconds with a fraction, as the clock shows them and as a timed
wait takes them.
-/

namespace Clock

/--
What the clock shows.
-/
structure Timeval where
  tv_sec : Int
  tv_usec : Nat
  lt : tv_usec < 1000000

structure Timespec where
  tv_sec : Int
  tv_nsec : Nat
  deriving DecidableEq

/--
The nanoseconds since the epoch.
-/
def Timeval.ns (t : Timeval) : Int := t.tv_sec * 1000000000 + t.tv_usec * 1000

def Timespec.ns (t : Timespec) : Int := t.tv_sec * 1000000000 + t.tv_nsec

/--
The fraction is less than a second.
-/
def Timespec.Valid (t : Timespec) : Prop := t.tv_nsec < 1000000000

instance decidableValid (t : Timespec) : Decidable t.Valid :=
  inferInstanceAs (Decidable (t.tv_nsec < 1000000000))

/--
The valid point in time so many milliseconds later.
-/
def Timeval.after (now : Timeval) (ms : Nat) : Timespec where
  tv_sec := (now.ns + ms * 1000000) / 1000000000
  tv_nsec := ((now.ns + ms * 1000000) % 1000000000).toNat

theorem valid_after (now : Timeval) (ms : Nat) : (now.after ms).Valid := by
  unfold Timespec.Valid Timeval.after
  simp only
  omega

theorem ns_after (now : Timeval) (ms : Nat) : (now.after ms).ns = now.ns + ms * 1000000 := by
  unfold Timespec.ns
  simp only [Timeval.after]
  omega

theorem Timespec.Valid.ext {t t' : Timespec} (ht : t.Valid) (ht' : t'.Valid) (h : t.ns = t'.ns)
    : t = t' := by
  obtain ⟨sec, nsec⟩ := t
  obtain ⟨sec', nsec'⟩ := t'
  simp only [Timespec.Valid, Timespec.ns] at ht ht' h
  have hsec : sec = sec' := by omega
  have hnsec : nsec = nsec' := by omega
  rw [hsec, hnsec]

/--
There is one valid point in time for a number of nanoseconds.
-/
theorem eq_after_iff {t : Timespec} {now : Timeval} {ms : Nat}
    : t = now.after ms ↔ t.Valid ∧ t.ns = now.ns + ms * 1000000 := by
  constructor
  . rintro rfl
    exact ⟨valid_after now ms, ns_after now ms⟩
  . rintro ⟨hvalid, hns⟩
    exact hvalid.ext (valid_after now ms) (hns.trans (ns_after now ms).symm)

end Clock
