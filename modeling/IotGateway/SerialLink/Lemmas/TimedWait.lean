import IotGateway.SerialLink.Impl.MessageQueue
import IotGateway.SerialLink.Impl.TimedWait

/-!
This module says until when the timed waits last, and when they fail.
-/

namespace SerialLink

open Clock UtilsQueue

variable {sNow : Timeval} {ms : UInt32}

/--
The fraction does not add up to exactly one second.
-/
def NoFullSecond (sNow : Timeval) (ms : UInt32) : Prop :=
  sNow.tv_usec + ms.toNat % 1000 * 1000 ≠ 1000000

theorem usec_toNat (ms : UInt32) : (ms % 1000 * 1000).toNat = ms.toNat % 1000 * 1000 := by
  have hlt : ms.toNat % 1000 < 1000 := Nat.mod_lt _ (by decide)
  rw [UInt32.toNat_mul, UInt32.toNat_mod]
  simp only [UInt32.reduceToNat]
  omega

theorem sec_toNat (ms : UInt32) : (ms / 1000).toNat = ms.toNat / 1000 := UInt32.toNat_div ms 1000

theorem ns_timeoutAfter (sNow : Timeval) (ms : UInt32)
    : (timeoutAfter sNow ms).ns = sNow.ns + ms.toNat * 1000000 := by
  have hdiv := Nat.div_add_mod ms.toNat 1000
  simp only [timeoutAfter, usec_toNat, sec_toNat]
  split
  . simp only [Timespec.ns, Timeval.ns]
    omega
  . simp only [Timespec.ns, Timeval.ns]
    omega

theorem valid_timeoutAfter_iff : (timeoutAfter sNow ms).Valid ↔ NoFullSecond sNow ms := by
  have hlt : ms.toNat % 1000 < 1000 := Nat.mod_lt _ (by decide)
  have husec := sNow.lt
  simp only [timeoutAfter, usec_toNat, NoFullSecond]
  split
  . simp only [Timespec.Valid]
    omega
  . simp only [Timespec.Valid]
    omega

theorem timeoutAfter_eq_iff : timeoutAfter sNow ms = sNow.after ms.toNat ↔ NoFullSecond sNow ms := by
  rw [eq_after_iff, valid_timeoutAfter_iff, and_iff_left (ns_timeoutAfter sNow ms)]

/--
The fraction is the one in the model of the slots.
-/
theorem timeoutNsec_eq (sNow : Timeval) (ms : UInt32)
    : timeoutNsec ms.toNat sNow.tv_usec = (timeoutAfter sNow ms).tv_nsec := by
  simp only [timeoutNsec, timeoutAfter, usec_toNat]
  split
  . rfl
  . rfl

theorem timedwait_of_valid {abstime : Timespec} (h : abstime.Valid) (wakeup : Wakeup)
    : pthread_cond_timedwait abstime wakeup ≠ .EINVAL := by
  unfold pthread_cond_timedwait
  rw [if_pos h]
  cases wakeup with
  | signalled => exact WaitReturn.noConfusion
  | timedOut => exact WaitReturn.noConfusion

theorem eStatus_ne_error (h : NoFullSecond sNow ms) (wakeup : Wakeup)
    : eSL_MessageWait.eStatus sNow ms wakeup ≠ .error := by
  have hvalid := timedwait_of_valid (valid_timeoutAfter_iff.mpr h) wakeup
  unfold eSL_MessageWait.eStatus eSL_MessageWait.sTimeout
  split
  . exact SerialLink.Status.noConfusion
  . exact SerialLink.Status.noConfusion
  . next hinval => exact absurd hinval hvalid

theorem afterWait_ne_failed (h : NoFullSecond sNow ms) (wakeup : Wakeup)
    : eUtils_QueueDequeueTimed.afterWait sNow ms wakeup ≠ some .failed := by
  have hvalid := timedwait_of_valid (valid_timeoutAfter_iff.mpr h) wakeup
  unfold eUtils_QueueDequeueTimed.afterWait eUtils_QueueDequeueTimed.sTimeout
  split
  . nofun
  . nofun
  . next hinval => exact absurd hinval hvalid

/--
A call that waits any number of times does not fail if no wait starts at a bad moment.
-/
theorem run_ne_failed {α : Type} (q : QueuePrivate α)
    (turns : List (eUtils_QueueDequeueTimed.Turn α))
    (h : ∀ turn ∈ turns, NoFullSecond turn.sNow ms)
    : ∀ result, eUtils_QueueDequeueTimed.run ms q turns = some result → result.1 ≠ .failed := by
  induction turns generalizing q with
  | nil =>
    intro result hresult
    rw [eUtils_QueueDequeueTimed.run] at hresult
    split at hresult
    . obtain rfl := Option.some.inj hresult
      exact UtilsQueue.Status.noConfusion
    . cases hresult
  | cons turn turns ih =>
    intro result hresult
    rw [eUtils_QueueDequeueTimed.run] at hresult
    split at hresult
    . obtain rfl := Option.some.inj hresult
      exact UtilsQueue.Status.noConfusion
    split at hresult
    . exact ih turn.q (fun t ht => h t (List.mem_cons_of_mem turn ht)) result hresult
    . next status hstatus =>
      obtain rfl := Option.some.inj hresult
      rintro rfl
      exact afterWait_ne_failed (h turn List.mem_cons_self) turn.wakeup hstatus

/--
Both points in time are the right ones and no wait fails.
-/
theorem sTimeout_iff (sNow : Timeval) (ms : UInt32)
    : (eSL_MessageWait.sTimeout sNow ms = sNow.after ms.toNat
        ∧ eUtils_QueueDequeueTimed.sTimeout sNow ms = sNow.after ms.toNat
        ∧ ∀ wakeup, eSL_MessageWait.eStatus sNow ms wakeup ≠ .error
            ∧ eUtils_QueueDequeueTimed.afterWait sNow ms wakeup ≠ some .failed)
        ↔ NoFullSecond sNow ms := by
  constructor
  . rintro ⟨h, -, -⟩
    exact timeoutAfter_eq_iff.mp h
  . intro h
    refine ⟨timeoutAfter_eq_iff.mpr h, timeoutAfter_eq_iff.mpr h, ?_⟩
    exact fun wakeup => ⟨eStatus_ne_error h wakeup, afterWait_ne_failed h wakeup⟩

/--
At half a second past, nothing can be waited for with a timeout of half a second.
-/
theorem half_past_wrong
    : let sNow : Timeval := ⟨1700000000, 500000, by decide⟩
      eSL_MessageWait.sTimeout sNow 500 ≠ sNow.after 500
        ∧ eSL_MessageWait.eStatus sNow 500 .signalled = .error := by
  decide

end SerialLink
