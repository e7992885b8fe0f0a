import Circulation.Lock.Account
import Circulation.Proofs.Instant.Reading
import Circulation.Proofs.Lock.Plan

/-!
# The times of a lock

An account that is read from any value at all has times that a clock can show, and so has every end
date that its lock comes to, also where it is counted in periods from the start.

## Main definitions

* `Circulation.EndDate.IsOnClock` — an end date that a clock can show, if it is an instant.
* `Circulation.AccountLock.IsOnClock` — a lock whose times a clock can show.

## Main results

* `Circulation.AccountLock.yields_ofJson` — the times of an account that is read.
* `Circulation.AccountLock.IsOnClock.yields_lockedAt` — the end dates of its lock.
-/

namespace Circulation

/-- An end date that a clock can show, if it is an instant. -/
def EndDate.IsOnClock (stop : EndDate) : Prop :=
  ∀ t, stop = .at t → t.IsOnClock

namespace EndDate

theorem isOnClock_none : EndDate.none.IsOnClock :=
  fun _ h => absurd h (by simp)

theorem isOnClock_forever : EndDate.forever.IsOnClock :=
  fun _ h => absurd h (by simp)

theorem isOnClock_at {t : Instant} (ht : t.IsOnClock) : (EndDate.at t).IsOnClock := by
  rintro _ ⟨⟩
  exact ht

end EndDate

namespace AccountLock

/-- A lock whose times a clock can show. -/
structure IsOnClock (lock : AccountLock) : Prop where
  startTime : ∀ t ∈ lock.startTime, t.IsOnClock
  endTime : ∀ t ∈ lock.endTime, t.IsOnClock

/-! ### Reading -/

theorem yields_timeOf (text : Option String) :
    Yields (timeOf text) fun t? => ∀ t ∈ t?, t.IsOnClock := by
  unfold timeOf
  split
  · exact .ok fun t ht => absurd ht (by simp)
  · exact .ok fun t ht => absurd ht (by simp)
  · next cs _ _ =>
    dsimp only
    cases hunix : Instant.ofUnixText (String.ofList cs) with
    | ok t? => exact .ok (Instant.yields_ofUnixText _ t? hunix)
    | error why =>
      refine (Instant.yields_parse _).map fun t ht u hu => ?_
      obtain rfl := Option.some.inj hu
      exact ht.isOnClock

/-- The times of an account that is read are on a clock. -/
theorem yields_ofJson (account : Json) : Yields (ofJson account) IsOnClock := by
  refine (Yields.trivial _).bind fun parts _ => Yields.mapError ?_
  refine (yields_timeOf _).bind fun startTime hstart => ?_
  refine (yields_timeOf _).bind fun endTime hend => ?_
  refine (Yields.trivial _).bind fun vestingPeriods _ => ?_
  refine (Yields.trivial _).bind fun lockupPeriods _ => ?_
  exact .ok ⟨hstart, hend⟩

/-! ### Evaluation -/

/-- The tranches of periods that start on a clock end on it. -/
theorem yields_tranches {start : Instant} (hstart : start.IsOnClock) (denom : String)
    (elapsed : Int) (periods : List LockPeriod) :
    Yields (tranches start denom elapsed periods) fun steps =>
      ∀ step ∈ steps, step.stop.IsOnClock := by
  induction periods generalizing elapsed with
  | nil => exact .ok fun step hstep => absurd hstep List.not_mem_nil
  | cons period periods ih =>
    have hlater : ∀ seconds, Yields (later start seconds) Instant.IsOnClock := by
      intro seconds
      unfold later
      cases hseconds : start.addSeconds? seconds with
      | none => exact .error _
      | some t => exact .ok (hstart.addSeconds hseconds)
    refine (hlater _).bind fun stop hstop => (Yields.trivial _).bind fun amount _ => ?_
    refine (ih _).bind fun steps hsteps => ?_
    exact .ok (List.forall_mem_cons.mpr ⟨hstop, hsteps⟩)

/-- Every plan of a lock whose times are on a clock ends on a clock. -/
theorem IsOnClock.stop_plan {lock : AccountLock} (hlock : lock.IsOnClock) {denom : String}
    {p : Plan} (h : lock.HasPlan denom p) : p.stop.IsOnClock := by
  cases h with
  | ungranted | unknown => exact EndDate.isOnClock_none
  | permanent => exact EndDate.isOnClock_forever
  | delayed _ _ hstop | continuous _ _ _ hstop | clawback _ _ _ _ hstop =>
    exact EndDate.isOnClock_at (hlock.endTime _ hstop)
  | @periodic granted start steps _ _ hstart hsteps =>
    have hon := yields_tranches (hlock.startTime _ hstart) denom 0 lock.vestingPeriods steps hsteps
    rw [Plan.stop]
    cases hlast : steps.getLast? with
    | none => exact EndDate.isOnClock_none
    | some last => exact EndDate.isOnClock_at (hon last (List.mem_of_getLast? hlast))

/-- The end date of a lock whose times are on a clock is on a clock. -/
theorem IsOnClock.yields_lockedAt {lock : AccountLock} (hlock : lock.IsOnClock) (denom : String)
    (now : Instant) : Yields (lock.lockedAt denom now) fun portion => portion.stop.IsOnClock := by
  rw [lockedAt_eq_plan]
  have hplan : Yields (lock.plan denom) (lock.HasPlan denom) := fun _ => hasPlan_of_plan
  exact hplan.map fun p hp => hlock.stop_plan hp

end AccountLock

end Circulation
