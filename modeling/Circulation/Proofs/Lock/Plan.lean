import Circulation.Lock.Evaluation
import Circulation.Proofs.Except
import Circulation.Proofs.Lock.Schedule

/-!
# The plan of a lock

What a lock says of a denomination does not depend on the instant at which it is evaluated: its
amounts and its times are read once, and give a schedule with all that it needs. The instant comes
in only when the amount of the schedule is taken.

## Main definitions

* `Circulation.Plan` — a schedule with its amounts and times.
* `Circulation.AccountLock.plan` — the plan of a lock for a denomination.
* `Circulation.AccountLock.HasPlan` — the plans of a lock, discipline by discipline.

## Main results

* `Circulation.Plan.amount_antitone`, `Circulation.Plan.amount_le_total` — plans only open.
* `Circulation.AccountLock.lockedAt_eq_plan` — a lock is evaluated by its plan.
* `Circulation.AccountLock.hasPlan_of_plan` — what a lock says where it has a plan.
-/

namespace Circulation

open Schedule

/-- A schedule with its amounts and times. -/
inductive Plan where
  | nothing
  | permanent (total : Nat)
  | delayed (total : Nat) (stop : Instant)
  | continuous (total : Nat) (start stop : Instant)
  | periodic (tranches : List Tranche)
  | clawback (total : Nat) (start cliff stop : Instant)

namespace Plan

/-- The locked amount of a plan at an instant. -/
def amount : Plan → Instant → Nat
  | nothing, _ => 0
  | permanent total, _ => Schedule.permanent total
  | delayed total stop, now => Schedule.delayed total now stop
  | continuous total start stop, now => Schedule.continuous total now start stop
  | periodic tranches, now => Schedule.periodic tranches now
  | clawback total start cliff stop, now => Schedule.clawback total now start cliff stop

/-- The end date of a plan. -/
def stop : Plan → EndDate
  | nothing => .none
  | permanent _ => .forever
  | delayed _ stop => .at stop
  | continuous _ _ stop => .at stop
  | periodic tranches =>
    match tranches.getLast? with
    | some last => .at last.stop
    | none => .none
  | clawback _ _ _ stop => .at stop

/-- All that a plan locks. -/
def total : Plan → Nat
  | nothing => 0
  | permanent total | delayed total _ | continuous total _ _ | clawback total _ _ _ => total
  | periodic tranches => Amount.sum (tranches.map (·.amount))

/-- The locked amount of a plan does not grow in time. -/
theorem amount_antitone (p : Plan) {now now' : Instant} (h : now.nanos ≤ now'.nanos) :
    p.amount now' ≤ p.amount now := by
  cases p with
  | nothing => exact Nat.le_refl _
  | permanent total => exact Nat.le_refl _
  | delayed total stop => exact delayed_antitone h
  | continuous total start stop => exact continuous_antitone h
  | periodic tranches => exact periodic_antitone tranches h
  | clawback total start cliff stop => exact clawback_antitone h

/-- A plan never locks more than its whole amount. -/
theorem amount_le_total (p : Plan) (now : Instant) : p.amount now ≤ p.total := by
  cases p with
  | nothing => exact Nat.le_refl _
  | permanent total => exact Nat.le_refl _
  | delayed total stop => exact delayed_le
  | continuous total start stop => exact continuous_le
  | periodic tranches => exact periodic_le tranches
  | clawback total start cliff stop => exact clawback_le

end Plan

namespace AccountLock

variable {lock : AccountLock} {denom : String}

/-- The plan of a lock that opens period by period. -/
def periodicPlan (lock : AccountLock) (denom : String) : Except LockError Plan := do
  let start ← needed lock.kind .start lock.startTime
  return .periodic (← tranches start denom 0 lock.vestingPeriods)

/-- The plan of a lock for a denomination. -/
def plan (lock : AccountLock) (denom : String) : Except LockError Plan := do
  let granted ← amountOf lock.grantedCoins denom
  if granted = 0 then return .nothing
  match lock.kind with
  | .permanent => return .permanent granted
  | .delayed => return .delayed granted (← needed lock.kind .stop lock.endTime)
  | .continuous =>
    let start ← needed lock.kind .start lock.startTime
    let stop ← needed lock.kind .stop lock.endTime
    return .continuous granted start stop
  | .periodic => lock.periodicPlan denom
  | .clawback =>
    if lock.vestingPeriods ≠ [] then
      lock.periodicPlan denom
    else
      let start ← needed lock.kind .start lock.startTime
      let stop ← needed lock.kind .stop lock.endTime
      let cliff ← later start (totalLength lock.lockupPeriods)
      return .clawback granted start cliff stop
  | .unknown => return .nothing

theorem periodicPortion_eq_plan (now : Instant) :
    lock.periodicPortion denom now =
      (lock.periodicPlan denom).map fun p => ⟨p.amount now, p.stop⟩ := by
  unfold periodicPortion periodicPlan
  cases needed lock.kind .start lock.startTime with
  | error why => rfl
  | ok start =>
    simp only [bind, Except.bind]
    cases tranches start denom 0 lock.vestingPeriods with
    | error why => rfl
    | ok steps => rfl

/-- **A lock is evaluated by its plan.** -/
theorem lockedAt_eq_plan (now : Instant) :
    lock.lockedAt denom now = (lock.plan denom).map fun p => ⟨p.amount now, p.stop⟩ := by
  unfold lockedAt plan
  cases amountOf lock.grantedCoins denom with
  | error why => rfl
  | ok granted =>
    simp only [bind, Except.bind]
    by_cases hgranted : granted = 0
    · simp only [if_pos hgranted]
      rfl
    · simp only [if_neg hgranted]
      cases hkind : lock.kind with
      | permanent => rfl
      | unknown => rfl
      | periodic => exact periodicPortion_eq_plan now
      | delayed =>
        cases needed .delayed .stop lock.endTime <;> rfl
      | continuous =>
        cases needed .continuous .start lock.startTime with
        | error why => rfl
        | ok start => cases needed .continuous .stop lock.endTime <;> rfl
      | clawback =>
        by_cases hperiods : lock.vestingPeriods ≠ []
        · simp only [if_pos hperiods]
          exact periodicPortion_eq_plan now
        · simp only [if_neg hperiods]
          cases needed .clawback .start lock.startTime with
          | error why => rfl
          | ok start =>
            cases needed .clawback .stop lock.endTime with
            | error why => rfl
            | ok stop =>
              dsimp only
              cases later start (totalLength lock.lockupPeriods) <;> rfl

/-! ### What a lock says where it has a plan -/

/-- Whether a lock opens period by period. -/
def IsPeriodic (lock : AccountLock) : Prop :=
  lock.kind = .periodic ∨ lock.kind = .clawback ∧ lock.vestingPeriods ≠ []

/-- The plans of a lock for a denomination, with what the lock says for each. -/
inductive HasPlan (lock : AccountLock) (denom : String) : Plan → Prop
  | ungranted (hgranted : amountOf lock.grantedCoins denom = .ok 0) : HasPlan lock denom .nothing
  | unknown {granted : Nat} (hgranted : amountOf lock.grantedCoins denom = .ok granted)
      (hkind : lock.kind = .unknown) : HasPlan lock denom .nothing
  | permanent {granted : Nat} (hgranted : amountOf lock.grantedCoins denom = .ok granted)
      (hkind : lock.kind = .permanent) : HasPlan lock denom (.permanent granted)
  | delayed {granted : Nat} {stop : Instant}
      (hgranted : amountOf lock.grantedCoins denom = .ok granted) (hkind : lock.kind = .delayed)
      (hstop : lock.endTime = some stop) : HasPlan lock denom (.delayed granted stop)
  | continuous {granted : Nat} {start stop : Instant}
      (hgranted : amountOf lock.grantedCoins denom = .ok granted) (hkind : lock.kind = .continuous)
      (hstart : lock.startTime = some start) (hstop : lock.endTime = some stop) :
      HasPlan lock denom (.continuous granted start stop)
  | periodic {granted : Nat} {start : Instant} {steps : List Tranche}
      (hgranted : amountOf lock.grantedCoins denom = .ok granted) (hperiodic : lock.IsPeriodic)
      (hstart : lock.startTime = some start)
      (hsteps : tranches start denom 0 lock.vestingPeriods = .ok steps) :
      HasPlan lock denom (.periodic steps)
  | clawback {granted : Nat} {start cliff stop : Instant}
      (hgranted : amountOf lock.grantedCoins denom = .ok granted) (hkind : lock.kind = .clawback)
      (hperiods : lock.vestingPeriods = []) (hstart : lock.startTime = some start)
      (hstop : lock.endTime = some stop)
      (hcliff : later start (totalLength lock.lockupPeriods) = .ok cliff) :
      HasPlan lock denom (.clawback granted start cliff stop)

theorem needed_eq_ok {kind : LockKind} {time : LockTime} {t : Option Instant} {instant : Instant} :
    needed kind time t = .ok instant ↔ t = some instant := by
  cases t with
  | none => simp [needed]
  | some t => simp [needed]

theorem hasPlan_of_periodicPlan {granted : Nat} {p : Plan}
    (hgranted : amountOf lock.grantedCoins denom = .ok granted) (hperiodic : lock.IsPeriodic)
    (h : lock.periodicPlan denom = .ok p) : lock.HasPlan denom p := by
  simp only [periodicPlan, bind_eq_ok, pure_eq_ok, needed_eq_ok] at h
  obtain ⟨start, hstart, steps, hsteps, rfl⟩ := h
  exact .periodic hgranted hperiodic hstart hsteps

theorem hasPlan_of_plan {p : Plan} (h : lock.plan denom = .ok p) : lock.HasPlan denom p := by
  obtain ⟨granted, hgranted, h⟩ := bind_eq_ok.mp h
  by_cases hzero : granted = 0
  · rw [if_pos hzero] at h
    obtain rfl := pure_eq_ok.mp h
    rw [hzero] at hgranted
    exact .ungranted hgranted
  · simp only [if_neg hzero] at h
    cases hkind : lock.kind with
    | permanent =>
      simp only [hkind, pure_eq_ok] at h
      exact h ▸ .permanent hgranted hkind
    | unknown =>
      simp only [hkind, pure_eq_ok] at h
      exact h ▸ .unknown hgranted hkind
    | delayed =>
      simp only [hkind, bind_eq_ok, pure_eq_ok, needed_eq_ok] at h
      obtain ⟨stop, hstop, rfl⟩ := h
      exact .delayed hgranted hkind hstop
    | continuous =>
      simp only [hkind, bind_eq_ok, pure_eq_ok, needed_eq_ok] at h
      obtain ⟨start, hstart, stop, hstop, rfl⟩ := h
      exact .continuous hgranted hkind hstart hstop
    | periodic =>
      simp only [hkind] at h
      exact hasPlan_of_periodicPlan hgranted (.inl hkind) h
    | clawback =>
      by_cases hperiods : lock.vestingPeriods = []
      · simp only [hkind, hperiods, ne_eq, not_true_eq_false, if_false, bind_eq_ok, pure_eq_ok,
          needed_eq_ok] at h
        obtain ⟨start, hstart, stop, hstop, cliff, hcliff, rfl⟩ := h
        exact .clawback hgranted hkind hperiods hstart hstop hcliff
      · simp only [hkind, ne_eq, hperiods, not_false_eq_true, if_true] at h
        exact hasPlan_of_periodicPlan hgranted (.inr ⟨hkind, hperiods⟩) h

end AccountLock

end Circulation
