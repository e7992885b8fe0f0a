import Circulation.Proofs.Lock.Plan

/-!
# Locks only open

Whether a lock can be evaluated, and the date on which it ends, do not depend on the instant. The
amount that it holds does not grow in time, in whatever order the times of the lock stand, and it is
bounded by what was granted or, where the lock opens period by period, by what its periods release.

## Main definitions

* `Circulation.AccountLock.periodTotal` — what the periods of a lock release of a denomination.

## Main results

* `Circulation.AccountLock.lockedAt_only_opens` — locks only open.
-/

namespace Circulation.AccountLock

open Schedule

variable {lock : AccountLock} {denom : String}

/-- What a period releases of a denomination; an amount that is no numeral counts for nothing. -/
def releasedBy (denom : String) (period : LockPeriod) : Nat :=
  (amountOf period.coins denom).toOption.getD 0

/-- What the periods of a lock release of a denomination. -/
def periodTotal (lock : AccountLock) (denom : String) : Nat :=
  Amount.sum (lock.vestingPeriods.map (releasedBy denom))

/-- The tranches of periods are the amounts that the periods release. -/
theorem amounts_tranches {start : Instant} {elapsed : Int} {periods : List LockPeriod}
    {steps : List Tranche} (h : tranches start denom elapsed periods = .ok steps) :
    steps.map (·.amount) = periods.map (releasedBy denom) := by
  induction periods generalizing elapsed steps with
  | nil =>
    obtain rfl : [] = steps := Except.ok.inj h
    rfl
  | cons period periods ih =>
    simp only [tranches, bind_eq_ok, pure_eq_ok] at h
    obtain ⟨stop, -, amount, hamount, rest, hrest, rfl⟩ := h
    have hreleased : releasedBy denom period = amount := by
      rw [releasedBy, hamount]
      rfl
    rw [List.map_cons, List.map_cons, ih hrest, hreleased]

/-- A lock that opens period by period holds no more than its periods release. -/
theorem HasPlan.total_le_periodTotal {p : Plan} (h : lock.HasPlan denom p)
    (hperiodic : lock.IsPeriodic) : p.total ≤ lock.periodTotal denom := by
  cases h with
  | ungranted => exact Nat.zero_le _
  | unknown => exact Nat.zero_le _
  | periodic hgranted _ hstart hsteps =>
    refine Nat.le_of_eq ?_
    rw [Plan.total, amounts_tranches hsteps, periodTotal]
  | permanent hgranted hkind | delayed hgranted hkind | continuous hgranted hkind =>
    rcases hperiodic with hperiodic | ⟨hperiodic, -⟩
    · exact absurd (hkind.symm.trans hperiodic) (by decide)
    · exact absurd (hkind.symm.trans hperiodic) (by decide)
  | clawback hgranted hkind hperiods =>
    rcases hperiodic with hperiodic | ⟨-, hperiodic⟩
    · exact absurd (hkind.symm.trans hperiodic) (by decide)
    · exact absurd hperiods hperiodic

/-- Any other lock holds no more than what was granted. -/
theorem HasPlan.total_le_granted {p : Plan} (h : lock.HasPlan denom p)
    (hperiodic : ¬lock.IsPeriodic) :
    ∃ granted, amountOf lock.grantedCoins denom = .ok granted ∧ p.total ≤ granted := by
  cases h with
  | ungranted hgranted => exact ⟨0, hgranted, Nat.le_refl _⟩
  | unknown hgranted => exact ⟨_, hgranted, Nat.zero_le _⟩
  | periodic _ h => exact absurd h hperiodic
  | permanent hgranted | delayed hgranted | continuous hgranted | clawback hgranted =>
    exact ⟨_, hgranted, Nat.le_refl _⟩

/-- **Locks only open.** A lock fails alike at every instant, or it is evaluated at every instant
with the same end date, and then the amount does not grow in time. What the lock holds is at most
what its periods release if it opens period by period, and at most what was granted otherwise. -/
theorem lockedAt_only_opens (lock : AccountLock) (denom : String) :
    (∃ why, ∀ now, lock.lockedAt denom now = .error why) ∨
      ∃ (amount : Instant → Nat) (stop : EndDate),
        (∀ now, lock.lockedAt denom now = .ok ⟨amount now, stop⟩) ∧
        (∀ now now', now.nanos ≤ now'.nanos → amount now' ≤ amount now) ∧
        (lock.IsPeriodic → ∀ now, amount now ≤ lock.periodTotal denom) ∧
        (¬lock.IsPeriodic → ∃ granted, amountOf lock.grantedCoins denom = .ok granted ∧
          ∀ now, amount now ≤ granted) := by
  cases hplan : lock.plan denom with
  | error why =>
    refine .inl ⟨why, fun now => ?_⟩
    rw [lockedAt_eq_plan, hplan]
    rfl
  | ok p =>
    have hhas : lock.HasPlan denom p := hasPlan_of_plan hplan
    refine .inr ⟨p.amount, p.stop, fun now => ?_, fun now now' => p.amount_antitone, ?_, ?_⟩
    · rw [lockedAt_eq_plan, hplan]
      rfl
    · intro hperiodic now
      exact Nat.le_trans (p.amount_le_total now) (hhas.total_le_periodTotal hperiodic)
    · intro hperiodic
      obtain ⟨granted, hgranted, hle⟩ := hhas.total_le_granted hperiodic
      exact ⟨granted, hgranted, fun now => Nat.le_trans (p.amount_le_total now) hle⟩

/-- A lock that holds 300 until its end. -/
theorem lockedAt_only_opens_delayed :
    let lock : AccountLock :=
      ⟨"DelayedVestingAccount", .delayed, [⟨"ulume", "300"⟩], none, some ⟨5000000000, 0⟩, [], []⟩
    ¬lock.IsPeriodic ∧ ∃ (amount : Instant → Nat) (stop : EndDate) (granted : Nat),
      (∀ now, lock.lockedAt "ulume" now = .ok ⟨amount now, stop⟩) ∧
      amount ⟨5000000000, 0⟩ ≤ amount ⟨0, 0⟩ ∧
      amountOf lock.grantedCoins "ulume" = .ok granted ∧ amount ⟨0, 0⟩ ≤ granted := by
  intro lock
  have hperiodic : ¬lock.IsPeriodic := by
    rintro (h | ⟨h, -⟩) <;> cases h
  have hholds : (lock.lockedAt "ulume" ⟨0, 0⟩).toOption = some ⟨300, .at ⟨5000000000, 0⟩⟩ := by
    decide
  rcases lockedAt_only_opens lock "ulume" with
    ⟨why, hwhy⟩ | ⟨amount, stop, hamount, hopens, -, hgranted⟩
  · rw [hwhy] at hholds
    cases hholds
  · obtain ⟨granted, hgranted, hle⟩ := hgranted hperiodic
    exact ⟨hperiodic, amount, stop, granted, hamount, hopens _ _ (by decide), hgranted, hle _⟩

end Circulation.AccountLock
