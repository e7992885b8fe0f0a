import Circulation.Proofs.Instant.Clock
import Circulation.Proofs.Lock.Plan

/-!
# What a lock holds from its end date on

The end date of a lock is chosen apart from its amount. A lock that opens period by period ends with
its last period, and a period of negative length ends before the one that it follows, so the last
period need not be the latest. A lock with a cliff ends at its end time, and the cliff may come
after it. Until the latest period or the cliff such a lock holds something past its end date.

Nothing else holds past its end date. Where no period has a negative length and no cliff comes after
the end time, the end date is the one from which on nothing is locked.

## Main definitions

* `Circulation.AccountLock.HoldsOver` — why a lock holds something whatever its end date is.
* `Circulation.AccountLock.IsOrdered` — the times of a lock come in their order.

## Main results

* `Circulation.AccountLock.amount_ne_zero_iff_of_stop_le` — what a lock holds from its end date on.
* `Circulation.AccountLock.not_amount_eq_zero_of_stop_le` — it may hold something.
-/

namespace Circulation

open Schedule

namespace Schedule

variable {now : Instant}

/-- A periodic lock is open when all of its tranches that come later are empty. -/
theorem periodic_eq_zero_iff {steps : List Tranche} :
    periodic steps now = 0 ↔ ∀ t ∈ steps, now.nanos < t.stop.nanos → t.amount = 0 := by
  induction steps with
  | nil => simp
  | cons t ts ih =>
    have hhead : delayed t.amount now t.stop = 0 ↔ now.nanos < t.stop.nanos → t.amount = 0 := by
      unfold delayed
      split <;> simp_all
    rw [periodic_cons, Nat.add_eq_zero_iff, hhead, ih, List.forall_mem_cons]

end Schedule

theorem Plan.ne_nothing_of_stop {p : Plan} {stop : Instant} (hstop : p.stop = .at stop) :
    p ≠ .nothing := by
  rintro rfl
  cases hstop

namespace AccountLock

variable {lock : AccountLock} {denom : String} {start now stop : Instant}

/-! ### The order of the tranches -/

theorem nanos_of_later {t : Instant} {seconds : Int} (h : later start seconds = .ok t) :
    t.nanos = start.nanos + seconds * Instant.nanosPerSecond := by
  unfold later at h
  cases hadd : start.addSeconds? seconds with
  | none =>
    rw [hadd] at h
    cases h
  | some u =>
    rw [hadd] at h
    obtain rfl := Except.ok.inj h
    obtain ⟨rfl, -⟩ := Instant.supported?_eq_some.mp hadd
    rfl

/-- Periods of no negative length do not end before the time that has elapsed. -/
theorem le_stop_of_tranches {elapsed : Int} {periods : List LockPeriod} {steps : List Tranche}
    (hlengths : ∀ p ∈ periods, 0 ≤ p.lengthSeconds) (helapsed : elapsed ≤ 9223372036854775807)
    (h : tranches start denom elapsed periods = .ok steps) :
    ∀ t ∈ steps, start.nanos + elapsed * Instant.nanosPerSecond ≤ t.stop.nanos := by
  induction periods generalizing elapsed steps with
  | nil =>
    obtain rfl : [] = steps := Except.ok.inj h
    simp
  | cons period periods ih =>
    simp only [tranches, bind_eq_ok, pure_eq_ok] at h
    obtain ⟨stop, hstop, amount, -, rest, hrest, rfl⟩ := h
    obtain ⟨hlength, hlengths⟩ := List.forall_mem_cons.mp hlengths
    have hpassed : elapsed ≤ Numeral.saturate64 (elapsed + period.lengthSeconds) := by
      unfold Numeral.saturate64
      omega
    have hfits := (Numeral.fitsInt64_saturate64 (elapsed + period.lengthSeconds)).2
    have hnanos := nanos_of_later hstop
    have htail := ih hlengths hfits hrest
    rw [Instant.nanosPerSecond] at hnanos htail ⊢
    rw [List.forall_mem_cons]
    refine ⟨by dsimp only; omega, fun t ht => ?_⟩
    have hlater := htail t ht
    omega

/-- Of periods of no negative length, the last one is the latest. -/
theorem stop_le_getLast {elapsed : Int} {periods : List LockPeriod} {steps : List Tranche}
    {last : Tranche} (hlengths : ∀ p ∈ periods, 0 ≤ p.lengthSeconds)
    (h : tranches start denom elapsed periods = .ok steps) (hlast : steps.getLast? = some last) :
    ∀ t ∈ steps, t.stop.nanos ≤ last.stop.nanos := by
  induction periods generalizing elapsed steps with
  | nil =>
    obtain rfl : [] = steps := Except.ok.inj h
    simp
  | cons period periods ih =>
    simp only [tranches, bind_eq_ok, pure_eq_ok] at h
    obtain ⟨stop, hstop, amount, -, rest, hrest, rfl⟩ := h
    obtain ⟨-, hlengths⟩ := List.forall_mem_cons.mp hlengths
    cases rest with
    | nil =>
      obtain rfl := Option.some.inj hlast
      simp
    | cons next rest =>
      rw [List.getLast?_cons_cons] at hlast
      have hfits := (Numeral.fitsInt64_saturate64 (elapsed + period.lengthSeconds)).2
      -- the first of the tranches ends when the others begin, and so before the last of them
      have hbegin := le_stop_of_tranches hlengths hfits hrest last (List.mem_of_getLast? hlast)
      rw [List.forall_mem_cons]
      refine ⟨?_, ih hlengths hrest hlast⟩
      rw [nanos_of_later hstop]
      exact hbegin

/-! ### What holds over -/

/-- Why a lock holds something of a denomination, whatever its end date is: one of its periods ends
later and is not empty, or its cliff comes later. -/
inductive HoldsOver (lock : AccountLock) (denom : String) (now : Instant) : Prop
  | period {start : Instant} {steps : List Tranche} {t : Tranche} (hperiodic : lock.IsPeriodic)
      (hstart : lock.startTime = some start)
      (hsteps : tranches start denom 0 lock.vestingPeriods = .ok steps) (ht : t ∈ steps)
      (hlater : now.nanos < t.stop.nanos) (hamount : t.amount ≠ 0) : HoldsOver lock denom now
  | cliff {start cliff : Instant} (hkind : lock.kind = .clawback)
      (hperiods : lock.vestingPeriods = []) (hstart : lock.startTime = some start)
      (hcliff : later start (totalLength lock.lockupPeriods) = .ok cliff)
      (hlater : now.nanos < cliff.nanos) : HoldsOver lock denom now

/-- The times of a lock come in their order: no period of a lock that opens period by period has a
negative length, and the cliff of another one does not come after its end time. -/
structure IsOrdered (lock : AccountLock) : Prop where
  lengths : lock.IsPeriodic → ∀ p ∈ lock.vestingPeriods, 0 ≤ p.lengthSeconds
  cliff : lock.kind = .clawback → lock.vestingPeriods = [] → ∀ start stop cliff,
    lock.startTime = some start → lock.endTime = some stop →
    later start (totalLength lock.lockupPeriods) = .ok cliff → cliff.nanos ≤ stop.nanos

theorem plan_of_ungranted (h : amountOf lock.grantedCoins denom = .ok 0) :
    lock.plan denom = .ok .nothing := by
  rw [plan, h]
  rfl

/-- A lock that opens period by period has the plan of its periods, if it has one with an end. -/
theorem HasPlan.eq_periodic {p : Plan} (h : lock.HasPlan denom p) (hperiodic : lock.IsPeriodic)
    {start : Instant} {steps : List Tranche} (hstart : lock.startTime = some start)
    (hsteps : tranches start denom 0 lock.vestingPeriods = .ok steps) :
    p = .nothing ∨ p = .periodic steps := by
  cases h with
  | ungranted | unknown => exact .inl rfl
  | periodic _ _ hstart' hsteps' =>
    obtain rfl := Option.some.inj (hstart.symm.trans hstart')
    obtain rfl := Except.ok.inj (hsteps.symm.trans hsteps')
    exact .inr rfl
  | permanent _ hkind | delayed _ hkind | continuous _ hkind =>
    simp [IsPeriodic, hkind] at hperiodic
  | clawback _ hkind hperiods =>
    simp [IsPeriodic, hkind, hperiods] at hperiodic

/-- A clawback lock without periods has the plan of its cliff, if it has one with an end. -/
theorem HasPlan.eq_clawback {p : Plan} (h : lock.HasPlan denom p) (hkind : lock.kind = .clawback)
    (hperiods : lock.vestingPeriods = []) {start cliff : Instant}
    (hstart : lock.startTime = some start)
    (hcliff : later start (totalLength lock.lockupPeriods) = .ok cliff) :
    p = .nothing ∨ ∃ granted stop, amountOf lock.grantedCoins denom = .ok granted ∧
      lock.endTime = some stop ∧ p = .clawback granted start cliff stop := by
  cases h with
  | ungranted | unknown => exact .inl rfl
  | clawback hgranted _ _ hstart' hend hcliff' =>
    obtain rfl := Option.some.inj (hstart.symm.trans hstart')
    obtain rfl := Except.ok.inj (hcliff.symm.trans hcliff')
    exact .inr ⟨_, _, hgranted, hend, rfl⟩
  | permanent _ hkind' | delayed _ hkind' | continuous _ hkind' =>
    simp [hkind] at hkind'
  | periodic _ hperiodic =>
    simp [IsPeriodic, hkind, hperiods] at hperiodic

/-- What a lock with an end date holds over is locked. -/
theorem HoldsOver.amount_ne_zero {p : Plan} (h : lock.HoldsOver denom now)
    (hplan : lock.plan denom = .ok p) (hstop : p.stop = .at stop) : p.amount now ≠ 0 := by
  have hhas : lock.HasPlan denom p := hasPlan_of_plan hplan
  have hending := Plan.ne_nothing_of_stop hstop
  cases h with
  | period hperiodic hstart hsteps ht hlater hamount =>
    obtain rfl := (hhas.eq_periodic hperiodic hstart hsteps).resolve_left hending
    intro hzero
    exact hamount (periodic_eq_zero_iff.mp hzero _ ht hlater)
  | cliff hkind hperiods hstart hcliff hlater =>
    obtain ⟨granted, closing, hgranted, -, rfl⟩ :=
      (hhas.eq_clawback hkind hperiods hstart hcliff).resolve_left hending
    rw [Plan.amount, clawback, if_pos hlater]
    rintro rfl
    rw [plan_of_ungranted hgranted] at hplan
    cases hplan

/-- From its end date on, a lock holds something only if something holds over. -/
theorem HasPlan.holdsOver {p : Plan} (h : lock.HasPlan denom p) (hstop : p.stop = .at stop)
    (hnow : stop.nanos ≤ now.nanos) (hamount : p.amount now ≠ 0) : lock.HoldsOver denom now := by
  cases h with
  | ungranted | unknown | permanent => cases hstop
  | delayed =>
    obtain rfl := EndDate.at.inj hstop
    exact absurd (if_neg (Int.not_lt.mpr hnow)) hamount
  | continuous =>
    obtain rfl := EndDate.at.inj hstop
    exact absurd (continuous_of_closed (.inr hnow)) hamount
  | periodic _ hperiodic hstart hsteps =>
    rw [Plan.amount, ne_eq, periodic_eq_zero_iff] at hamount
    push Not at hamount
    obtain ⟨t, ht, hlater, hamount⟩ := hamount
    exact .period hperiodic hstart hsteps ht hlater hamount
  | @clawback _ _ cliff _ _ hkind hperiods hstart _ hcliff =>
    obtain rfl := EndDate.at.inj hstop
    by_cases hlater : now.nanos < cliff.nanos
    · exact .cliff hkind hperiods hstart hcliff hlater
    · rw [Plan.amount, Schedule.clawback, if_neg hlater] at hamount
      exact absurd (continuous_of_closed (.inr hnow)) hamount

/-- Nothing holds over the end date of a lock whose times come in their order. -/
theorem IsOrdered.not_holdsOver {p : Plan} (hlock : lock.IsOrdered) (h : lock.HasPlan denom p)
    (hstop : p.stop = .at stop) (hnow : stop.nanos ≤ now.nanos) : ¬lock.HoldsOver denom now := by
  have hending := Plan.ne_nothing_of_stop hstop
  intro hover
  cases hover with
  | @period _ steps t hperiodic hstart hsteps ht hlater =>
    obtain rfl := (h.eq_periodic hperiodic hstart hsteps).resolve_left hending
    obtain ⟨last, hlast⟩ := Option.ne_none_iff_exists'.mp
      (mt List.getLast?_eq_none_iff.mp (List.ne_nil_of_mem ht))
    rw [Plan.stop, hlast] at hstop
    obtain rfl := EndDate.at.inj hstop
    have hle := stop_le_getLast (hlock.lengths hperiodic) hsteps hlast t ht
    omega
  | cliff hkind hperiods hstart hcliff hlater =>
    obtain ⟨granted, closing, -, hend, rfl⟩ :=
      (h.eq_clawback hkind hperiods hstart hcliff).resolve_left hending
    obtain rfl := EndDate.at.inj hstop
    have hle := hlock.cliff hkind hperiods _ _ _ hstart hend hcliff
    omega

/-- **What a lock holds from its end date on.** A lock that is evaluated with an end date holds
something from that date on exactly if a period of it ends later and is not empty, or its cliff
comes later. If the times of the lock come in their order, it holds nothing. -/
theorem amount_ne_zero_iff_of_stop_le {amount : Nat}
    (h : lock.lockedAt denom now = .ok ⟨amount, .at stop⟩) (hnow : stop.nanos ≤ now.nanos) :
    (amount ≠ 0 ↔ lock.HoldsOver denom now) ∧ (lock.IsOrdered → amount = 0) := by
  rw [lockedAt_eq_plan, map_eq_ok] at h
  obtain ⟨p, hplan, hportion⟩ := h
  obtain ⟨rfl, hstop⟩ := Portion.mk.inj hportion
  have hhas : lock.HasPlan denom p := hasPlan_of_plan hplan
  have hiff : p.amount now ≠ 0 ↔ lock.HoldsOver denom now :=
    ⟨hhas.holdsOver hstop hnow, fun hover => hover.amount_ne_zero hplan hstop⟩
  refine ⟨hiff, fun hlock => ?_⟩
  by_contra hamount
  exact hlock.not_holdsOver hhas hstop hnow (hiff.mp hamount)

/-- The start of a day, counted from the first of January 1970. -/
def dayStart (day : Int) : Instant :=
  ⟨day * Instant.nanosPerDay, 0⟩

/-- A clawback lock of seven coins over the first of June 2024, with a lockup of ten days. -/
def lockedUp : AccountLock where
  typeUrl := "/cosmos.vesting.v1beta1.ClawbackVestingAccount"
  kind := .clawback
  grantedCoins := [⟨"ulume", "7"⟩]
  startTime := some (dayStart 19875)
  endTime := some (dayStart 19876)
  vestingPeriods := []
  lockupPeriods := [⟨10 * 86400, []⟩]

/-- A periodic lock of two periods, the second of which ends five days before the first. -/
def turningBack : AccountLock where
  typeUrl := "/cosmos.vesting.v1beta1.PeriodicVestingAccount"
  kind := .periodic
  grantedCoins := [⟨"ulume", "10"⟩]
  startTime := some (dayStart 19875)
  endTime := none
  vestingPeriods := [⟨10 * 86400, [⟨"ulume", "5"⟩]⟩, ⟨-5 * 86400, [⟨"ulume", "5"⟩]⟩]
  lockupPeriods := []

theorem lockedAt_lockedUp :
    lockedUp.lockedAt "ulume" (dayStart 19877) = .ok ⟨7, .at (dayStart 19876)⟩ := by
  decide +kernel

theorem lockedAt_turningBack :
    turningBack.lockedAt "ulume" (dayStart 19882) = .ok ⟨5, .at (dayStart 19880)⟩ := by
  decide +kernel

theorem amount_ne_zero_iff_of_stop_le_both :
    lockedUp.HoldsOver "ulume" (dayStart 19877) ∧
      turningBack.HoldsOver "ulume" (dayStart 19882) := by
  constructor
  · exact (amount_ne_zero_iff_of_stop_le lockedAt_lockedUp (by decide)).1.mp (by decide)
  · exact (amount_ne_zero_iff_of_stop_le lockedAt_turningBack (by decide)).1.mp (by decide)

/-- One day after its end date, all of a lock with a long lockup is locked. -/
theorem not_amount_eq_zero_of_stop_le :
    ¬∀ (lock : AccountLock) (denom : String) (now stop : Instant) (amount : Nat),
      lock.lockedAt denom now = .ok ⟨amount, .at stop⟩ → stop.nanos ≤ now.nanos →
        amount = 0 := by
  intro h
  exact absurd (h _ _ _ _ _ lockedAt_lockedUp (by decide)) (by decide)

end AccountLock

end Circulation
