import Circulation.Proofs.Instant.Clock
import Circulation.Proofs.Lock.Opening

/-!
# Cumulative periods

The ends of the periods of a lock are counted from its start, in a signed 64-bit word that stays at
its limits. The supported years are a small part of what the word can count from any supported
instant, so a count that was cut off leads out of them just as the exact count does, and the lock is
not evaluated either way. What is evaluated has exact ends.

## Main definitions

* `Circulation.LockPeriod.sumSeconds` — the exact length of periods that follow one another.
* `Circulation.LockPeriod.withEnds` — the periods with their exact ends.
* `Circulation.AccountLock.IsSound` — a period that ends in the supported years and whose amount is a
  numeral.

## Main results

* `Circulation.AccountLock.later_saturate64` — what is cut off is not supported.
* `Circulation.AccountLock.tranches_eq_mapM` — the tranches of a lock are its periods with their exact
  ends.
* `Circulation.AccountLock.lockedAt_eq_exact` — a lock is evaluated with the exact ends of its periods.
-/

namespace Circulation

open Numeral Schedule

/-! ### Exact ends -/

/-- The instant a number of seconds later on the same clock, in whatever year. -/
def Instant.afterSeconds (t : Instant) (seconds : Int) : Instant :=
  ⟨t.nanos + seconds * nanosPerSecond, t.offset⟩

namespace LockPeriod

/-- The exact length of periods that follow one another. -/
def sumSeconds : List LockPeriod → Int
  | [] => 0
  | p :: ps => p.lengthSeconds + sumSeconds ps

/-- The periods, each with its exact end: all the periods up to it follow one another from the
start. -/
def withEnds (start : Instant) (periods : List LockPeriod) : List (LockPeriod × Instant) :=
  periods.mapIdx fun i p => (p, start.afterSeconds (sumSeconds (periods.take (i + 1))))

/-- The last of the periods ends after all of them. -/
theorem getLast?_withEnds (start : Instant) {periods : List LockPeriod} (h : periods ≠ []) :
    (withEnds start periods).getLast?.map (·.2) = some (start.afterSeconds (sumSeconds periods)) := by
  have hlength : periods.length - 1 + 1 = periods.length :=
    Nat.sub_add_cancel (List.length_pos_iff.mpr h)
  rw [withEnds, List.getLast?_mapIdx, List.getLast?_eq_getLast_of_ne_nil h, Option.map_some,
    Option.map_some, hlength, List.take_length]

end LockPeriod

namespace AccountLock

open LockPeriod

variable {lock : AccountLock} {denom : String} {start : Instant}

/-! ### Counting in a word -/

/-- What leads from one supported instant to another fits into the word. -/
theorem fitsInt64_of_isSupported (hstart : start.IsSupported) {seconds : Int}
    (h : (start.afterSeconds seconds).IsSupported) : FitsInt64 seconds := by
  simp only [Instant.IsSupported, Instant.isSupportedDay_iff_mem, Instant.afterSeconds,
    Instant.localDay, Instant.localNanos, Instant.nanosPerDay, Instant.nanosPerSecond] at hstart h
  unfold FitsInt64
  omega

/-- The limits of the word lead out of the supported years. -/
theorem not_isSupported_saturate64 (hstart : start.IsSupported) {seconds : Int}
    (h : ¬FitsInt64 seconds) : ¬(start.afterSeconds (saturate64 seconds)).IsSupported := by
  simp only [Instant.IsSupported, Instant.isSupportedDay_iff_mem, Instant.afterSeconds,
    Instant.localDay, Instant.localNanos, Instant.nanosPerDay, Instant.nanosPerSecond, saturate64,
    FitsInt64] at hstart h ⊢
  omega

theorem later_eq (start : Instant) (seconds : Int) :
    later start seconds =
      if (start.afterSeconds seconds).IsSupported then .ok (start.afterSeconds seconds)
      else .error .outOfRange := by
  have hadd : start.addSeconds? seconds =
      if (start.afterSeconds seconds).IsSupported then some (start.afterSeconds seconds) else none :=
    rfl
  rw [later, hadd]
  by_cases h : (start.afterSeconds seconds).IsSupported
  · rw [if_pos h, if_pos h]
  · rw [if_neg h, if_neg h]

/-- **What is cut off is not supported**, so a count in the word leads to the exact instant or to
none. -/
theorem later_saturate64 (hstart : start.IsSupported) (seconds : Int) :
    later start (saturate64 seconds) = later start seconds := by
  by_cases hfits : FitsInt64 seconds
  · rw [saturate64_of_fits hfits]
  · rw [later_eq, later_eq, if_neg (not_isSupported_saturate64 hstart hfits),
      if_neg fun h => hfits (fitsInt64_of_isSupported hstart h)]

/-! ### The tranches of periods -/

/-- The tranche of a period that ends at an instant. -/
def trancheOf (denom : String) (x : LockPeriod × Instant) : Except LockError Tranche :=
  if x.2.IsSupported then (amountOf x.1.coins denom).map (⟨x.2, ·⟩) else .error .outOfRange

/-- The tranches of periods, from any time that has elapsed. -/
theorem tranches_eq_mapM_from (hstart : start.IsSupported) (denom : String) (elapsed : Int)
    (periods : List LockPeriod) :
    tranches start denom elapsed periods =
      (periods.mapIdx fun i p =>
        (p, start.afterSeconds (elapsed + sumSeconds (periods.take (i + 1))))).mapM
          (trancheOf denom) := by
  induction periods generalizing elapsed with
  | nil => rfl
  | cons period periods ih =>
    simp only [List.mapIdx_cons, List.take_succ_cons, List.take_zero, sumSeconds, ← Int.add_assoc,
      Int.add_zero]
    rw [List.mapM_cons, ← ih, tranches, trancheOf]
    dsimp only
    rw [later_saturate64 hstart, later_eq]
    by_cases hend : (start.afterSeconds (elapsed + period.lengthSeconds)).IsSupported
    · -- the count has not been cut off, so the next period goes on from the exact one
      rw [if_pos hend, if_pos hend, saturate64_of_fits (fitsInt64_of_isSupported hstart hend)]
      cases amountOf period.coins denom with
      | error why => rfl
      | ok amount => rfl
    · rw [if_neg hend, if_neg hend]
      rfl

/-- **The tranches of a lock** are its periods with their exact ends. -/
theorem tranches_eq_mapM (hstart : start.IsSupported) (denom : String) (periods : List LockPeriod) :
    tranches start denom 0 periods = (withEnds start periods).mapM (trancheOf denom) := by
  rw [tranches_eq_mapM_from hstart, withEnds]
  simp only [Int.zero_add]

/-- A period that ends in the supported years and whose amount, if it has one, is a numeral. -/
structure IsSound (denom : String) (x : LockPeriod × Instant) : Prop where
  isSupported : x.2.IsSupported
  isReadable : ∃ amount, amountOf x.1.coins denom = .ok amount

instance (denom : String) (x : LockPeriod × Instant) : Decidable (IsSound denom x) :=
  decidable_of_iff (x.2.IsSupported ∧ (amountOf x.1.coins denom).toOption.isSome) <| by
    rw [Option.isSome_iff_exists]
    simp only [toOption_eq_some_iff]
    exact ⟨fun ⟨hend, hamount⟩ => ⟨hend, hamount⟩, fun ⟨hend, hamount⟩ => ⟨hend, hamount⟩⟩

/-- Why a period is not evaluated: its end comes before its amount. -/
inductive FailsWith (denom : String) (x : LockPeriod × Instant) : LockError → Prop
  | outOfRange (hend : ¬x.2.IsSupported) : FailsWith denom x .outOfRange
  | amount {why : LockError} (hend : x.2.IsSupported) (hamount : amountOf x.1.coins denom = .error why) :
      FailsWith denom x why

theorem exists_trancheOf_iff {x : LockPeriod × Instant} :
    (∃ t, trancheOf denom x = .ok t) ↔ IsSound denom x := by
  unfold trancheOf
  by_cases hend : x.2.IsSupported
  · rw [if_pos hend]
    simp only [map_eq_ok]
    exact ⟨fun ⟨_, amount, hamount, _⟩ => ⟨hend, amount, hamount⟩,
      fun ⟨_, amount, hamount⟩ => ⟨_, amount, hamount, rfl⟩⟩
  · rw [if_neg hend]
    exact iff_of_false nofun fun h => hend h.isSupported

theorem IsSound.trancheOf_eq {x : LockPeriod × Instant} (h : IsSound denom x) :
    trancheOf denom x = .ok ⟨x.2, releasedBy denom x.1⟩ := by
  obtain ⟨hend, amount, hamount⟩ := h
  rw [trancheOf, if_pos hend, releasedBy, hamount]
  rfl

theorem trancheOf_eq_error_iff {x : LockPeriod × Instant} {why : LockError} :
    trancheOf denom x = .error why ↔ FailsWith denom x why := by
  unfold trancheOf
  by_cases hend : x.2.IsSupported
  · rw [if_pos hend]
    constructor
    · intro h
      cases hamount : amountOf x.1.coins denom with
      | error why' =>
        rw [hamount] at h
        obtain rfl := Except.error.inj h
        exact .amount hend hamount
      | ok amount =>
        rw [hamount] at h
        exact nomatch h
    · rintro (hnot | ⟨_, hamount⟩)
      · exact absurd hend hnot
      · rw [hamount]
        rfl
  · rw [if_neg hend]
    constructor
    · intro h
      obtain rfl := Except.error.inj h
      exact .outOfRange hend
    · rintro (_ | ⟨hsupported, _⟩)
      · rfl
      · exact absurd hsupported hend

/-- The tranches of a lock where each of its periods is sound. -/
theorem tranches_eq_ok_iff (hstart : start.IsSupported) {periods : List LockPeriod}
    {steps : List Tranche} :
    tranches start denom 0 periods = .ok steps ↔
      (∀ x ∈ withEnds start periods, IsSound denom x) ∧
        steps = (withEnds start periods).map fun x => ⟨x.2, releasedBy denom x.1⟩ := by
  rw [tranches_eq_mapM hstart]
  have hall : (∀ x ∈ withEnds start periods, IsSound denom x) →
      (withEnds start periods).mapM (trancheOf denom) =
        .ok ((withEnds start periods).map fun x => ⟨x.2, releasedBy denom x.1⟩) := by
    intro hsound
    rw [mapM_eq_ok_iff, List.forall₂_map_right_iff, List.forall₂_same]
    exact fun x hx => (hsound x hx).trancheOf_eq
  constructor
  · intro h
    have hsound : ∀ x ∈ withEnds start periods, IsSound denom x := fun x hx =>
      exists_trancheOf_iff.mp (exists_mapM_eq_ok_iff.mp ⟨steps, h⟩ x hx)
    exact ⟨hsound, Except.ok.inj (h.symm.trans (hall hsound))⟩
  · rintro ⟨hsound, rfl⟩
    exact hall hsound

/-- The reason for which a lock has no tranches is that of its first period that is not sound. -/
theorem tranches_eq_error_iff (hstart : start.IsSupported) {periods : List LockPeriod}
    {why : LockError} :
    tranches start denom 0 periods = .error why ↔
      ∃ before x after, withEnds start periods = before ++ x :: after ∧
        (∀ y ∈ before, IsSound denom y) ∧ FailsWith denom x why := by
  rw [tranches_eq_mapM hstart, mapM_eq_error_iff]
  simp only [exists_trancheOf_iff, trancheOf_eq_error_iff]

/-! ### The exact evaluation of a lock -/

/-- The amounts of the periods that end after an instant. -/
def amountAfter (denom : String) (now : Instant) (periods : List (LockPeriod × Instant)) : Nat :=
  Amount.sum ((periods.filter fun x => now.nanos < x.2.nanos).map fun x => releasedBy denom x.1)

/-- The exact end of all periods, if there are any. -/
def endOfAll (start : Instant) (periods : List LockPeriod) : EndDate :=
  if periods = [] then .none else .at (start.afterSeconds (sumSeconds periods))

variable {now : Instant}

theorem periodic_withEnds (periods : List (LockPeriod × Instant)) :
    periodic (periods.map fun x => ⟨x.2, releasedBy denom x.1⟩) now =
      amountAfter denom now periods := by
  rw [periodic, amountAfter, List.filter_map, List.map_map]
  rfl

theorem stop_withEnds (periods : List LockPeriod) :
    (Plan.periodic ((withEnds start periods).map fun x => ⟨x.2, releasedBy denom x.1⟩)).stop =
      endOfAll start periods := by
  by_cases h : periods = []
  · rw [endOfAll, if_pos h, h]
    rfl
  · obtain ⟨x, hx, hend⟩ := Option.map_eq_some_iff.mp (getLast?_withEnds start h)
    rw [endOfAll, if_neg h, Plan.stop, List.getLast?_map, hx, ← hend]
    rfl

/-- A lock with granted coins that opens period by period is evaluated by its periods. -/
theorem lockedAt_of_isPeriodic {granted : Nat}
    (hgranted : amountOf lock.grantedCoins denom = .ok granted) (hpositive : 0 < granted)
    (hperiodic : lock.IsPeriodic) : lock.lockedAt denom now = lock.periodicPortion denom now := by
  rw [lockedAt, hgranted, ok_bind, if_neg (Nat.ne_of_gt hpositive)]
  rcases hperiodic with hkind | ⟨hkind, hperiods⟩
  · rw [hkind]
  · rw [hkind]
    exact if_pos hperiods

/-- A lock that starts opens with its tranches. -/
theorem periodicPortion_of_start (hstart : lock.startTime = some start) :
    lock.periodicPortion denom now =
      (tranches start denom 0 lock.vestingPeriods).map fun steps =>
        ⟨periodic steps now, (Plan.periodic steps).stop⟩ := by
  rw [periodicPortion, hstart]
  show (tranches start denom 0 lock.vestingPeriods >>= _) = _
  cases tranches start denom 0 lock.vestingPeriods <;> rfl

/-! ### The exact cliff -/

/-- Periods of no negative length are counted up to the limit of the word and stay there. -/
theorem foldl_saturate64 {periods : List LockPeriod} (hlengths : ∀ p ∈ periods, 0 ≤ p.lengthSeconds)
    {elapsed : Int} (helapsed : 0 ≤ elapsed) :
    periods.foldl (fun sum p => saturate64 (sum + p.lengthSeconds)) (saturate64 elapsed) =
      saturate64 (elapsed + sumSeconds periods) := by
  induction periods generalizing elapsed with
  | nil => rw [List.foldl_nil, sumSeconds, Int.add_zero]
  | cons period periods ih =>
    obtain ⟨hlength, hlengths⟩ := List.forall_mem_cons.mp hlengths
    have hstep : saturate64 (saturate64 elapsed + period.lengthSeconds) =
        saturate64 (elapsed + period.lengthSeconds) := by
      unfold saturate64
      omega
    rw [List.foldl_cons, hstep, ih hlengths (Int.add_nonneg helapsed hlength), sumSeconds,
      Int.add_assoc]

theorem totalLength_eq {periods : List LockPeriod} (hlengths : ∀ p ∈ periods, 0 ≤ p.lengthSeconds) :
    totalLength periods = saturate64 (sumSeconds periods) := by
  have hfold := foldl_saturate64 hlengths (Int.le_refl 0)
  rw [Int.zero_add] at hfold
  exact hfold

/-- A lock with a cliff is evaluated with the exact cliff, or it has none that is supported. -/
theorem lockedAt_of_cliff {granted : Nat} {stop : Instant}
    (hgranted : amountOf lock.grantedCoins denom = .ok granted) (hpositive : 0 < granted)
    (hkind : lock.kind = .clawback) (hperiods : lock.vestingPeriods = [])
    (hstart : lock.startTime = some start) (hsupported : start.IsSupported)
    (hstop : lock.endTime = some stop) (hlengths : ∀ p ∈ lock.lockupPeriods, 0 ≤ p.lengthSeconds) :
    lock.lockedAt denom now =
      if (start.afterSeconds (sumSeconds lock.lockupPeriods)).IsSupported then
        .ok ⟨clawback granted now start (start.afterSeconds (sumSeconds lock.lockupPeriods)) stop,
          .at stop⟩
      else .error .outOfRange := by
  have hcliff : later start (totalLength lock.lockupPeriods) =
      if (start.afterSeconds (sumSeconds lock.lockupPeriods)).IsSupported then
        .ok (start.afterSeconds (sumSeconds lock.lockupPeriods))
      else .error .outOfRange := by
    rw [totalLength_eq hlengths, later_saturate64 hsupported, later_eq]
  rw [lockedAt, hgranted, ok_bind, if_neg (Nat.ne_of_gt hpositive), hkind]
  show (if lock.vestingPeriods ≠ [] then _ else _) = _
  rw [if_neg (not_not.mpr hperiods), hstart, hstop]
  show (later start (totalLength lock.lockupPeriods) >>= _) = _
  rw [hcliff]
  by_cases h : (start.afterSeconds (sumSeconds lock.lockupPeriods)).IsSupported
  · rw [if_pos h, if_pos h]
    rfl
  · rw [if_neg h, if_neg h]
    rfl

/-- **Periods are counted exactly.** Take a lock with granted coins that starts in the supported years.
If it opens period by period, it is evaluated exactly if each of its periods ends in the supported
years, counted exactly from the start, and has an amount that is a numeral. It then holds the amounts
of the periods that end after the instant, and ends with the last of them. Otherwise it fails as the
first period that is not sound. If it has a cliff, that is exactly the lengths of its lockup periods
after the start, as long as none of them is negative, and the lock is not evaluated only if that is
not supported. -/
theorem lockedAt_eq_exact {granted : Nat} (hgranted : amountOf lock.grantedCoins denom = .ok granted)
    (hpositive : 0 < granted) (hstart : lock.startTime = some start)
    (hsupported : start.IsSupported) (now : Instant) :
    (lock.IsPeriodic →
      (∀ portion, lock.lockedAt denom now = .ok portion ↔
        (∀ x ∈ withEnds start lock.vestingPeriods, IsSound denom x) ∧
          portion = ⟨amountAfter denom now (withEnds start lock.vestingPeriods),
            endOfAll start lock.vestingPeriods⟩) ∧
      ∀ why, lock.lockedAt denom now = .error why ↔
        ∃ before x after, withEnds start lock.vestingPeriods = before ++ x :: after ∧
          (∀ y ∈ before, IsSound denom y) ∧ FailsWith denom x why) ∧
    (lock.kind = .clawback → lock.vestingPeriods = [] →
      (∀ p ∈ lock.lockupPeriods, 0 ≤ p.lengthSeconds) → ∀ stop, lock.endTime = some stop →
        lock.lockedAt denom now =
          if (start.afterSeconds (sumSeconds lock.lockupPeriods)).IsSupported then
            .ok ⟨clawback granted now start (start.afterSeconds (sumSeconds lock.lockupPeriods)) stop,
              .at stop⟩
          else .error .outOfRange) := by
  refine ⟨fun hperiodic => ?_, fun hkind hperiods hlengths stop hstop =>
    lockedAt_of_cliff hgranted hpositive hkind hperiods hstart hsupported hstop hlengths⟩
  rw [lockedAt_of_isPeriodic hgranted hpositive hperiodic, periodicPortion_of_start hstart]
  constructor
  · intro portion
    simp only [map_eq_ok, tranches_eq_ok_iff hsupported]
    constructor
    · rintro ⟨_, ⟨hsound, rfl⟩, rfl⟩
      exact ⟨hsound, by rw [periodic_withEnds, stop_withEnds]⟩
    · rintro ⟨hsound, rfl⟩
      exact ⟨_, ⟨hsound, rfl⟩, by rw [periodic_withEnds, stop_withEnds]⟩
  · intro why
    rw [← tranches_eq_error_iff hsupported]
    cases tranches start denom 0 lock.vestingPeriods with
    | error why' => simp only [Except.map, Except.error.injEq]
    | ok steps => exact iff_of_false nofun nofun

/-- A lock that starts with the epoch and opens period by period, a coin at the end of each. -/
def coinByCoin (lengths : List Int) : AccountLock where
  typeUrl := "/cosmos.vesting.v1beta1.PeriodicVestingAccount"
  kind := .periodic
  grantedCoins := [⟨"ulume", "7"⟩]
  startTime := some ⟨0, 0⟩
  endTime := none
  vestingPeriods := lengths.map (⟨·, [⟨"ulume", "1"⟩]⟩)
  lockupPeriods := []

/-- A clawback lock of the first day after the epoch, with lockup periods. -/
def afterLockup (lengths : List Int) : AccountLock where
  typeUrl := "/cosmos.vesting.v1beta1.ClawbackVestingAccount"
  kind := .clawback
  grantedCoins := [⟨"ulume", "7"⟩]
  startTime := some ⟨0, 0⟩
  endTime := some ⟨Instant.nanosPerDay, 0⟩
  vestingPeriods := []
  lockupPeriods := lengths.map (⟨·, []⟩)

/-- Of three periods the second leads back. The largest lengths lead out of the supported years, although
other lengths lead back again. -/
theorem lockedAt_eq_exact_back :
    (coinByCoin [60, -20, 10]).lockedAt "ulume" ⟨45000000000, 0⟩ = .ok ⟨2, .at ⟨50000000000, 0⟩⟩ ∧
    (coinByCoin [60, 9223372036854775807, 9223372036854775807, -9223372036854775807]).lockedAt "ulume"
      ⟨0, 0⟩ = .error .outOfRange ∧
    (afterLockup [60, 20]).lockedAt "ulume" ⟨70000000000, 0⟩ =
      .ok ⟨7, .at ⟨Instant.nanosPerDay, 0⟩⟩ := by
  have hgranted : amountOf [⟨"ulume", "7"⟩] "ulume" = .ok 7 := by decide +kernel
  have hsupported : (⟨0, 0⟩ : Instant).IsSupported := by decide
  refine ⟨?_, ?_, ?_⟩
  · refine (((lockedAt_eq_exact hgranted (by decide) rfl hsupported _).1 (.inl rfl)).1 _).mpr ⟨?_, ?_⟩
    · decide +kernel
    · decide +kernel
  · refine (((lockedAt_eq_exact hgranted (by decide) rfl hsupported _).1 (.inl rfl)).2 _).mpr
      ⟨[(⟨60, [⟨"ulume", "1"⟩]⟩, ⟨60000000000, 0⟩)], _, _, rfl, ?_, .outOfRange ?_⟩
    · decide +kernel
    · decide +kernel
  · exact ((lockedAt_eq_exact hgranted (by decide) rfl hsupported _).2 rfl rfl (by decide) _ rfl).trans
      (by decide +kernel)

end AccountLock

end Circulation
