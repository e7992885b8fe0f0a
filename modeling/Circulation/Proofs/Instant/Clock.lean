import Circulation.Instant.Rfc3339
import Circulation.Proofs.Instant.Months

/-!
# Instants that a clock can show

The instants that arithmetic yields have a supported local date, on a clock that is less than a day
ahead of UTC or behind it. Other clocks need not support the same point in time: in UTC it may lie
on the day before the first supported one, or on the day after the last.

## Main definitions

* `Circulation.Instant.IsOnClock` — a supported local date on a clock near UTC.

## Main results

* `Circulation.Instant.IsOnClock.addSeconds`, `Circulation.Instant.IsOnClock.addMonths` — arithmetic
  stays on the clock.
* `Circulation.Instant.IsOnClock.isSupportedDay_toUtc_iff` — the days that are lost in UTC.
-/

namespace Circulation.Instant

open Calendar

/-- An instant as a clock can show it: its local date is supported, and the clock is less than a day
ahead of UTC or behind it. -/
structure IsOnClock (t : Instant) : Prop where
  isSupported : t.IsSupported
  offset : t.offset.natAbs < 86400

variable {t u : Instant}

theorem supported?_eq_some : t.supported? = some u ↔ u = t ∧ t.IsSupported := by
  unfold supported?
  by_cases h : IsSupportedDay t.localDay
  · rw [if_pos h, Option.some.injEq, eq_comm]
    exact (and_iff_left h).symm
  · rw [if_neg h]
    simp [IsSupported, h]

theorem localDay_ofLocal {day timeOfDay offset : Int} (hfrom : 0 ≤ timeOfDay)
    (hto : timeOfDay < nanosPerDay) : (ofLocal day timeOfDay offset).localDay = day := by
  simp only [localDay, localNanos, ofLocal, nanosPerDay, nanosPerSecond] at *
  omega

theorem timeOfDay_mem (t : Instant) : 0 ≤ t.timeOfDay ∧ t.timeOfDay < nanosPerDay := by
  simp only [timeOfDay, nanosPerDay, nanosPerSecond]
  omega

theorem timeOfDay_ofLocal {day timeOfDay offset : Int} (hfrom : 0 ≤ timeOfDay)
    (hto : timeOfDay < nanosPerDay) : (ofLocal day timeOfDay offset).timeOfDay = timeOfDay := by
  simp only [Instant.timeOfDay, localNanos, ofLocal, nanosPerDay, nanosPerSecond] at *
  omega

theorem isSupported_of_addMonths (ht : t.IsSupported) {months : Nat}
    (h : t.addMonths months = .ok u) : u.IsSupported := by
  obtain ⟨hyear, rfl⟩ := (addMonths_eq_ok_iff ht).mp h
  rw [IsSupported, localDay_ofLocal (timeOfDay_mem t).1 (timeOfDay_mem t).2]
  exact isSupportedDay_dayAfterMonths ht hyear

/-- The years of the supported days. -/
theorem isSupportedDay_iff {day : Int} :
    IsSupportedDay day ↔ -9999 ≤ yearOf day ∧ yearOf day ≤ 9999 := by
  have hlast : yearOf day < 9999 + 1 ↔ day < yearStart 10000 := yearOf_lt_iff
  rw [IsSupportedDay, le_yearOf_iff]
  omega

/-- The supported days are a little more than seven million, counted from the epoch. -/
theorem isSupportedDay_iff_mem {day : Int} :
    IsSupportedDay day ↔ -4371587 ≤ day ∧ day < 2932897 := by
  have hfrom : yearStart (-9999) = -4371587 := by decide
  have hto : yearStart 10000 = 2932897 := by decide
  rw [IsSupportedDay, hfrom, hto]

namespace IsOnClock

theorem of_ofUnixSeconds? {seconds : Int} (h : ofUnixSeconds? seconds = some t) :
    t.IsOnClock := by
  obtain ⟨rfl, hsupported⟩ := supported?_eq_some.mp h
  exact ⟨hsupported, by simp⟩

theorem addSeconds (ht : t.IsOnClock) {seconds : Int} (h : t.addSeconds? seconds = some u) :
    u.IsOnClock := by
  obtain ⟨rfl, hsupported⟩ := supported?_eq_some.mp h
  exact ⟨hsupported, ht.offset⟩

theorem addMonths (ht : t.IsOnClock) {months : Nat} (h : t.addMonths months = .ok u) :
    u.IsOnClock := by
  obtain rfl := addMonths_eq_ok h
  exact ⟨isSupported_of_addMonths ht.isSupported h, ht.offset⟩

theorem getD {t? : Option Instant} (ht : ∀ t ∈ t?, t.IsOnClock) (hu : u.IsOnClock) :
    (t?.getD u).IsOnClock := by
  cases t? with
  | none => exact hu
  | some t => exact ht t rfl

/-- In UTC an instant lies at most one day off the supported ones. -/
theorem localDay_toUtc_mem (ht : t.IsOnClock) :
    yearStart (-9999) - 1 ≤ t.toUtc.localDay ∧ t.toUtc.localDay ≤ yearStart 10000 := by
  obtain ⟨⟨hfrom, hto⟩, hoffset⟩ := ht
  simp only [localDay, localNanos, toUtc, nanosPerDay, nanosPerSecond] at *
  omega

/-- In UTC an instant lies on a supported day, on the day before the first or on the day after the
last. -/
theorem isSupportedDay_toUtc_iff (ht : t.IsOnClock) :
    IsSupportedDay t.toUtc.localDay ↔
      t.toUtc.localDay ≠ yearStart (-9999) - 1 ∧ t.toUtc.localDay ≠ yearStart 10000 := by
  obtain ⟨hfrom, hto⟩ := ht.localDay_toUtc_mem
  rw [IsSupportedDay]
  omega

end IsOnClock

end Circulation.Instant
