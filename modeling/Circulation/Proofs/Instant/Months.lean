import Circulation.Instant.Basic
import Circulation.Proofs.Calendar

/-!
# Calendar months after an instant

The instant a number of months later shows the same time of day on the same clock, on the day that
is counted from the first of the target month. The only limit is the last supported year, so of two
instants on one clock the earlier one has no fewer months before it.

## Main definitions

* `Circulation.Instant.IsSupported` — the instants whose local year is supported.
* `Circulation.Instant.dayAfterMonths` — the local day a number of months later.

## Main results

* `Circulation.Instant.addMonths_eq_ok_iff` — when there is an instant some months later, and which.
* `Circulation.Instant.nanos_lt_of_addMonths` — months lead to a later instant.
* `Circulation.Instant.exists_addMonths_of_le` — what is supported after an instant is supported
  after any earlier one.
-/

namespace Circulation.Instant

open Calendar

/-- The local date of the instant lies in the supported years. Every instant that is read, or that
arithmetic yields, is of this kind. -/
def IsSupported (t : Instant) : Prop :=
  IsSupportedDay t.localDay

instance (t : Instant) : Decidable t.IsSupported :=
  inferInstanceAs (Decidable (IsSupportedDay _))

/-- The local day a number of months after an instant, counted from the first of the target
month. -/
def dayAfterMonths (t : Instant) (months : Nat) : Int :=
  monthStart (t.localDate.monthIndex + months) + (t.localDate.day - 1 : Int)

variable {t t' u u' : Instant} {months months' : Nat}

theorem dayNumber_first (index : Int) :
    Date.dayNumber ⟨index / 12, (index % 12).toNat + 1, 1⟩ = monthStart index := by
  simp only [Date.dayNumber, monthStart, Nat.add_sub_cancel]
  omega

theorem addMonths_eq (t : Instant) (months : Nat) :
    t.addMonths months =
      if (t.localDate.monthIndex + months) / 12 ≤ 9999 ∧ IsSupportedDay (t.dayAfterMonths months)
      then .ok (ofLocal (t.dayAfterMonths months) t.timeOfDay t.offset)
      else .error .outOfRange := by
  simp only [addMonths, dayNumber_first]
  rfl

/-- The date of an instant is one of the calendar's. -/
theorem localDate_spec (t : Instant) :
    (1 ≤ t.localDate.month ∧ t.localDate.month ≤ 12) ∧
      (1 ≤ t.localDate.day ∧ t.localDate.day ≤ Date.monthLength t.localDate.year t.localDate.month) ∧
      t.localDate.dayNumber = t.localDay := by
  obtain ⟨month, day, hmonth, hday, heq, hnumber⟩ := Calendar.exists_ofDayNumber t.localDay
  rw [localDate, heq]
  exact ⟨hmonth, hday, hnumber⟩

/-! ### The day some months later -/

theorem dayAfterMonths_zero (t : Instant) : t.dayAfterMonths 0 = t.localDay := by
  have hday : monthStart t.localDate.monthIndex + (t.localDate.day - 1 : Int) = t.localDay :=
    monthStart_monthIndex t.localDay
  rw [dayAfterMonths, ← hday]
  simp

theorem dayAfterMonths_lt_dayAfterMonths (t : Instant) (h : months < months') :
    t.dayAfterMonths months < t.dayAfterMonths months' := by
  have hstart : monthStart (t.localDate.monthIndex + months) <
      monthStart (t.localDate.monthIndex + months') := monthStart_lt_monthStart (by omega)
  rw [dayAfterMonths, dayAfterMonths]
  omega

theorem localDay_lt_dayAfterMonths (t : Instant) (h : 0 < months) :
    t.localDay < t.dayAfterMonths months :=
  dayAfterMonths_zero t ▸ dayAfterMonths_lt_dayAfterMonths t h

theorem localDay_le_dayAfterMonths (t : Instant) (months : Nat) :
    t.localDay ≤ t.dayAfterMonths months := by
  rcases Nat.eq_zero_or_pos months with rfl | hpos
  · exact Int.le_of_eq (dayAfterMonths_zero t).symm
  · exact Int.le_of_lt (localDay_lt_dayAfterMonths t hpos)

/-- No day overflows the last supported year, since its last month has as many days as any. -/
theorem isSupportedDay_dayAfterMonths (ht : t.IsSupported)
    (h : (t.localDate.monthIndex + months) / 12 ≤ 9999) :
    IsSupportedDay (t.dayAfterMonths months) := by
  refine ⟨Int.le_trans ht.1 (localDay_le_dayAfterMonths t months), ?_⟩
  have hlast : monthStart (t.localDate.monthIndex + months) ≤ monthStart (9999 * 12 + 11) :=
    monthStart_le_monthStart (by omega)
  have hdecember : monthStart (9999 * 12 + 11) + 31 = yearStart 10000 := by decide
  have hday : t.localDate.day ≤ 31 := (day_mem t.localDay).2
  rw [dayAfterMonths]
  omega

/-! ### The instant some months later -/

theorem addMonths_eq_ok_iff (ht : t.IsSupported) :
    t.addMonths months = .ok u ↔
      (t.localDate.monthIndex + months) / 12 ≤ 9999 ∧
        u = ofLocal (t.dayAfterMonths months) t.timeOfDay t.offset := by
  rw [addMonths_eq]
  by_cases h : (t.localDate.monthIndex + months) / 12 ≤ 9999
  · rw [if_pos ⟨h, isSupportedDay_dayAfterMonths ht h⟩, Except.ok.injEq, eq_comm]
    exact (and_iff_right h).symm
  · rw [if_neg fun hboth => h hboth.1]
    simp [h]

theorem nanos_eq (t : Instant) :
    t.nanos = t.localDay * nanosPerDay + t.timeOfDay - t.offset * nanosPerSecond := by
  have hsplit : t.localDay * nanosPerDay + t.timeOfDay = t.localNanos :=
    Int.ediv_mul_add_emod t.localNanos nanosPerDay
  rw [hsplit, localNanos, Int.add_sub_cancel]

/-- An instant is what its clock shows. -/
theorem ofLocal_localDay (t : Instant) : ofLocal t.localDay t.timeOfDay t.offset = t := by
  have h := nanos_eq t
  obtain ⟨nanos, offset⟩ := t
  simp only [ofLocal, Instant.mk.injEq, and_true]
  exact h.symm

/-- On one clock, the same time of day comes later on a later day. -/
theorem nanos_ofLocal_lt {day day' : Int} (timeOfDay offset : Int) (h : day < day') :
    (ofLocal day timeOfDay offset).nanos < (ofLocal day' timeOfDay offset).nanos := by
  simp only [ofLocal, nanosPerDay, nanosPerSecond]
  omega

theorem addMonths_eq_ok (h : t.addMonths months = .ok u) :
    u = ofLocal (t.dayAfterMonths months) t.timeOfDay t.offset := by
  rw [addMonths_eq] at h
  split at h
  · exact (Except.ok.inj h).symm
  · exact absurd h (by simp)

/-- The only way in which months fail is that they leave the supported years. -/
theorem eq_outOfRange_of_addMonths {why : ReadError} (h : t.addMonths months = .error why) :
    why = .outOfRange := by
  rw [addMonths_eq] at h
  split at h
  · exact nomatch h
  · exact (Except.error.inj h).symm

/-- Months lead to a later instant. -/
theorem nanos_lt_of_addMonths (hmonths : 0 < months) (h : t.addMonths months = .ok u) :
    t.nanos < u.nanos := by
  have hlt := nanos_ofLocal_lt t.timeOfDay t.offset (localDay_lt_dayAfterMonths t hmonths)
  rwa [ofLocal_localDay, ← addMonths_eq_ok h] at hlt

/-- More months lead to a later instant. -/
theorem nanos_lt_nanos_of_addMonths (hmonths : months < months') (h : t.addMonths months = .ok u)
    (h' : t.addMonths months' = .ok u') : u.nanos < u'.nanos := by
  rw [addMonths_eq_ok h, addMonths_eq_ok h']
  exact nanos_ofLocal_lt _ _ (dayAfterMonths_lt_dayAfterMonths t hmonths)

/-- The local days of one clock follow its instants. -/
theorem localDay_le_localDay (hle : t.nanos ≤ t'.nanos) (hoffset : t'.offset = t.offset) :
    t.localDay ≤ t'.localDay := by
  simp only [localDay, localNanos, nanosPerDay, nanosPerSecond, hoffset]
  omega

/-- If some months after an instant are supported, so are they after any earlier instant on the same
clock. -/
theorem exists_addMonths_of_le (ht : t.IsSupported) (hle : t.nanos ≤ t'.nanos)
    (hoffset : t'.offset = t.offset) (h : t'.addMonths months = .ok u') :
    ∃ u, t.addMonths months = .ok u := by
  have hindex : t.localDate.monthIndex ≤ t'.localDate.monthIndex :=
    monthIndex_le_monthIndex (localDay_le_localDay hle hoffset)
  have hyear : (t'.localDate.monthIndex + months) / 12 ≤ 9999 := by
    rw [addMonths_eq] at h
    split at h
    · next hboth => exact hboth.1
    · exact absurd h (by simp)
  exact ⟨_, (addMonths_eq_ok_iff ht).mpr ⟨by omega, rfl⟩⟩

end Circulation.Instant
