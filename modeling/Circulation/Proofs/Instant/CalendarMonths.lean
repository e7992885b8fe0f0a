import Circulation.Proofs.Instant.Clock

/-!
# Months on the calendar

A month is a year and one of its twelve months, and the month some months later is reached month by
month. An instant some months later shows the same day of that month at the same time of day on the
same clock. A day that the month lacks falls into the next month, by as many days as it is in excess.

Each instant some months later is thus determined by the calendar alone, and there is one as long as
the month lies in the supported years. Whole years keep the date, but for the last day of February in a
leap year where the other year is none.

## Main definitions

* `Circulation.Month`, `Circulation.Month.later` — the months of the calendar, and the month some
  months later.
* `Circulation.Month.dateOf` — the date of a day of a month that may lack it.
* `Circulation.Instant.localMonth` — the month that the local clock shows.
* `Circulation.Instant.IsMonthsAfter` — the instant some months after another, by the calendar.

## Main results

* `Circulation.Month.IsMonth.ofDayNumber_dateOf` — the day of a date that falls into the next month.
* `Circulation.Instant.addMonths_eq_calendar` — months lead to the instant of the calendar.
-/

namespace Circulation

open Calendar

/-- A month of the calendar: a year and the number of a month in it, from 1 to 12. -/
structure Month where
  year : Int
  number : Nat
  deriving DecidableEq, Repr

namespace Month

/-- The month after a month. -/
def next (m : Month) : Month :=
  if m.number < 12 then ⟨m.year, m.number + 1⟩ else ⟨m.year + 1, 1⟩

/-- The month some months later. -/
def later (m : Month) : Nat → Month
  | 0 => m
  | months + 1 => (m.later months).next

/-- The number of days in a month. -/
def length (m : Month) : Nat :=
  Date.monthLength m.year m.number

/-- The day number of the first day of a month. -/
def firstDay (m : Month) : Int :=
  Date.dayNumber ⟨m.year, m.number, 1⟩

/-- The date of a day that is counted from the first of a month: a day that the month lacks falls into
the next month. -/
def dateOf (m : Month) (day : Nat) : Date :=
  if day ≤ m.length then ⟨m.year, m.number, day⟩
  else ⟨m.next.year, m.next.number, day - m.length⟩

/-- The months that the calendar has. -/
def IsMonth (m : Month) : Prop :=
  1 ≤ m.number ∧ m.number ≤ 12

/-- The number of a month, where the months are numbered through. -/
def index (m : Month) : Int :=
  m.year * 12 + (m.number - 1 : Int)

variable {m : Month}

theorem index_succ (year : Int) (number : Nat) :
    (⟨year, number + 1⟩ : Month).index = year * 12 + number := by
  simp only [index]
  omega

/-! ### Month by month -/

theorem IsMonth.next (hm : m.IsMonth) : m.next.IsMonth ∧ m.next.index = m.index + 1 := by
  obtain ⟨hfrom, hto⟩ := hm
  unfold IsMonth index Month.next
  split
  · dsimp only
    omega
  · dsimp only
    omega

theorem IsMonth.next_number_ne (hm : m.IsMonth) : m.next.number ≠ m.number := by
  obtain ⟨hfrom, hto⟩ := hm
  unfold Month.next
  split
  · exact Nat.succ_ne_self _
  · dsimp only
    omega

/-- The months are passed one by one, so their numbers are too. -/
theorem IsMonth.later (hm : m.IsMonth) (months : Nat) :
    (m.later months).IsMonth ∧ (m.later months).index = m.index + months := by
  induction months with
  | zero => exact ⟨hm, (Int.add_zero _).symm⟩
  | succ months ih =>
    obtain ⟨hlater, hindex⟩ := ih
    obtain ⟨hnext, hsucc⟩ := hlater.next
    refine ⟨hnext, ?_⟩
    rw [Month.later, hsucc, hindex]
    omega

theorem IsMonth.year_eq (hm : m.IsMonth) : m.year = m.index / 12 := by
  obtain ⟨hfrom, hto⟩ := hm
  unfold index
  omega

/-- A month is determined by its number. -/
theorem IsMonth.eq_of_index_eq (hm : m.IsMonth) {m' : Month} (hm' : m'.IsMonth)
    (h : m.index = m'.index) : m = m' := by
  obtain ⟨year, number⟩ := m
  obtain ⟨year', number'⟩ := m'
  simp only [IsMonth, index, Month.mk.injEq] at *
  omega

/-- Twelve months make a year. -/
theorem IsMonth.later_years (hm : m.IsMonth) (years : Nat) :
    m.later (12 * years) = ⟨m.year + years, m.number⟩ := by
  obtain ⟨hlater, hindex⟩ := hm.later (12 * years)
  refine hlater.eq_of_index_eq hm ?_
  rw [hindex]
  simp only [index]
  omega

/-! ### The days of a month -/

theorem IsMonth.firstDay_eq (hm : m.IsMonth) : m.firstDay = monthStart m.index := by
  obtain ⟨year, number⟩ := m
  obtain ⟨number, rfl⟩ := Nat.exists_eq_add_of_le' hm.1
  rw [index_succ, monthStart_add _ (Nat.lt_of_succ_le hm.2)]
  exact Int.add_zero _

/-- The next month begins after the days of this one. -/
theorem IsMonth.firstDay_next (hm : m.IsMonth) : m.next.firstDay = m.firstDay + m.length := by
  obtain ⟨hnext, hindex⟩ := hm.next
  rw [hnext.firstDay_eq, hm.firstDay_eq, hindex]
  obtain ⟨year, number⟩ := m
  obtain ⟨number, rfl⟩ := Nat.exists_eq_add_of_le' hm.1
  rw [index_succ, monthStart_succ _ (Nat.lt_of_succ_le hm.2)]
  rfl

theorem IsMonth.length_mem (hm : m.IsMonth) : 28 ≤ m.length ∧ m.length ≤ 31 := by
  obtain ⟨year, number⟩ := m
  obtain ⟨number, rfl⟩ := Nat.exists_eq_add_of_le' hm.1
  exact monthLength_mem year (Nat.lt_of_succ_le hm.2)

/-- Later months begin after the end of earlier ones. -/
theorem IsMonth.firstDay_add_length_le (hm : m.IsMonth) {m' : Month} (hm' : m'.IsMonth)
    (h : m.index < m'.index) : m.firstDay + m.length ≤ m'.firstDay := by
  obtain ⟨hnext, hindex⟩ := hm.next
  rw [← hm.firstDay_next, hnext.firstDay_eq, hindex, hm'.firstDay_eq]
  exact monthStart_le_monthStart h

/-- A day lies in one month only, as one day of it. -/
theorem IsMonth.eq_of_firstDay_add_eq (hm : m.IsMonth) {m' : Month} (hm' : m'.IsMonth)
    {day day' : Nat} (hday : day < m.length) (hday' : day' < m'.length)
    (h : m.firstDay + day = m'.firstDay + day') : m = m' ∧ day = day' := by
  have hindex : m.index = m'.index := by
    rcases Int.lt_trichotomy m.index m'.index with hlt | heq | hgt
    · have hends := hm.firstDay_add_length_le hm' hlt
      omega
    · exact heq
    · have hends := hm'.firstDay_add_length_le hm hgt
      omega
  obtain rfl := hm.eq_of_index_eq hm' hindex
  exact ⟨rfl, by omega⟩

/-- Every day lies in a month, and its date names the month and the day in it. -/
theorem exists_firstDay_add_eq (n : Int) : ∃ (m : Month) (day : Nat), m.IsMonth ∧ day < m.length ∧
    m.firstDay + day = n ∧ Date.ofDayNumber n = ⟨m.year, m.number, day + 1⟩ := by
  obtain ⟨number, hnumber, day, hday, heq, hcount⟩ := ofDayNumber_spec n
  have hm : (⟨yearOf n, number + 1⟩ : Month).IsMonth := ⟨Nat.succ_pos _, hnumber⟩
  refine ⟨_, day, hm, hday, ?_, heq⟩
  rw [hm.firstDay_eq, index_succ, hcount]

/-- The date of a day that a month has. -/
theorem IsMonth.ofDayNumber_firstDay_add (hm : m.IsMonth) {days : Nat} (h : days < m.length) :
    Date.ofDayNumber (m.firstDay + days) = ⟨m.year, m.number, days + 1⟩ := by
  obtain ⟨m', days', hm', hdays', hcount, heq⟩ := exists_firstDay_add_eq (m.firstDay + days)
  obtain ⟨rfl, rfl⟩ := hm'.eq_of_firstDay_add_eq hm hdays' h hcount
  exact heq

/-- **A day that a month lacks falls into the next one.** No month lacks as many days as the next one
has. -/
theorem IsMonth.ofDayNumber_dateOf (hm : m.IsMonth) {day : Nat} (hday : 1 ≤ day ∧ day ≤ 31) :
    Date.ofDayNumber (m.firstDay + (day - 1 : Int)) = m.dateOf day := by
  have hlength := hm.length_mem
  unfold dateOf
  split
  · next hhas =>
    have hdays : m.firstDay + (day - 1 : Int) = m.firstDay + (day - 1 : Nat) := by omega
    rw [hdays, hm.ofDayNumber_firstDay_add (by omega), Nat.sub_add_cancel hday.1]
  · next hlacks =>
    have hlength' := hm.next.1.length_mem
    have hdays : m.firstDay + (day - 1 : Int) = m.next.firstDay + (day - m.length - 1 : Nat) := by
      rw [hm.firstDay_next]
      omega
    rw [hdays, hm.next.1.ofDayNumber_firstDay_add (by omega), Nat.sub_add_cancel (by omega)]

/-! ### The same month of another year -/

/-- Only February changes its length from year to year. -/
theorem length_eq_length {year year' : Int} {number : Nat} (h : number ≠ 2) :
    (⟨year, number⟩ : Month).length = (⟨year', number⟩ : Month).length := by
  match number with
  | 0 | 1 => rfl
  | 2 => exact absurd rfl h
  | number + 3 => rfl

theorem length_february (year : Int) :
    (⟨year, 2⟩ : Month).length = if isLeap year then 29 else 28 := rfl

/-- In another year the same month has the same day, unless the day is the last of February in a leap
year and the other year is none. -/
theorem le_length_iff {year : Int} {number day : Nat} (year' : Int)
    (hday : day ≤ (⟨year, number⟩ : Month).length) :
    day ≤ (⟨year', number⟩ : Month).length ↔
      ¬(number = 2 ∧ day = 29 ∧ isLeap year' = false) := by
  by_cases hfebruary : number = 2
  · subst hfebruary
    rw [length_february] at hday ⊢
    cases isLeap year' with
    | true =>
      have hle : day ≤ 29 := by split at hday <;> omega
      simpa using hle
    | false =>
      simp only [Bool.false_eq_true, if_false, true_and, and_true]
      split at hday <;> omega
  · rw [length_eq_length hfebruary] at hday
    exact iff_of_true hday fun h => hfebruary h.1

end Month

/-! ### The instant some months later -/

namespace Instant

/-- The month that the local clock shows. -/
def localMonth (t : Instant) : Month :=
  ⟨t.localDate.year, t.localDate.month⟩

/-- An instant is some months after another: the same clock shows the same time of day, on the day that
is counted from the first of the month some months later. -/
structure IsMonthsAfter (t : Instant) (months : Nat) (u : Instant) : Prop where
  offset : u.offset = t.offset
  timeOfDay : u.timeOfDay = t.timeOfDay
  localDay : u.localDay = (t.localMonth.later months).firstDay + (t.localDate.day - 1 : Int)
  localDate : u.localDate = (t.localMonth.later months).dateOf t.localDate.day

variable {t u v : Instant} {months months' : Nat}

theorem isMonth_localMonth (t : Instant) : t.localMonth.IsMonth :=
  (localDate_spec t).1

theorem dayAfterMonths_eq (t : Instant) (months : Nat) :
    t.dayAfterMonths months =
      (t.localMonth.later months).firstDay + (t.localDate.day - 1 : Int) := by
  obtain ⟨hmonth, hindex⟩ := t.isMonth_localMonth.later months
  rw [hmonth.firstDay_eq, hindex]
  rfl

theorem addMonths_eq_ok_iff_later (ht : t.IsSupported) :
    t.addMonths months = .ok u ↔
      (t.localMonth.later months).year ≤ 9999 ∧
        u = ofLocal (t.dayAfterMonths months) t.timeOfDay t.offset := by
  obtain ⟨hmonth, hindex⟩ := t.isMonth_localMonth.later months
  rw [addMonths_eq_ok_iff ht, hmonth.year_eq, hindex]
  rfl

/-- Months lead to the instant of the calendar. -/
theorem isMonthsAfter_of_addMonths (ht : t.IsSupported) (h : t.addMonths months = .ok u) :
    t.IsMonthsAfter months u := by
  obtain ⟨-, rfl⟩ := (addMonths_eq_ok_iff_later ht).mp h
  obtain ⟨hfrom, hto⟩ := timeOfDay_mem t
  have hday : (ofLocal (t.dayAfterMonths months) t.timeOfDay t.offset).localDay =
      (t.localMonth.later months).firstDay + (t.localDate.day - 1 : Int) := by
    rw [localDay_ofLocal hfrom hto, dayAfterMonths_eq]
  refine ⟨rfl, timeOfDay_ofLocal hfrom hto, hday, ?_⟩
  rw [Instant.localDate, hday]
  exact (t.isMonth_localMonth.later months).1.ofDayNumber_dateOf (day_mem t.localDay)

theorem addMonths_zero (ht : t.IsSupported) : t.addMonths 0 = .ok t := by
  have hyear : (t.localMonth.later 0).year ≤ 9999 := (isSupportedDay_iff.mp ht).2
  rw [addMonths_eq_ok_iff_later ht, dayAfterMonths_zero, ofLocal_localDay]
  exact ⟨hyear, rfl⟩

/-- The only failure is that the month lies after the supported years. -/
theorem addMonths_eq_error_iff (ht : t.IsSupported) {why : ReadError} :
    t.addMonths months = .error why ↔
      9999 < (t.localMonth.later months).year ∧ why = .outOfRange := by
  by_cases hyear : (t.localMonth.later months).year ≤ 9999
  · rw [(addMonths_eq_ok_iff_later ht).mpr ⟨hyear, rfl⟩]
    exact iff_of_false nofun fun hlate => Int.not_le.mpr hlate.1 hyear
  · refine ⟨fun herror => ⟨Int.not_le.mp hyear, eq_outOfRange_of_addMonths herror⟩, ?_⟩
    rintro ⟨-, rfl⟩
    cases hadd : t.addMonths months with
    | ok u => exact absurd ((addMonths_eq_ok_iff_later ht).mp hadd).1 hyear
    | error why => rw [eq_outOfRange_of_addMonths hadd]

/-- Whole years keep the month and the day, unless the day is the last of February in a leap year and
the other year is none. -/
theorem IsMonthsAfter.keepsDate_iff {years : Nat} (h : t.IsMonthsAfter (12 * years) u) :
    u.localDate.month = t.localDate.month ∧ u.localDate.day = t.localDate.day ↔
      ¬(t.localDate.month = 2 ∧ t.localDate.day = 29 ∧
        isLeap (t.localDate.year + years) = false) := by
  have hday : t.localDate.day ≤ t.localMonth.length := (localDate_spec t).2.1.2
  rw [h.localDate, t.isMonth_localMonth.later_years, Month.dateOf,
    ← Month.le_length_iff (t.localDate.year + years) hday]
  split
  · next hhas => exact iff_of_true ⟨rfl, rfl⟩ hhas
  · next hlacks =>
    -- the day falls into the next month, where it is not the day of a month
    have hmonth : (⟨t.localMonth.year + years, t.localMonth.number⟩ : Month).IsMonth :=
      t.isMonth_localMonth
    exact iff_of_false (fun hsame => hmonth.next_number_ne hsame.1) hlacks

/-- **Months are added on the calendar.** From an instant of the supported years, some months lead to
an instant unless the month some months later lies after the supported years, which is the only
failure. The instant is supported, and it shows the same time of day on the same clock, on the day that
is counted from the first of that month. No months lead to the instant itself and more months to a later
instant; whole years keep the month and the day, but for the last of February in a leap year where the
other year is none. -/
theorem addMonths_eq_calendar (ht : t.IsSupported) :
    (∀ months, t.addMonths months = .error .outOfRange ↔
      9999 < (t.localMonth.later months).year) ∧
    (∀ months, (t.localMonth.later months).year ≤ 9999 →
      ∃ u, t.addMonths months = .ok u ∧ u.IsSupported ∧ t.IsMonthsAfter months u) ∧
    t.addMonths 0 = .ok t ∧
    (∀ months months' u u', months < months' → t.addMonths months = .ok u →
      t.addMonths months' = .ok u' → u.nanos < u'.nanos) ∧
    ∀ years u, t.addMonths (12 * years) = .ok u →
      (u.localDate.month = t.localDate.month ∧ u.localDate.day = t.localDate.day ↔
        ¬(t.localDate.month = 2 ∧ t.localDate.day = 29 ∧
          isLeap (t.localDate.year + years) = false)) := by
  refine ⟨fun months => ?_, fun months hyear => ?_, addMonths_zero ht,
    fun months months' u u' => nanos_lt_nanos_of_addMonths, fun years u hu => ?_⟩
  · rw [addMonths_eq_error_iff ht]
    exact and_iff_left rfl
  · have hu := (addMonths_eq_ok_iff_later ht).mpr ⟨hyear, rfl⟩
    exact ⟨_, hu, isSupported_of_addMonths ht hu, isMonthsAfter_of_addMonths ht hu⟩
  · exact (isMonthsAfter_of_addMonths ht hu).keepsDate_iff

/-- A year after noon of the last of February 2024 the clock shows the first of March, and no instant is
supported 7976 years after it. -/
theorem addMonths_eq_calendar_leapDay :
    let t : Instant := ⟨1709208000 * nanosPerSecond, 0⟩
    t.localDate = ⟨2024, 2, 29⟩ ∧
      (∃ u, t.addMonths 12 = .ok u ∧ t.nanos < u.nanos ∧ u.localDate = ⟨2025, 3, 1⟩ ∧
        ¬(u.localDate.month = t.localDate.month ∧ u.localDate.day = t.localDate.day)) ∧
      t.addMonths (12 * 7976) = .error .outOfRange := by
  intro t
  obtain ⟨herror, hok, hzero, hlt, hyears⟩ := addMonths_eq_calendar (t := t) (by decide)
  obtain ⟨u, hu, -, hafter⟩ := hok 12 (by decide)
  have hdate : u.localDate = ⟨2025, 3, 1⟩ := by
    rw [hafter.localDate]
    decide
  refine ⟨by decide, ⟨u, hu, hlt 0 12 t u (by decide) hzero hu, hdate, fun hsame => ?_⟩,
    (herror _).mpr ?_⟩
  · exact (hyears 1 u hu).mp hsame (by decide)
  · rw [t.isMonth_localMonth.later_years]
    decide

end Instant

end Circulation
