import Mathlib.Order.Monotone.Basic
import Circulation.Calendar

/-!
# The months of the calendar

Months are numbered through, twelve to a year, and the first days of the months are strictly
increasing. Every day lies in exactly one month, and its date names the month and the day in it.

## Main definitions

* `Circulation.Calendar.monthStart` — the day number of the first day of a month.
* `Circulation.Date.monthIndex` — the number of a date's month.

## Main results

* `Circulation.Calendar.monthStart_lt_monthStart` — the first days of the months.
* `Circulation.Calendar.yearOf_dayNumber` — a date lies in its year.
* `Circulation.Calendar.monthStart_monthIndex` — a day is its date, counted from the first of its
  month.
* `Circulation.Calendar.monthIndex_le_monthIndex` — later days lie in later months.
-/

namespace Circulation

/-- The number of a date's month, twelve to a year. -/
def Date.monthIndex (d : Date) : Int :=
  d.year * 12 + (d.month - 1 : Int)

namespace Calendar

/-! ### Years -/

theorem yearStart_succ (year : Int) :
    yearStart (year + 1) = yearStart year + if isLeap year then 366 else 365 := by
  simp only [yearStart, isLeap, Bool.and_eq_true, Bool.or_eq_true, beq_iff_eq, bne_iff_ne]
  split <;> omega

theorem yearStart_yearOf_le (day : Int) : yearStart (yearOf day) ≤ day := by
  simp only [yearOf]
  split
  · simp only [yearStart] at *
    omega
  · split
    · assumption
    · simp only [yearStart] at *
      omega

theorem lt_yearStart_yearOf_succ (day : Int) : day < yearStart (yearOf day + 1) := by
  simp only [yearOf]
  split
  · simpa only [Int.sub_add_cancel]
  · split
    · simp only [yearStart] at *
      omega
    · simp only [yearStart] at *
      omega

/-! ### Months of a year -/

theorem length_monthLengths (year : Int) : (monthLengths year).length = 12 := rfl

/-- The months of a year make up the year. -/
theorem daysBefore_twelve (year : Int) :
    (daysBefore 12 (monthLengths year) : Int) = if isLeap year then 366 else 365 := by
  simp only [monthLengths]
  split <;> rfl

/-- The days before a month grow with the month, by the length of the month in between. -/
theorem daysBefore_succ (months : Nat) (lengths : List Nat) :
    daysBefore (months + 1) lengths = daysBefore months lengths + lengths.getD months 0 := by
  induction months generalizing lengths with
  | zero =>
    cases lengths with
    | nil => rfl
    | cons length lengths => simp [daysBefore]
  | succ months ih =>
    cases lengths with
    | nil => rfl
    | cons length lengths =>
      rw [daysBefore, ih, daysBefore, List.getD_cons_succ]
      omega

/-- Every month has from 28 to 31 days. -/
theorem monthLength_mem (year : Int) {month : Nat} (h : month < 12) :
    28 ≤ (monthLengths year).getD month 0 ∧ (monthLengths year).getD month 0 ≤ 31 := by
  have hall : ∀ length ∈ monthLengths year, 28 ≤ length ∧ length ≤ 31 := by
    simp only [monthLengths, List.forall_mem_cons]
    split <;> simp
  have hmem : (monthLengths year).getD month 0 ∈ monthLengths year := by
    rw [List.getD_eq_getElem?_getD, List.getElem?_eq_getElem h, Option.getD_some]
    exact List.getElem_mem _
  exact hall _ hmem

/-- The month and the day at some days after the first of a month lie within the lengths, and count
as many days. -/
theorem monthAndDay_spec (month : Nat) {days : Nat} {lengths : List Nat}
    (h : days < daysBefore lengths.length lengths) :
    ∃ k < lengths.length, ∃ day < lengths.getD k 0,
      monthAndDay month days lengths = (month + k, day + 1) ∧
        daysBefore k lengths + day = days := by
  induction lengths generalizing month days with
  | nil => exact absurd h (Nat.not_lt_zero days)
  | cons length lengths ih =>
    by_cases hfirst : days < length
    · refine ⟨0, Nat.succ_pos _, days, hfirst, ?_, Nat.zero_add days⟩
      rw [monthAndDay, if_pos hfirst]
      rfl
    · have hrest : days - length < daysBefore lengths.length lengths := by
        rw [List.length_cons, daysBefore] at h
        omega
      obtain ⟨k, hk, day, hday, heq, hcount⟩ := ih (month + 1) hrest
      refine ⟨k + 1, Nat.succ_lt_succ hk, day, ?_, ?_, ?_⟩
      · rw [List.getD_cons_succ]
        exact hday
      · rw [monthAndDay, if_neg hfirst, heq, Nat.add_assoc, Nat.add_comm 1 k]
      · rw [daysBefore]
        omega

/-! ### Months numbered through -/

/-- The day number of the first day of a month, where the months are numbered through. -/
def monthStart (index : Int) : Int :=
  yearStart (index / 12) + daysBefore (index % 12).toNat (monthLengths (index / 12))

theorem monthStart_add (year : Int) {month : Nat} (h : month < 12) :
    monthStart (year * 12 + month) = yearStart year + daysBefore month (monthLengths year) := by
  have hyear : (year * 12 + month) / 12 = year := by omega
  have hmonth : ((year * 12 + month) % 12).toNat = month := by omega
  rw [monthStart, hyear, hmonth]

theorem exists_month (index : Int) : ∃ (year : Int) (month : Nat), month < 12 ∧
    index = year * 12 + month :=
  ⟨index / 12, (index % 12).toNat, by omega, by omega⟩

/-- The next month begins after the days of this one. -/
theorem monthStart_succ (year : Int) {month : Nat} (h : month < 12) :
    monthStart (year * 12 + month + 1) =
      monthStart (year * 12 + month) + (monthLengths year).getD month 0 := by
  have hnext : monthStart (year * 12 + month + 1) =
      yearStart year + daysBefore (month + 1) (monthLengths year) := by
    by_cases hlast : month = 11
    · -- after the twelfth month the next year begins
      have hindex : year * 12 + month + 1 = (year + 1) * 12 + (0 : Nat) := by omega
      rw [hindex, monthStart_add _ (by omega), yearStart_succ, hlast, daysBefore_twelve]
      exact Int.add_zero _
    · have hindex : year * 12 + (month : Int) + 1 = year * 12 + (month + 1 : Nat) := by omega
      rw [hindex, monthStart_add _ (by omega)]
  rw [hnext, monthStart_add _ h, daysBefore_succ]
  omega

theorem monthStart_lt_monthStart {i j : Int} (h : i < j) : monthStart i < monthStart j := by
  have hstrict : StrictMono monthStart := strictMono_int_of_lt_succ fun index => by
    obtain ⟨year, month, hmonth, rfl⟩ := exists_month index
    have hlength := (monthLength_mem year hmonth).1
    rw [monthStart_succ year hmonth]
    omega
  exact hstrict h

theorem monthStart_le_monthStart {i j : Int} (h : i ≤ j) : monthStart i ≤ monthStart j := by
  rcases Int.lt_or_eq_of_le h with hlt | rfl
  · exact Int.le_of_lt (monthStart_lt_monthStart hlt)
  · exact Int.le_refl _

/-! ### The year of a day -/

theorem yearStart_le_yearStart {i j : Int} (h : i ≤ j) : yearStart i ≤ yearStart j := by
  have hstrict : StrictMono yearStart := strictMono_int_of_lt_succ fun year => by
    rw [yearStart_succ]
    split <;> omega
  exact hstrict.monotone h

theorem le_yearOf_iff {year day : Int} : year ≤ yearOf day ↔ yearStart year ≤ day := by
  have hfrom := yearStart_yearOf_le day
  have hto := lt_yearStart_yearOf_succ day
  constructor
  · intro h
    exact Int.le_trans (yearStart_le_yearStart h) hfrom
  · intro h
    by_contra hlt
    have hnext : yearStart (yearOf day + 1) ≤ yearStart year := yearStart_le_yearStart (by omega)
    omega

theorem yearOf_lt_iff {year day : Int} : yearOf day < year ↔ day < yearStart year := by
  have h : year ≤ yearOf day ↔ yearStart year ≤ day := le_yearOf_iff
  omega

/-- A date lies in its year. -/
theorem yearOf_dayNumber (year : Int) {month day : Nat} (hmonth : 1 ≤ month ∧ month ≤ 12)
    (hday : 1 ≤ day ∧ day ≤ Date.monthLength year month) :
    yearOf (Date.dayNumber ⟨year, month, day⟩) = year := by
  obtain ⟨month, rfl⟩ := Nat.exists_eq_add_of_le' hmonth.1
  have hlt : month < 12 := by omega
  have hlength : Date.monthLength year (month + 1) = (monthLengths year).getD month 0 := rfl
  have hthis := monthStart_add year hlt
  have hnext := monthStart_succ year hlt
  have hend : monthStart (year * 12 + month + 1) ≤ yearStart (year + 1) := by
    have hstart := monthStart_add (year + 1) (show 0 < 12 by decide)
    have hle : monthStart (year * 12 + month + 1) ≤ monthStart ((year + 1) * 12 + (0 : Nat)) :=
      monthStart_le_monthStart (by omega)
    rw [hstart] at hle
    exact Int.le_trans hle (Int.le_of_eq (Int.add_zero _))
  have hdays : Date.dayNumber ⟨year, month + 1, day⟩ =
      monthStart (year * 12 + month) + (day - 1 : Int) := by
    rw [hthis]
    rfl
  have hfrom : year ≤ yearOf (Date.dayNumber ⟨year, month + 1, day⟩) := by
    rw [le_yearOf_iff]
    omega
  have hto : yearOf (Date.dayNumber ⟨year, month + 1, day⟩) < year + 1 := by
    rw [yearOf_lt_iff]
    omega
  omega

/-! ### The date of a day -/

/-- The date of a day names its month, and the day in that month. -/
theorem ofDayNumber_spec (n : Int) :
    ∃ month < 12, ∃ day < (monthLengths (yearOf n)).getD month 0,
      Date.ofDayNumber n = ⟨yearOf n, month + 1, day + 1⟩ ∧
        monthStart (yearOf n * 12 + month) + day = n := by
  have hfrom := yearStart_yearOf_le n
  have hto := lt_yearStart_yearOf_succ n
  have hspan : (n - yearStart (yearOf n)).toNat <
      daysBefore (monthLengths (yearOf n)).length (monthLengths (yearOf n)) := by
    have htwelve := daysBefore_twelve (yearOf n)
    rw [yearStart_succ] at hto
    rw [length_monthLengths]
    omega
  obtain ⟨month, hmonth, day, hday, heq, hcount⟩ := monthAndDay_spec 1 hspan
  refine ⟨month, hmonth, day, hday, ?_, ?_⟩
  · simp only [Date.ofDayNumber, heq, Nat.add_comm 1 month]
  · rw [monthStart_add _ hmonth]
    omega

theorem monthIndex_mk (year : Int) (month day : Nat) :
    (Date.mk year (month + 1) day).monthIndex = year * 12 + month := by
  simp only [Date.monthIndex]
  omega

/-- A day is its date, counted from the first of its month. -/
theorem monthStart_monthIndex (n : Int) :
    monthStart (Date.ofDayNumber n).monthIndex + ((Date.ofDayNumber n).day - 1 : Int) = n := by
  obtain ⟨month, -, day, -, heq, hcount⟩ := ofDayNumber_spec n
  rw [heq, monthIndex_mk]
  dsimp only
  omega

theorem lt_monthStart_monthIndex_succ (n : Int) :
    n < monthStart ((Date.ofDayNumber n).monthIndex + 1) := by
  obtain ⟨month, hmonth, day, hday, heq, hcount⟩ := ofDayNumber_spec n
  rw [heq, monthIndex_mk, monthStart_succ _ hmonth]
  omega

theorem day_mem (n : Int) : 1 ≤ (Date.ofDayNumber n).day ∧ (Date.ofDayNumber n).day ≤ 31 := by
  obtain ⟨month, hmonth, day, hday, heq, -⟩ := ofDayNumber_spec n
  have hlength := (monthLength_mem (yearOf n) hmonth).2
  rw [heq]
  dsimp only
  omega

/-- The date of a day is one of the year's dates, and its day is the day. -/
theorem exists_ofDayNumber (n : Int) : ∃ month day : Nat, (1 ≤ month ∧ month ≤ 12) ∧
    (1 ≤ day ∧ day ≤ Date.monthLength (yearOf n) month) ∧
      Date.ofDayNumber n = ⟨yearOf n, month, day⟩ ∧
      Date.dayNumber ⟨yearOf n, month, day⟩ = n := by
  obtain ⟨month, hmonth, day, hday, heq, hcount⟩ := ofDayNumber_spec n
  refine ⟨month + 1, day + 1, by omega, ⟨by omega, ?_⟩, heq, ?_⟩
  · have hlength : Date.monthLength (yearOf n) (month + 1) =
        (monthLengths (yearOf n)).getD month 0 := rfl
    omega
  · have hdays : Date.dayNumber ⟨yearOf n, month + 1, day + 1⟩ =
        monthStart (yearOf n * 12 + month) + ((day + 1 : Nat) - 1 : Int) := by
      rw [monthStart_add _ hmonth]
      rfl
    omega

/-- Later days lie in later months, or in the same one. -/
theorem monthIndex_le_monthIndex {m n : Int} (h : m ≤ n) :
    (Date.ofDayNumber m).monthIndex ≤ (Date.ofDayNumber n).monthIndex := by
  by_contra hlt
  have hstart : monthStart ((Date.ofDayNumber n).monthIndex + 1) ≤
      monthStart (Date.ofDayNumber m).monthIndex :=
    monthStart_le_monthStart (by omega)
  have hn := lt_monthStart_monthIndex_succ n
  have hm := monthStart_monthIndex m
  have hday := (day_mem m).1
  omega

end Calendar

end Circulation
