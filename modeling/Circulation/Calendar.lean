/-!
# The calendar

Dates of the proleptic Gregorian calendar and their day numbers, counted from the first of January
1970. Years may be zero or negative.

## Main definitions

* `Circulation.Calendar.yearStart` — the day number of the first day of a year.
* `Circulation.Calendar.yearOf` — the year of a day.
* `Circulation.Date`, `Circulation.Date.dayNumber`, `Circulation.Date.ofDayNumber` — dates and day
  numbers.
* `Circulation.Date.ofParts?` — a date from its parts, if there is such a day.
-/

namespace Circulation

namespace Calendar

/-- A year is a leap year when it is a multiple of 4 but not of 100, or a multiple of 400. -/
def isLeap (year : Int) : Bool :=
  year % 4 == 0 && (year % 100 != 0 || year % 400 == 0)

/-- The lengths of the twelve months of a year. -/
def monthLengths (year : Int) : List Nat :=
  [31, if isLeap year then 29 else 28, 31, 30, 31, 30, 31, 31, 30, 31, 30, 31]

/-- The day number of the first of January of a year. -/
def yearStart (year : Int) : Int :=
  365 * year + (year - 1) / 4 - (year - 1) / 100 + (year - 1) / 400 - 719527

/-- The year of a day: the mean length of a year gives it up to one. -/
def yearOf (day : Int) : Int :=
  let guess := 400 * day / 146097 + 1970
  if day < yearStart guess then guess - 1
  else if yearStart (guess + 1) ≤ day then guess + 1
  else guess

/-- The number of days in the first `months` months, where `lengths` are their lengths. -/
def daysBefore : (months : Nat) → (lengths : List Nat) → Nat
  | months + 1, length :: lengths => length + daysBefore months lengths
  | _, _ => 0

/-- The month and the day of the month at `days` days after the first day of month `month`, where
`lengths` are the lengths of that month and of those after it. -/
def monthAndDay (month days : Nat) : List Nat → Nat × Nat
  | [] => (month, days + 1)
  | length :: lengths =>
    if days < length then (month, days + 1) else monthAndDay (month + 1) (days - length) lengths

end Calendar

/-- A date: the year, the month from 1 to 12 and the day of the month from 1. -/
structure Date where
  year : Int
  month : Nat
  day : Nat
  deriving DecidableEq, Repr

namespace Date

open Calendar

/-- The number of a date's day. -/
def dayNumber (d : Date) : Int :=
  yearStart d.year + daysBefore (d.month - 1) (monthLengths d.year) + (d.day - 1 : Int)

/-- The date of a day number. -/
def ofDayNumber (n : Int) : Date :=
  let year := yearOf n
  let (month, day) := monthAndDay 1 (n - yearStart year).toNat (monthLengths year)
  ⟨year, month, day⟩

/-- The number of days in the month of a date, and 0 if there is no such month. -/
def monthLength (year : Int) (month : Nat) : Nat :=
  if month = 0 then 0 else (monthLengths year).getD (month - 1) 0

end Date

end Circulation
