import Circulation.Calendar
import Circulation.ReadError

/-!
# Instants

An instant is a number of nanoseconds since the Unix epoch together with the offset of the clock
that shows it. Two instants are compared by their nanoseconds alone; the offset decides the local
date and time of day. The local year of a supported instant lies between -9999 and 9999.

## Main definitions

* `Circulation.Instant` — nanoseconds since the epoch and an offset.
* `Circulation.Instant.localDate`, `Circulation.Instant.timeOfDay` — what the local clock shows.
* `Circulation.Instant.ofUnixSeconds?`, `Circulation.Instant.addSeconds?`,
  `Circulation.Instant.addMonths` — arithmetic within the supported years.
-/

namespace Circulation

/-- A point in time and the offset of the local clock. -/
structure Instant where
  /-- Nanoseconds since the Unix epoch. -/
  nanos : Int
  /-- Seconds by which the local clock is ahead of UTC. -/
  offset : Int
  deriving DecidableEq, Repr, Inhabited

namespace Instant

/-- The number of nanoseconds in a second. -/
def nanosPerSecond : Int := 1000000000

/-- The number of nanoseconds in a day. -/
def nanosPerDay : Int := 86400 * nanosPerSecond

/-- Nanoseconds that the local clock shows since the first of January 1970. -/
def localNanos (t : Instant) : Int :=
  t.nanos + t.offset * nanosPerSecond

/-- The number of the local day. -/
def localDay (t : Instant) : Int :=
  t.localNanos / nanosPerDay

/-- The local date. -/
def localDate (t : Instant) : Date :=
  Date.ofDayNumber t.localDay

/-- Nanoseconds since the local midnight. -/
def timeOfDay (t : Instant) : Int :=
  t.localNanos % nanosPerDay

/-- A day of the years -9999 to 9999. -/
def IsSupportedDay (day : Int) : Prop :=
  Calendar.yearStart (-9999) ≤ day ∧ day < Calendar.yearStart 10000

instance (day : Int) : Decidable (IsSupportedDay day) :=
  inferInstanceAs (Decidable (_ ∧ _))

/-- The instant at which a clock with the given offset shows a day and a time of day. -/
def ofLocal (day timeOfDay offset : Int) : Instant :=
  ⟨day * nanosPerDay + timeOfDay - offset * nanosPerSecond, offset⟩

/-- The same point in time, shown in UTC. -/
def toUtc (t : Instant) : Instant :=
  ⟨t.nanos, 0⟩

/-- An instant when its local date is supported. -/
def supported? (t : Instant) : Option Instant :=
  if IsSupportedDay t.localDay then some t else none

/-- The instant, in UTC, of a number of seconds since the epoch, if its year is supported. -/
def ofUnixSeconds? (seconds : Int) : Option Instant :=
  supported? ⟨seconds * nanosPerSecond, 0⟩

/-- The instant a number of seconds later on the same clock, if its local year is supported. -/
def addSeconds? (t : Instant) (seconds : Int) : Option Instant :=
  supported? ⟨t.nanos + seconds * nanosPerSecond, t.offset⟩

/-- Whether an instant is earlier than another. -/
def isBefore (t u : Instant) : Bool :=
  t.nanos < u.nanos

/-- The instant a number of calendar months later, at the same local time of day. The day of the
month is counted from the first of the target month, so a day that the month lacks falls into the
next month. -/
def addMonths (t : Instant) (months : Nat) : Except ReadError Instant :=
  let date := t.localDate
  let index : Int := date.year * 12 + (date.month - 1 : Int) + months
  let first : Date := ⟨index / 12, (index % 12).toNat + 1, 1⟩
  let day := first.dayNumber + (date.day - 1 : Int)
  if first.year ≤ 9999 ∧ IsSupportedDay day then
    .ok (ofLocal day t.timeOfDay t.offset)
  else
    .error .outOfRange

end Instant

end Circulation
