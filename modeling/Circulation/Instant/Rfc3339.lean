import Circulation.Instant.Basic
import Circulation.Numeral
import Circulation.Text.Blank

/-!
# Instants as text

The written form of an instant is that of RFC 3339: date, one separating character, time of day, an
optional fraction of a second and an offset. A fraction counts to the ninth digit. A sixtieth second
is read as the last nanosecond of the second before it, and only where a leap second can be: at
23:59 of the last day of a month in UTC.

An instant is written in two ways: as its own clock shows it, with the fraction (`toRfc3339?`), and
as UTC shows it, without the fraction (`utcText?`). Years are written with four digits, so a year
below 0 has no written form.

## Main definitions

* `Circulation.Instant.Unreadable` — why a text is not the written form of an instant.
* `Circulation.Instant.ofRfc3339` — the instant that a text denotes.
* `Circulation.Instant.parse` — the same, with blanks around the text allowed.
* `Circulation.Instant.toRfc3339?`, `Circulation.Instant.utcText?` — the two written forms.
* `Circulation.Instant.ofUnixText` — an instant from a numeral of Unix seconds.
-/

namespace Circulation.Instant

/-- Why a text is not the written form of an instant. -/
inductive Unreadable where
  /-- The named part does not have its form. -/
  | part (name : String)
  /-- A mark between two parts is missing. -/
  | mark
  /-- Text follows the offset. -/
  | trailing
  /-- The named part is a number out of its range. -/
  | range (name : String)
  deriving DecidableEq, Repr

/-- The text that reports why a text is not an instant. -/
def Unreadable.message : Unreadable → String
  | .part name => "the '" ++ name ++ "' component could not be parsed"
  | .mark => "a character literal was not valid"
  | .trailing => "unexpected trailing characters; the end of input was expected"
  | .range name => name ++ " was not in range"

/-- A reader of the front of a text, which yields the rest as its state. -/
abbrev Scan := StateT (List Char) (Except Unreadable)

namespace Scan

/-- Exactly `n` digits, as the part `name`. -/
def digits (n : Nat) (name : String) : Scan Nat := do
  let cs ← get
  match Numeral.natural? (cs.take n) with
  | some value =>
    if (cs.take n).length = n then
      set (cs.drop n)
      return value
    else
      throw (.part name)
  | none => throw (.part name)

/-- The character `c`. -/
def mark (c : Char) : Scan Unit := do
  match ← get with
  | d :: rest => if d = c then set rest else throw .mark
  | [] => throw .mark

/-- The single byte between date and time. A character of several bytes leaves its other bytes where
the hour should stand. -/
def separator : Scan Unit := do
  match ← get with
  | c :: rest => if c.toNat < 0x80 then set rest else throw (.part "hour")
  | [] => throw (.part "separator")

/-- The nanoseconds of an optional fraction; digits after the ninth are passed over. -/
def fraction : Scan Nat := do
  match ← get with
  | '.' :: rest =>
    let ds := rest.takeWhile Char.isDigit
    if ds = [] then throw (.part "subsecond")
    set (rest.dropWhile Char.isDigit)
    let kept := ds.take 9
    return Numeral.ofDigits kept * Nat.pow 10 (9 - kept.length)
  | _ => return 0

/-- The offset in seconds: `Z` in either case, or a sign, hours and minutes. -/
def offset : Scan Int := do
  match ← get with
  | [] => throw (.part "offset hour")
  | c :: rest =>
    if c = 'Z' ∨ c = 'z' then
      set rest
      return 0
    else if c = '+' ∨ c = '-' then
      set rest
      let hours ← digits 2 "offset hour"
      if 23 < hours then throw (.part "offset hour")
      mark ':'
      let minutes ← digits 2 "offset minute"
      if 59 < minutes then throw (.range "offset minute")
      let seconds : Int := 3600 * hours + 60 * minutes
      return if c = '-' then -seconds else seconds
    else
      throw (.part "offset hour")

end Scan

/-- A number in the range from `low` to `high`, as the part `name`. -/
def checkRange (name : String) (low high value : Nat) : Except Unreadable Unit :=
  if low ≤ value ∧ value ≤ high then .ok () else .error (.range name)

/-- Whether an instant lies in the last second of a month, as UTC shows it. -/
def endsMonth (t : Instant) : Bool :=
  let utc := t.toUtc
  let date := utc.localDate
  utc.timeOfDay / nanosPerSecond == 86399 && date.day == Date.monthLength date.year date.month

/-- The instant that a text denotes. -/
def ofRfc3339 (cs : List Char) : Except Unreadable Instant := do
  let ((year, month, day, hour, minute, second, nanos, offset), rest) ← (do
    let year ← Scan.digits 4 "year"
    Scan.mark '-'
    let month ← Scan.digits 2 "month"
    if month = 0 then throw (.part "month")
    Scan.mark '-'
    let day ← Scan.digits 2 "day"
    Scan.separator
    let hour ← Scan.digits 2 "hour"
    Scan.mark ':'
    let minute ← Scan.digits 2 "minute"
    Scan.mark ':'
    let second ← Scan.digits 2 "second"
    let nanos ← Scan.fraction
    let offset ← Scan.offset
    return (year, month, day, hour, minute, second, nanos, offset) : Scan _).run cs
  if rest ≠ [] then throw .trailing
  checkRange "month" 1 12 month
  checkRange "day" 1 (Date.monthLength year month) day
  checkRange "hour" 0 23 hour
  checkRange "minute" 0 59 minute
  checkRange "second" 0 60 second
  let leap := second == 60
  let nanosOfDay (second nanos : Nat) : Int :=
    ((3600 * hour + 60 * minute + second : Nat) : Int) * nanosPerSecond + nanos
  let onDay (timeOfDay : Int) : Instant := ofLocal (Date.dayNumber ⟨year, month, day⟩) timeOfDay offset
  if leap then
    let t := onDay (nanosOfDay 59 999999999)
    if t.endsMonth then return t else throw (.range "second")
  else
    return onDay (nanosOfDay second nanos)

/-- The instant that a text denotes, blanks around it being passed over. -/
def parse (s : String) : Except ReadError Instant :=
  (ofRfc3339 (Text.trimChars s.toList)).mapError fun why => .time why.message

/-- A number below `10 ^ width` with leading zeros. -/
def padded (width n : Nat) : String :=
  let digits := toString n
  String.ofList (List.replicate (width - digits.length) '0') ++ digits

/-- The date and the time of day to the second, as the local clock shows them. -/
def dateTimeText (t : Instant) : String :=
  let date := t.localDate
  let second := (t.timeOfDay / nanosPerSecond).toNat
  padded 4 date.year.toNat ++ "-" ++ padded 2 date.month ++ "-" ++ padded 2 date.day ++ "T" ++
    padded 2 (second / 3600) ++ ":" ++ padded 2 (second / 60 % 60) ++ ":" ++ padded 2 (second % 60)

/-- The fraction of the second with its point, without trailing zeros, and nothing if it is zero. -/
def fractionText (t : Instant) : String :=
  let nanos := (t.timeOfDay % nanosPerSecond).toNat
  if nanos = 0 then ""
  else
    let digits := (padded 9 nanos).toList
    "." ++ String.ofList ((digits.reverse.dropWhile (· == '0')).reverse)

/-- The offset: `Z` if it is zero, otherwise a sign, hours and minutes. -/
def offsetText (t : Instant) : String :=
  if t.offset = 0 then "Z"
  else
    let minutes := t.offset.natAbs / 60
    (if t.offset < 0 then "-" else "+") ++ padded 2 (minutes / 60) ++ ":" ++ padded 2 (minutes % 60)

/-- The written form on the instant's own clock, with its fraction. There is none for a year outside
0 to 9999 or an offset that is not a whole number of minutes below a day. -/
def toRfc3339? (t : Instant) : Option String :=
  let year := t.localDate.year
  if 0 ≤ year ∧ year ≤ 9999 ∧ t.offset % 60 = 0 ∧ t.offset.natAbs < 86400 then
    some (t.dateTimeText ++ t.fractionText ++ t.offsetText)
  else
    none

/-- The written form in UTC to the whole second. It is empty for a year from -9999 to -1, and there
is none at all for a year that UTC does not support. -/
def utcText? (t : Instant) : Option String :=
  let utc := t.toUtc
  if IsSupportedDay utc.localDay then
    some (if 0 ≤ utc.localDate.year then utc.dateTimeText ++ "Z" else "")
  else
    none

/-- An instant from a numeral of Unix seconds. An empty text and the number zero denote no instant. -/
def ofUnixText (s : String) : Except ReadError (Option Instant) :=
  let t := Text.trimChars s.toList
  if t = [] then .ok none
  else
    match Numeral.int64? t with
    | none => .error (.time (String.ofList t))
    | some 0 => .ok none
    | some seconds =>
      match ofUnixSeconds? seconds with
      | some instant => .ok (some instant)
      | none => .error (.time "timestamp was not in range")

end Circulation.Instant
