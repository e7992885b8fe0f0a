import Circulation.Double.Shortest
import Circulation.Numeral

/-!
# JSON numbers

A number is an integer of 64 bits, signed or unsigned, or a floating-point number. A literal without
point and exponent that fits such an integer is one; every other literal, `-0` among them, is a
floating-point number.

A literal is read with a significand of at most 64 bits: digits that do not fit are dropped, those
before the point being counted in the exponent. The significand is then multiplied or divided by a
power of ten, and each of these steps rounds.

## Main definitions

* `Circulation.Json.Number` — integers and floating-point numbers.
* `Circulation.Json.Number.ofLiteral` — the number that a literal denotes.
* `Circulation.Json.Number.text` — the written form of a number.
-/

namespace Circulation.Json

/-- An integer of 64 bits or a floating-point number. -/
inductive Number where
  | int (n : Int)
  | double (x : Double)
  deriving DecidableEq, Repr, Inhabited

namespace Number

/-- The parts of a literal: sign, digits before the point, digits after it, and the exponent with its
sign. -/
structure Literal where
  negative : Bool := false
  whole : List Char := []
  fraction : Option (List Char) := none
  exponent : Option (Bool × List Char) := none
  deriving DecidableEq, Repr, Inhabited

/-- The first number that an unsigned word of 64 bits does not hold. -/
def wordLimit : Nat := 18446744073709551616

/-- The significand of a list of digits after `significand`: as many digits as a word holds. The rest
of the digits is left over. -/
def significandOf (significand : Nat) : List Char → Nat × List Char
  | [] => (significand, [])
  | d :: ds =>
    let next := 10 * significand + Numeral.digitValue d
    if next < wordLimit then significandOf next ds else (significand, d :: ds)

/-- Significand and power of ten of the digits before and after the point. Digits that the
significand does not hold add to the power before the point and count for nothing after it. -/
def scaled (whole fraction : List Char) : Nat × Int :=
  let (significand, dropped) := significandOf 0 whole
  let (significand', unread) := significandOf significand fraction
  (significand', (dropped.length : Int) - (fraction.length - unread.length : Nat))

/-- A power of ten as a floating-point number. -/
def powerOfTen (k : Nat) : Double :=
  (Double.nearest? false (Nat.pow 10 k) 1).getD (Double.zero false)

/-- The floating-point number `x · 10 ^ power`, by steps of at most `10 ^ 308`. -/
def scaleDown (x : Double) (power : Nat) : Double :=
  if power ≤ 308 then x.div (powerOfTen power)
  else if x.mantissa = 0 then x
  else scaleDown (x.div (powerOfTen 308)) (power - 308)
termination_by power

/-- The floating-point number `significand · 10 ^ power`, unless it is too large. -/
def toDouble? (significand : Nat) (power : Int) : Option Double := do
  let x ← Double.nearest? false significand 1
  if power < 0 then
    return scaleDown x (-power).toNat
  else if power ≤ 308 then
    x.mul? (powerOfTen power.toNat)
  else if significand = 0 then
    return x
  else
    none

/-- The greatest exponent that is read as a number. -/
def exponentLimit : Nat := 2147483647

/-- An exponent moved to the nearest signed word of 32 bits. -/
def saturate32 (n : Int) : Int :=
  max (-2147483648) (min n 2147483647)

/-- The number of leading digits of an exponent after which it exceeds the limit, if it does. -/
def excess? (value seen : Nat) : List Char → Option Nat
  | [] => none
  | d :: ds =>
    let next := 10 * value + Numeral.digitValue d
    if exponentLimit < next then some (seen + 1) else excess? next (seen + 1) ds

/-- The floating-point number that a literal with a point or an exponent denotes, or the number of
characters at the end of the literal that remain unread when it is found to be too large. -/
def doubleOf (l : Literal) : Except Nat Double :=
  let (significand, power) := scaled l.whole (l.fraction.getD [])
  let signed (x : Double) : Double := if l.negative then x.neg else x
  match l.exponent with
  | none =>
    match toDouble? significand power with
    | some x => .ok (signed x)
    | none => .error 0
  | some (down, digits) =>
    match excess? 0 0 digits with
    | some seen =>
      if significand ≠ 0 ∧ !down then .error (digits.length - seen)
      else .ok (signed (Double.zero false))
    | none =>
      let e : Int := Numeral.ofDigits digits
      match toDouble? significand (saturate32 (if down then power - e else power + e)) with
      | some x => .ok (signed x)
      | none => .error 0

/-- The number that a literal denotes, or the number of characters at its end that remain unread when
it is found to be too large. -/
def ofLiteral (l : Literal) : Except Nat Number :=
  let n := Numeral.ofDigits l.whole
  if l.fraction = none ∧ l.exponent = none ∧ !l.negative ∧ n < wordLimit then .ok (.int n)
  else if l.fraction = none ∧ l.exponent = none ∧ l.negative ∧ 0 < n ∧ n ≤ 9223372036854775808 then
    .ok (.int (-n))
  else (doubleOf l).map .double

/-- The digits `ds` as a numeral whose first digit counts `10 ^ power`. -/
def positional (ds : List Char) (power : Int) : String :=
  if power < 0 then
    "0." ++ String.ofList (List.replicate ((-power).toNat - 1) '0' ++ ds)
  else
    let n := power.toNat + 1
    let whole := ds.take n ++ List.replicate (n - ds.length) '0'
    let fraction := ds.drop n
    String.ofList whole ++ "." ++ (if fraction = [] then "0" else String.ofList fraction)

/-- The digits `ds` with a point after the first, if there are more, and an exponent with its sign. -/
def scientific (ds : List Char) (power : Int) : String :=
  let fraction := ds.drop 1
  String.ofList (ds.take 1) ++ (if fraction = [] then "" else "." ++ String.ofList fraction) ++
    "e" ++ (if power < 0 then "-" else "+") ++ toString power.natAbs

/-- The written form of a floating-point number: its shortest decimal, positional for powers of ten
from -5 to 15 and with an exponent for others. -/
def doubleText (x : Double) : String :=
  (if x.negative then "-" else "") ++
    if x.mantissa = 0 then "0.0"
    else
      let (ds, power) := x.shortest
      if -5 ≤ power ∧ power ≤ 15 then positional ds power else scientific ds power

/-- The written form of a number. -/
def text : Number → String
  | .int n => toString n
  | .double x => doubleText x

/-- The number as a signed 64-bit word: an integer if it fits, and otherwise the integer part moved
to the nearest such word. -/
def toInt64 : Number → Int
  | .int n => if Numeral.FitsInt64 n then n else Numeral.saturate64 n
  | .double x => Numeral.saturate64 x.truncate

end Number

end Circulation.Json
