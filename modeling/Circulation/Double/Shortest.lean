import Circulation.Double.Basic

/-!
# The shortest decimal of a floating-point number

The decimal numeral with the fewest digits among those that round to a given number; of two such
numerals of that length, the one nearer to the number. The decimals that round to `m · 2 ^ e` fill
the interval between the midpoints to the two neighbours, ends included exactly when `m` is even.
On the grid of decimals with `n` digits only the two neighbours of the number have to be tried.

## Main definitions

* `Circulation.Double.Interval` — the decimals that round to a number.
* `Circulation.Double.shortest` — digits and exponent of the shortest decimal.
-/

namespace Circulation.Double

/-- The number of digits of a natural number in base 10. -/
def digitCount (n : Nat) : Nat :=
  (Nat.toDigits 10 n).length

/-- The exponent `k` with `10 ^ k ≤ num / den < 10 ^ (k + 1)`, for positive `num` and `den`. -/
def decimalExponent (num den : Nat) : Int :=
  if den ≤ num then (digitCount (num / den) : Int) - 1
  else -(digitCount ((den - 1) / num) : Int)

/-- Whether `digits · 10 ^ power` compares with `num / den` as `holds` says. -/
def compareDecimal (holds : Nat → Nat → Bool) (digits : Nat) (power : Int) (num den : Nat) : Bool :=
  if 0 ≤ power then holds (digits * Nat.pow 10 power.toNat * den) num
  else holds (digits * den) (num * Nat.pow 10 (-power).toNat)

/-- Whether the decimal `digits · 10 ^ power` rounds to the size of `x`. -/
def roundsTo (x : Double) (digits : Nat) (power : Int) : Bool :=
  let narrow := x.mantissa == Nat.pow 2 52 && minExponent < x.exponent
  let (low, lowDen) := scale (4 * x.mantissa - if narrow then 1 else 2) 4 (-x.exponent)
  let (high, highDen) := scale (4 * x.mantissa + 2) 4 (-x.exponent)
  if x.mantissa % 2 = 0 then
    compareDecimal (fun a b => b ≤ a) digits power low lowDen &&
      compareDecimal (fun a b => a ≤ b) digits power high highDen
  else
    compareDecimal (fun a b => b < a) digits power low lowDen &&
      compareDecimal (fun a b => a < b) digits power high highDen

/-- The better of the two neighbours of `x` among the multiples of `10 ^ power`, if one rounds to
`x`. -/
def neighbour? (x : Double) (power : Int) : Option Nat :=
  let (num, den) := x.size
  let (n, d) :=
    if 0 ≤ power then (num, den * Nat.pow 10 power.toNat) else (num * Nat.pow 10 (-power).toNat, den)
  let below := n / d
  let twice := 2 * (n % d)
  match roundsTo x below power, roundsTo x (below + 1) power with
  | true, true => some (if d < twice ∨ (twice = d ∧ below % 2 = 1) then below + 1 else below)
  | true, false => some below
  | false, true => some (below + 1)
  | false, false => none

/-- The first hit among the grids of `count`, `count + 1`, … digits, and the multiple of
`10 ^ power` below `x` if there is none. -/
def shortestFrom (x : Double) (power : Int) : Nat → Nat × Int
  | 0 =>
    ((neighbour? x power).getD 0, power)
  | tries + 1 =>
    match neighbour? x power with
    | some digits => (digits, power)
    | none => shortestFrom x (power - 1) tries

/-- The shortest decimal of a number that is not zero: its digits without trailing zeros, as
characters, and the power of ten of the first digit. -/
def shortest (x : Double) : List Char × Int :=
  let (num, den) := x.size
  let (digits, power) := shortestFrom x (decimalExponent num den) 16
  let text := Nat.toDigits 10 digits
  ((text.reverse.dropWhile (· == '0')).reverse, power + text.length - 1)

end Circulation.Double
