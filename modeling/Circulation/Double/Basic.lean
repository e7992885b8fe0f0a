/-!
# Binary floating-point numbers of 64 bits

The finite numbers `± m · 2 ^ e` with `m < 2 ^ 53` and `e ≥ -1074`, in the form in which `m` is at
least `2 ^ 52` or `e` is `-1074`. A quotient of natural numbers rounds to the nearest of them, and a
tie goes to the even mantissa.

## Main definitions

* `Circulation.Double` — sign, mantissa and exponent.
* `Circulation.Double.nearest?` — the number nearest to a quotient.
* `Circulation.Double.mul?`, `Circulation.Double.div` — rounded product and quotient.
* `Circulation.Double.truncate` — the integer part, toward zero.
-/

namespace Circulation

/-- The finite number `± mantissa · 2 ^ exponent`. -/
structure Double where
  negative : Bool
  mantissa : Nat
  exponent : Int
  deriving DecidableEq, Repr, Inhabited

namespace Double

/-- The least exponent. -/
def minExponent : Int := -1074

/-- The greatest exponent. -/
def maxExponent : Int := 971

/-- Zero, of either sign. -/
def zero (negative : Bool) : Double :=
  ⟨negative, 0, minExponent⟩

/-- The quotient `num / den`, divided by `2 ^ e`, as a quotient of natural numbers. -/
def scale (num den : Nat) (e : Int) : Nat × Nat :=
  if 0 ≤ e then (num, den * Nat.pow 2 e.toNat) else (num * Nat.pow 2 (-e).toNat, den)

/-- The integer nearest to `num / den`; a tie goes to the even one. -/
def roundToEven (num den : Nat) : Nat :=
  let q := num / den
  let twice := 2 * (num % den)
  if den < twice ∨ (twice = den ∧ q % 2 = 1) then q + 1 else q

/-- The exponent at which the mantissa of `num / den` has 53 bits, or the least exponent if that is
greater. -/
def exponentOf (num den : Nat) : Int :=
  let e : Int := (num.log2 : Int) - den.log2 - 53
  let (n, d) := scale num den e
  max minExponent (if Nat.pow 2 53 ≤ n / d then e + 1 else e)

/-- The number nearest to `num / den` with the given sign, unless it is too large. -/
def nearest? (negative : Bool) (num den : Nat) : Option Double :=
  if num = 0 then some (zero negative)
  else
    let e := exponentOf num den
    let (n, d) := scale num den e
    let m := roundToEven n d
    let (m, e) := if m = Nat.pow 2 53 then (Nat.pow 2 52, e + 1) else (m, e)
    if maxExponent < e then none else some ⟨negative, m, e⟩

/-- The size of a number as a quotient of natural numbers. -/
def size (x : Double) : Nat × Nat :=
  scale x.mantissa 1 (-x.exponent)

/-- The rounded product, unless it is too large. -/
def mul? (x y : Double) : Option Double :=
  let (a, b) := x.size
  let (c, d) := y.size
  nearest? (x.negative != y.negative) (a * c) (b * d)

/-- The rounded quotient by a number that is not zero; zero if the quotient is too large. -/
def div (x y : Double) : Double :=
  let (a, b) := x.size
  let (c, d) := y.size
  (nearest? (x.negative != y.negative) (a * d) (b * c)).getD (zero x.negative)

/-- The integer part of a number. -/
def truncate (x : Double) : Int :=
  let (a, b) := x.size
  if x.negative then -(a / b : Nat) else (a / b : Nat)

/-- The number with its sign changed. -/
def neg (x : Double) : Double :=
  { x with negative := !x.negative }

end Double

end Circulation
