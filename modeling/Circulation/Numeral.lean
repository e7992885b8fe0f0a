/-!
# Numerals of base 10

Texts of ASCII digits and the numbers they denote. Leading zeros are allowed when a numeral is read
and are never written.

## Main definitions

* `Circulation.Numeral.ofDigits` — the number that a list of digits denotes.
* `Circulation.Numeral.natural?` — a numeral without a sign.
* `Circulation.Numeral.integer?` — a numeral with at most one sign before it.
* `Circulation.Numeral.FitsInt64` — the numbers of a signed 64-bit word.
-/

namespace Circulation.Numeral

/-- The value of an ASCII digit. -/
def digitValue (c : Char) : Nat :=
  c.toNat - '0'.toNat

/-- The number that a list of digits denotes, the most significant first. -/
def ofDigits (ds : List Char) : Nat :=
  ds.foldl (fun n d => 10 * n + digitValue d) 0

/-- The number that a text denotes when it consists of one or more digits. -/
def natural? (cs : List Char) : Option Nat :=
  if cs ≠ [] ∧ cs.all Char.isDigit = true then some (ofDigits cs) else none

/-- The number that a text denotes when it consists of one or more digits after at most one sign. -/
def integer? : List Char → Option Int
  | '+' :: ds => (natural? ds).map Int.ofNat
  | '-' :: ds => (natural? ds).map fun n => -Int.ofNat n
  | ds => (natural? ds).map Int.ofNat

/-- The numbers of a signed 64-bit word. -/
def FitsInt64 (n : Int) : Prop :=
  -9223372036854775808 ≤ n ∧ n ≤ 9223372036854775807

instance (n : Int) : Decidable (FitsInt64 n) :=
  inferInstanceAs (Decidable (_ ∧ _))

/-- The number of a signed 64-bit word that a text denotes. -/
def int64? (cs : List Char) : Option Int :=
  (integer? cs).filter fun n => FitsInt64 n

/-- A number moved to the nearest number of a signed 64-bit word. -/
def saturate64 (n : Int) : Int :=
  max (-9223372036854775808) (min n 9223372036854775807)

/-- Saturation does not move a number that fits. -/
theorem saturate64_of_fits {n : Int} (h : FitsInt64 n) : saturate64 n = n := by
  unfold FitsInt64 at h
  unfold saturate64
  omega

/-- Saturation always yields a number that fits. -/
theorem fitsInt64_saturate64 (n : Int) : FitsInt64 (saturate64 n) := by
  unfold FitsInt64 saturate64
  omega

end Circulation.Numeral
