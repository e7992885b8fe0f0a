import Circulation.Numeral
import Circulation.ReadError
import Circulation.Text.Blank

/-!
# Amounts

Amounts of atomic units are natural numbers of any size. The chain writes them as numerals of base
10, and shares of the community pool as decimal numerals, of which the whole units count.

## Main definitions

* `Circulation.Amount.parse` — an amount from a numeral.
* `Circulation.Amount.floor` — the whole units of a decimal numeral.
* `Circulation.Amount.sum` — the sum of a list of amounts.
-/

namespace Circulation.Amount

/-- The amount that a numeral denotes. Blanks around it are allowed, signs are not. -/
def parse (s : String) : Except ReadError Nat :=
  let t := Text.trimChars s.toList
  match Numeral.natural? t with
  | some n => .ok n
  | none => .error (.amount (String.ofList t))

/-- The part of a text before its first point and the part after it. -/
def splitPoint (cs : List Char) : List Char × List Char :=
  (cs.takeWhile (· != '.'), (cs.dropWhile (· != '.')).drop 1)

/-- The whole units of a decimal numeral: digits with at most one point among them. Blanks around it
are allowed, signs are not. -/
def floor (s : String) : Except ReadError Nat :=
  let t := Text.trimChars s.toList
  let (whole, fraction) := splitPoint t
  if t ≠ [] ∧ whole.all Char.isDigit = true ∧ fraction.all Char.isDigit = true then
    .ok (Numeral.ofDigits whole)
  else
    .error (.decimal (String.ofList t))

/-- The sum of amounts. -/
def sum : List Nat → Nat
  | [] => 0
  | n :: ns => n + sum ns

end Circulation.Amount
