import Circulation.Instant.Basic

/-!
# Delayed claims

Claims fall into four tiers. What is claimed in tier `n` becomes transferable `6 n` months after the
claim.

## Main definitions

* `Circulation.ClaimTier` — the tiers, with their numbers and months.
* `Circulation.ClaimRecord` — what the chain says about one claim.
-/

namespace Circulation

/-- A tier of delayed claims. -/
inductive ClaimTier where
  | one
  | two
  | three
  | four
  deriving DecidableEq, Repr

namespace ClaimTier

/-- The number of a tier. -/
def number : ClaimTier → Nat
  | one => 1
  | two => 2
  | three => 3
  | four => 4

/-- The tier of a number. -/
def ofNumber? : Nat → Option ClaimTier
  | 1 => some one
  | 2 => some two
  | 3 => some three
  | 4 => some four
  | _ => none

/-- The months between a claim of a tier and its end. -/
def months (tier : ClaimTier) : Nat :=
  6 * tier.number

/-- All tiers, in the order of their numbers. -/
def all : List ClaimTier :=
  [one, two, three, four]

end ClaimTier

/-- One claim: the address that claimed, when it did, and the amount of the denomination that was
asked for, where the chain gives them. -/
structure ClaimRecord where
  address : String
  time : Option Instant
  amount : Option Nat
  deriving DecidableEq, Repr

end Circulation
