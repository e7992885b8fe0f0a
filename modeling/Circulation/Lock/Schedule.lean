import Circulation.Amount
import Circulation.Instant.Basic

/-!
# How locks open

The amount that is locked at an instant, for each way in which a lock opens. Amounts are natural
numbers, and the part of an amount that is locked is rounded down.

## Main definitions

* `Circulation.Schedule.delayed`, `Circulation.Schedule.continuous`,
  `Circulation.Schedule.periodic`, `Circulation.Schedule.clawback`,
  `Circulation.Schedule.permanent` — the locked amounts.
* `Circulation.Schedule.Tranche` — an amount that opens at an instant.
-/

namespace Circulation.Schedule

/-- All of `total` before `stop`, and nothing from `stop` on. -/
def delayed (total : Nat) (now stop : Instant) : Nat :=
  if now.nanos < stop.nanos then total else 0

/-- All of `total` before `start`, nothing from `stop` on, and between them the share of `total` that
the time left has in the whole time. Nothing is locked if `stop` does not come after `start`. -/
def continuous (total : Nat) (now start stop : Instant) : Nat :=
  if stop.nanos ≤ start.nanos ∨ stop.nanos ≤ now.nanos then 0
  else if now.nanos < start.nanos then total
  else total * (stop.nanos - now.nanos).toNat / (stop.nanos - start.nanos).toNat

/-- An amount that opens at an instant. -/
structure Tranche where
  stop : Instant
  amount : Nat
  deriving DecidableEq, Repr

/-- The sum of the tranches that open after `now`. -/
def periodic (tranches : List Tranche) (now : Instant) : Nat :=
  Amount.sum ((tranches.filter fun t => now.nanos < t.stop.nanos).map (·.amount))

/-- All of `total` before `cliff`, and as `continuous` says from `cliff` on. -/
def clawback (total : Nat) (now start cliff stop : Instant) : Nat :=
  if now.nanos < cliff.nanos then total else continuous total now start stop

/-- All of `total` at any time. -/
def permanent (total : Nat) : Nat :=
  total

end Circulation.Schedule
