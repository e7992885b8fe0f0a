import Circulation.EndDate

/-!
# Snapshots

A snapshot is the breakdown of the supply of one denomination at one height: the total, what does not
circulate, cohort by cohort, and what circulates. Amounts are numerals of base 10. What could not be
evaluated is listed as skipped, with the reason.

## Main definitions

* `Circulation.Snapshot` — a snapshot.
* `Circulation.Cohort`, `Circulation.CohortItem`, `Circulation.Skip` — its parts.
-/

namespace Circulation

/-- The locked amount of one address. -/
structure CohortItem where
  address : String
  amount : String
  endDate : EndDate
  deriving DecidableEq, Repr

/-- A group of holdings that do not circulate. -/
structure Cohort where
  name : String
  reason : String
  /-- The address of a cohort of a single account. -/
  address : Option String
  /-- The parts of a cohort of several accounts, whose amounts the cohort's amount sums up. -/
  items : Option (List CohortItem)
  amount : String
  deriving DecidableEq, Repr

/-- A cohort, or an address of one, that is left out. -/
structure Skip where
  cohort : String
  address : Option String
  reason : String
  deriving DecidableEq, Repr

/-- The cohorts that do not circulate and the sum of their amounts. -/
structure NonCirculating where
  sum : String
  cohorts : List Cohort
  deriving DecidableEq, Repr

/-- The supply of a denomination at a height. -/
structure Snapshot where
  denom : String
  height : Int
  /-- The time of the block at the height. -/
  updatedAt : Instant
  etag : String
  /-- The fingerprint of the policy that chose the cohorts. -/
  policyEtag : Option String
  total : String
  circulating : String
  /-- The greatest supply that the policy states. -/
  max : Option String
  nonCirculating : NonCirculating
  skipped : List Skip
  deriving DecidableEq, Repr

end Circulation
