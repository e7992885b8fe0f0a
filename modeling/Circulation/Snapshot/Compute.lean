import Circulation.Snapshot.Basic
import Circulation.Snapshot.ETag
import Circulation.Snapshot.Entry

/-!
# Computing a snapshot

A snapshot needs the height and the total supply. Everything else is counted where it can be: the
transfer escrows and the community pool as a whole, every module account of the policy by its
balance, the accounts of the foundation, the bootstrap accounts and the claims entry by entry. What
cannot be counted is skipped and does not stop the rest.

What circulates is the total less the sum of the cohorts, and nothing if that sum is greater.

## Main definitions

* `Circulation.Single` — a cohort that is counted as one, or why it is skipped.
* `Circulation.Findings` — what every entry comes to; `Circulation.Findings.gather` evaluates them.
* `Circulation.Outcome` — the cohorts that are counted, with their amounts, and what is skipped;
  `Circulation.Findings.outcome` is the outcome of all entries.
* `Circulation.Snapshot.ofOutcome` — the snapshot of an outcome.
* `Circulation.Snapshot.compute` — the program that computes a snapshot.
-/

namespace Circulation

open Program

/-- Why there is no snapshot. -/
inductive ComputeError where
  | height (why : QueryError)
  | totalSupply (why : QueryError)
  deriving DecidableEq, Repr

/-- The text that reports why there is no snapshot. -/
def ComputeError.message : ComputeError → String
  | .height why => "latest height: " ++ why.message
  | .totalSupply why => "total supply: " ++ why.message

/-- What a group of holdings comes to: cohorts with their amounts, and what is skipped. -/
structure Outcome where
  counted : List (Cohort × Nat)
  skipped : List Skip
  deriving DecidableEq, Repr

/-- A cohort that is counted as one, with its amount, or why it is skipped. -/
abbrev Single : Type :=
  Except Skip (Cohort × Nat)

/-- The name and the reason of a cohort. -/
structure CohortLabel where
  name : String
  reason : String
  deriving DecidableEq, Repr

namespace CohortLabel

def escrow : CohortLabel := ⟨"ibc_escrow", "ICS20 transfer escrows"⟩

def communityPool : CohortLabel := ⟨"community_pool", "distribution community pool"⟩

def moduleAccount (name : String) : CohortLabel :=
  ⟨"module:" ++ name, "protocol-controlled module account"⟩

def foundation : CohortLabel :=
  ⟨"foundation_genesis", "protocol/foundation vesting locked portion"⟩

def bootstraps : CohortLabel :=
  ⟨"supernode_bootstraps", "protocol supernode bootstrap locks"⟩

def claims : CohortLabel :=
  ⟨"claim_delayed", "claim module delayed locks (6/12/18/24m), on-chain vesting preferred"⟩

end CohortLabel

namespace Outcome

/-- The outcome of a single cohort. -/
def ofSingle : Single → Outcome
  | .ok counted => ⟨[counted], []⟩
  | .error skip => ⟨[], [skip]⟩

/-- The outcomes of a list as one. -/
def concat (outcomes : List Outcome) : Outcome :=
  ⟨outcomes.flatMap (·.counted), outcomes.flatMap (·.skipped)⟩

/-- The sum of the amounts of the cohorts. -/
def sum (o : Outcome) : Nat :=
  Amount.sum (o.counted.map (·.2))

/-- The item of an entry, with its amount, if the entry has a portion. -/
def item? (e : Entry) : Option (CohortItem × Nat) :=
  match e.result with
  | .ok portion => some (⟨e.address.getD "", toString portion.amount, portion.stop⟩, portion.amount)
  | .error _ => none

/-- What an entry is skipped for, if it has no portion. -/
def skip? (cohort : String) (e : Entry) : Option Skip :=
  match e.result with
  | .ok _ => none
  | .error why => some ⟨cohort, e.address, why.message⟩

/-- The cohort of items with their amounts. -/
def cohortOf (label : CohortLabel) (items : List (CohortItem × Nat)) : Cohort × Nat :=
  let sum := Amount.sum (items.map (·.2))
  (⟨label.name, label.reason, none, if items = [] then none else some (items.map (·.1)),
    toString sum⟩, sum)

/-- The outcome of the entries of a cohort of several accounts: the cohort if it is `listed`, and the
entries that are skipped. -/
def ofEntries (label : CohortLabel) (listed : Bool) (entries : List Entry) : Outcome :=
  ⟨if listed then [cohortOf label (entries.filterMap item?)] else [],
    entries.filterMap (skip? label.name)⟩

end Outcome

namespace Single

open CohortLabel

/-- A cohort that is counted as a whole. -/
def aggregate (label : CohortLabel) (amount : Nat) : Cohort × Nat :=
  (⟨label.name, label.reason, none, none, toString amount⟩, amount)

/-- What the transfer escrows come to. -/
def ofEscrow (denom : String) : Asking Single := do
  match ← Asking.escrow denom with
  | .error why => return .error ⟨escrow.name, none, (SkipCause.query why).message⟩
  | .ok amount => return .ok (aggregate escrow amount)

/-- What the community pool comes to: its whole units. -/
def ofCommunityPool (denom : String) : Asking Single := do
  match ← Asking.communityPool denom with
  | .error why => return .error ⟨communityPool.name, none, (SkipCause.query why).message⟩
  | .ok raw =>
    match Amount.floor raw with
    | .error why => return .error ⟨communityPool.name, none, (SkipCause.decimal why).message⟩
    | .ok amount => return .ok (aggregate communityPool amount)

/-- What a module account comes to: its balance. -/
def ofModule (denom name : String) : Asking Single := do
  let label := moduleAccount name
  match ← Asking.moduleAddress name with
  | .error why => return .error ⟨label.name, none, (SkipCause.resolve why).message⟩
  | .ok address =>
    match ← Asking.balance address denom with
    | .error why => return .error ⟨label.name, some address, (SkipCause.balance why).message⟩
    | .ok amount =>
      return .ok (⟨label.name, label.reason, some address, none, toString amount⟩, amount)

end Single

/-- What every entry of a snapshot comes to. -/
structure Findings where
  /-- The transfer escrows, the community pool and the module accounts. -/
  singles : List Single
  foundation : List Entry
  bootstraps : List Entry
  /-- The entries of the delayed claims, tier by tier. -/
  claims : List (List Entry)

namespace Findings

/-- The program that evaluates every entry under a policy at an instant. -/
def gather (policy : Policy) (denom : String) (now : Instant) : Asking Findings := do
  let escrow ← Single.ofEscrow denom
  let communityPool ← Single.ofCommunityPool denom
  let modules ← forEach (Single.ofModule denom) policy.modules
  let foundation ← forEach (Entry.ofFoundation denom now) policy.foundation
  let bootstraps ← forEach (Entry.ofBootstrap denom now) policy.bootstraps
  let claims ← forEach (Entry.ofTier denom now) ClaimTier.all
  return ⟨escrow :: communityPool :: modules, foundation, bootstraps, claims⟩

/-- The outcome of all entries. The accounts of the foundation and the bootstrap accounts are a cohort
if there are any, and the claims are one if some claim has an item. -/
def outcome (f : Findings) : Outcome :=
  .concat (f.singles.map .ofSingle ++ [
    .ofEntries .foundation (!f.foundation.isEmpty) f.foundation,
    .ofEntries .bootstraps (!f.bootstraps.isEmpty) f.bootstraps,
    .ofEntries .claims (!(f.claims.flatten.filterMap Outcome.item?).isEmpty) f.claims.flatten])

end Findings

namespace Snapshot

/-- What circulates of a total, given the sum of what does not. -/
def circulatingOf (total sum : Nat) : Nat :=
  if sum ≤ total then total - sum else 0

/-- The snapshot of a block, a total and the outcome of all cohorts. -/
def ofOutcome (policy : Policy) (policyEtag : Option String) (denom : String) (block : Block)
    (total : Nat) (o : Outcome) : Snapshot :=
  let circulating := toString (circulatingOf total o.sum)
  let sum := toString o.sum
  { denom
    height := block.height
    updatedAt := block.time
    etag := ETag.ofFigures denom (toString total) circulating sum block.height
    policyEtag
    total := toString total
    circulating
    max := policy.maxSupply
    nonCirculating := ⟨sum, o.counted.map (·.1)⟩
    skipped := o.skipped }

/-- Notes what is skipped, and that a snapshot is complete. -/
def report (total : Nat) (o : Outcome) (snapshot : Snapshot) : Asking Unit := do
  let _ ← forEach
    (fun (s : Skip) => mention (.entrySkipped s.cohort (s.address.getD "") s.reason)) o.skipped
  mentionIf (total < o.sum) (.supplyExceeded snapshot.denom total o.sum)
  mention (.computed snapshot.denom snapshot.height snapshot.total snapshot.circulating
    snapshot.nonCirculating.sum snapshot.nonCirculating.cohorts.length snapshot.skipped.length)

/-- The program that computes the snapshot of a denomination under a policy with the given
fingerprint. -/
def compute (policy : Policy) (policyEtag : Option String) (denom : String) :
    Asking (Except ComputeError Snapshot) := do
  match ← Asking.height with
  | .error why => return .error (.height why)
  | .ok block =>
    match ← Asking.totalSupply denom with
    | .error why => return .error (.totalSupply why)
    | .ok total =>
      mention (.computing denom block.height total)
      let findings ← Findings.gather policy denom block.time
      let snapshot := ofOutcome policy policyEtag denom block total findings.outcome
      report total findings.outcome snapshot
      return .ok snapshot

end Snapshot

end Circulation
