import Circulation.Amount
import Circulation.Instant.Basic

/-!
# Policies

A policy names what does not circulate: module accounts, accounts of the foundation and bootstrap
accounts. The transfer escrows, the community pool and the delayed claims are counted under every
policy, and ordinary locked accounts under none.

## Main definitions

* `Circulation.FoundationEntry`, `Circulation.BootstrapEntry`, `Circulation.Policy`.
* `Circulation.Policy.Flaw` — the conditions that a policy may violate.
* `Circulation.Policy.firstFlaw?` — the first condition that a policy violates.
-/

namespace Circulation

/-- An account of the foundation. -/
structure FoundationEntry where
  name : String
  address : String
  reason : Option String
  custody : Option String
  deriving DecidableEq, Repr

/-- A bootstrap account. The lock of the account on the chain comes first; where it holds nothing the
hints count: `permanent`, then `months` from `startTime` or else from the time of the block, then
`endTime`. -/
structure BootstrapEntry where
  name : Option String
  address : String
  permanent : Bool
  months : Option Nat
  startTime : Option Instant
  endTime : Option Instant
  deriving DecidableEq, Repr

/-- What does not circulate. -/
structure Policy where
  /-- The greatest supply that the chain allows, reported as it stands. -/
  maxSupply : Option String
  /-- Names of module accounts. -/
  modules : List String
  foundation : List FoundationEntry
  bootstraps : List BootstrapEntry
  deriving DecidableEq, Repr

namespace Policy

/-- The policy that names nothing. -/
def empty : Policy :=
  ⟨none, [], [], []⟩

/-- Whether a policy names no account. -/
def isEmpty (p : Policy) : Bool :=
  p.modules.isEmpty && p.foundation.isEmpty && p.bootstraps.isEmpty

/-- A condition that a policy violates, with the index of the entry that violates it. -/
inductive Flaw where
  | maxSupply (text : String)
  | moduleName (index : Nat)
  | foundationName (index : Nat)
  | foundationAddress (index : Nat)
  | bootstrapAddress (index : Nat)
  | bootstrapMonths (index : Nat)
  deriving DecidableEq, Repr

/-- The text that reports a violated condition. -/
def Flaw.message : Flaw → String
  | .maxSupply text => "max_supply " ++ Text.quote text ++ " is not an integer"
  | .moduleName i => "module_accounts[" ++ toString i ++ "] is empty"
  | .foundationName i =>
    "disclosed_lockups.foundation_genesis[" ++ toString i ++ "] missing name"
  | .foundationAddress i =>
    "disclosed_lockups.foundation_genesis[" ++ toString i ++ "] missing address"
  | .bootstrapAddress i =>
    "disclosed_lockups.supernode_bootstraps[" ++ toString i ++ "] missing address"
  | .bootstrapMonths i =>
    "disclosed_lockups.supernode_bootstraps[" ++ toString i ++ "] duration_months must be positive"

/-- The first flaw of a list, where `flaw?` says what is wrong with the item of an index. -/
def firstIn? {α : Type} (flaw? : Nat → α → Option Flaw) (index : Nat) : List α → Option Flaw
  | [] => none
  | a :: as => (flaw? index a).or (firstIn? flaw? (index + 1) as)

/-- A greatest supply has to be an amount. -/
def maxSupplyFlaw? (p : Policy) : Option Flaw :=
  p.maxSupply.bind fun text =>
    match Amount.parse text with
    | .ok _ => none
    | .error _ => some (.maxSupply text)

/-- A module name has to have a character that is not blank. -/
def moduleFlaw? (index : Nat) (name : String) : Option Flaw :=
  if Text.trimChars name.toList = [] then some (.moduleName index) else none

/-- An account of the foundation has to have a name and an address. -/
def foundationFlaw? (index : Nat) (e : FoundationEntry) : Option Flaw :=
  if e.name = "" then some (.foundationName index)
  else if e.address = "" then some (.foundationAddress index)
  else none

/-- A bootstrap account has to have an address, and its months must not be zero. -/
def bootstrapFlaw? (index : Nat) (e : BootstrapEntry) : Option Flaw :=
  if e.address = "" then some (.bootstrapAddress index)
  else if e.months = some 0 then some (.bootstrapMonths index)
  else none

/-- The first condition that a policy violates, if it violates one. -/
def firstFlaw? (p : Policy) : Option Flaw :=
  p.maxSupplyFlaw?.or <|
    (firstIn? moduleFlaw? 0 p.modules).or <|
      (firstIn? foundationFlaw? 0 p.foundation).or <|
        firstIn? bootstrapFlaw? 0 p.bootstraps

end Policy

end Circulation
