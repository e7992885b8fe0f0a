import Circulation.Chain.Query
import Circulation.Event
import Circulation.Lock.Evaluation
import Circulation.Policy.Basic
import Circulation.Program

/-!
# Entries of a cohort

A cohort of several accounts has an entry for each account. The entry is the portion that the account
holds locked, or the reason for which it is skipped. The lock of the account on the chain comes
first:

* an account of the foundation has nothing else;
* a bootstrap account falls back on the hints of the policy where its lock holds nothing or is not
  known, and keeps what the lock says where the hints fail;
* a claim falls back on its own record where the lock of its address is not known.

## Main definitions

* `Circulation.SkipCause` — why an entry is skipped.
* `Circulation.Asking` — programs that ask the chain.
* `Circulation.Entry.onChain`, `Circulation.Entry.ofFoundation`, `Circulation.Entry.ofBootstrap`,
  `Circulation.Entry.ofClaim` — the portions of the three kinds of entries.
-/

namespace Circulation

/-- Why the portion of an account's lock is not known. -/
inductive LockFailure where
  /-- The account cannot be read. -/
  | account (why : QueryError)
  /-- The lock of the account cannot be evaluated. -/
  | lock (why : LockError)
  deriving DecidableEq, Repr

/-- The text that reports why a portion is not known. -/
def LockFailure.message : LockFailure → String
  | .account why => "account: " ++ why.message
  | .lock why => "lock: " ++ why.message

/-- Why the hints of a bootstrap account yield no portion. -/
inductive HintFailure where
  /-- The months end out of the supported years. -/
  | months (why : ReadError)
  /-- The balance of the account is not known. -/
  | balance (why : QueryError)
  deriving DecidableEq, Repr

/-- The text that reports why hints yield no portion. -/
def HintFailure.message : HintFailure → String
  | .months why => "duration: " ++ why.message
  | .balance why => "balance: " ++ why.message

/-- Why a cohort, or an entry of one, is skipped. -/
inductive SkipCause where
  /-- The amount of the cohort is not known. -/
  | query (why : QueryError)
  /-- The amount of the cohort is no decimal numeral. -/
  | decimal (why : ReadError)
  /-- The address of a module account is not known. -/
  | resolve (why : QueryError)
  /-- The balance of a module account is not known. -/
  | balance (why : QueryError)
  /-- The claims of a tier are not known. -/
  | tier (t : ClaimTier) (why : QueryError)
  /-- The lock of the account is not known, and there is nothing to fall back on. -/
  | lock (why : LockFailure)
  /-- Neither the lock of a bootstrap account nor its hints yield a portion. -/
  | hint (onChain : LockFailure) (why : HintFailure)
  /-- The months of a claim end out of the supported years. -/
  | claimMonths (why : ReadError)
  /-- Neither the lock of a claim's address nor its balance is known. -/
  | claimBalance (onChain : LockFailure) (why : QueryError)
  deriving DecidableEq, Repr

/-- The text that reports why an entry is skipped. -/
def SkipCause.message : SkipCause → String
  | .query why => why.message
  | .decimal why => why.message
  | .resolve why => "resolve: " ++ why.message
  | .balance why => "balance: " ++ why.message
  | .tier t why => "tier " ++ toString t.number ++ ": " ++ why.message
  | .lock why => why.message
  | .hint onChain why => onChain.message ++ "; fallback " ++ why.message
  | .claimMonths why => "claim window: " ++ why.message
  | .claimBalance onChain why => onChain.message ++ "; balance: " ++ why.message

/-- A program that asks the chain. -/
abbrev Asking : Type → Type :=
  Program Query Query.Outcome Event

namespace Asking

/-- Asks for the height. -/
def height : Asking (Except QueryError Block) :=
  .ask .height .done

/-- Asks for the total supply. -/
def totalSupply (denom : String) : Asking (Except QueryError Nat) :=
  .ask (.totalSupply denom) .done

/-- Asks what the transfer escrows hold. -/
def escrow (denom : String) : Asking (Except QueryError Nat) :=
  .ask (.escrow denom) .done

/-- Asks what the community pool holds. -/
def communityPool (denom : String) : Asking (Except QueryError String) :=
  .ask (.communityPool denom) .done

/-- Asks for a balance. -/
def balance (address denom : String) : Asking (Except QueryError Nat) :=
  .ask (.balance address denom) .done

/-- Asks for the address of a module account. -/
def moduleAddress (name : String) : Asking (Except QueryError String) :=
  .ask (.moduleAddress name) .done

/-- Asks for the lock of an account. -/
def account (address : String) : Asking (Except QueryError AccountLock) :=
  .ask (.account address) .done

/-- Asks for the claims of a tier. -/
def claims (tier : ClaimTier) (denom : String) : Asking (Except QueryError (List ClaimRecord)) :=
  .ask (.claims tier denom) .done

end Asking

/-- What the evaluation of an account, or of a whole list of accounts, comes to. -/
structure Entry where
  /-- The address of the account, unless a whole list failed. -/
  address : Option String
  result : Except SkipCause Portion

namespace Entry

open Program

/-- The portion that the lock of an account holds. -/
def onChain (denom : String) (now : Instant) (address : String) :
    Asking (Except LockFailure Portion) := do
  match ← Asking.account address with
  | .error why => return .error (.account why)
  | .ok lock =>
    mentionIf (lock.isUnrecognised denom) (.lockUnrecognised lock.typeUrl)
    return (lock.lockedAt denom now).mapError .lock

/-- The entry of an account of the foundation. -/
def ofFoundation (denom : String) (now : Instant) (e : FoundationEntry) : Asking Entry := do
  let portion ← onChain denom now e.address
  return ⟨e.address, portion.mapError .lock⟩

/-- The end date by the first hint that a bootstrap account has, if it has one. -/
def hintedEnd? (now : Instant) (e : BootstrapEntry) : Option (Except ReadError EndDate) :=
  if e.permanent then some (.ok .forever)
  else
    match e.months, e.endTime with
    | some months, _ => some (((e.startTime.getD now).addMonths months).map .at)
    | none, some t => some (.ok (.at t))
    | none, none => none

/-- The part of a balance that is locked until an end date. -/
def untilEnd (balance : Nat) (now : Instant) (stop : EndDate) : Portion :=
  match stop with
  | .at t => ⟨Schedule.delayed balance now t, stop⟩
  | _ => ⟨balance, stop⟩

/-- The portion by the first hint that a bootstrap account has, if it has one. -/
def hinted (denom : String) (now : Instant) (e : BootstrapEntry) :
    Asking (Option (Except HintFailure Portion)) := do
  match hintedEnd? now e with
  | none => return none
  | some (.error why) => return some (.error (.months why))
  | some (.ok stop) =>
    match ← Asking.balance e.address denom with
    | .error why => return some (.error (.balance why))
    | .ok balance => return some (.ok (untilEnd balance now stop))

/-- The portion of a bootstrap account, from what its lock and its hints say. -/
def preferOnChain (onChain : Except LockFailure Portion)
    (hint : Option (Except HintFailure Portion)) : Except SkipCause Portion :=
  match onChain, hint with
  | _, some (.ok portion) => .ok portion
  | .ok portion, _ => .ok portion
  | .error why, some (.error whyHint) => .error (.hint why whyHint)
  | .error why, none => .error (.lock why)

/-- Whether the lock of an account holds something. -/
def holdsSomething (onChain : Except LockFailure Portion) : Bool :=
  match onChain with
  | .ok portion => portion.amount != 0
  | .error _ => false

/-- The entry of a bootstrap account. -/
def ofBootstrap (denom : String) (now : Instant) (e : BootstrapEntry) : Asking Entry := do
  let portion ← onChain denom now e.address
  if holdsSomething portion then
    return ⟨e.address, portion.mapError .lock⟩
  else
    let hint ← hinted denom now e
    return ⟨e.address, preferOnChain portion hint⟩

/-- The amount of a claim: that of its record, or else the balance of its address. -/
def claimAmount (denom : String) (record : ClaimRecord) (onChain : LockFailure) :
    Asking (Except SkipCause Nat) := do
  match record.amount with
  | some amount => return .ok amount
  | none =>
    let balance ← Asking.balance record.address denom
    return balance.mapError (.claimBalance onChain)

/-- The portion of a claim by its record. -/
def ofRecord (denom : String) (now : Instant) (tier : ClaimTier) (record : ClaimRecord)
    (onChain : LockFailure) : Asking (Except SkipCause Portion) := do
  match (record.time.getD now).addMonths tier.months with
  | .error why => return .error (.claimMonths why)
  | .ok stop =>
    let amount ← claimAmount denom record onChain
    return amount.map fun amount => untilEnd amount now (.at stop)

/-- The entry of a claim. -/
def ofClaim (denom : String) (now : Instant) (tier : ClaimTier) (record : ClaimRecord) :
    Asking Entry := do
  match ← onChain denom now record.address with
  | .ok portion => return ⟨record.address, .ok portion⟩
  | .error why =>
    mention (.claimTakenFromRecord record.address tier.number why.message)
    let portion ← ofRecord denom now tier record why
    return ⟨record.address, portion⟩

/-- The entries of a tier of claims: one for each claim, or a single one if they are not known. -/
def ofTier (denom : String) (now : Instant) (tier : ClaimTier) : Asking (List Entry) := do
  match ← Asking.claims tier denom with
  | .error why => return [⟨none, .error (.tier tier why)⟩]
  | .ok records => forEach (ofClaim denom now tier) records

end Entry

end Circulation
