import Circulation.Chain.QueryError
import Circulation.Claim.Basic
import Circulation.Lock.Basic

/-!
# Queries to the chain

What a snapshot may ask the chain. Every query is answered on its own and may fail on its own.

## Main definitions

* `Circulation.Query`, `Circulation.Query.Answer` — the queries and the types of their answers.
* `Circulation.Source` — an answer, or a failure, for every query.
-/

namespace Circulation

/-- A question to the chain. -/
inductive Query where
  /-- The latest height and the time of its block. -/
  | height
  /-- The total supply of a denomination. -/
  | totalSupply (denom : String)
  /-- What the transfer escrows hold of a denomination. -/
  | escrow (denom : String)
  /-- What the community pool holds of a denomination, as a decimal numeral. -/
  | communityPool (denom : String)
  /-- The balance of an address. -/
  | balance (address denom : String)
  /-- The address of a module account. -/
  | moduleAddress (name : String)
  /-- The lock of an account. -/
  | account (address : String)
  /-- The claims of a tier, with their amounts of a denomination. -/
  | claims (tier : ClaimTier) (denom : String)
  deriving DecidableEq, Repr

/-- A height of the chain and the time of its block. -/
structure Block where
  height : Int
  time : Instant
  deriving DecidableEq, Repr

/-- What a successful query yields. -/
abbrev Query.Answer : Query → Type
  | .height => Block
  | .totalSupply _ | .escrow _ | .balance _ _ => Nat
  | .communityPool _ | .moduleAddress _ => String
  | .account _ => AccountLock
  | .claims _ _ => List ClaimRecord

/-- What a query yields: its answer, or why it has none. -/
abbrev Query.Outcome (q : Query) : Type :=
  Except QueryError q.Answer

/-- A state of the chain, as far as queries show it. -/
abbrev Source : Type :=
  (q : Query) → q.Outcome

end Circulation
