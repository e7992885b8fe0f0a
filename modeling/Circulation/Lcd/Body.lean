import Circulation.Claim.Listing
import Circulation.Json.Record
import Circulation.Chain.Query
import Circulation.Lock.Account

/-!
# Response bodies

The answer to a query from the body of a response. Each query has an envelope of its own, and members
that the envelope does not name are passed over.

## Main definitions

* `Circulation.Lcd.answerOf` — the answer to a query from a body.
-/

namespace Circulation.Lcd

open Json

/-- What an envelope denotes. -/
def open? {α : Type} (d : Decoder α) (body : String) : Except QueryError α :=
  (d.ofText body).mapError .decode

/-- A part of an envelope that has to be there. -/
def present {α : Type} (field : String) : Option α → Except QueryError α
  | some a => .ok a
  | none => .error (.missing field)

/-- The decoder of a record with a single field. -/
def single {α : Type} (r : Record α) (name : String) : Decoder α :=
  r.decoder name

/-- The decoder of an amount within an envelope. -/
def amountDecoder : Decoder String :=
  single (Record.required "amount" Decoder.string) "AmountInner"

/-- The decoder of the latest block: height and time. -/
def blockDecoder : Decoder (String × String) :=
  let header :=
    (Prod.mk <$> Record.required "height" Decoder.string
      <*> Record.required "time" Decoder.string).decoder "Header"
  single (Record.required "block" (single (Record.required "header" header) "Block")) "LatestBlock"

/-- The latest block. A height that is no signed 64-bit numeral is reported as it stands. -/
def blockOf (body : String) : Except QueryError Block := do
  let (height, time) ← open? blockDecoder body
  match Numeral.int64? (Text.trimChars height.toList) with
  | none => throw (.unreadable (.amount height))
  | some height =>
    let time ← (Instant.parse time).mapError QueryError.unreadable
    return ⟨height, time⟩

/-- The amount under a field of an envelope. -/
def amountOf (field name body : String) : Except QueryError Nat := do
  let inner ← open? (single (Record.nullable field amountDecoder) name) body
  let text ← present field inner
  (Amount.parse text).mapError .unreadable

/-- The decoder of what the community pool holds. -/
def poolDecoder : Decoder (List Coin) :=
  let coin :=
    (Coin.mk <$> Record.required "denom" Decoder.string
      <*> Record.required "amount" Decoder.string).decoder "DecCoin"
  single (Record.defaulted "pool" (.list coin) []) "CommunityPool"

/-- What the community pool holds of a denomination: the first coin's amount, or zero. -/
def poolOf (denom body : String) : Except QueryError String := do
  let coins ← open? poolDecoder body
  return (Coin.amountTextOf? coins denom).getD "0"

/-- The decoder of a module account: the address of its base account. -/
def moduleDecoder : Decoder (Option String) :=
  let base := single (Record.required "address" Decoder.string) "BaseAccount"
  single (Record.required "account"
    (single (Record.nullable "base_account" base) "ModuleAccount")) "ModuleAccountEnvelope"

/-- The address of a module account, which must not be empty. -/
def moduleOf (body : String) : Except QueryError String := do
  let address ← open? moduleDecoder body
  present "account.base_account.address" (address.filter (· ≠ ""))

/-- The lock of an account. -/
def accountOf (body : String) : Except QueryError AccountLock := do
  let account ← open? (single (Record.required "account" Decoder.value) "AccountEnvelope") body
  AccountLock.ofJson account

/-- The answer to a query from the body of a response. -/
def answerOf : (q : Query) → String → q.Outcome
  | .height, body => blockOf body
  | .totalSupply _, body => amountOf "amount" "AmountEnvelope" body
  | .escrow _, body => amountOf "amount" "AmountEnvelope" body
  | .communityPool denom, body => poolOf denom body
  | .balance _ _, body => amountOf "balance" "BalanceEnvelope" body
  | .moduleAddress _, body => moduleOf body
  | .account _, body => accountOf body
  | .claims _ denom, body => (ClaimRecord.listOfText denom body).mapError .decode

end Circulation.Lcd
