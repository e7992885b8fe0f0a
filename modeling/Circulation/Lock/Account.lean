import Circulation.Chain.QueryError
import Circulation.Instant.Rfc3339
import Circulation.Json.Record
import Circulation.Lock.Basic

/-!
# Decoding accounts

An account of the chain as a JSON object. Times and lengths are numerals of seconds or texts of RFC
3339, and either strings or numbers; a value of any other kind counts as absent. Absent lists are
empty.

## Main definitions

* `Circulation.Coin.decoder` — a coin.
* `Circulation.AccountLock.ofJson` — the lock of an account.
-/

namespace Circulation

open Json

/-- The decoder of a coin. -/
def Coin.decoder : Decoder Coin :=
  (Coin.mk <$> Record.required "denom" Decoder.string
    <*> Record.required "amount" Decoder.string).decoder "Coin"

namespace AccountLock

/-- The decoder of a text that may be written as a number. Anything else counts as absent. -/
def textOrNumber : Decoder (Option String) := fun n =>
  (Decoder.value n).map fun
    | .string s => some s
    | .number x => some x.text
    | _ => none

/-- The parts of a period. -/
structure PeriodParts where
  length : Option String
  coins : Option (List Coin)

/-- The decoder of a period. -/
def PeriodParts.decoder : Decoder PeriodParts :=
  (PeriodParts.mk <$> Record.defaulted "length" textOrNumber none
    <*> Record.defaulted "amount" (.optional (.list Coin.decoder)) none).decoder "RawPeriod"

/-- The parts of the base of a locked account. -/
structure BaseParts where
  grantedCoins : Option (List Coin)
  endTime : Option String

/-- The decoder of the base of a locked account. -/
def BaseParts.decoder : Decoder BaseParts :=
  (BaseParts.mk <$> Record.defaulted "original_vesting" (.optional (.list Coin.decoder)) none
    <*> Record.defaulted "end_time" textOrNumber none).decoder "RawBaseVesting"

/-- The parts of an account. -/
structure AccountParts where
  typeUrl : String
  base : Option BaseParts
  startTime : Option String
  vestingPeriods : Option (List PeriodParts)
  lockupPeriods : Option (List PeriodParts)

/-- The decoder of an account. -/
def AccountParts.decoder : Decoder AccountParts :=
  (AccountParts.mk <$> Record.defaulted "@type" Decoder.string ""
    <*> Record.defaulted "base_vesting_account" (.optional BaseParts.decoder) none
    <*> Record.defaulted "start_time" textOrNumber none
    <*> Record.defaulted "vesting_periods" (.optional (.list PeriodParts.decoder)) none
    <*> Record.defaulted "lockup_periods" (.optional (.list PeriodParts.decoder)) none).decoder
      "RawAccount"

/-- The instant of a time of an account: seconds since the epoch or a text of RFC 3339. An absent or
blank text and the number zero denote no instant. -/
def timeOf (text : Option String) : Except ReadError (Option Instant) :=
  match text.map fun s => Text.trimChars s.toList with
  | none | some [] => .ok none
  | some t =>
    let t := String.ofList t
    match Instant.ofUnixText t with
    | .ok instant => .ok instant
    | .error _ => (Instant.parse t).map some

/-- The period of its parts. -/
def periodOf (parts : PeriodParts) : Except ReadError LockPeriod :=
  let length := parts.length.getD ""
  match Numeral.int64? (Text.trimChars length.toList) with
  | some seconds => .ok ⟨seconds, parts.coins.getD []⟩
  | none => .error (.time ("period length " ++ Text.quote length))

/-- The periods of their parts. -/
def periodsOf (parts : Option (List PeriodParts)) : Except ReadError (List LockPeriod) :=
  (parts.getD []).mapM periodOf

/-- The lock of an account's parts. -/
def ofParts (parts : AccountParts) : Except ReadError AccountLock := do
  let startTime ← timeOf parts.startTime
  let endTime ← timeOf (parts.base.bind (·.endTime))
  let vestingPeriods ← periodsOf parts.vestingPeriods
  let lockupPeriods ← periodsOf parts.lockupPeriods
  return {
    typeUrl := parts.typeUrl
    kind := LockKind.ofTypeUrl parts.typeUrl
    grantedCoins := (parts.base.bind (·.grantedCoins)).getD []
    startTime, endTime, vestingPeriods, lockupPeriods }

/-- The lock of an account. -/
def ofJson (account : Json) : Except QueryError AccountLock := do
  let parts ← (AccountParts.decoder.ofValue account).mapError QueryError.decode
  (ofParts parts).mapError QueryError.unreadable

end AccountLock

end Circulation
