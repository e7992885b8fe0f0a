import Circulation.Instant.Basic

/-!
# Account locks

What an account of the chain says about its lock: the discipline by which the lock opens, the coins
that it started with, its times and its periods. The discipline follows from the last part of the
account's type.

## Main definitions

* `Circulation.Coin` — an amount of a denomination, as the chain writes it.
* `Circulation.LockKind` — the disciplines.
* `Circulation.LockPeriod`, `Circulation.AccountLock` — the lock of an account.
* `Circulation.Coin.amountTextOf?` — the amount of a denomination among coins.
-/

namespace Circulation

/-- An amount of a denomination. The amount is a text that need not be a numeral. -/
structure Coin where
  denom : String
  amount : String
  deriving DecidableEq, Repr

/-- The amount text of the first coin of a denomination. -/
def Coin.amountTextOf? (coins : List Coin) (denom : String) : Option String :=
  (coins.find? fun c => c.denom == denom).map (·.amount)

/-- The discipline by which a lock opens. -/
inductive LockKind where
  /-- All at once, at the end. -/
  | delayed
  /-- Evenly, from the start to the end. -/
  | continuous
  /-- Period by period. -/
  | periodic
  /-- Period by period, or not before a cliff and then evenly. -/
  | clawback
  /-- Never. -/
  | permanent
  /-- No recognised discipline. -/
  | unknown
  deriving DecidableEq, Repr

namespace LockKind

/-- The name of a discipline. -/
def name : LockKind → String
  | delayed => "Delayed"
  | continuous => "Continuous"
  | periodic => "Periodic"
  | clawback => "Clawback"
  | permanent => "Permanent"
  | unknown => "Unknown"

/-- The part of a type after its last point. -/
def lastPart (typeUrl : String) : String :=
  String.ofList (typeUrl.toList.reverse.takeWhile (· != '.')).reverse

/-- The discipline of an account type. -/
def ofTypeUrl (typeUrl : String) : LockKind :=
  match lastPart typeUrl with
  | "DelayedVestingAccount" => delayed
  | "ContinuousVestingAccount" => continuous
  | "PeriodicVestingAccount" => periodic
  | "ClawbackVestingAccount" => clawback
  | "PermanentLockedAccount" => permanent
  | _ => unknown

end LockKind

/-- A period of a lock: its length in seconds and the coins that become transferable at its end. -/
structure LockPeriod where
  lengthSeconds : Int
  coins : List Coin
  deriving DecidableEq, Repr

/-- The lock of an account. An account without a lock has no granted coins. -/
structure AccountLock where
  typeUrl : String
  kind : LockKind
  grantedCoins : List Coin
  startTime : Option Instant
  endTime : Option Instant
  vestingPeriods : List LockPeriod
  lockupPeriods : List LockPeriod
  deriving DecidableEq, Repr

namespace AccountLock

/-- An account of the given type without a lock. -/
def unlocked (typeUrl : String) : AccountLock :=
  ⟨typeUrl, LockKind.ofTypeUrl typeUrl, [], none, none, [], []⟩

/-- The amount text of the lock's first granted coin of a denomination. -/
def grantedTextOf? (lock : AccountLock) (denom : String) : Option String :=
  Coin.amountTextOf? lock.grantedCoins denom

end AccountLock

end Circulation
