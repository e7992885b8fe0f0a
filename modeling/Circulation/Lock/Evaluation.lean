import Circulation.Amount
import Circulation.EndDate
import Circulation.Lock.Basic
import Circulation.Lock.Schedule

/-!
# Evaluating a lock

The amount of a denomination that an account's lock holds at an instant, and the date on which the
lock ends. A lock that lacks a time which its discipline needs is not evaluated. A lock without
granted coins of the denomination holds nothing, whatever else it says, and so does a lock of no
recognised discipline.

## Main definitions

* `Circulation.Portion` — a locked amount and its end date.
* `Circulation.LockError` — why a lock is not evaluated.
* `Circulation.AccountLock.tranches` — the tranches of a list of periods.
* `Circulation.AccountLock.lockedAt` — the locked amount at an instant.
-/

namespace Circulation

/-- A locked amount and the date on which it becomes transferable. -/
structure Portion where
  amount : Nat
  stop : EndDate
  deriving DecidableEq, Repr

/-- Nothing locked, and no end date. -/
def Portion.nothing : Portion :=
  ⟨0, .none⟩

/-- The times of a lock. -/
inductive LockTime where
  | start
  | stop
  deriving DecidableEq, Repr

/-- The name by which the chain knows a time of a lock. -/
def LockTime.name : LockTime → String
  | .start => "start_time"
  | .stop => "end_time"

/-- Why a lock is not evaluated. -/
inductive LockError where
  /-- The lock lacks a time that its discipline needs. -/
  | incomplete (kind : LockKind) (time : LockTime)
  /-- A time of the lock is out of the supported years. -/
  | outOfRange
  /-- An amount of the lock is no numeral. -/
  | unreadable (why : ReadError)
  deriving DecidableEq, Repr

/-- The text that reports why a lock is not evaluated. -/
def LockError.message : LockError → String
  | .incomplete kind time => kind.name ++ " account without " ++ time.name
  | .outOfRange => "schedule time out of range"
  | .unreadable why => why.message

namespace AccountLock

/-- A time that the discipline of the lock needs. -/
def needed (kind : LockKind) (time : LockTime) (t : Option Instant) : Except LockError Instant :=
  match t with
  | some t => .ok t
  | none => .error (.incomplete kind time)

/-- The amount of a denomination among coins: that of the first coin, and 0 if there is none. -/
def amountOf (coins : List Coin) (denom : String) : Except LockError Nat :=
  match Coin.amountTextOf? coins denom with
  | some text => (Amount.parse text).mapError .unreadable
  | none => .ok 0

/-- An instant that is some seconds after another one, if it is supported. -/
def later (start : Instant) (seconds : Int) : Except LockError Instant :=
  match start.addSeconds? seconds with
  | some t => .ok t
  | none => .error .outOfRange

/-- The tranches of periods that follow one another, when `elapsed` seconds have passed since `start`.
The seconds are counted in a signed 64-bit word and stay at its ends. -/
def tranches (start : Instant) (denom : String) (elapsed : Int) :
    List LockPeriod → Except LockError (List Schedule.Tranche)
  | [] => .ok []
  | period :: periods => do
    let elapsed := Numeral.saturate64 (elapsed + period.lengthSeconds)
    let stop ← later start elapsed
    let amount ← amountOf period.coins denom
    return ⟨stop, amount⟩ :: (← tranches start denom elapsed periods)

/-- The whole length of periods, counted in a signed 64-bit word. -/
def totalLength (periods : List LockPeriod) : Int :=
  periods.foldl (fun sum p => Numeral.saturate64 (sum + p.lengthSeconds)) 0

/-- The portion of a lock that opens period by period. -/
def periodicPortion (lock : AccountLock) (denom : String) (now : Instant) :
    Except LockError Portion := do
  let start ← needed lock.kind .start lock.startTime
  let steps ← tranches start denom 0 lock.vestingPeriods
  return ⟨Schedule.periodic steps now,
    match steps.getLast? with
    | some last => .at last.stop
    | none => .none⟩

/-- The portion of a denomination that a lock holds at an instant. -/
def lockedAt (lock : AccountLock) (denom : String) (now : Instant) : Except LockError Portion := do
  let granted ← amountOf lock.grantedCoins denom
  if granted = 0 then return Portion.nothing
  match lock.kind with
  | .permanent => return ⟨Schedule.permanent granted, .forever⟩
  | .delayed =>
    let stop ← needed lock.kind .stop lock.endTime
    return ⟨Schedule.delayed granted now stop, .at stop⟩
  | .continuous =>
    let start ← needed lock.kind .start lock.startTime
    let stop ← needed lock.kind .stop lock.endTime
    return ⟨Schedule.continuous granted now start stop, .at stop⟩
  | .periodic => periodicPortion lock denom now
  | .clawback =>
    if lock.vestingPeriods ≠ [] then
      periodicPortion lock denom now
    else
      let start ← needed lock.kind .start lock.startTime
      let stop ← needed lock.kind .stop lock.endTime
      let cliff ← later start (totalLength lock.lockupPeriods)
      return ⟨Schedule.clawback granted now start cliff stop, .at stop⟩
  | .unknown => return Portion.nothing

/-- Whether a lock has granted coins of a denomination but no recognised discipline, so that it
counts as open. -/
def isUnrecognised (lock : AccountLock) (denom : String) : Bool :=
  lock.kind == .unknown &&
    match amountOf lock.grantedCoins denom with
    | .ok amount => amount != 0
    | .error _ => false

end AccountLock

end Circulation
