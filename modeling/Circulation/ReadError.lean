import Circulation.Text.Quoted

/-!
# Unreadable amounts and times

Why a text of the chain does not denote an amount or an instant.

## Main definitions

* `Circulation.ReadError` — the causes.
* `Circulation.ReadError.message` — the text that reports a cause.
-/

namespace Circulation

/-- Why a text denotes no amount or no instant. -/
inductive ReadError where
  /-- The text is not a numeral. -/
  | amount (text : String)
  /-- The text is not a decimal numeral. -/
  | decimal (text : String)
  /-- The text is not an instant, for the given reason. -/
  | time (reason : String)
  /-- The instant lies outside the supported years. -/
  | outOfRange
  deriving DecidableEq, Repr

/-- The text that reports a cause. -/
def ReadError.message : ReadError → String
  | .amount text => "invalid amount: " ++ Text.quote text
  | .decimal text => "invalid decimal: " ++ Text.quote text
  | .time reason => "invalid time: " ++ reason
  | .outOfRange => "time out of range"

end Circulation
