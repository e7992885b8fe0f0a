import Circulation.Json.Error
import Circulation.ReadError

/-!
# Failed queries

Why a query to the chain has no answer.

## Main definitions

* `Circulation.QueryError` — the causes.
* `Circulation.QueryError.message` — the text that reports a cause.
-/

namespace Circulation

/-- Why a query to the chain has no answer. -/
inductive QueryError where
  /-- No response arrived. -/
  | transport (why : String)
  /-- The response is not JSON or not of the documented shape. -/
  | decode (why : Json.DecodeError)
  /-- An amount or a time of the response is unreadable. -/
  | unreadable (why : ReadError)
  /-- The chain answered with a status other than success. -/
  | refused (status : Nat) (body : String)
  /-- The response lacks a field. -/
  | missing (field : String)
  deriving DecidableEq, Repr

/-- The text that reports why a query has no answer. -/
def QueryError.message : QueryError → String
  | .transport why => "request: " ++ why
  | .decode why => "decode: " ++ why.message
  | .unreadable why => "normalize: " ++ why.message
  | .refused status body => "api error: status " ++ toString status ++ " body " ++ body
  | .missing field => "missing field: " ++ field

end Circulation
