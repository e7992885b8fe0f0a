import Circulation.Policy.Json
import Circulation.Snapshot.Compute
import Circulation.Snapshot.Json
import Circulation.Url.Host

/-!
# Reports of a command that fails

A command that fails reports the cause by its parts: the name of each error, and what it holds, with
texts between quotes.

## Main definitions

* `Circulation.Command.Failure` — why a command fails.
* `Circulation.Command.Failure.report` — the report of the cause.
-/

namespace Circulation

/-- The name of a cause, and what it holds. -/
def Text.part (name held : String) : String :=
  name ++ "(" ++ held ++ ")"

/-- The report of an unreadable amount or time. -/
def ReadError.report : ReadError → String
  | .amount text => Text.part "InvalidAmount" (Text.quote text)
  | .decimal text => Text.part "InvalidDecimal" (Text.quote text)
  | .time reason => Text.part "InvalidTime" (Text.quote reason)
  | .outOfRange => "TimeOutOfRange"

/-- The report of a decoding error. A value that came from no text has the place 0. -/
def Json.DecodeError.report (e : Json.DecodeError) : String :=
  let place := e.place.getD ⟨0, 0⟩
  Text.part "Error" <|
    Text.quote e.reasonText ++ ", line: " ++ toString place.line ++ ", column: " ++
      toString place.column

/-- The report of a failed query. -/
def QueryError.report : QueryError → String
  | .transport why => Text.part "Request" (Text.quote why)
  | .decode why => Text.part "Decode" why.report
  | .unreadable why => Text.part "Normalize" why.report
  | .refused status body => Text.part "Api" (toString status ++ ", " ++ Text.quote body)
  | .missing field => Text.part "Missing" (Text.quote field)

/-- The report of a policy that is not read. -/
def PolicyError.report : PolicyError → String
  | .file why => Text.part "Io" why.report
  | .decode why => Text.part "Parse" why.report
  | .invalid flaw => Text.part "Invalid" (Text.quote flaw.message)

/-- The report of a snapshot that cannot be computed. -/
def ComputeError.report : ComputeError → String
  | .height why => Text.part "Height" why.report
  | .totalSupply why => Text.part "TotalSupply" why.report

namespace Command

/-- Why a command fails. -/
inductive Failure where
  | baseUrl (why : UrlError)
  | policy (why : PolicyError)
  | compute (why : ComputeError)
  /-- A time has no written form. -/
  | unwritable
  deriving DecidableEq, Repr

/-- The report of the cause. -/
def Failure.report : Failure → String
  | .baseUrl why => Text.part "BaseUrl" why.name
  | .policy why => why.report
  | .compute why => why.report
  | .unwritable =>
    Text.part "Error" <|
      Text.quote "The year component cannot be formatted into the requested format." ++
        ", line: 0, column: 0"

end Command

end Circulation
