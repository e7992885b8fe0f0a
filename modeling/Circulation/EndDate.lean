import Circulation.Instant.Rfc3339
import Circulation.Json.Decoder

/-!
# End dates

When a locked amount becomes transferable: at no stated time, at an instant, or never. An end date is
written as a text: nothing, the instant in UTC to the whole second, or the word `forever`.

## Main definitions

* `Circulation.EndDate` — the end dates.
* `Circulation.EndDate.text?` — the written form, which an instant out of UTC's years lacks.
* `Circulation.EndDate.parse`, `Circulation.EndDate.decoder` — reading the written form.
-/

namespace Circulation

/-- When a locked amount becomes transferable. -/
inductive EndDate where
  | none
  | at (t : Instant)
  | forever
  deriving DecidableEq, Repr, Inhabited

namespace EndDate

/-- The word for an amount that never becomes transferable. -/
def foreverText : String := "forever"

/-- Whether no time is stated. -/
def isNone : EndDate → Bool
  | .none => true
  | _ => false

/-- The written form of an end date. An instant whose year UTC does not support has none. -/
def text? : EndDate → Option String
  | .none => some ""
  | .at t => t.utcText?
  | .forever => some foreverText

/-- The end date that a text denotes. -/
def parse (s : String) : Except ReadError EndDate :=
  if s = "" then .ok .none
  else if s = foreverText then .ok .forever
  else (Instant.parse s).map .at

/-- The decoder of an end date. -/
def decoder : Json.Decoder EndDate :=
  Json.Decoder.string.refine fun s => (parse s).mapError ReadError.message

end EndDate

end Circulation
