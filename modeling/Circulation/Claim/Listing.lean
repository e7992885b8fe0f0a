import Circulation.Amount
import Circulation.Claim.Basic
import Circulation.Instant.Rfc3339
import Circulation.Json.Decoder

/-!
# Claim lists

The chain lists claims in one of two shapes: an array under `claims`, or an array under the first of
`records`, `claimed` and `list` that the object has. The shapes differ in the keys of an item's
address and time. An item without an address is left out, and any other shape is an empty list.

## Main definitions

* `Circulation.ClaimRecord.Shape` — the keys of a shape.
* `Circulation.ClaimRecord.ofItem?` — the record of an item.
* `Circulation.ClaimRecord.listOfJson`, `Circulation.ClaimRecord.listOfText` — the records of a list.
-/

namespace Circulation.ClaimRecord

/-- The keys under which the items of a list have their address and their time, the preferred ones
first. -/
structure Shape where
  addressKeys : List String
  timeKeys : List String

/-- The shape of a list under `claims`. -/
def Shape.claims : Shape :=
  ⟨["destAddress"], ["claimTime"]⟩

/-- The shape of a list under any other key. -/
def Shape.general : Shape :=
  ⟨["address", "addr", "destAddress"], ["claim_time", "time"]⟩

/-- The keys of a list in the general shape, the preferred ones first. -/
def generalKeys : List String :=
  ["records", "claimed", "list"]

/-- The instant of a claim's time: a text of RFC 3339 or of seconds since the epoch, or a positive
number of seconds. Anything else is no instant. -/
def timeOf : Json → Option Instant
  | .string s =>
    match Instant.parse s with
    | .ok t => some t
    | .error _ => ((Instant.ofUnixText s).toOption).bind id
  | .number n =>
    let seconds := n.toInt64
    if 0 < seconds then Instant.ofUnixSeconds? seconds else none
  | _ => none

/-- The amount of a denomination in an item's balance: that of the first coin of the denomination, if
it is a numeral. -/
def balanceOf (item : Json) (denom : String) : Option Nat := do
  let coins ← (← item.member? "balance").array?
  let coin ← coins.find? fun c => (c.member? "denom").bind Json.string? == some denom
  let text ← (← coin.member? "amount").string?
  if text = "" then none else (Amount.parse text).toOption

/-- The record of an item, unless it lacks an address. The first address key with a text counts. -/
def ofItem? (shape : Shape) (denom : String) (item : Json) : Option ClaimRecord := do
  let address ← shape.addressKeys.findSome? fun k => (item.member? k).bind Json.string?
  if address = "" then none
  else
    return {
      address
      time := (shape.timeKeys.findSome? fun k => item.member? k).bind timeOf
      amount := balanceOf item denom }

/-- The records of a claim list. -/
def listOfJson (denom : String) (body : Json) : List ClaimRecord :=
  match (body.member? "claims").bind Json.array? with
  | some items => items.filterMap (ofItem? .claims denom)
  | none =>
    match (generalKeys.findSome? fun k => body.member? k).bind Json.array? with
    | some items => items.filterMap (ofItem? .general denom)
    | none => []

/-- The records of the text of a claim list. -/
def listOfText (denom : String) (body : String) : Except Json.DecodeError (List ClaimRecord) :=
  (Json.parse body).map (listOfJson denom)

end Circulation.ClaimRecord
