import Circulation.Json.Writer
import Circulation.Policy.Json
import Circulation.Snapshot.Basic

/-!
# Snapshots as JSON

A snapshot is written as an object whose members stand in the order of the fields. An end date that
is not stated, an absent address, absent items and an empty list of skipped entries are left out.

## Main definitions

* `Circulation.Snapshot.decoder`, `Circulation.Snapshot.ofText` — reading a snapshot.
* `Circulation.Snapshot.Unwritable` — why a snapshot has no written form.
* `Circulation.Snapshot.toJson` — the written form.
-/

namespace Circulation

open Json

/-- The decoder of an item. -/
def CohortItem.decoder : Decoder CohortItem :=
  (CohortItem.mk <$> Record.required "address" Decoder.string
    <*> Record.required "amount" Decoder.string
    <*> Record.defaulted "end_date" EndDate.decoder .none).decoder "AddressItem"

/-- The decoder of a cohort. -/
def Cohort.decoder : Decoder Cohort :=
  (Cohort.mk <$> Record.required "name" Decoder.string
    <*> Record.required "reason" Decoder.string
    <*> Record.defaulted "address" (.optional Decoder.string) none
    <*> Record.defaulted "items" (.optional (.list CohortItem.decoder)) none
    <*> Record.required "amount" Decoder.string).decoder "CohortEntry"

/-- The decoder of a skipped entry. -/
def Skip.decoder : Decoder Skip :=
  (Skip.mk <$> Record.required "cohort" Decoder.string
    <*> Record.defaulted "address" (.optional Decoder.string) none
    <*> Record.required "reason" Decoder.string).decoder "SkippedEntry"

/-- The decoder of the cohorts and their sum. -/
def NonCirculating.decoder : Decoder NonCirculating :=
  (NonCirculating.mk <$> Record.required "sum" Decoder.string
    <*> Record.required "cohorts" (.list Cohort.decoder)).decoder "NonCirculatingBreakdown"

namespace Snapshot

/-- The decoder of a snapshot. -/
def decoder : Decoder Snapshot :=
  (Snapshot.mk <$> Record.required "denom" Decoder.string
    <*> Record.required "height" Decoder.int64
    <*> Record.required "updated_at" Instant.decoder
    <*> Record.required "etag" Decoder.string
    <*> Record.defaulted "policy_etag" (.optional Decoder.string) none
    <*> Record.required "total" Decoder.string
    <*> Record.required "circulating" Decoder.string
    <*> Record.nullable "max" Decoder.string
    <*> Record.required "non_circulating" NonCirculating.decoder
    <*> Record.defaulted "skipped" (.list Skip.decoder) []).decoder "SupplySnapshot"

/-- The snapshot of a text. -/
def ofText (s : String) : Except DecodeError Snapshot :=
  decoder.ofText s

/-- Why a snapshot has no written form. -/
inductive Unwritable where
  /-- The time of the block has no written form. -/
  | updatedAt (t : Instant)
  /-- An end date has no written form. -/
  | endDate (d : EndDate)
  deriving DecidableEq, Repr

end Snapshot

/-- The written form of an item. -/
def CohortItem.toJson (item : CohortItem) : Except Snapshot.Unwritable Json := do
  let endDate ←
    match item.endDate with
    | .none => pure none
    | d =>
      match d.text? with
      | some text => pure (some (Json.string text))
      | none => throw (.endDate d)
  return .object <|
    [("address", .string item.address), ("amount", .string item.amount)] ++
      memberOf? "end_date" endDate

/-- The written form of a cohort. -/
def Cohort.toJson (c : Cohort) : Except Snapshot.Unwritable Json := do
  let items ←
    match c.items with
    | none => pure none
    | some items => (items.mapM CohortItem.toJson).map fun items => some (Json.array items)
  return .object <|
    [("name", .string c.name), ("reason", .string c.reason)] ++
      memberOf? "address" (c.address.map .string) ++ memberOf? "items" items ++
      [("amount", .string c.amount)]

/-- The written form of a skipped entry. -/
def Skip.toJson (s : Skip) : Json :=
  .object <|
    [("cohort", .string s.cohort)] ++ memberOf? "address" (s.address.map .string) ++
      [("reason", .string s.reason)]

/-- The written form of a text that may be absent: `null` in place of nothing. -/
def Json.ofText? : Option String → Json
  | some s => .string s
  | none => .null

/-- The written form of a snapshot. -/
def Snapshot.toJson (s : Snapshot) : Except Snapshot.Unwritable Json := do
  let updatedAt ←
    match s.updatedAt.toRfc3339? with
    | some text => pure (Json.string text)
    | none => throw (.updatedAt s.updatedAt)
  let cohorts ← s.nonCirculating.cohorts.mapM Cohort.toJson
  return .object <|
    [("denom", .string s.denom), ("height", .number (.int s.height)), ("updated_at", updatedAt),
      ("etag", .string s.etag)] ++
      memberOf? "policy_etag" (s.policyEtag.map .string) ++
      [("total", .string s.total), ("circulating", .string s.circulating),
        ("max", ofText? s.max),
        ("non_circulating", .object
          [("sum", .string s.nonCirculating.sum), ("cohorts", .array cohorts)])] ++
      memberOfList "skipped" (s.skipped.map Skip.toJson)

end Circulation
