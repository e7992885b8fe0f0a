import Circulation.Digest.Sha256
import Circulation.FileError
import Circulation.Instant.Rfc3339
import Circulation.Json.Record
import Circulation.Json.Writer
import Circulation.Policy.Basic

/-!
# Policies as JSON

A policy is read from the text of a JSON object and refused if it has a flaw. It is written without
the fields that have their default. The fingerprint of a policy is the digest of its canonical text,
so it does not depend on the layout of the text that the policy was read from.

## Main definitions

* `Circulation.Policy.decoder`, `Circulation.Policy.ofText` — reading a policy.
* `Circulation.PolicyError` — why a policy is not read.
* `Circulation.Policy.toJson?` — the written form, which a time without a year of four digits lacks.
* `Circulation.Policy.fingerprint?` — the digest of the canonical text.
-/

namespace Circulation

open Json

/-- The decoder of an instant that is written in RFC 3339 without blanks around it. -/
def Instant.decoder : Decoder Instant :=
  (Decoder.stringAs "an RFC3339-formatted `OffsetDateTime`").refine fun s =>
    (Instant.ofRfc3339 s.toList).mapError Instant.Unreadable.message

/-- An optional field of a written record: no member in place of nothing. -/
def Json.memberOf? (key : String) (value : Option Json) : List (String × Json) :=
  match value with
  | some v => [(key, v)]
  | none => []

/-- A list field of a written record: no member in place of an empty list. -/
def Json.memberOfList (key : String) (items : List Json) : List (String × Json) :=
  if items = [] then [] else [(key, .array items)]

/-- The decoder of an account of the foundation. -/
def FoundationEntry.decoder : Decoder FoundationEntry :=
  (FoundationEntry.mk <$> Record.required "name" Decoder.string
    <*> Record.required "address" Decoder.string
    <*> Record.defaulted "reason" (.optional Decoder.string) none
    <*> Record.defaulted "custody" (.optional Decoder.string) none).decoder "FoundationEntry"

/-- The written form of an account of the foundation. -/
def FoundationEntry.toJson (e : FoundationEntry) : Json :=
  .object <|
    [("name", .string e.name), ("address", .string e.address)] ++
      memberOf? "reason" (e.reason.map .string) ++ memberOf? "custody" (e.custody.map .string)

/-- The decoder of a bootstrap account. -/
def BootstrapEntry.decoder : Decoder BootstrapEntry :=
  (BootstrapEntry.mk <$> Record.defaulted "name" (.optional Decoder.string) none
    <*> Record.required "address" Decoder.string
    <*> Record.defaulted "permanent" Decoder.bool false
    <*> Record.defaulted "duration_months" (.optional Decoder.nat32) none
    <*> Record.defaulted "start_time" (.optional Instant.decoder) none
    <*> Record.defaulted "end_time" (.optional Instant.decoder) none).decoder "BootstrapEntry"

/-- The written form of an optional instant, where the instant has one. -/
def Instant.toJson? : Option Instant → Option (Option Json)
  | none => some none
  | some t => t.toRfc3339?.map fun s => some (.string s)

/-- The written form of a bootstrap account. -/
def BootstrapEntry.toJson? (e : BootstrapEntry) : Option Json := do
  let startTime ← Instant.toJson? e.startTime
  let endTime ← Instant.toJson? e.endTime
  return .object <|
    memberOf? "name" (e.name.map .string) ++ [("address", .string e.address)] ++
      (if e.permanent then [("permanent", .bool true)] else []) ++
      memberOf? "duration_months" (e.months.map fun n => .number (.int n)) ++
      memberOf? "start_time" startTime ++ memberOf? "end_time" endTime

namespace Policy

/-- The decoder of the disclosed lockups: accounts of the foundation and bootstrap accounts. -/
def lockupsDecoder : Decoder (List FoundationEntry × List BootstrapEntry) :=
  (Prod.mk <$> Record.defaulted "foundation_genesis" (.list FoundationEntry.decoder) []
    <*> Record.field "supernode_bootstraps" ["bootstraps"] (.list BootstrapEntry.decoder)
      fun _ => some []).decoder "DisclosedLockups"

/-- The decoder of a policy. -/
def decoder : Decoder Policy :=
  ((fun maxSupply modules (lockups : List FoundationEntry × List BootstrapEntry) =>
      (⟨maxSupply, modules, lockups.1, lockups.2⟩ : Policy))
    <$> Record.defaulted "max_supply" (.optional Decoder.string) none
    <*> Record.defaulted "module_accounts" (.list Decoder.string) []
    <*> Record.defaulted "disclosed_lockups" lockupsDecoder ([], [])).decoder "Policy"

end Policy

/-- Why a policy is not read. -/
inductive PolicyError where
  /-- The file cannot be read. -/
  | file (why : FileError)
  /-- The text does not denote a policy. -/
  | decode (why : DecodeError)
  /-- The policy violates a condition. -/
  | invalid (flaw : Policy.Flaw)
  deriving DecidableEq, Repr

/-- The text that reports why a policy is not read. -/
def PolicyError.message : PolicyError → String
  | .file why => "io: " ++ why.message
  | .decode why => "parse: " ++ why.message
  | .invalid flaw => "invalid policy: " ++ flaw.message

namespace Policy

/-- The policy of a text, if it has no flaw. -/
def ofText (s : String) : Except PolicyError Policy := do
  let p ← (decoder.ofText s).mapError PolicyError.decode
  match p.firstFlaw? with
  | some flaw => throw (.invalid flaw)
  | none => return p

/-- The written form of a policy. -/
def toJson? (p : Policy) : Option Json := do
  let bootstraps ← p.bootstraps.mapM BootstrapEntry.toJson?
  return .object <|
    memberOf? "max_supply" (p.maxSupply.map .string) ++
      memberOfList "module_accounts" (p.modules.map .string) ++
      [("disclosed_lockups", .object <|
        memberOfList "foundation_genesis" (p.foundation.map FoundationEntry.toJson) ++
          memberOfList "supernode_bootstraps" bootstraps)]

/-- The text whose digest is the fingerprint of a policy. -/
def fingerprintText? (p : Policy) : Option String :=
  p.toJson?.map canonical

/-- The digest of the canonical text of a policy. -/
def fingerprint? (p : Policy) : Option String :=
  p.fingerprintText?.map fun s => Sha256.hexDigest s.toUTF8.toList

end Policy

end Circulation
