import Circulation.Event
import Circulation.Text.Blank
import Circulation.Text.Quoted

/-!
# The log

Each event has a level, a target, a message and fields. A line of the log shows them in this order. A
filter chooses the events of the log: a comma list of levels, each for all targets or for those that
begin with a given text. Of the entries that fit a target the longest decides.

## Main definitions

* `Circulation.Command.LogLine` — an event as the log shows it.
* `Circulation.Command.LogLine.ofEvent`, `Circulation.Command.LogLine.text`.
* `Circulation.Command.LogFilter` — filters.
-/

namespace Circulation.Command

/-- How much an event matters. -/
inductive LogLevel where
  | error
  | warn
  | info
  | debug
  | trace
  deriving DecidableEq, Repr

namespace LogLevel

/-- The written form of a level. -/
def text : LogLevel → String
  | .error => "ERROR"
  | .warn => "WARN"
  | .info => "INFO"
  | .debug => "DEBUG"
  | .trace => "TRACE"

/-- The number of a level: what matters less has a greater number. -/
def rank : LogLevel → Nat
  | .error => 1
  | .warn => 2
  | .info => 3
  | .debug => 4
  | .trace => 5

end LogLevel

/-- An event as the log shows it. The values of the fields are in their written form. -/
structure LogLine where
  level : LogLevel
  target : String
  message : String
  fields : List (String × String)
  deriving DecidableEq, Repr

namespace LogLine

/-- The written form of an event. -/
def text (l : LogLine) : String :=
  l.level.text ++ " " ++ l.target ++ ": " ++ l.message ++
    String.join (l.fields.map fun (name, value) => " " ++ name ++ "=" ++ value)

/-- The target of the events of the command line. -/
def root : String := "supply_snapshot"

/-- The target of the events of a part of the library. -/
def within (part : String) : String :=
  root ++ "::" ++ part

/-- An event as the log shows it. -/
def ofEvent : Event → LogLine
  | .requestAnswered url => ⟨.debug, within "chain::lcd", "lcd ok", [("url", url)]⟩
  | .requestRetried url attempt milliseconds why =>
    ⟨.warn, within "chain::lcd", "retry after error",
      [("url", url), ("attempt", toString attempt), ("ms", toString milliseconds), ("error", why)]⟩
  | .claimsListed tier count =>
    ⟨.debug, within "chain::lcd", "claimed accounts",
      [("tier", toString tier), ("count", toString count)]⟩
  | .lockUnrecognised typeUrl =>
    ⟨.warn, within "vesting::schedule",
      "unrecognized lock type with original vesting; treating as unlocked", [("type_url", typeUrl)]⟩
  | .computing denom height total =>
    ⟨.debug, within "supply::compute", "computing snapshot",
      [("denom", Text.quote denom), ("height", toString height), ("total", toString total)]⟩
  | .claimTakenFromRecord address tier why =>
    ⟨.debug, within "supply::compute", "claim lock from claim record",
      [("address", address), ("tier", toString tier), ("error", why)]⟩
  | .entrySkipped cohort address reason =>
    ⟨.warn, within "supply::compute", "non-circulating entry skipped",
      [("cohort", cohort), ("address", Text.quote address), ("reason", reason)]⟩
  | .supplyExceeded denom total nonCirculating =>
    ⟨.warn, within "supply::compute", "non-circulating exceeds total; clamping circulating to 0",
      [("denom", Text.quote denom), ("total", toString total),
        ("non_circulating", toString nonCirculating)]⟩
  | .computed denom height total circulating nonCirculating cohorts skipped =>
    ⟨.info, within "supply::compute", "snapshot computed",
      [("denom", Text.quote denom), ("height", toString height), ("total", total),
        ("circulating", circulating), ("non_circulating", nonCirculating),
        ("cohorts", toString cohorts), ("skipped", toString skipped)]⟩
  | .fingerprintUnavailable why =>
    ⟨.warn, within "supply::compute", "policy fingerprint unavailable", [("error", why)]⟩
  | .buildReused denom height =>
    ⟨.debug, within "cache", "reusing concurrent build",
      [("denom", Text.quote denom), ("height", toString height)]⟩
  | .refresherStarted denom ttlSeconds =>
    ⟨.info, within "cache", "snapshot refresher started",
      [("denom", Text.quote denom), ("ttl_secs", toString ttlSeconds)]⟩
  | .refreshed denom height etag =>
    ⟨.debug, within "cache", "snapshot refreshed",
      [("denom", Text.quote denom), ("height", toString height), ("etag", etag)]⟩
  | .refreshFailed denom why =>
    ⟨.warn, within "cache", "snapshot refresh failed",
      [("denom", Text.quote denom), ("error", why)]⟩
  | .policyLoaded path isEmpty =>
    ⟨.info, root, "policy loaded", [("path", path), ("empty", toString isEmpty)]⟩
  | .policyUnavailable path why =>
    ⟨.warn, root, "policy unavailable; using empty policy", [("path", path), ("error", why)]⟩
  | .policyValid modules foundation bootstraps =>
    ⟨.info, root, "policy valid",
      [("modules", toString modules), ("foundation", toString foundation),
        ("bootstraps", toString bootstraps)]⟩
  | .snapshotComplete requests skipped policyEtag =>
    ⟨.info, root, "snapshot complete",
      [("requests", toString requests), ("skipped", toString skipped),
        ("policy_etag", Text.quote policyEtag)]⟩
  | .watching denom modules policyEtag =>
    ⟨.info, root, "watching",
      [("denom", Text.quote denom), ("modules", toString modules),
        ("policy_etag", Text.quote policyEtag)]⟩
  | .interrupted => ⟨.info, root, "interrupted", []⟩
  | .noSnapshot => ⟨.warn, root, "no snapshot yet", []⟩
  | .snapshotChanged height etag total circulating nonCirculating skipped =>
    ⟨.info, root, "snapshot changed",
      [("height", toString height), ("etag", etag), ("total", total), ("circulating", circulating),
        ("non_circulating", nonCirculating), ("skipped", toString skipped)]⟩
  | .snapshotStale height =>
    ⟨.warn, root, "serving stale snapshot", [("height", toString height)]⟩

end LogLine

/-! ### Filters -/

/-- An entry of a filter: how the targets begin that it is about, and the greatest number of a level
that it lets pass. -/
structure LogEntry where
  target : String
  rank : Nat
  deriving DecidableEq, Repr

namespace LogEntry

/-- The names of the bounds of an entry, which may also be given by their numbers. -/
def bounds : List (String × Nat) :=
  [("off", 0), ("error", 1), ("warn", 2), ("info", 3), ("debug", 4), ("trace", 5)]

/-- The bound that a text names, in letters of either case or as a number. -/
def bound? (s : String) : Option Nat :=
  (bounds.find? fun (name, rank) => s.map Char.toLower == name || s == toString rank).map (·.2)

/-- Whether a character can stand in the text of a target. -/
def isTargetChar (c : Char) : Bool :=
  c.isAlphanum || c == '_' || c == ':' || c == '-'

/-- The entry that a text denotes: a bound for all targets, a target with a bound after an equals
sign, or a target alone, all of whose events pass. -/
def parse? (s : String) : Option LogEntry :=
  let cs := Text.trimChars s.toList
  let target := cs.takeWhile (· != '=')
  match cs.dropWhile (· != '=') with
  | [] =>
    match bound? (String.ofList cs) with
    | some rank => some ⟨"", rank⟩
    | none =>
      if cs ≠ [] ∧ cs.all isTargetChar = true then some ⟨String.ofList cs, 5⟩ else none
  | _ :: level =>
    if target ≠ [] ∧ target.all isTargetChar = true then
      if level = [] then some ⟨String.ofList target, 5⟩
      else (bound? (String.ofList level)).map fun rank => ⟨String.ofList target, rank⟩
    else none

/-- Whether an entry is about a target. -/
def isAbout (e : LogEntry) (target : String) : Bool :=
  e.target.toList.isPrefixOf target.toList

end LogEntry

/-- A filter: its entries, of which a later one replaces an earlier one of the same target. -/
abbrev LogFilter := List LogEntry

namespace LogFilter

/-- The filter that a text denotes. What denotes no entry is passed over, and a filter without entries
lets errors pass. -/
def parse (s : String) : LogFilter :=
  match (s.splitOn ",").filterMap LogEntry.parse? with
  | [] => [⟨"", 1⟩]
  | entries => entries

/-- The entry that decides on a target: the longest that is about it, and the last of those. -/
def decisive? (f : LogFilter) (target : String) : Option LogEntry :=
  (f.filter (·.isAbout target)).foldl
    (fun best e =>
      match best with
      | some b => if b.target.length ≤ e.target.length then some e else some b
      | none => some e)
    none

/-- Whether a filter lets a line pass. -/
def allows (f : LogFilter) (l : LogLine) : Bool :=
  match f.decisive? l.target with
  | some e => l.level.rank ≤ e.rank
  | none => false

/-- The lines of events that a filter lets pass. -/
def lines (f : LogFilter) (events : List Event) : List LogLine :=
  (events.map LogLine.ofEvent).filter f.allows

end LogFilter

end Circulation.Command
