import Circulation.Cache.Basic
import Circulation.Command.Arguments
import Circulation.Command.Report
import Circulation.Lcd.Client

/-!
# Commands

A command reads its policy and makes a client. A policy that cannot be read does not stop a command
that computes snapshots: they still count the transfer escrows, the community pool and the delayed
claims. The command that validates the policy fails then.

A command is a program over the network. It either comes to an end, or leaves snapshots to be watched.

## Main definitions

* `Circulation.Command.Session` — a client with a policy and a denomination.
* `Circulation.Command.Ending` — the exit code of a command, and what it prints.
* `Circulation.Command.Next` — an ending, or what is to be watched.
* `Circulation.Command.perform` — the program of a command.
-/

namespace Circulation.Command

open Lcd Program

/-- A client with what it is to compute. -/
structure Session where
  client : Client
  policy : Policy
  policyEtag : Option String
  denom : String

/-- The exit code of a command, and what it prints. -/
structure Ending where
  code : Nat
  output : String
  /-- The report of a command that fails. -/
  report : Option String
  deriving DecidableEq, Repr

namespace Ending

/-- A command ends with success and prints a line. -/
def ofLine (line : String) : Ending :=
  ⟨0, line ++ "\n", none⟩

/-- A command fails. -/
def ofFailure (why : Failure) : Ending :=
  ⟨1, "", some ("Error: " ++ why.report)⟩

/-- A command breaks off, as an end date has no written form. -/
def brokenOff : Ending :=
  ⟨101, "", none⟩

end Ending

/-- What is to be watched: snapshots in a cache, for a number of polls or without end. -/
structure Watch where
  session : Session
  settings : Cache.Settings
  iterations : Option Nat

/-- What comes after the program of a command. -/
inductive Next where
  | over (ending : Ending)
  | watch (w : Watch)

namespace Session

/-- The policy of a session, which is the empty one if the file holds none. -/
def loadPolicy (path : String) (file : Except FileError String) : Requesting Policy :=
  match (file.mapError PolicyError.file).bind Policy.ofText with
  | .ok policy => do
    mention (.policyLoaded path policy.isEmpty)
    return policy
  | .error why => do
    mention (.policyUnavailable path why.message)
    return .empty

/-- The session of a command line, given what is read from the policy file. -/
def start (a : Arguments) (file : Except FileError String) :
    Requesting (Except Failure Session) := do
  let config : Config :=
    { baseUrl := a.lcdUrl, timeoutSeconds := max a.timeoutSeconds 1 }
  match Client.ofConfig config with
  | .error why => return .error (.baseUrl why)
  | .ok client =>
    let policy ← loadPolicy a.policyPath file
    mentionIf policy.fingerprint?.isNone (.fingerprintUnavailable "a time has no written form")
    return .ok ⟨client, policy, policy.fingerprint?, a.denom⟩

/-- The fingerprint of the policy as the log shows it. -/
def shownEtag (s : Session) : String :=
  s.policyEtag.getD "-"

/-- The program that computes one snapshot. -/
def build (s : Session) : Requesting (Except ComputeError Snapshot) :=
  (Snapshot.compute s.policy s.policyEtag s.denom).handle s.client.answer

/-- The program that computes one snapshot and prints it. -/
def print (s : Session) (pretty : Bool) : Requesting Ending := do
  match ← Requesting.counted s.build with
  | (.error why, _) => return .ofFailure (.compute why)
  | (.ok snapshot, requests) =>
    mention (.snapshotComplete requests snapshot.skipped.length s.shownEtag)
    match snapshot.toJson with
    | .ok json => return .ofLine (if pretty then json.indented else json.compact)
    | .error (.updatedAt _) => return .ofFailure .unwritable
    | .error (.endDate _) => return .brokenOff

/-- What a session watches. -/
def watch (s : Session) (ttlSeconds : Nat) (iterations : Option Nat) : Watch :=
  ⟨s, Cache.Settings.ofOptions s.denom { ttlMs := 1000 * ttlSeconds }, iterations⟩

end Session

/-- The program that validates the policy and prints its fingerprint. -/
def checkPolicy (file : Except FileError String) : Requesting Ending :=
  match (file.mapError PolicyError.file).bind Policy.ofText with
  | .error why => return .ofFailure (.policy why)
  | .ok policy => do
    mention (.policyValid policy.modules.length policy.foundation.length policy.bootstraps.length)
    match policy.fingerprint? with
    | some etag => return .ofLine etag
    | none => return .ofFailure .unwritable

/-- The program of a command, given what is read from the policy file. -/
def perform (a : Arguments) (file : Except FileError String) : Requesting Next := do
  match a.action with
  | .checkPolicy => return .over (← checkPolicy file)
  | .snapshot pretty =>
    match ← Session.start a file with
    | .error why => return .over (.ofFailure why)
    | .ok session => return .over (← session.print pretty)
  | .watch iterations =>
    match ← Session.start a file with
    | .error why => return .over (.ofFailure why)
    | .ok session =>
      mention (.watching session.denom session.policy.modules.length session.shownEtag)
      return .watch (session.watch a.ttlSeconds iterations)

end Circulation.Command
