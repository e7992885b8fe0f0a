/-!
# Events

What is worth a line of the log while a snapshot is computed, requested, cached and watched.

## Main definitions

* `Circulation.Event` — the events.
-/

namespace Circulation

/-- Something that the log may report. -/
inductive Event where
  /-- A request was answered with success. -/
  | requestAnswered (url : String)
  /-- A request failed and will be sent again after a pause. -/
  | requestRetried (url : String) (attempt milliseconds : Nat) (why : String)
  /-- The claims of a tier were listed. -/
  | claimsListed (tier count : Nat)
  /-- A lock of no recognised discipline counts as open. -/
  | lockUnrecognised (typeUrl : String)
  /-- The computation of a snapshot begins. -/
  | computing (denom : String) (height : Int) (total : Nat)
  /-- The lock of a claim is taken from the claim, as the account cannot be evaluated. -/
  | claimTakenFromRecord (address : String) (tier : Nat) (why : String)
  /-- An entry is left out. -/
  | entrySkipped (cohort address reason : String)
  /-- More is held out of circulation than there is, so nothing circulates. -/
  | supplyExceeded (denom : String) (total nonCirculating : Nat)
  /-- A snapshot is complete. -/
  | computed (denom : String) (height : Int) (total circulating nonCirculating : String)
      (cohorts skipped : Nat)
  /-- A policy has no fingerprint. -/
  | fingerprintUnavailable (why : String)
  /-- A build of another caller is used. -/
  | buildReused (denom : String) (height : Int)
  /-- The refresher begins. -/
  | refresherStarted (denom : String) (ttlSeconds : Nat)
  /-- The refresher has stored a snapshot. -/
  | refreshed (denom : String) (height : Int) (etag : String)
  /-- The refresher has failed to build a snapshot. -/
  | refreshFailed (denom why : String)
  /-- A policy was read. -/
  | policyLoaded (path : String) (isEmpty : Bool)
  /-- A policy could not be read, and the empty policy takes its place. -/
  | policyUnavailable (path why : String)
  /-- A policy was found valid. -/
  | policyValid (modules foundation bootstraps : Nat)
  /-- The one snapshot that was asked for is complete. -/
  | snapshotComplete (requests skipped : Nat) (policyEtag : String)
  /-- Watching begins. -/
  | watching (denom : String) (modules : Nat) (policyEtag : String)
  /-- Watching was interrupted. -/
  | interrupted
  /-- No snapshot is stored yet. -/
  | noSnapshot
  /-- The stored snapshot has another tag than before. -/
  | snapshotChanged (height : Int) (etag total circulating nonCirculating : String) (skipped : Nat)
  /-- The stored snapshot is older than it should be. -/
  | snapshotStale (height : Int)
  deriving DecidableEq, Repr

end Circulation
