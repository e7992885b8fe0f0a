import Circulation.Cache.Timeline
import Circulation.Command.Session
import Circulation.Lcd.Offline

/-!
# Watching

While a refresher keeps a cache up to date, the watcher polls the cache halfway between refreshes and
reports each new tag, and a snapshot that is older than it should be. It ends after the polls that it
was asked for, or when it is interrupted.

## Main definitions

* `Circulation.Command.Watcher` — what a watcher remembers between polls.
* `Circulation.Command.Watcher.poll` — a poll.
* `Circulation.Command.Watch.run` — watching over a network, on a timeline.
-/

namespace Circulation.Command

open Lcd

/-- What a watcher remembers between polls. -/
structure Watcher where
  /-- How often it has polled. -/
  polls : Nat := 0
  /-- The tag that it reported last. -/
  lastEtag : Option String := none
  deriving DecidableEq, Repr

namespace Watcher

/-- What a watcher remembers after a poll, and what it reports. -/
def poll (w : Watcher) : Option Snapshot × Bool → Watcher × List Event
  | (none, _) => ({ w with polls := w.polls + 1 }, [.noSnapshot])
  | (some s, fresh) =>
    if w.lastEtag = some s.etag then
      ({ w with polls := w.polls + 1 }, if fresh then [] else [.snapshotStale s.height])
    else
      (⟨w.polls + 1, some s.etag⟩,
        [.snapshotChanged s.height s.etag s.total s.circulating s.nonCirculating.sum
          s.skipped.length])

/-- Whether a watcher has polled as often as it was asked to. The first poll always takes place. -/
def isDone (w : Watcher) (iterations : Option Nat) : Bool :=
  match iterations with
  | some n => 0 < w.polls && n ≤ w.polls
  | none => false

end Watcher

namespace Watch

/-- The instant of the poll after `n` others. -/
def pollInstant (v : Watch) (n : Nat) : Nat :=
  v.settings.ttlMs / 2 + n * v.settings.ttlMs

/-- Builds over a network, in which only pauses take time. -/
def world (v : Watch) (network : (q : Network) → q.Answer) : World Network Network.Answer Unit where
  build := v.session.build
  answer _ q := ⟨network q, q.milliseconds, ()⟩

/-- Timelines over the network. -/
abbrev Line := Timeline Network Network.Answer Unit

/-- Whether something is due before the next job. -/
def isBeforeJobs (instant : Nat) (l : Line) : Bool :=
  match l.next? with
  | some t => instant < t
  | none => true

/-- Goes on watching. `interruptAt?` says from the log when there is an interruption. `fuel` bounds the
number of jobs and polls. -/
def runFrom (v : Watch) (network : (q : Network) → q.Answer)
    (interruptAt? : List (Nat × Event) → Option Nat) : (fuel : Nat) → Watcher → Line → Line
  | 0, _, l => l
  | fuel + 1, w, l =>
    let next := v.pollInstant w.polls
    match (interruptAt? l.log).filter fun t => t < next && isBeforeJobs t l with
    | some t => Timeline.noteAll [.interrupted] { l with now := t }
    | none =>
      if isBeforeJobs next l then
        let (w, events) := w.poll (l.cache.get v.settings next)
        let l := Timeline.noteAll events { l with now := next }
        if w.isDone v.iterations then l else runFrom v network interruptAt? fuel w l
      else
        match l.step? v.settings (v.world network) with
        | some l => runFrom v network interruptAt? fuel w l
        | none => l

/-- The events of watching, from those before it, with their instants. -/
def run (v : Watch) (network : (q : Network) → q.Answer)
    (interruptAt? : List (Nat × Event) → Option Nat) (fuel : Nat) (before : List Event) :
    List Event :=
  let l : Line := Timeline.noteAll before { world := () }
  ((v.runFrom network interruptAt? fuel {} (l.spawn v.settings)).log.reverse).map (·.2)

end Watch

end Circulation.Command
