import Circulation.Cache.Basic

/-!
# A cache in time

A timeline is a cache together with what its updates wait for. The questions of a build are answered
by a world, which also says how long each answer takes; a refresher asks for an update, and again one
period of freshness after that update has returned. Nothing else takes time, so the instants at which
anything happens are those of an agenda.

Jobs that fall on the same instant run in the order in which they were entered.

## Main definitions

* `Circulation.World` — what answers the questions of builds, and after how long.
* `Circulation.Timeline` — a cache with the jobs ahead of it.
* `Circulation.Timeline.step?` — the next job.
* `Circulation.Timeline.runTo`, `Circulation.Timeline.runUntil` — the jobs up to an instant, or as
  long as a condition fails.
-/

namespace Circulation

/-- The value of an answer, how many milliseconds it takes, and the world after it. -/
structure Timed (S α : Type) where
  value : α
  milliseconds : Nat
  world : S

/-- What builds ask and notice, and what answers them. -/
structure World (Q : Type) (A : Q → Type) (S : Type) where
  /-- The program of every build. -/
  build : Program Q A Event (Except ComputeError Snapshot)
  answer : S → (q : Q) → Timed S (A q)

/-- Something that is due at an instant. -/
inductive Job (Q : Type) (A : Q → Type) where
  /-- An update of a denomination is requested. -/
  | call (ticket : Ticket) (denom : String)
  /-- A refresher requests an update. -/
  | refresh
  /-- A build has an answer and goes on. -/
  | resume (ticket : Ticket) (rest : Program Q A Event (Except ComputeError Snapshot))

/-- What an update returned, and when. -/
structure Reply where
  ticket : Ticket
  instant : Nat
  result : Except Cache.Error Snapshot

/-- A cache with the jobs ahead of it. -/
structure Timeline (Q : Type) (A : Q → Type) (S : Type) where
  world : S
  now : Nat := 0
  cache : Cache := {}
  /-- What is due, with the instants, sorted by them. -/
  agenda : List (Nat × Job Q A) := []
  /-- How many updates have been given a ticket. -/
  tickets : Nat := 0
  /-- The updates that refreshers wait for. -/
  refreshing : List Ticket := []
  /-- What the other updates have returned, the last first. -/
  replies : List Reply := []
  /-- What was noted, with the instants, the last first. -/
  log : List (Nat × Event) := []

namespace Program

variable {Q : Type} {A : Q → Type} {S α : Type}

/-- Runs a program as long as its answers take no time. Gives the world after it, what it noted, and
either its result or its rest after an answer that takes time. -/
def advance (answer : S → (q : Q) → Timed S (A q)) (world : S) :
    Program Q A Event α → S × List Event × (α ⊕ (Nat × Program Q A Event α))
  | .done a => (world, [], .inl a)
  | .note e next =>
    let (world, events, rest) := next.advance answer world
    (world, e :: events, rest)
  | .ask q next =>
    let timed := answer world q
    if timed.milliseconds = 0 then (next timed.value).advance answer timed.world
    else (timed.world, [], .inr (timed.milliseconds, next timed.value))

end Program

namespace Timeline

variable {Q : Type} {A : Q → Type} {S : Type}

/-- An agenda with one more job, after all jobs of the same instant. -/
def enter (instant : Nat) (job : Job Q A) : List (Nat × Job Q A) → List (Nat × Job Q A)
  | [] => [(instant, job)]
  | (t, j) :: rest =>
    if t ≤ instant then (t, j) :: enter instant job rest else (instant, job) :: (t, j) :: rest

/-- The timeline with a job that is due after some milliseconds. -/
def schedule (after : Nat) (job : Job Q A) (l : Timeline Q A S) : Timeline Q A S :=
  { l with agenda := enter (l.now + after) job l.agenda }

/-- The timeline with events noted now. -/
def noteAll (events : List Event) (l : Timeline Q A S) : Timeline Q A S :=
  { l with log := (events.map fun e => (l.now, e)).reverse ++ l.log }

/-- What a refresher notes of the result of its update. -/
def refreshEvent (denom : String) : Except Cache.Error Snapshot → Event
  | .ok snapshot => .refreshed denom snapshot.height snapshot.etag
  | .error why => .refreshFailed denom why.message

/-- An update returns. If it is a refresher's, the refresher asks again after the period of
freshness. -/
def deliver (s : Cache.Settings) (ticket : Ticket) (result : Except Cache.Error Snapshot)
    (l : Timeline Q A S) : Timeline Q A S :=
  if ticket ∈ l.refreshing then
    schedule s.ttlMs .refresh <|
      noteAll [refreshEvent s.denom result] { l with refreshing := l.refreshing.erase ticket }
  else { l with replies := ⟨ticket, l.now, result⟩ :: l.replies }

/-- Takes a step of the cache and delivers what it returns. Gives the update that has to build. -/
def take (s : Cache.Settings) (a : Cache.Step) (l : Timeline Q A S) :
    Timeline Q A S × Option Ticket :=
  match l.cache.step s l.now a with
  | none => (l, none)
  | some (cache, effect) =>
    let l := { l with cache }
    match effect with
    | none => (l, none)
    | some (.build ticket) => (l, some ticket)
    | some (.reuse ticket snapshot) =>
      (deliver s ticket (.ok snapshot) (noteAll [.buildReused s.denom snapshot.height] l), none)
    | some (.reply ticket result) => (deliver s ticket result l, none)

/-- Runs the rest of a build as far as it gets now. -/
def proceed (s : Cache.Settings) (w : World Q A S) (ticket : Ticket)
    (rest : Program Q A Event (Except ComputeError Snapshot)) (l : Timeline Q A S) :
    Timeline Q A S :=
  let (world, events, outcome) := rest.advance w.answer l.world
  let l := noteAll events { l with world }
  match outcome with
  | .inl result => (take s (.finish ticket result) l).1
  | .inr (milliseconds, rest) => schedule milliseconds (.resume ticket rest) l

/-- Takes a step of the cache, and begins the build that it asks for. -/
def act (s : Cache.Settings) (w : World Q A S) (a : Cache.Step) (l : Timeline Q A S) :
    Timeline Q A S :=
  match take s a l with
  | (l, none) => l
  | (l, some ticket) => proceed s w ticket w.build l

/-- Gives the gate as often as it can be given, which is at most so many times. -/
def grantAll (s : Cache.Settings) (w : World Q A S) : Nat → Timeline Q A S → Timeline Q A S
  | 0, l => l
  | n + 1, l =>
    match l.cache.gate, l.cache.waiting with
    | none, _ :: _ => grantAll s w n (act s w .grant l)
    | _, _ => l

/-- Does a job. -/
def perform (s : Cache.Settings) (w : World Q A S) : Job Q A → Timeline Q A S → Timeline Q A S
  | .call ticket denom, l => act s w (.request ticket denom) l
  | .refresh, l =>
    act s w (.request l.tickets s.denom)
      { l with tickets := l.tickets + 1, refreshing := l.refreshing ++ [l.tickets] }
  | .resume ticket rest, l => proceed s w ticket rest l

/-- The timeline after the next job. -/
def step? (s : Cache.Settings) (w : World Q A S) (l : Timeline Q A S) : Option (Timeline Q A S) :=
  match l.agenda with
  | [] => none
  | (instant, job) :: agenda =>
    let l := perform s w job { l with now := instant, agenda }
    some (grantAll s w l.cache.waiting.length l)

/-- The instant of the next job. -/
def next? (l : Timeline Q A S) : Option Nat :=
  l.agenda.head?.map (·.1)

/-- The timeline at an instant, after all jobs up to it, of which there are at most `fuel`. -/
def runTo (s : Cache.Settings) (w : World Q A S) (instant : Nat) :
    (fuel : Nat) → Timeline Q A S → Timeline Q A S
  | 0, l => l
  | fuel + 1, l =>
    match l.next? with
    | some t =>
      if t ≤ instant then
        match l.step? s w with
        | some l => runTo s w instant fuel l
        | none => l
      else { l with now := max l.now instant }
    | none => { l with now := max l.now instant }

/-- The timeline as soon as a condition holds, which it does after at most `fuel` jobs. -/
def runUntil (s : Cache.Settings) (w : World Q A S) (ends : Timeline Q A S → Bool) :
    (fuel : Nat) → Timeline Q A S → Timeline Q A S
  | 0, l => l
  | fuel + 1, l =>
    if ends l then l
    else
      match l.step? s w with
      | some l => runUntil s w ends fuel l
      | none => l

/-! ### What is done to a timeline from outside -/

/-- The timeline with updates requested after some milliseconds each, and their tickets. -/
def callAll : List (Nat × String) → Timeline Q A S → Timeline Q A S × List Ticket
  | [], l => (l, [])
  | (after, denom) :: calls, l =>
    let (rest, tickets) :=
      callAll calls (schedule after (.call l.tickets denom) { l with tickets := l.tickets + 1 })
    (rest, l.tickets :: tickets)

/-- What an update has returned. -/
def reply? (ticket : Ticket) (l : Timeline Q A S) : Option Reply :=
  l.replies.find? (·.ticket == ticket)

/-- The timeline with one more refresher. -/
def spawn (s : Cache.Settings) (l : Timeline Q A S) : Timeline Q A S :=
  schedule 0 .refresh (noteAll [.refresherStarted s.denom (s.ttlMs / 1000)] l)

/-- Whether a job is of a refresher, whose updates have the given tickets. -/
def isRefreshing (tickets : List Ticket) : Job Q A → Bool
  | .call _ _ => false
  | .refresh => true
  | .resume ticket _ => tickets.contains ticket

/-- The timeline without refreshers. What they were building is given up. -/
def abort (s : Cache.Settings) (w : World Q A S) (l : Timeline Q A S) : Timeline Q A S :=
  let cache := l.refreshing.foldl Cache.leave l.cache
  let l := { l with
    cache
    agenda := l.agenda.filter fun (_, job) => !isRefreshing l.refreshing job
    refreshing := [] }
  grantAll s w cache.waiting.length l

end Timeline

end Circulation
