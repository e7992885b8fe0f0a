import Circulation.Snapshot.Compute

/-!
# The snapshot cache

A cache holds the last snapshot of one denomination that was built with success, and when it was
stored. An update builds a new snapshot. Updates may overlap; then the one that finishes last
stores last. With single flight they take turns at a gate instead: the gate is given in the order of
the requests, and an update that finds a snapshot stored after its own request takes that one and
does not build.

What updates do is cut into small steps, so that any interleaving of updates is a list of steps.
Instants are milliseconds on a clock that does not run back.

## Main definitions

* `Circulation.Cache.Settings`, `Circulation.Cache` — what a cache is set up with, and its state.
* `Circulation.Cache.get` — the stored snapshot, and whether it is fresh.
* `Circulation.Cache.Step`, `Circulation.Cache.step` — what happens to a cache, and what it does then.
* `Circulation.Cache.run` — many steps at their instants.
-/

namespace Circulation

/-- A number that tells the updates of a cache apart. -/
abbrev Ticket := Nat

/-- A snapshot, and the instant at which it was stored. -/
structure Stored where
  snapshot : Snapshot
  storedAt : Nat
  deriving DecidableEq, Repr

/-- An update that waits for the gate. -/
structure Waiting where
  ticket : Ticket
  requestedAt : Nat
  deriving DecidableEq, Repr

/-- The state of a cache. -/
structure Cache where
  slot : Option Stored := none
  /-- The update that holds the gate. -/
  gate : Option Ticket := none
  /-- The updates that wait for the gate, in the order of their requests. -/
  waiting : List Waiting := []
  /-- The updates that build a snapshot. -/
  building : List Ticket := []
  deriving DecidableEq, Repr

namespace Cache

/-- What a cache can be asked for. -/
structure Options where
  /-- How long a snapshot is fresh, in milliseconds. Zero stands for the default. -/
  ttlMs : Nat := 60000
  /-- Whether updates take turns. -/
  singleFlight : Bool := false
  deriving DecidableEq, Repr

/-- What a cache is set up with. -/
structure Settings where
  denom : String
  /-- How long a snapshot is fresh, in milliseconds. -/
  ttlMs : Nat
  /-- Whether updates take turns. -/
  singleFlight : Bool
  ttlMs_pos : 0 < ttlMs

/-- The settings of a cache for a denomination. -/
def Settings.ofOptions (denom : String) (o : Options) : Settings where
  denom
  ttlMs := if o.ttlMs = 0 then ({} : Options).ttlMs else o.ttlMs
  singleFlight := o.singleFlight
  ttlMs_pos := by
    split
    · exact Nat.succ_pos 59999
    · exact Nat.pos_of_ne_zero ‹_›

/-- Why an update has no snapshot. -/
inductive Error where
  | denom (configured requested : String)
  | compute (why : ComputeError)
  deriving DecidableEq, Repr

/-- The text that reports why an update has no snapshot. -/
def Error.message : Error → String
  | .denom configured requested =>
    "cache holds " ++ configured ++ " snapshots, not " ++ requested
  | .compute why => why.message

/-- Whether a snapshot is fresh at an instant. -/
def isFreshAt (s : Settings) (now : Nat) (stored : Stored) : Bool :=
  now ≤ stored.storedAt + s.ttlMs

/-- The stored snapshot, and whether it is fresh. A snapshot that is not fresh is given too. -/
def get (s : Settings) (now : Nat) (c : Cache) : Option Snapshot × Bool :=
  match c.slot with
  | some stored => (some stored.snapshot, isFreshAt s now stored)
  | none => (none, false)

/-! ### Steps -/

/-- Something that happens to a cache. -/
inductive Step where
  /-- An update of a denomination is requested. -/
  | request (ticket : Ticket) (denom : String)
  /-- The gate is given to the first update that waits for it. -/
  | grant
  /-- A build ends. -/
  | finish (ticket : Ticket) (result : Except ComputeError Snapshot)
  /-- An update is given up. -/
  | cancel (ticket : Ticket)

/-- What a cache does in a step. -/
inductive Effect where
  /-- An update begins to build. -/
  | build (ticket : Ticket)
  /-- An update returns the stored snapshot, which another update built. -/
  | reuse (ticket : Ticket) (snapshot : Snapshot)
  /-- An update returns. -/
  | reply (ticket : Ticket) (result : Except Error Snapshot)

/-- Whether an update waits or builds. -/
def isPending (c : Cache) (ticket : Ticket) : Bool :=
  c.building.contains ticket || c.waiting.any (·.ticket == ticket)

/-- The stored snapshot, if it was stored after an instant. -/
def storedAfter? (c : Cache) (instant : Nat) : Option Snapshot :=
  c.slot.bind fun stored => if instant < stored.storedAt then some stored.snapshot else none

/-- The cache without an update. If the update held the gate, the gate is free. -/
def leave (c : Cache) (ticket : Ticket) : Cache :=
  { c with
    gate := if c.gate = some ticket then none else c.gate
    waiting := c.waiting.filter (·.ticket ≠ ticket)
    building := c.building.filter (· ≠ ticket) }

/-- The cache after an update is requested. -/
def request (s : Settings) (now : Nat) (c : Cache) (ticket : Ticket) (denom : String) :
    Cache × Option Effect :=
  if denom ≠ s.denom then (c, some (.reply ticket (.error (.denom s.denom denom))))
  else if s.singleFlight then ({ c with waiting := c.waiting ++ [⟨ticket, now⟩] }, none)
  else ({ c with building := c.building ++ [ticket] }, some (.build ticket))

/-- The cache after the gate is given to an update, the first of those that wait. -/
def grantFirst (c : Cache) (first : Waiting) (others : List Waiting) : Cache × Option Effect :=
  match c.storedAfter? first.requestedAt with
  | some snapshot => ({ c with waiting := others }, some (.reuse first.ticket snapshot))
  | none =>
    ({ c with
        gate := some first.ticket
        waiting := others
        building := c.building ++ [first.ticket] },
      some (.build first.ticket))

/-- The cache after a build ends. A snapshot is stored and an error changes nothing. -/
def finish (now : Nat) (c : Cache) (ticket : Ticket) :
    Except ComputeError Snapshot → Cache × Option Effect
  | .ok snapshot =>
    ({ c.leave ticket with slot := some ⟨snapshot, now⟩ }, some (.reply ticket (.ok snapshot)))
  | .error why => (c.leave ticket, some (.reply ticket (.error (.compute why))))

/-- The cache after a step at an instant, and what it does in the step, if the step can be taken. -/
def step (s : Settings) (now : Nat) (c : Cache) : Step → Option (Cache × Option Effect)
  | .request ticket denom =>
    if c.isPending ticket then none else some (c.request s now ticket denom)
  | .grant =>
    match c.gate, c.waiting with
    | none, first :: others => some (c.grantFirst first others)
    | _, _ => none
  | .finish ticket result =>
    if ticket ∈ c.building then some (c.finish now ticket result) else none
  | .cancel ticket => some (c.leave ticket, none)

/-- The cache after many steps at their instants, and all it does in them, if the steps can be
taken. -/
def run (s : Settings) : Cache → List (Nat × Step) → Option (Cache × List Effect)
  | c, [] => some (c, [])
  | c, (now, a) :: rest => do
    let (c, effect) ← c.step s now a
    let (c, effects) ← run s c rest
    return (c, effect.toList ++ effects)

end Cache

end Circulation
