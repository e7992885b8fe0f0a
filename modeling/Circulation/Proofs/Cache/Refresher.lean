import Circulation.Proofs.Cache.Attempts
import Circulation.Proofs.Cache.Timeline

/-!
# The pace of a refresher

On a timeline with nothing but one refresher, the agenda holds one job at a time: the request of the
next attempt, or the rest of the attempt that runs. A step takes the one to the other, and this keeps
the instants of the attempts, what the cache holds, and that the gate is free when it is asked for.

So every attempt begins and ends at the instant that the attempts before it leave to it. If all
attempts have a snapshot and are short, what the cache gives is never much older than a period of
freshness, and it is fresh whenever nothing builds.

## Main definitions

* `Circulation.Refresher.Visits`, `Circulation.Refresher.timelineAt` — the timelines of a refresher
  that is alone on its cache, and the one at an instant.
* `Circulation.Refresher.Rests`, `Circulation.Refresher.Builds` — what such a timeline looks like
  between attempts and during one.
* `Circulation.Refresher.KeepsPace` — attempts at their instants, the last snapshot in the cache, and
  how old it is.

## Main results

* `Circulation.Refresher.IsPaced.exists_step?` — a step of such a timeline, and what it leads to.
* `Circulation.Refresher.visits_keepsPace` — a refresher keeps its pace on all of them.
-/

namespace Circulation

variable {Q : Type} {A : Q → Type} {S : Type}

namespace Timeline

variable {l : Timeline Q A S} {n : Nat}

/-- All jobs that are due have been done. -/
def IsSettled (l : Timeline Q A S) : Prop :=
  ∀ t, l.next? = some t → l.now < t

/-- An update has been requested. -/
def HasBegun (l : Timeline Q A S) (ticket : Ticket) : Prop :=
  ticket < l.tickets

/-- An update has been requested and does not build any more. -/
def HasEnded (l : Timeline Q A S) (ticket : Ticket) : Prop :=
  ticket < l.tickets ∧ ticket ∉ l.cache.building

theorem next?_of_agenda_eq {x : Nat × Job Q A} {agenda : List (Nat × Job Q A)}
    (hagenda : l.agenda = x :: agenda) : l.next? = some x.1 := by
  rw [next?, hagenda]
  rfl

theorem isSettled_iff_of_agenda_eq {x : Nat × Job Q A} {agenda : List (Nat × Job Q A)}
    (hagenda : l.agenda = x :: agenda) : l.IsSettled ↔ l.now < x.1 := by
  rw [IsSettled, next?_of_agenda_eq hagenda]
  exact ⟨fun h => h x.1 rfl, fun h t ht => (Option.some.inj ht) ▸ h⟩

/-- A step of the cache in which an update begins to build. -/
theorem act_of_build {s : Cache.Settings} {w : World Q A S} {a : Cache.Step} {cache : Cache}
    {ticket : Ticket} (hstep : l.cache.step s l.now a = some (cache, some (.build ticket))) :
    l.act s w a = ({ l with cache } : Timeline Q A S).proceed s w ticket w.build := by
  rw [act, take, hstep]

/-- A step of the cache in which it does nothing. -/
theorem act_of_none {s : Cache.Settings} {w : World Q A S} {a : Cache.Step} {cache : Cache}
    (hstep : l.cache.step s l.now a = some (cache, none)) : l.act s w a = { l with cache } := by
  rw [act, take, hstep]

/-- Where no update waits, nobody is given the gate. -/
theorem grantAll_of_waiting_eq {s : Cache.Settings} {w : World Q A S}
    (hwaiting : l.cache.waiting = []) : l.grantAll s w l.cache.waiting.length = l := by
  rw [hwaiting]
  rfl

/-- A request to a cache that nothing else uses begins to build, with single flight or without: the
gate is free, and nothing was stored after the request. -/
theorem grantAll_act_request (s : Cache.Settings) (w : World Q A S) {slot : Option Stored}
    (hcache : l.cache = { slot }) (hstored : ∀ stored, slot = some stored → stored.storedAt ≤ l.now)
    {begun : Timeline Q A S} (hbegun : begun = { l with
      cache := { slot, gate := if s.singleFlight then some n else none, building := [n] } })
    (hwaiting : (begun.proceed s w n w.build).cache.waiting = []) :
    (l.act s w (.request n s.denom)).grantAll s w (l.act s w (.request n s.denom)).cache.waiting.length =
      begun.proceed s w n w.build := by
  have hfree : ¬({ slot } : Cache).IsPending n := by simp [Cache.IsPending]
  cases hflight : s.singleFlight with
  | false =>
    have hstart : l.cache.step s l.now (.request n s.denom) =
        some ({ slot, building := [n] }, some (.build n)) := by
      rw [hcache]
      exact Cache.step_of_happens (.start hfree hflight)
    have hact : l.act s w (.request n s.denom) = begun.proceed s w n w.build := by
      rw [act_of_build hstart, hbegun, hflight]
      rfl
    rw [hact, grantAll_of_waiting_eq hwaiting]
  | true =>
    have hwait : l.cache.step s l.now (.request n s.denom) =
        some ({ slot, waiting := [⟨n, l.now⟩] }, none) := by
      rw [hcache]
      exact Cache.step_of_happens (.wait hfree hflight)
    have henter : ({ slot, waiting := [⟨n, l.now⟩] } : Cache).step s l.now .grant =
        some ({ slot, gate := some n, building := [n] }, some (.build n)) :=
      Cache.step_of_happens (@Cache.Happens.enter s l.now _ ⟨n, l.now⟩ [] rfl rfl
        (Cache.storedAfter?_eq_none_iff.mpr hstored))
    have hgranted : ({ l with cache := { slot, waiting := [⟨n, l.now⟩] } } : Timeline Q A S).act s w
        .grant = begun.proceed s w n w.build := by
      rw [act_of_build henter, hbegun, hflight]
      rfl
    rw [act_of_none hwait]
    exact hgranted

end Timeline

namespace Refresher

open Timeline

variable {r : Refresher Q A S} {l : Timeline Q A S} {n : Nat}
  {rest : Program Q A Event (Except ComputeError Snapshot)} {result : Except ComputeError Snapshot}

variable (r) in
/-- The timelines of a refresher that is alone on its cache: it starts, jobs are done when they are
due, and time passes between them. -/
inductive Visits : Timeline Q A S → Prop
  | start : Visits (({ world := r.world } : Timeline Q A S).spawn r.settings)
  | step {l l' : Timeline Q A S} (hl : Visits l)
      (hstep : l.step? r.settings r.answers = some l') : Visits l'
  | wait {l : Timeline Q A S} (instant : Nat) (hl : Visits l)
      (hnext : ∀ t, l.next? = some t → instant ≤ t) : Visits { l with now := max l.now instant }

/-! ### Between attempts and during one -/

variable (r) in
/-- Before an attempt nothing builds, and all that is due is its request. -/
structure Rests (n : Nat) (l : Timeline Q A S) : Prop where
  world_eq : l.world = r.before n
  cache_eq : l.cache = { slot := r.slotAfter n }
  agenda_eq : l.agenda = [(r.startOf n, .refresh)]
  tickets_eq : l.tickets = n
  refreshing_eq : l.refreshing = []
  now_le : l.now ≤ r.startOf n
  stopOf_le : ∀ k < n, r.stopOf k ≤ l.now

variable (r) in
/-- During an attempt only it builds, and the rest of it, which goes on at an instant, has the result
and the end of the attempt. -/
structure Builds (n instant : Nat) (rest : Program Q A Event (Except ComputeError Snapshot))
    (l : Timeline Q A S) : Prop where
  cache_eq : l.cache =
    { slot := r.slotAfter n
      gate := if r.settings.singleFlight then some n else none
      building := [n] }
  tickets_eq : l.tickets = n + 1
  refreshing_eq : l.refreshing = [n]
  startOf_le : r.startOf n ≤ l.now
  now_le : l.now ≤ instant
  value_eq : (rest.timed r.answers.answer l.world).value = (r.attempt n).value
  stopOf_eq : r.stopOf n = instant + (rest.timed r.answers.answer l.world).milliseconds
  world_eq : (rest.timed r.answers.answer l.world).world = r.before (n + 1)

variable (r) in
/-- Either an attempt is waited for or one runs, and its rest is all that is due. -/
inductive IsPaced (l : Timeline Q A S) : Prop
  | rests (n : Nat) (hrests : r.Rests n l) : IsPaced l
  | builds (n instant : Nat) (rest : Program Q A Event (Except ComputeError Snapshot))
      (hbuilds : r.Builds n instant rest l)
      (hagenda : l.agenda = [(instant, .resume n rest)]) : IsPaced l

/-! ### Steps -/

namespace Builds

/-- The cache at the end of an attempt: it holds what the attempt leaves there, and the gate is
free. -/
theorem step_finish (hbuilds : r.Builds n l.now (.done result) l) :
    l.cache.step r.settings l.now (.finish n result) =
      some ({ slot := r.slotAfter (n + 1) }, some (.reply n (result.mapError .compute))) := by
  have hvalue : (r.attempt n).value = result := hbuilds.value_eq.symm
  have hstop : r.stopOf n = l.now := hbuilds.stopOf_eq
  have hbuilding : n ∈ l.cache.building := hbuilds.cache_eq ▸ List.mem_singleton_self n
  have hleave : l.cache.leave n = { slot := r.slotAfter n } := by
    rw [hbuilds.cache_eq]
    cases r.settings.singleFlight <;> simp [Cache.leave]
  refine Cache.step_of_happens ?_
  cases result with
  | ok snapshot =>
    rw [slotAfter_succ_of_ok hvalue, hstop]
    have hstore : Cache.Happens r.settings l.now l.cache (.finish n (.ok snapshot))
        { l.cache.leave n with slot := some ⟨snapshot, l.now⟩ } (some (.reply n (.ok snapshot))) :=
      .store hbuilding
    rwa [hleave] at hstore
  | error why =>
    rw [slotAfter_succ_of_error hvalue, ← hleave]
    exact .fail hbuilding

/-- An attempt ends, and the next one is entered. -/
theorem finish (hbuilds : r.Builds n l.now (.done result) l) (hagenda : l.agenda = []) :
    r.Rests (n + 1) (l.take r.settings (.finish n result)).1 ∧
      (l.take r.settings (.finish n result)).1.now = l.now := by
  have hstop : r.stopOf n = l.now := hbuilds.stopOf_eq
  have hmem : n ∈ l.refreshing := hbuilds.refreshing_eq ▸ List.mem_singleton_self n
  rw [take, hbuilds.step_finish]
  simp only [deliver, if_pos hmem]
  refine ⟨⟨hbuilds.world_eq, rfl, ?_, hbuilds.tickets_eq, ?_, ?_, ?_⟩, rfl⟩
  · change enter (l.now + r.settings.ttlMs) .refresh l.agenda = _
    rw [hagenda, startOf_succ, hstop]
    rfl
  · change l.refreshing.erase n = []
    rw [hbuilds.refreshing_eq, List.erase_cons_head]
  · change l.now ≤ _
    rw [startOf_succ, hstop]
    exact Nat.le_add_right _ _
  · intro k hk
    change r.stopOf k ≤ l.now
    rcases Nat.lt_succ_iff_lt_or_eq.mp hk with hk | rfl
    · exact ((stopOf_lt_startOf hk).trans_le hbuilds.startOf_le).le
    · exact hstop.le

/-- An attempt waits for an answer, and its rest is entered. -/
theorem schedule {instant : Nat} (hbuilds : r.Builds n instant rest l) (hagenda : l.agenda = [])
    {milliseconds : Nat} (hinstant : instant = l.now + milliseconds) :
    r.Builds n instant rest (l.schedule milliseconds (.resume n rest)) ∧
      (l.schedule milliseconds (.resume n rest)).agenda = [(instant, .resume n rest)] := by
  refine ⟨{ hbuilds with }, ?_⟩
  rw [hinstant, Timeline.schedule, hagenda]
  rfl

/-- The rest of an attempt, as far as it gets. -/
theorem proceed (hbuilds : r.Builds n l.now rest l) (hagenda : l.agenda = []) :
    r.IsPaced (l.proceed r.settings r.answers n rest) ∧
      (l.proceed r.settings r.answers n rest).IsSettled ∧
      (l.proceed r.settings r.answers n rest).now = l.now := by
  obtain ⟨hends, hpauses⟩ := rest.timed_eq_of_advance r.answers.answer l.world
  have hvalue := hbuilds.value_eq
  have hstop := hbuilds.stopOf_eq
  have hworld := hbuilds.world_eq
  rw [Timeline.proceed]
  generalize rest.advance r.answers.answer l.world = advanced at hends hpauses
  obtain ⟨world, events, outcome⟩ := advanced
  rcases outcome with result | ⟨milliseconds, later⟩
  · rw [hends result rfl] at hvalue hstop hworld
    have hdone : r.Builds n (noteAll events { l with world }).now (.done result)
        (noteAll events { l with world }) :=
      { hbuilds with value_eq := hvalue, stopOf_eq := hstop, world_eq := hworld }
    obtain ⟨hrests, hnow⟩ := hdone.finish hagenda
    refine ⟨.rests _ hrests, (isSettled_iff_of_agenda_eq hrests.agenda_eq).mpr ?_, hnow⟩
    rw [hnow]
    exact hstop.symm.trans_lt (stopOf_lt_startOf n.lt_succ_self)
  · obtain ⟨hpos, htimed⟩ := hpauses milliseconds later rfl
    rw [htimed] at hvalue hstop hworld
    have hlater : r.Builds n (l.now + milliseconds) later (noteAll events { l with world }) :=
      { hbuilds with
        now_le := Nat.le_add_right _ _
        value_eq := hvalue
        stopOf_eq := hstop.trans (Nat.add_assoc _ _ _).symm
        world_eq := hworld }
    obtain ⟨hlater, hentered⟩ := hlater.schedule hagenda rfl
    exact ⟨.builds n _ later hlater hentered,
      (isSettled_iff_of_agenda_eq hentered).mpr (Nat.lt_add_of_pos_right hpos), rfl⟩

end Builds

/-- On such a timeline no update waits for the gate. -/
theorem IsPaced.waiting_eq (hl : r.IsPaced l) : l.cache.waiting = [] := by
  cases hl with
  | rests n hrests => rw [hrests.cache_eq]
  | builds n instant rest hbuilds hagenda => rw [hbuilds.cache_eq]

/-- The request of an attempt, with which it begins to build. -/
theorem Rests.exists_begun (hrests : r.Rests n l) :
    ∃ l', r.Builds n l'.now r.answers.build l' ∧ l'.agenda = [] ∧ l'.now = r.startOf n ∧
      l.step? r.settings r.answers = some (l'.proceed r.settings r.answers n r.answers.build) := by
  let requested : Timeline Q A S :=
    { l with now := r.startOf n, agenda := [], tickets := n + 1, refreshing := [n] }
  let begun : Timeline Q A S := { requested with
    cache :=
      { slot := r.slotAfter n
        gate := if r.settings.singleFlight then some n else none
        building := [n] } }
  have hbuilds : r.Builds n begun.now r.answers.build begun :=
    { cache_eq := rfl
      tickets_eq := rfl
      refreshing_eq := rfl
      startOf_le := le_rfl
      now_le := le_rfl
      value_eq := by rw [attempt, ← hrests.world_eq]
      stopOf_eq := by rw [stopOf, attempt, ← hrests.world_eq]
      world_eq := by rw [before, ← hrests.world_eq] }
  obtain ⟨hpaced, -⟩ := hbuilds.proceed rfl
  have hstored : ∀ stored, r.slotAfter n = some stored → stored.storedAt ≤ requested.now :=
    fun stored hslot => (storedAt_lt_startOf hslot).le
  refine ⟨begun, hbuilds, rfl, rfl, ?_⟩
  rw [step?, hrests.agenda_eq]
  simp only [perform, hrests.tickets_eq, hrests.refreshing_eq, List.nil_append]
  exact congrArg some
    (grantAll_act_request (l := requested) r.settings r.answers hrests.cache_eq hstored rfl
      hpaced.waiting_eq)

/-- There is always a next job, and the timeline after it is one of the refresher again. -/
theorem IsPaced.exists_step? (hl : r.IsPaced l) :
    ∃ l', l.step? r.settings r.answers = some l' ∧ r.IsPaced l' ∧ l'.IsSettled ∧
      l.next? = some l'.now := by
  cases hl with
  | rests n hrests =>
    obtain ⟨begun, hbuilds, hagenda, hnow, hstep⟩ := hrests.exists_begun
    obtain ⟨hpaced, hsettled, hnow'⟩ := hbuilds.proceed hagenda
    refine ⟨_, hstep, hpaced, hsettled, ?_⟩
    rw [next?_of_agenda_eq hrests.agenda_eq, hnow', hnow]
  | builds n instant rest hbuilds hagenda =>
    let due : Timeline Q A S := { l with now := instant, agenda := [] }
    have hdue : r.Builds n due.now rest due :=
      { hbuilds with
        startOf_le := hbuilds.startOf_le.trans hbuilds.now_le
        now_le := le_rfl }
    obtain ⟨hpaced, hsettled, hnow⟩ := hdue.proceed rfl
    refine ⟨_, ?_, hpaced, hsettled, ?_⟩
    · rw [step?, hagenda]
      exact congrArg some (grantAll_of_waiting_eq hpaced.waiting_eq)
    · rw [next?_of_agenda_eq hagenda, hnow]

/-! ### Runs -/

theorem IsPaced.wait (hl : r.IsPaced l) {instant : Nat} (hnext : ∀ t, l.next? = some t → instant ≤ t) :
    r.IsPaced { l with now := max l.now instant } := by
  cases hl with
  | rests n hrests =>
    have hle : instant ≤ r.startOf n := hnext _ (next?_of_agenda_eq hrests.agenda_eq)
    exact .rests n { hrests with
      now_le := Nat.max_le.mpr ⟨hrests.now_le, hle⟩
      stopOf_le := fun k hk => (hrests.stopOf_le k hk).trans (Nat.le_max_left _ _) }
  | builds n due rest hbuilds hagenda =>
    have hle : instant ≤ due := hnext _ (next?_of_agenda_eq hagenda)
    exact .builds n due rest { hbuilds with
      startOf_le := hbuilds.startOf_le.trans (Nat.le_max_left _ _)
      now_le := Nat.max_le.mpr ⟨hbuilds.now_le, hle⟩ } hagenda

theorem Visits.isPaced (hl : r.Visits l) : r.IsPaced l := by
  induction hl with
  | start =>
    exact .rests 0
      { world_eq := rfl
        cache_eq := rfl
        agenda_eq := by rw [startOf_zero]; rfl
        tickets_eq := rfl
        refreshing_eq := rfl
        now_le := Nat.zero_le _
        stopOf_le := fun k hk => absurd hk (Nat.not_lt_zero k) }
  | step hl hstep ih =>
    obtain ⟨l', hstep', hpaced, -⟩ := ih.exists_step?
    rwa [Option.some.inj (hstep.symm.trans hstep')]
  | wait instant hl hnext ih => exact ih.wait hnext

/-- The timelines of a refresher are among those of its cache. -/
theorem Visits.reachable (hl : r.Visits l) : l.Reachable r.settings r.answers := by
  induction hl with
  | start => exact (Reachable.start r.world).spawn
  | step hl hstep ih => exact ih.step hstep
  | wait instant hl hnext ih => exact ih.wait instant hnext

/-- A settled timeline of a refresher can be run to any instant that is not past: every job on the
way is later than the one before it. -/
theorem IsPaced.runTo_of_isSettled (hl : r.IsPaced l) (hsettled : l.IsSettled) {t fuel : Nat}
    (hle : l.now ≤ t) (hfuel : t < l.now + fuel) :
    (l.runTo r.settings r.answers t fuel).now = t ∧
      (l.runTo r.settings r.answers t fuel).IsSettled := by
  induction fuel generalizing l with
  | zero => exact absurd hle (by omega)
  | succ fuel ih =>
    obtain ⟨l', hstep, hl', hsettled', hnext⟩ := hl.exists_step?
    have hlt : l.now < l'.now := hsettled _ hnext
    simp only [Timeline.runTo, hnext, hstep]
    by_cases hdue : l'.now ≤ t
    · rw [if_pos hdue]
      exact ih hl' hsettled' hdue (by omega)
    · rw [if_neg hdue]
      refine ⟨max_eq_right hle, fun t' ht' => ?_⟩
      obtain rfl := Option.some.inj (hnext.symm.trans ht')
      exact max_lt hlt (Nat.lt_of_not_le hdue)

variable (r) in
/-- The timeline of a refresher at an instant, with all done that is due by then. -/
def timelineAt (t : Nat) : Timeline Q A S :=
  (({ world := r.world } : Timeline Q A S).spawn r.settings).runTo r.settings r.answers t (t + 2)

theorem visits_timelineAt (t : Nat) : r.Visits (r.timelineAt t) :=
  runTo_induction .step .wait .start t (t + 2)

theorem timelineAt_now (t : Nat) : (r.timelineAt t).now = t ∧ (r.timelineAt t).IsSettled := by
  obtain ⟨l, hstep, hl, hsettled, hnext⟩ := (Visits.start (r := r)).isPaced.exists_step?
  have hnow : l.now = 0 := Option.some.inj (hnext.symm.trans rfl)
  rw [timelineAt, Timeline.runTo]
  simp only [hnext, hstep, hnow, Nat.zero_le, if_true]
  exact hl.runTo_of_isSettled hsettled (by omega) (by omega)

/-! ### The pace -/

variable (r) in
/-- A refresher keeps its pace on a timeline: its attempts begin and end at their instants, the cache
holds what the last attempt with a snapshot stored, and if all attempts have snapshots and are short,
what the cache gives is not old. -/
structure KeepsPace (l : Timeline Q A S) : Prop where
  /-- No attempt begins early. -/
  startOf_le : ∀ n, l.HasBegun n → r.startOf n ≤ l.now
  /-- No attempt begins late. -/
  hasBegun : l.IsSettled → ∀ n, r.startOf n ≤ l.now → l.HasBegun n
  /-- No attempt ends early. -/
  stopOf_le : ∀ n, l.HasEnded n → r.stopOf n ≤ l.now
  /-- No attempt ends late. -/
  hasEnded : l.IsSettled → ∀ n, r.stopOf n ≤ l.now → l.HasEnded n
  /-- What builds is the attempt whose instants these are. -/
  mem_building_iff : l.IsSettled → ∀ n, n ∈ l.cache.building ↔ r.startOf n ≤ l.now ∧ l.now < r.stopOf n
  /-- The cache is empty as long as no attempt had a snapshot. -/
  slot_eq_none_iff : l.cache.slot = none ↔
    ∀ k, l.HasEnded k → ∃ why, (r.attempt k).value = .error why
  /-- What the cache holds is of the last attempt that had a snapshot. -/
  slot_eq_some_iff : ∀ stored, l.cache.slot = some stored ↔
    ∃ k, l.HasEnded k ∧ (r.attempt k).value = .ok stored.snapshot ∧ stored.storedAt = r.stopOf k ∧
      ∀ j, l.HasEnded j → k < j → ∃ why, (r.attempt j).value = .error why
  /-- If every attempt has a snapshot within some milliseconds, then after the first one the cache
  gives a snapshot that is at most a period of freshness and these milliseconds old, and fresh while
  nothing builds. -/
  age_le : ∀ d, (∀ n, ∃ snapshot, (r.attempt n).value = .ok snapshot) →
    (∀ n, (r.attempt n).milliseconds ≤ d) → l.HasEnded 0 →
      ∃ stored fresh, l.cache.slot = some stored ∧ stored.storedAt ≤ l.now ∧
        l.now ≤ stored.storedAt + (r.settings.ttlMs + d) ∧
        Cache.get r.settings l.now l.cache = (some stored.snapshot, fresh) ∧
        (l.cache.building = [] → fresh = true)

theorem Rests.hasBegun_iff (hrests : r.Rests n l) {k : Nat} : l.HasBegun k ↔ k < n := by
  rw [HasBegun, hrests.tickets_eq]

theorem Rests.hasEnded_iff (hrests : r.Rests n l) {k : Nat} : l.HasEnded k ↔ k < n := by
  simp [HasEnded, hrests.tickets_eq, hrests.cache_eq]

theorem Builds.hasBegun_iff {instant : Nat} (hbuilds : r.Builds n instant rest l) {k : Nat} :
    l.HasBegun k ↔ k ≤ n := by
  rw [HasBegun, hbuilds.tickets_eq, Nat.lt_succ_iff]

theorem Builds.hasEnded_iff {instant : Nat} (hbuilds : r.Builds n instant rest l) {k : Nat} :
    l.HasEnded k ↔ k < n := by
  simp only [HasEnded, hbuilds.tickets_eq, hbuilds.cache_eq, List.mem_singleton, Nat.lt_succ_iff]
  exact Nat.lt_iff_le_and_ne.symm

/-- How many attempts have ended, what they left in the cache, and how far the next one is. -/
theorem IsPaced.exists_hasEnded_iff (hl : r.IsPaced l) :
    ∃ n, (∀ k, l.HasEnded k ↔ k < n) ∧ l.cache.slot = r.slotAfter n ∧
      (∀ k < n, r.stopOf k ≤ l.now) ∧ l.now ≤ r.stopOf n ∧
      (l.cache.building = [] → l.now ≤ r.startOf n) ∧ (l.IsSettled → l.now < r.stopOf n) := by
  cases hl with
  | rests n hrests =>
    refine ⟨n, fun k => hrests.hasEnded_iff, by rw [hrests.cache_eq], hrests.stopOf_le,
      hrests.now_le.trans startOf_le_stopOf, fun _ => hrests.now_le, fun hsettled => ?_⟩
    have hlt : l.now < r.startOf n := (isSettled_iff_of_agenda_eq hrests.agenda_eq).mp hsettled
    exact hlt.trans_le startOf_le_stopOf
  | builds n instant rest hbuilds hagenda =>
    have hinstant : instant ≤ r.stopOf n := hbuilds.stopOf_eq ▸ Nat.le_add_right _ _
    refine ⟨n, fun k => hbuilds.hasEnded_iff, by rw [hbuilds.cache_eq],
      fun k hk => ((stopOf_lt_startOf hk).trans_le hbuilds.startOf_le).le,
      hbuilds.now_le.trans hinstant, fun hidle => ?_, fun hsettled => ?_⟩
    · rw [hbuilds.cache_eq] at hidle
      exact absurd hidle (List.cons_ne_nil n [])
    · have hlt : l.now < instant := (isSettled_iff_of_agenda_eq hagenda).mp hsettled
      exact hlt.trans_le hinstant

theorem IsPaced.startOf_le_of_hasBegun (hl : r.IsPaced l) (hbegun : l.HasBegun n) :
    r.startOf n ≤ l.now := by
  cases hl with
  | rests m hrests =>
    exact startOf_le_stopOf.trans (hrests.stopOf_le n (hrests.hasBegun_iff.mp hbegun))
  | builds m instant rest hbuilds hagenda =>
    exact (startOf_mono (hbuilds.hasBegun_iff.mp hbegun)).trans hbuilds.startOf_le

theorem IsPaced.hasBegun_of_isSettled (hl : r.IsPaced l) (hsettled : l.IsSettled)
    (hle : r.startOf n ≤ l.now) : l.HasBegun n := by
  cases hl with
  | rests m hrests =>
    have hlt : l.now < r.startOf m := (isSettled_iff_of_agenda_eq hrests.agenda_eq).mp hsettled
    refine hrests.hasBegun_iff.mpr (Nat.lt_of_not_le fun hge => ?_)
    exact absurd (startOf_mono (r := r) hge) (hle.trans_lt hlt).not_ge
  | builds m instant rest hbuilds hagenda =>
    have hstop : l.now ≤ r.stopOf m :=
      hbuilds.now_le.trans (hbuilds.stopOf_eq ▸ Nat.le_add_right _ _)
    refine hbuilds.hasBegun_iff.mpr (Nat.le_of_not_lt fun hlt => ?_)
    exact absurd (stopOf_lt_startOf (r := r) hlt) (hle.trans hstop).not_gt

theorem IsPaced.hasBegun_of_mem_building (hl : r.IsPaced l) (hbuilding : n ∈ l.cache.building) :
    l.HasBegun n := by
  cases hl with
  | rests m hrests =>
    rw [hrests.cache_eq] at hbuilding
    exact absurd hbuilding List.not_mem_nil
  | builds m instant rest hbuilds hagenda =>
    rw [hbuilds.cache_eq, List.mem_singleton] at hbuilding
    exact hbuilds.hasBegun_iff.mpr hbuilding.le

/-- A timeline on which the attempts of a refresher run keeps its pace. -/
theorem IsPaced.keepsPace (hl : r.IsPaced l) : r.KeepsPace l := by
  obtain ⟨n, hended, hslot, hstop, hnow, hidle, hsettled⟩ := hl.exists_hasEnded_iff
  have hstop_le : ∀ k, l.HasEnded k → r.stopOf k ≤ l.now := fun k hk => hstop k ((hended k).mp hk)
  have hends : l.IsSettled → ∀ k, r.stopOf k ≤ l.now → l.HasEnded k := by
    intro hall k hk
    refine (hended k).mpr (Nat.lt_of_not_le fun hge => ?_)
    exact absurd (stopOf_mono (r := r) hge) (hk.trans_lt (hsettled hall)).not_ge
  refine
    { startOf_le := fun k => hl.startOf_le_of_hasBegun
      hasBegun := fun hall k => hl.hasBegun_of_isSettled hall
      stopOf_le := hstop_le
      hasEnded := hends
      mem_building_iff := fun hall k => ⟨fun hbuilding => ?_, fun ⟨hstart, hlt⟩ => ?_⟩
      slot_eq_none_iff := ?_
      slot_eq_some_iff := fun stored => ?_
      age_le := fun d hok hd hfirst => ?_ }
  · refine ⟨hl.startOf_le_of_hasBegun (hl.hasBegun_of_mem_building hbuilding), ?_⟩
    exact Nat.lt_of_not_le fun hle => (hends hall k hle).2 hbuilding
  · by_contra hbuilding
    exact absurd (hstop_le k ⟨hl.hasBegun_of_isSettled hall hstart, hbuilding⟩) hlt.not_ge
  · simp only [hslot, hended, slotAfter_eq_none_iff]
  · simp only [hslot, hended, slotAfter_eq_some_iff]
  · obtain ⟨m, rfl⟩ := Nat.exists_eq_succ_of_ne_zero ((hended 0).mp hfirst).ne'
    obtain ⟨snapshot, hafter⟩ := exists_slotAfter_succ hok m
    have hheld : l.cache.slot = some ⟨snapshot, r.stopOf m⟩ := hslot.trans hafter
    refine ⟨_, Cache.isFreshAt r.settings l.now ⟨snapshot, r.stopOf m⟩, hheld,
      hstop m m.lt_succ_self, ?_, ?_, fun hnone => ?_⟩
    · calc l.now
        _ ≤ r.stopOf (m + 1) := hnow
        _ = r.stopOf m + r.settings.ttlMs + (r.attempt (m + 1)).milliseconds := by
          rw [stopOf, startOf_succ]
        _ ≤ r.stopOf m + r.settings.ttlMs + d := Nat.add_le_add_left (hd (m + 1)) _
        _ = r.stopOf m + (r.settings.ttlMs + d) := Nat.add_assoc _ _ _
    · rw [Cache.get, hheld]
    · have hstart := hidle hnone
      rw [startOf_succ] at hstart
      exact decide_eq_true hstart

/-- **A refresher keeps its pace.** There is a timeline of it at every instant, and on every timeline
of it an attempt begins after a period of freshness for each attempt before it and all the time that
these took, whatever they gave; the cache holds what the last attempt with a snapshot stored; and
while every attempt has a snapshot and takes at most `d` milliseconds, what the cache gives from the
first end on is at most a period of freshness and `d` milliseconds old, and fresh while nothing
builds. -/
theorem visits_keepsPace (r : Refresher Q A S) :
    (∀ t, r.Visits (r.timelineAt t) ∧ (r.timelineAt t).now = t ∧ (r.timelineAt t).IsSettled) ∧
      ∀ l, r.Visits l → r.KeepsPace l :=
  ⟨fun t => ⟨visits_timelineAt t, timelineAt_now t⟩, fun _ hl => hl.isPaced.keepsPace⟩

/-- Builds fail three times, the second one after a while, and succeed from then on. -/
def failing : Refresher Unit (fun _ => Except ComputeError Snapshot) Nat :=
  ofAttempts (.ofOptions "ulume" { ttlMs := 10 })
    (fun n => if n < 3 then .error (.height (.missing "block")) else .ok .small)
    (fun n => if n = 1 then 5 else 0)

/-- Builds succeed at once and after a while, in turns. -/
def steady : Refresher Unit (fun _ => Except ComputeError Snapshot) Nat :=
  ofAttempts (.ofOptions "ulume" { ttlMs := 10 }) (fun _ => .ok .small) (fun n => n % 2 * 5)

theorem visits_keepsPace_failing_steady :
    (failing.timelineAt 34).cache.slot = none ∧
      (failing.timelineAt 35).cache.slot = some ⟨.small, 35⟩ ∧
      ∀ t, ∃ stored : Stored, ∃ fresh, t ≤ stored.storedAt + 15 ∧
        Cache.get steady.settings t (steady.timelineAt t).cache = (some stored.snapshot, fresh) := by
  have hfailing := fun t => (visits_keepsPace failing).2 _ ((visits_keepsPace failing).1 t).1
  have hvalue : ∀ k, (failing.attempt k).value =
      if k < 3 then .error (.height (.missing "block")) else .ok .small :=
    fun k => congrArg Timed.value (attempt_ofAttempts _ _ _ k)
  have hstop : failing.stopOf 3 = 35 := rfl
  refine ⟨?_, ?_, fun t => ?_⟩
  · refine (hfailing 34).slot_eq_none_iff.mpr fun k hk => ⟨.height (.missing "block"), ?_⟩
    have hle : failing.stopOf k ≤ 34 := (timelineAt_now 34).1 ▸ (hfailing 34).stopOf_le k hk
    have hlt : k < 3 := Nat.lt_of_not_le fun hge =>
      absurd (hstop ▸ stopOf_mono (r := failing) hge) (hle.trans_lt (by decide)).not_ge
    rw [hvalue, if_pos hlt]
  · obtain ⟨hnow, hsettled⟩ := timelineAt_now (r := failing) 35
    refine ((hfailing 35).slot_eq_some_iff _).mpr ⟨3, ?_, hvalue 3, hstop.symm, fun j hj hlt => ?_⟩
    · exact (hfailing 35).hasEnded hsettled 3 (hnow ▸ hstop.le)
    · have hle : failing.stopOf j ≤ 35 := hnow ▸ (hfailing 35).stopOf_le j hj
      have hfour : failing.stopOf 4 ≤ failing.stopOf j := stopOf_mono hlt
      exact absurd (hfour.trans hle) (by decide)
  · obtain ⟨hnow, hsettled⟩ := timelineAt_now (r := steady) t
    have hpace := (visits_keepsPace steady).2 _ ((visits_keepsPace steady).1 t).1
    have hattempt : ∀ n, steady.attempt n = ⟨.ok .small, n % 2 * 5, n + 1⟩ := attempt_ofAttempts _ _ _
    have hshort : ∀ n, (steady.attempt n).milliseconds ≤ 5 := by
      intro n
      rw [hattempt]
      change n % 2 * 5 ≤ 5
      omega
    obtain ⟨stored, fresh, -, -, hage, hget, -⟩ := hpace.age_le 5
      (fun n => ⟨.small, by rw [hattempt]⟩) hshort (hpace.hasEnded hsettled 0 (Nat.zero_le _))
    rw [hnow] at hage hget
    exact ⟨stored, fresh, hage, hget⟩

end Refresher

end Circulation
