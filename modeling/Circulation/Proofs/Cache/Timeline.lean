import Circulation.Proofs.Cache.Agenda
import Circulation.Proofs.Cache.Continuation
import Circulation.Proofs.Cache.SingleFlight

/-!
# Timelines are histories

A timeline decides when everything happens: requests and answers are jobs of an agenda, jobs of the
same instant run in order, and the gate is given as soon as it can be. So it is one history of its
cache among many, and what holds in every history holds in every timeline.

## Main definitions

* `Circulation.Timeline.Reachable` — the timelines that a cache gets to from its start.
* `Circulation.Timeline.IsPlayedBy` — a history in which a cache gets to a timeline.

## Main results

* `Circulation.Timeline.Reachable.exists_history` — a reachable timeline is played by a history, in
  which its updates return what they return on the timeline, at the same instants.
* `Circulation.Timeline.Reachable.length_building_le_one`,
  `Circulation.Timeline.Reachable.denom_of_reply` — what holds in histories, read on timelines.
-/

namespace Circulation

variable {Q : Type} {A : Q → Type} {S : Type} {s : Cache.Settings}

namespace Timeline

/-! ### Timelines that are played -/

variable {w : World Q A S} {l : Timeline Q A S} {h : Cache.History s w.build} {n : Nat}

/-- A history plays a timeline up to a moment: the cache is the same, what the timeline has returned
was returned at the same instants, and its jobs lie ahead and fit. -/
structure IsPlayedBy (w : World Q A S) (l : Timeline Q A S) (h : Cache.History s w.build) (n : Nat) :
    Prop where
  cache_eq : h.cache n = l.cache
  clock : ∀ k < n, h.instant k ≤ l.now
  replied : ∀ r ∈ l.replies, ∃ k < n, h.Returns k r.ticket r.result ∧ h.instant k = r.instant
  requested_lt : ∀ ticket ∈ (h.usage n).requested, ticket < l.tickets
  due : ∀ x ∈ l.agenda, l.now ≤ x.1
  sorted : l.agenda.Pairwise fun x y => x.1 ≤ y.1
  nodup : (l.agenda.filterMap (·.2.ticket?)).Nodup
  fits : ∀ x ∈ l.agenda, x.2.Fits w (h.usage n) l.tickets

/-- Some history plays a timeline. -/
def IsPlayed (s : Cache.Settings) (w : World Q A S) (l : Timeline Q A S) : Prop :=
  ∃ (h : Cache.History s w.build) (n : Nat), l.IsPlayedBy w h n

/-- An update builds and has no job: the rest of its build can be run. -/
structure IsReady (w : World Q A S) (l : Timeline Q A S) (u : Cache.Usage Q A) (ticket : Ticket)
    (rest : Program Q A Event (Except ComputeError Snapshot)) : Prop where
  fits : (Job.resume ticket rest).Fits w u l.tickets
  free : ∀ x ∈ l.agenda, x.2.ticket? ≠ some ticket

namespace IsPlayedBy

theorem schedule (hp : l.IsPlayedBy w h n) (after : Nat) {job : Job Q A}
    (hfits : job.Fits w (h.usage n) l.tickets)
    (hfree : ∀ ticket, job.ticket? = some ticket → ∀ x ∈ l.agenda, x.2.ticket? ≠ some ticket) :
    (l.schedule after job).IsPlayedBy w h n := by
  have hmem : ∀ x, x ∈ enter (l.now + after) job l.agenda ↔ x = (l.now + after, job) ∨ x ∈ l.agenda :=
    fun x => (perm_enter _ job l.agenda).mem_iff.trans List.mem_cons
  refine ⟨hp.cache_eq, hp.clock, hp.replied, hp.requested_lt, fun x hx => ?_,
    pairwise_enter _ job hp.sorted, ?_, fun x hx => ?_⟩
  · rcases (hmem x).mp hx with rfl | hx
    · exact Nat.le_add_right l.now after
    · exact hp.due x hx
  · refine ((perm_enter _ job l.agenda).filterMap _).nodup_iff.mpr ?_
    cases hticket : job.ticket? with
    | none =>
      simp only [List.filterMap_cons, hticket]
      exact hp.nodup
    | some ticket =>
      simp only [List.filterMap_cons, hticket]
      refine List.nodup_cons.mpr ⟨fun hx => ?_, hp.nodup⟩
      obtain ⟨x, hx, heq⟩ := List.mem_filterMap.mp hx
      exact hfree ticket hticket x hx heq
  · rcases (hmem x).mp hx with rfl | hx
    · exact hfits
    · exact hp.fits x hx

theorem schedule_refresh (hp : l.IsPlayedBy w h n) (after : Nat) :
    (l.schedule after .refresh).IsPlayedBy w h n := by
  have hrefresh : (Job.refresh : Job Q A).Fits w (h.usage n) l.tickets := trivial
  exact hp.schedule after hrefresh fun _ hticket => absurd hticket (by simp [Job.ticket?])

/-- An update that has returned gives its reply. -/
theorem deliver (hp : l.IsPlayedBy w h n) {ticket : Ticket} {result : Except Cache.Error Snapshot}
    (hreturns : ∃ k < n, h.Returns k ticket result ∧ h.instant k = l.now) :
    (l.deliver s ticket result).IsPlayedBy w h n := by
  rw [Timeline.deliver]
  split
  · have hnoted : (noteAll [refreshEvent s.denom result]
        { l with refreshing := l.refreshing.erase ticket }).IsPlayedBy w h n := { hp with }
    exact hnoted.schedule_refresh s.ttlMs
  · refine { hp with replied := fun r hr => ?_ }
    rcases List.mem_cons.mp hr with rfl | hr
    · exact hreturns
    · exact hp.replied r hr

/-- A history that plays a timeline can go on with a moment that spares its jobs. -/
theorem moment (hp : l.IsPlayedBy w h n) {action : Cache.Action Q A}
    (hallows : (h.usage n).Allows s w.build l.now action)
    (hrequested : ∀ ticket ∈ ((h.usage n).after s l.now action).requested, ticket < l.tickets)
    (hfits : ∀ x ∈ l.agenda, x.2.Fits w ((h.usage n).after s l.now action) l.tickets) :
    ∃ h' : Cache.History s w.build,
      { l with cache := ((h.usage n).after s l.now action).cache }.IsPlayedBy w h' (n + 1) ∧
        h'.usage n = h.usage n ∧ h'.action n = action ∧ h'.instant n = l.now := by
  refine ⟨h.extend n l.now action hp.clock hallows, ?_, h.usage_extend le_rfl,
    h.action_extend_self, h.instant_extend_self⟩
  have hafter : (h.extend n l.now action hp.clock hallows).usage (n + 1) =
      (h.usage n).after s l.now action := h.usage_extend_succ
  refine ⟨congrArg Cache.Usage.cache hafter, fun k hk => ?_, fun r hr => ?_, ?_, hp.due, hp.sorted,
    hp.nodup, ?_⟩
  · rcases Nat.lt_succ_iff_lt_or_eq.mp hk with hk | rfl
    · rw [h.instant_extend hk]
      exact hp.clock k hk
    · exact h.instant_extend_self.le
  · obtain ⟨k, hk, hreturns, hinstant⟩ := hp.replied r hr
    refine ⟨k, Nat.lt_succ_of_lt hk, ?_, (h.instant_extend hk).trans hinstant⟩
    rw [Cache.History.Returns, h.effect_extend hk]
    exact hreturns
  · rw [hafter]
    exact hrequested
  · rw [hafter]
    exact hfits

/-- An update that begins to build in the last moment is ready to run its build. -/
theorem isReady (hp : l.IsPlayedBy w h (n + 1)) {ticket : Ticket} (hbuilds : h.Builds n ticket)
    (hbefore : ∀ x ∈ l.agenda, x.2.Fits w (h.usage n) l.tickets) :
    l.IsReady w (h.usage (n + 1)) ticket w.build := by
  have hbuilding : ticket ∈ (h.cache (n + 1)).building := Cache.History.mem_building_of_builds hbuilds
  obtain ⟨a, haction, ha⟩ := Cache.History.step_of_builds hbuilds
  have hcalls : (h.usage (n + 1)).calls ticket = [] := by
    have hsame : (h.usage (n + 1)).calls = (h.usage n).calls := by
      change ((h.usage n).after s (h.instant n) (h.action n)).calls = _
      rw [haction, Cache.Usage.calls_after_step]
    rw [hsame, Cache.History.calls_eq_nil_of_builds hbuilds]
  refine ⟨⟨hbuilding, fun log result hrun => ?_⟩, fun x hx hticket => ?_⟩
  · rw [hcalls]
    exact hrun
  · obtain ⟨instant, job⟩ := x
    cases job with
    | refresh => exact absurd hticket (by simp [Job.ticket?])
    | call other denom =>
      obtain rfl := Option.some.inj hticket
      exact (hp.fits _ hx).2 (Cache.History.mem_requested_of_isPending (.inl hbuilding))
    | resume other rest =>
      obtain rfl := Option.some.inj hticket
      exact (h.isQueued n).not_mem_building_of_build ha (hbefore _ hx).1

/-- A step of the cache that spares the jobs. -/
theorem step (hp : l.IsPlayedBy w h n) {a : Cache.Step} {cache : Cache}
    {effect : Option Cache.Effect} (hstep : l.cache.step s l.now a = some (cache, effect))
    (hnew : ∀ ticket, a.requested? = some ticket →
      ticket ∉ (h.usage n).requested ∧ ticket < l.tickets)
    (hrun : ∀ ticket result, a = .finish ticket result →
      w.build.Run ((h.usage n).calls ticket) result)
    (hspares : ∀ x ∈ l.agenda, a.Spares x.2) :
    ∃ h' : Cache.History s w.build, { l with cache }.IsPlayedBy w h' (n + 1) ∧
      h'.usage n = h.usage n ∧ h'.effect n = effect ∧ h'.instant n = l.now := by
  rw [← hp.cache_eq] at hstep
  have hallows : (h.usage n).Allows s w.build l.now (.step a) :=
    ⟨fun ticket hticket => (hnew ticket hticket).1, hrun, Option.isSome_of_eq_some hstep⟩
  have hrequested : ∀ ticket ∈ ((h.usage n).after s l.now (.step a)).requested,
      ticket < l.tickets := by
    intro ticket hmem
    rcases hallows.mem_requested_after_iff.mp hmem with hticket | hmem
    · exact (hnew ticket hticket).2
    · exact hp.requested_lt ticket hmem
  obtain ⟨h', hp', husage, haction, hinstant⟩ := hp.moment hallows hrequested
    fun x hx => (hp.fits x hx).after_step hallows (hspares x hx)
  rw [Cache.Usage.after_of_step hstep] at hp'
  refine ⟨h', hp', husage, ?_, hinstant⟩
  rw [Cache.History.effect, husage, hinstant, haction, Cache.Usage.effectOf_of_step hstep]

/-- A step of the cache, and what it gives back: a reply, or an update that is ready to build. -/
theorem take (hp : l.IsPlayedBy w h n) {a : Cache.Step}
    (hnew : ∀ ticket, a.requested? = some ticket →
      ticket ∉ (h.usage n).requested ∧ ticket < l.tickets)
    (hrun : ∀ ticket result, a = .finish ticket result →
      w.build.Run ((h.usage n).calls ticket) result)
    (hspares : ∀ x ∈ l.agenda, a.Spares x.2) :
    ∃ (h' : Cache.History s w.build) (n' : Nat), (l.take s a).1.IsPlayedBy w h' n' ∧
      ∀ ticket, (l.take s a).2 = some ticket →
        (l.take s a).1.IsReady w (h'.usage n') ticket w.build := by
  rw [Timeline.take]
  split
  · exact ⟨h, n, hp, fun _ hticket => absurd hticket (by simp)⟩
  · next cache effect hstep =>
    obtain ⟨h', hp', husage, heffect, hinstant⟩ := hp.step hstep hnew hrun hspares
    have hreturns : ∀ ticket result, effect.bind Cache.Effect.answer? = some (ticket, result) →
        ∃ k < n + 1, h'.Returns k ticket result ∧ h'.instant k = l.now := by
      intro ticket result hanswer
      refine ⟨n, Nat.lt_succ_self n, ?_, hinstant⟩
      rw [Cache.History.Returns, heffect]
      exact hanswer
    cases effect with
    | none => exact ⟨h', n + 1, hp', fun _ hticket => absurd hticket (by simp)⟩
    | some effect =>
      cases effect with
      | build ticket =>
        refine ⟨h', n + 1, hp', fun _ hticket => ?_⟩
        obtain rfl := Option.some.inj hticket
        exact hp'.isReady heffect (husage ▸ hp.fits)
      | reuse ticket snapshot =>
        have hnoted : (noteAll [.buildReused s.denom snapshot.height]
            { l with cache }).IsPlayedBy w h' (n + 1) := { hp' with }
        exact ⟨h', n + 1, hnoted.deliver (hreturns _ _ rfl), fun _ hticket => absurd hticket (by simp)⟩
      | reply ticket result =>
        exact ⟨h', n + 1, hp'.deliver (hreturns _ _ rfl), fun _ hticket => absurd hticket (by simp)⟩

/-- A build that ends. -/
theorem finish (hp : l.IsPlayedBy w h n) {ticket : Ticket} {result : Except ComputeError Snapshot}
    (hrun : w.build.Run ((h.usage n).calls ticket) result)
    (hfree : ∀ x ∈ l.agenda, x.2.ticket? ≠ some ticket) :
    (l.take s (.finish ticket result)).1.IsPlayed s w := by
  have hfinish : ∀ t r, Cache.Step.finish ticket result = .finish t r →
      w.build.Run ((h.usage n).calls t) r := by
    rintro t r ⟨⟩
    exact hrun
  have hspares : ∀ x ∈ l.agenda, (Cache.Step.finish ticket result).Spares x.2 := by
    refine fun x hx => Cache.Step.spares_of_ne fun t hticket => ?_
    obtain rfl := Option.some.inj hticket
    exact hfree x hx
  obtain ⟨h', n', hp', -⟩ := hp.take (by simp [Cache.Step.requested?]) hfinish hspares
  exact ⟨h', n', hp'⟩

/-- A build that has some of its questions answered. -/
theorem call (hp : l.IsPlayedBy w h n) {ticket : Ticket}
    {rest : Program Q A Event (Except ComputeError Snapshot)}
    (hready : l.IsReady w (h.usage n) ticket rest) {log : List (Sigma A)}
    {outcome : Except ComputeError Snapshot ⊕
      (Nat × Program Q A Event (Except ComputeError Snapshot))}
    (hlog : rest.LeadsTo log outcome) :
    ∃ h' : Cache.History s w.build, l.IsPlayedBy w h' (n + 1) ∧
      (h'.usage (n + 1)).calls ticket = (h.usage n).calls ticket ++ log := by
  obtain ⟨⟨hbuilding, hrest⟩, hfree⟩ := hready
  have hallows : (h.usage n).Allows s w.build l.now (.call ticket log) := by
    refine ⟨hbuilding, ?_⟩
    rcases outcome with result | ⟨milliseconds, later⟩
    · exact ⟨[], result, (List.append_nil _).symm ▸ hrest log result hlog⟩
    · -- any answers end the build, those that the world gives now for one
      have hlater := Program.run_eval (fun q => (w.answer l.world q).value) later
      exact ⟨_, _, (List.append_assoc _ _ _).symm ▸ hrest _ _ (hlog _ _ hlater)⟩
  obtain ⟨h', hp', husage, haction, -⟩ := hp.moment hallows hp.requested_lt
    fun x hx => (hp.fits x hx).after_call (hfree x hx)
  refine ⟨h', ?_, ?_⟩
  · have hcache : ((h.usage n).after s l.now (.call ticket log)).cache = l.cache := hp.cache_eq
    rw [hcache] at hp'
    exact hp'
  · change ((h'.usage n).after s (h'.instant n) (h'.action n)).calls ticket = _
    rw [husage, haction, Cache.Usage.calls_after_call, Function.update_self]

/-- The rest of a build, as far as it gets. -/
theorem proceed (hp : l.IsPlayedBy w h n) {ticket : Ticket}
    {rest : Program Q A Event (Except ComputeError Snapshot)}
    (hready : l.IsReady w (h.usage n) ticket rest) : (l.proceed s w ticket rest).IsPlayed s w := by
  obtain ⟨log, hlog⟩ := rest.exists_leadsTo_advance w.answer l.world
  obtain ⟨h', hp', hcalls⟩ := hp.call hready hlog
  obtain ⟨⟨hbuilding, hrest⟩, hfree⟩ := hready
  rw [Timeline.proceed]
  generalize rest.advance w.answer l.world = advanced at hlog ⊢
  obtain ⟨world, events, outcome⟩ := advanced
  have hnoted : (noteAll events { l with world }).IsPlayedBy w h' (n + 1) := { hp' with }
  rcases outcome with result | ⟨milliseconds, later⟩
  · exact hnoted.finish (hcalls ▸ hrest log result hlog) hfree
  · have hfits : (Job.resume ticket later).Fits w (h'.usage (n + 1)) l.tickets := by
      have hsame : h'.cache (n + 1) = h.cache n := hp'.cache_eq.trans hp.cache_eq.symm
      refine ⟨?_, fun log' result hrun => ?_⟩
      · change ticket ∈ (h'.cache (n + 1)).building
        rw [hsame]
        exact hbuilding
      · rw [hcalls, List.append_assoc]
        exact hrest _ _ (hlog _ _ hrun)
    refine ⟨h', n + 1, hnoted.schedule milliseconds hfits fun t hticket => ?_⟩
    obtain rfl := Option.some.inj hticket
    exact hfree

/-- A step of the cache, and the build that it begins. -/
theorem act (hp : l.IsPlayedBy w h n) {a : Cache.Step}
    (hnew : ∀ ticket, a.requested? = some ticket →
      ticket ∉ (h.usage n).requested ∧ ticket < l.tickets)
    (hrun : ∀ ticket result, a = .finish ticket result →
      w.build.Run ((h.usage n).calls ticket) result)
    (hspares : ∀ x ∈ l.agenda, a.Spares x.2) :
    (l.act s w a).IsPlayed s w := by
  obtain ⟨h', n', hp', hready⟩ := hp.take hnew hrun hspares
  rw [Timeline.act]
  split
  · next l' htake =>
    rw [htake] at hp'
    exact ⟨h', n', hp'⟩
  · next l' ticket htake =>
    rw [htake] at hp' hready
    exact hp'.proceed (hready ticket rfl)

/-- The gate, given as often as it can be. -/
theorem grantAll (hp : l.IsPlayedBy w h n) (fuel : Nat) : (l.grantAll s w fuel).IsPlayed s w := by
  induction fuel generalizing l h n with
  | zero => exact ⟨h, n, hp⟩
  | succ fuel ih =>
    rw [Timeline.grantAll]
    split
    · have hspares : ∀ x ∈ l.agenda, Cache.Step.grant.Spares x.2 :=
        fun x _ => Cache.Step.spares_of_ne fun _ hticket => absurd hticket (by simp [Cache.Step.ticket?])
      obtain ⟨h', n', hp'⟩ := hp.act (by simp [Cache.Step.requested?]) (by simp) hspares
      exact ih hp'
    · exact ⟨h, n, hp⟩

/-- A request with a ticket that is given out and not used yet. -/
theorem act_request (hp : l.IsPlayedBy w h n) {ticket : Ticket} (denom : String)
    (hticket : ticket < l.tickets) (hnew : ticket ∉ (h.usage n).requested)
    (hfree : ∀ x ∈ l.agenda, x.2.ticket? ≠ some ticket) :
    (l.act s w (.request ticket denom)).IsPlayed s w := by
  refine hp.act ?_ (by simp) fun x hx => Cache.Step.spares_of_ne ?_
  · intro t hrequested
    obtain rfl := Option.some.inj hrequested
    exact ⟨hnew, hticket⟩
  · intro t heq
    obtain rfl := Option.some.inj heq
    exact hfree x hx

/-- The ticket that is given out next has not been requested. -/
theorem tickets_not_mem_requested (hp : l.IsPlayedBy w h n) : l.tickets ∉ (h.usage n).requested :=
  fun hmem => Nat.lt_irrefl _ (hp.requested_lt _ hmem)

/-- The ticket that is given out next has no job. -/
theorem ticket?_ne_tickets (hp : l.IsPlayedBy w h n) :
    ∀ x ∈ l.agenda, x.2.ticket? ≠ some l.tickets := by
  rintro ⟨instant, job⟩ hx hticket
  have hfits := hp.fits _ hx
  cases job with
  | refresh => exact absurd hticket (by simp [Job.ticket?])
  | call ticket denom =>
    obtain rfl := Option.some.inj hticket
    exact Nat.lt_irrefl _ hfits.1
  | resume ticket rest =>
    obtain rfl := Option.some.inj hticket
    exact hp.tickets_not_mem_requested (Cache.History.mem_requested_of_isPending (.inl hfits.1))

/-- One more ticket is given out. -/
theorem succ_tickets (hp : l.IsPlayedBy w h n) :
    ({ l with tickets := l.tickets + 1 } : Timeline Q A S).IsPlayedBy w h n :=
  { hp with
    requested_lt := fun ticket hmem => Nat.lt_succ_of_lt (hp.requested_lt ticket hmem)
    fits := fun x hx => (hp.fits x hx).mono (Nat.le_succ l.tickets) }

/-- A job, taken off the agenda when it is due. -/
theorem perform (hp : l.IsPlayedBy w h n) {job : Job Q A} (hfits : job.Fits w (h.usage n) l.tickets)
    (hfree : ∀ ticket, job.ticket? = some ticket → ∀ x ∈ l.agenda, x.2.ticket? ≠ some ticket) :
    (l.perform s w job).IsPlayed s w := by
  cases job with
  | call ticket denom => exact hp.act_request denom hfits.1 hfits.2 (hfree ticket rfl)
  | resume ticket rest => exact hp.proceed ⟨hfits, hfree ticket rfl⟩
  | refresh =>
    have hmore : ({ l with tickets := l.tickets + 1, refreshing := l.refreshing ++ [l.tickets] } :
        Timeline Q A S).IsPlayedBy w h n := { hp.succ_tickets with }
    exact hmore.act_request s.denom (Nat.lt_succ_self l.tickets) hp.tickets_not_mem_requested
      hp.ticket?_ne_tickets

theorem step? (hp : l.IsPlayedBy w h n) {l' : Timeline Q A S} (hstep : l.step? s w = some l') :
    l'.IsPlayed s w := by
  rw [Timeline.step?] at hstep
  split at hstep
  · exact absurd hstep (by simp)
  · next instant job agenda hagenda =>
    obtain rfl := Option.some.inj hstep
    have hhead : (instant, job) ∈ l.agenda := hagenda ▸ List.mem_cons_self
    have htail : ∀ x ∈ agenda, x ∈ l.agenda := fun x hx => hagenda ▸ List.mem_cons_of_mem _ hx
    have hsorted := hp.sorted
    have hnodup := hp.nodup
    rw [hagenda] at hsorted hnodup
    obtain ⟨hfirst, hsorted⟩ := List.pairwise_cons.mp hsorted
    have hdue : ({ l with now := instant, agenda } : Timeline Q A S).IsPlayedBy w h n :=
      { hp with
        clock := fun k hk => (hp.clock k hk).trans (hp.due _ hhead)
        due := hfirst
        sorted := hsorted
        nodup := hnodup.sublist ((List.sublist_cons_self _ _).filterMap _)
        fits := fun x hx => hp.fits x (htail x hx) }
    have hfree : ∀ ticket, job.ticket? = some ticket → ∀ x ∈ agenda, x.2.ticket? ≠ some ticket := by
      intro ticket hticket x hx heq
      simp only [List.filterMap_cons, hticket] at hnodup
      exact (List.nodup_cons.mp hnodup).1 (List.mem_filterMap.mpr ⟨x, hx, heq⟩)
    obtain ⟨h', n', hp'⟩ := hdue.perform (hp.fits _ hhead) hfree
    exact hp'.grantAll _

/-- Updates given up that have nothing to run any more. -/
theorem cancelAll (hp : l.IsPlayedBy w h n) (tickets : List Ticket)
    (hidle : ∀ ticket ∈ tickets, ∀ x ∈ l.agenda, ∀ rest, x.2 ≠ .resume ticket rest) :
    ∃ (h' : Cache.History s w.build) (n' : Nat),
      ({ l with cache := tickets.foldl Cache.leave l.cache } : Timeline Q A S).IsPlayedBy w h' n' := by
  induction tickets generalizing l h n with
  | nil => exact ⟨h, n, hp⟩
  | cons ticket tickets ih =>
    have hspares : ∀ x ∈ l.agenda, (Cache.Step.cancel ticket).Spares x.2 := by
      rintro ⟨instant, job⟩ hx
      cases job with
      | refresh => exact trivial
      | call other denom => exact fun hticket => absurd hticket (by simp [Cache.Step.requested?])
      | resume other rest =>
        refine ⟨by simp, ?_⟩
        rintro ⟨⟩
        exact hidle ticket List.mem_cons_self _ hx rest rfl
    obtain ⟨h', n', hp', -⟩ := hp.take (by simp [Cache.Step.requested?]) (by simp) hspares
    exact ih hp' fun t ht => hidle t (List.mem_cons_of_mem _ ht)

theorem abort (hp : l.IsPlayedBy w h n) : (l.abort s w).IsPlayed s w := by
  have hkept : ∀ x, x ∈ l.agenda.filter (fun x => !isRefreshing l.refreshing x.2) →
      x ∈ l.agenda ∧ isRefreshing l.refreshing x.2 = false := by
    intro x hx
    obtain ⟨hx, hkept⟩ := List.mem_filter.mp hx
    exact ⟨hx, Bool.not_eq_true' _ ▸ hkept⟩
  have hdropped : ({ l with
      agenda := l.agenda.filter fun x => !isRefreshing l.refreshing x.2
      refreshing := [] } : Timeline Q A S).IsPlayedBy w h n :=
    { hp with
      due := fun x hx => hp.due x (hkept x hx).1
      sorted := hp.sorted.sublist List.filter_sublist
      nodup := hp.nodup.sublist (List.filter_sublist.filterMap _)
      fits := fun x hx => hp.fits x (hkept x hx).1 }
  obtain ⟨h', n', hp'⟩ := hdropped.cancelAll l.refreshing fun ticket hticket x hx rest heq => by
    have hrefreshing := (hkept x hx).2
    rw [heq, isRefreshing, List.contains_iff_mem.mpr hticket] at hrefreshing
    exact absurd hrefreshing (by simp)
  exact hp'.grantAll _

end IsPlayedBy

/-! ### Reachable timelines -/

/-- The timelines that a cache gets to from its start: updates and refreshers are added and stopped,
what answers builds may change, jobs are done when they are due, and time passes between them. -/
inductive Reachable (s : Cache.Settings) (w : World Q A S) : Timeline Q A S → Prop
  | start (world : S) : Reachable s w { world }
  | note {l : Timeline Q A S} (events : List Event) (hl : Reachable s w l) :
      Reachable s w (noteAll events l)
  | change {l : Timeline Q A S} (world : S) (hl : Reachable s w l) : Reachable s w { l with world }
  | call {l : Timeline Q A S} (after : Nat) (denom : String) (hl : Reachable s w l) :
      Reachable s w
        (schedule after (.call l.tickets denom) { l with tickets := l.tickets + 1 })
  | refresh {l : Timeline Q A S} (after : Nat) (hl : Reachable s w l) :
      Reachable s w (schedule after .refresh l)
  | abort {l : Timeline Q A S} (hl : Reachable s w l) : Reachable s w (l.abort s w)
  | step {l l' : Timeline Q A S} (hl : Reachable s w l) (hstep : l.step? s w = some l') :
      Reachable s w l'
  | wait {l : Timeline Q A S} (instant : Nat) (hl : Reachable s w l)
      (hnext : ∀ t, l.next? = some t → instant ≤ t) :
      Reachable s w { l with now := max l.now instant }

/-- What every step and every wait keeps, holds of a timeline that is run to an instant. -/
theorem runTo_induction {P : Timeline Q A S → Prop}
    (hstep : ∀ {l l'}, P l → l.step? s w = some l' → P l')
    (hwait : ∀ {l} instant, P l → (∀ t, l.next? = some t → instant ≤ t) →
      P { l with now := max l.now instant })
    (hl : P l) (instant fuel : Nat) : P (l.runTo s w instant fuel) := by
  induction fuel generalizing l with
  | zero => exact hl
  | succ fuel ih =>
    rw [Timeline.runTo]
    split
    · next t hnext =>
      split
      · split
        · next l' hnew => exact ih (hstep hl hnew)
        · exact hl
      · next hlt =>
        refine hwait instant hl fun t' hnext' => ?_
        obtain rfl := Option.some.inj (hnext.symm.trans hnext')
        exact (Nat.not_le.mp hlt).le
    · next hnext => exact hwait instant hl fun t hnext' => absurd (hnext.symm.trans hnext') (by simp)

namespace Reachable

theorem runTo (hl : l.Reachable s w) (instant fuel : Nat) :
    (l.runTo s w instant fuel).Reachable s w :=
  runTo_induction .step .wait hl instant fuel

theorem runUntil (hl : l.Reachable s w) (ends : Timeline Q A S → Bool) (fuel : Nat) :
    (l.runUntil s w ends fuel).Reachable s w := by
  induction fuel generalizing l with
  | zero => exact hl
  | succ fuel ih =>
    rw [Timeline.runUntil]
    split
    · exact hl
    · split
      · next l' hstep => exact ih (hl.step hstep)
      · exact hl

theorem callAll (hl : l.Reachable s w) (calls : List (Nat × String)) :
    (l.callAll calls).1.Reachable s w := by
  induction calls generalizing l with
  | nil => exact hl
  | cons call calls ih => exact ih (hl.call call.1 call.2)

theorem spawn (hl : l.Reachable s w) : (l.spawn s).Reachable s w :=
  (hl.note _).refresh 0

/-- **A timeline is a history**: some history of the cache leads to it, with the same replies at the
same instants. -/
theorem exists_history (hl : l.Reachable s w) :
    ∃ (h : Cache.History s w.build) (n : Nat), l.IsPlayedBy w h n := by
  induction hl with
  | start world =>
    exact ⟨.idle s w.build, 0, rfl, by simp, by simp, fun _ hmem => absurd hmem List.not_mem_nil,
      by simp, .nil, .nil, by simp⟩
  | note events hl ih | change world hl ih =>
    obtain ⟨h, n, hp⟩ := ih
    exact ⟨h, n, { hp with }⟩
  | @call l after denom hl ih =>
    obtain ⟨h, n, hp⟩ := ih
    have hfits : (Job.call l.tickets denom).Fits w (h.usage n) (l.tickets + 1) :=
      ⟨Nat.lt_succ_self l.tickets, hp.tickets_not_mem_requested⟩
    refine ⟨h, n, hp.succ_tickets.schedule after hfits fun ticket hticket => ?_⟩
    obtain rfl := Option.some.inj hticket
    exact hp.ticket?_ne_tickets
  | @refresh l after hl ih =>
    obtain ⟨h, n, hp⟩ := ih
    exact ⟨h, n, hp.schedule_refresh after⟩
  | abort hl ih =>
    obtain ⟨h, n, hp⟩ := ih
    exact hp.abort
  | step hl hstep ih =>
    obtain ⟨h, n, hp⟩ := ih
    exact hp.step? hstep
  | @wait l instant hl hnext ih =>
    obtain ⟨h, n, hp⟩ := ih
    refine ⟨h, n, { hp with
      clock := fun k hk => (hp.clock k hk).trans (Nat.le_max_left l.now instant)
      due := fun x hx => Nat.max_le.mpr ⟨hp.due x hx, ?_⟩ }⟩
    cases hagenda : l.agenda with
    | nil =>
      rw [hagenda] at hx
      exact absurd hx List.not_mem_nil
    | cons first agenda =>
      have hsorted := hp.sorted
      rw [hagenda] at hx hsorted
      have hfirst : instant ≤ first.1 := hnext first.1 (by rw [next?, hagenda]; rfl)
      rcases List.mem_cons.mp hx with rfl | hx
      · exact hfirst
      · exact hfirst.trans ((List.pairwise_cons.mp hsorted).1 x hx)

/-- With single flight at most one update builds on a timeline. -/
theorem length_building_le_one (hflight : s.singleFlight = true) (hl : l.Reachable s w) :
    l.cache.building.length ≤ 1 := by
  obtain ⟨h, n, hp⟩ := hl.exists_history
  rw [← hp.cache_eq]
  exact Cache.History.length_building_le_one hflight h n

/-- Every snapshot that an update returns on a timeline is of the denomination of the cache. -/
theorem denom_of_reply {policy : Policy} {policyEtag : Option String}
    {w : World Query Query.Outcome S} {l : Timeline Query Query.Outcome S}
    (hbuild : w.build = Snapshot.compute policy policyEtag s.denom) (hl : l.Reachable s w)
    {r : Reply} (hr : r ∈ l.replies) {snapshot : Snapshot} (hresult : r.result = .ok snapshot) :
    snapshot.denom = s.denom := by
  obtain ⟨build, answer⟩ := w
  subst hbuild
  obtain ⟨h, n, hp⟩ := hl.exists_history
  obtain ⟨k, -, hreturns, -⟩ := hp.replied r hr
  rw [hresult] at hreturns
  exact Cache.History.denom_of_returns hreturns

end Reachable

end Timeline

end Circulation
