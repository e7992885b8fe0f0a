import Circulation.Proofs.Cache.History
import Circulation.Proofs.Snapshot.Findings

/-!
# The slot of a cache

The slot holds what the build that ended last with success has stored. Builds may overlap, and what
counts is the order in which they end: an update that began later may have stored before. Nothing
else touches the slot, neither a build that fails nor a request that is refused, so it is empty only
until the first success.

## Main definitions

* `Circulation.Cache.History.EndsLast` — a snapshot is that of the last success before a moment.
* `Circulation.Cache.History.KeepsLast` — what the slot of a cache is at every moment of a history,
  and how updates and reads see it.

## Main results

* `Circulation.Cache.History.slot_eq_none_iff`, `Circulation.Cache.History.slot_eq_some_iff` — the
  slot holds the last success, if there is one.
* `Circulation.Cache.History.exists_slot_of_le` — the slot stays full, and its instant does not run
  back.
* `Circulation.Cache.History.slot_succ_of_returns_error` — no moment of an update that returns an
  error changes the slot.
* `Circulation.Cache.History.keepsLast` — the slot of every history keeps the last success.
-/

namespace Circulation.Cache

/-- A read gives what the slot holds, and whether it is no older than the period of freshness. -/
theorem get_eq (s : Settings) (now : Nat) (c : Cache) :
    c.get s now =
      match c.slot with
      | none => (none, false)
      | some stored => (some stored.snapshot, decide (now - stored.storedAt ≤ s.ttlMs)) := by
  cases hslot : c.slot with
  | none => simp only [get, hslot]
  | some stored => simp only [get, hslot, isFreshAt, Nat.sub_le_iff_le_add']

namespace History

variable {s : Settings}

section

variable {Q : Type} {A : Q → Type} {build : Program Q A Event (Except ComputeError Snapshot)}
  {h : History s build} {m n : Nat} {ticket : Ticket}

/-- The build that stored a snapshot is the one that succeeded last before a moment. -/
def EndsLast (h : History s build) (n : Nat) (stored : Stored) : Prop :=
  ∃ i < n, (∃ ticket, h.Succeeds i ticket stored.snapshot) ∧ stored.storedAt = h.instant i ∧
    ∀ j, i < j → j < n → ∀ ticket snapshot, ¬h.Succeeds j ticket snapshot

/-! ### One moment -/

theorem slot_zero (h : History s build) : h.slot 0 = none := by
  rw [slot, cache_zero]

/-- A success is stored at the instant of the moment in which the build ends. -/
theorem slot_succ_of_succeeds {snapshot : Snapshot} (hsucceeds : h.Succeeds n ticket snapshot) :
    h.slot (n + 1) = some ⟨snapshot, h.instant n⟩ :=
  slot_of_happens (happens hsucceeds)

/-- Only a success changes the slot. -/
theorem slot_succ (hnone : ∀ ticket snapshot, ¬h.Succeeds n ticket snapshot) :
    h.slot (n + 1) = h.slot n := by
  rcases h.cache_cases n with ⟨a, haction, ha⟩ | ⟨-, heq⟩
  · have hstored : a.stored? (h.instant n) = none := by
      refine Option.eq_none_iff_forall_ne_some.mpr fun stored hstored => ?_
      obtain ⟨ticket, rfl, -⟩ := Step.stored?_eq_some_iff.mp hstored
      exact hnone ticket stored.snapshot haction
    rw [slot, slot_of_happens ha, hstored, Option.none_or]
    rfl
  · rw [slot, heq]
    rfl

/-! ### Many moments -/

theorem slot_eq_of_le (hle : m ≤ n)
    (hnone : ∀ j, m ≤ j → j < n → ∀ ticket snapshot, ¬h.Succeeds j ticket snapshot) :
    h.slot n = h.slot m := by
  induction n, hle using Nat.le_induction with
  | base => rfl
  | succ n hmn ih =>
    rw [slot_succ (hnone n hmn (Nat.lt_succ_self n))]
    exact ih fun j hmj hjn => hnone j hmj (Nat.lt_succ_of_lt hjn)

/-- The slot stays full, and a quantity that no success lowers does not fall in it. -/
theorem exists_le_slot {α : Type} [Preorder α] (f : Stored → α)
    (hsuccess : ∀ k ticket snapshot stored, h.Succeeds k ticket snapshot →
      h.slot k = some stored → f stored ≤ f ⟨snapshot, h.instant k⟩)
    {stored : Stored} (hslot : h.slot m = some stored) (hle : m ≤ n) :
    ∃ stored', h.slot n = some stored' ∧ f stored ≤ f stored' := by
  induction n, hle using Nat.le_induction with
  | base => exact ⟨stored, hslot, le_rfl⟩
  | succ n hmn ih =>
    obtain ⟨stored', hslot', hle⟩ := ih
    by_cases hsucceeds : ∃ ticket snapshot, h.Succeeds n ticket snapshot
    · obtain ⟨ticket, snapshot, hsucceeds⟩ := hsucceeds
      exact ⟨_, slot_succ_of_succeeds hsucceeds,
        hle.trans (hsuccess n ticket snapshot stored' hsucceeds hslot')⟩
    · refine ⟨stored', ?_, hle⟩
      rw [slot_succ fun ticket snapshot h => hsucceeds ⟨ticket, snapshot, h⟩, hslot']

/-- What the slot holds was stored no earlier than what it held before. -/
theorem exists_slot_of_le {stored : Stored} (hslot : h.slot m = some stored) (hle : m ≤ n) :
    ∃ stored', h.slot n = some stored' ∧ stored.storedAt ≤ stored'.storedAt :=
  exists_le_slot (·.storedAt)
    (fun k _ _ stored _ hslot => (h.isQueued k).storedAt_le stored hslot) hslot hle

/-- The slot is empty as long as no build has succeeded. -/
theorem slot_eq_none_iff :
    h.slot n = none ↔ ∀ i < n, ∀ ticket snapshot, ¬h.Succeeds i ticket snapshot := by
  constructor
  · intro hslot i hi ticket snapshot hsucceeds
    obtain ⟨stored, hstored, -⟩ := exists_slot_of_le (slot_succ_of_succeeds hsucceeds) hi
    exact absurd (hslot.symm.trans hstored) (by simp)
  · intro hnone
    rw [slot_eq_of_le (Nat.zero_le n) fun j _ hj => hnone j hj, slot_zero]

theorem endsLast_of_slot {stored : Stored} (hslot : h.slot n = some stored) :
    h.EndsLast n stored := by
  induction n with
  | zero => exact absurd (h.slot_zero.symm.trans hslot) (by simp)
  | succ n ih =>
    by_cases hsucceeds : ∃ ticket snapshot, h.Succeeds n ticket snapshot
    · obtain ⟨ticket, snapshot, hsucceeds⟩ := hsucceeds
      obtain rfl := Option.some.inj ((slot_succ_of_succeeds hsucceeds).symm.trans hslot)
      exact ⟨n, Nat.lt_succ_self n, ⟨ticket, hsucceeds⟩, rfl, fun j hnj hj =>
        absurd (Nat.lt_succ_iff.mp hj) (Nat.not_le.mpr hnj)⟩
    · have hnone : ∀ ticket snapshot, ¬h.Succeeds n ticket snapshot :=
        fun ticket snapshot h => hsucceeds ⟨ticket, snapshot, h⟩
      obtain ⟨i, hi, hends, hinstant, hlast⟩ := ih ((slot_succ hnone).symm.trans hslot)
      refine ⟨i, Nat.lt_succ_of_lt hi, hends, hinstant, fun j hij hj => ?_⟩
      rcases Nat.lt_succ_iff_lt_or_eq.mp hj with hj | rfl
      · exact hlast j hij hj
      · exact hnone

/-- The slot holds the snapshot of the last success, with the instant at which its build ended. -/
theorem slot_eq_some_iff {stored : Stored} : h.slot n = some stored ↔ h.EndsLast n stored := by
  refine ⟨endsLast_of_slot, ?_⟩
  rintro ⟨i, hi, ⟨ticket, hsucceeds⟩, hinstant, hlast⟩
  rw [slot_eq_of_le hi hlast, slot_succ_of_succeeds hsucceeds, ← hinstant]

/-! ### Updates without a snapshot -/

/-- No moment of an update that returns an error changes the slot. -/
theorem slot_succ_of_returns_error {why : Error} (hreturns : h.Returns n ticket (.error why))
    {i : Nat} (hinvolves : h.Involves i ticket) : h.slot (i + 1) = h.slot i := by
  refine slot_succ fun other snapshot hsucceeds => ?_
  -- a success in a moment of the update is its own
  obtain rfl : ticket = other := by
    rcases hinvolves with ⟨denom, h⟩ | ⟨h, -⟩ | ⟨answers, h⟩ | ⟨result, hends⟩ | h
    · exact absurd (h.symm.trans hsucceeds) (by simp)
    · exact absurd (h.symm.trans hsucceeds) (by simp)
    · exact absurd (h.symm.trans hsucceeds) (by simp)
    · exact (ends_inj hends hsucceeds).1
    · exact absurd (h.symm.trans hsucceeds) (by simp)
  rcases returns_cases hreturns with ⟨denom, hrequest, hdenom, -⟩ | ⟨-, -, -, -, stored, -, -, h⟩ |
    ⟨built, hends, hresult⟩
  · exact hdenom (denom_eq_of_isPending (.inl (mem_building_of_ends hsucceeds)) hrequest)
  · exact absurd h (by simp)
  · obtain rfl := finish_unique hsucceeds hends
    rw [← (ends_inj hsucceeds hends).2] at hresult
    exact absurd hresult (by simp [Except.mapError])

/-- An update of another denomination asks nothing. -/
theorem calls_eq_nil_of_refused {denom : String} (hrequest : h.Requests m ticket denom)
    (hdenom : denom ≠ s.denom) (n : Nat) : (h.usage n).calls ticket = [] := by
  refine calls_eq_nil fun i _ hbuilds => ?_
  exact hdenom (denom_eq_of_isPending (.inl (mem_building_of_builds hbuilds)) hrequest)

/-! ### Updates that do not take turns -/

theorem waiting_eq_nil (hflight : s.singleFlight = false) (n : Nat) :
    (h.cache n).waiting = [] :=
  h.invariant (I := fun _ c => c.waiting = []) rfl (fun hc _ => hc)
    (waiting_eq_nil_of_happens hflight) n

/-- Without single flight an update that returns a snapshot has built it. -/
theorem succeeds_of_returns (hflight : s.singleFlight = false) {snapshot : Snapshot}
    (hreturns : h.Returns n ticket (.ok snapshot)) : h.Succeeds n ticket snapshot := by
  rcases returns_ok_cases hreturns with ⟨⟨w, hw, -⟩, -⟩ | hsucceeds
  · rw [waiting_eq_nil hflight] at hw
    exact absurd hw List.not_mem_nil
  · exact hsucceeds

end

/-! ### The slot of a snapshot cache -/

variable {policy : Policy} {policyEtag : Option String}

/-- What the slot of a cache of snapshots is at every moment of a history, and how its updates and
its reads see it. -/
structure KeepsLast (h : History s (Snapshot.compute policy policyEtag s.denom)) : Prop where
  /-- The slot is empty until a build succeeds. -/
  empty_iff : ∀ n, h.slot n = none ↔ ∀ i < n, ∀ ticket snapshot, ¬h.Succeeds i ticket snapshot
  /-- A slot that is full stays full. -/
  stays_full : ∀ m n, m ≤ n → h.slot m ≠ none → h.slot n ≠ none
  /-- The slot holds the snapshot of the last success and the instant at which its build ended. -/
  last_iff : ∀ n stored, h.slot n = some stored ↔ h.EndsLast n stored
  /-- The slot holds a snapshot of the denomination of the cache. -/
  denom_eq : ∀ n stored, h.slot n = some stored → stored.snapshot.denom = s.denom
  /-- A build that succeeds gives the snapshot of its own questions and answers. Its update returns
  it, and the slot holds it from then on. -/
  success : ∀ n ticket snapshot, h.Succeeds n ticket snapshot →
    (Snapshot.compute policy policyEtag s.denom).Run ((h.usage n).calls ticket) (.ok snapshot) ∧
      h.Returns n ticket (.ok snapshot) ∧ h.slot (n + 1) = some ⟨snapshot, h.instant n⟩
  /-- An update that returns an error leaves the slot as it is. -/
  error : ∀ n ticket why, h.Returns n ticket (.error why) →
    ∀ i, h.Involves i ticket → h.slot (i + 1) = h.slot i
  /-- An update of another denomination returns an error at once and asks nothing. -/
  refused : ∀ m ticket denom, h.Requests m ticket denom → denom ≠ s.denom →
    h.Returns m ticket (.error (.denom s.denom denom)) ∧ ∀ n, (h.usage n).calls ticket = []
  /-- Without single flight an update that returns a snapshot has built it. -/
  own : s.singleFlight = false →
    ∀ n ticket snapshot, h.Returns n ticket (.ok snapshot) → h.Succeeds n ticket snapshot
  /-- A read gives what the slot holds, and whether it is no older than the period of freshness. -/
  get_eq : ∀ n now, (h.cache n).get s now =
    match h.slot n with
    | none => (none, false)
    | some stored => (some stored.snapshot, decide (now - stored.storedAt ≤ s.ttlMs))

section

variable {h : History s (Snapshot.compute policy policyEtag s.denom)} {n : Nat}

theorem denom_of_succeeds {ticket : Ticket} {snapshot : Snapshot}
    (hsucceeds : h.Succeeds n ticket snapshot) : snapshot.denom = s.denom := by
  obtain ⟨block, total, log, f, -, -, rfl⟩ := Snapshot.run_compute (run_of_ends hsucceeds)
  rfl

theorem denom_of_slot {stored : Stored} (hslot : h.slot n = some stored) :
    stored.snapshot.denom = s.denom := by
  obtain ⟨i, -, ⟨ticket, hsucceeds⟩, -⟩ := slot_eq_some_iff.mp hslot
  exact denom_of_succeeds hsucceeds

/-- Whatever an update returns is of the denomination of the cache. -/
theorem denom_of_returns {ticket : Ticket} {snapshot : Snapshot}
    (hreturns : h.Returns n ticket (.ok snapshot)) : snapshot.denom = s.denom := by
  rcases returns_ok_cases hreturns with ⟨-, stored, hslot, rfl⟩ | hsucceeds
  · exact denom_of_slot hslot
  · exact denom_of_succeeds hsucceeds

end

/-- The slot of a cache keeps the last success. -/
theorem keepsLast (h : History s (Snapshot.compute policy policyEtag s.denom)) : h.KeepsLast where
  empty_iff _ := slot_eq_none_iff
  stays_full m n hle hm := by
    obtain ⟨stored, hstored⟩ := Option.ne_none_iff_exists'.mp hm
    obtain ⟨stored', hstored', -⟩ := exists_slot_of_le hstored hle
    rw [hstored']
    exact Option.some_ne_none stored'
  last_iff _ _ := slot_eq_some_iff
  denom_eq _ _ := denom_of_slot
  success _ _ _ hsucceeds :=
    ⟨run_of_ends hsucceeds, returns_of_ends hsucceeds, slot_succ_of_succeeds hsucceeds⟩
  error _ _ _ hreturns _ := slot_succ_of_returns_error hreturns
  refused _ _ _ hrequest hdenom :=
    ⟨(h.refused hrequest hdenom).1, calls_eq_nil_of_refused hrequest hdenom⟩
  own hflight _ _ _ := succeeds_of_returns hflight
  get_eq n now := Cache.get_eq s now (h.cache n)

/-! ### Two builds that overlap -/

/-- The questions and answers of a build of the small chain. -/
def smallCalls : List (Sigma Query.Outcome) :=
  ((Snapshot.compute .small none "ulume").questions Source.small).map fun q => ⟨q, Source.small q⟩

/-- Two updates build at the same time. The one requested last ends first with a snapshot; the other
fails, and then an update of another denomination is refused. -/
def overlapping : History (.ofOptions "ulume" {}) (Snapshot.compute .small none "ulume") where
  instant n := 10 * (n + 1)
  action
    | 0 => .step (.request 0 "ulume")
    | 1 => .step (.request 1 "ulume")
    | 2 => .call 1 smallCalls
    | 3 => .step (.finish 1 (.ok .small))
    | 4 => .call 0 [⟨.height, .error (.missing "block")⟩]
    | 5 => .step (.finish 0 (.error (.height (.missing "block"))))
    | 6 => .step (.request 2 "uother")
    | _ => .look
  clock := ticks
  allows
    | 0 => ⟨by decide, by simp, rfl⟩
    | 1 => ⟨by decide, by simp, rfl⟩
    | 2 => .call_all (by decide) rfl Snapshot.run_compute_small
    | 3 => ⟨by decide, by rintro _ _ ⟨⟩; exact Snapshot.run_compute_small, rfl⟩
    | 4 => .call_all (by decide) rfl (Snapshot.run_compute_of_height _ _ _ _)
    | 5 => ⟨by decide, by rintro _ _ ⟨⟩; exact Snapshot.run_compute_of_height _ _ _ _, rfl⟩
    | 6 => ⟨by decide, by simp, rfl⟩
    | _ + 7 => trivial

theorem keepsLast_overlapping :
    overlapping.slot 3 = none ∧ overlapping.slot 7 = some ⟨.small, 40⟩ ∧ overlapping.KeepsLast :=
  ⟨rfl, rfl, keepsLast overlapping⟩

end History

end Circulation.Cache
