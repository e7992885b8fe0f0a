import Mathlib.Order.Monotone.Basic
import Circulation.Proofs.Cache.Gate
import Circulation.Proofs.Cache.Usage
import Circulation.Proofs.Except

/-!
# Histories of a cache

A history is a cache in use from its start on, moment by moment. Nothing is fixed but what a moment
allows. Updates are requested at any time and may be given up, the moments of several updates
interleave in any way, answers take any time and are any at all, and the gate may stay free for a
while before it is given to the first that waits. An update has a ticket of its own.

## Main definitions

* `Circulation.Cache.History` — a history, with `Requests`, `Grants`, `Builds`, `Succeeds`, `Fails`
  and `Returns` for what happens in its moments.
* `Circulation.Cache.History.steps` — the steps that the cache takes in a history.

## Main results

* `Circulation.Cache.History.invariant` — what every step keeps holds at every moment.
* `Circulation.Cache.History.isQueued` — the updates that wait are always in order.
* `Circulation.Cache.History.request_unique`, `Circulation.Cache.History.finish_unique` — an update
  is requested once, and its build ends once.
* `Circulation.Cache.History.exists_request_of_mem_waiting` — an update waits from its request on.
* `Circulation.Cache.History.exists_call_of_mem_calls` — an update asks while it builds.
* `Circulation.Cache.History.returns_cases` — the three ways in which an update returns.
* `Circulation.Cache.History.run_steps` — the cache is what its steps make of the empty cache.
-/

namespace Circulation.Cache

variable {Q : Type} {A : Q → Type}

/-- A history of a cache: what happens in its moments, and when. The clock does not run back. -/
structure History (s : Settings) (build : Program Q A Event (Except ComputeError Snapshot)) where
  instant : Nat → Nat
  action : Nat → Action Q A
  clock : ∀ n, instant n ≤ instant (n + 1)
  allows : ∀ n, (Usage.play s instant action n).Allows s build (instant n) (action n)

namespace History

variable {s : Settings} {build : Program Q A Event (Except ComputeError Snapshot)}

section

variable (h : History s build)

/-- The state before a moment. -/
def usage (n : Nat) : Usage Q A :=
  Usage.play s h.instant h.action n

/-- What the cache does in a moment. -/
def effect (n : Nat) : Option Effect :=
  (h.usage n).effectOf s (h.instant n) (h.action n)

/-- The state of the cache before a moment. -/
def cache (n : Nat) : Cache :=
  (h.usage n).cache

/-- What the slot holds before a moment. -/
def slot (n : Nat) : Option Stored :=
  (h.cache n).slot

/-- An update of a denomination is requested. -/
def Requests (n : Nat) (ticket : Ticket) (denom : String) : Prop :=
  h.action n = .step (.request ticket denom)

/-- An update waits for the gate. -/
def Waits (n : Nat) (ticket : Ticket) : Prop :=
  ∃ w ∈ (h.cache n).waiting, w.ticket = ticket

/-- An update gets the gate. -/
def Grants (n : Nat) (ticket : Ticket) : Prop :=
  h.action n = .step .grant ∧ ∃ w, (h.cache n).waiting.head? = some w ∧ w.ticket = ticket

/-- An update begins to build. -/
def Builds (n : Nat) (ticket : Ticket) : Prop :=
  h.effect n = some (.build ticket)

/-- The build of an update ends. -/
def Ends (n : Nat) (ticket : Ticket) (result : Except ComputeError Snapshot) : Prop :=
  h.action n = .step (.finish ticket result)

/-- The build of an update ends with a snapshot. -/
def Succeeds (n : Nat) (ticket : Ticket) (snapshot : Snapshot) : Prop :=
  h.Ends n ticket (.ok snapshot)

/-- The build of an update fails. -/
def Fails (n : Nat) (ticket : Ticket) (why : ComputeError) : Prop :=
  h.Ends n ticket (.error why)

/-- An update returns. -/
def Returns (n : Nat) (ticket : Ticket) (result : Except Error Snapshot) : Prop :=
  (h.effect n).bind Effect.answer? = some (ticket, result)

/-- A moment is one of an update: it is requested, gets the gate, asks, ends or is given up. -/
def Involves (n : Nat) (ticket : Ticket) : Prop :=
  (∃ denom, h.Requests n ticket denom) ∨ h.Grants n ticket ∨
    (∃ answers, h.action n = .call ticket answers) ∨ (∃ result, h.Ends n ticket result) ∨
    h.action n = .step (.cancel ticket)

end

variable {h : History s build} {m n : Nat} {ticket : Ticket}

/-! ### The clock and the order of the updates -/

/-- A clock that ticks from moment to moment does not run back. -/
theorem ticks (n : Nat) : 10 * (n + 1) ≤ 10 * (n + 1 + 1) :=
  Nat.mul_le_mul_left 10 (Nat.le_succ (n + 1))

@[simp]
theorem cache_zero (h : History s build) : h.cache 0 = {} := rfl

theorem cache_cases (h : History s build) (n : Nat) :
    (∃ a, h.action n = .step a ∧
      Happens s (h.instant n) (h.cache n) a (h.cache (n + 1)) (h.effect n)) ∨
    h.effect n = none ∧ h.cache (n + 1) = h.cache n :=
  (h.allows n).cache_cases

theorem happens {a : Step} (haction : h.action n = .step a) :
    Happens s (h.instant n) (h.cache n) a (h.cache (n + 1)) (h.effect n) :=
  (h.allows n).happens haction

/-- What holds of the empty cache and is kept by every step and by the clock holds before every
moment. -/
theorem invariant {I : Nat → Cache → Prop} (hempty : I (h.instant 0) {})
    (hclock : ∀ {now now' c}, I now c → now ≤ now' → I now' c)
    (hstep : ∀ {now c a c' effect}, I now c → Happens s now c a c' effect → I now c') (n : Nat) :
    I (h.instant n) (h.cache n) := by
  induction n with
  | zero => exact hempty
  | succ n ih =>
    refine hclock ?_ (h.clock n)
    rcases h.cache_cases n with ⟨a, -, ha⟩ | ⟨-, heq⟩
    · exact hstep ih ha
    · rw [heq]
      exact ih

theorem isQueued (h : History s build) (n : Nat) : (h.cache n).IsQueued (h.instant n) := by
  refine h.invariant (I := fun now c => c.IsQueued now) ?_ (fun hc hle => hc.mono hle) .happens n
  exact ⟨List.nodup_nil, by simp, List.Pairwise.nil, by simp, by simp⟩

/-! ### An update is requested once -/

theorem mem_requested_of_le (hmem : ticket ∈ (h.usage m).requested) (hle : m ≤ n) :
    ticket ∈ (h.usage n).requested := by
  induction n, hle using Nat.le_induction with
  | base => exact hmem
  | succ n _ ih => exact Usage.mem_requested_after ih _ _ _

theorem mem_requested_of_request {denom : String} (hrequest : h.Requests m ticket denom)
    (hlt : m < n) : ticket ∈ (h.usage n).requested := by
  have hmem : ticket ∈ (h.usage (m + 1)).requested :=
    ((h.allows m).requested_of_request hrequest).2
  exact mem_requested_of_le hmem hlt

theorem not_mem_requested_of_request {denom : String} (hrequest : h.Requests m ticket denom) :
    ticket ∉ (h.usage m).requested :=
  ((h.allows m).requested_of_request hrequest).1

/-- An update is requested once. -/
theorem request_unique {denom denom' : String} (hm : h.Requests m ticket denom)
    (hn : h.Requests n ticket denom') : m = n := by
  rcases Nat.lt_trichotomy m n with hlt | heq | hlt
  · exact absurd (mem_requested_of_request hm hlt) (not_mem_requested_of_request hn)
  · exact heq
  · exact absurd (mem_requested_of_request hn hlt) (not_mem_requested_of_request hm)

theorem request_inj {denom denom' : String} (hn : h.Requests n ticket denom)
    (hn' : h.Requests n ticket denom') : denom = denom' := by
  have heq : Step.request ticket denom = .request ticket denom' :=
    Action.step.inj (hn.symm.trans hn')
  exact (Step.request.inj heq).2

/-- An update that waits or builds has been requested, with the denomination of the cache. -/
theorem exists_request_of_isPending (hpending : (h.cache n).IsPending ticket) :
    ∃ i < n, h.Requests i ticket s.denom := by
  induction n with
  | zero =>
    rw [cache_zero] at hpending
    exact absurd hpending (by simp [IsPending])
  | succ n ih =>
    have hearlier : (h.cache n).IsPending ticket → ∃ i < n + 1, h.Requests i ticket s.denom := by
      intro hpending
      obtain ⟨i, hi, hrequest⟩ := ih hpending
      exact ⟨i, Nat.lt_succ_of_lt hi, hrequest⟩
    rcases h.cache_cases n with ⟨a, haction, ha⟩ | ⟨-, heq⟩
    · rcases isPending_of_happens ha hpending with hpending | rfl
      · exact hearlier hpending
      · exact ⟨n, Nat.lt_succ_self n, haction⟩
    · rw [heq] at hpending
      exact hearlier hpending

/-- An update that waits or builds is not one of another denomination. -/
theorem denom_eq_of_isPending (hpending : (h.cache n).IsPending ticket) {denom : String}
    (hrequest : h.Requests m ticket denom) : denom = s.denom := by
  obtain ⟨i, -, hi⟩ := exists_request_of_isPending hpending
  obtain rfl := request_unique hi hrequest
  exact (request_inj hi hrequest).symm

theorem mem_requested_of_isPending (hpending : (h.cache n).IsPending ticket) :
    ticket ∈ (h.usage n).requested := by
  obtain ⟨i, hi, hrequest⟩ := exists_request_of_isPending hpending
  exact mem_requested_of_request hrequest hi

/-- An update that neither waits nor builds any more does not begin to again. -/
theorem not_isPending_of_le (hrequested : ticket ∈ (h.usage m).requested)
    (hgone : ¬(h.cache m).IsPending ticket) (hle : m ≤ n) : ¬(h.cache n).IsPending ticket := by
  induction n, hle using Nat.le_induction with
  | base => exact hgone
  | succ n hmn ih =>
    intro hpending
    rcases h.cache_cases n with ⟨a, haction, ha⟩ | ⟨-, heq⟩
    · rcases isPending_of_happens ha hpending with hpending | rfl
      · exact ih hpending
      · exact not_mem_requested_of_request haction (mem_requested_of_le hrequested hmn)
    · exact ih (heq ▸ hpending)

/-! ### The build of an update ends once -/

theorem ends_inj {ticket' : Ticket} {result result' : Except ComputeError Snapshot}
    (hends : h.Ends n ticket result) (hends' : h.Ends n ticket' result') :
    ticket = ticket' ∧ result = result' := by
  have heq : Step.finish ticket result = .finish ticket' result' :=
    Action.step.inj (hends.symm.trans hends')
  exact Step.finish.inj heq

theorem mem_building_of_ends {result : Except ComputeError Snapshot}
    (hends : h.Ends n ticket result) : ticket ∈ (h.cache n).building :=
  (not_isPending_of_finish (happens hends)).1

theorem run_of_ends {result : Except ComputeError Snapshot} (hends : h.Ends n ticket result) :
    build.Run ((h.usage n).calls ticket) result :=
  (h.allows n).run_of_finish hends

theorem not_isPending_of_ends {result : Except ComputeError Snapshot}
    (hends : h.Ends m ticket result) (hlt : m < n) : ¬(h.cache n).IsPending ticket := by
  have hrequested : ticket ∈ (h.usage m).requested :=
    mem_requested_of_isPending (.inl (mem_building_of_ends hends))
  exact not_isPending_of_le (mem_requested_of_le hrequested (Nat.le_succ m))
    (not_isPending_of_finish (happens hends)).2 hlt

/-- The build of an update ends once. -/
theorem finish_unique {result result' : Except ComputeError Snapshot}
    (hm : h.Ends m ticket result) (hn : h.Ends n ticket result') : m = n := by
  rcases Nat.lt_trichotomy m n with hlt | heq | hlt
  · exact absurd (.inl (mem_building_of_ends hn)) (not_isPending_of_ends hm hlt)
  · exact heq
  · exact absurd (.inl (mem_building_of_ends hm)) (not_isPending_of_ends hn hlt)

/-! ### Waiting and building -/

/-- An update waits from the instant of its request on. -/
theorem exists_request_of_mem_waiting {w : Waiting} (hw : w ∈ (h.cache n).waiting) :
    ∃ i < n, h.Requests i w.ticket s.denom ∧ w.requestedAt = h.instant i := by
  induction n with
  | zero =>
    rw [cache_zero] at hw
    exact absurd hw List.not_mem_nil
  | succ n ih =>
    have hearlier : w ∈ (h.cache n).waiting →
        ∃ i < n + 1, h.Requests i w.ticket s.denom ∧ w.requestedAt = h.instant i := by
      intro hw
      obtain ⟨i, hi, hrequest⟩ := ih hw
      exact ⟨i, Nat.lt_succ_of_lt hi, hrequest⟩
    rcases h.cache_cases n with ⟨a, haction, ha⟩ | ⟨-, heq⟩
    · rcases mem_waiting_of_happens ha hw with hw | ⟨rfl, hinstant⟩
      · exact hearlier hw
      · exact ⟨n, Nat.lt_succ_self n, haction, hinstant⟩
    · exact hearlier (heq ▸ hw)

theorem requestedAt_eq {w : Waiting} (hw : w ∈ (h.cache n).waiting) {denom : String}
    (hrequest : h.Requests m w.ticket denom) : w.requestedAt = h.instant m := by
  obtain ⟨i, -, hi, hinstant⟩ := exists_request_of_mem_waiting hw
  rw [hinstant, request_unique hi hrequest]

/-- An update that builds has begun to. -/
theorem exists_builds_of_mem_building (hbuilding : ticket ∈ (h.cache n).building) :
    ∃ i < n, h.Builds i ticket := by
  induction n with
  | zero =>
    rw [cache_zero] at hbuilding
    exact absurd hbuilding List.not_mem_nil
  | succ n ih =>
    have hearlier : ticket ∈ (h.cache n).building → ∃ i < n + 1, h.Builds i ticket := by
      intro hbuilding
      obtain ⟨i, hi, hbuilds⟩ := ih hbuilding
      exact ⟨i, Nat.lt_succ_of_lt hi, hbuilds⟩
    rcases h.cache_cases n with ⟨a, -, ha⟩ | ⟨-, heq⟩
    · rcases mem_building_of_happens ha hbuilding with hbuilding | heffect
      · exact hearlier hbuilding
      · exact ⟨n, Nat.lt_succ_self n, heffect⟩
    · exact hearlier (heq ▸ hbuilding)

theorem step_of_builds (hbuilds : h.Builds n ticket) :
    ∃ a, h.action n = .step a ∧
      Happens s (h.instant n) (h.cache n) a (h.cache (n + 1)) (some (.build ticket)) := by
  rcases h.cache_cases n with ⟨a, haction, ha⟩ | ⟨heffect, -⟩
  · exact ⟨a, haction, hbuilds ▸ ha⟩
  · exact absurd (heffect.symm.trans hbuilds) (by simp)

theorem mem_building_of_builds (hbuilds : h.Builds n ticket) :
    ticket ∈ (h.cache (n + 1)).building := by
  obtain ⟨a, -, ha⟩ := step_of_builds hbuilds
  exact mem_building_of_build ha

/-- An update that has begun to build does not wait any more. -/
theorem not_waits_of_builds (hbuilds : h.Builds m ticket) (hlt : m < n) : ¬h.Waits n ticket := by
  have hbuilding : ticket ∈ (h.cache (m + 1)).building := mem_building_of_builds hbuilds
  induction n, hlt using Nat.le_induction with
  | base =>
    rintro ⟨w, hw, rfl⟩
    exact (h.isQueued (m + 1)).not_mem_building w hw hbuilding
  | succ n hmn ih =>
    rintro ⟨w, hw, rfl⟩
    rcases h.cache_cases n with ⟨a, haction, ha⟩ | ⟨-, heq⟩
    · rcases mem_waiting_of_happens ha hw with hw | ⟨rfl, -⟩
      · exact ih ⟨w, hw, rfl⟩
      · refine not_mem_requested_of_request haction (mem_requested_of_le ?_ hmn)
        exact mem_requested_of_isPending (.inl hbuilding)
    · exact ih ⟨w, heq ▸ hw, rfl⟩

/-- An update builds without a break. -/
theorem mem_building_of_mem {k : Nat} (hm : ticket ∈ (h.cache m).building)
    (hn : ticket ∈ (h.cache n).building) (hmk : m ≤ k) (hkn : k ≤ n) :
    ticket ∈ (h.cache k).building := by
  obtain ⟨i, hi, hbuilds⟩ := exists_builds_of_mem_building hm
  by_contra hbuilding
  have hgone : ¬(h.cache k).IsPending ticket := by
    rintro (hmem | hwaits)
    · exact hbuilding hmem
    · exact not_waits_of_builds hbuilds (Nat.lt_of_lt_of_le hi hmk) hwaits
  have hrequested : ticket ∈ (h.usage k).requested :=
    mem_requested_of_le (mem_requested_of_isPending (.inl hm)) hmk
  exact not_isPending_of_le hrequested hgone hkn (.inl hn)

/-- All that an update has asked, it asked while it was building. -/
theorem exists_call_of_mem_calls {x : Sigma A} (hx : x ∈ (h.usage n).calls ticket) :
    ∃ i < n, ticket ∈ (h.cache i).building ∧
      ∃ answers, h.action i = .call ticket answers ∧ x ∈ answers := by
  induction n with
  | zero => exact absurd hx List.not_mem_nil
  | succ n ih =>
    rcases (h.allows n).mem_calls_after hx with hx | ⟨hbuilding, hcall⟩
    · obtain ⟨i, hi, hcall⟩ := ih hx
      exact ⟨i, Nat.lt_succ_of_lt hi, hcall⟩
    · exact ⟨n, Nat.lt_succ_self n, hbuilding, hcall⟩

/-- An update that has not begun to build has asked nothing. -/
theorem calls_eq_nil (hidle : ∀ i < n, ¬h.Builds i ticket) : (h.usage n).calls ticket = [] := by
  refine List.eq_nil_iff_forall_not_mem.mpr fun x hx => ?_
  obtain ⟨k, hk, hbuilding, -⟩ := exists_call_of_mem_calls hx
  obtain ⟨i, hi, hbuilds⟩ := exists_builds_of_mem_building hbuilding
  exact hidle i (Nat.lt_trans hi hk) hbuilds

theorem calls_eq_nil_of_waits (hwaits : h.Waits n ticket) : (h.usage n).calls ticket = [] :=
  calls_eq_nil fun _ hi hbuilds => not_waits_of_builds hbuilds hi hwaits

/-- An update that begins to build has asked nothing. -/
theorem calls_eq_nil_of_builds (hbuilds : h.Builds n ticket) : (h.usage n).calls ticket = [] := by
  refine List.eq_nil_iff_forall_not_mem.mpr fun x hx => ?_
  obtain ⟨k, hk, hbuilding, -⟩ := exists_call_of_mem_calls hx
  obtain ⟨i, hi, hearlier⟩ := exists_builds_of_mem_building hbuilding
  have hrequested : ticket ∈ (h.usage n).requested :=
    mem_requested_of_le (mem_requested_of_isPending (.inl hbuilding)) hk.le
  obtain ⟨a, haction, ha⟩ := step_of_builds hbuilds
  rcases start_or_waits_of_build ha with rfl | hwaits
  · exact not_mem_requested_of_request haction hrequested
  · exact not_waits_of_builds hearlier (hi.trans hk) hwaits

/-! ### Returning -/

/-- An update returns in one of three ways: it is refused, it gets the gate and takes the stored
snapshot, or its build ends. -/
theorem returns_cases {result : Except Error Snapshot} (hreturns : h.Returns n ticket result) :
    (∃ denom, h.Requests n ticket denom ∧ denom ≠ s.denom ∧
      result = .error (.denom s.denom denom)) ∨
    (h.Grants n ticket ∧ ∃ w ∈ (h.cache n).waiting, w.ticket = ticket ∧
      ∃ stored, h.slot n = some stored ∧ w.requestedAt < stored.storedAt ∧
        result = .ok stored.snapshot) ∨
    ∃ built, h.Ends n ticket built ∧ result = built.mapError .compute := by
  rcases h.cache_cases n with ⟨a, haction, ha⟩ | ⟨heffect, -⟩
  · rcases answer_of_happens ha hreturns with ⟨denom, rfl, hdenom, hresult⟩ |
      ⟨w, stored, rfl, hw, hticket, hslot, hlater, hresult⟩ | ⟨built, rfl, -, hresult⟩
    · exact .inl ⟨denom, haction, hdenom, hresult⟩
    · exact .inr (.inl ⟨⟨haction, w, hw, hticket⟩, w, List.mem_of_head? hw, hticket, stored, hslot,
        hlater, hresult⟩)
    · exact .inr (.inr ⟨built, haction, hresult⟩)
  · rw [Returns, heffect] at hreturns
    exact absurd hreturns (by simp)

/-- An update that returns a snapshot has waited and takes it from the slot, or has built it. -/
theorem returns_ok_cases {snapshot : Snapshot} (hreturns : h.Returns n ticket (.ok snapshot)) :
    (h.Waits n ticket ∧ ∃ stored, h.slot n = some stored ∧ stored.snapshot = snapshot) ∨
      h.Succeeds n ticket snapshot := by
  rcases returns_cases hreturns with ⟨denom, -, -, hresult⟩ |
    ⟨-, w, hw, hticket, stored, hslot, -, hresult⟩ | ⟨built, hends, hresult⟩
  · exact absurd hresult (by simp)
  · exact .inl ⟨⟨w, hw, hticket⟩, stored, hslot, (Except.ok.inj hresult).symm⟩
  · rw [mapError_eq_ok.mp hresult.symm] at hends
    exact .inr hends

/-- An update returns no earlier than it is requested. -/
theorem le_of_returns {denom : String} {result : Except Error Snapshot}
    (hrequest : h.Requests m ticket denom) (hreturns : h.Returns n ticket result) : m ≤ n := by
  have hpending : (h.cache n).IsPending ticket → m ≤ n := by
    intro hpending
    obtain ⟨i, hi, hother⟩ := exists_request_of_isPending hpending
    exact (request_unique hrequest hother).le.trans hi.le
  rcases returns_cases hreturns with ⟨denom', hother, -⟩ | ⟨-, w, hw, hticket, -⟩ |
    ⟨built, hends, -⟩
  · exact (request_unique hrequest hother).le
  · exact hpending (.inr ⟨w, hw, hticket⟩)
  · exact hpending (.inl (mem_building_of_ends hends))

/-- An update whose build ends returns what was built. -/
theorem returns_of_ends {result : Except ComputeError Snapshot} (hends : h.Ends n ticket result) :
    h.Returns n ticket (result.mapError .compute) := by
  rw [Returns, effect_of_finish (happens hends)]
  rfl

/-- A refused update returns at once, and nothing changes. -/
theorem refused {denom : String} (hrequest : h.Requests n ticket denom) (hdenom : denom ≠ s.denom) :
    h.Returns n ticket (.error (.denom s.denom denom)) ∧ h.cache (n + 1) = h.cache n := by
  obtain ⟨heffect, hcache⟩ := refuse_of_happens (happens hrequest) hdenom
  refine ⟨?_, hcache⟩
  rw [Returns, heffect]
  rfl

/-! ### The steps of a history -/

/-- The steps that the cache takes before a moment, with their instants. -/
def steps (h : History s build) (n : Nat) : List (Nat × Step) :=
  (List.range n).filterMap fun k =>
    match h.action k with
    | .step a => some (h.instant k, a)
    | .call _ _ | .look => none

/-- The cache before a moment is what the steps before it make of the empty cache, and what the cache
did then is what it does in those steps. -/
theorem run_steps (h : History s build) (n : Nat) :
    Cache.run s {} (h.steps n) = some (h.cache n, (List.range n).filterMap h.effect) := by
  induction n with
  | zero => rfl
  | succ n ih =>
    rw [steps, List.range_succ, List.filterMap_append, List.filterMap_append]
    cases haction : h.action n with
    | step a =>
      have hstep := step_of_happens (h.happens haction)
      simp only [List.filterMap_cons, List.filterMap_nil, haction]
      rw [← steps, run_concat ih, hstep]
      cases h.effect n <;> rfl
    | call ticket answers | look =>
      have heffect : h.effect n = none := by
        rw [effect, haction]
        rfl
      have hcache : h.cache (n + 1) = h.cache n := by
        change ((h.usage n).after s (h.instant n) (h.action n)).cache = _
        rw [haction]
        rfl
      simp only [List.filterMap_cons, List.filterMap_nil, haction, heffect, List.append_nil]
      rw [← steps, ih, hcache]

end History

end Circulation.Cache
