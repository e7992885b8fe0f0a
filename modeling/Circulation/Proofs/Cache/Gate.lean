import Mathlib.Data.List.Nodup
import Circulation.Proofs.Cache.Step

/-!
# The gate of a cache

With single flight, updates wait in the order of their requests, and only the update that holds the
gate builds. It builds because nothing was stored since its request, and those behind it have been
requested no earlier. So nothing was stored since the requests of all updates that wait while one
builds, and if the build fails the next of them has to build as well.

## Main definitions

* `Circulation.Cache.IsQueued` — the updates that wait are in order.
* `Circulation.Cache.Unserved` — nothing was stored since the requests of the updates that wait.
* `Circulation.Cache.TakesTurns` — only the update that holds the gate builds.

## Main results

* `Circulation.Cache.IsQueued.happens`, `Circulation.Cache.TakesTurns.happens` — every step keeps
  the order and the turns.
-/

namespace Circulation.Cache

variable {s : Settings} {now : Nat} {c c' : Cache} {a : Step} {effect : Option Effect}

/-- The updates that wait at an instant are in order: each waits once and does not build, and they
stand in the order of their requests, none of which lies ahead. -/
structure IsQueued (c : Cache) (now : Nat) : Prop where
  nodup : (c.waiting.map (·.ticket)).Nodup
  not_mem_building : ∀ w ∈ c.waiting, w.ticket ∉ c.building
  sorted : c.waiting.Pairwise fun w w' => w.requestedAt ≤ w'.requestedAt
  requestedAt_le : ∀ w ∈ c.waiting, w.requestedAt ≤ now
  storedAt_le : ∀ stored, c.slot = some stored → stored.storedAt ≤ now

/-- Nothing was stored since the requests of the updates that wait. -/
def Unserved (c : Cache) : Prop :=
  ∀ w ∈ c.waiting, c.storedAfter? w.requestedAt = none

/-- Only the update that holds the gate builds, and nothing was stored since the requests of those
that wait behind it. -/
structure TakesTurns (c : Cache) : Prop where
  building_eq : c.building = c.gate.toList
  unserved : c.building ≠ [] → c.Unserved

/-! ### The order of the updates that wait -/

namespace IsQueued

theorem mono (h : c.IsQueued now) {now' : Nat} (hle : now ≤ now') : c.IsQueued now' where
  nodup := h.nodup
  not_mem_building := h.not_mem_building
  sorted := h.sorted
  requestedAt_le w hw := Nat.le_trans (h.requestedAt_le w hw) hle
  storedAt_le stored hstored := Nat.le_trans (h.storedAt_le stored hstored) hle

theorem leave (h : c.IsQueued now) (ticket : Ticket) : (c.leave ticket).IsQueued now where
  nodup := h.nodup.sublist (List.filter_sublist.map _)
  not_mem_building w hw hbuilding :=
    h.not_mem_building w (mem_waiting_leave.mp hw).1 (mem_building_leave.mp hbuilding).1
  sorted := h.sorted.sublist List.filter_sublist
  requestedAt_le w hw := h.requestedAt_le w (mem_waiting_leave.mp hw).1
  storedAt_le := h.storedAt_le

/-- The queue without its first update. -/
theorem tail (h : c.IsQueued now) {first : Waiting} {others : List Waiting}
    (hwaiting : c.waiting = first :: others) : ({ c with waiting := others } : Cache).IsQueued now := by
  have hmem : ∀ w ∈ others, w ∈ c.waiting := fun w hw => hwaiting ▸ List.mem_cons_of_mem _ hw
  have hnodup := h.nodup
  have hsorted := h.sorted
  rw [hwaiting] at hnodup hsorted
  exact ⟨(List.nodup_cons.mp hnodup).2, fun w hw => h.not_mem_building w (hmem w hw),
    (List.pairwise_cons.mp hsorted).2, fun w hw => h.requestedAt_le w (hmem w hw), h.storedAt_le⟩

/-- Every step keeps the order of the updates that wait. -/
theorem happens (hc : c.IsQueued now) (h : Happens s now c a c' effect) : c'.IsQueued now := by
  cases h with
  | refuse => exact hc
  | @wait ticket hfree =>
    have hother : ∀ w ∈ c.waiting, w.ticket ≠ ticket := fun w hw heq => hfree (.inr ⟨w, hw, heq⟩)
    refine ⟨?_, ?_, ?_, ?_, hc.storedAt_le⟩
    · rw [List.map_append, List.map_singleton]
      refine List.nodup_append.mpr ⟨hc.nodup, List.nodup_singleton _, fun t ht t' ht' => ?_⟩
      obtain ⟨w, hw, rfl⟩ := List.mem_map.mp ht
      rw [List.mem_singleton.mp ht']
      exact hother w hw
    · intro w hw
      rcases List.mem_append.mp hw with hw | hw
      · exact hc.not_mem_building w hw
      · rw [List.mem_singleton.mp hw]
        exact fun hbuilding => hfree (.inl hbuilding)
    · refine List.pairwise_append.mpr ⟨hc.sorted, List.pairwise_singleton _ _, fun w hw w' hw' => ?_⟩
      rw [List.mem_singleton.mp hw']
      exact hc.requestedAt_le w hw
    · intro w hw
      rcases List.mem_append.mp hw with hw | hw
      · exact hc.requestedAt_le w hw
      · obtain rfl := List.mem_singleton.mp hw
        exact Nat.le_refl now
  | @start ticket hfree =>
    refine ⟨hc.nodup, fun w hw hbuilding => ?_, hc.sorted, hc.requestedAt_le, hc.storedAt_le⟩
    rcases List.mem_append.mp hbuilding with hbuilding | hbuilding
    · exact hc.not_mem_building w hw hbuilding
    · exact hfree (.inr ⟨w, hw, List.mem_singleton.mp hbuilding⟩)
  | reuse _ hwaiting => exact hc.tail hwaiting
  | @enter first others _ hwaiting =>
    have htail := hc.tail hwaiting
    refine ⟨htail.nodup, fun w hw hbuilding => ?_, htail.sorted, htail.requestedAt_le,
      htail.storedAt_le⟩
    rcases List.mem_append.mp hbuilding with hbuilding | hbuilding
    · exact htail.not_mem_building w hw hbuilding
    · have hnodup := hc.nodup
      rw [hwaiting, List.map_cons, List.nodup_cons] at hnodup
      exact hnodup.1 (List.mem_map.mpr ⟨w, hw, List.mem_singleton.mp hbuilding⟩)
  | @store ticket snapshot =>
    have hleave := hc.leave ticket
    refine ⟨hleave.nodup, hleave.not_mem_building, hleave.sorted, hleave.requestedAt_le, ?_⟩
    intro stored hstored
    obtain rfl := Option.some.inj hstored
    exact Nat.le_refl now
  | fail | cancel => exact hc.leave _

/-- An update that begins to build did not build before. -/
theorem not_mem_building_of_build (hc : c.IsQueued now) {ticket : Ticket}
    (h : Happens s now c a c' (some (.build ticket))) : ticket ∉ c.building := by
  cases h with
  | start hfree => exact fun hbuilding => hfree (.inl hbuilding)
  | enter _ hwaiting =>
    exact hc.not_mem_building _ (hwaiting ▸ List.mem_cons_self)

end IsQueued

/-! ### Turns -/

theorem Unserved.leave (h : c.Unserved) (ticket : Ticket) : (c.leave ticket).Unserved :=
  fun w hw => h w (mem_waiting_leave.mp hw).1

/-- An update that begins to wait has been requested no earlier than anything was stored. -/
theorem Unserved.append (h : c.Unserved) (hc : c.IsQueued now) (ticket : Ticket) :
    ({ c with waiting := c.waiting ++ [⟨ticket, now⟩] } : Cache).Unserved := by
  intro w hw
  rcases List.mem_append.mp hw with hw | hw
  · exact h w hw
  · rw [List.mem_singleton.mp hw]
    exact storedAfter?_eq_none_iff.mpr hc.storedAt_le

namespace TakesTurns

theorem building_eq_nil_of_gate (h : c.TakesTurns) (hgate : c.gate = none) : c.building = [] := by
  rw [h.building_eq, hgate]
  rfl

theorem gate_eq_of_mem_building (h : c.TakesTurns) {ticket : Ticket}
    (hbuilding : ticket ∈ c.building) : c.gate = some ticket := by
  rw [h.building_eq, Option.mem_toList] at hbuilding
  exact hbuilding

/-- The update that builds leaves nobody building. -/
theorem building_leave_eq_nil (h : c.TakesTurns) {ticket : Ticket}
    (hbuilding : ticket ∈ c.building) : (c.leave ticket).building = [] := by
  rw [Cache.leave, h.building_eq, h.gate_eq_of_mem_building hbuilding]
  simp

theorem leave (h : c.TakesTurns) (ticket : Ticket) : (c.leave ticket).TakesTurns where
  building_eq := by
    by_cases hgate : c.gate = some ticket
    · simp [Cache.leave, h.building_eq, hgate]
    · cases hholder : c.gate with
      | none => simp [Cache.leave, h.building_eq, hholder]
      | some holder =>
        have hother : holder ≠ ticket := fun heq => hgate (heq ▸ hholder)
        simp [Cache.leave, h.building_eq, hholder, hother]
  unserved hbuilding := by
    refine (h.unserved fun hnil => hbuilding ?_).leave ticket
    rw [Cache.leave, hnil]
    rfl

/-- Every step of a cache with single flight keeps the turns. -/
theorem happens (hflight : s.singleFlight = true) (hturns : c.TakesTurns) (hqueued : c.IsQueued now)
    (h : Happens s now c a c' effect) : c'.TakesTurns := by
  cases h with
  | refuse => exact hturns
  | wait => exact ⟨hturns.building_eq, fun hbuilding => (hturns.unserved hbuilding).append hqueued _⟩
  | start _ hoff => exact absurd (hflight.symm.trans hoff) (by decide)
  | reuse hgate =>
    exact ⟨hturns.building_eq, fun hbuilding =>
      absurd (hturns.building_eq_nil_of_gate hgate) hbuilding⟩
  | @enter first others hgate hwaiting hstored =>
    refine ⟨?_, fun _ w hw => ?_⟩
    · rw [hturns.building_eq_nil_of_gate hgate]
      rfl
    · -- those behind the first have been requested no earlier than it
      have hsorted := hqueued.sorted
      rw [hwaiting] at hsorted
      have hlater : first.requestedAt ≤ w.requestedAt := (List.pairwise_cons.mp hsorted).1 w hw
      refine storedAfter?_eq_none_iff.mpr fun stored hslot => ?_
      exact Nat.le_trans (storedAfter?_eq_none_iff.mp hstored stored hslot) hlater
  | @store ticket snapshot hbuilding =>
    exact ⟨(hturns.leave ticket).building_eq, fun hsome =>
      absurd (hturns.building_leave_eq_nil hbuilding) hsome⟩
  | fail | cancel => exact hturns.leave _

/-- After a build that fails nobody builds, and nothing was stored since the requests of those that
wait. -/
theorem unserved_of_fail (hturns : c.TakesTurns) {ticket : Ticket} {why : ComputeError}
    (h : Happens s now c (.finish ticket (.error why)) c' effect) :
    c'.gate = none ∧ c'.building = [] ∧ c'.Unserved := by
  cases h with
  | fail hbuilding =>
    refine ⟨?_, hturns.building_leave_eq_nil hbuilding, ?_⟩
    · rw [Cache.leave, hturns.gate_eq_of_mem_building hbuilding]
      exact ite_eq_left_iff.mpr fun hne => absurd rfl hne
    · exact (hturns.unserved (List.ne_nil_of_mem hbuilding)).leave ticket

end TakesTurns

/-- With single flight an update begins to build when it gets the gate and nothing was stored since
its request. -/
theorem grant_of_build (hflight : s.singleFlight = true) {ticket : Ticket}
    (h : Happens s now c a c' (some (.build ticket))) :
    a = .grant ∧ c.gate = none ∧
      ∃ w, c.waiting.head? = some w ∧ w.ticket = ticket ∧ c.storedAfter? w.requestedAt = none := by
  cases h with
  | start _ hoff => exact absurd (hflight.symm.trans hoff) (by decide)
  | enter hgate hwaiting hstored =>
    exact ⟨rfl, hgate, _, by rw [hwaiting, List.head?_cons], rfl, hstored⟩

/-- While nobody builds, updates stay unserved until the gate is given. -/
theorem Unserved.happens (hflight : s.singleFlight = true) (hbuilding : c.building = [])
    (hqueued : c.IsQueued now) (hc : c.Unserved) (h : Happens s now c a c' effect)
    (hgrant : a ≠ .grant) : c'.building = [] ∧ c'.Unserved := by
  cases h with
  | refuse => exact ⟨hbuilding, hc⟩
  | wait => exact ⟨hbuilding, hc.append hqueued _⟩
  | start _ hoff => exact absurd (hflight.symm.trans hoff) (by decide)
  | reuse | enter => exact absurd rfl hgrant
  | store hmem | fail hmem =>
    rw [hbuilding] at hmem
    exact absurd hmem List.not_mem_nil
  | cancel =>
    refine ⟨?_, hc.leave _⟩
    rw [Cache.leave, hbuilding]
    rfl

/-- Without single flight nobody waits. -/
theorem waiting_eq_nil_of_happens (hflight : s.singleFlight = false) (hc : c.waiting = [])
    (h : Happens s now c a c' effect) : c'.waiting = [] := by
  cases h with
  | refuse | start => exact hc
  | wait _ hon => exact absurd (hflight.symm.trans hon) (by decide)
  | reuse _ hwaiting | enter _ hwaiting =>
    rw [hc] at hwaiting
    exact absurd hwaiting (by simp)
  | store | fail | cancel =>
    change List.filter _ c.waiting = []
    rw [hc]
    rfl

end Circulation.Cache
