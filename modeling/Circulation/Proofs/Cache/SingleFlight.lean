import Circulation.Proofs.Cache.Slot

/-!
# Single flight

With single flight only the update that holds the gate builds. An update that gets the gate first
looks at the slot: what was stored after its own request was built by an update ahead of it, and it
takes that. So all updates that are requested before a build ends with success share that build, and
after a build that fails the next update in the queue makes a build of its own.

## Main definitions

* `Circulation.Cache.History.IsSingleFlight` — the turns that the updates of a history take.

## Main results

* `Circulation.Cache.History.takesTurns` — only the update that holds the gate builds.
* `Circulation.Cache.History.returns_and_calls_eq_nil_iff` — which updates return without a question.
* `Circulation.Cache.History.not_builds_of_succeeds` — an update that waits while a later snapshot is
  stored does not build.
* `Circulation.Cache.History.builds_of_fails` — the first update that gets the gate after a failure
  builds.
* `Circulation.Cache.History.isSingleFlight` — updates take turns in every history with single flight.
-/

namespace Circulation.Cache.History

variable {s : Settings}

section

variable {Q : Type} {A : Q → Type} {build : Program Q A Event (Except ComputeError Snapshot)}
  {h : History s build} {m n : Nat} {ticket : Ticket}

/-! ### One build at a time -/

theorem takesTurns (hflight : s.singleFlight = true) (h : History s build) (n : Nat) :
    (h.cache n).TakesTurns := by
  have hinvariant : (h.cache n).IsQueued (h.instant n) ∧ (h.cache n).TakesTurns := by
    refine h.invariant (I := fun now c => c.IsQueued now ∧ c.TakesTurns) ?_
      (fun hc hle => ⟨hc.1.mono hle, hc.2⟩)
      (fun hc ha => ⟨hc.1.happens ha, hc.2.happens hflight hc.1 ha⟩) n
    exact ⟨h.isQueued 0, rfl, fun hbuilding => absurd rfl hbuilding⟩
  exact hinvariant.2

theorem length_building_le_one (hflight : s.singleFlight = true) (h : History s build) (n : Nat) :
    (h.cache n).building.length ≤ 1 := by
  rw [(takesTurns hflight h n).building_eq]
  exact Option.length_toList_le

/-- An update that begins to build has got the gate, nobody else builds, and nothing was stored since
its request. -/
theorem grants_of_builds (hflight : s.singleFlight = true) (hbuilds : h.Builds n ticket) :
    h.Grants n ticket ∧ (h.cache n).building = [] ∧
      ∃ w ∈ (h.cache n).waiting, w.ticket = ticket ∧
        (h.cache n).storedAfter? w.requestedAt = none := by
  obtain ⟨a, haction, ha⟩ := step_of_builds hbuilds
  obtain ⟨rfl, hgate, w, hw, hticket, hstored⟩ := grant_of_build hflight ha
  exact ⟨⟨haction, w, hw, hticket⟩, (takesTurns hflight h n).building_eq_nil_of_gate hgate, w,
    List.mem_of_head? hw, hticket, hstored⟩

/-- An update builds until its build ends or it is given up. -/
theorem mem_building_of_le (hbuilds : h.Builds m ticket) (hlt : m < n)
    (hgoes : ∀ k, m < k → k < n →
      (∀ result, ¬h.Ends k ticket result) ∧ h.action k ≠ .step (.cancel ticket)) :
    ticket ∈ (h.cache n).building := by
  induction n, hlt using Nat.le_induction with
  | base => exact mem_building_of_builds hbuilds
  | succ n hmn ih =>
    have hbuilding := ih fun k hmk hkn => hgoes k hmk (Nat.lt_succ_of_lt hkn)
    obtain ⟨hends, hcancel⟩ := hgoes n hmn (Nat.lt_succ_self n)
    rcases h.cache_cases n with ⟨a, haction, ha⟩ | ⟨-, heq⟩
    · rcases mem_building_or_of_happens ha hbuilding with hbuilding | ⟨result, rfl⟩ | rfl
      · exact hbuilding
      · exact absurd haction (hends result)
      · exact absurd haction hcancel
    · rw [heq]
      exact hbuilding

/-- Before an update begins to build, every earlier build has ended or was given up. -/
theorem exists_ends_of_builds (hflight : s.singleFlight = true) {ticket' : Ticket}
    (hbuilds : h.Builds m ticket) (hbuilds' : h.Builds n ticket') (hlt : m < n) :
    ∃ k, m < k ∧ k < n ∧
      ((∃ result, h.Ends k ticket result) ∨ h.action k = .step (.cancel ticket)) := by
  by_contra hgoes
  have hbuilding : ticket ∈ (h.cache n).building := by
    refine mem_building_of_le hbuilds hlt fun k hmk hkn => ⟨fun result hends => ?_, fun hcancel => ?_⟩
    · exact hgoes ⟨k, hmk, hkn, .inl ⟨result, hends⟩⟩
    · exact hgoes ⟨k, hmk, hkn, .inr hcancel⟩
  rw [(grants_of_builds hflight hbuilds').2.1] at hbuilding
  exact List.not_mem_nil hbuilding

/-! ### Sharing a build -/

/-- An update that gets the gate takes what was stored after its request. -/
theorem returns_of_grants {stored : Stored} (hgrants : h.Grants n ticket)
    (hrequest : h.Requests m ticket s.denom) (hslot : h.slot n = some stored)
    (hlater : h.instant m < stored.storedAt) : h.Returns n ticket (.ok stored.snapshot) := by
  obtain ⟨haction, w, hw, rfl⟩ := hgrants
  rw [← requestedAt_eq (List.mem_of_head? hw) hrequest] at hlater
  have hstored : (h.cache n).storedAfter? w.requestedAt = some stored.snapshot :=
    storedAfter?_eq_some_iff.mpr ⟨stored, hslot, hlater, rfl⟩
  rw [Returns, effect_of_grant (happens haction) hw, hstored]
  rfl

theorem waits_of_grants (hgrants : h.Grants n ticket) : h.Waits n ticket := by
  obtain ⟨-, w, hw, hticket⟩ := hgrants
  exact ⟨w, List.mem_of_head? hw, hticket⟩

/-- An update returns without a question exactly when it gets the gate and a snapshot was stored
after its request, and it returns that snapshot. -/
theorem returns_and_calls_eq_nil_iff
    (hasks : ∀ log result, build.Run log result → log ≠ []) (hrequest : h.Requests m ticket s.denom)
    (n : Nat) (result : Except Error Snapshot) :
    h.Returns n ticket result ∧ (h.usage n).calls ticket = [] ↔
      h.Grants n ticket ∧ ∃ stored, h.slot n = some stored ∧ h.instant m < stored.storedAt ∧
        result = .ok stored.snapshot := by
  constructor
  · rintro ⟨hreturns, hcalls⟩
    rcases returns_cases hreturns with ⟨denom, hother, hdenom, -⟩ |
      ⟨hgrants, w, hw, rfl, stored, hslot, hlater, hresult⟩ | ⟨built, hends, -⟩
    · obtain rfl := request_unique hrequest hother
      exact absurd (request_inj hrequest hother).symm hdenom
    · rw [requestedAt_eq hw hrequest] at hlater
      exact ⟨hgrants, stored, hslot, hlater, hresult⟩
    · exact absurd hcalls (hasks _ _ (run_of_ends hends))
  · rintro ⟨hgrants, stored, hslot, hlater, rfl⟩
    exact ⟨returns_of_grants hgrants hrequest hslot hlater,
      calls_eq_nil_of_waits (waits_of_grants hgrants)⟩

/-- An update that waits while a build stores a snapshot after its request does not build. -/
theorem not_builds_of_succeeds (hflight : s.singleFlight = true) {other : Ticket}
    {snapshot : Snapshot} (hsucceeds : h.Succeeds n other snapshot)
    (hrequest : h.Requests m ticket s.denom) (hlater : h.instant m < h.instant n)
    (hwaits : h.Waits n ticket) (k : Nat) : ¬h.Builds k ticket := by
  intro hbuilds
  rcases Nat.lt_trichotomy k n with hlt | rfl | hlt
  · exact not_waits_of_builds hbuilds hlt hwaits
  · exact absurd ((grants_of_builds hflight hbuilds).1.1.symm.trans hsucceeds) (by simp)
  · -- what the slot holds at the grant was stored no earlier than the snapshot
    obtain ⟨-, -, w, hw, rfl, hnone⟩ := grants_of_builds hflight hbuilds
    obtain ⟨stored, hslot, hle⟩ := exists_slot_of_le (slot_succ_of_succeeds hsucceeds) hlt
    have hstored : stored.storedAt ≤ w.requestedAt := storedAfter?_eq_none_iff.mp hnone stored hslot
    rw [requestedAt_eq hw hrequest] at hstored
    exact absurd (Nat.le_trans hle hstored) (Nat.not_le.mpr hlater)

/-! ### After a failure -/

/-- After a failure updates stay unserved until the gate is given. -/
theorem unserved_of_fails (hflight : s.singleFlight = true) {other : Ticket} {why : ComputeError}
    (hfails : h.Fails m other why) (hlt : m < n)
    (hgrant : ∀ k, m < k → k < n → h.action k ≠ .step .grant) :
    (h.cache n).building = [] ∧ (h.cache n).Unserved := by
  induction n, hlt using Nat.le_induction with
  | base => exact ((takesTurns hflight h m).unserved_of_fail (happens hfails)).2
  | succ n hmn ih =>
    obtain ⟨hbuilding, hunserved⟩ := ih fun k hmk hkn => hgrant k hmk (Nat.lt_succ_of_lt hkn)
    rcases h.cache_cases n with ⟨a, haction, ha⟩ | ⟨-, heq⟩
    · have hne : a ≠ .grant := by
        rintro rfl
        exact hgrant n hmn (Nat.lt_succ_self n) haction
      exact hunserved.happens hflight hbuilding (h.isQueued n) ha hne
    · rw [heq]
      exact ⟨hbuilding, hunserved⟩

/-- The first update that gets the gate after a failure builds. -/
theorem builds_of_fails (hflight : s.singleFlight = true) {other : Ticket} {why : ComputeError}
    (hfails : h.Fails m other why) (hlt : m < n)
    (hgrant : ∀ k, m < k → k < n → h.action k ≠ .step .grant) (hgrants : h.Grants n ticket) :
    h.Builds n ticket := by
  obtain ⟨-, hunserved⟩ := unserved_of_fails hflight hfails hlt hgrant
  obtain ⟨haction, w, hw, rfl⟩ := hgrants
  rw [Builds, effect_of_grant (happens haction) hw, hunserved w (List.mem_of_head? hw)]

end

/-! ### The turns of a snapshot cache -/

variable {policy : Policy} {policyEtag : Option String}

/-- The turns that the updates of a snapshot cache take in a history. -/
structure IsSingleFlight (h : History s (Snapshot.compute policy policyEtag s.denom)) : Prop where
  /-- At every moment at most one update builds. -/
  one_build : ∀ n, (h.cache n).building.length ≤ 1
  /-- Before an update begins to build, every earlier build has ended or was given up. -/
  no_overlap : ∀ m n ticket ticket', h.Builds m ticket → h.Builds n ticket' → m < n →
    ∃ k, m < k ∧ k < n ∧
      ((∃ result, h.Ends k ticket result) ∨ h.action k = .step (.cancel ticket))
  /-- An update returns without a question exactly when it gets the gate and the slot holds a
  snapshot that was stored after its request, and it returns that snapshot. -/
  reuse_iff : ∀ m ticket, h.Requests m ticket s.denom → ∀ n result,
    h.Returns n ticket result ∧ (h.usage n).calls ticket = [] ↔
      h.Grants n ticket ∧ ∃ stored, h.slot n = some stored ∧ h.instant m < stored.storedAt ∧
        result = .ok stored.snapshot
  /-- An update that waits while a build stores a snapshot after its request does not build. -/
  shared : ∀ n other snapshot, h.Succeeds n other snapshot → ∀ m ticket,
    h.Requests m ticket s.denom → h.instant m < h.instant n → h.Waits n ticket →
      ∀ k, ¬h.Builds k ticket
  /-- A build that fails leaves the gate free, and the first update that gets it then builds. -/
  retried : ∀ m other why, h.Fails m other why → (h.cache (m + 1)).gate = none ∧
    ∀ n ticket, m < n → (∀ k, m < k → k < n → h.action k ≠ .step .grant) →
      h.Grants n ticket → h.Builds n ticket

/-- With single flight the updates of every history take turns. -/
theorem isSingleFlight (hflight : s.singleFlight = true)
    (h : History s (Snapshot.compute policy policyEtag s.denom)) : h.IsSingleFlight where
  one_build := length_building_le_one hflight h
  no_overlap _ _ _ _ := exists_ends_of_builds hflight
  reuse_iff _ _ hrequest :=
    returns_and_calls_eq_nil_iff (fun _ _ => Snapshot.ne_nil_of_run_compute) hrequest
  shared _ _ _ hsucceeds _ _ := not_builds_of_succeeds hflight hsucceeds
  retried m _ _ hfails :=
    ⟨((takesTurns hflight h m).unserved_of_fail (happens hfails)).1, fun _ _ =>
      builds_of_fails hflight hfails⟩

/-- Two updates wait while one builds. Its build fails, so the first of the two builds, and the other
shares that build. -/
def sharing : History (.ofOptions "ulume" { singleFlight := true })
    (Snapshot.compute .small none "ulume") where
  instant n := 10 * (n + 1)
  action
    | 0 => .step (.request 0 "ulume")
    | 1 => .step .grant
    | 2 => .step (.request 1 "ulume")
    | 3 => .step (.request 2 "ulume")
    | 4 => .call 0 [⟨.height, .error (.missing "block")⟩]
    | 5 => .step (.finish 0 (.error (.height (.missing "block"))))
    | 6 => .step .grant
    | 7 => .call 1 smallCalls
    | 8 => .step (.finish 1 (.ok .small))
    | 9 => .step .grant
    | _ => .look
  clock := ticks
  allows
    | 0 | 2 | 3 => ⟨by decide, by simp, rfl⟩
    | 1 | 6 | 9 => ⟨by decide, by simp, rfl⟩
    | 4 => .call_all (by decide) rfl (Snapshot.run_compute_of_height _ _ _ _)
    | 5 => ⟨by decide, by rintro _ _ ⟨⟩; exact Snapshot.run_compute_of_height _ _ _ _, rfl⟩
    | 7 => .call_all (by decide) rfl Snapshot.run_compute_small
    | 8 => ⟨by decide, by rintro _ _ ⟨⟩; exact Snapshot.run_compute_small, rfl⟩
    | _ + 10 => trivial

theorem isSingleFlight_sharing :
    (sharing.Builds 6 1 ∧ sharing.Returns 9 2 (.ok .small) ∧ (sharing.usage 10).calls 2 = []) ∧
      sharing.IsSingleFlight :=
  ⟨⟨rfl, rfl, rfl⟩, isSingleFlight rfl sharing⟩

end Circulation.Cache.History
