import Circulation.Proofs.Cache.SingleFlight

/-!
# The height of what a cache serves

A build asks for the height of the chain once, at its start. With single flight the next build starts
after that one has ended, so it asks later; if the heights that are answered do not go back, neither
does the height in the slot. Without single flight a build that started early may end late and store
an older height over a newer one.

## Main definitions

* `Circulation.Cache.History.IsTold` — a build is told the height of the chain in a moment.
* `Circulation.Cache.History.HeightsRise` — the heights told do not go back.

## Main results

* `Circulation.Cache.History.exists_isTold_of_succeeds` — a build that succeeds was told the height
  of its snapshot.
* `Circulation.Cache.History.lt_of_mem_building` — with single flight an update that builds after the
  end of another build has not built before it.
* `Circulation.Cache.History.height_monotone` — the height in the slot does not fall, and no update
  returns less than what the slot held at its request.
-/

namespace Circulation.Cache.History

variable {s : Settings}

/-! ### Successive builds -/

section

variable {Q : Type} {A : Q → Type} {build : Program Q A Event (Except ComputeError Snapshot)}
  {h : History s build} {m n : Nat} {ticket : Ticket}

/-- With single flight an update whose build ends after that of another has not built before. -/
theorem lt_of_mem_building (hflight : s.singleFlight = true) {other : Ticket}
    {result result' : Except ComputeError Snapshot} (hother : h.Ends m other result)
    (hends : h.Ends n ticket result') (hlt : m < n) {k : Nat}
    (hbuilding : ticket ∈ (h.cache k).building) : m < k := by
  by_contra hle
  have hat : ticket ∈ (h.cache m).building :=
    mem_building_of_mem hbuilding (mem_building_of_ends hends) (Nat.not_lt.mp hle) hlt.le
  have hgate : ∀ t ∈ (h.cache m).building, (h.cache m).gate = some t := fun _ =>
    (takesTurns hflight h m).gate_eq_of_mem_building
  have heq : other = ticket :=
    Option.some.inj ((hgate other (mem_building_of_ends hother)).symm.trans (hgate ticket hat))
  subst heq
  exact hlt.ne (finish_unique hother hends)

/-- A snapshot that an update returns is in the slot when it returns or right after. -/
theorem slot_of_returns {snapshot : Snapshot} (hreturns : h.Returns n ticket (.ok snapshot)) :
    ∃ k, n ≤ k ∧ ∃ stored, h.slot k = some stored ∧ stored.snapshot = snapshot := by
  rcases returns_ok_cases hreturns with ⟨-, hslot⟩ | hsucceeds
  · exact ⟨n, le_rfl, hslot⟩
  · exact ⟨n + 1, Nat.le_succ n, _, slot_succ_of_succeeds hsucceeds, rfl⟩

end

/-! ### Heights -/

variable {policy : Policy} {policyEtag : Option String}
  {h : History s (Snapshot.compute policy policyEtag s.denom)} {m n : Nat} {ticket : Ticket}

/-- A build is told a block of the chain in a moment. -/
def IsTold (h : History s (Snapshot.compute policy policyEtag s.denom)) (n : Nat) (block : Block) :
    Prop :=
  ∃ ticket answers, h.action n = .call ticket answers ∧ ⟨.height, .ok block⟩ ∈ answers

/-- Successive builds are told heights that do not go back. -/
def HeightsRise (h : History s (Snapshot.compute policy policyEtag s.denom)) : Prop :=
  ∀ m n, m < n → ∀ block block', h.IsTold m block → h.IsTold n block' →
    block.height ≤ block'.height

/-- A build that succeeds was told the height of its snapshot while it was building. -/
theorem exists_isTold_of_succeeds {snapshot : Snapshot}
    (hsucceeds : h.Succeeds n ticket snapshot) :
    ∃ i < n, ticket ∈ (h.cache i).building ∧
      ∃ block, h.IsTold i block ∧ snapshot.height = block.height := by
  obtain ⟨block, total, log, f, hlog, -, rfl⟩ := Snapshot.run_compute (run_of_ends hsucceeds)
  have hasked : ⟨.height, .ok block⟩ ∈ (h.usage n).calls ticket := by
    rw [hlog]
    exact List.mem_cons_self
  obtain ⟨i, hi, hbuilding, answers, haction, hmem⟩ := exists_call_of_mem_calls hasked
  exact ⟨i, hi, hbuilding, block, ⟨ticket, answers, haction, hmem⟩, rfl⟩

/-- With single flight a success does not lower the height in the slot. -/
theorem height_le_of_succeeds (hflight : s.singleFlight = true) (hrise : h.HeightsRise)
    {snapshot : Snapshot} {stored : Stored} (hsucceeds : h.Succeeds n ticket snapshot)
    (hslot : h.slot n = some stored) : stored.snapshot.height ≤ snapshot.height := by
  obtain ⟨m, hmn, ⟨other, hother⟩, -⟩ := slot_eq_some_iff.mp hslot
  obtain ⟨i, him, -, block, htold, hheight⟩ := exists_isTold_of_succeeds hother
  obtain ⟨j, -, hbuilding, block', htold', hheight'⟩ := exists_isTold_of_succeeds hsucceeds
  have hmj : m < j := lt_of_mem_building hflight hother hsucceeds hmn hbuilding
  rw [hheight, hheight']
  exact hrise i j (him.trans hmj) block block' htold htold'

/-- With single flight, if the heights that builds are told do not go back, the height in the slot
does not fall, and an update returns no less than what the slot held at its request. -/
theorem height_monotone (hflight : s.singleFlight = true)
    (h : History s (Snapshot.compute policy policyEtag s.denom)) (hrise : h.HeightsRise) :
    (∀ m n stored, m ≤ n → h.slot m = some stored →
      ∃ stored', h.slot n = some stored' ∧ stored.snapshot.height ≤ stored'.snapshot.height) ∧
    ∀ m n ticket denom stored snapshot, h.Requests m ticket denom → h.slot m = some stored →
      h.Returns n ticket (.ok snapshot) → stored.snapshot.height ≤ snapshot.height := by
  have hslots : ∀ m n stored, m ≤ n → h.slot m = some stored →
      ∃ stored', h.slot n = some stored' ∧ stored.snapshot.height ≤ stored'.snapshot.height :=
    fun m n stored hle hslot => exists_le_slot (·.snapshot.height)
      (fun _ _ _ _ hsucceeds hslot => height_le_of_succeeds hflight hrise hsucceeds hslot) hslot hle
  refine ⟨hslots, fun m n ticket denom stored snapshot hrequest hslot hreturns => ?_⟩
  obtain ⟨k, hnk, stored', hslot', rfl⟩ := slot_of_returns hreturns
  obtain ⟨stored'', hslot'', hle⟩ :=
    hslots m k stored ((le_of_returns hrequest hreturns).trans hnk) hslot
  rw [hslot', Option.some.injEq] at hslot''
  rw [hslot'']
  exact hle

/-! ### Two builds in a row -/

/-- The small chain, one block later. -/
def laterSource : Source
  | .height => .ok ⟨8, ⟨0, 0⟩⟩
  | q => Source.small q

/-- The snapshot of the small chain, one block later. -/
def laterSnapshot : Snapshot :=
  .ofOutcome .small none "ulume" ⟨8, ⟨0, 0⟩⟩ 1000
    ((Findings.gather .small "ulume" ⟨0, 0⟩).eval laterSource).outcome

/-- The questions of a build of the small chain, answered one block later. -/
def laterCalls : List (Sigma Query.Outcome) :=
  ((Snapshot.compute .small none "ulume").questions laterSource).map fun q => ⟨q, laterSource q⟩

theorem run_laterCalls :
    (Snapshot.compute .small none "ulume").Run laterCalls (.ok laterSnapshot) := by
  have heval : (Snapshot.compute .small none "ulume").eval laterSource = .ok laterSnapshot :=
    Snapshot.eval_compute .small none "ulume" laterSource
  exact heval ▸ Program.run_eval laterSource _

/-- Two updates build one after the other, the second one block later. -/
def rising : History (.ofOptions "ulume" { singleFlight := true })
    (Snapshot.compute .small none "ulume") where
  instant n := 10 * (n + 1)
  action
    | 0 => .step (.request 0 "ulume")
    | 1 => .step .grant
    | 2 => .call 0 smallCalls
    | 3 => .step (.finish 0 (.ok .small))
    | 4 => .step (.request 1 "ulume")
    | 5 => .step .grant
    | 6 => .call 1 laterCalls
    | 7 => .step (.finish 1 (.ok laterSnapshot))
    | _ => .look
  clock := ticks
  allows
    | 0 | 4 => ⟨by decide, by simp, rfl⟩
    | 1 | 5 => ⟨by decide, by simp, rfl⟩
    | 2 => .call_all (by decide) rfl Snapshot.run_compute_small
    | 3 => ⟨by decide, by rintro _ _ ⟨⟩; exact Snapshot.run_compute_small, rfl⟩
    | 6 => .call_all (by decide) rfl run_laterCalls
    | 7 => ⟨by decide, by rintro _ _ ⟨⟩; exact run_laterCalls, rfl⟩
    | _ + 8 => trivial

theorem eq_of_mem_map_source {S : Source} {qs : List Query} {block : Block}
    (h : ⟨.height, .ok block⟩ ∈ qs.map fun q => (⟨q, S q⟩ : Sigma Query.Outcome)) :
    S .height = .ok block := by
  obtain ⟨q, -, heq⟩ := List.mem_map.mp h
  obtain ⟨rfl, heq⟩ := Sigma.mk.inj heq
  exact eq_of_heq heq

theorem heightsRise_rising : rising.HeightsRise := by
  have htold : ∀ n block, rising.IsTold n block →
      n = 2 ∧ block.height = 7 ∨ n = 6 ∧ block.height = 8 := by
    rintro n block ⟨ticket, answers, haction, hmem⟩
    match n with
    | 2 =>
      cases haction
      obtain rfl := Except.ok.inj (eq_of_mem_map_source (S := Source.small) hmem)
      exact .inl ⟨rfl, rfl⟩
    | 6 =>
      cases haction
      obtain rfl := Except.ok.inj (eq_of_mem_map_source (S := laterSource) hmem)
      exact .inr ⟨rfl, rfl⟩
    | 0 | 1 | 3 | 4 | 5 | 7 | _ + 8 => cases haction
  intro m n hlt block block' hm hn
  rcases htold m block hm with ⟨rfl, hheight⟩ | ⟨rfl, hheight⟩ <;>
    rcases htold n block' hn with ⟨rfl, hheight'⟩ | ⟨rfl, hheight'⟩ <;> omega

theorem height_monotone_rising :
    rising.HeightsRise ∧ rising.slot 4 = some ⟨.small, 40⟩ ∧
      (∃ stored, rising.slot 8 = some stored ∧ (7 : Int) ≤ stored.snapshot.height) ∧
      Snapshot.small.height ≤ laterSnapshot.height := by
  obtain ⟨hslots, hreturns⟩ := height_monotone rfl rising heightsRise_rising
  exact ⟨heightsRise_rising, rfl, hslots 4 8 _ (by decide) rfl,
    hreturns 4 7 1 "ulume" _ laterSnapshot rfl rfl rfl⟩

end Circulation.Cache.History
