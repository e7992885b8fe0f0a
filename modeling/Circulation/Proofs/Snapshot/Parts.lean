import Circulation.Proofs.Snapshot.Findings

/-!
# The parts of a snapshot

Every holding contributes one part to a snapshot: a cohort or an item where it is counted, and a
skip where it is not. A snapshot consists of its parts in a fixed order: the transfer escrows, the
community pool and the module accounts, then the accounts of the foundation, the bootstrap accounts
and the claims tier by tier.

## Main definitions

* `Circulation.Parts` — the parts of a snapshot; `Circulation.Parts.Covers` says that there is one
  for every holding.
* `Circulation.Snapshot.ConsistsOf` — the cohorts, items and skips of a snapshot are its parts.
* `Circulation.Findings.parts` — the parts that findings contribute.

## Main results

* `Circulation.Findings.Covers.parts` — findings on every holding contribute a part for every
  holding.
* `Circulation.Snapshot.consistsOf_parts` — the snapshot of findings consists of their parts.
-/

namespace Circulation

/-- What the holdings contribute to a snapshot: a part for each, in their order. -/
structure Parts where
  /-- The parts of the transfer escrows, the community pool and the module accounts. -/
  singles : List (Cohort ⊕ Skip)
  foundation : List (CohortItem ⊕ Skip)
  bootstraps : List (CohortItem ⊕ Skip)
  /-- The parts of the claims, tier by tier. -/
  claims : List (List (CohortItem ⊕ Skip))

namespace Parts

/-- The parts that are counted. -/
def counted {α : Type} (parts : List (α ⊕ Skip)) : List α :=
  parts.filterMap Sum.getLeft?

/-- The parts that are skipped. -/
def skipped {α : Type} (parts : List (α ⊕ Skip)) : List Skip :=
  parts.filterMap Sum.getRight?

/-- The part of a holding that is counted as one: a cohort or a skip of its name. -/
def IsOfCohort (label : CohortLabel) : Cohort ⊕ Skip → Prop
  | .inl cohort => cohort.name = label.name
  | .inr skip => skip.cohort = label.name

/-- The part of an account in a cohort: an item or a skip with its address. -/
def IsOfAddress (label : CohortLabel) (address : String) : CohortItem ⊕ Skip → Prop
  | .inl item => item.address = address
  | .inr skip => skip.cohort = label.name ∧ skip.address = some address

/-- The parts of a tier, given the answer to the question for its claims: one for every claim, or a
single skip without an address if the claims are not known. -/
def AreOfTier (answer : Except QueryError (List ClaimRecord)) (parts : List (CohortItem ⊕ Skip)) :
    Prop :=
  match answer with
  | .error _ =>
    ∃ skip, parts = [.inr skip] ∧ skip.cohort = CohortLabel.claims.name ∧ skip.address = none
  | .ok records => List.Forall₂ (fun record => IsOfAddress .claims record.address) records parts

/-- Parts that have one for every holding under a policy, in the order of the policy and of the
lists of claims. -/
structure Covers (policy : Policy) (claims : ClaimTier → Except QueryError (List ClaimRecord))
    (parts : Parts) : Prop where
  singles : List.Forall₂ IsOfCohort (Findings.singleLabels policy) parts.singles
  foundation : List.Forall₂
    (fun (account : FoundationEntry) => IsOfAddress .foundation account.address)
    policy.foundation parts.foundation
  bootstraps : List.Forall₂
    (fun (account : BootstrapEntry) => IsOfAddress .bootstraps account.address)
    policy.bootstraps parts.bootstraps
  claims : List.Forall₂ (fun tier => AreOfTier (claims tier)) ClaimTier.all parts.claims

/-- The cohorts of a label: a single one with the given items if the label is listed, and none if it
is not. -/
def AreCohortOf (label : CohortLabel) (listed : Prop) (items : List CohortItem)
    (cohorts : List Cohort) : Prop :=
  (¬listed ∧ cohorts = []) ∨
    (listed ∧ ∃ cohort, cohorts = [cohort] ∧ cohort.name = label.name ∧
      cohort.items.getD [] = items)

end Parts

section

open Parts

/-- The cohorts and the skips of a snapshot under a policy are the given parts, in their order. The
accounts of the foundation and the bootstrap accounts have a cohort if the policy lists any, and the
claims have one if it has an item. -/
structure Snapshot.ConsistsOf (s : Snapshot) (policy : Policy) (parts : Parts) : Prop where
  cohorts : ∃ foundation bootstraps claims : List Cohort,
    s.nonCirculating.cohorts = counted parts.singles ++ foundation ++ bootstraps ++ claims ∧
      AreCohortOf .foundation (policy.foundation ≠ []) (counted parts.foundation) foundation ∧
      AreCohortOf .bootstraps (policy.bootstraps ≠ []) (counted parts.bootstraps) bootstraps ∧
      AreCohortOf .claims (counted parts.claims.flatten ≠ []) (counted parts.claims.flatten) claims
  skipped : s.skipped = Parts.skipped parts.singles ++ Parts.skipped parts.foundation ++
    Parts.skipped parts.bootstraps ++ Parts.skipped parts.claims.flatten

end

/-! ### The parts of findings -/

/-- The part of a holding that is counted as one. -/
def Single.part : Single → Cohort ⊕ Skip
  | .ok (cohort, _) => .inl cohort
  | .error skip => .inr skip

/-- The part of an entry of a cohort. -/
def Entry.part (label : CohortLabel) (e : Entry) : CohortItem ⊕ Skip :=
  match e.result with
  | .ok portion => .inl ⟨e.address.getD "", toString portion.amount, portion.stop⟩
  | .error why => .inr ⟨label.name, e.address, why.message⟩

/-- The parts that findings contribute. -/
def Findings.parts (f : Findings) : Parts where
  singles := f.singles.map Single.part
  foundation := f.foundation.map (Entry.part .foundation)
  bootstraps := f.bootstraps.map (Entry.part .bootstraps)
  claims := f.claims.map fun entries => entries.map (Entry.part .claims)

namespace Parts

theorem isOfCohort_part {label : CohortLabel} {r : Single} (h : r.IsOf label) :
    IsOfCohort label r.part := by
  cases r with
  | ok counted => exact h.1
  | error skip => exact h

theorem isOfAddress_part {label : CohortLabel} {address : String} {e : Entry}
    (h : e.address = some address) : IsOfAddress label address (e.part label) := by
  unfold Entry.part
  cases e.result with
  | ok portion =>
    change e.address.getD "" = address
    rw [h]
    rfl
  | error why => exact ⟨rfl, h⟩

theorem areOfTier_part {answer : Except QueryError (List ClaimRecord)} {entries : List Entry}
    (h : Entry.AreOfTier answer entries) : AreOfTier answer (entries.map (Entry.part .claims)) := by
  cases answer with
  | error why =>
    obtain ⟨cause, rfl⟩ := h
    exact ⟨_, rfl, rfl, rfl⟩
  | ok records => exact List.forall₂_map_right_iff.mpr (h.imp fun _ _ => isOfAddress_part)

theorem counted_map_part (label : CohortLabel) (entries : List Entry) :
    counted (entries.map (Entry.part label)) = (entries.filterMap Outcome.item?).map (·.1) := by
  rw [counted, List.filterMap_map, List.map_filterMap]
  congr 1
  funext e
  simp only [Function.comp_apply, Entry.part, Outcome.item?]
  cases e.result <;> rfl

theorem skipped_map_part (label : CohortLabel) (entries : List Entry) :
    skipped (entries.map (Entry.part label)) =
      entries.filterMap (Outcome.skip? label.name) := by
  rw [skipped, List.filterMap_map]
  congr 1
  funext e
  simp only [Function.comp_apply, Entry.part, Outcome.skip?]
  cases e.result <;> rfl

theorem counted_map_single_part (singles : List Single) :
    counted (singles.map Single.part) =
      (singles.flatMap fun r => (Outcome.ofSingle r).counted).map (·.1) := by
  induction singles with
  | nil => rfl
  | cons r singles ih =>
    cases r with
    | ok c => exact congrArg (c.1 :: ·) ih
    | error skip => exact ih

theorem skipped_map_single_part (singles : List Single) :
    skipped (singles.map Single.part) =
      singles.flatMap fun r => (Outcome.ofSingle r).skipped := by
  induction singles with
  | nil => rfl
  | cons r singles ih =>
    cases r with
    | ok c => exact ih
    | error skip => exact congrArg (skip :: ·) ih

end Parts

section

open Parts

/-- Findings on every holding contribute a part for every holding. -/
theorem Findings.Covers.parts {policy : Policy}
    {claims : ClaimTier → Except QueryError (List ClaimRecord)} {f : Findings}
    (h : f.Covers policy claims) : f.parts.Covers policy claims where
  singles := List.forall₂_map_right_iff.mpr (h.singles.imp fun _ _ => isOfCohort_part)
  foundation := List.forall₂_map_right_iff.mpr (h.foundation.imp fun _ _ => isOfAddress_part)
  bootstraps := List.forall₂_map_right_iff.mpr (h.bootstraps.imp fun _ _ => isOfAddress_part)
  claims := List.forall₂_map_right_iff.mpr (h.claims.imp fun _ _ => areOfTier_part)

theorem Outcome.items_cohortOf (label : CohortLabel) (items : List (CohortItem × Nat)) :
    (cohortOf label items).1.items.getD [] = items.map (·.1) := by
  by_cases h : items = []
  · rw [h]
    rfl
  · simp only [cohortOf, if_neg h, Option.getD_some]

theorem Parts.areCohortOf_ofEntries (label : CohortLabel) {listed : Bool} {present : Prop}
    (hlisted : listed = true ↔ present) (entries : List Entry) :
    AreCohortOf label present (counted (entries.map (Entry.part label)))
      ((Outcome.ofEntries label listed entries).counted.map (·.1)) := by
  by_cases h : present
  · rw [Outcome.ofEntries, if_pos (hlisted.mpr h), counted_map_part]
    exact .inr ⟨h, _, rfl, rfl, Outcome.items_cohortOf label _⟩
  · rw [Outcome.ofEntries, if_neg fun hl => h (hlisted.mp hl)]
    exact .inl ⟨h, rfl⟩

private theorem not_isEmpty_iff_of_forall₂ {α β : Type} {R : α → β → Prop} {as : List α}
    {bs : List β} (h : List.Forall₂ R as bs) : (!bs.isEmpty) = true ↔ as ≠ [] := by
  cases h <;> simp

theorem Findings.flatten_parts_claims (f : Findings) :
    f.parts.claims.flatten = f.claims.flatten.map (Entry.part .claims) := by
  rw [List.map_flatten]
  rfl

/-- The snapshot of findings on every holding consists of their parts. -/
theorem Snapshot.consistsOf_parts {policy : Policy}
    {claims : ClaimTier → Except QueryError (List ClaimRecord)} {f : Findings}
    (h : f.Covers policy claims) (policyEtag : Option String) (denom : String) (block : Block)
    (total : Nat) :
    (ofOutcome policy policyEtag denom block total f.outcome).ConsistsOf policy f.parts where
  cohorts := by
    have hfoundation := not_isEmpty_iff_of_forall₂ h.foundation
    have hbootstraps := not_isEmpty_iff_of_forall₂ h.bootstraps
    have hclaims : (!(f.claims.flatten.filterMap Outcome.item?).isEmpty) = true ↔
        counted f.parts.claims.flatten ≠ [] := by
      rw [Findings.flatten_parts_claims, counted_map_part]
      simp
    refine ⟨(Outcome.ofEntries .foundation (!f.foundation.isEmpty) f.foundation).counted.map (·.1),
      (Outcome.ofEntries .bootstraps (!f.bootstraps.isEmpty) f.bootstraps).counted.map (·.1),
      (Outcome.ofEntries .claims (!(f.claims.flatten.filterMap Outcome.item?).isEmpty)
        f.claims.flatten).counted.map (·.1), ?_, areCohortOf_ofEntries _ hfoundation _,
      areCohortOf_ofEntries _ hbootstraps _, ?_⟩
    · change f.outcome.counted.map (·.1) = counted (f.singles.map Single.part) ++ _ ++ _ ++ _
      rw [Findings.counted_outcome, counted_map_single_part]
      simp only [List.map_append]
    · rw [Findings.flatten_parts_claims] at hclaims ⊢
      exact areCohortOf_ofEntries _ hclaims _
  skipped := by
    change f.outcome.skipped = Parts.skipped (f.singles.map Single.part) ++
      Parts.skipped (f.foundation.map _) ++ Parts.skipped (f.bootstraps.map _) ++ _
    rw [Findings.skipped_outcome, Findings.flatten_parts_claims, skipped_map_single_part,
      skipped_map_part, skipped_map_part, skipped_map_part]

end

end Circulation
