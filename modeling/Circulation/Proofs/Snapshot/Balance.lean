import Circulation.Proofs.Amount
import Circulation.Proofs.Numeral
import Circulation.Proofs.Snapshot.Findings

/-!
# The figures of a snapshot add up

The figures of a snapshot are written next to the amounts that are summed up: item by item in a
cohort of several accounts, cohort by cohort in the whole. Written and summed amounts agree, so what
a reader adds up from the written figures is what the snapshot says, whatever was skipped.

## Main definitions

* `Circulation.Cohort.IsBalanced`, `Circulation.Snapshot.IsBalanced` — the figures of a cohort and
  of a snapshot are written numerals and add up.

## Main results

* `Circulation.Findings.isCounted_outcome` — every cohort is written as it is counted.
* `Circulation.Snapshot.isBalanced_of_run` — the figures of every snapshot add up.
-/

namespace Circulation

open Numeral Program

/-- The labels of the cohorts of several accounts. -/
def CohortLabel.ofAccounts : List CohortLabel :=
  [foundation, bootstraps, claims]

/-- A cohort whose figures are written numerals and add up: its amount is the sum of the amounts of
its items, and nothing if it is a cohort of several accounts without items. -/
structure Cohort.IsBalanced (c : Cohort) : Prop where
  amount : IsCanonical c.amount
  items : ∀ items, c.items = some items → ∀ item ∈ items, IsCanonical item.amount
  sum_items : ∀ items, c.items = some items →
    value c.amount = Amount.sum (items.map fun item => value item.amount)
  empty : c.items = none →
    ∀ label ∈ CohortLabel.ofAccounts, c.name = label.name → value c.amount = 0

/-- A snapshot whose figures are written numerals and add up: the cohorts to the sum that does not
circulate, that sum and what circulates to the total, unless the sum exceeds the total and nothing
circulates. The tag is that of the written figures. -/
structure Snapshot.IsBalanced (s : Snapshot) : Prop where
  total : IsCanonical s.total
  circulating : IsCanonical s.circulating
  sum : IsCanonical s.nonCirculating.sum
  cohorts : ∀ c ∈ s.nonCirculating.cohorts, c.IsBalanced
  sum_cohorts : value s.nonCirculating.sum =
    Amount.sum (s.nonCirculating.cohorts.map fun c => value c.amount)
  circulating_eq : (value s.circulating : Int) =
    Max.max 0 ((value s.total : Int) - value s.nonCirculating.sum)
  total_eq_iff : value s.total = value s.circulating + value s.nonCirculating.sum ↔
    value s.nonCirculating.sum ≤ value s.total
  circulating_eq_zero : ¬value s.nonCirculating.sum ≤ value s.total → s.circulating = "0"
  etag : s.etag =
    ETag.ofFigures s.denom s.total s.circulating s.nonCirculating.sum s.height

/-! ### Cohorts -/

/-- A balanced cohort whose amount is written as it is counted. -/
def Outcome.IsCounted (c : Cohort × Nat) : Prop :=
  c.1.amount = toString c.2 ∧ c.1.IsBalanced

namespace Outcome

theorem isCounted_single {label : CohortLabel} {c : Cohort × Nat} (h : Single.IsOf label (.ok c))
    (hlabel : ∀ l ∈ CohortLabel.ofAccounts, label.name ≠ l.name) : IsCounted c := by
  obtain ⟨hname, hitems, hamount⟩ := h
  refine ⟨hamount, ⟨?_, ?_, ?_, ?_⟩⟩
  · rw [hamount]
    exact isCanonical_toString c.2
  · intro items h
    rw [hitems] at h
    exact absurd h (by simp)
  · intro items h
    rw [hitems] at h
    exact absurd h (by simp)
  · intro _ l hl heq
    exact absurd (hname.symm.trans heq) (hlabel l hl)

theorem amount_item?_eq {entries : List Entry} {x : CohortItem × Nat}
    (hx : x ∈ entries.filterMap item?) : x.1.amount = toString x.2 := by
  obtain ⟨e, -, he⟩ := List.mem_filterMap.mp hx
  unfold item? at he
  split at he
  · rw [← Option.some.inj he]
  · exact absurd he (by simp)

/-- The cohort of the items of entries is written as it is counted. -/
theorem isCounted_cohortOf (label : CohortLabel) (entries : List Entry) :
    IsCounted (cohortOf label (entries.filterMap item?)) := by
  have hwritten : ∀ x ∈ entries.filterMap item?, x.1.amount = toString x.2 :=
    fun _ => amount_item?_eq
  generalize entries.filterMap item? = xs at hwritten
  have hitems : ∀ items, (cohortOf label xs).1.items = some items → items = xs.map (·.1) := by
    intro items h
    simp only [cohortOf] at h
    split at h
    · exact absurd h (by simp)
    · exact (Option.some.inj h).symm
  refine ⟨rfl, ⟨isCanonical_toString _, ?_, ?_, ?_⟩⟩
  · intro items h item hitem
    rw [hitems items h] at hitem
    obtain ⟨x, hx, rfl⟩ := List.mem_map.mp hitem
    rw [hwritten x hx]
    exact isCanonical_toString x.2
  · intro items h
    have hvalues : (xs.map (·.1)).map (fun item => value item.amount) = xs.map (·.2) := by
      rw [List.map_map]
      refine List.map_congr_left fun x hx => ?_
      rw [Function.comp_apply, hwritten x hx, value_toString]
    rw [hitems items h, hvalues]
    exact value_toString _
  · intro h _ _ _
    by_cases hxs : xs = []
    · rw [hxs]
      exact value_toString 0
    · simp only [cohortOf, if_neg hxs] at h
      exact absurd h (by simp)

end Outcome

/-- The name of a cohort that is counted as one is not that of a cohort of several accounts. -/
theorem Findings.singleLabels_ne {policy : Policy} {label : CohortLabel}
    (h : label ∈ singleLabels policy) :
    ∀ l ∈ CohortLabel.ofAccounts, label.name ≠ l.name := by
  simp only [singleLabels, List.mem_cons, List.mem_map] at h
  rcases h with rfl | rfl | ⟨name, -, rfl⟩
  · decide
  · decide
  · -- the names of module accounts begin with a letter that no other name begins with
    intro l hl heq
    have hhead : l.name.toList.head? = some 'm' := by
      rw [← heq, CohortLabel.moduleAccount, String.toList_append]
      rfl
    have hother : ∀ l ∈ CohortLabel.ofAccounts, l.name.toList.head? ≠ some 'm' := by decide
    exact hother l hl hhead

/-- **Every cohort is written as it is counted.** -/
theorem Findings.isCounted_outcome {policy : Policy}
    {claims : ClaimTier → Except QueryError (List ClaimRecord)} {f : Findings}
    (h : f.Covers policy claims) : ∀ c ∈ f.outcome.counted, Outcome.IsCounted c := by
  intro c hc
  rcases h.mem_counted hc with ⟨label, hlabel, hof⟩ | ⟨label, entries, -, rfl⟩
  · exact Outcome.isCounted_single hof (singleLabels_ne hlabel)
  · exact Outcome.isCounted_cohortOf label entries

/-! ### The snapshot -/

namespace Snapshot

/-- The snapshot of cohorts that are written as they are counted is balanced. -/
theorem isBalanced_ofOutcome {o : Outcome} (h : ∀ c ∈ o.counted, Outcome.IsCounted c)
    (policy : Policy) (policyEtag : Option String) (denom : String) (block : Block) (total : Nat) :
    (ofOutcome policy policyEtag denom block total o).IsBalanced := by
  have htotal : value (toString total) = total := value_toString total
  have hsum : value (toString o.sum) = o.sum := value_toString o.sum
  have hcirculating : value (toString (circulatingOf total o.sum)) = circulatingOf total o.sum :=
    value_toString _
  constructor
  · exact isCanonical_toString total
  · exact isCanonical_toString _
  · exact isCanonical_toString o.sum
  · intro c hc
    obtain ⟨x, hx, rfl⟩ := List.mem_map.mp hc
    exact (h x hx).2
  · change value (toString o.sum) = Amount.sum ((o.counted.map (·.1)).map _)
    rw [hsum, List.map_map]
    refine congrArg Amount.sum (List.map_congr_left fun x hx => ?_)
    rw [Function.comp_apply, (h x hx).1, value_toString]
  · change (value (toString (circulatingOf total o.sum)) : Int) =
      Max.max 0 ((value (toString total) : Int) - value (toString o.sum))
    rw [htotal, hsum, hcirculating, circulatingOf]
    split <;> omega
  · change value (toString total) = value (toString (circulatingOf total o.sum)) +
      value (toString o.sum) ↔ value (toString o.sum) ≤ value (toString total)
    rw [htotal, hsum, hcirculating, circulatingOf]
    split <;> omega
  · change ¬value (toString o.sum) ≤ value (toString total) →
      toString (circulatingOf total o.sum) = "0"
    rw [htotal, hsum, circulatingOf]
    intro hexceeds
    rw [if_neg hexceeds]
    rfl
  · rfl

/-- The snapshot of the findings of a run is balanced. -/
theorem isBalanced_of_gather {policy : Policy} {denom : String} {block : Block}
    {log : List (Sigma Query.Outcome)} {f : Findings}
    (h : (Findings.gather policy denom block.time).Run log f) (policyEtag : Option String)
    (total : Nat) : (ofOutcome policy policyEtag denom block total f.outcome).IsBalanced := by
  obtain ⟨answers, -, hcovers⟩ := Findings.run_gather h
  exact isBalanced_ofOutcome (Findings.isCounted_outcome hcovers) ..

/-- **The figures of every snapshot add up.** Whatever the answers to the single calls are, the
figures of a snapshot that is computed are written numerals that add up, and its tag is theirs. -/
theorem isBalanced_of_run {policy : Policy} {policyEtag : Option String} {denom : String}
    {log : List (Sigma Query.Outcome)} {s : Snapshot}
    (h : (compute policy policyEtag denom).Run log (.ok s)) : s.IsBalanced ∧ s.denom = denom := by
  obtain ⟨block, total, log', f, -, hf, rfl⟩ := run_compute h
  exact ⟨isBalanced_of_gather hf policyEtag total, rfl⟩

theorem isBalanced_small :
    (∃ log, (compute .small none "ulume").Run log (.ok Snapshot.small)) ∧
      Snapshot.small.IsBalanced ∧ Snapshot.small.denom = "ulume" :=
  ⟨⟨_, run_compute_small⟩, isBalanced_of_run run_compute_small⟩

end Snapshot

end Circulation
