import Circulation.Proofs.Amount
import Circulation.Proofs.Snapshot.Findings

/-!
# The sum over all entries

What does not circulate is the sum of what the entries count for. An entry that is skipped counts
for nothing, and the grouping of the entries into cohorts does not change the sum.

## Main definitions

* `Circulation.Single.amount`, `Circulation.Entry.amount` — what a finding counts for.

## Main results

* `Circulation.Findings.sum_outcome` — the sum of the cohorts is the sum over the entries.
-/

namespace Circulation

/-- What a cohort that is counted as one counts for. -/
def Single.amount : Single → Nat
  | .ok (_, amount) => amount
  | .error _ => 0

/-- What an entry counts for. -/
def Entry.amount (e : Entry) : Nat :=
  match e.result with
  | .ok portion => portion.amount
  | .error _ => 0

/-- What a list of entries counts for. -/
def Entry.sum (entries : List Entry) : Nat :=
  Amount.sum (entries.map Entry.amount)

theorem Entry.sum_flatten (groups : List (List Entry)) :
    sum groups.flatten = Amount.sum (groups.map sum) := by
  induction groups with
  | nil => rfl
  | cons entries groups ih =>
    have hsplit : sum (entries ++ groups.flatten) = sum entries + sum groups.flatten := by
      rw [sum, List.map_append, Amount.sum_append]
      rfl
    rw [List.flatten_cons, hsplit, ih]
    rfl

namespace Outcome

theorem sum_items (entries : List Entry) :
    Amount.sum ((entries.filterMap item?).map (·.2)) = Entry.sum entries := by
  rw [Amount.sum_filterMap, Entry.sum]
  refine congrArg Amount.sum (List.map_congr_left fun e _ => ?_)
  simp only [item?, Entry.amount]
  cases e.result <;> rfl

theorem items_eq_nil_of_isEmpty {entries : List Entry} (h : (!entries.isEmpty) = false) :
    entries.filterMap item? = [] := by
  obtain rfl : entries = [] := by simpa using h
  rfl

/-- A cohort that is left out for want of items would count for nothing. -/
theorem sum_ofEntries (label : CohortLabel) {listed : Bool} {entries : List Entry}
    (h : listed = false → entries.filterMap item? = []) :
    (ofEntries label listed entries).sum = Entry.sum entries := by
  rw [← sum_items]
  cases listed with
  | true => exact Nat.add_zero _
  | false =>
    rw [h rfl]
    rfl

theorem sum_concat (outcomes : List Outcome) :
    (concat outcomes).sum = Amount.sum (outcomes.map sum) := by
  induction outcomes with
  | nil => rfl
  | cons o outcomes ih =>
    calc (concat (o :: outcomes)).sum
        = Amount.sum ((o.counted ++ (concat outcomes).counted).map (·.2)) := rfl
      _ = o.sum + (concat outcomes).sum := by
          rw [List.map_append, Amount.sum_append]
          rfl
      _ = Amount.sum ((o :: outcomes).map sum) := by
          rw [ih]
          rfl

theorem sum_ofSingle (r : Single) : (ofSingle r).sum = r.amount := by
  cases r with
  | ok counted => exact Nat.add_zero _
  | error skip => rfl

end Outcome

/-- **The sum of the cohorts is the sum over the entries.** -/
theorem Findings.sum_outcome (f : Findings) :
    f.outcome.sum =
      Amount.sum (f.singles.map Single.amount) + Entry.sum f.foundation +
        Entry.sum f.bootstraps + Amount.sum (f.claims.map Entry.sum) := by
  have hsingles : (f.singles.map Outcome.ofSingle).map Outcome.sum =
      f.singles.map Single.amount := by
    rw [List.map_map]
    exact List.map_congr_left fun r _ => Outcome.sum_ofSingle r
  have hclaims : (!(f.claims.flatten.filterMap Outcome.item?).isEmpty) = false →
      f.claims.flatten.filterMap Outcome.item? = [] := by
    intro h
    simpa only [Bool.not_eq_false', List.isEmpty_iff] using h
  rw [outcome, Outcome.sum_concat, List.map_append, Amount.sum_append, hsingles]
  simp only [List.map_cons, List.map_nil, Amount.sum_cons, Amount.sum_nil,
    Outcome.sum_ofEntries _ Outcome.items_eq_nil_of_isEmpty,
    Outcome.sum_ofEntries _ hclaims, Entry.sum_flatten]
  omega

end Circulation
