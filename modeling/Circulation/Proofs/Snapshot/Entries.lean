import Circulation.Proofs.Snapshot.Balance
import Circulation.Proofs.Snapshot.Parts

/-!
# The entries of a run

A run that yields a snapshot goes through the accounts of the policy one after another, and each of
their entries is what a run of its own program yields, whose answers are a part of the answers of the
whole run. The lock of an account comes to what its answer says.

## Main definitions

* `Circulation.Entry.lockedPortion` — the portion that an answer about an account comes to.
* `Circulation.Entry.AreOfRuns` — the entries that runs of their programs yield.
* `Circulation.Snapshot.IsFoundBy` — the snapshot of what the programs of the entries yield.

## Main results

* `Circulation.Entry.run_onChain_iff`, `Circulation.Entry.run_ofFoundation_iff` — the runs over the lock
  of an account.
* `Circulation.Snapshot.exists_isFoundBy_of_run` — every snapshot is that of its entries.
* `Circulation.Snapshot.ConsistsOf.items_foundation` — the items of the accounts of the foundation.
-/

namespace Circulation

open Numeral Program

/-! ### The lock of an account -/

theorem Asking.run_mentionIf_iff {c : Bool} {e : Event} {log : List (Sigma Query.Outcome)} {u : Unit} :
    (mentionIf c e : Asking Unit).Run log u ↔ log = [] := by
  cases c with
  | false => exact run_done_iff.trans (and_iff_left rfl)
  | true => exact run_note_iff.trans (run_done_iff.trans (and_iff_left rfl))

namespace Entry

variable {denom : String} {now : Instant} {log : List (Sigma Query.Outcome)}

/-- The portion that an answer about an account comes to. -/
def lockedPortion (denom : String) (now : Instant) :
    Except QueryError AccountLock → Except LockFailure Portion
  | .error why => .error (.account why)
  | .ok lock => (lock.lockedAt denom now).mapError .lock

/-- A run over the lock of an account has one answer. -/
theorem run_onChain_iff {address : String} {portion : Except LockFailure Portion} :
    (onChain denom now address).Run log portion ↔
      ∃ answer, log = [⟨.account address, answer⟩] ∧ portion = lockedPortion denom now answer := by
  simp only [onChain, Asking.account, bind_eq_bind, ask_bind, done_bind, run_ask_iff]
  refine exists_congr fun answer => ?_
  cases answer with
  | error why =>
    simp only [pure_eq_done, run_done_iff]
    constructor
    · rintro ⟨_, ⟨rfl, rfl⟩, rfl⟩
      exact ⟨rfl, rfl⟩
    · rintro ⟨rfl, rfl⟩
      exact ⟨_, ⟨rfl, rfl⟩, rfl⟩
  | ok lock =>
    simp only [pure_eq_done, run_bind_iff, Asking.run_mentionIf_iff, run_done_iff]
    constructor
    · rintro ⟨_, ⟨_, _, _, rfl, ⟨rfl, rfl⟩, rfl⟩, rfl⟩
      exact ⟨rfl, rfl⟩
    · rintro ⟨rfl, rfl⟩
      exact ⟨_, ⟨_, (), _, rfl, ⟨rfl, rfl⟩, rfl⟩, rfl⟩

/-- An account of the foundation comes to what its lock does. -/
theorem run_ofFoundation_iff {e : FoundationEntry} {entry : Entry} :
    (ofFoundation denom now e).Run log entry ↔
      ∃ answer, log = [⟨.account e.address, answer⟩] ∧
        entry = ⟨e.address, (lockedPortion denom now answer).mapError .lock⟩ := by
  simp only [ofFoundation, bind_eq_bind, pure_eq_done, run_bind_iff, run_onChain_iff, run_done_iff]
  constructor
  · rintro ⟨_, _, _, ⟨answer, rfl, rfl⟩, ⟨rfl, rfl⟩, rfl⟩
    exact ⟨answer, rfl, rfl⟩
  · rintro ⟨answer, rfl, rfl⟩
    exact ⟨_, _, _, ⟨answer, rfl, rfl⟩, ⟨rfl, rfl⟩, rfl⟩

end Entry

/-! ### The snapshot of the entries -/

/-- The entries of a list of accounts are what runs of their programs yield, with some of the answers
of a log. -/
def Entry.AreOfRuns {α : Type} (log : List (Sigma Query.Outcome)) (program : α → Asking Entry) :
    List α → List Entry → Prop :=
  List.Forall₂ fun account entry => ∃ part, part <:+: log ∧ (program account).Run part entry

/-- The snapshot of the findings of a run: it consists of their parts, its cohorts are balanced, and the
entry of every account of the policy is what a run of its program yields. -/
structure Snapshot.IsFoundBy (s : Snapshot) (policy : Policy) (denom : String)
    (log : List (Sigma Query.Outcome)) (f : Findings) : Prop where
  covers : ∃ answers, f.Covers policy answers
  consists : s.ConsistsOf policy f.parts
  balanced : ∀ c ∈ s.nonCirculating.cohorts, c.IsBalanced
  foundation : Entry.AreOfRuns log (Entry.ofFoundation denom s.updatedAt) policy.foundation
    f.foundation
  bootstraps : Entry.AreOfRuns log (Entry.ofBootstrap denom s.updatedAt) policy.bootstraps
    f.bootstraps

/-- A run that goes through accounts is one run after another. -/
theorem Entry.areOfRuns_of_run {α : Type} {log log' : List (Sigma Query.Outcome)}
    {program : α → Asking Entry} {accounts : List α} {entries : List Entry} (hlog : log <:+: log')
    (h : (forEach program accounts).Run log entries) : AreOfRuns log' program accounts entries := by
  refine (forall₂_of_run_forEach h).imp ?_
  rintro account entry ⟨part, hpart, hrun⟩
  exact ⟨part, hpart.trans hlog, hrun⟩

/-- A balanced cohort of several accounts sums up its items. -/
theorem Cohort.IsBalanced.value_amount {c : Cohort} (h : c.IsBalanced) {label : CohortLabel}
    (hlabel : label ∈ CohortLabel.ofAccounts) (hname : c.name = label.name) :
    value c.amount = Amount.sum ((c.items.getD []).map fun item => value item.amount) := by
  cases hitems : c.items with
  | none => exact h.empty hitems label hlabel hname
  | some items => exact h.sum_items items hitems

namespace Snapshot

variable {policy : Policy} {policyEtag : Option String} {denom : String}
  {log : List (Sigma Query.Outcome)} {s : Snapshot}

/-- **Every snapshot is that of its entries.** -/
theorem exists_isFoundBy_of_run (h : (compute policy policyEtag denom).Run log (.ok s)) :
    ∃ f, s.IsFoundBy policy denom log f := by
  obtain ⟨block, total, log', f, rfl, hf, rfl⟩ := run_compute h
  obtain ⟨answers, -, hcovers⟩ := Findings.run_gather hf
  obtain ⟨_, _, _, logE, logP, logM, logF, logB, logC, -, rfl, -, -, -, hF, hB, -⟩ :=
    Findings.runs_of_run_gather hf
  -- the first two answers are those for the height and the total
  have hgather (part before after : List (Sigma Query.Outcome)) :
      part <:+: [⟨.height, .ok block⟩, ⟨.totalSupply denom, .ok total⟩] ++ (before ++ part ++ after) :=
    (List.infix_append before part after).trans (List.suffix_append _ _).isInfix
  refine ⟨f, ⟨answers, hcovers⟩, consistsOf_parts hcovers .., ?_, Entry.areOfRuns_of_run ?_ hF,
    Entry.areOfRuns_of_run ?_ hB⟩
  · exact (isBalanced_ofOutcome (Findings.isCounted_outcome hcovers) ..).cohorts
  · have hfoundation := hgather logF (logE ++ logP ++ logM) (logB ++ logC)
    rwa [← List.append_assoc _ logB] at hfoundation
  · exact hgather logB (logE ++ logP ++ logM ++ logF) logC

end Snapshot

/-! ### The cohort of the foundation -/

/-- A cohort that is counted as one does not have the name of a cohort of several accounts. -/
theorem Parts.Covers.name_ne {policy : Policy}
    {answers : ClaimTier → Except QueryError (List ClaimRecord)} {parts : Parts}
    (h : parts.Covers policy answers) {c : Cohort} (hc : c ∈ Parts.counted parts.singles) :
    ∀ label ∈ CohortLabel.ofAccounts, c.name ≠ label.name := by
  obtain ⟨part, hpart, hcohort⟩ := List.mem_filterMap.mp hc
  obtain ⟨label, hlabel, hof⟩ := exists_mem_of_forall₂ h.singles hpart
  cases part with
  | inl cohort =>
    obtain rfl := Option.some.inj hcohort
    rw [show cohort.name = label.name from hof]
    exact Findings.singleLabels_ne hlabel
  | inr skip => exact nomatch hcohort

theorem Parts.AreCohortOf.of_mem {label : CohortLabel} {listed : Prop} {items : List CohortItem}
    {cohorts : List Cohort} (h : Parts.AreCohortOf label listed items cohorts) {c : Cohort}
    (hc : c ∈ cohorts) : c.name = label.name ∧ c.items.getD [] = items := by
  rcases h with ⟨-, rfl⟩ | ⟨-, cohort, rfl, hname, hitems⟩
  · exact absurd hc List.not_mem_nil
  · obtain rfl := List.mem_singleton.mp hc
    exact ⟨hname, hitems⟩

/-- The cohort of the foundation has the items of the accounts of the foundation. -/
theorem Snapshot.ConsistsOf.items_foundation {s : Snapshot} {policy : Policy}
    {answers : ClaimTier → Except QueryError (List ClaimRecord)} {parts : Parts}
    (h : s.ConsistsOf policy parts) (hcovers : parts.Covers policy answers) {c : Cohort}
    (hc : c ∈ s.nonCirculating.cohorts) (hname : c.name = CohortLabel.foundation.name) :
    c.items.getD [] = Parts.counted parts.foundation := by
  obtain ⟨foundation, bootstraps, claims, hcohorts, hfoundation, hbootstraps, hclaims⟩ := h.cohorts
  simp only [hcohorts, List.mem_append] at hc
  rcases hc with ((hc | hc) | hc) | hc
  · exact absurd hname (hcovers.name_ne hc _ (by decide))
  · exact (hfoundation.of_mem hc).2
  · exact absurd ((hbootstraps.of_mem hc).1.symm.trans hname) (by decide)
  · exact absurd ((hclaims.of_mem hc).1.symm.trans hname) (by decide)

end Circulation
