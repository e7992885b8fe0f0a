import Circulation.Proofs.Snapshot.Parts

/-!
# A snapshot lists every holding once

Nothing is left out of a snapshot without a skip, and nothing is listed twice, whatever the answers
to the single calls are. Each holding contributes exactly one part, and the cohorts, the items and
the skips of the snapshot are these parts in the order of the policy, of the tiers and of their
lists of claims.

## Main results

* `Circulation.Snapshot.exists_parts_of_run` — a snapshot consists of one part for every holding.
-/

namespace Circulation.Snapshot

open Program

/-- **A snapshot lists every holding once.** In every run that yields a snapshot the claims of each
tier are asked for once, and the snapshot consists of one part for every holding: the transfer
escrows, the community pool, every module account, every account of the policy and every claim of
the lists that were answered; a list that was not answered has a single skip in its place. -/
theorem exists_parts_of_run {policy : Policy} {policyEtag : Option String} {denom : String}
    {log : List (Sigma Query.Outcome)} {s : Snapshot}
    (h : (compute policy policyEtag denom).Run log (.ok s)) :
    ∃ (answers : ClaimTier → Except QueryError (List ClaimRecord)) (parts : Parts),
      log.filter (·.1.isClaims) =
        ClaimTier.all.map (fun tier => ⟨.claims tier denom, answers tier⟩) ∧
      parts.Covers policy answers ∧ s.ConsistsOf policy parts := by
  obtain ⟨block, total, log', f, rfl, hf, rfl⟩ := run_compute h
  obtain ⟨answers, hlog, hcovers⟩ := Findings.run_gather hf
  refine ⟨answers, f.parts, ?_, hcovers.parts, consistsOf_parts hcovers ..⟩
  rw [List.filter_cons_of_neg (by exact Bool.false_ne_true),
    List.filter_cons_of_neg (by exact Bool.false_ne_true), hlog]

theorem exists_parts_small :
    ∃ log, (compute .small none "ulume").Run log (.ok Snapshot.small) ∧
      ∃ (answers : ClaimTier → Except QueryError (List ClaimRecord)) (parts : Parts),
        log.filter (·.1.isClaims) =
          ClaimTier.all.map (fun tier => ⟨.claims tier "ulume", answers tier⟩) ∧
        parts.Covers .small answers ∧ Snapshot.small.ConsistsOf .small parts :=
  ⟨_, run_compute_small, exists_parts_of_run run_compute_small⟩

end Circulation.Snapshot
