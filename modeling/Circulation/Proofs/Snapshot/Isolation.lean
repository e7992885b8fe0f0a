import Circulation.Proofs.Numeral
import Circulation.Proofs.Snapshot.Failures
import Circulation.Proofs.Snapshot.Parts

/-!
# Failures are isolated

There is no snapshot only where the height or the total supply is not known. Any other failure stays
with the entries whose own questions fail: all others contribute to the snapshot what they
contribute without the failure. As long as the locks of the accounts are known, failures do not add
to what is counted, so what circulates does not shrink.

## Main definitions

* `Circulation.Parts.ofSource` — the parts of a snapshot over a source.
* `Circulation.Parts.AgreeOutside` — the parts agree on the entries that no failure touches.

## Main results

* `Circulation.Snapshot.consistsOf_ofSource` — a snapshot over a source consists of its parts.
* `Circulation.Parts.agreeOutside_ofSource` — failures change only the parts that they touch.
* `Circulation.Snapshot.isolates_failures` — failures are isolated.
-/

namespace Circulation

open Numeral Program

/-! ### The parts over a source -/

/-- The programs of the cohorts that are counted as one, in their order. -/
def Single.programs (policy : Policy) (denom : String) : List (Asking Single) :=
  ofEscrow denom :: ofCommunityPool denom :: policy.modules.map (ofModule denom)

namespace Parts

/-- The parts of a tier over a source: one for every claim, or a single skip if the claims are not
known. -/
def ofTier (S : Source) (denom : String) (now : Instant) (tier : ClaimTier) :
    List (CohortItem ⊕ Skip) :=
  match S (.claims tier denom) with
  | .error why => [Entry.part .claims ⟨none, .error (.tier tier why)⟩]
  | .ok records => records.map fun record =>
      ((Entry.ofClaim denom now tier record).eval S).part .claims

/-- The parts of a snapshot over a source: what the programs of the entries yield. -/
def ofSource (S : Source) (policy : Policy) (denom : String) (now : Instant) : Parts where
  singles := (Single.programs policy denom).map fun p => (p.eval S).part
  foundation := policy.foundation.map fun e =>
    ((Entry.ofFoundation denom now e).eval S).part .foundation
  bootstraps := policy.bootstraps.map fun e =>
    ((Entry.ofBootstrap denom now e).eval S).part .bootstraps
  claims := ClaimTier.all.map (ofTier S denom now)

theorem ofTier_eq_map_part (S : Source) (denom : String) (now : Instant) (tier : ClaimTier) :
    ofTier S denom now tier = ((Entry.ofTier denom now tier).eval S).map (Entry.part .claims) := by
  rw [Entry.eval_ofTier, ofTier]
  cases S (.claims tier denom) with
  | error why => rfl
  | ok records =>
    dsimp only
    rw [List.map_map]
    rfl

end Parts

namespace Findings

/-- The parts over a source are those of the findings over it. -/
theorem parts_eval_gather (S : Source) (policy : Policy) (denom : String) (now : Instant) :
    ((gather policy denom now).eval S).parts = Parts.ofSource S policy denom now := by
  have hclaims : Parts.ofTier S denom now =
      fun tier => ((Entry.ofTier denom now tier).eval S).map (Entry.part .claims) := by
    funext tier
    exact Parts.ofTier_eq_map_part S denom now tier
  simp only [eval_gather, parts, Parts.ofSource, Single.programs, List.map_cons, List.map_map,
    Function.comp_def, hclaims]

/-- The findings over a source have one entry for every holding, with the claims that the source
lists. -/
theorem covers_eval_gather (S : Source) (policy : Policy) (denom : String) (now : Instant) :
    ((gather policy denom now).eval S).Covers policy fun tier => S (.claims tier denom) := by
  obtain ⟨answers, hlog, hcovers⟩ := run_gather (run_eval S (gather policy denom now))
  have hanswers : answers = fun tier => S (.claims tier denom) := by
    funext tier
    -- every answer in the log of the evaluation is one of the source
    have hmem : (⟨.claims tier denom, answers tier⟩ : Sigma Query.Outcome) ∈
        (((gather policy denom now).questions S).map fun q => ⟨q, S q⟩).filter (·.1.isClaims) := by
      rw [hlog]
      exact List.mem_map.mpr ⟨tier, by cases tier <;> decide, rfl⟩
    obtain ⟨q, -, hq⟩ := List.mem_map.mp (List.mem_filter.mp hmem).1
    obtain ⟨rfl, hanswer⟩ := Sigma.mk.inj hq
    exact (eq_of_heq hanswer).symm
  rw [hanswers] at hcovers
  exact hcovers

end Findings

namespace Snapshot

/-- What is known of a snapshot over a source. -/
theorem eval_compute_eq_ok {policy : Policy} {policyEtag : Option String} {denom : String}
    {S : Source} {s : Snapshot} (h : (compute policy policyEtag denom).eval S = .ok s) :
    ∃ block total, S .height = .ok block ∧ S (.totalSupply denom) = .ok total ∧
      s = ofOutcome policy policyEtag denom block total
        ((Findings.gather policy denom block.time).eval S).outcome := by
  rw [eval_compute] at h
  cases hheight : S .height with
  | error why => simp [hheight] at h
  | ok block =>
    cases htotal : S (.totalSupply denom) with
    | error why => simp [hheight, htotal] at h
    | ok total =>
      simp only [hheight, htotal, Except.ok.injEq] at h
      exact ⟨block, total, rfl, rfl, h.symm⟩

/-- The snapshot over a source consists of the parts over it. -/
theorem consistsOf_ofSource (S : Source) (policy : Policy) (policyEtag : Option String)
    (denom : String) (block : Block) (total : Nat) :
    (ofOutcome policy policyEtag denom block total
      ((Findings.gather policy denom block.time).eval S).outcome).ConsistsOf policy
        (Parts.ofSource S policy denom block.time) := by
  rw [← Findings.parts_eval_gather]
  exact consistsOf_parts (Findings.covers_eval_gather S policy denom block.time) ..

end Snapshot

/-! ### What failures do not touch -/

namespace Parts

section

variable {α β : Type}

/-- Two lists of parts of the same holdings agree at the holdings for which `kept` holds. -/
def AgreeAt (kept : α → Prop) (holdings : List α) (parts parts' : List β) : Prop :=
  ∀ (i : Nat) (a : α), holdings[i]? = some a → kept a → parts'[i]? = parts[i]?

theorem agreeAt_map {kept : α → Prop} {holdings : List α} {f g : α → β}
    (h : ∀ a, kept a → g a = f a) : AgreeAt kept holdings (holdings.map f) (holdings.map g) := by
  intro i a ha hkept
  rw [List.getElem?_map, List.getElem?_map, ha, Option.map_some, Option.map_some, h a hkept]

end

/-- The parts agree on every entry none of whose questions over the source is among the failures.
The claims of a tier are compared where their list is known and does not fail. -/
structure AgreeOutside (S : Source) (fails : Query → Option QueryError) (policy : Policy)
    (denom : String) (now : Instant) (parts parts' : Parts) : Prop where
  singles : AgreeAt (Asking.Untouched S fails) (Single.programs policy denom)
    parts.singles parts'.singles
  foundation : AgreeAt (fun e => (Entry.ofFoundation denom now e).Untouched S fails)
    policy.foundation parts.foundation parts'.foundation
  bootstraps : AgreeAt (fun e => (Entry.ofBootstrap denom now e).Untouched S fails)
    policy.bootstraps parts.bootstraps parts'.bootstraps
  claims : ∀ (i : Nat) (tier : ClaimTier) (records : List ClaimRecord),
    ClaimTier.all[i]? = some tier → S (.claims tier denom) = .ok records →
      fails (.claims tier denom) = none →
        ∃ claims claims', parts.claims[i]? = some claims ∧ parts'.claims[i]? = some claims' ∧
          AgreeAt (fun record => (Entry.ofClaim denom now tier record).Untouched S fails)
            records claims claims'

theorem agreeOutside_ofSource (S : Source) (fails : Query → Option QueryError) (policy : Policy)
    (denom : String) (now : Instant) :
    AgreeOutside S fails policy denom now (ofSource S policy denom now)
      (ofSource (S.withFailures fails) policy denom now) where
  singles := by
    change AgreeAt _ _ (List.map (fun p : Asking Single => (p.eval S).part) _)
      (List.map (fun p : Asking Single => (p.eval (S.withFailures fails)).part) _)
    refine agreeAt_map fun p hp => ?_
    rw [hp.eval_eq]
  foundation := by
    refine agreeAt_map fun e he => ?_
    rw [he.eval_eq]
  bootstraps := by
    refine agreeAt_map fun e he => ?_
    rw [he.eval_eq]
  claims := by
    intro i tier records htier hrecords hlist
    have hrecords' : S.withFailures fails (.claims tier denom) = .ok records := by
      rw [Source.withFailures_of_none hlist, hrecords]
    have hof (S : Source) (h : S (.claims tier denom) = .ok records) :
        (ofSource S policy denom now).claims[i]? = some (records.map fun record =>
          ((Entry.ofClaim denom now tier record).eval S).part .claims) := by
      simp only [ofSource, ofTier, List.getElem?_map, htier, Option.map_some, h]
    refine ⟨_, _, hof S hrecords, hof _ hrecords', agreeAt_map fun record hrecord => ?_⟩
    rw [hrecord.eval_eq]

end Parts

/-! ### The snapshot over a source with failures -/

namespace Snapshot

theorem circulatingOf_le_circulatingOf (total : Nat) {sum sum' : Nat} (h : sum' ≤ sum) :
    circulatingOf total sum ≤ circulatingOf total sum' := by
  unfold circulatingOf
  by_cases hsum : sum ≤ total
  · rw [if_pos hsum, if_pos (Nat.le_trans h hsum)]
    omega
  · rw [if_neg hsum]
    exact Nat.zero_le _

/-- There is no snapshot exactly where the height or else the total supply is not known. -/
theorem eval_compute_eq_error_iff {policy : Policy} {policyEtag : Option String} {denom : String}
    {S : Source} {e : ComputeError} :
    (compute policy policyEtag denom).eval S = .error e ↔
      (∃ why, S .height = .error why ∧ e = .height why) ∨
        ∃ block why, S .height = .ok block ∧ S (.totalSupply denom) = .error why ∧
          e = .totalSupply why := by
  rw [eval_compute]
  cases hheight : S .height with
  | error why => simp [eq_comm]
  | ok block =>
    cases htotal : S (.totalSupply denom) with
    | error why => simp [eq_comm]
    | ok total => simp

theorem questions_compute_of_height {policy : Policy} {policyEtag : Option String}
    {denom : String} {S : Source} {why : QueryError} (h : S .height = .error why) :
    (compute policy policyEtag denom).questions S = [.height] := by
  simp only [compute, Asking.height, bind_eq_bind, ask_bind, done_bind, questions_ask, h,
    pure_eq_done, questions_done]

theorem questions_compute_of_totalSupply {policy : Policy} {policyEtag : Option String}
    {denom : String} {S : Source} {block : Block} {why : QueryError}
    (hheight : S .height = .ok block) (htotal : S (.totalSupply denom) = .error why) :
    (compute policy policyEtag denom).questions S = [.height, .totalSupply denom] := by
  simp only [compute, Asking.height, Asking.totalSupply, bind_eq_bind, ask_bind, done_bind,
    questions_ask, hheight, htotal, pure_eq_done, questions_done]

/-- **Failures are isolated.** There is no snapshot exactly where the height or else the total
supply is not known, and nothing more is asked then. Where any queries but these two fail, there
still is a snapshot of the same block and total, and it consists of the parts over the source with
the failures, which differ only at entries that a failure touches. If no query for a lock fails, the
sum does not grow and what circulates does not shrink. -/
theorem isolates_failures (policy : Policy) (policyEtag : Option String) (denom : String)
    (S : Source) :
    (∀ e, (compute policy policyEtag denom).eval S = .error e ↔
      (∃ why, S .height = .error why ∧ e = .height why) ∨
        ∃ block why, S .height = .ok block ∧ S (.totalSupply denom) = .error why ∧
          e = .totalSupply why) ∧
    (∀ why, (compute policy policyEtag denom).eval S = .error (.height why) →
      (compute policy policyEtag denom).questions S = [.height]) ∧
    (∀ why, (compute policy policyEtag denom).eval S = .error (.totalSupply why) →
      (compute policy policyEtag denom).questions S = [.height, .totalSupply denom]) ∧
    ∀ (fails : Query → Option QueryError) (s : Snapshot),
      fails .height = none → fails (.totalSupply denom) = none →
      (compute policy policyEtag denom).eval S = .ok s →
      ∃ s', (compute policy policyEtag denom).eval (S.withFailures fails) = .ok s' ∧
        (s'.height = s.height ∧ s'.updatedAt = s.updatedAt ∧ s'.total = s.total ∧
          s'.max = s.max ∧ s'.policyEtag = s.policyEtag) ∧
        s.ConsistsOf policy (Parts.ofSource S policy denom s.updatedAt) ∧
        s'.ConsistsOf policy (Parts.ofSource (S.withFailures fails) policy denom s.updatedAt) ∧
        Parts.AgreeOutside S fails policy denom s.updatedAt
          (Parts.ofSource S policy denom s.updatedAt)
          (Parts.ofSource (S.withFailures fails) policy denom s.updatedAt) ∧
        ((∀ address, fails (.account address) = none) →
          value s'.nonCirculating.sum ≤ value s.nonCirculating.sum ∧
            value s.circulating ≤ value s'.circulating) := by
  refine ⟨fun e => eval_compute_eq_error_iff, fun why h => ?_, fun why h => ?_, ?_⟩
  · rcases eval_compute_eq_error_iff.mp h with ⟨why', hheight, -⟩ | ⟨_, _, _, _, he⟩
    · exact questions_compute_of_height hheight
    · exact absurd he (by simp)
  · rcases eval_compute_eq_error_iff.mp h with ⟨_, _, he⟩ | ⟨block, why', hheight, htotal, -⟩
    · exact absurd he (by simp)
    · exact questions_compute_of_totalSupply hheight htotal
  · intro fails s hheight htotal h
    obtain ⟨block, total, hblock, hsupply, rfl⟩ := eval_compute_eq_ok h
    refine ⟨ofOutcome policy policyEtag denom block total
      ((Findings.gather policy denom block.time).eval (S.withFailures fails)).outcome, ?_,
      ⟨rfl, rfl, rfl, rfl, rfl⟩, consistsOf_ofSource S .., consistsOf_ofSource _ ..,
      Parts.agreeOutside_ofSource S fails policy denom block.time, fun haccounts => ?_⟩
    · rw [eval_compute, Source.withFailures_of_none hheight, Source.withFailures_of_none htotal,
        hblock, hsupply]
    · have hsum := Findings.sum_withFailures_le (S := S) haccounts policy denom block.time
      simp only [ofOutcome, value_toString]
      exact ⟨hsum, circulatingOf_le_circulatingOf total hsum⟩

/-- Failures of all balances. -/
def balancesFail : Query → Option QueryError
  | .balance _ _ => some (.missing "account")
  | _ => none

theorem isolates_failures_small :
    ∃ s', (compute .small none "ulume").eval (Source.small.withFailures balancesFail) = .ok s' ∧
      Parts.AgreeOutside Source.small balancesFail .small "ulume" ⟨0, 0⟩
        (Parts.ofSource Source.small .small "ulume" ⟨0, 0⟩)
        (Parts.ofSource (Source.small.withFailures balancesFail) .small "ulume" ⟨0, 0⟩) ∧
      value s'.nonCirculating.sum ≤ value Snapshot.small.nonCirculating.sum ∧
        value Snapshot.small.circulating ≤ value s'.circulating := by
  obtain ⟨-, -, -, h⟩ := isolates_failures .small none "ulume" Source.small
  obtain ⟨s', hs', -, -, -, hagree, hsum⟩ :=
    h balancesFail Snapshot.small rfl rfl eval_compute_small
  exact ⟨s', hs', hagree, hsum fun address => rfl⟩

end Snapshot

end Circulation
