import Circulation.Proofs.Program.Run
import Circulation.Snapshot.Compute

/-!
# What the entries of a snapshot ask and yield

Every entry of a snapshot asks only about its own holding, and yields a finding about that holding:
an amount or the reason for which it is skipped, under its own name and address. This holds in every
run, so it holds over every source.

## Main results

* `Circulation.Single.ensures_ofEscrow` and its like — what the programs of the entries ensure.
* `Circulation.Findings.eval_gather` — the findings over a source, entry by entry.
* `Circulation.Snapshot.eval_compute` — a snapshot depends on the height, the total and the
  findings.
-/

namespace Circulation

open Program

/-! ### The programs of the entries -/

namespace Asking

variable {asks : Query → Prop}

theorem ensures_mentionIf (c : Bool) (e : Event) :
    (mentionIf c e : Asking Unit).Ensures asks fun _ => True := by
  cases c <;> exact trivial

end Asking

namespace Single

/-- A finding on the cohort of a label: the cohort, which has no items and whose amount is written
as it is counted, or a skip under its name. -/
def IsOf (label : CohortLabel) : Single → Prop
  | .ok (cohort, amount) =>
    cohort.name = label.name ∧ cohort.items = none ∧ cohort.amount = toString amount
  | .error skip => skip.cohort = label.name

theorem ensures_ofEscrow (denom : String) :
    (ofEscrow denom).Ensures (· = .escrow denom) (IsOf .escrow) := by
  refine ⟨rfl, fun answer => ?_⟩
  cases answer with
  | error why => exact rfl
  | ok amount => exact ⟨rfl, rfl, rfl⟩

theorem ensures_ofCommunityPool (denom : String) :
    (ofCommunityPool denom).Ensures (· = .communityPool denom) (IsOf .communityPool) := by
  refine ⟨rfl, fun answer => ?_⟩
  cases answer with
  | error why => exact rfl
  | ok raw =>
    dsimp only [done_bind]
    cases Amount.floor raw with
    | error why => exact rfl
    | ok amount => exact ⟨rfl, rfl, rfl⟩

theorem ensures_ofModule (denom name : String) :
    (ofModule denom name).Ensures
      (fun q => q = .moduleAddress name ∨ ∃ address, q = .balance address denom)
      (IsOf (.moduleAccount name)) := by
  refine ⟨.inl rfl, fun answer => ?_⟩
  cases answer with
  | error why => exact rfl
  | ok address =>
    refine ⟨.inr ⟨address, rfl⟩, fun answer => ?_⟩
    cases answer with
    | error why => exact rfl
    | ok amount => exact ⟨rfl, rfl, rfl⟩

end Single

namespace Entry

/-- The questions about the account of an address. -/
def Concerns (denom address : String) (q : Query) : Prop :=
  q = .account address ∨ q = .balance address denom

theorem ensures_onChain (denom : String) (now : Instant) (address : String) :
    (onChain denom now address).Ensures (· = .account address) fun _ => True := by
  refine ⟨rfl, fun answer => ?_⟩
  cases answer with
  | error why => exact trivial
  | ok lock => exact (Asking.ensures_mentionIf _ _).bind fun _ _ => trivial

theorem ensures_ofFoundation (denom : String) (now : Instant) (e : FoundationEntry) :
    (ofFoundation denom now e).Ensures (· = .account e.address)
      (·.address = some e.address) :=
  (ensures_onChain denom now e.address).bind fun _ _ => rfl

theorem ensures_hinted (denom : String) (now : Instant) (e : BootstrapEntry) :
    (hinted denom now e).Ensures (· = .balance e.address denom) fun _ => True := by
  unfold hinted
  cases hintedEnd? now e with
  | none => exact trivial
  | some stop =>
    cases stop with
    | error why => exact trivial
    | ok stop =>
      refine ⟨rfl, fun answer => ?_⟩
      cases answer with
      | error why => exact trivial
      | ok balance => exact trivial

theorem ensures_ofBootstrap (denom : String) (now : Instant) (e : BootstrapEntry) :
    (ofBootstrap denom now e).Ensures (Concerns denom e.address)
      (·.address = some e.address) := by
  refine ((ensures_onChain denom now e.address).weaken fun _ => .inl).bind fun portion _ => ?_
  split
  · exact rfl
  · exact ((ensures_hinted denom now e).weaken fun _ => .inr).bind fun _ _ => rfl

theorem ensures_claimAmount (denom : String) (record : ClaimRecord) (why : LockFailure) :
    (claimAmount denom record why).Ensures (· = .balance record.address denom)
      fun _ => True := by
  unfold claimAmount
  cases record.amount with
  | some amount => exact trivial
  | none => exact ⟨rfl, fun _ => trivial⟩

theorem ensures_ofRecord (denom : String) (now : Instant) (tier : ClaimTier)
    (record : ClaimRecord) (why : LockFailure) :
    (ofRecord denom now tier record why).Ensures (· = .balance record.address denom)
      fun _ => True := by
  unfold ofRecord
  cases (record.time.getD now).addMonths tier.months with
  | error why => exact trivial
  | ok stop => exact (ensures_claimAmount denom record why).bind fun _ _ => trivial

theorem ensures_ofClaim (denom : String) (now : Instant) (tier : ClaimTier)
    (record : ClaimRecord) :
    (ofClaim denom now tier record).Ensures (Concerns denom record.address)
      (·.address = some record.address) := by
  refine ((ensures_onChain denom now record.address).weaken fun _ => .inl).bind fun portion _ => ?_
  cases portion with
  | ok portion => exact rfl
  | error why =>
    exact ((ensures_ofRecord denom now tier record why).weaken fun _ => .inr).bind fun _ _ => rfl

end Entry

/-! ### The claims of a tier -/

/-- Whether a question is for a list of claims. -/
def Query.isClaims : Query → Bool
  | .claims _ _ => true
  | _ => false

namespace Entry

/-- The entries of a tier, given the answer to the question for its claims: one for every claim, or
a single one without an address if the claims are not known. -/
def AreOfTier (answer : Except QueryError (List ClaimRecord)) (entries : List Entry) : Prop :=
  match answer with
  | .error _ => ∃ why, entries = [⟨none, .error why⟩]
  | .ok records =>
    List.Forall₂ (fun (record : ClaimRecord) e => e.address = some record.address) records entries

/-- In a run over a tier the claims are asked for once, and nothing later in it asks for claims. -/
theorem run_ofTier {denom : String} {now : Instant} {tier : ClaimTier}
    {log : List (Sigma Query.Outcome)} {entries : List Entry}
    (h : (ofTier denom now tier).Run log entries) :
    ∃ answer : Except QueryError (List ClaimRecord),
      log.filter (·.1.isClaims) = [⟨.claims tier denom, answer⟩] ∧ AreOfTier answer entries := by
  obtain ⟨answer, rest, hrest, rfl⟩ := run_ask_iff.mp h
  refine ⟨answer, ?_⟩
  cases answer with
  | error why =>
    obtain ⟨rfl, rfl⟩ := run_done_iff.mp hrest
    exact ⟨rfl, _, rfl⟩
  | ok records =>
    have hspec : (forEach (ofClaim denom now tier) records).Ensures (·.isClaims = false)
        (List.Forall₂ (fun record e => e.address = some record.address) records) :=
      .forEach fun record _ => (ensures_ofClaim denom now tier record).weaken (by
        rintro q (rfl | rfl) <;> rfl)
    obtain ⟨hentries, hquiet⟩ := hspec.of_run hrest
    refine ⟨?_, hentries⟩
    rw [List.filter_cons_of_pos rfl, List.filter_eq_nil_iff.mpr]
    intro x hx
    rw [hquiet x hx]
    exact Bool.false_ne_true

theorem run_forEach_ofTier {denom : String} {now : Instant} {tiers : List ClaimTier}
    (hnodup : tiers.Nodup) {log : List (Sigma Query.Outcome)} {found : List (List Entry)}
    (h : (forEach (ofTier denom now) tiers).Run log found) :
    ∃ answers : ClaimTier → Except QueryError (List ClaimRecord),
      log.filter (·.1.isClaims) = tiers.map (fun tier => ⟨.claims tier denom, answers tier⟩) ∧
        List.Forall₂ (fun tier => AreOfTier (answers tier)) tiers found := by
  induction tiers generalizing log found with
  | nil =>
    obtain ⟨rfl, rfl⟩ := run_done_iff.mp h
    exact ⟨fun _ => .ok [], rfl, .nil⟩
  | cons tier tiers ih =>
    obtain ⟨log₁, entries, log₂, h₁, h₂, rfl⟩ := run_bind_iff.mp h
    obtain ⟨log₃, found, log₄, h₃, h₄, rfl⟩ := run_bind_iff.mp h₂
    obtain ⟨rfl, rfl⟩ := run_done_iff.mp h₄
    obtain ⟨hfresh, htail⟩ := List.nodup_cons.mp hnodup
    obtain ⟨answer, hlog, hentries⟩ := run_ofTier h₁
    obtain ⟨answers, hlogs, hfound⟩ := ih htail h₃
    -- the tiers are distinct, so recording the answer of this one leaves those of the others
    have hother : ∀ t ∈ tiers, Function.update answers tier answer t = answers t :=
      fun t ht => Function.update_of_ne (ne_of_mem_of_not_mem ht hfresh) _ _
    refine ⟨Function.update answers tier answer, ?_, .cons ?_ ?_⟩
    · rw [List.append_nil, List.filter_append, hlog, hlogs, List.map_cons, Function.update_self,
        List.singleton_append]
      refine congrArg _ (List.map_congr_left fun t ht => ?_)
      rw [hother t ht]
    · rw [Function.update_self]
      exact hentries
    · refine ((List.forall₂_and_left _ _).mpr ⟨hother, hfound⟩).imp ?_
      rintro t entries ⟨heq, hentries⟩
      rw [heq]
      exact hentries

end Entry

/-! ### All entries -/

theorem exists_mem_of_forall₂ {α β : Type} {R : α → β → Prop} {as : List α} {bs : List β}
    (h : List.Forall₂ R as bs) {b : β} (hb : b ∈ bs) : ∃ a ∈ as, R a b := by
  obtain ⟨hlength, hget⟩ := List.forall₂_iff_get.mp h
  obtain ⟨i, hi, rfl⟩ := List.mem_iff_getElem.mp hb
  exact ⟨as.get ⟨i, hlength ▸ hi⟩, List.get_mem _ _, hget i (hlength ▸ hi) hi⟩

namespace Findings

/-- The labels of the cohorts that are counted as one, in their order. -/
def singleLabels (policy : Policy) : List CohortLabel :=
  .escrow :: .communityPool :: policy.modules.map .moduleAccount

/-- Findings that have one entry for every holding under a policy, in the order of the policy and of
the lists of claims. -/
structure Covers (policy : Policy) (claims : ClaimTier → Except QueryError (List ClaimRecord))
    (f : Findings) : Prop where
  singles : List.Forall₂ Single.IsOf (singleLabels policy) f.singles
  foundation : List.Forall₂ (fun (account : FoundationEntry) e => e.address = some account.address)
    policy.foundation f.foundation
  bootstraps : List.Forall₂ (fun (account : BootstrapEntry) e => e.address = some account.address)
    policy.bootstraps f.bootstraps
  claims : List.Forall₂ (fun tier => Entry.AreOfTier (claims tier)) ClaimTier.all f.claims

/-- A single finding has a label of the policy. -/
theorem Covers.isOf_of_mem {policy : Policy}
    {claims : ClaimTier → Except QueryError (List ClaimRecord)} {f : Findings}
    (h : f.Covers policy claims) {r : Single} (hr : r ∈ f.singles) :
    ∃ label ∈ singleLabels policy, r.IsOf label :=
  exists_mem_of_forall₂ h.singles hr

theorem ensures_modules (denom : String) (names : List String) :
    (forEach (Single.ofModule denom) names).Ensures (·.isClaims = false)
      (List.Forall₂ (fun name => Single.IsOf (.moduleAccount name)) names) :=
  .forEach fun name _ => (Single.ensures_ofModule denom name).weaken (by
    rintro q (rfl | ⟨address, rfl⟩) <;> rfl)

theorem ensures_foundation (denom : String) (now : Instant) (accounts : List FoundationEntry) :
    (forEach (Entry.ofFoundation denom now) accounts).Ensures (·.isClaims = false)
      (List.Forall₂ (fun account e => e.address = some account.address) accounts) :=
  .forEach fun account _ => (Entry.ensures_ofFoundation denom now account).weaken (by
    rintro q rfl
    rfl)

theorem ensures_bootstraps (denom : String) (now : Instant) (accounts : List BootstrapEntry) :
    (forEach (Entry.ofBootstrap denom now) accounts).Ensures (·.isClaims = false)
      (List.Forall₂ (fun account e => e.address = some account.address) accounts) :=
  .forEach fun account _ => (Entry.ensures_ofBootstrap denom now account).weaken (by
    rintro q (rfl | rfl) <;> rfl)

/-- A run that gathers findings runs through the holdings of one kind after those of another. -/
theorem runs_of_run_gather {policy : Policy} {denom : String} {now : Instant}
    {log : List (Sigma Query.Outcome)} {f : Findings}
    (h : (gather policy denom now).Run log f) :
    ∃ (escrow pool : Single) (modules : List Single)
      (logE logP logM logF logB logC : List (Sigma Query.Outcome)),
      f.singles = escrow :: pool :: modules ∧
        log = (logE ++ logP ++ logM ++ logF ++ logB) ++ logC ∧
        (Single.ofEscrow denom).Run logE escrow ∧
        (Single.ofCommunityPool denom).Run logP pool ∧
        (forEach (Single.ofModule denom) policy.modules).Run logM modules ∧
        (forEach (Entry.ofFoundation denom now) policy.foundation).Run logF f.foundation ∧
        (forEach (Entry.ofBootstrap denom now) policy.bootstraps).Run logB f.bootstraps ∧
        (forEach (Entry.ofTier denom now) ClaimTier.all).Run logC f.claims := by
  obtain ⟨logE, escrow, log₁, hE, h₁, rfl⟩ := run_bind_iff.mp h
  obtain ⟨logP, pool, log₂, hP, h₂, rfl⟩ := run_bind_iff.mp h₁
  obtain ⟨logM, modules, log₃, hM, h₃, rfl⟩ := run_bind_iff.mp h₂
  obtain ⟨logF, foundation, log₄, hF, h₄, rfl⟩ := run_bind_iff.mp h₃
  obtain ⟨logB, bootstraps, log₅, hB, h₅, rfl⟩ := run_bind_iff.mp h₄
  obtain ⟨logC, claims, log₆, hC, h₆, rfl⟩ := run_bind_iff.mp h₅
  obtain ⟨rfl, rfl⟩ := run_done_iff.mp h₆
  refine ⟨escrow, pool, modules, logE, logP, logM, logF, logB, logC, rfl, ?_,
    hE, hP, hM, hF, hB, hC⟩
  simp only [List.append_nil, List.append_assoc]

/-- Only the last part of a run that gathers findings asks for claims. -/
theorem isClaims_eq_false_of_runs {policy : Policy} {denom : String} {now : Instant}
    {escrow pool : Single} {modules : List Single} {foundation bootstraps : List Entry}
    {logE logP logM logF logB : List (Sigma Query.Outcome)}
    (hE : (Single.ofEscrow denom).Run logE escrow)
    (hP : (Single.ofCommunityPool denom).Run logP pool)
    (hM : (forEach (Single.ofModule denom) policy.modules).Run logM modules)
    (hF : (forEach (Entry.ofFoundation denom now) policy.foundation).Run logF foundation)
    (hB : (forEach (Entry.ofBootstrap denom now) policy.bootstraps).Run logB bootstraps) :
    ∀ x ∈ logE ++ logP ++ logM ++ logF ++ logB, x.1.isClaims = false := by
  simp only [List.mem_append]
  rintro x ((((hx | hx) | hx) | hx) | hx)
  · rw [((Single.ensures_ofEscrow denom).of_run hE).2 x hx]
    rfl
  · rw [((Single.ensures_ofCommunityPool denom).of_run hP).2 x hx]
    rfl
  · exact ((ensures_modules denom policy.modules).of_run hM).2 x hx
  · exact ((ensures_foundation denom now policy.foundation).of_run hF).2 x hx
  · exact ((ensures_bootstraps denom now policy.bootstraps).of_run hB).2 x hx

/-- Every run gathers one finding for every holding, and asks for the claims of every tier once. -/
theorem run_gather {policy : Policy} {denom : String} {now : Instant}
    {log : List (Sigma Query.Outcome)} {f : Findings}
    (h : (gather policy denom now).Run log f) :
    ∃ answers : ClaimTier → Except QueryError (List ClaimRecord),
      log.filter (·.1.isClaims) =
        ClaimTier.all.map (fun tier => ⟨.claims tier denom, answers tier⟩) ∧
        f.Covers policy answers := by
  obtain ⟨escrow, pool, modules, logE, logP, logM, logF, logB, logC, hsingles, rfl,
    hE, hP, hM, hF, hB, hC⟩ := runs_of_run_gather h
  have hescrow := ((Single.ensures_ofEscrow denom).of_run hE).1
  have hpool := ((Single.ensures_ofCommunityPool denom).of_run hP).1
  have hmodules := ((ensures_modules denom policy.modules).of_run hM).1
  have hfoundation := ((ensures_foundation denom now policy.foundation).of_run hF).1
  have hbootstraps := ((ensures_bootstraps denom now policy.bootstraps).of_run hB).1
  obtain ⟨answers, hlog, hclaims⟩ := Entry.run_forEach_ofTier (by decide) hC
  have hquiet := isClaims_eq_false_of_runs hE hP hM hF hB
  have hnone : (logE ++ logP ++ logM ++ logF ++ logB).filter (·.1.isClaims) = [] :=
    List.filter_eq_nil_iff.mpr fun x hx => by simp [hquiet x hx]
  refine ⟨answers, ?_, ⟨?_, hfoundation, hbootstraps, hclaims⟩⟩
  · rw [List.filter_append, hnone, hlog, List.nil_append]
  · rw [hsingles]
    exact .cons hescrow (.cons hpool (List.forall₂_map_left_iff.mpr hmodules))

/-- The findings over a source are those of the holdings one by one. -/
theorem eval_gather (policy : Policy) (denom : String) (now : Instant) (S : Source) :
    (gather policy denom now).eval S =
      { singles := (Single.ofEscrow denom).eval S :: (Single.ofCommunityPool denom).eval S ::
          policy.modules.map fun name => (Single.ofModule denom name).eval S
        foundation := policy.foundation.map fun e => (Entry.ofFoundation denom now e).eval S
        bootstraps := policy.bootstraps.map fun e => (Entry.ofBootstrap denom now e).eval S
        claims := ClaimTier.all.map fun tier => (Entry.ofTier denom now tier).eval S } := by
  simp only [gather, bind_eq_bind, pure_eq_done, eval_bind, eval_forEach, eval_done]

theorem counted_outcome (f : Findings) :
    f.outcome.counted =
      (f.singles.flatMap fun r => (Outcome.ofSingle r).counted) ++
        (Outcome.ofEntries .foundation (!f.foundation.isEmpty) f.foundation).counted ++
        (Outcome.ofEntries .bootstraps (!f.bootstraps.isEmpty) f.bootstraps).counted ++
        (Outcome.ofEntries .claims (!(f.claims.flatten.filterMap Outcome.item?).isEmpty)
          f.claims.flatten).counted := by
  simp only [outcome, Outcome.concat, List.flatMap_append, List.flatMap_map, List.flatMap_cons,
    List.flatMap_nil, List.append_nil, List.append_assoc]

/-- A cohort that is counted is that of a single holding, or that of the items of a list of
entries. -/
theorem Covers.mem_counted {policy : Policy}
    {claims : ClaimTier → Except QueryError (List ClaimRecord)} {f : Findings}
    (h : f.Covers policy claims) {c : Cohort × Nat} (hc : c ∈ f.outcome.counted) :
    (∃ label ∈ singleLabels policy, Single.IsOf label (.ok c)) ∨
      ∃ label, ∃ entries ∈ [f.foundation, f.bootstraps, f.claims.flatten],
        c = Outcome.cohortOf label (entries.filterMap Outcome.item?) := by
  have hentries : ∀ (label : CohortLabel) (listed : Bool) (entries : List Entry),
      c ∈ (Outcome.ofEntries label listed entries).counted →
        c = Outcome.cohortOf label (entries.filterMap Outcome.item?) := by
    intro label listed entries hc
    cases listed with
    | false => exact absurd hc List.not_mem_nil
    | true => exact List.mem_singleton.mp hc
  simp only [counted_outcome, List.mem_append] at hc
  rcases hc with ((hc | hc) | hc) | hc
  · obtain ⟨r, hr, hc⟩ := List.mem_flatMap.mp hc
    cases r with
    | ok counted =>
      obtain rfl := List.mem_singleton.mp hc
      exact .inl (h.isOf_of_mem hr)
    | error skip => exact absurd hc List.not_mem_nil
  · exact .inr ⟨_, _, by simp, hentries _ _ _ hc⟩
  · exact .inr ⟨_, _, by simp, hentries _ _ _ hc⟩
  · exact .inr ⟨_, _, by simp, hentries _ _ _ hc⟩

theorem skipped_outcome (f : Findings) :
    f.outcome.skipped =
      (f.singles.flatMap fun r => (Outcome.ofSingle r).skipped) ++
        f.foundation.filterMap (Outcome.skip? CohortLabel.foundation.name) ++
        f.bootstraps.filterMap (Outcome.skip? CohortLabel.bootstraps.name) ++
        f.claims.flatten.filterMap (Outcome.skip? CohortLabel.claims.name) := by
  simp only [outcome, Outcome.concat, Outcome.ofEntries, List.flatMap_append, List.flatMap_map,
    List.flatMap_cons, List.flatMap_nil, List.append_nil, List.append_assoc]

end Findings

/-! ### The snapshot -/

namespace Snapshot

theorem ensures_report (total : Nat) (o : Outcome) (s : Snapshot) :
    (report total o s).Ensures (fun _ => False) fun _ => True := by
  have hskips : (forEach (fun (s : Skip) =>
      (mention (.entrySkipped s.cohort (s.address.getD "") s.reason) : Asking Unit))
      o.skipped).Ensures (fun _ => False) (List.Forall₂ (fun _ _ => True) o.skipped) :=
    .forEach fun _ _ => trivial
  exact hskips.bind fun _ _ => (Asking.ensures_mentionIf _ _).bind fun _ _ => trivial

/-- A run that yields a snapshot has the height and the total answered, and gathers the findings of
which the snapshot is made. -/
theorem run_compute {policy : Policy} {policyEtag : Option String} {denom : String}
    {log : List (Sigma Query.Outcome)} {s : Snapshot}
    (h : (compute policy policyEtag denom).Run log (.ok s)) :
    ∃ (block : Block) (total : Nat) (log' : List (Sigma Query.Outcome)) (f : Findings),
      log = ⟨.height, .ok block⟩ :: ⟨.totalSupply denom, .ok total⟩ :: log' ∧
        (Findings.gather policy denom block.time).Run log' f ∧
        s = ofOutcome policy policyEtag denom block total f.outcome := by
  obtain ⟨height, log₁, h₁, rfl⟩ := run_ask_iff.mp h
  cases height with
  | error why => exact absurd (run_done_iff.mp h₁).2 (by simp)
  | ok block =>
    obtain ⟨total, log₂, h₂, rfl⟩ := run_ask_iff.mp h₁
    cases total with
    | error why => exact absurd (run_done_iff.mp h₂).2 (by simp)
    | ok total =>
      simp only [done_bind, bind_eq_bind, pure_eq_done] at h₂
      obtain ⟨start, _, log₃, hstart, h₃, rfl⟩ := run_bind_iff.mp h₂
      obtain ⟨rfl, -⟩ := run_done_iff.mp (run_note_iff.mp hstart)
      obtain ⟨log', f, log₄, hf, h₄, rfl⟩ := run_bind_iff.mp h₃
      obtain ⟨notes, _, log₅, hnotes, h₅, rfl⟩ := run_bind_iff.mp h₄
      obtain ⟨rfl, hs⟩ := run_done_iff.mp h₅
      have hquiet := ((ensures_report total f.outcome _).of_run hnotes).2
      obtain rfl : notes = [] := List.eq_nil_iff_forall_not_mem.mpr hquiet
      refine ⟨block, total, log', f, ?_, hf, Except.ok.inj hs⟩
      simp only [List.nil_append, List.append_nil]

/-- A run asks for the height first. -/
theorem ne_nil_of_run_compute {policy : Policy} {policyEtag : Option String} {denom : String}
    {log : List (Sigma Query.Outcome)} {result : Except ComputeError Snapshot}
    (h : (compute policy policyEtag denom).Run log result) : log ≠ [] := by
  obtain ⟨height, rest, -, rfl⟩ := run_ask_iff.mp h
  exact List.cons_ne_nil _ rest

/-- A run that does not get the height ends with that. -/
theorem run_compute_of_height (policy : Policy) (policyEtag : Option String) (denom : String)
    (why : QueryError) :
    (compute policy policyEtag denom).Run [⟨.height, .error why⟩] (.error (.height why)) :=
  run_ask_iff.mpr ⟨.error why, [], .done _, rfl⟩

/-- A snapshot over a source needs the height and the total, and nothing else. -/
theorem eval_compute (policy : Policy) (policyEtag : Option String) (denom : String) (S : Source) :
    (compute policy policyEtag denom).eval S =
      match S .height with
      | .error why => .error (.height why)
      | .ok block =>
        match S (.totalSupply denom) with
        | .error why => .error (.totalSupply why)
        | .ok total =>
          .ok (ofOutcome policy policyEtag denom block total
            ((Findings.gather policy denom block.time).eval S).outcome) := by
  simp only [compute, Asking.height, bind_eq_bind, ask_bind, done_bind, eval_ask]
  cases S .height with
  | error why => rfl
  | ok block =>
    simp only [Asking.totalSupply, ask_bind, done_bind, eval_ask]
    cases S (.totalSupply denom) with
    | error why => rfl
    | ok total => simp only [eval_bind, pure_eq_done, eval_done]

end Snapshot

/-! ### A small chain -/

/-- A policy with a holding of every kind. -/
def Policy.small : Policy where
  maxSupply := some "5000"
  modules := ["distribution"]
  foundation := [⟨"treasury", "f", none, none⟩]
  bootstraps := [⟨none, "b", true, none, none, none⟩]

/-- A chain on which some holdings of `Policy.small` are counted and others are not known: the lock
of the foundation is known, that of any other account and three lists of claims are not. -/
def Source.small : Source
  | .height => .ok ⟨7, ⟨0, 0⟩⟩
  | .totalSupply _ => .ok 1000
  | .escrow _ => .ok 10
  | .communityPool _ => .ok "2.5"
  | .balance _ _ => .ok 5
  | .moduleAddress _ => .error (.missing "account")
  | .account address =>
    if address = "f" then
      .ok ⟨"PermanentLockedAccount", .permanent, [⟨"ulume", "300"⟩], none, none, [], []⟩
    else .error (.missing "account")
  | .claims .one _ => .ok [⟨"c", none, some 40⟩, ⟨"d", none, none⟩]
  | .claims _ _ => .error (.missing "claims")

/-- The snapshot of the small chain. -/
def Snapshot.small : Snapshot :=
  ofOutcome .small none "ulume" ⟨7, ⟨0, 0⟩⟩ 1000
    ((Findings.gather .small "ulume" ⟨0, 0⟩).eval Source.small).outcome

theorem Snapshot.eval_compute_small :
    (compute .small none "ulume").eval Source.small = .ok Snapshot.small :=
  eval_compute .small none "ulume" Source.small

theorem Snapshot.run_compute_small :
    (compute .small none "ulume").Run
      (((compute .small none "ulume").questions Source.small).map fun q => ⟨q, Source.small q⟩)
      (.ok Snapshot.small) :=
  eval_compute_small ▸ run_eval Source.small (compute .small none "ulume")

end Circulation
