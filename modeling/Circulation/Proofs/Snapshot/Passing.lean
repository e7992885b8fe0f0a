import Circulation.Proofs.Instant.Months
import Circulation.Proofs.Lock.Plan
import Circulation.Proofs.Snapshot.Isolation
import Circulation.Proofs.Snapshot.Named

/-!
# Time alone only releases

If nothing changes on a chain but the height and the time of its block, then less and less is held
out of circulation. A lock on the chain only opens. A claim that falls back on its record is a
delayed lock; where the record states no time, the lock begins with the block itself and holds the
whole amount, until the months after the block leave the supported years and the claim is skipped.
A bootstrap account without hints has nothing but its lock.

With hints this fails: months that begin with the time of the block never end.

## Main definitions

* `Circulation.BootstrapEntry.HasNoHint` — the bootstrap accounts without hints.
* `Circulation.Entry.Opens` — how the portion of one lock at a later instant relates to that at an
  earlier one.

## Main results

* `Circulation.Entry.opens_onChain` — the lock of an account at two instants.
* `Circulation.Findings.sum_antitone` — what is counted does not grow in time.
* `Circulation.Snapshot.circulating_monotone` — what circulates does not shrink in time.
-/

namespace Circulation

open Numeral Program

/-- A bootstrap account for which the policy has no hint. -/
def BootstrapEntry.HasNoHint (e : BootstrapEntry) : Prop :=
  e.permanent = false ∧ e.months = none ∧ e.endTime = none

instance (e : BootstrapEntry) : Decidable e.HasNoHint :=
  inferInstanceAs (Decidable (_ ∧ _ ∧ _))

variable {S : Source} {denom : String} {now now' : Instant}

namespace Entry

/-! ### The lock of an account -/

/-- What one lock yields at an earlier and at a later instant: both evaluations fail for one reason,
or the later one yields no greater amount. -/
inductive Opens : Except LockFailure Portion → Except LockFailure Portion → Prop
  | failed (why : LockFailure) : Opens (.error why) (.error why)
  | opened {portion portion' : Portion} (h : portion'.amount ≤ portion.amount) :
    Opens (.ok portion) (.ok portion')

/-- The portion of an account's lock over a source. -/
theorem eval_onChain (S : Source) (denom : String) (now : Instant) (address : String) :
    (onChain denom now address).eval S =
      match S (.account address) with
      | .error why => .error (.account why)
      | .ok lock => (lock.lockedAt denom now).mapError .lock := by
  simp only [onChain, Asking.account, bind_eq_bind, ask_bind, done_bind, eval_ask]
  cases S (.account address) with
  | error why => rfl
  | ok lock => simp only [eval_bind, pure_eq_done, eval_done]

/-- The lock of an account only opens. -/
theorem opens_onChain (hle : now.nanos ≤ now'.nanos) (address : String) :
    Opens ((onChain denom now address).eval S) ((onChain denom now' address).eval S) := by
  rw [eval_onChain, eval_onChain]
  cases S (.account address) with
  | error why => exact .failed _
  | ok lock =>
    simp only [AccountLock.lockedAt_eq_plan]
    cases lock.plan denom with
    | error why => exact .failed _
    | ok plan => exact .opened (plan.amount_antitone hle)

/-- What counts of the lock of an account does not grow in time. -/
theorem Opens.amount_le {portion portion' : Except LockFailure Portion}
    (h : Opens portion portion') (address : Option String) :
    amount ⟨address, portion'.mapError .lock⟩ ≤ amount ⟨address, portion.mapError .lock⟩ := by
  cases h with
  | failed why => exact Nat.le_refl _
  | opened h => exact h

/-! ### The three kinds of entries -/

theorem amount_ofFoundation_antitone (hle : now.nanos ≤ now'.nanos) (e : FoundationEntry) :
    amount ((ofFoundation denom now' e).eval S) ≤ amount ((ofFoundation denom now e).eval S) := by
  simp only [ofFoundation, bind_eq_bind, pure_eq_done, eval_bind, eval_done]
  exact (opens_onChain hle e.address).amount_le _

/-- A bootstrap account without hints counts for what its lock holds. -/
theorem eval_ofBootstrap_of_hasNoHint {e : BootstrapEntry} (he : e.HasNoHint) (S : Source)
    (denom : String) (now : Instant) :
    (ofBootstrap denom now e).eval S =
      ⟨e.address, ((onChain denom now e.address).eval S).mapError .lock⟩ := by
  obtain ⟨hpermanent, hmonths, hend⟩ := he
  have hhint : hintedEnd? now e = none := by
    simp only [hintedEnd?, hpermanent, hmonths, hend, Bool.false_eq_true, if_false]
  simp only [ofBootstrap, bind_eq_bind, eval_bind]
  cases hholds : holdsSomething ((onChain denom now e.address).eval S) with
  | true => rfl
  | false =>
    simp only [Bool.false_eq_true, if_false, hinted, hhint, pure_eq_done, done_bind, eval_done]
    cases (onChain denom now e.address).eval S with
    | error why => rfl
    | ok portion => rfl

theorem amount_ofBootstrap_antitone (hle : now.nanos ≤ now'.nanos) {e : BootstrapEntry}
    (he : e.HasNoHint) :
    amount ((ofBootstrap denom now' e).eval S) ≤ amount ((ofBootstrap denom now e).eval S) := by
  rw [eval_ofBootstrap_of_hasNoHint he, eval_ofBootstrap_of_hasNoHint he]
  exact (opens_onChain hle e.address).amount_le _

/-- The entry of a claim by its record. -/
theorem eval_ofRecord (S : Source) (denom : String) (now : Instant) (tier : ClaimTier)
    (record : ClaimRecord) (why : LockFailure) :
    (ofRecord denom now tier record why).eval S =
      match (record.time.getD now).addMonths tier.months with
      | .error whyMonths => .error (.claimMonths whyMonths)
      | .ok stop =>
        ((claimAmount denom record why).eval S).map fun amount => untilEnd amount now (.at stop) := by
  unfold ofRecord
  cases (record.time.getD now).addMonths tier.months with
  | error whyMonths => rfl
  | ok stop => simp only [bind_eq_bind, pure_eq_done, eval_bind, eval_done]

theorem months_pos (tier : ClaimTier) : 0 < tier.months := by
  cases tier <;> decide

/-- A claim by its record does not grow in time. Where the record states no time, the earlier block
counts the whole amount. -/
theorem amount_ofRecord_antitone (hsupported : now.IsSupported) (hle : now.nanos ≤ now'.nanos)
    (hoffset : now'.offset = now.offset) (tier : ClaimTier) (record : ClaimRecord)
    (why : LockFailure) (address : Option String) :
    amount ⟨address, (ofRecord denom now' tier record why).eval S⟩ ≤
      amount ⟨address, (ofRecord denom now tier record why).eval S⟩ := by
  rw [eval_ofRecord, eval_ofRecord]
  cases hstop' : (record.time.getD now').addMonths tier.months with
  | error whyMonths => exact Nat.zero_le _
  | ok stop' =>
    cases htime : record.time with
    | some t =>
      -- both windows begin at the time of the record
      rw [htime, Option.getD_some] at hstop'
      rw [Option.getD_some, hstop']
      cases (claimAmount denom record why).eval S with
      | error whyAmount => exact Nat.le_refl _
      | ok total => exact Schedule.delayed_antitone hle
    | none =>
      -- each window begins with its block, and the earlier one is supported as well
      rw [htime, Option.getD_none] at hstop'
      obtain ⟨stop, hstop⟩ := Instant.exists_addMonths_of_le hsupported hle hoffset hstop'
      have hopen : now.nanos < stop.nanos :=
        Instant.nanos_lt_of_addMonths (months_pos tier) hstop
      rw [Option.getD_none, hstop]
      cases (claimAmount denom record why).eval S with
      | error whyAmount => exact Nat.le_refl _
      | ok total =>
        have hall : Schedule.delayed total now stop = total := if_pos hopen
        change Schedule.delayed total now' stop' ≤ Schedule.delayed total now stop
        rw [hall]
        exact Schedule.delayed_le

/-- The entry of a claim over a source. -/
theorem eval_ofClaim (S : Source) (denom : String) (now : Instant) (tier : ClaimTier)
    (record : ClaimRecord) :
    (ofClaim denom now tier record).eval S =
      match (onChain denom now record.address).eval S with
      | .ok portion => ⟨record.address, .ok portion⟩
      | .error why => ⟨record.address, (ofRecord denom now tier record why).eval S⟩ := by
  simp only [ofClaim, bind_eq_bind, eval_bind]
  cases (onChain denom now record.address).eval S with
  | ok portion => rfl
  | error why => simp only [mention, note_bind, done_bind, eval_note, eval_bind, pure_eq_done,
      eval_done]

theorem amount_ofClaim_antitone (hsupported : now.IsSupported) (hle : now.nanos ≤ now'.nanos)
    (hoffset : now'.offset = now.offset) (tier : ClaimTier) (record : ClaimRecord) :
    amount ((ofClaim denom now' tier record).eval S) ≤
      amount ((ofClaim denom now tier record).eval S) := by
  have hopens : Opens ((onChain denom now record.address).eval S)
      ((onChain denom now' record.address).eval S) := opens_onChain hle record.address
  rw [eval_ofClaim, eval_ofClaim]
  generalize (onChain denom now record.address).eval S = portion at *
  generalize (onChain denom now' record.address).eval S = portion' at *
  cases hopens with
  | failed why => exact amount_ofRecord_antitone hsupported hle hoffset tier record why _
  | opened h => exact h

/-- The list of a tier is the same at both instants, and its claims are evaluated one by one. -/
theorem sum_ofTier_antitone (hsupported : now.IsSupported) (hle : now.nanos ≤ now'.nanos)
    (hoffset : now'.offset = now.offset) (tier : ClaimTier) :
    sum ((ofTier denom now' tier).eval S) ≤ sum ((ofTier denom now tier).eval S) := by
  rw [eval_ofTier, eval_ofTier]
  cases S (.claims tier denom) with
  | error why => exact Nat.le_refl _
  | ok records =>
    simp only [sum, List.map_map]
    exact Amount.sum_map_le fun record _ =>
      amount_ofClaim_antitone hsupported hle hoffset tier record

end Entry

/-! ### All entries -/

namespace Findings

/-- No entry asks for the height: the time of the block is handed to it. -/
theorem eval_gather_congr {S' : Source} (hsame : ∀ q, q ≠ .height → S' q = S q) (policy : Policy)
    (denom : String) (now : Instant) :
    (gather policy denom now).eval S' = (gather policy denom now).eval S :=
  (ensuresGiven_gather now).eval_congr fun q hq => hsame q hq.ne_height

/-- **What is counted does not grow in time**, as long as no bootstrap account has a hint. -/
theorem sum_antitone {policy : Policy} (hhints : ∀ e ∈ policy.bootstraps, e.HasNoHint)
    (hsupported : now.IsSupported) (hle : now.nanos ≤ now'.nanos)
    (hoffset : now'.offset = now.offset) :
    ((gather policy denom now').eval S).outcome.sum ≤
      ((gather policy denom now).eval S).outcome.sum := by
  have hfoundation : Amount.sum (policy.foundation.map fun e =>
      ((Entry.ofFoundation denom now' e).eval S).amount) ≤
      Amount.sum (policy.foundation.map fun e =>
        ((Entry.ofFoundation denom now e).eval S).amount) :=
    Amount.sum_map_le fun e _ => Entry.amount_ofFoundation_antitone hle e
  have hbootstraps : Amount.sum (policy.bootstraps.map fun e =>
      ((Entry.ofBootstrap denom now' e).eval S).amount) ≤
      Amount.sum (policy.bootstraps.map fun e =>
        ((Entry.ofBootstrap denom now e).eval S).amount) :=
    Amount.sum_map_le fun e he => Entry.amount_ofBootstrap_antitone hle (hhints e he)
  have hclaims : Amount.sum (ClaimTier.all.map fun tier =>
      Entry.sum ((Entry.ofTier denom now' tier).eval S)) ≤
      Amount.sum (ClaimTier.all.map fun tier =>
        Entry.sum ((Entry.ofTier denom now tier).eval S)) :=
    Amount.sum_map_le fun tier _ => Entry.sum_ofTier_antitone hsupported hle hoffset tier
  -- the cohorts that are counted as one do not look at the time
  simp only [sum_outcome, eval_gather, List.map_cons, List.map_map, Amount.sum_cons, Entry.sum,
    Function.comp_def] at hclaims ⊢
  omega

end Findings

/-! ### The snapshot -/

namespace Snapshot

/-- **Time alone only releases.** Take two sources that answer every call alike but for the height
and the time of its block, which is no earlier over the second one and shown on the same clock.
Where the total supply is known, both have a snapshot, and under a policy without hints for its
bootstrap accounts the sum does not grow and what circulates does not shrink. -/
theorem circulating_monotone {policy : Policy} (policyEtag : Option String) {denom : String}
    {S S' : Source} {block block' : Block} {total : Nat}
    (hhints : ∀ e ∈ policy.bootstraps, e.HasNoHint) (hsame : ∀ q, q ≠ .height → S' q = S q)
    (hblock : S .height = .ok block) (hblock' : S' .height = .ok block')
    (htotal : S (.totalSupply denom) = .ok total) (hsupported : block.time.IsSupported)
    (hle : block.time.nanos ≤ block'.time.nanos)
    (hoffset : block'.time.offset = block.time.offset) :
    ∃ s s', (compute policy policyEtag denom).eval S = .ok s ∧
      (compute policy policyEtag denom).eval S' = .ok s' ∧
      value s'.nonCirculating.sum ≤ value s.nonCirculating.sum ∧
      value s.circulating ≤ value s'.circulating := by
  have htotal' : S' (.totalSupply denom) = .ok total := by rw [hsame _ (by simp), htotal]
  have hsum : ((Findings.gather policy denom block'.time).eval S').outcome.sum ≤
      ((Findings.gather policy denom block.time).eval S).outcome.sum := by
    rw [Findings.eval_gather_congr hsame]
    exact Findings.sum_antitone hhints hsupported hle hoffset
  refine ⟨_, _, by rw [eval_compute, hblock, htotal], by rw [eval_compute, hblock', htotal'], ?_⟩
  simp only [ofOutcome, value_toString]
  exact ⟨hsum, circulatingOf_le_circulatingOf total hsum⟩

/-- A policy with a holding of every kind, and no hint for the bootstrap account. -/
def smallPolicyWithoutHints : Policy :=
  { Policy.small with bootstraps := [⟨none, "b", false, none, some ⟨0, 0⟩, none⟩] }

/-- The small chain at a block, where the lock of the foundation ends a second after the epoch. -/
def smallSourceAt (block : Block) : Source
  | .height => .ok block
  | .account address =>
    if address = "f" then
      .ok ⟨"DelayedVestingAccount", .delayed, [⟨"ulume", "300"⟩], none, some ⟨1000000000, 0⟩, [],
        []⟩
    else .error (.missing "account")
  | q => Source.small q

theorem circulating_monotone_small :
    ∃ s s', (compute smallPolicyWithoutHints none "ulume").eval (smallSourceAt ⟨7, ⟨0, 3600⟩⟩) =
        .ok s ∧
      (compute smallPolicyWithoutHints none "ulume").eval
        (smallSourceAt ⟨8, ⟨2000000000, 3600⟩⟩) = .ok s' ∧
      value s'.nonCirculating.sum ≤ value s.nonCirculating.sum ∧
      value s.circulating ≤ value s'.circulating := by
  refine circulating_monotone none (by decide) ?_ rfl rfl rfl (by decide) (by decide) rfl
  intro q hq
  cases q with
  | height => exact absurd rfl hq
  | _ => rfl

end Snapshot

end Circulation
