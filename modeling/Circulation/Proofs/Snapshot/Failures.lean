import Circulation.Proofs.Snapshot.Sum

/-!
# Failures of single queries

A source may fail in some queries that it would answer otherwise. A program none of whose questions
fail yields what it yields over the source itself. Where a question fails, evaluation may take
another path: a bootstrap account keeps what its lock says, a claim is skipped, a tier has no
claims. As long as the locks of the accounts are known, every such path counts for nothing, so the
sum over all entries does not grow.

## Main definitions

* `Circulation.Source.withFailures` — a source in which some queries fail.
* `Circulation.Asking.Untouched` — none of the questions of a program fails.
* `Circulation.Asking.LosesOnFailure` — wherever a question other than for a lock fails, the result
  counts for nothing.

## Main results

* `Circulation.Asking.Untouched.eval_eq` — failures elsewhere do not matter to a program.
* `Circulation.Findings.sum_withFailures_le` — failures do not add to what is counted.
-/

namespace Circulation

open Program

/-- The source in which the queries that `fails` gives an error for fail with it. -/
def Source.withFailures (S : Source) (fails : Query → Option QueryError) : Source :=
  fun q =>
    match fails q with
    | some why => .error why
    | none => S q

/-- Whether a question is for the lock of an account. -/
def Query.isAccount : Query → Bool
  | .account _ => true
  | _ => false

variable {S : Source} {fails : Query → Option QueryError}

theorem Source.withFailures_of_none {q : Query} (h : fails q = none) :
    S.withFailures fails q = S q := by
  rw [withFailures, h]

theorem Source.withFailures_of_some {q : Query} {why : QueryError} (h : fails q = some why) :
    S.withFailures fails q = .error why := by
  rw [withFailures, h]

namespace Asking

variable {α β : Type}

/-- None of the questions that a program asks over a source is among the failures. -/
def Untouched (S : Source) (fails : Query → Option QueryError) (p : Asking α) : Prop :=
  ∀ q ∈ p.questions S, fails q = none

theorem Untouched.eval_eq {p : Asking α} (h : p.Untouched S fails) :
    p.eval (S.withFailures fails) = p.eval S :=
  eval_congr fun q hq => Source.withFailures_of_none (h q hq)

/-- Wherever a question other than for the lock of an account fails, the program goes on to a result
that counts for nothing. -/
def LosesOnFailure (amount : α → Nat) : Asking α → Prop
  | .done _ => True
  | .ask q next =>
    (q.isAccount = false → ∀ why : QueryError,
      (next (.error why)).Ensures (fun _ => True) (amount · = 0)) ∧
      ∀ answer, LosesOnFailure amount (next answer)
  | .note _ next => LosesOnFailure amount next

namespace LosesOnFailure

variable {amount : α → Nat}

/-- A first part that asks only for locks may yield anything. -/
theorem bind_of_account {amount : β → Nat} {asks : Query → Prop} {result : α → Prop}
    {p : Asking α} {f : α → Asking β} (hp : p.Ensures asks result)
    (hasks : ∀ q, asks q → q.isAccount = true) (hf : ∀ a, (f a).LosesOnFailure amount) :
    LosesOnFailure amount (p.bind f) := by
  induction p with
  | done a => exact hf a
  | ask q next ih =>
    refine ⟨fun hq => ?_, fun answer => ih answer (hp.2 answer)⟩
    exact absurd (hasks q hp.1) (by rw [hq]; exact Bool.false_ne_true)
  | note e next ih => exact ih hp

/-- Failures do not add to the result of a program that loses on failure. -/
theorem eval_le {p : Asking α} (hp : p.LosesOnFailure amount)
    (haccounts : ∀ address, fails (.account address) = none) :
    amount (p.eval (S.withFailures fails)) ≤ amount (p.eval S) := by
  induction p with
  | done a => exact Nat.le_refl _
  | ask q next ih =>
    rw [eval_ask, eval_ask]
    cases hq : fails q with
    | none =>
      rw [Source.withFailures_of_none hq]
      exact ih (S q) (hp.2 (S q))
    | some why =>
      -- the run leaves the path of the source here, and ends in nothing
      have hother : q.isAccount = false := by
        cases q with
        | account address =>
          rw [haccounts address] at hq
          exact absurd hq (by simp)
        | _ => rfl
      rw [Source.withFailures_of_some hq, (hp.1 hother why).eval (S.withFailures fails)]
      exact Nat.zero_le _
  | note e next ih => exact ih hp

/-- Failures do not add to a sum over a list of programs. -/
theorem sum_map_eval_le {f : β → Asking α} (hf : ∀ b, (f b).LosesOnFailure amount)
    (haccounts : ∀ address, fails (.account address) = none) (bs : List β) :
    Amount.sum (bs.map fun b => amount ((f b).eval (S.withFailures fails))) ≤
      Amount.sum (bs.map fun b => amount ((f b).eval S)) :=
  Amount.sum_map_le fun b _ => (hf b).eval_le haccounts

end LosesOnFailure

end Asking

/-! ### The programs of the entries -/

namespace Single

open Asking

theorem losesOnFailure_ofEscrow (denom : String) : (ofEscrow denom).LosesOnFailure amount := by
  refine ⟨fun _ why => rfl, fun answer => ?_⟩
  cases answer <;> exact trivial

theorem losesOnFailure_ofCommunityPool (denom : String) :
    (ofCommunityPool denom).LosesOnFailure amount := by
  refine ⟨fun _ why => rfl, fun answer => ?_⟩
  cases answer with
  | error why => exact trivial
  | ok raw =>
    dsimp only [done_bind]
    cases Amount.floor raw <;> exact trivial

theorem losesOnFailure_ofModule (denom name : String) :
    (ofModule denom name).LosesOnFailure amount := by
  refine ⟨fun _ why => rfl, fun answer => ?_⟩
  cases answer with
  | error why => exact trivial
  | ok address =>
    refine ⟨fun _ why => rfl, fun answer => ?_⟩
    cases answer <;> exact trivial

end Single

namespace Entry

open Asking

variable (denom : String) (now : Instant)

private theorem isAccount_of_eq {address : String} (q : Query) (h : q = .account address) :
    q.isAccount = true := by
  rw [h]
  rfl

theorem losesOnFailure_ofFoundation (e : FoundationEntry) :
    (ofFoundation denom now e).LosesOnFailure amount :=
  .bind_of_account (ensures_onChain denom now e.address) isAccount_of_eq fun _ => trivial

/-- A bootstrap account whose lock holds nothing counts for nothing where its hints fail. -/
theorem amount_preferOnChain {portion : Except LockFailure Portion}
    (h : holdsSomething portion = false) (address : Option String) (why : HintFailure) :
    amount ⟨address, preferOnChain portion (some (.error why))⟩ = 0 := by
  cases portion with
  | error whyLock => rfl
  | ok portion =>
    change portion.amount = 0
    simpa only [holdsSomething, bne_eq_false_iff_eq] using h

theorem losesOnFailure_ofBootstrap (e : BootstrapEntry) :
    (ofBootstrap denom now e).LosesOnFailure amount := by
  refine .bind_of_account (ensures_onChain denom now e.address) isAccount_of_eq fun portion => ?_
  cases hholds : holdsSomething portion with
  | true => exact trivial
  | false =>
    -- the hints are tried only where the lock holds nothing, so what they fail back to is nothing
    simp only [Bool.false_eq_true, if_false, hinted]
    cases hintedEnd? now e with
    | none => exact trivial
    | some stop =>
      cases stop with
      | error why => exact trivial
      | ok stop =>
        refine ⟨fun _ why => amount_preferOnChain hholds _ (.balance why), fun answer => ?_⟩
        cases answer <;> exact trivial

theorem losesOnFailure_ofClaim (tier : ClaimTier) (record : ClaimRecord) :
    (ofClaim denom now tier record).LosesOnFailure amount := by
  refine .bind_of_account (ensures_onChain denom now record.address) isAccount_of_eq
    fun portion => ?_
  cases portion with
  | ok portion =>
    change LosesOnFailure amount (.done _)
    exact trivial
  | error why =>
    change LosesOnFailure amount ((ofRecord denom now tier record why).bind _)
    unfold ofRecord
    cases (record.time.getD now).addMonths tier.months with
    | error whyMonths => exact trivial
    | ok stop =>
      simp only [claimAmount]
      cases record.amount with
      | some amount => exact trivial
      | none => exact ⟨fun _ why => rfl, fun answer => trivial⟩

/-- The entries of a tier over a source. -/
theorem eval_ofTier (S : Source) (denom : String) (now : Instant) (tier : ClaimTier) :
    (ofTier denom now tier).eval S =
      match S (.claims tier denom) with
      | .error why => [⟨none, .error (.tier tier why)⟩]
      | .ok records => records.map fun record => (ofClaim denom now tier record).eval S := by
  simp only [ofTier, Asking.claims, bind_eq_bind, ask_bind, done_bind, eval_ask]
  cases S (.claims tier denom) with
  | error why => rfl
  | ok records => exact eval_forEach S _ records

/-- Failures do not add to a tier: its list fails, or its claims are evaluated one by one. -/
theorem sum_ofTier_withFailures_le (haccounts : ∀ address, fails (.account address) = none)
    (tier : ClaimTier) :
    sum ((ofTier denom now tier).eval (S.withFailures fails)) ≤
      sum ((ofTier denom now tier).eval S) := by
  rw [eval_ofTier, eval_ofTier]
  cases hlist : fails (.claims tier denom) with
  | some why =>
    rw [Source.withFailures_of_some hlist]
    exact Nat.zero_le _
  | none =>
    rw [Source.withFailures_of_none hlist]
    cases S (.claims tier denom) with
    | error why => exact Nat.le_refl _
    | ok records =>
      simp only [sum, List.map_map]
      exact LosesOnFailure.sum_map_eval_le (losesOnFailure_ofClaim denom now tier) haccounts records

end Entry

namespace Findings

open Asking

/-- **Failures do not add to what is counted**, as long as the locks of the accounts are known. -/
theorem sum_withFailures_le (haccounts : ∀ address, fails (.account address) = none)
    (policy : Policy) (denom : String) (now : Instant) :
    ((gather policy denom now).eval (S.withFailures fails)).outcome.sum ≤
      ((gather policy denom now).eval S).outcome.sum := by
  have hescrow := (Single.losesOnFailure_ofEscrow denom).eval_le (S := S) haccounts
  have hpool := (Single.losesOnFailure_ofCommunityPool denom).eval_le (S := S) haccounts
  have hmodules := LosesOnFailure.sum_map_eval_le (S := S)
    (Single.losesOnFailure_ofModule denom) haccounts policy.modules
  have hfoundation := LosesOnFailure.sum_map_eval_le (S := S)
    (Entry.losesOnFailure_ofFoundation denom now) haccounts policy.foundation
  have hbootstraps := LosesOnFailure.sum_map_eval_le (S := S)
    (Entry.losesOnFailure_ofBootstrap denom now) haccounts policy.bootstraps
  have hclaims : Amount.sum (ClaimTier.all.map fun tier =>
      Entry.sum ((Entry.ofTier denom now tier).eval (S.withFailures fails))) ≤
      Amount.sum (ClaimTier.all.map fun tier => Entry.sum ((Entry.ofTier denom now tier).eval S)) :=
    Amount.sum_map_le fun tier _ => Entry.sum_ofTier_withFailures_le denom now haccounts tier
  simp only [sum_outcome, eval_gather, List.map_cons, List.map_map, Amount.sum_cons, Entry.sum,
    Function.comp_def] at hclaims ⊢
  omega

end Findings

end Circulation
