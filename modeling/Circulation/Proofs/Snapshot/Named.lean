import Circulation.Proofs.Program.Given
import Circulation.Proofs.Snapshot.Findings

/-!
# Only what is named matters

A snapshot asks once for the height, and then for nothing but the whole holdings of the
denomination and the accounts that are named: by the policy, by the resolution of one of its module
names, or by a list of claims. Which accounts those are is known only from answers given earlier. An
account that nothing names is not asked about, and neither is any other denomination, so whatever
such an account holds, or how it is locked, makes no difference.

## Main definitions

* `Circulation.Query.IsNamed` — the questions that follow the one for the height.

## Main results

* `Circulation.Findings.ensuresGiven_gather` — the entries of a snapshot ask for what is named.
* `Circulation.Snapshot.asks_only_named` — a snapshot depends on nothing else.
-/

namespace Circulation

open Program

/-- The questions that a snapshot of a denomination under a policy may ask after the height, where
`told` says which answers have been given: the totals of the denomination, the module names of the
policy and the balances of what they resolve to, the accounts of the policy, and the accounts of the
claims that were listed. Only the accounts of the foundation are not asked for their balance. -/
inductive Query.IsNamed (policy : Policy) (denom : String) (told : (q : Query) → q.Outcome → Prop) :
    Query → Prop
  | totalSupply : IsNamed policy denom told (.totalSupply denom)
  | escrow : IsNamed policy denom told (.escrow denom)
  | communityPool : IsNamed policy denom told (.communityPool denom)
  | claims (tier : ClaimTier) : IsNamed policy denom told (.claims tier denom)
  | moduleAddress {name : String} (hname : name ∈ policy.modules) :
    IsNamed policy denom told (.moduleAddress name)
  | moduleBalance {name address : String} (hname : name ∈ policy.modules)
    (htold : told (.moduleAddress name) (.ok address)) :
    IsNamed policy denom told (.balance address denom)
  | foundation {e : FoundationEntry} (he : e ∈ policy.foundation) :
    IsNamed policy denom told (.account e.address)
  | bootstrap {e : BootstrapEntry} (he : e ∈ policy.bootstraps) :
    IsNamed policy denom told (.account e.address)
  | bootstrapBalance {e : BootstrapEntry} (he : e ∈ policy.bootstraps) :
    IsNamed policy denom told (.balance e.address denom)
  | claim {tier : ClaimTier} {records : List ClaimRecord} {record : ClaimRecord}
    (htold : told (.claims tier denom) (.ok records)) (hrecord : record ∈ records) :
    IsNamed policy denom told (.account record.address)
  | claimBalance {tier : ClaimTier} {records : List ClaimRecord} {record : ClaimRecord}
    (htold : told (.claims tier denom) (.ok records)) (hrecord : record ∈ records) :
    IsNamed policy denom told (.balance record.address denom)

variable {policy : Policy} {denom : String} {told : (q : Query) → q.Outcome → Prop}

/-- The height is asked for by nothing that comes after it. -/
theorem Query.IsNamed.ne_height {q : Query} (h : q.IsNamed policy denom told) : q ≠ .height := by
  cases h <;> exact Query.noConfusion

/-! ### The entries -/

namespace Single

theorem ensuresGiven_ofModule {name : String} (hname : name ∈ policy.modules) :
    (ofModule denom name).EnsuresGiven told (Query.IsNamed policy denom told) fun _ => True := by
  refine ⟨.moduleAddress hname, fun answer htold => ?_⟩
  cases answer with
  | error why => exact trivial
  | ok address =>
    refine ⟨.moduleBalance hname htold, fun answer _ => ?_⟩
    cases answer with
    | error why => exact trivial
    | ok amount => exact trivial

end Single

namespace Entry

variable {now : Instant}

theorem ensuresGiven_ofFoundation {e : FoundationEntry} (he : e ∈ policy.foundation) :
    (ofFoundation denom now e).EnsuresGiven told (Query.IsNamed policy denom told)
      fun _ => True := by
  refine ((ensures_ofFoundation denom now e).given told).weaken ?_ fun _ _ => trivial
  rintro q rfl
  exact .foundation he

theorem ensuresGiven_ofBootstrap {e : BootstrapEntry} (he : e ∈ policy.bootstraps) :
    (ofBootstrap denom now e).EnsuresGiven told (Query.IsNamed policy denom told)
      fun _ => True := by
  refine ((ensures_ofBootstrap denom now e).given told).weaken ?_ fun _ _ => trivial
  rintro q (rfl | rfl)
  · exact .bootstrap he
  · exact .bootstrapBalance he

/-- The claims of a tier are listed first, and their accounts are named by that list. -/
theorem ensuresGiven_ofTier (tier : ClaimTier) :
    (ofTier denom now tier).EnsuresGiven told (Query.IsNamed policy denom told)
      fun _ => True := by
  refine ⟨.claims tier, fun answer htold => ?_⟩
  cases answer with
  | error why => exact trivial
  | ok records =>
    have hclaim : ∀ record ∈ records, (ofClaim denom now tier record).EnsuresGiven told
        (Query.IsNamed policy denom told) fun _ => True := by
      intro record hrecord
      refine ((ensures_ofClaim denom now tier record).given told).weaken ?_ fun _ _ => trivial
      rintro q (rfl | rfl)
      · exact .claim htold hrecord
      · exact .claimBalance htold hrecord
    exact (EnsuresGiven.forEach hclaim).weaken (fun _ => id) fun _ _ => trivial

end Entry

/-- The entries of a snapshot ask for what is named. -/
theorem Findings.ensuresGiven_gather (now : Instant) :
    (gather policy denom now).EnsuresGiven told (Query.IsNamed policy denom told)
      fun _ => True := by
  have hescrow : (Single.ofEscrow denom).EnsuresGiven told (Query.IsNamed policy denom told)
      fun _ => True := by
    refine ((Single.ensures_ofEscrow denom).given told).weaken ?_ fun _ _ => trivial
    rintro q rfl
    exact .escrow
  have hpool : (Single.ofCommunityPool denom).EnsuresGiven told
      (Query.IsNamed policy denom told) fun _ => True := by
    refine ((Single.ensures_ofCommunityPool denom).given told).weaken ?_ fun _ _ => trivial
    rintro q rfl
    exact .communityPool
  refine hescrow.bind fun _ _ => hpool.bind fun _ _ => ?_
  refine (EnsuresGiven.forEach fun _ => Single.ensuresGiven_ofModule).bind fun _ _ => ?_
  refine (EnsuresGiven.forEach fun _ => Entry.ensuresGiven_ofFoundation).bind fun _ _ => ?_
  refine (EnsuresGiven.forEach fun _ => Entry.ensuresGiven_ofBootstrap).bind fun _ _ => ?_
  exact (EnsuresGiven.forEach fun tier _ => Entry.ensuresGiven_ofTier tier).bind
    fun _ _ => trivial

/-! ### The snapshot -/

namespace Snapshot

/-- A snapshot asks for the height, and then for what is named. -/
theorem exists_ensuresGiven_compute (policy : Policy) (policyEtag : Option String)
    (denom : String) :
    ∃ next : Except QueryError Block → Asking (Except ComputeError Snapshot),
      compute policy policyEtag denom = .ask .height next ∧
        ∀ (told : (q : Query) → q.Outcome → Prop) (height : Except QueryError Block),
          (next height).EnsuresGiven told (Query.IsNamed policy denom told) fun _ => True := by
  refine ⟨_, rfl, fun told height => ?_⟩
  cases height with
  | error why => exact trivial
  | ok block =>
    refine ⟨.totalSupply, fun total _ => ?_⟩
    cases total with
    | error why => exact trivial
    | ok total =>
      refine (Findings.ensuresGiven_gather block.time).bind fun f _ => ?_
      have hreport := (ensures_report total f.outcome
        (ofOutcome policy policyEtag denom block total f.outcome)).given told
      exact (hreport.weaken (fun _ => False.elim) fun _ => id).bind fun _ _ => trivial

/-- **Only what is named matters.** Every run asks for the height, once and first, and after that
only for what is named, given the answers of the run. So two sources that agree on the height, and
on what is named given the answers of one of them, have the same snapshot, or fail alike, whatever
they say of any other account and of any other denomination. -/
theorem asks_only_named (policy : Policy) (policyEtag : Option String) (denom : String) :
    (∀ (log : List (Sigma Query.Outcome)) (result : Except ComputeError Snapshot),
      (compute policy policyEtag denom).Run log result →
        ∃ (height : Except QueryError Block) (rest : List (Sigma Query.Outcome)),
          log = ⟨.height, height⟩ :: rest ∧
          ∀ x ∈ rest, x.1 ≠ .height ∧
            x.1.IsNamed policy denom fun q answer => ⟨q, answer⟩ ∈ log) ∧
    ∀ S S' : Source, S' .height = S .height →
      (∀ q : Query, (q.IsNamed policy denom fun q answer => S q = answer) → S' q = S q) →
      (compute policy policyEtag denom).eval S' = (compute policy policyEtag denom).eval S := by
  obtain ⟨next, hnext, hspec⟩ := exists_ensuresGiven_compute policy policyEtag denom
  rw [hnext]
  constructor
  · intro log result h
    obtain ⟨height, rest, hrest, rfl⟩ := run_ask_iff.mp h
    -- the answers of the rest of the run are among those of the whole run
    obtain ⟨-, hasks⟩ := (hspec (fun q answer => ⟨q, answer⟩ ∈
      (⟨.height, height⟩ :: rest : List (Sigma Query.Outcome))) height).of_run hrest
      fun x hx => List.mem_cons_of_mem _ hx
    exact ⟨height, rest, rfl, fun x hx => ⟨(hasks x hx).ne_height, hasks x hx⟩⟩
  · intro S S' hheight hsame
    rw [eval_ask, eval_ask, hheight]
    exact (hspec _ (S .height)).eval_congr hsame

/-- The small chain on which an account that nothing names holds and locks a fortune, and the
balances of another denomination are not known. -/
def sourceWithStranger : Source
  | .balance address denom =>
    if address = "stranger" then .ok 1000000
    else if denom = "ulume" then .ok 5
    else .error (.missing "balance")
  | .account address =>
    if address = "stranger" then
      .ok ⟨"PermanentLockedAccount", .permanent, [⟨"ulume", "1000000"⟩], none, none, [], []⟩
    else Source.small (.account address)
  | q => Source.small q

/-- The claims of the small chain are those of two addresses. -/
theorem address_of_claims_small {tier : ClaimTier} {denom : String} {records : List ClaimRecord}
    (h : Source.small (.claims tier denom) = .ok records) {record : ClaimRecord}
    (hrecord : record ∈ records) : record.address = "c" ∨ record.address = "d" := by
  cases tier with
  | one =>
    obtain rfl : [⟨"c", none, some 40⟩, ⟨"d", none, none⟩] = records := Except.ok.inj h
    rcases List.mem_pair.mp hrecord with rfl | rfl
    · exact .inl rfl
    · exact .inr rfl
  | two | three | four => exact absurd h (by simp [Source.small])

theorem asks_only_named_stranger :
    (∃ log height rest, (compute .small none "ulume").Run log (.ok Snapshot.small) ∧
      log = ⟨.height, height⟩ :: rest ∧
      ∀ x ∈ rest, x.1 ≠ .height ∧
        x.1.IsNamed Policy.small "ulume" fun q answer => ⟨q, answer⟩ ∈ log) ∧
    (compute .small none "ulume").eval sourceWithStranger =
      (compute .small none "ulume").eval Source.small := by
  obtain ⟨hruns, hsources⟩ := asks_only_named .small none "ulume"
  constructor
  · obtain ⟨height, rest, hlog, hnamed⟩ := hruns _ _ run_compute_small
    exact ⟨_, height, rest, run_compute_small, hlog, hnamed⟩
  · refine hsources Source.small sourceWithStranger rfl fun q hq => ?_
    cases hq with
    | totalSupply | escrow | communityPool | claims | moduleAddress => rfl
    | moduleBalance hname htold => exact absurd htold (by simp [Source.small])
    | foundation he | bootstrap he | bootstrapBalance he =>
      obtain rfl := List.mem_singleton.mp he
      decide
    | claim htold hrecord | claimBalance htold hrecord =>
      rcases address_of_claims_small htold hrecord with h | h
      · rw [h]
        decide
      · rw [h]
        decide

end Snapshot

end Circulation
