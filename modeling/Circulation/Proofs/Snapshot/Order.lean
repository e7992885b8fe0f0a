import Mathlib.Data.List.Perm.Basic
import Circulation.Proofs.Snapshot.Isolation

/-!
# The order of the entries does not matter

A policy lists its module names and its accounts in some order, and a tier lists its claims in some
order. Every entry is evaluated on its own, so in another order of the lists it comes to the same:
the snapshot has the same figures and the same tag, and its cohorts, their items and what is skipped
differ at most in their order.

## Main definitions

* `Circulation.Policy.IsReordering`, `Circulation.Source.IsReordering` — the same policy, and the
  same source, with lists in another order.
* `Circulation.Findings.IsReordering`, `Circulation.Cohort.IsReordering`,
  `Circulation.Snapshot.IsReordering` — what comes of it.

## Main results

* `Circulation.Findings.isReordering_gather` — the findings differ in their order only.
* `Circulation.Snapshot.compute_reordering` — the snapshot differs in its order only.
-/

namespace Circulation

open Program

/-! ### Other orders -/

/-- The same policy with its lists in some other order. -/
structure Policy.IsReordering (p p' : Policy) : Prop where
  maxSupply : p'.maxSupply = p.maxSupply
  modules : p.modules.Perm p'.modules
  foundation : p.foundation.Perm p'.foundation
  bootstraps : p.bootstraps.Perm p'.bootstraps

/-- The same answer, where claims may be listed in some other order. -/
def Query.IsReordering : (q : Query) → q.Outcome → q.Outcome → Prop
  | .claims _ _, .ok records, .ok records' => records.Perm records'
  | _, answer, answer' => answer' = answer

/-- The same source, where the claims of each tier may be listed in some other order. -/
def Source.IsReordering (S S' : Source) : Prop :=
  ∀ q : Query, q.IsReordering (S q) (S' q)

/-- The same findings in some other order, but tier by tier. -/
structure Findings.IsReordering (f f' : Findings) : Prop where
  singles : f.singles.Perm f'.singles
  foundation : f.foundation.Perm f'.foundation
  bootstraps : f.bootstraps.Perm f'.bootstraps
  claims : List.Forall₂ List.Perm f.claims f'.claims

/-- The same cohort with its items in some other order. -/
structure Cohort.IsReordering (c c' : Cohort) : Prop where
  name : c'.name = c.name
  reason : c'.reason = c.reason
  address : c'.address = c.address
  items : Option.Rel List.Perm c.items c'.items
  amount : c'.amount = c.amount

theorem Cohort.IsReordering.refl (c : Cohort) : c.IsReordering c := by
  refine ⟨rfl, rfl, rfl, ?_, rfl⟩
  cases c.items with
  | none => exact .none
  | some items => exact .some (.refl items)

/-- The same snapshot with its cohorts, their items and what is skipped in some other order. The
policies need not have the same fingerprint. -/
structure Snapshot.IsReordering (s s' : Snapshot) : Prop where
  denom : s'.denom = s.denom
  height : s'.height = s.height
  updatedAt : s'.updatedAt = s.updatedAt
  etag : s'.etag = s.etag
  total : s'.total = s.total
  circulating : s'.circulating = s.circulating
  max : s'.max = s.max
  sum : s'.nonCirculating.sum = s.nonCirculating.sum
  cohorts : ∃ cohorts, s.nonCirculating.cohorts.Perm cohorts ∧
    List.Forall₂ Cohort.IsReordering cohorts s'.nonCirculating.cohorts
  skipped : s.skipped.Perm s'.skipped

/-! ### The evaluation of the entries -/

section

variable {S S' : Source} {denom : String} {now : Instant}

/-- Only lists of claims differ between a source and a reordering of it. -/
theorem Source.IsReordering.eq_of_isClaims (hS : S.IsReordering S') {q : Query}
    (hq : q.isClaims = false) : S' q = S q := by
  have h := hS q
  cases q with
  | claims tier denom => exact absurd hq (by simp [Query.isClaims])
  | _ => exact h

/-- A program that asks for no list of claims comes to the same. -/
theorem Source.IsReordering.eval_eq {α : Type} (hS : S.IsReordering S') {asks : Query → Prop}
    {result : α → Prop} {p : Asking α} (hp : p.Ensures asks result)
    (hasks : ∀ q, asks q → q.isClaims = false) : p.eval S' = p.eval S :=
  hp.eval_congr fun q hq => hS.eq_of_isClaims (hasks q hq)

/-- The entries of a tier follow the order of its claims. -/
theorem Entry.perm_ofTier (hS : S.IsReordering S') (tier : ClaimTier) :
    ((ofTier denom now tier).eval S).Perm ((ofTier denom now tier).eval S') := by
  have hlist := hS (.claims tier denom)
  have hclaim : (fun record => (ofClaim denom now tier record).eval S') =
      fun record => (ofClaim denom now tier record).eval S := by
    funext record
    refine hS.eval_eq (ensures_ofClaim denom now tier record) ?_
    rintro q (rfl | rfl) <;> rfl
  rw [eval_ofTier, eval_ofTier, hclaim]
  generalize S (.claims tier denom) = answer at hlist
  generalize S' (.claims tier denom) = answer' at hlist
  cases answer with
  | error why =>
    obtain rfl : answer' = .error why := hlist
    exact .refl _
  | ok records =>
    cases answer' with
    | error why => exact absurd hlist (by simp [Query.IsReordering])
    | ok records' => exact List.Perm.map _ hlist

namespace Findings

/-- **The findings differ in their order only.** -/
theorem isReordering_gather {p p' : Policy} (hp : p.IsReordering p') (hS : S.IsReordering S') :
    ((gather p denom now).eval S).IsReordering ((gather p' denom now).eval S') := by
  have hescrow : (Single.ofEscrow denom).eval S' = (Single.ofEscrow denom).eval S :=
    hS.eval_eq (Single.ensures_ofEscrow denom) (by rintro q rfl; rfl)
  have hpool : (Single.ofCommunityPool denom).eval S' = (Single.ofCommunityPool denom).eval S :=
    hS.eval_eq (Single.ensures_ofCommunityPool denom) (by rintro q rfl; rfl)
  have hmodules := hS.eval_eq (ensures_modules denom p'.modules) fun _ => id
  have hfoundation := hS.eval_eq (ensures_foundation denom now p'.foundation) fun _ => id
  have hbootstraps := hS.eval_eq (ensures_bootstraps denom now p'.bootstraps) fun _ => id
  simp only [eval_forEach] at hmodules hfoundation hbootstraps
  rw [eval_gather, eval_gather, hescrow, hpool, hmodules, hfoundation, hbootstraps]
  constructor
  · exact ((hp.modules.map _).cons _).cons _
  · exact hp.foundation.map _
  · exact hp.bootstraps.map _
  · rw [List.forall₂_map_left_iff, List.forall₂_map_right_iff]
    exact List.forall₂_same.mpr fun tier _ => Entry.perm_ofTier hS tier

end Findings

end

/-! ### The outcome -/

namespace Outcome

/-- A cohort counts the same in any order of its items. -/
theorem isReordering_cohortOf (label : CohortLabel) {items items' : List (CohortItem × Nat)}
    (h : items.Perm items') : (cohortOf label items).1.IsReordering (cohortOf label items').1 where
  name := rfl
  reason := rfl
  address := rfl
  items := by
    simp only [cohortOf]
    by_cases hitems : items = []
    · have hitems' : items' = [] := List.nil_perm.mp (hitems ▸ h)
      rw [if_pos hitems, if_pos hitems']
      exact .none
    · have hitems' : items' ≠ [] := fun heq => hitems (List.perm_nil.mp (heq ▸ h))
      rw [if_neg hitems, if_neg hitems']
      exact .some (h.map _)
  amount := congrArg toString (Amount.sum_perm (h.map _)).symm

theorem forall₂_ofEntries (label : CohortLabel) {listed listed' : Bool} (hlisted : listed' = listed)
    {entries entries' : List Entry} (h : entries.Perm entries') :
    List.Forall₂ Cohort.IsReordering ((ofEntries label listed entries).counted.map (·.1))
      ((ofEntries label listed' entries').counted.map (·.1)) := by
  rw [hlisted]
  cases listed with
  | false => exact .nil
  | true => exact .cons (isReordering_cohortOf label (h.filterMap _)) .nil

theorem sum_entries_perm {entries entries' : List Entry} (h : entries.Perm entries') :
    Entry.sum entries = Entry.sum entries' :=
  Amount.sum_perm (h.map _)

end Outcome

namespace Findings.IsReordering

variable {f f' : Findings}

theorem flatten_claims (h : f.IsReordering f') : f.claims.flatten.Perm f'.claims.flatten :=
  List.Perm.flatten_congr h.claims

/-- The sum does not depend on the order. -/
theorem sum_outcome (h : f.IsReordering f') : f'.outcome.sum = f.outcome.sum := by
  have hsingles := Amount.sum_perm (h.singles.map Single.amount)
  have hfoundation := Outcome.sum_entries_perm h.foundation
  have hbootstraps := Outcome.sum_entries_perm h.bootstraps
  have hclaims := Outcome.sum_entries_perm h.flatten_claims
  simp only [Entry.sum_flatten] at hclaims
  rw [Findings.sum_outcome, Findings.sum_outcome, hsingles, hfoundation, hbootstraps, hclaims]

theorem skipped_outcome (h : f.IsReordering f') :
    f.outcome.skipped.Perm f'.outcome.skipped := by
  rw [Findings.skipped_outcome, Findings.skipped_outcome]
  exact (((h.singles.flatMap_right _).append (h.foundation.filterMap _)).append
    (h.bootstraps.filterMap _)).append (h.flatten_claims.filterMap _)

/-- The cohorts of single holdings change their places, and the others change their items. -/
theorem counted_outcome (h : f.IsReordering f') :
    ∃ cohorts, (f.outcome.counted.map (·.1)).Perm cohorts ∧
      List.Forall₂ Cohort.IsReordering cohorts (f'.outcome.counted.map (·.1)) := by
  have hfoundation := Outcome.forall₂_ofEntries .foundation
    (congrArg not h.foundation.isEmpty_eq.symm) h.foundation
  have hbootstraps := Outcome.forall₂_ofEntries .bootstraps
    (congrArg not h.bootstraps.isEmpty_eq.symm) h.bootstraps
  have hclaims := Outcome.forall₂_ofEntries .claims
    (congrArg not (h.flatten_claims.filterMap Outcome.item?).isEmpty_eq.symm) h.flatten_claims
  have hsingles := (h.singles.flatMap_right fun r => (Outcome.ofSingle r).counted).map (·.1)
  rw [Findings.counted_outcome, Findings.counted_outcome]
  simp only [List.map_append]
  refine ⟨_, ((hsingles.append_right _).append_right _).append_right _, ?_⟩
  have hsame := List.forall₂_same.mpr fun c (_ : c ∈ (f'.singles.flatMap fun r =>
    (Outcome.ofSingle r).counted).map (·.1)) => Cohort.IsReordering.refl c
  exact List.rel_append (List.rel_append (List.rel_append hsame hfoundation) hbootstraps) hclaims

end Findings.IsReordering

/-! ### The snapshot -/

namespace Snapshot

/-- Outcomes of the same entries in another order make up the same snapshot in another order. -/
theorem isReordering_ofOutcome {f f' : Findings} (h : f.IsReordering f') {p p' : Policy}
    (hp : p.IsReordering p') (policyEtag policyEtag' : Option String) (denom : String)
    (block : Block) (total : Nat) :
    (ofOutcome p policyEtag denom block total f.outcome).IsReordering
      (ofOutcome p' policyEtag' denom block total f'.outcome) := by
  have hsum : f'.outcome.sum = f.outcome.sum := h.sum_outcome
  constructor
  case denom | height | updatedAt | total => rfl
  case etag | circulating | sum => simp only [ofOutcome, hsum]
  case max => exact hp.maxSupply
  case cohorts => exact h.counted_outcome
  case skipped => exact h.skipped_outcome

/-- **The order of the entries does not matter.** Under a policy with its lists in another order,
over a source with its claims in another order, the computation of a snapshot fails alike, or yields
the same snapshot up to the order of its cohorts, of their items and of what is skipped. -/
theorem compute_reordering {p p' : Policy} (hp : p.IsReordering p') {S S' : Source}
    (hS : S.IsReordering S') (policyEtag policyEtag' : Option String) (denom : String) :
    (∃ why, (compute p policyEtag denom).eval S = .error why ∧
      (compute p' policyEtag' denom).eval S' = .error why) ∨
    ∃ s s', (compute p policyEtag denom).eval S = .ok s ∧
      (compute p' policyEtag' denom).eval S' = .ok s' ∧ s.IsReordering s' := by
  have hheight : S' .height = S .height := hS.eq_of_isClaims rfl
  have htotal : S' (.totalSupply denom) = S (.totalSupply denom) := hS.eq_of_isClaims rfl
  rw [eval_compute, eval_compute, hheight, htotal]
  cases S .height with
  | error why => exact .inl ⟨_, rfl, rfl⟩
  | ok block =>
    cases S (.totalSupply denom) with
    | error why => exact .inl ⟨_, rfl, rfl⟩
    | ok total =>
      exact .inr ⟨_, _, rfl, rfl,
        isReordering_ofOutcome (Findings.isReordering_gather hp hS) hp ..⟩

end Snapshot

/-! ### A small chain read backwards -/

/-- The same policy with its lists read backwards. -/
def Policy.reversed (p : Policy) : Policy :=
  { p with
    modules := p.modules.reverse
    foundation := p.foundation.reverse
    bootstraps := p.bootstraps.reverse }

/-- The same source with its lists of claims read backwards. -/
def Source.reversed (S : Source) : Source
  | .claims tier denom => (S (.claims tier denom)).map List.reverse
  | q => S q

theorem Policy.isReordering_reversed (p : Policy) : p.IsReordering p.reversed where
  maxSupply := rfl
  modules := (List.reverse_perm _).symm
  foundation := (List.reverse_perm _).symm
  bootstraps := (List.reverse_perm _).symm

theorem Source.isReordering_reversed (S : Source) : S.IsReordering S.reversed := by
  intro q
  cases q with
  | claims tier denom =>
    rw [Source.reversed]
    cases S (.claims tier denom) with
    | error why => exact rfl
    | ok records => exact (List.reverse_perm records).symm
  | _ => exact rfl

/-- A policy with two holdings of every kind, of which the small chain knows some. -/
def Policy.twofold : Policy where
  maxSupply := none
  modules := ["distribution", "gov"]
  foundation := [⟨"treasury", "f", none, none⟩, ⟨"reserve", "g", none, none⟩]
  bootstraps := [⟨none, "b", true, none, none, none⟩, ⟨none, "f", false, some 6, none, none⟩]

namespace Snapshot

theorem compute_reordering_small :
    ∃ s s', (compute .twofold none "ulume").eval Source.small = .ok s ∧
      (compute Policy.twofold.reversed none "ulume").eval Source.small.reversed = .ok s' ∧
      s.IsReordering s' := by
  rcases compute_reordering Policy.twofold.isReordering_reversed
    Source.small.isReordering_reversed none none "ulume" with ⟨why, hwhy, -⟩ | h
  · rw [eval_compute] at hwhy
    exact absurd hwhy (by simp [Source.small])
  · exact h

end Snapshot

end Circulation
