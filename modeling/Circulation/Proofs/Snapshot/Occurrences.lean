import Mathlib.Data.List.Perm.Basic
import Circulation.Proofs.Snapshot.Balance
import Circulation.Proofs.Snapshot.Parts
import Circulation.Proofs.Snapshot.Sum

/-!
# What an address is counted for

An address may occur several times under a policy: as that of a module account, in the lists of the
policy and in the lists of claims. It is never counted more often than it occurs: every occurrence is
counted by one cohort or item, or is skipped. What is counted for addresses, together with what is
counted as a whole, is the sum.

## Main definitions

* `Circulation.Policy.occurrences` — every occurrence of an address in a run under a policy.
* `Circulation.Snapshot.contributions` — the addresses that a snapshot counts something for, with
  the amounts; `Circulation.Snapshot.timesCounted` is how often it counts something for an address.

## Main results

* `Circulation.Findings.perm_addresses` — every occurrence is counted or skipped.
* `Circulation.Snapshot.perm_occurrences` — a snapshot counts or skips the occurrences of its run.
-/

namespace Circulation

open Numeral Program

/-- The addresses that an answer names: that of a module account, or those of claims. -/
def Query.addresses : (q : Query) → q.Outcome → List String
  | .moduleAddress _, .ok address => [address]
  | .claims _ _, .ok records => records.map (·.address)
  | _, _ => []

/-- Every occurrence of an address under a policy: in the answers of a run, among the accounts of
the foundation and among the bootstrap accounts. -/
def Policy.occurrences (policy : Policy) (log : List (Sigma Query.Outcome)) : List String :=
  log.flatMap (fun x => x.1.addresses x.2) ++ policy.foundation.map (·.address) ++
    policy.bootstraps.map (·.address)

/-- The addresses that a cohort counts something for, with the amounts: its own, and those of its
items. -/
def Cohort.contributions (c : Cohort) : List (String × Nat) :=
  c.address.toList.map (fun address => (address, value c.amount)) ++
    (c.items.getD []).map fun item => (item.address, value item.amount)

/-- What a cohort that names no account counts for. -/
def Cohort.wholeAmount (c : Cohort) : Nat :=
  if c.address = none ∧ c.items = none then value c.amount else 0

namespace Snapshot

/-- The addresses that a snapshot counts something for, with the amounts. -/
def contributions (s : Snapshot) : List (String × Nat) :=
  s.nonCirculating.cohorts.flatMap Cohort.contributions

/-- What the cohorts that name no account count for. -/
def wholeAmount (s : Snapshot) : Nat :=
  Amount.sum (s.nonCirculating.cohorts.map Cohort.wholeAmount)

/-- How often a snapshot counts an amount other than 0 for an address. -/
def timesCounted (s : Snapshot) (address : String) : Nat :=
  s.contributions.countP fun c => c.1 == address && c.2 != 0

end Snapshot

/-! ### The occurrences of a run -/

/-- The address of a cohort that is counted as one, or under which it is skipped. -/
def Single.address? : Single → Option String
  | .ok (cohort, _) => cohort.address
  | .error skip => skip.address

/-- Questions whose answers name no address. -/
def Query.NamesNothing (q : Query) : Prop :=
  ∀ answer, q.addresses answer = []

/-- A run of a program whose answers name no address has no occurrences. -/
theorem Asking.flatMap_addresses_eq_nil {α : Type} {p : Asking α} {asks : Query → Prop}
    {result : α → Prop} (hp : p.Ensures asks result) (hasks : ∀ q, asks q → q.NamesNothing)
    {log : List (Sigma Query.Outcome)} {a : α} (h : p.Run log a) :
    log.flatMap (fun x => x.1.addresses x.2) = [] := by
  rw [List.flatMap_eq_nil_iff]
  intro x hx
  exact hasks x.1 ((hp.of_run h).2 x hx) x.2

namespace Entry

theorem filterMap_address {α : Type} {address : α → String} {as : List α} {entries : List Entry}
    (h : List.Forall₂ (fun a (e : Entry) => e.address = some (address a)) as entries) :
    entries.filterMap (·.address) = as.map address := by
  induction h with
  | nil => rfl
  | cons head _ ih => rw [List.filterMap_cons_some head, List.map_cons, ih]

/-- The occurrences in a tier are the addresses of its entries. -/
theorem flatMap_addresses_of_run {denom : String} {now : Instant} {tier : ClaimTier}
    {log : List (Sigma Query.Outcome)} {entries : List Entry}
    (h : (ofTier denom now tier).Run log entries) :
    log.flatMap (fun x => x.1.addresses x.2) = entries.filterMap (·.address) := by
  obtain ⟨answer, rest, hrest, rfl⟩ := run_ask_iff.mp h
  rw [List.flatMap_cons]
  cases answer with
  | error why =>
    obtain ⟨rfl, rfl⟩ := run_done_iff.mp hrest
    rfl
  | ok records =>
    have hspec : (forEach (ofClaim denom now tier) records).Ensures Query.NamesNothing
        (List.Forall₂ (fun record e => e.address = some record.address) records) :=
      .forEach fun record _ => (ensures_ofClaim denom now tier record).weaken (by
        rintro q (rfl | rfl) answer <;> rfl)
    have hquiet := Asking.flatMap_addresses_eq_nil hspec (fun _ => id) hrest
    have hentries := (hspec.of_run hrest).1
    rw [hquiet, filterMap_address hentries, List.append_nil]
    rfl

end Entry

namespace Single

variable {denom name : String} {log : List (Sigma Query.Outcome)} {r : Single}

theorem flatMap_addresses_ofEscrow (h : (ofEscrow denom).Run log r) :
    log.flatMap (fun x => x.1.addresses x.2) = r.address?.toList := by
  obtain ⟨answer, rest, hrest, rfl⟩ := run_ask_iff.mp h
  cases answer with
  | error why | ok amount =>
    obtain ⟨rfl, rfl⟩ := run_done_iff.mp hrest
    rfl

theorem flatMap_addresses_ofCommunityPool (h : (ofCommunityPool denom).Run log r) :
    log.flatMap (fun x => x.1.addresses x.2) = r.address?.toList := by
  obtain ⟨answer, rest, hrest, rfl⟩ := run_ask_iff.mp h
  cases answer with
  | error why =>
    obtain ⟨rfl, rfl⟩ := run_done_iff.mp hrest
    rfl
  | ok raw =>
    dsimp only [done_bind] at hrest
    cases hfloor : Amount.floor raw with
    | error why | ok amount =>
      rw [hfloor] at hrest
      obtain ⟨rfl, rfl⟩ := run_done_iff.mp hrest
      rfl

/-- The occurrence of a module account is the address of its finding. -/
theorem flatMap_addresses_ofModule (h : (ofModule denom name).Run log r) :
    log.flatMap (fun x => x.1.addresses x.2) = r.address?.toList := by
  obtain ⟨resolved, rest, hrest, rfl⟩ := run_ask_iff.mp h
  cases resolved with
  | error why =>
    obtain ⟨rfl, rfl⟩ := run_done_iff.mp hrest
    rfl
  | ok address =>
    obtain ⟨balance, last, hlast, rfl⟩ := run_ask_iff.mp hrest
    cases balance with
    | error why | ok amount =>
      obtain ⟨rfl, rfl⟩ := run_done_iff.mp hlast
      rfl

end Single

namespace Findings

/-- The addresses of findings. -/
def addresses (f : Findings) : List String :=
  f.singles.flatMap (·.address?.toList) ++ f.claims.flatten.filterMap (·.address) ++
    f.foundation.filterMap (·.address) ++ f.bootstraps.filterMap (·.address)

/-- **The occurrences of a run are the addresses of its findings.** -/
theorem occurrences_eq_addresses {policy : Policy} {denom : String} {now : Instant}
    {log : List (Sigma Query.Outcome)} {f : Findings} (h : (gather policy denom now).Run log f) :
    policy.occurrences log = f.addresses := by
  obtain ⟨answers, -, hcovers⟩ := run_gather h
  obtain ⟨escrow, pool, modules, logE, logP, logM, logF, logB, logC, hsingles, rfl,
    hE, hP, hM, hF, hB, hC⟩ := runs_of_run_gather h
  have hescrow := Single.flatMap_addresses_ofEscrow hE
  have hpool := Single.flatMap_addresses_ofCommunityPool hP
  have hmodules := flatMap_of_run_forEach
    (fun name _ _ _ => Single.flatMap_addresses_ofModule) hM
  have hclaims := flatMap_of_run_forEach
    (fun tier _ _ _ => Entry.flatMap_addresses_of_run) hC
  -- the accounts of the policy are named by the policy and not by the answers about them
  have hfoundation : (forEach (Entry.ofFoundation denom now) policy.foundation).Ensures
      Query.NamesNothing _ :=
    .forEach fun account _ => (Entry.ensures_ofFoundation denom now account).weaken (by
      rintro q rfl answer
      rfl)
  have hbootstraps : (forEach (Entry.ofBootstrap denom now) policy.bootstraps).Ensures
      Query.NamesNothing _ :=
    .forEach fun account _ => (Entry.ensures_ofBootstrap denom now account).weaken (by
      rintro q (rfl | rfl) answer <;> rfl)
  have hquietF := Asking.flatMap_addresses_eq_nil hfoundation (fun _ => id) hF
  have hquietB := Asking.flatMap_addresses_eq_nil hbootstraps (fun _ => id) hB
  rw [Policy.occurrences, addresses, hsingles, Entry.filterMap_address hcovers.foundation,
    Entry.filterMap_address hcovers.bootstraps, List.filterMap_flatten]
  simp only [List.flatMap_append, List.flatMap_cons, hescrow, hpool, hmodules, hquietF, hquietB,
    hclaims, List.append_assoc]
  rfl

end Findings

/-! ### The contributions to an outcome -/

namespace Outcome

/-- The addresses of an outcome: those that its cohorts count something for, and those skipped. -/
def addresses (o : Outcome) : List String :=
  o.counted.flatMap (fun c => c.1.contributions.map (·.1)) ++ o.skipped.filterMap (·.address)

theorem perm_addresses_concat (outcomes : List Outcome) :
    (concat outcomes).addresses.Perm (outcomes.flatMap addresses) := by
  have hsplit := List.flatMap_append_perm outcomes
    (fun o => o.counted.flatMap fun c => c.1.contributions.map (·.1))
    (fun o => o.skipped.filterMap (·.address))
  have hjoin : (concat outcomes).addresses =
      (outcomes.flatMap fun o => o.counted.flatMap fun c => c.1.contributions.map (·.1)) ++
        outcomes.flatMap fun o => o.skipped.filterMap (·.address) := by
    rw [addresses, concat, List.flatMap_assoc, List.filterMap_flatMap]
  rw [hjoin]
  exact hsplit

theorem addresses_ofSingle {label : CohortLabel} {r : Single} (h : r.IsOf label) :
    (ofSingle r).addresses = r.address?.toList := by
  cases r with
  | ok counted =>
    obtain ⟨cohort, amount⟩ := counted
    obtain ⟨-, hitems, -⟩ := h
    change cohort.items = none at hitems
    cases haddress : cohort.address <;>
      simp [ofSingle, addresses, Cohort.contributions, Single.address?, hitems, haddress]
  | error skip =>
    cases haddress : skip.address <;> simp [ofSingle, addresses, Single.address?, haddress]

/-- A cohort of items counts their amounts for their addresses. -/
theorem contributions_cohortOf (label : CohortLabel) (items : List (CohortItem × Nat)) :
    (cohortOf label items).1.contributions =
      items.map fun x => (x.1.address, value x.1.amount) := by
  have haddress : (cohortOf label items).1.address = none := rfl
  rw [Cohort.contributions, items_cohortOf, haddress, List.map_map]
  rfl

/-- An entry that counts for something has an address. -/
def HasAddress (e : Entry) : Prop :=
  ∀ portion, e.result = .ok portion → e.address ≠ none

theorem hasAddress_of_forall₂ {α : Type} {address : α → String} {as : List α}
    {entries : List Entry}
    (h : List.Forall₂ (fun a (e : Entry) => e.address = some (address a)) as entries) :
    ∀ e ∈ entries, HasAddress e := by
  intro e he portion _
  obtain ⟨a, -, haddress⟩ := exists_mem_of_forall₂ h he
  rw [haddress]
  exact Option.some_ne_none _

/-- Every entry of a cohort with an address is counted by one item or skipped. -/
theorem perm_addresses_entries (name : String) {entries : List Entry}
    (h : ∀ e ∈ entries, HasAddress e) :
    ((entries.filterMap item?).map (·.1.address) ++
        (entries.filterMap (skip? name)).filterMap (·.address)).Perm
      (entries.filterMap (·.address)) := by
  induction entries with
  | nil => exact .nil
  | cons e entries ih =>
    obtain ⟨he, hentries⟩ := List.forall_mem_cons.mp h
    have htail := ih hentries
    obtain ⟨address, result⟩ := e
    cases result with
    | ok portion =>
      obtain ⟨a, rfl⟩ := Option.ne_none_iff_exists'.mp (he portion rfl)
      exact htail.cons a
    | error why =>
      cases address with
      | none => exact htail
      | some a => exact List.perm_middle.trans (htail.cons a)

theorem perm_addresses_ofEntries (label : CohortLabel) {listed : Bool} {entries : List Entry}
    (hlisted : listed = false → entries.filterMap item? = [])
    (h : ∀ e ∈ entries, HasAddress e) :
    (ofEntries label listed entries).addresses.Perm (entries.filterMap (·.address)) := by
  have hcounted : (ofEntries label listed entries).counted.flatMap
      (fun c => c.1.contributions.map (·.1)) = (entries.filterMap item?).map (·.1.address) := by
    cases listed with
    | false =>
      rw [hlisted rfl]
      rfl
    | true =>
      rw [ofEntries, if_pos rfl, List.flatMap_singleton, contributions_cohortOf, List.map_map]
      rfl
  rw [addresses, hcounted]
  exact perm_addresses_entries label.name h

end Outcome

namespace Findings

/-- Only the entry of a tier whose claims are not known lacks an address. -/
theorem Covers.hasAddress_claims {policy : Policy}
    {claims : ClaimTier → Except QueryError (List ClaimRecord)} {f : Findings}
    (h : f.Covers policy claims) : ∀ e ∈ f.claims.flatten, Outcome.HasAddress e := by
  intro e he
  obtain ⟨entries, hentries, he⟩ := List.mem_flatten.mp he
  obtain ⟨tier, -, htier⟩ := exists_mem_of_forall₂ h.claims hentries
  cases hanswer : claims tier with
  | error why =>
    rw [hanswer] at htier
    obtain ⟨cause, rfl⟩ := htier
    obtain rfl := List.mem_singleton.mp he
    intro portion hportion
    exact absurd hportion (by simp)
  | ok records =>
    rw [hanswer] at htier
    exact Outcome.hasAddress_of_forall₂ htier e he

/-- **Every occurrence is counted or skipped, once.** -/
theorem perm_addresses {policy : Policy}
    {claims : ClaimTier → Except QueryError (List ClaimRecord)} {f : Findings}
    (h : f.Covers policy claims) : f.outcome.addresses.Perm f.addresses := by
  have hsingles : (f.singles.map Outcome.ofSingle).flatMap Outcome.addresses =
      f.singles.flatMap (·.address?.toList) := by
    rw [List.flatMap_map]
    refine List.flatMap_congr fun r hr => ?_
    obtain ⟨label, -, hof⟩ := h.isOf_of_mem hr
    exact Outcome.addresses_ofSingle hof
  have hfoundation := Outcome.hasAddress_of_forall₂ h.foundation
  have hbootstraps := Outcome.hasAddress_of_forall₂ h.bootstraps
  have houtcome : f.outcome.addresses.Perm (f.singles.flatMap (·.address?.toList) ++
      (f.foundation.filterMap (·.address) ++ (f.bootstraps.filterMap (·.address) ++
        f.claims.flatten.filterMap (·.address)))) := by
    refine (Outcome.perm_addresses_concat _).trans ?_
    rw [List.flatMap_append, hsingles]
    simp only [List.flatMap_cons, List.flatMap_nil, List.append_nil]
    refine .append_left _ (.append ?_ (.append ?_ ?_))
    · exact Outcome.perm_addresses_ofEntries _ Outcome.items_eq_nil_of_isEmpty hfoundation
    · exact Outcome.perm_addresses_ofEntries _ Outcome.items_eq_nil_of_isEmpty hbootstraps
    · exact Outcome.perm_addresses_ofEntries _ (by simp) h.hasAddress_claims
  simp only [addresses, List.append_assoc]
  refine houtcome.trans (.append_left _ ?_)
  rw [← List.append_assoc]
  exact List.perm_append_comm

/-- No cohort has both an address of its own and items. -/
theorem address_or_items_eq_none {policy : Policy}
    {claims : ClaimTier → Except QueryError (List ClaimRecord)} {f : Findings}
    (h : f.Covers policy claims) :
    ∀ c ∈ f.outcome.counted, c.1.address = none ∨ c.1.items = none := by
  intro c hc
  rcases h.mem_counted hc with ⟨label, -, hof⟩ | ⟨label, entries, -, rfl⟩
  · exact .inr hof.2.1
  · exact .inl rfl

end Findings

/-! ### The snapshot -/

/-- A balanced cohort counts for what it counts for as a whole and what it counts for addresses. -/
theorem Cohort.value_amount_eq {c : Cohort} (hc : c.IsBalanced)
    (hone : c.address = none ∨ c.items = none) :
    value c.amount = c.wholeAmount + Amount.sum (c.contributions.map (·.2)) := by
  cases haddress : c.address with
  | some address =>
    have hitems : c.items = none := hone.resolve_left (by simp [haddress])
    simp [wholeAmount, contributions, haddress, hitems]
  | none =>
    cases hitems : c.items with
    | none => simp [wholeAmount, contributions, haddress, hitems]
    | some items =>
      have hsum := hc.sum_items items hitems
      simp only [wholeAmount, contributions, haddress, hitems, hsum]
      simp [Function.comp_def]

namespace Snapshot

theorem sum_cohorts_eq {cohorts : List Cohort}
    (h : ∀ c ∈ cohorts, value c.amount = c.wholeAmount + Amount.sum (c.contributions.map (·.2))) :
    Amount.sum (cohorts.map fun c => value c.amount) =
      Amount.sum (cohorts.map Cohort.wholeAmount) +
        Amount.sum ((cohorts.flatMap Cohort.contributions).map (·.2)) := by
  induction cohorts with
  | nil => rfl
  | cons c cohorts ih =>
    obtain ⟨hc, hcohorts⟩ := List.forall_mem_cons.mp h
    have htail := ih hcohorts
    simp only [List.map_cons, List.flatMap_cons, List.map_append, Amount.sum_cons,
      Amount.sum_append]
    omega

theorem timesCounted_le_count_contributions (s : Snapshot) (address : String) :
    s.timesCounted address ≤ (s.contributions.map (·.1)).count address := by
  rw [List.count, List.countP_map]
  refine List.countP_mono_left fun c _ hc => ?_
  simp only [Bool.and_eq_true] at hc
  exact hc.1

/-- A snapshot counts or skips every occurrence of an address in its run. -/
theorem perm_occurrences {policy : Policy} {policyEtag : Option String} {denom : String}
    {log : List (Sigma Query.Outcome)} {s : Snapshot}
    (h : (compute policy policyEtag denom).Run log (.ok s)) :
    (s.contributions.map (·.1) ++ s.skipped.filterMap (·.address)).Perm (policy.occurrences log) := by
  obtain ⟨block, total, log', f, rfl, hf, rfl⟩ := run_compute h
  obtain ⟨answers, -, hcovers⟩ := Findings.run_gather hf
  have haddresses := Findings.perm_addresses hcovers
  rw [← Findings.occurrences_eq_addresses hf, Outcome.addresses] at haddresses
  simp only [contributions, ofOutcome, List.flatMap_map, List.map_flatMap]
  exact haddresses

/-- What a snapshot counts for addresses and what it counts as a whole make up its sum. -/
theorem sum_eq_of_run {policy : Policy} {policyEtag : Option String} {denom : String}
    {log : List (Sigma Query.Outcome)} {s : Snapshot}
    (h : (compute policy policyEtag denom).Run log (.ok s)) :
    value s.nonCirculating.sum = s.wholeAmount + Amount.sum (s.contributions.map (·.2)) := by
  obtain ⟨block, total, log', f, rfl, hf, rfl⟩ := run_compute h
  have hbalanced := isBalanced_of_gather hf policyEtag total
  obtain ⟨answers, -, hcovers⟩ := Findings.run_gather hf
  rw [hbalanced.sum_cohorts]
  refine sum_cohorts_eq fun c hc => Cohort.value_amount_eq (hbalanced.cohorts c hc) ?_
  obtain ⟨x, hx, rfl⟩ := List.mem_map.mp hc
  exact Findings.address_or_items_eq_none hcovers x hx

end Snapshot

end Circulation
