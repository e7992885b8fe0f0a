import Circulation.Proofs.Lock.Incomplete
import Circulation.Proofs.Snapshot.Entries

/-!
# Accounts with an incomplete lock

An account of the foundation whose lock lacks a time is skipped. It does not count as an account that
holds nothing: it has no item, and the amount of the cohort is that of the items of other accounts. This
is so at every time of the block, and in whatever way the account states no time.

## Main definitions

* `Circulation.Snapshot.LeavesOut` — an account that is skipped and has no part in its cohort.

## Main results

* `Circulation.Snapshot.leavesOut_of_incomplete` — an account with an incomplete lock is left out.
-/

namespace Circulation

open Json Numeral Program

namespace Snapshot

/-- A snapshot that skips an account, for a reason, in the cohort of a label: the account has no item in
the cohort, and the cohort sums up its items. -/
structure LeavesOut (s : Snapshot) (label : CohortLabel) (address reason : String) : Prop where
  skipped : ⟨label.name, some address, reason⟩ ∈ s.skipped
  listed : ∃ c ∈ s.nonCirculating.cohorts, c.name = label.name
  items : ∀ c ∈ s.nonCirculating.cohorts, c.name = label.name →
    ∀ item ∈ c.items.getD [], item.address ≠ address
  amount : ∀ c ∈ s.nonCirculating.cohorts, c.name = label.name →
    value c.amount = Amount.sum ((c.items.getD []).map fun item => value item.amount)

variable {policy : Policy} {policyEtag : Option String} {denom : String}
  {log : List (Sigma Query.Outcome)} {s : Snapshot} {f : Findings}

/-- An account of the foundation all of whose entries fail for one reason is left out. -/
theorem IsFoundBy.leavesOut (h : s.IsFoundBy policy denom log f) {e : FoundationEntry}
    (he : e ∈ policy.foundation) {why : SkipCause}
    (hfails : ∀ entry ∈ f.foundation, entry.address = some e.address → entry.result = .error why) :
    s.LeavesOut .foundation e.address why.message := by
  obtain ⟨answers, hcovers⟩ := h.covers
  have hitems {c : Cohort} (hc : c ∈ s.nonCirculating.cohorts)
      (hname : c.name = CohortLabel.foundation.name) :
      c.items.getD [] = Parts.counted f.parts.foundation :=
    h.consists.items_foundation hcovers.parts hc hname
  refine ⟨?_, ?_, ?_, ?_⟩
  · obtain ⟨entry, hentry, haddress⟩ := exists_mem_of_forall₂ hcovers.foundation.flip he
    have hpart : entry.part .foundation =
        .inr ⟨CohortLabel.foundation.name, some e.address, why.message⟩ := by
      rw [Entry.part, hfails entry hentry haddress, haddress]
    have hskip : ⟨_, _, _⟩ ∈ Parts.skipped f.parts.foundation :=
      List.mem_filterMap.mpr ⟨_, List.mem_map.mpr ⟨entry, hentry, hpart⟩, rfl⟩
    rw [h.consists.skipped]
    simp only [List.mem_append]
    exact .inl (.inl (.inr hskip))
  · obtain ⟨foundation, bootstraps, claims, hcohorts, hfoundation, -, -⟩ := h.consists.cohorts
    rcases hfoundation with ⟨hnone, -⟩ | ⟨-, c, rfl, hname, -⟩
    · exact absurd (List.ne_nil_of_mem he) hnone
    · refine ⟨c, ?_, hname⟩
      rw [hcohorts]
      simp
  · intro c hc hname item hitem haddress
    rw [hitems hc hname] at hitem
    obtain ⟨part, hpart, hleft⟩ := List.mem_filterMap.mp hitem
    obtain ⟨entry, hentry, rfl⟩ := List.mem_map.mp hpart
    obtain ⟨account, -, haccount⟩ := exists_mem_of_forall₂ hcovers.foundation hentry
    -- an entry that is counted has no reason to be skipped
    cases hresult : entry.result with
    | error why' =>
      rw [Entry.part, hresult] at hleft
      exact absurd hleft (by simp)
    | ok portion =>
      rw [Entry.part, hresult] at hleft
      obtain rfl := Option.some.inj hleft
      have hentryAddress : entry.address = some e.address := by
        rw [haccount] at haddress ⊢
        exact congrArg some haddress
      exact absurd (hresult.symm.trans (hfails entry hentry hentryAddress)) (by simp)
  · intro c hc hname
    exact (h.balanced c hc).value_amount (by decide) hname

/-- **An account with an incomplete lock is left out.** Take an account that is decoded to a lock of
which something is granted, and that lacks a time which the lock needs: the account states none, in
whatever way. Then the lock is not evaluated at any instant, for want of the first such time, and every
snapshot whose answers for an address of the foundation are that account skips the address for this
reason. -/
theorem leavesOut_of_incomplete {account : Json} {lock : AccountLock} {granted : Nat}
    {time : LockTime} (hdecoded : AccountLock.ofJson account = .ok lock)
    (hgranted : AccountLock.amountOf lock.grantedCoins denom = .ok granted) (hpositive : 0 < granted)
    (hneeds : time ∈ lock.needs) (hnone : lock.time? time = none) :
    (∀ time, lock.time? time = none ↔ LacksTime (AccountLock.statedTime? account time)) ∧
    ∃ missing ∈ lock.needs, lock.time? missing = none ∧
      (∀ now, lock.lockedAt denom now = .error (.incomplete lock.kind missing)) ∧
      ∀ (policy : Policy) (policyEtag : Option String) (log : List (Sigma Query.Outcome))
        (s : Snapshot) (e : FoundationEntry),
        (compute policy policyEtag denom).Run log (.ok s) → e ∈ policy.foundation →
        (∀ answer, (⟨.account e.address, answer⟩ : Sigma Query.Outcome) ∈ log →
          answer = AccountLock.ofJson account) →
        s.LeavesOut .foundation e.address
          (LockFailure.lock (.incomplete lock.kind missing)).message := by
  obtain ⟨missing, hmissing⟩ := AccountLock.exists_missing? hneeds hnone
  have hlocked := AccountLock.lockedAt_of_missing? hgranted hpositive hmissing
  refine ⟨AccountLock.time?_eq_none_iff hdecoded, missing, List.mem_of_find?_eq_some hmissing, ?_,
    hlocked, fun policy policyEtag log s e hrun he hanswers => ?_⟩
  · exact Option.isNone_iff_eq_none.mp (by simpa using List.find?_some hmissing)
  · obtain ⟨f, hf⟩ := exists_isFoundBy_of_run hrun
    show s.LeavesOut .foundation e.address (SkipCause.lock (.lock _)).message
    refine hf.leavesOut he fun entry hentry haddress => ?_
    obtain ⟨account', -, part, hpart, hentryRun⟩ := exists_mem_of_forall₂ hf.foundation hentry
    obtain ⟨answer, rfl, rfl⟩ := Entry.run_ofFoundation_iff.mp hentryRun
    have hsame : account'.address = e.address := Option.some.inj haddress
    have hanswer : answer = AccountLock.ofJson account :=
      hanswers answer (hsame ▸ hpart.subset List.mem_cons_self)
    show (Entry.lockedPortion denom s.updatedAt answer).mapError SkipCause.lock = _
    rw [hanswer, hdecoded, Entry.lockedPortion, hlocked]
    rfl

/-- A delayed lock whose end is the number zero. -/
def accountWithoutEnd : Json :=
  .object [("@type", .string "/cosmos.vesting.v1beta1.DelayedVestingAccount"),
    ("base_vesting_account", .object [("end_time", .number (.int 0)), ("original_vesting",
      .array [.object [("amount", .string "300"), ("denom", .string "ulume")]])])]

/-- The small chain with such an account in the foundation. -/
def sourceWithoutEnd : Source
  | .account address =>
    if address = "f" then AccountLock.ofJson accountWithoutEnd else .error (.missing "account")
  | q => Source.small q

theorem leavesOut_of_incomplete_small :
    ∃ log s, (compute .small none "ulume").Run log (.ok s) ∧
      s.LeavesOut .foundation "f" "lock: Delayed account without end_time" := by
  have hdecoded : AccountLock.ofJson accountWithoutEnd =
      .ok ⟨"/cosmos.vesting.v1beta1.DelayedVestingAccount", .delayed, [⟨"ulume", "300"⟩], none, none, [],
        []⟩ :=
    eq_ok_of_toOption (by decide +kernel)
  have hgranted : AccountLock.amountOf [⟨"ulume", "300"⟩] "ulume" = .ok 300 :=
    eq_ok_of_toOption (by decide)
  have hnone := (AccountLock.time?_eq_none_iff hdecoded .stop).mpr (StatesNoTime.lacksTime .zero)
  obtain ⟨-, missing, hmissing, -, -, hleaves⟩ :=
    leavesOut_of_incomplete hdecoded hgranted (by decide) List.mem_cons_self hnone
  obtain rfl := List.mem_singleton.mp hmissing
  have hrun := run_eval sourceWithoutEnd (compute .small none "ulume")
  rw [eval_compute] at hrun
  refine ⟨_, _, hrun, hleaves .small none _ _ _ hrun List.mem_cons_self fun answer hanswer => ?_⟩
  obtain ⟨q, -, hq⟩ := List.mem_map.mp hanswer
  obtain ⟨rfl, hsource⟩ := Sigma.mk.inj hq
  exact (eq_of_heq hsource).symm

end Snapshot

end Circulation
