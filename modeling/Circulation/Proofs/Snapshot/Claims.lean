import Circulation.Proofs.Snapshot.Entries
import Circulation.Proofs.Snapshot.Passing

/-!
# How a claim is settled

The lock of the address that claimed comes first: where it is known it settles the claim, also if it
holds nothing, and the record of the claim is not looked at. Where it is not known the record settles
the claim as a delayed lock. It begins with the time of the claim, or else with the time of the block,
and ends after the months of the tier; it holds the amount of the record, or else the balance of the
address. The claim is skipped if the months leave the supported years, or if the record has no amount
and the balance is not known.

A delayed lock that begins with the block is still closed at the time of the block, so a claim whose
record has no time counts for its whole amount at all times.

## Main definitions

* `Circulation.ClaimRecord.IsWorth` — the amount of a claim, and the answer that it takes.
* `Circulation.Entry.SettlesClaim` — what comes of a claim, and the answers that it takes.
* `Circulation.Entry.SettlesTier` — what comes of the claims of a tier.

## Main results

* `Circulation.Entry.run_ofClaim_iff` — a claim is settled in one of these ways.
* `Circulation.Entry.SettlesClaim.eq_error_iff` — when a claim is skipped.
* `Circulation.Entry.SettlesClaim.eq_of_time_eq_none` — a claim without a time counts in full.
* `Circulation.Snapshot.settles_claims` — so are all claims in every snapshot.
-/

namespace Circulation

open Program

/-- The amount of a claim by its record, or else the answer for the balance of its address. -/
inductive ClaimRecord.IsWorth (denom : String) (record : ClaimRecord) :
    List (Sigma Query.Outcome) → Except QueryError Nat → Prop
  | stated {amount : Nat} (hamount : record.amount = some amount) :
      IsWorth denom record [] (.ok amount)
  | balance {answer : Except QueryError Nat} (hamount : record.amount = none) :
      IsWorth denom record [⟨.balance record.address denom, answer⟩] answer

namespace ClaimRecord.IsWorth

variable {denom : String} {record : ClaimRecord} {log : List (Sigma Query.Outcome)}

/-- The amount is determined by the answers that it takes. -/
theorem unique {worth worth' : Except QueryError Nat} (h : record.IsWorth denom log worth)
    (h' : record.IsWorth denom log worth') : worth = worth' := by
  cases h with
  | stated hamount =>
    cases h' with
    | stated hamount' => exact congrArg _ (Option.some.inj (hamount.symm.trans hamount'))
  | balance hamount =>
    cases h' with
    | balance _ => rfl

/-- The amount is not known exactly if the record has none and the balance is not known. -/
theorem exists_error_iff {worth : Except QueryError Nat} (h : record.IsWorth denom log worth) :
    (∃ why, worth = .error why) ↔
      record.amount = none ∧ ∃ why, log = [⟨.balance record.address denom, .error why⟩] := by
  cases h with
  | stated hamount =>
    exact iff_of_false (fun ⟨why, hwhy⟩ => nomatch hwhy) fun ⟨hnone, _⟩ =>
      nomatch hamount.symm.trans hnone
  | @balance answer hamount =>
    constructor
    · rintro ⟨why, rfl⟩
      exact ⟨hamount, why, rfl⟩
    · rintro ⟨-, why, hlog⟩
      obtain ⟨hfirst, -⟩ := List.cons.inj hlog
      exact ⟨why, eq_of_heq (Sigma.mk.inj hfirst).2⟩

end ClaimRecord.IsWorth

namespace Entry

/-- What comes of a claim by its record, where the lock of its address is not known for a reason, and
the answers that it takes. -/
inductive SettlesByRecord (denom : String) (now : Instant) (tier : ClaimTier) (record : ClaimRecord)
    (why : LockFailure) : List (Sigma Query.Outcome) → Except SkipCause Portion → Prop
  /-- Before the end of its months the claim holds its amount. -/
  | closed {log : List (Sigma Query.Outcome)} {stop : Instant} {amount : Nat}
      (hstop : (record.time.getD now).addMonths (6 * tier.number) = .ok stop)
      (hworth : record.IsWorth denom log (.ok amount)) (hnow : now.nanos < stop.nanos) :
      SettlesByRecord denom now tier record why log (.ok ⟨amount, .at stop⟩)
  /-- From the end of its months on the claim holds nothing. -/
  | opened {log : List (Sigma Query.Outcome)} {stop : Instant} {amount : Nat}
      (hstop : (record.time.getD now).addMonths (6 * tier.number) = .ok stop)
      (hworth : record.IsWorth denom log (.ok amount)) (hnow : stop.nanos ≤ now.nanos) :
      SettlesByRecord denom now tier record why log (.ok ⟨0, .at stop⟩)
  /-- The months leave the supported years, and nothing more is asked. -/
  | unsupported {whyMonths : ReadError}
      (hmonths : (record.time.getD now).addMonths (6 * tier.number) = .error whyMonths) :
      SettlesByRecord denom now tier record why [] (.error (.claimMonths whyMonths))
  /-- The amount is not known. -/
  | unknown {log : List (Sigma Query.Outcome)} {stop : Instant} {whyBalance : QueryError}
      (hstop : (record.time.getD now).addMonths (6 * tier.number) = .ok stop)
      (hworth : record.IsWorth denom log (.error whyBalance)) :
      SettlesByRecord denom now tier record why log (.error (.claimBalance why whyBalance))

/-- What comes of a claim, and the answers that it takes. -/
inductive SettlesClaim (denom : String) (now : Instant) (tier : ClaimTier) (record : ClaimRecord) :
    List (Sigma Query.Outcome) → Except SkipCause Portion → Prop
  /-- The lock is known, and nothing more is asked. -/
  | locked {answer : Except QueryError AccountLock} {portion : Portion}
      (hportion : lockedPortion denom now answer = .ok portion) :
      SettlesClaim denom now tier record [⟨.account record.address, answer⟩] (.ok portion)
  /-- The lock is not known, and the record counts. -/
  | recorded {answer : Except QueryError AccountLock} {rest : List (Sigma Query.Outcome)}
      {why : LockFailure} {result : Except SkipCause Portion}
      (hwhy : lockedPortion denom now answer = .error why)
      (hrecord : SettlesByRecord denom now tier record why rest result) :
      SettlesClaim denom now tier record (⟨.account record.address, answer⟩ :: rest) result

variable {denom : String} {now : Instant} {tier : ClaimTier} {record : ClaimRecord}
  {log rest : List (Sigma Query.Outcome)} {answer : Except QueryError AccountLock}
  {why : LockFailure} {result : Except SkipCause Portion}

/-! ### Runs over a claim -/

theorem run_claimAmount_iff {amount : Except SkipCause Nat} :
    (claimAmount denom record why).Run log amount ↔
      ∃ worth, record.IsWorth denom log worth ∧ amount = worth.mapError (.claimBalance why) := by
  unfold claimAmount
  cases hamount : record.amount with
  | some stated =>
    constructor
    · intro h
      obtain ⟨rfl, rfl⟩ := run_done_iff.mp h
      exact ⟨.ok stated, .stated hamount, rfl⟩
    · rintro ⟨worth, hworth, rfl⟩
      cases hworth with
      | stated hstated =>
        obtain rfl := Option.some.inj (hamount.symm.trans hstated)
        exact .done _
      | balance hnone => exact nomatch hamount.symm.trans hnone
  | none =>
    constructor
    · intro h
      obtain ⟨answer, _, hrest, rfl⟩ := run_ask_iff.mp h
      obtain ⟨rfl, rfl⟩ := run_done_iff.mp hrest
      exact ⟨answer, .balance hamount, rfl⟩
    · rintro ⟨worth, hworth, rfl⟩
      cases hworth with
      | stated hstated => exact nomatch hamount.symm.trans hstated
      | balance hnone => exact run_ask_iff.mpr ⟨worth, [], .done _, rfl⟩

theorem untilEnd_of_lt {stop : Instant} (h : now.nanos < stop.nanos) (amount : Nat) :
    untilEnd amount now (.at stop) = ⟨amount, .at stop⟩ :=
  congrArg (Portion.mk · _) (if_pos h)

theorem untilEnd_of_le {stop : Instant} (h : stop.nanos ≤ now.nanos) (amount : Nat) :
    untilEnd amount now (.at stop) = ⟨0, .at stop⟩ :=
  congrArg (Portion.mk · _) (if_neg (Int.not_lt.mpr h))

/-- By its record a claim is a delayed lock of its amount. -/
theorem settlesByRecord_untilEnd {stop : Instant} {amount : Nat}
    (hstop : (record.time.getD now).addMonths (6 * tier.number) = .ok stop)
    (hworth : record.IsWorth denom log (.ok amount)) :
    SettlesByRecord denom now tier record why log (.ok (untilEnd amount now (.at stop))) := by
  rcases Int.lt_or_le now.nanos stop.nanos with hnow | hnow
  · rw [untilEnd_of_lt hnow]
    exact .closed hstop hworth hnow
  · rw [untilEnd_of_le hnow]
    exact .opened hstop hworth hnow

theorem SettlesByRecord.eq_untilEnd {stop : Instant}
    (h : SettlesByRecord denom now tier record why log result)
    (hstop : (record.time.getD now).addMonths (6 * tier.number) = .ok stop) :
    ∃ worth, record.IsWorth denom log worth ∧
      result = (worth.mapError (.claimBalance why)).map fun amount => untilEnd amount now (.at stop) := by
  cases h with
  | closed hstop' hworth hnow =>
    obtain rfl := Except.ok.inj (hstop.symm.trans hstop')
    exact ⟨_, hworth, congrArg Except.ok (untilEnd_of_lt hnow _).symm⟩
  | opened hstop' hworth hnow =>
    obtain rfl := Except.ok.inj (hstop.symm.trans hstop')
    exact ⟨_, hworth, congrArg Except.ok (untilEnd_of_le hnow _).symm⟩
  | unsupported hmonths => exact nomatch hstop.symm.trans hmonths
  | unknown hstop' hworth => exact ⟨_, hworth, rfl⟩

/-- What the record of a claim comes to in a run. -/
theorem run_ofRecord_iff :
    (ofRecord denom now tier record why).Run log result ↔
      SettlesByRecord denom now tier record why log result := by
  unfold ofRecord
  rw [show tier.months = 6 * tier.number from rfl]
  cases hstop : (record.time.getD now).addMonths (6 * tier.number) with
  | error whyMonths =>
    constructor
    · intro h
      obtain ⟨rfl, rfl⟩ := run_done_iff.mp h
      exact .unsupported hstop
    · intro h
      cases h with
      | unsupported hmonths =>
        obtain rfl := Except.error.inj (hstop.symm.trans hmonths)
        exact .done _
      | closed hstop' _ _ | opened hstop' _ _ | unknown hstop' _ => exact nomatch hstop.symm.trans hstop'
  | ok stop =>
    simp only [bind_eq_bind, pure_eq_done, run_bind_iff, run_claimAmount_iff, run_done_iff]
    constructor
    · rintro ⟨_, _, _, ⟨worth, hworth, rfl⟩, ⟨rfl, rfl⟩, rfl⟩
      rw [List.append_nil]
      cases worth with
      | error whyBalance => exact .unknown hstop hworth
      | ok amount => exact settlesByRecord_untilEnd hstop hworth
    · intro h
      obtain ⟨worth, hworth, rfl⟩ := h.eq_untilEnd hstop
      exact ⟨log, _, [], ⟨worth, hworth, rfl⟩, ⟨rfl, rfl⟩, (List.append_nil log).symm⟩

/-- A run over a claim goes on to its record unless its lock is known. -/
theorem run_ofClaim_cases {entry : Entry} :
    (ofClaim denom now tier record).Run log entry ↔
      ∃ answer rest, log = ⟨.account record.address, answer⟩ :: rest ∧
        ((∃ portion, lockedPortion denom now answer = .ok portion ∧ rest = [] ∧
            entry = ⟨record.address, .ok portion⟩) ∨
          ∃ why, lockedPortion denom now answer = .error why ∧
            ∃ result, (ofRecord denom now tier record why).Run rest result ∧
              entry = ⟨record.address, result⟩) := by
  simp only [ofClaim, bind_eq_bind, run_bind_iff, run_onChain_iff]
  constructor
  · rintro ⟨_, _, rest, ⟨answer, rfl, rfl⟩, hrest, rfl⟩
    refine ⟨answer, rest, rfl, ?_⟩
    cases hportion : lockedPortion denom now answer with
    | ok portion =>
      rw [hportion] at hrest
      obtain ⟨rfl, rfl⟩ := run_done_iff.mp hrest
      exact .inl ⟨portion, rfl, rfl, rfl⟩
    | error why =>
      rw [hportion] at hrest
      have hbind : ((ofRecord denom now tier record why).bind fun result =>
          .done ⟨record.address, result⟩).Run rest entry := run_note_iff.mp hrest
      obtain ⟨log, result, _, hrecord, hdone, rfl⟩ := run_bind_iff.mp hbind
      obtain ⟨rfl, rfl⟩ := run_done_iff.mp hdone
      rw [List.append_nil]
      exact .inr ⟨why, rfl, result, hrecord, rfl⟩
  · rintro ⟨answer, rest, rfl, ⟨portion, hportion, rfl, rfl⟩ | ⟨why, hwhy, result, hrecord, rfl⟩⟩
    · refine ⟨_, _, [], ⟨answer, rfl, rfl⟩, ?_, rfl⟩
      rw [hportion]
      exact .done _
    · refine ⟨_, _, rest, ⟨answer, rfl, rfl⟩, ?_, rfl⟩
      have hbind : ((ofRecord denom now tier record why).bind fun result =>
          .done (Entry.mk record.address result)).Run rest ⟨record.address, result⟩ :=
        run_bind_iff.mpr ⟨rest, result, [], hrecord, .done _, (List.append_nil rest).symm⟩
      rw [hwhy]
      exact run_note_iff.mpr hbind

/-- **A claim is settled** by the lock of its address or by its record, or it is skipped. -/
theorem run_ofClaim_iff {entry : Entry} :
    (ofClaim denom now tier record).Run log entry ↔
      entry.address = some record.address ∧ SettlesClaim denom now tier record log entry.result := by
  obtain ⟨address, result⟩ := entry
  simp only [run_ofClaim_cases, run_ofRecord_iff, Entry.mk.injEq]
  constructor
  · rintro ⟨answer, rest, rfl, ⟨portion, hportion, rfl, rfl, rfl⟩ |
      ⟨why, hwhy, _, hrecord, rfl, rfl⟩⟩
    · exact ⟨rfl, .locked hportion⟩
    · exact ⟨rfl, .recorded hwhy hrecord⟩
  · rintro ⟨rfl, h⟩
    cases h with
    | locked hportion => exact ⟨_, [], rfl, .inl ⟨_, hportion, rfl, rfl, rfl⟩⟩
    | recorded hwhy hrecord => exact ⟨_, _, rfl, .inr ⟨_, hwhy, _, hrecord, rfl, rfl⟩⟩

/-! ### What settles a claim -/

/-- A lock that is known settles a claim, whatever its record says. -/
theorem settlesClaim_iff_of_ok {portion : Portion}
    (hportion : lockedPortion denom now answer = .ok portion) :
    SettlesClaim denom now tier record (⟨.account record.address, answer⟩ :: rest) result ↔
      rest = [] ∧ result = .ok portion := by
  constructor
  · intro h
    cases h with
    | locked hportion' => exact ⟨rfl, congrArg _ (Except.ok.inj (hportion'.symm.trans hportion))⟩
    | recorded hwhy _ => exact nomatch hportion.symm.trans hwhy
  · rintro ⟨rfl, rfl⟩
    exact .locked hportion

/-- A lock that is not known leaves a claim to its record. -/
theorem settlesClaim_iff_of_error (hwhy : lockedPortion denom now answer = .error why) :
    SettlesClaim denom now tier record (⟨.account record.address, answer⟩ :: rest) result ↔
      SettlesByRecord denom now tier record why rest result := by
  constructor
  · intro h
    cases h with
    | locked hportion => exact nomatch hwhy.symm.trans hportion
    | recorded hwhy' hrecord =>
      obtain rfl := Except.error.inj (hwhy.symm.trans hwhy')
      exact hrecord
  · exact .recorded hwhy

theorem SettlesByRecord.eq_error_iff (h : SettlesByRecord denom now tier record why log result) :
    (∃ cause, result = .error cause) ↔
      (record.time.getD now).addMonths (6 * tier.number) = .error .outOfRange ∨
        record.amount = none ∧
          ∃ whyBalance, log = [⟨.balance record.address denom, .error whyBalance⟩] := by
  cases h with
  | closed hstop hworth _ | opened hstop hworth _ =>
    refine iff_of_false (fun ⟨cause, hcause⟩ => nomatch hcause) ?_
    rintro (hmonths | ⟨hnone, whyBalance, hlog⟩)
    · exact nomatch hstop.symm.trans hmonths
    · obtain ⟨why, hwhy⟩ := hworth.exists_error_iff.mpr ⟨hnone, whyBalance, hlog⟩
      exact nomatch hwhy
  | unsupported hmonths =>
    exact iff_of_true ⟨_, rfl⟩ (.inl (Instant.eq_outOfRange_of_addMonths hmonths ▸ hmonths))
  | unknown hstop hworth => exact iff_of_true ⟨_, rfl⟩ (.inr (hworth.exists_error_iff.mp ⟨_, rfl⟩))

/-- A claim is skipped exactly if its lock is not known and either its months leave the supported years or
its record has no amount and its balance is not known. -/
theorem SettlesClaim.eq_error_iff
    (h : SettlesClaim denom now tier record (⟨.account record.address, answer⟩ :: rest) result) :
    (∃ cause, result = .error cause) ↔
      (∃ why, lockedPortion denom now answer = .error why) ∧
        ((record.time.getD now).addMonths (6 * tier.number) = .error .outOfRange ∨
          record.amount = none ∧
            ∃ whyBalance, rest = [⟨.balance record.address denom, .error whyBalance⟩]) := by
  cases hportion : lockedPortion denom now answer with
  | ok portion =>
    obtain ⟨-, rfl⟩ := (settlesClaim_iff_of_ok hportion).mp h
    exact iff_of_false (fun ⟨cause, hcause⟩ => nomatch hcause) fun ⟨⟨why, hwhy⟩, _⟩ => nomatch hwhy
  | error why =>
    rw [((settlesClaim_iff_of_error hportion).mp h).eq_error_iff]
    exact (and_iff_right ⟨why, rfl⟩).symm

/-- **A claim without a time counts in full** where its lock is not known: its months begin with the
block, so they have not passed. -/
theorem SettlesClaim.eq_of_time_eq_none {stop : Instant} {amount : Nat} (htime : record.time = none)
    (hwhy : lockedPortion denom now answer = .error why)
    (hstop : now.addMonths (6 * tier.number) = .ok stop)
    (hworth : record.IsWorth denom rest (.ok amount))
    (h : SettlesClaim denom now tier record (⟨.account record.address, answer⟩ :: rest) result) :
    result = .ok ⟨amount, .at stop⟩ := by
  have hnow : now.nanos < stop.nanos := Instant.nanos_lt_of_addMonths (months_pos tier) hstop
  have hstart : (record.time.getD now).addMonths (6 * tier.number) = .ok stop := by
    rw [htime]
    exact hstop
  obtain ⟨worth, hworth', rfl⟩ := ((settlesClaim_iff_of_error hwhy).mp h).eq_untilEnd hstart
  obtain rfl := hworth.unique hworth'
  exact congrArg Except.ok (untilEnd_of_lt hnow amount)

/-! ### The claims of a tier -/

/-- What comes of the claims of a tier, given the answer to the question for them, with some of the
answers of a log: one entry for every claim, or a single one if the claims are not known. -/
def SettlesTier (denom : String) (now : Instant) (tier : ClaimTier) (log : List (Sigma Query.Outcome)) :
    Except QueryError (List ClaimRecord) → List Entry → Prop
  | .error why, entries => entries = [⟨none, .error (.tier tier why)⟩]
  | .ok records, entries => List.Forall₂ (fun record (entry : Entry) =>
      entry.address = some record.address ∧ ∃ answers, answers <:+: log ∧
        SettlesClaim denom now tier record answers entry.result) records entries

theorem settlesTier_of_run {log' : List (Sigma Query.Outcome)} {entries : List Entry}
    (hlog : log <:+: log') (h : (ofTier denom now tier).Run log entries) :
    ∃ answer, ⟨.claims tier denom, answer⟩ ∈ log' ∧ SettlesTier denom now tier log' answer entries := by
  obtain ⟨answer, rest, hrest, rfl⟩ := run_ask_iff.mp h
  refine ⟨answer, hlog.subset List.mem_cons_self, ?_⟩
  cases answer with
  | error why => exact (run_done_iff.mp hrest).2
  | ok records =>
    refine (forall₂_of_run_forEach hrest).imp ?_
    rintro record entry ⟨answers, hanswers, hentry⟩
    obtain ⟨haddress, hsettles⟩ := run_ofClaim_iff.mp hentry
    exact ⟨haddress, answers, (hanswers.trans (List.suffix_cons _ rest).isInfix).trans hlog, hsettles⟩

end Entry

/-! ### The claims of a snapshot -/

namespace Snapshot

/-- The entries of the claims in a run, tier by tier. -/
theorem exists_settlesTier_of_run {policy : Policy} {policyEtag : Option String} {denom : String}
    {log : List (Sigma Query.Outcome)} {s : Snapshot}
    (h : (compute policy policyEtag denom).Run log (.ok s)) :
    ∃ parts entries, s.ConsistsOf policy parts ∧
      parts.claims = entries.map (fun tier => tier.map (Entry.part .claims)) ∧
      List.Forall₂ (fun tier entries => ∃ answer, ⟨.claims tier denom, answer⟩ ∈ log ∧
        Entry.SettlesTier denom s.updatedAt tier log answer entries) ClaimTier.all entries := by
  obtain ⟨block, total, log', f, rfl, hf, rfl⟩ := run_compute h
  obtain ⟨answers, -, hcovers⟩ := Findings.run_gather hf
  obtain ⟨_, _, _, logE, logP, logM, logF, logB, logC, -, rfl, -, -, -, -, -, hC⟩ :=
    Findings.runs_of_run_gather hf
  -- the claims come last, after the first two answers and those for the other holdings
  have hlast : logC <:+: [⟨.height, .ok block⟩, ⟨.totalSupply denom, .ok total⟩] ++
      ((logE ++ logP ++ logM ++ logF ++ logB) ++ logC) :=
    ((List.suffix_append _ _).trans (List.suffix_append _ _)).isInfix
  refine ⟨f.parts, f.claims, consistsOf_parts hcovers .., rfl, (forall₂_of_run_forEach hC).imp ?_⟩
  rintro tier entries ⟨part, hpart, hrun⟩
  exact Entry.settlesTier_of_run (hpart.trans hlast) hrun

/-- **How claims are settled.** The runs over a claim are those in which the lock of its address or its
record settles it, or it is skipped, and so is the evaluation over any source. A lock that is known
settles the claim whatever the record says, and nothing more is asked. The claim is skipped exactly if
its lock is not known and either its months leave the supported years or its record has no amount and
its balance is not known; without a time it counts in full where its lock is not known. The items and
the skips of the claims of a snapshot, one for each claim of each tier in order, are what the claims are
settled to by answers of the run. -/
theorem settles_claims (denom : String) :
    (∀ now tier record log entry, (Entry.ofClaim denom now tier record).Run log entry ↔
      entry.address = some record.address ∧
        Entry.SettlesClaim denom now tier record log entry.result) ∧
    (∀ now tier record (S : Source), Entry.SettlesClaim denom now tier record
      (((Entry.ofClaim denom now tier record).questions S).map fun q => ⟨q, S q⟩)
      ((Entry.ofClaim denom now tier record).eval S).result) ∧
    (∀ now tier (record : ClaimRecord) answer portion rest result,
      Entry.lockedPortion denom now answer = .ok portion →
        (Entry.SettlesClaim denom now tier record (⟨.account record.address, answer⟩ :: rest) result ↔
          rest = [] ∧ result = .ok portion)) ∧
    (∀ now tier (record : ClaimRecord) answer rest result,
      Entry.SettlesClaim denom now tier record (⟨.account record.address, answer⟩ :: rest) result →
        ((∃ cause, result = .error cause) ↔
          (∃ why, Entry.lockedPortion denom now answer = .error why) ∧
            ((record.time.getD now).addMonths (6 * tier.number) = .error .outOfRange ∨
              record.amount = none ∧
                ∃ why, rest = [⟨.balance record.address denom, .error why⟩]))) ∧
    (∀ now tier (record : ClaimRecord) answer why stop rest amount result, record.time = none →
      Entry.lockedPortion denom now answer = .error why →
      now.addMonths (6 * tier.number) = .ok stop → record.IsWorth denom rest (.ok amount) →
      Entry.SettlesClaim denom now tier record (⟨.account record.address, answer⟩ :: rest) result →
        result = .ok ⟨amount, .at stop⟩) ∧
    ∀ policy policyEtag log s, (compute policy policyEtag denom).Run log (.ok s) →
      ∃ parts entries, s.ConsistsOf policy parts ∧
        parts.claims = entries.map (fun tier => tier.map (Entry.part .claims)) ∧
        List.Forall₂ (fun tier entries => ∃ answer, ⟨.claims tier denom, answer⟩ ∈ log ∧
          Entry.SettlesTier denom s.updatedAt tier log answer entries) ClaimTier.all entries := by
  refine ⟨fun now tier record log entry => Entry.run_ofClaim_iff,
    fun now tier record S => (Entry.run_ofClaim_iff.mp (run_eval S _)).2,
    fun now tier record answer portion rest result => Entry.settlesClaim_iff_of_ok,
    fun now tier record answer rest result h => h.eq_error_iff,
    fun now tier record answer why stop rest amount result htime hwhy hstop hworth h =>
      h.eq_of_time_eq_none htime hwhy hstop hworth,
    fun policy policyEtag log s h => exists_settlesTier_of_run h⟩

/-- On the small chain a claim whose lock is not known counts for the amount of its record, or is skipped
if neither it nor the balance is known, and a claim of the foundation counts for its lock. -/
theorem settles_claims_small :
    let now : Instant := ⟨0, 0⟩
    let stop : Instant := ⟨15638400000000000, 0⟩
    let missing : Sigma Query.Outcome := ⟨.account "c", .error (.missing "account")⟩
    (∀ result, Entry.SettlesClaim "ulume" now .one ⟨"c", none, some 40⟩ [missing] result ↔
      result = .ok ⟨40, .at stop⟩) ∧
    (∀ result, Entry.SettlesClaim "ulume" now .one ⟨"c", none, none⟩
      [missing, ⟨.balance "c" "ulume", .error (.missing "balance")⟩] result →
        ∃ cause, result = .error cause) ∧
    ((Entry.ofClaim "ulume" now .one ⟨"f", none, none⟩).eval Source.small).result =
      .ok ⟨300, .forever⟩ ∧
    ∃ parts, Snapshot.small.ConsistsOf .small parts ∧ parts.claims.length = 4 := by
  intro now stop missing
  obtain ⟨-, hsource, hlocked, herror, hfull, hsnapshot⟩ := settles_claims "ulume"
  have hwhy : Entry.lockedPortion "ulume" now (.error (.missing "account")) =
      .error (.account (.missing "account")) := rfl
  have hstop : now.addMonths (6 * ClaimTier.one.number) = .ok stop := by decide +kernel
  refine ⟨fun result => ⟨?_, ?_⟩, fun result h => ?_, ?_, ?_⟩
  · exact hfull now .one ⟨"c", none, some 40⟩ _ _ stop [] 40 result rfl hwhy hstop (.stated rfl)
  · rintro rfl
    exact .recorded hwhy (.closed hstop (.stated rfl) (by decide))
  · exact (herror now .one ⟨"c", none, none⟩ _ _ result h).mpr ⟨⟨_, hwhy⟩, .inr ⟨rfl, _, rfl⟩⟩
  · exact ((hlocked now .one ⟨"f", none, none⟩ (Source.small (.account "f")) ⟨300, .forever⟩ _ _
      (by decide)).mp (hsource now .one ⟨"f", none, none⟩ Source.small)).2
  · obtain ⟨parts, entries, hparts, hclaims, htiers⟩ := hsnapshot _ _ _ _ run_compute_small
    refine ⟨parts, hparts, ?_⟩
    rw [hclaims, List.length_map, ← htiers.length_eq]
    rfl

end Snapshot

end Circulation
