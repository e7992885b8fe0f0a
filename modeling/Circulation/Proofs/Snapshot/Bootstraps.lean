import Circulation.Proofs.Snapshot.Entries
import Circulation.Proofs.Snapshot.Passing

/-!
# How a bootstrap account is settled

The lock of a bootstrap account comes first. Where it holds something it settles the account, and
nothing more is asked. Where it holds nothing or is not known, the first hint of the policy settles the
account with its whole balance: for good, or until a date. Where there is no hint, or the hint fails
because its months leave the supported years or because the balance is not known, a lock that holds
nothing still settles the account, and one that is not known leaves it to be skipped.

## Main definitions

* `Circulation.BootstrapEntry.Hints` — the end date by the first hint of an account.
* `Circulation.Entry.HintYields`, `Circulation.Entry.HintFails` — what comes of the first hint, and the
  answers that it takes.
* `Circulation.Entry.Settles` — what comes of an account, and the answers that it takes.

## Main results

* `Circulation.Entry.run_ofBootstrap_iff` — a bootstrap account is settled in one of these ways.
* `Circulation.Snapshot.settles_bootstraps` — so are all in every snapshot.
-/

namespace Circulation

open Program

/-! ### Hints -/

/-- The end date by the first hint that an account has: that its lock is permanent, its months and its
end time, in this order. Months count from the start that the policy states, or else from the time of
the block, and may leave the supported years. -/
inductive BootstrapEntry.Hints (e : BootstrapEntry) (now : Instant) : Except ReadError EndDate → Prop
  | permanent (hpermanent : e.permanent = true) : Hints e now (.ok .forever)
  | months {months : Nat} {stop : Instant} (hpermanent : e.permanent = false)
      (hmonths : e.months = some months) (hstop : (e.startTime.getD now).addMonths months = .ok stop) :
      Hints e now (.ok (.at stop))
  | unsupported {months : Nat} {why : ReadError} (hpermanent : e.permanent = false)
      (hmonths : e.months = some months) (hwhy : (e.startTime.getD now).addMonths months = .error why) :
      Hints e now (.error why)
  | endTime {stop : Instant} (hpermanent : e.permanent = false) (hmonths : e.months = none)
      (hstop : e.endTime = some stop) : Hints e now (.ok (.at stop))

namespace Entry

section

variable {denom : String} {now : Instant} {e : BootstrapEntry}

theorem hintedEnd?_eq_none_iff : hintedEnd? now e = none ↔ e.HasNoHint := by
  unfold hintedEnd? BootstrapEntry.HasNoHint
  cases e.permanent <;> cases e.months <;> cases e.endTime <;> simp

theorem hintedEnd?_eq_some_iff {stop : Except ReadError EndDate} :
    hintedEnd? now e = some stop ↔ e.Hints now stop := by
  constructor
  · intro h
    unfold hintedEnd? at h
    cases hpermanent : e.permanent with
    | true =>
      rw [hpermanent] at h
      exact Option.some.inj h ▸ .permanent hpermanent
    | false =>
      cases hmonths : e.months with
      | some months =>
        rw [hpermanent, hmonths] at h
        obtain rfl := Option.some.inj h
        cases hstop : (e.startTime.getD now).addMonths months with
        | ok stop => exact .months hpermanent hmonths hstop
        | error why => exact .unsupported hpermanent hmonths hstop
      | none =>
        cases hend : e.endTime with
        | some stop =>
          rw [hpermanent, hmonths, hend] at h
          exact Option.some.inj h ▸ .endTime hpermanent hmonths hend
        | none =>
          rw [hpermanent, hmonths, hend] at h
          exact nomatch h
  · rintro (hpermanent | ⟨hpermanent, hmonths, hstop⟩ | ⟨hpermanent, hmonths, hwhy⟩ |
      ⟨hpermanent, hmonths, hstop⟩)
    · simp [hintedEnd?, hpermanent]
    · simp [hintedEnd?, hpermanent, hmonths, hstop, Except.map]
    · simp [hintedEnd?, hpermanent, hmonths, hwhy, Except.map]
    · simp [hintedEnd?, hpermanent, hmonths, hstop]

end

/-- The portion by the first hint of an account, and the answer that it takes: the whole balance for
good, or the balance until a date and nothing from then on. -/
inductive HintYields (denom : String) (now : Instant) (e : BootstrapEntry) :
    List (Sigma Query.Outcome) → Portion → Prop
  | forever {balance : Nat} (hhint : e.Hints now (.ok .forever)) :
      HintYields denom now e [⟨.balance e.address denom, .ok balance⟩] ⟨balance, .forever⟩
  | delayed {balance : Nat} {stop : Instant} (hhint : e.Hints now (.ok (.at stop))) :
      HintYields denom now e [⟨.balance e.address denom, .ok balance⟩]
        ⟨Schedule.delayed balance now stop, .at stop⟩

/-- An account has no hint, or its first hint fails for a reason, and the answer that it takes. -/
inductive HintFails (denom : String) (now : Instant) (e : BootstrapEntry) :
    List (Sigma Query.Outcome) → Option HintFailure → Prop
  | absent (hnone : e.HasNoHint) : HintFails denom now e [] none
  | months {why : ReadError} (hhint : e.Hints now (.error why)) :
      HintFails denom now e [] (some (.months why))
  | balance {stop : EndDate} {why : QueryError} (hhint : e.Hints now (.ok stop)) :
      HintFails denom now e [⟨.balance e.address denom, .error why⟩] (some (.balance why))

/-- The reason to skip an account whose lock is not known, given why its hint fails, if it has one. -/
def skipCause (why : LockFailure) : Option HintFailure → SkipCause
  | none => .lock why
  | some whyHint => .hint why whyHint

/-- What comes of a bootstrap account, and the answers that it takes. -/
inductive Settles (denom : String) (now : Instant) (e : BootstrapEntry) :
    List (Sigma Query.Outcome) → Except SkipCause Portion → Prop
  /-- The lock holds something, and nothing more is asked. -/
  | locked {answer : Except QueryError AccountLock} {portion : Portion}
      (hportion : lockedPortion denom now answer = .ok portion) (hamount : portion.amount ≠ 0) :
      Settles denom now e [⟨.account e.address, answer⟩] (.ok portion)
  /-- The lock holds nothing or is not known, and the hint counts. -/
  | hinted {answer : Except QueryError AccountLock} {rest : List (Sigma Query.Outcome)}
      {portion : Portion}
      (hopen : ∀ p, lockedPortion denom now answer = .ok p → p.amount = 0)
      (hhint : HintYields denom now e rest portion) :
      Settles denom now e (⟨.account e.address, answer⟩ :: rest) (.ok portion)
  /-- The lock holds nothing, and there is no hint or it fails. -/
  | kept {answer : Except QueryError AccountLock} {rest : List (Sigma Query.Outcome)}
      {portion : Portion} {whyHint? : Option HintFailure}
      (hportion : lockedPortion denom now answer = .ok portion) (hamount : portion.amount = 0)
      (hhint : HintFails denom now e rest whyHint?) :
      Settles denom now e (⟨.account e.address, answer⟩ :: rest) (.ok portion)
  /-- The lock is not known, and there is no hint or it fails. -/
  | skipped {answer : Except QueryError AccountLock} {rest : List (Sigma Query.Outcome)}
      {why : LockFailure} {whyHint? : Option HintFailure}
      (hwhy : lockedPortion denom now answer = .error why)
      (hhint : HintFails denom now e rest whyHint?) :
      Settles denom now e (⟨.account e.address, answer⟩ :: rest) (.error (skipCause why whyHint?))

variable {denom : String} {now : Instant} {e : BootstrapEntry} {log : List (Sigma Query.Outcome)}

/-- The end dates of hints are those of the portions that hints yield. -/
theorem hintYields_untilEnd {stop : EndDate} (hhint : e.Hints now (.ok stop)) (balance : Nat) :
    HintYields denom now e [⟨.balance e.address denom, .ok balance⟩] (untilEnd balance now stop) := by
  cases hhint with
  | permanent hpermanent => exact .forever (.permanent hpermanent)
  | months hpermanent hmonths hstop => exact .delayed (.months hpermanent hmonths hstop)
  | endTime hpermanent hmonths hstop => exact .delayed (.endTime hpermanent hmonths hstop)

theorem HintYields.exists_untilEnd {portion : Portion} (h : HintYields denom now e log portion) :
    ∃ stop balance, e.Hints now (.ok stop) ∧
      log = [⟨.balance e.address denom, .ok balance⟩] ∧ portion = untilEnd balance now stop := by
  cases h with
  | forever hhint => exact ⟨_, _, hhint, rfl, rfl⟩
  | delayed hhint => exact ⟨_, _, hhint, rfl, rfl⟩

/-- What the first hint comes to in a run. -/
theorem run_hinted_iff {hint : Option (Except HintFailure Portion)} :
    (hinted denom now e).Run log hint ↔
      (∃ portion, hint = some (.ok portion) ∧ HintYields denom now e log portion) ∨
        ∃ whyHint?, hint = whyHint?.map .error ∧ HintFails denom now e log whyHint? := by
  constructor
  · intro h
    unfold hinted at h
    cases hend : hintedEnd? now e with
    | none =>
      rw [hend] at h
      obtain ⟨rfl, rfl⟩ := run_done_iff.mp h
      exact .inr ⟨none, rfl, .absent (hintedEnd?_eq_none_iff.mp hend)⟩
    | some stop =>
      rw [hend] at h
      have hhint := hintedEnd?_eq_some_iff.mp hend
      cases stop with
      | error why =>
        obtain ⟨rfl, rfl⟩ := run_done_iff.mp h
        exact .inr ⟨_, rfl, .months hhint⟩
      | ok stop =>
        obtain ⟨answer, _, hrest, rfl⟩ := run_ask_iff.mp h
        cases answer with
        | error why =>
          obtain ⟨rfl, rfl⟩ := run_done_iff.mp hrest
          exact .inr ⟨_, rfl, .balance hhint⟩
        | ok balance =>
          obtain ⟨rfl, rfl⟩ := run_done_iff.mp hrest
          exact .inl ⟨_, rfl, hintYields_untilEnd hhint balance⟩
  · unfold hinted
    rintro (⟨portion, rfl, h⟩ | ⟨whyHint?, rfl, h⟩)
    · obtain ⟨stop, balance, hhint, rfl, rfl⟩ := h.exists_untilEnd
      rw [hintedEnd?_eq_some_iff.mpr hhint]
      exact run_ask_iff.mpr ⟨.ok balance, [], .done _, rfl⟩
    · cases h with
      | absent hnone =>
        rw [hintedEnd?_eq_none_iff.mpr hnone]
        exact .done _
      | months hhint =>
        rw [hintedEnd?_eq_some_iff.mpr hhint]
        exact .done _
      | @balance _ why hhint =>
        rw [hintedEnd?_eq_some_iff.mpr hhint]
        exact run_ask_iff.mpr ⟨.error why, [], .done _, rfl⟩

theorem holdsSomething_eq_true_iff {onChain : Except LockFailure Portion} :
    holdsSomething onChain = true ↔ ∃ portion, onChain = .ok portion ∧ portion.amount ≠ 0 := by
  cases onChain with
  | error why => exact iff_of_false nofun nofun
  | ok portion => simp [holdsSomething]

theorem holdsSomething_eq_false_iff {onChain : Except LockFailure Portion} :
    holdsSomething onChain = false ↔ ∀ portion, onChain = .ok portion → portion.amount = 0 := by
  cases onChain with
  | error why => exact iff_of_true rfl nofun
  | ok portion => simp [holdsSomething]

/-- A hint that yields a portion counts, whatever the lock says. -/
theorem preferOnChain_of_ok (onChain : Except LockFailure Portion) (portion : Portion) :
    preferOnChain onChain (some (.ok portion)) = .ok portion := by
  cases onChain <;> rfl

/-- Without a hint that yields a portion, what the lock says counts. -/
theorem preferOnChain_of_fails (onChain : Except LockFailure Portion)
    (whyHint? : Option HintFailure) :
    preferOnChain onChain (whyHint?.map .error) = onChain.mapError (skipCause · whyHint?) := by
  cases onChain <;> cases whyHint? <;> rfl

/-- What is left of a run over a bootstrap account after the answer for its lock. -/
theorem run_afterLock_iff {onChain : Except LockFailure Portion} {entry : Entry} :
    (if holdsSomething onChain then pure ⟨e.address, onChain.mapError .lock⟩
      else (hinted denom now e).bind fun hint =>
        pure ⟨e.address, preferOnChain onChain hint⟩ : Asking Entry).Run log entry ↔
      (holdsSomething onChain = true ∧ log = [] ∧ entry = ⟨e.address, onChain.mapError .lock⟩) ∨
        (holdsSomething onChain = false ∧ ∃ hint, (hinted denom now e).Run log hint ∧
          entry = ⟨e.address, preferOnChain onChain hint⟩) := by
  cases holdsSomething onChain with
  | true => simp [run_done_iff]
  | false =>
    simp only [Bool.false_eq_true, if_false, false_and, true_and, false_or, pure_eq_done,
      run_bind_iff, run_done_iff]
    constructor
    · rintro ⟨_, hint, _, hrun, ⟨rfl, rfl⟩, rfl⟩
      exact ⟨hint, by rwa [List.append_nil], rfl⟩
    · rintro ⟨hint, hrun, rfl⟩
      exact ⟨log, hint, [], hrun, ⟨rfl, rfl⟩, (List.append_nil log).symm⟩

/-- A run over a bootstrap account goes on to its hints unless its lock holds something. -/
theorem run_ofBootstrap_cases {entry : Entry} :
    (ofBootstrap denom now e).Run log entry ↔
      ∃ answer rest, log = ⟨.account e.address, answer⟩ :: rest ∧
        ((holdsSomething (lockedPortion denom now answer) = true ∧ rest = [] ∧
            entry = ⟨e.address, (lockedPortion denom now answer).mapError .lock⟩) ∨
          (holdsSomething (lockedPortion denom now answer) = false ∧
            ∃ hint, (hinted denom now e).Run rest hint ∧
              entry = ⟨e.address, preferOnChain (lockedPortion denom now answer) hint⟩)) := by
  simp only [ofBootstrap, bind_eq_bind, run_bind_iff, run_onChain_iff]
  constructor
  · rintro ⟨_, _, rest, ⟨answer, rfl, rfl⟩, hrest, rfl⟩
    exact ⟨answer, rest, rfl, run_afterLock_iff.mp hrest⟩
  · rintro ⟨answer, rest, rfl, hrest⟩
    exact ⟨_, _, rest, ⟨answer, rfl, rfl⟩, run_afterLock_iff.mpr hrest, rfl⟩

/-- **A bootstrap account is settled** by its lock or by its first hint, or it is skipped. -/
theorem run_ofBootstrap_iff {entry : Entry} :
    (ofBootstrap denom now e).Run log entry ↔
      entry.address = some e.address ∧ Settles denom now e log entry.result := by
  obtain ⟨address, result⟩ := entry
  simp only [run_ofBootstrap_cases, Entry.mk.injEq]
  constructor
  · rintro ⟨answer, rest, rfl, ⟨hholds, rfl, rfl, rfl⟩ | ⟨hopen, hint, hrun, rfl, rfl⟩⟩
    · obtain ⟨portion, hportion, hamount⟩ := holdsSomething_eq_true_iff.mp hholds
      rw [hportion]
      exact ⟨rfl, .locked hportion hamount⟩
    · rw [holdsSomething_eq_false_iff] at hopen
      refine ⟨rfl, ?_⟩
      rcases run_hinted_iff.mp hrun with ⟨portion, rfl, hyields⟩ | ⟨whyHint?, rfl, hfails⟩
      · rw [preferOnChain_of_ok]
        exact .hinted hopen hyields
      · rw [preferOnChain_of_fails]
        cases hportion : lockedPortion denom now answer with
        | error why => exact .skipped hportion hfails
        | ok portion => exact .kept hportion (hopen portion hportion) hfails
  · rintro ⟨rfl, h⟩
    cases h with
    | @locked answer portion hportion hamount =>
      refine ⟨answer, [], rfl, .inl ⟨holdsSomething_eq_true_iff.mpr ⟨portion, hportion, hamount⟩, rfl,
        rfl, ?_⟩⟩
      rw [hportion]
      rfl
    | @hinted answer rest portion hopen hyields =>
      refine ⟨answer, rest, rfl, .inr ⟨holdsSomething_eq_false_iff.mpr hopen, _,
        run_hinted_iff.mpr (.inl ⟨portion, rfl, hyields⟩), rfl, ?_⟩⟩
      rw [preferOnChain_of_ok]
    | @kept answer rest portion whyHint? hportion hamount hfails =>
      have hopen : ∀ p, lockedPortion denom now answer = .ok p → p.amount = 0 := by
        intro p hp
        obtain rfl := Except.ok.inj (hportion.symm.trans hp)
        exact hamount
      refine ⟨answer, rest, rfl, .inr ⟨holdsSomething_eq_false_iff.mpr hopen, _,
        run_hinted_iff.mpr (.inr ⟨whyHint?, rfl, hfails⟩), rfl, ?_⟩⟩
      rw [preferOnChain_of_fails, hportion]
      rfl
    | @skipped answer rest why whyHint? hwhy hfails =>
      have hopen : ∀ p, lockedPortion denom now answer = .ok p → p.amount = 0 := by
        intro p hp
        exact nomatch hwhy.symm.trans hp
      refine ⟨answer, rest, rfl, .inr ⟨holdsSomething_eq_false_iff.mpr hopen, _,
        run_hinted_iff.mpr (.inr ⟨whyHint?, rfl, hfails⟩), rfl, ?_⟩⟩
      rw [preferOnChain_of_fails, hwhy]
      rfl

/-- A hint that yields a portion does not fail. -/
theorem HintYields.not_hintFails {portion : Portion} (h : HintYields denom now e log portion)
    (whyHint? : Option HintFailure) : ¬HintFails denom now e log whyHint? := by
  cases h <;> exact nofun

/-- A bootstrap account is skipped exactly if its lock is not known and its hint is absent or fails. -/
theorem Settles.eq_error_iff {answer : Except QueryError AccountLock}
    {rest : List (Sigma Query.Outcome)} {result : Except SkipCause Portion}
    (h : Settles denom now e (⟨.account e.address, answer⟩ :: rest) result) :
    (∃ cause, result = .error cause) ↔
      (∃ why, lockedPortion denom now answer = .error why) ∧
        ∃ whyHint?, HintFails denom now e rest whyHint? := by
  have hok (portion : Portion) : ¬∃ cause, (.ok portion : Except SkipCause Portion) = .error cause := by
    rintro ⟨cause, hcause⟩
    exact nomatch hcause
  cases h with
  | locked hportion hamount =>
    refine iff_of_false (hok _) ?_
    rintro ⟨⟨why, hwhy⟩, -⟩
    exact nomatch hportion.symm.trans hwhy
  | hinted hopen hyields =>
    refine iff_of_false (hok _) ?_
    rintro ⟨-, whyHint?, hfails⟩
    exact hyields.not_hintFails whyHint? hfails
  | kept hportion hamount hfails =>
    refine iff_of_false (hok _) ?_
    rintro ⟨⟨why, hwhy⟩, -⟩
    exact nomatch hportion.symm.trans hwhy
  | skipped hwhy hfails =>
    exact iff_of_true ⟨_, rfl⟩ ⟨⟨_, hwhy⟩, _, hfails⟩

end Entry

/-! ### The bootstrap accounts of a snapshot -/

namespace Snapshot

/-- **How bootstrap accounts are settled.** The runs over a bootstrap account are those in which its
lock or its first hint settles it, or it is skipped, and so is the evaluation over any source. It is
skipped exactly if its lock is not known and its hint is absent or fails. The items and the skips of the
bootstrap accounts of a snapshot, one for each account of the policy in order, are what they are settled
to by answers of the run. -/
theorem settles_bootstraps (denom : String) :
    (∀ now e log entry, (Entry.ofBootstrap denom now e).Run log entry ↔
      entry.address = some e.address ∧ Entry.Settles denom now e log entry.result) ∧
    (∀ now e (S : Source), Entry.Settles denom now e
      (((Entry.ofBootstrap denom now e).questions S).map fun q => ⟨q, S q⟩)
      ((Entry.ofBootstrap denom now e).eval S).result) ∧
    (∀ now (e : BootstrapEntry) answer rest result,
      Entry.Settles denom now e (⟨.account e.address, answer⟩ :: rest) result →
        ((∃ cause, result = .error cause) ↔
          (∃ why, Entry.lockedPortion denom now answer = .error why) ∧
            ∃ whyHint?, Entry.HintFails denom now e rest whyHint?)) ∧
    ∀ policy policyEtag log s, (compute policy policyEtag denom).Run log (.ok s) →
      ∃ parts, s.ConsistsOf policy parts ∧
        List.Forall₂ (fun e part => ∃ answers result, answers <:+: log ∧
          Entry.Settles denom s.updatedAt e answers result ∧
          part = (Entry.mk e.address result).part .bootstraps) policy.bootstraps parts.bootstraps := by
  refine ⟨fun now e log entry => Entry.run_ofBootstrap_iff, fun now e S => ?_,
    fun now e answer rest result h => h.eq_error_iff, fun policy policyEtag log s hrun => ?_⟩
  · exact (Entry.run_ofBootstrap_iff.mp (run_eval S _)).2
  · obtain ⟨f, hf⟩ := exists_isFoundBy_of_run hrun
    refine ⟨f.parts, hf.consists, List.forall₂_map_right_iff.mpr (hf.bootstraps.imp ?_)⟩
    rintro e entry ⟨answers, hanswers, hentry⟩
    obtain ⟨haddress, hsettles⟩ := Entry.run_ofBootstrap_iff.mp hentry
    exact ⟨answers, entry.result, hanswers, hsettles, by rw [← haddress]⟩

/-- The bootstrap account of the small chain, whose lock is not known, is settled for good. -/
theorem settles_bootstraps_small :
    let e : BootstrapEntry := ⟨none, "b", true, none, none, none⟩
    Entry.Settles "ulume" ⟨0, 0⟩ e
      [⟨.account "b", .error (.missing "account")⟩, ⟨.balance "b" "ulume", .ok 5⟩]
      (.ok ⟨5, .forever⟩) ∧
    (¬∃ whyHint?, Entry.HintFails "ulume" ⟨0, 0⟩ e [⟨.balance "b" "ulume", .ok 5⟩] whyHint?) ∧
    ∃ parts, Snapshot.small.ConsistsOf .small parts ∧ parts.bootstraps.length = 1 := by
  intro e
  obtain ⟨-, hsource, hskipped, hsnapshot⟩ := settles_bootstraps "ulume"
  have hsettles : Entry.Settles "ulume" ⟨0, 0⟩ e
      [⟨.account "b", .error (.missing "account")⟩, ⟨.balance "b" "ulume", .ok 5⟩]
      (.ok ⟨5, .forever⟩) := hsource ⟨0, 0⟩ e Source.small
  refine ⟨hsettles, fun hfails => ?_, ?_⟩
  · obtain ⟨cause, hcause⟩ := (hskipped _ _ _ _ _ hsettles).mpr ⟨⟨_, rfl⟩, hfails⟩
    exact nomatch hcause
  · obtain ⟨parts, hparts, hbootstraps⟩ := hsnapshot _ _ _ _ run_compute_small
    exact ⟨parts, hparts, hbootstraps.length_eq.symm⟩

end Snapshot

end Circulation
