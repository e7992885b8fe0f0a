import Circulation.Proofs.Snapshot.EndDates
import Circulation.Snapshot.Json

/-!
# Snapshots that can be written

A snapshot is written with its end dates in UTC, to which the clocks of remote times are moved. A
time that its own clock can show may fall out of the years that UTC supports, on the day before the
first or on the day after the last, and then the whole snapshot has no written form. A time before
the year 0 is written as nothing. Every other snapshot that is computed from what is read is written
with all its end dates.

## Main definitions

* `Circulation.CohortItem.StatesEnd` — the items whose end date is written as some text.

## Main results

* `Circulation.Snapshot.exists_toJson_iff` — the snapshots that have a written form.
* `Circulation.Snapshot.isWritten_iff_of_run` — which computed snapshots are written, and how.
-/

namespace Circulation

open Calendar Json Program

/-! ### End dates -/

namespace Instant

variable {t : Instant}

theorem exists_utcText?_iff :
    (∃ text, t.utcText? = some text) ↔ IsSupportedDay t.toUtc.localDay := by
  unfold utcText?
  by_cases h : IsSupportedDay t.toUtc.localDay
  · simp [h]
  · simp [h]

theorem dateTimeText_append_ne (u : Instant) : u.dateTimeText ++ "Z" ≠ "" := by
  intro h
  have hlength := congrArg String.length h
  rw [String.length_append] at hlength
  exact absurd hlength (by simp)

/-- An instant is written in UTC as some text if its year there has four digits. -/
theorem exists_utcText?_ne_iff :
    (∃ text, t.utcText? = some text ∧ text ≠ "") ↔
      0 ≤ t.toUtc.localDate.year ∧ t.toUtc.localDate.year ≤ 9999 := by
  have hyear : yearOf t.toUtc.localDay = t.toUtc.localDate.year := rfl
  have hsupported : IsSupportedDay t.toUtc.localDay ↔
      -9999 ≤ t.toUtc.localDate.year ∧ t.toUtc.localDate.year ≤ 9999 := by
    rw [isSupportedDay_iff, hyear]
  unfold utcText?
  constructor
  · rintro ⟨text, htext, hne⟩
    obtain ⟨hday, htext⟩ := Option.ite_none_right_eq_some.mp htext
    refine ⟨?_, (hsupported.mp hday).2⟩
    by_contra hnegative
    rw [if_neg hnegative] at htext
    exact hne (Option.some.inj htext).symm
  · rintro ⟨hfrom, hto⟩
    have hday : IsSupportedDay t.toUtc.localDay := hsupported.mpr ⟨by omega, hto⟩
    rw [if_pos hday, if_pos hfrom]
    exact ⟨_, rfl, dateTimeText_append_ne _⟩

end Instant

/-! ### Written forms -/

/-- An item whose end date is written as some text. -/
def CohortItem.StatesEnd (item : CohortItem) : Prop :=
  ∃ (written : Json) (text : String), item.toJson = .ok written ∧
    written.member? "end_date" = some (.string text) ∧ text ≠ ""

namespace CohortItem

theorem toJson_of_text? {item : CohortItem} {text : String} (hnone : item.endDate ≠ .none)
    (h : item.endDate.text? = some text) :
    item.toJson = .ok (.object [("address", .string item.address), ("amount", .string item.amount),
      ("end_date", .string text)]) := by
  unfold toJson
  split
  · next hend => exact absurd hend hnone
  · rw [h]
    rfl

/-- An item has a written form if its end date has one. -/
theorem exists_toJson_iff (item : CohortItem) :
    (∃ written, item.toJson = .ok written) ↔ ∃ text, item.endDate.text? = some text := by
  by_cases hnone : item.endDate = .none
  · unfold toJson
    rw [hnone]
    exact iff_of_true ⟨_, rfl⟩ ⟨_, rfl⟩
  · cases htext : item.endDate.text? with
    | some text => exact iff_of_true ⟨_, toJson_of_text? hnone htext⟩ ⟨text, rfl⟩
    | none =>
      refine iff_of_false ?_ (by simp)
      rintro ⟨written, hwritten⟩
      unfold toJson at hwritten
      split at hwritten
      · next hend => exact hnone hend
      · rw [htext] at hwritten
        exact throw_bind_ne_ok hwritten

/-- An item that ends at an instant states what UTC says of it. -/
theorem statesEnd_iff {item : CohortItem} {t : Instant} (h : item.endDate = .at t) :
    item.StatesEnd ↔ 0 ≤ t.toUtc.localDate.year ∧ t.toUtc.localDate.year ≤ 9999 := by
  rw [← Instant.exists_utcText?_ne_iff]
  have hnone : item.endDate ≠ .none := by simp [h]
  have hutc : item.endDate.text? = t.utcText? := by rw [h, EndDate.text?]
  constructor
  · rintro ⟨written, text, hwritten, hmember, hne⟩
    obtain ⟨text', htext'⟩ := (exists_toJson_iff item).mp ⟨written, hwritten⟩
    rw [toJson_of_text? hnone htext'] at hwritten
    obtain rfl := Except.ok.inj hwritten
    obtain rfl : text' = text := Json.string.inj (Option.some.inj hmember)
    exact ⟨text', hutc ▸ htext', hne⟩
  · rintro ⟨text, htext, hne⟩
    exact ⟨_, text, toJson_of_text? hnone (hutc.trans htext), rfl, hne⟩

end CohortItem

/-- A cohort has a written form if the end dates of its items have. -/
theorem Cohort.exists_toJson_iff (c : Cohort) :
    (∃ written, c.toJson = .ok written) ↔
      ∀ item ∈ c.items.getD [], ∃ text, item.endDate.text? = some text := by
  unfold toJson
  cases hitems : c.items with
  | none => exact iff_of_true ⟨_, rfl⟩ fun item hitem => absurd hitem List.not_mem_nil
  | some items =>
    have hall : (∃ written, items.mapM CohortItem.toJson = .ok written) ↔
        ∀ item ∈ items, ∃ text, item.endDate.text? = some text := by
      rw [exists_mapM_eq_ok_iff]
      exact forall₂_congr fun item _ => item.exists_toJson_iff
    rw [Option.getD_some, ← hall]
    dsimp only
    cases items.mapM CohortItem.toJson with
    | error why => exact iff_of_false nofun nofun
    | ok written => exact iff_of_true ⟨_, rfl⟩ ⟨_, rfl⟩

namespace Snapshot

/-- A snapshot has a written form if the time of its block and the end dates of its items have. -/
theorem exists_toJson_iff (s : Snapshot) :
    (∃ written, s.toJson = .ok written) ↔
      (∃ text, s.updatedAt.toRfc3339? = some text) ∧
        ∀ item ∈ s.items, ∃ text, item.endDate.text? = some text := by
  have hcohorts : (∃ written, s.nonCirculating.cohorts.mapM Cohort.toJson = .ok written) ↔
      ∀ item ∈ s.items, ∃ text, item.endDate.text? = some text := by
    rw [exists_mapM_eq_ok_iff]
    simp only [Cohort.exists_toJson_iff, items, List.forall_mem_flatMap]
  rw [← hcohorts]
  unfold toJson
  cases s.updatedAt.toRfc3339? with
  | none => exact iff_of_false nofun nofun
  | some text =>
    cases s.nonCirculating.cohorts.mapM Cohort.toJson with
    | error why => exact iff_of_false nofun nofun
    | ok written => exact iff_of_true ⟨_, rfl⟩ ⟨⟨_, rfl⟩, _, rfl⟩

/-- **Which computed snapshots are written, and how.** Where the policy and the answers of a run are
read, the snapshot has a written form unless an item ends on one of the two days that UTC lacks, and
an item that ends at an instant states its end date if the year in UTC has four digits. -/
theorem isWritten_iff_of_run {text : String} {policy : Policy}
    (hpolicy : Policy.ofText text = .ok policy) {policyEtag : Option String} {denom : String}
    {log : List (Sigma Query.Outcome)} {s : Snapshot}
    (h : (compute policy policyEtag denom).Run log (.ok s))
    (hlog : ∀ x ∈ log, x.1.IsRead x.2) :
    ((∃ written, s.toJson = .ok written) ↔
      ∀ item ∈ s.items, ∀ t, item.endDate = .at t →
        t.toUtc.localDay ≠ yearStart (-9999) - 1 ∧ t.toUtc.localDay ≠ yearStart 10000) ∧
    ∀ item ∈ s.items, ∀ t, item.endDate = .at t →
      (item.StatesEnd ↔ 0 ≤ t.toUtc.localDate.year ∧ t.toUtc.localDate.year ≤ 9999) := by
  obtain ⟨hupdated, hends⟩ := isOnClock_of_run hpolicy h hlog
  refine ⟨?_, fun item _ t ht => CohortItem.statesEnd_iff ht⟩
  have hitem : ∀ item ∈ s.items, (∃ text, item.endDate.text? = some text) ↔
      ∀ t, item.endDate = .at t →
        t.toUtc.localDay ≠ yearStart (-9999) - 1 ∧ t.toUtc.localDay ≠ yearStart 10000 := by
    intro item hitem
    cases hend : item.endDate with
    | none => exact iff_of_true ⟨_, rfl⟩ nofun
    | forever => exact iff_of_true ⟨_, rfl⟩ nofun
    | «at» t =>
      have hclock : t.IsOnClock := hends item hitem t hend
      have hutc : (∃ text, (EndDate.at t).text? = some text) ↔
          Instant.IsSupportedDay t.toUtc.localDay := Instant.exists_utcText?_iff
      rw [hutc, hclock.isSupportedDay_toUtc_iff]
      constructor
      · rintro hdays _ ⟨⟩
        exact hdays
      · intro hdays
        exact hdays t rfl
  rw [exists_toJson_iff, Instant.exists_toRfc3339?_iff, and_iff_right hupdated]
  exact forall₂_congr hitem

end Snapshot

/-! ### A chain with one account -/

/-- The text of a policy with a single account of the foundation. -/
def Policy.soleText : String :=
  "\x7b\"disclosed_lockups\": \x7b\"foundation_genesis\": " ++
    "[\x7b\"name\": \"treasury\", \"address\": \"f\"\x7d]\x7d\x7d"

/-- The policy of that text. -/
def Policy.sole : Policy where
  maxSupply := none
  modules := []
  foundation := [⟨"treasury", "f", none, none⟩]
  bootstraps := []

theorem Policy.ofText_soleText : ofText soleText = .ok sole :=
  eq_ok_of_toOption (by decide +kernel)

/-- An account whose lock opens all at once at the given time. -/
def Json.delayedAccount (endTime : String) : Json :=
  .object [("@type", .string "/cosmos.vesting.v1beta1.DelayedVestingAccount"),
    ("base_vesting_account", .object [
      ("original_vesting", .array [.object [("denom", .string "ulume"), ("amount", .string "7")]]),
      ("end_time", .string endTime)])]

/-- A chain at the beginning of the epoch whose accounts are all read from that account. No claims
are known. -/
def Source.delayed (endTime : String) : Source
  | .account _ => AccountLock.ofJson (Json.delayedAccount endTime)
  | .claims _ _ => .error (.missing "claims")
  | q => Source.small q

theorem Source.isRead_delayed (endTime : String) (q : Query) : q.IsRead (delayed endTime q) := by
  cases q with
  | height => exact ⟨"1970-01-01T00:00:00Z", rfl⟩
  | account address =>
    change Query.IsRead (.account address) (AccountLock.ofJson (Json.delayedAccount endTime))
    cases hlock : AccountLock.ofJson (Json.delayedAccount endTime) with
    | error why => exact trivial
    | ok lock => exact ⟨_, hlock⟩
  | _ => exact trivial

namespace Snapshot

/-- The snapshot of that chain. -/
def delayed (endTime : String) : Snapshot :=
  ofOutcome .sole none "ulume" ⟨7, ⟨0, 0⟩⟩ 1000
    ((Findings.gather .sole "ulume" ⟨0, 0⟩).eval (Source.delayed endTime)).outcome

/-- The run over that chain, and its answers. -/
theorem run_compute_delayed (endTime : String) :
    ∃ log, (compute .sole none "ulume").Run log (.ok (delayed endTime)) ∧
      ∀ x ∈ log, x.1.IsRead x.2 := by
  have heval : (compute .sole none "ulume").eval (Source.delayed endTime) =
      .ok (delayed endTime) := eval_compute .sole none "ulume" (Source.delayed endTime)
  refine ⟨_, heval ▸ run_eval (Source.delayed endTime) (compute .sole none "ulume"), ?_⟩
  intro x hx
  obtain ⟨q, -, rfl⟩ := List.mem_map.mp hx
  exact Source.isRead_delayed endTime q

theorem items_delayed :
    (delayed "2030-01-01T00:00:00Z").items = [⟨"f", "7", .at ⟨1893456000000000000, 0⟩⟩] := by
  decide +kernel

theorem isWritten_iff_of_run_delayed :
    (∃ written, (delayed "2030-01-01T00:00:00Z").toJson = .ok written) ∧
      ∀ item ∈ (delayed "2030-01-01T00:00:00Z").items, item.StatesEnd := by
  obtain ⟨log, hrun, hlog⟩ := run_compute_delayed "2030-01-01T00:00:00Z"
  obtain ⟨hwritten, hstates⟩ := isWritten_iff_of_run Policy.ofText_soleText hrun hlog
  rw [items_delayed] at hwritten hstates ⊢
  refine ⟨hwritten.mpr fun item hitem t ht => ?_, fun item hitem => ?_⟩
  · obtain rfl := List.mem_singleton.mp hitem
    obtain rfl := EndDate.at.inj ht
    decide
  · obtain rfl := List.mem_singleton.mp hitem
    exact (hstates _ hitem _ rfl).mpr (by decide)

theorem not_exists_toJson_delayed :
    ¬∃ written, (delayed "9999-12-31T23:59:59-01:00").toJson = .ok written := by
  intro hwritten
  have hitems : (delayed "9999-12-31T23:59:59-01:00").items =
      [⟨"f", "7", .at ⟨253402304399000000000, -3600⟩⟩] := by decide +kernel
  have hends := ((exists_toJson_iff _).mp hwritten).2
  rw [hitems] at hends
  obtain ⟨text, htext⟩ := hends _ (List.mem_singleton_self _)
  have hnone : (EndDate.at ⟨253402304399000000000, -3600⟩).text? = none := by decide
  exact absurd (htext.symm.trans hnone) (by simp)

theorem exists_not_statesEnd_delayed :
    ∃ item ∈ (delayed "0000-01-01T00:00:00+01:00").items, ∃ t,
      item.endDate = .at t ∧ ¬item.StatesEnd := by
  have hitems : (delayed "0000-01-01T00:00:00+01:00").items =
      [⟨"f", "0", .at ⟨-62167222800000000000, 3600⟩⟩] := by decide +kernel
  rw [hitems]
  refine ⟨_, List.mem_singleton_self _, _, rfl, ?_⟩
  rw [CohortItem.statesEnd_iff rfl]
  decide

/-- A time in the last hour of the year 9999 on a clock behind UTC ends a lock, and the snapshot has
no written form. A time in the first hour of the year 0 on a clock ahead of UTC ends one, and is
written as nothing. -/
theorem not_isWritten_of_run :
    Policy.ofText Policy.soleText = .ok .sole ∧
      (∃ log, (compute .sole none "ulume").Run log (.ok (delayed "9999-12-31T23:59:59-01:00")) ∧
        (∀ x ∈ log, x.1.IsRead x.2) ∧
        ¬∃ written, (delayed "9999-12-31T23:59:59-01:00").toJson = .ok written) ∧
      ∃ log, (compute .sole none "ulume").Run log (.ok (delayed "0000-01-01T00:00:00+01:00")) ∧
        (∀ x ∈ log, x.1.IsRead x.2) ∧
        ∃ item ∈ (delayed "0000-01-01T00:00:00+01:00").items, ∃ t,
          item.endDate = .at t ∧ ¬item.StatesEnd := by
  refine ⟨Policy.ofText_soleText, ?_, ?_⟩
  · obtain ⟨log, hrun, hlog⟩ := run_compute_delayed "9999-12-31T23:59:59-01:00"
    exact ⟨log, hrun, hlog, not_exists_toJson_delayed⟩
  · obtain ⟨log, hrun, hlog⟩ := run_compute_delayed "0000-01-01T00:00:00+01:00"
    exact ⟨log, hrun, hlog, exists_not_statesEnd_delayed⟩

end Snapshot

end Circulation
