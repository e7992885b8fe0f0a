import Circulation.Claim.Listing
import Circulation.Policy.Json
import Circulation.Proofs.Json.Decoding
import Circulation.Proofs.Lock.Times
import Circulation.Proofs.Program.Given
import Circulation.Proofs.Snapshot.Parts

/-!
# The end dates of a snapshot

The end dates of a snapshot come from the times of accounts, of claims and of the policy, and from
the time of the block, some of them after periods or months. Whatever is read, a clock can show it,
and so a clock can show the end dates.

## Main definitions

* `Circulation.Query.IsRead` — the answers that are read from a value or from a text;
  `Circulation.Asking.Reads` is what holds of a program over such answers.
* `Circulation.Snapshot.items` — all items of a snapshot.

## Main results

* `Circulation.Policy.yields_ofText` — a policy that is read can be written.
* `Circulation.Findings.reads_gather` — the end dates of the entries.
* `Circulation.Snapshot.isOnClock_of_run` — the end dates of a snapshot.
-/

namespace Circulation

open Json Program

/-! ### Times that are read -/

/-- A claim whose time a clock can show. -/
def ClaimRecord.IsOnClock (record : ClaimRecord) : Prop :=
  ∀ t ∈ record.time, t.IsOnClock

namespace ClaimRecord

theorem isOnClock_of_timeOf {v : Json} {t : Instant} (h : timeOf v = some t) : t.IsOnClock := by
  unfold timeOf at h
  split at h
  · next s =>
    split at h
    · next u hu =>
      obtain rfl := Option.some.inj h
      exact (Instant.yields_parse s u hu).isOnClock
    · obtain ⟨t?, ht?, ht⟩ := Option.bind_eq_some_iff.mp h
      cases hunix : Instant.ofUnixText s with
      | error why =>
        rw [hunix] at ht?
        exact absurd ht? (by simp [Except.toOption])
      | ok u? =>
        rw [hunix] at ht?
        obtain rfl := Option.some.inj ht?
        exact Instant.yields_ofUnixText s u? hunix t ht
  · obtain ⟨-, hseconds⟩ := Option.ite_none_right_eq_some.mp h
    exact .of_ofUnixSeconds? hseconds
  · exact absurd h (by simp)

theorem isOnClock_of_ofItem? {shape : Shape} {denom : String} {item : Json} {record : ClaimRecord}
    (h : ofItem? shape denom item = some record) : record.IsOnClock := by
  unfold ofItem? at h
  obtain ⟨address, -, h⟩ := Option.bind_eq_some_iff.mp h
  split at h
  · exact absurd h (by simp)
  · obtain rfl := Option.some.inj h
    intro t ht
    obtain ⟨v, -, hv⟩ := Option.bind_eq_some_iff.mp ht
    exact isOnClock_of_timeOf hv

/-- The times of the claims of a text are on a clock. -/
theorem yields_listOfText (denom body : String) :
    Yields (listOfText denom body) fun records => ∀ record ∈ records, record.IsOnClock := by
  have hitems : ∀ (shape : Shape) (items : List Json),
      ∀ record ∈ items.filterMap (ofItem? shape denom), record.IsOnClock := by
    intro shape items record hrecord
    obtain ⟨item, -, hitem⟩ := List.mem_filterMap.mp hrecord
    exact isOnClock_of_ofItem? hitem
  refine (Yields.trivial _).map fun value _ => ?_
  unfold listOfJson
  split
  · exact hitems _ _
  · split
    · exact hitems _ _
    · exact fun record hrecord => absurd hrecord List.not_mem_nil

end ClaimRecord

/-- A bootstrap account whose times a clock can show. -/
structure BootstrapEntry.IsOnClock (e : BootstrapEntry) : Prop where
  startTime : ∀ t ∈ e.startTime, t.IsOnClock
  endTime : ∀ t ∈ e.endTime, t.IsOnClock

/-- A bootstrap account whose times have written forms and whose months are a number of 32 bits. -/
structure BootstrapEntry.IsWritable (e : BootstrapEntry) : Prop where
  months : ∀ n ∈ e.months, n < 4294967296
  startTime : ∀ t ∈ e.startTime, t.IsWritable
  endTime : ∀ t ∈ e.endTime, t.IsWritable

theorem BootstrapEntry.IsWritable.isOnClock {e : BootstrapEntry} (he : e.IsWritable) : e.IsOnClock :=
  ⟨fun t ht => (he.startTime t ht).isOnClock, fun t ht => (he.endTime t ht).isOnClock⟩

namespace Policy

/-- A policy whose bootstrap accounts can be written. -/
def IsWritable (p : Policy) : Prop :=
  ∀ e ∈ p.bootstraps, e.IsWritable

theorem yields_instant : Instant.decoder.Yields Instant.IsWritable :=
  Decoder.yields_refine fun s => (Instant.yields_ofRfc3339 s.toList).mapError

theorem yields_bootstrap : BootstrapEntry.decoder.Yields BootstrapEntry.IsWritable := by
  have hmonths : (Record.defaulted "duration_months" (.optional Decoder.nat32) none).Yields
      fun months => ∀ n ∈ months, n < 4294967296 :=
    Record.yields_defaulted Decoder.yields_nat32.optional nofun
  have htime : ∀ name, (Record.defaulted name (.optional Instant.decoder) none).Yields
      fun t? => ∀ t ∈ t?, t.IsWritable :=
    fun name => Record.yields_defaulted yields_instant.optional nofun
  refine Record.Yields.decoder ?_ _
  refine .seq (.seq (.seq ?_ hmonths) (htime "start_time")) (htime "end_time")
  -- the fields before the months make no difference to them and to the times
  refine .seq (.seq (.map (.trivial _) fun name _ => ?_) (.trivial _)) (.trivial _)
  exact fun _ _ _ _ _ hmonths _ hstart _ hend => ⟨hmonths, hstart, hend⟩

theorem yields_lockups :
    lockupsDecoder.Yields fun lockups => ∀ e ∈ lockups.2, e.IsWritable := by
  refine Record.Yields.decoder (.seq (.map (.trivial _) fun foundation _ => ?_)
    (Record.yields_field yields_bootstrap.list fun form es hes => ?_)) _
  · exact fun bootstraps hbootstraps => hbootstraps
  · obtain rfl := Option.some.inj hes
    exact fun e he => absurd he List.not_mem_nil

theorem yields_decoder : decoder.Yields IsWritable := by
  have hnone : ∀ e ∈ (([], []) : List FoundationEntry × List BootstrapEntry).2, e.IsWritable :=
    fun e he => absurd he List.not_mem_nil
  refine Record.Yields.decoder (.seq ?_ (Record.yields_defaulted yields_lockups hnone)) _
  refine .seq (.map (.trivial _) fun maxSupply _ => ?_) (.trivial _)
  exact fun modules _ lockups hlockups => hlockups

/-- A policy that is read can be written. -/
theorem yields_ofText (text : String) : Yields (ofText text) IsWritable := by
  refine (yields_decoder.ofText text).mapError.bind fun policy hpolicy => ?_
  cases policy.firstFlaw? with
  | some flaw => exact .error _
  | none => exact .ok hpolicy

end Policy

/-- An answer that is read: the time of a block from a text, an account from a value, and claims
from the text of a list. Any other answer has no times. -/
def Query.IsRead : (q : Query) → q.Outcome → Prop
  | .height, .ok block => ∃ text, Instant.parse text = .ok block.time
  | .account _, .ok lock => ∃ account, AccountLock.ofJson account = .ok lock
  | .claims _ denom, .ok records => ∃ body, ClaimRecord.listOfText denom body = .ok records
  | _, _ => True

/-- Over answers that are read, what the program yields has the property. -/
abbrev Asking.Reads {α : Type} (p : Asking α) (result : α → Prop) : Prop :=
  p.EnsuresGiven Query.IsRead (fun _ => True) result

/-! ### The end dates of the entries -/

/-- A portion, if there is one, whose end date a clock can show. -/
abbrev StopsOnClock {ε : Type} (r : Except ε Portion) : Prop :=
  Yields r fun portion => portion.stop.IsOnClock

namespace Entry

/-- An entry whose end date a clock can show. -/
def IsOnClock (e : Entry) : Prop :=
  StopsOnClock e.result

variable {denom : String} {now : Instant}

theorem reads_onChain (denom : String) (now : Instant) (address : String) :
    (onChain denom now address).Reads StopsOnClock := by
  refine ⟨trivial, fun answer hanswer => ?_⟩
  cases answer with
  | error why => exact Yields.error _
  | ok lock =>
    obtain ⟨account, haccount⟩ := hanswer
    have hlock := AccountLock.yields_ofJson account lock haccount
    exact ((Asking.ensures_mentionIf _ _).given _).bind fun _ _ =>
      (hlock.yields_lockedAt denom now).mapError

theorem reads_ofFoundation (denom : String) (now : Instant) (e : FoundationEntry) :
    (ofFoundation denom now e).Reads IsOnClock :=
  (reads_onChain denom now e.address).bind fun _ hportion => hportion.mapError

theorem stop_untilEnd (balance : Nat) (now : Instant) (stop : EndDate) :
    (untilEnd balance now stop).stop = stop := by
  cases stop <;> rfl

/-- The end date by a hint is that of the policy, or some months after a time of the policy or of
the block. -/
theorem yields_hintedEnd? {e : BootstrapEntry} (he : e.IsOnClock) (hnow : now.IsOnClock) :
    ∀ stop ∈ hintedEnd? now e, Yields stop EndDate.IsOnClock := by
  intro stop hstop
  unfold hintedEnd? at hstop
  split at hstop
  · obtain rfl := Option.some.inj hstop
    exact .ok EndDate.isOnClock_forever
  · split at hstop
    · next months _ =>
      obtain rfl := Option.some.inj hstop
      have hstart : (e.startTime.getD now).IsOnClock := .getD he.startTime hnow
      have hmonths : Yields ((e.startTime.getD now).addMonths months) Instant.IsOnClock :=
        fun _ => hstart.addMonths
      exact hmonths.map fun _ => EndDate.isOnClock_at
    · next t _ htime =>
      obtain rfl := Option.some.inj hstop
      exact .ok (EndDate.isOnClock_at (he.endTime t htime))
    · exact absurd hstop (by simp)

theorem reads_hinted {e : BootstrapEntry} (he : e.IsOnClock) (hnow : now.IsOnClock) :
    (hinted denom now e).Reads fun hint => ∀ r ∈ hint, StopsOnClock r := by
  have hend := yields_hintedEnd? he hnow
  unfold hinted
  cases hhint : hintedEnd? now e with
  | none => exact fun r hr => absurd hr (by simp)
  | some stop =>
    cases stop with
    | error why =>
      intro r hr
      obtain rfl := Option.some.inj hr
      exact .error _
    | ok stop =>
      refine ⟨trivial, fun answer _ => ?_⟩
      cases answer with
      | error why =>
        intro r hr
        obtain rfl := Option.some.inj hr
        exact .error _
      | ok balance =>
        intro r hr
        obtain rfl := Option.some.inj hr
        refine .ok ?_
        rw [stop_untilEnd]
        exact hend _ hhint stop rfl

theorem stopsOnClock_preferOnChain {onChain : Except LockFailure Portion}
    {hint : Option (Except HintFailure Portion)} (hchain : StopsOnClock onChain)
    (hhint : ∀ r ∈ hint, StopsOnClock r) : StopsOnClock (preferOnChain onChain hint) := by
  unfold preferOnChain
  split
  · next portion => exact .ok (hhint _ rfl portion rfl)
  · next portion _ => exact .ok (hchain portion rfl)
  · exact .error _
  · exact .error _

theorem reads_ofBootstrap {e : BootstrapEntry} (he : e.IsOnClock) (hnow : now.IsOnClock) :
    (ofBootstrap denom now e).Reads IsOnClock := by
  refine (reads_onChain denom now e.address).bind fun portion hportion => ?_
  split
  · exact Yields.mapError hportion
  · exact (reads_hinted he hnow).bind fun _ => stopsOnClock_preferOnChain hportion

theorem reads_ofRecord {record : ClaimRecord} (hrecord : record.IsOnClock)
    (hnow : now.IsOnClock) (tier : ClaimTier) (why : LockFailure) :
    (ofRecord denom now tier record why).Reads StopsOnClock := by
  have hstart : (record.time.getD now).IsOnClock := .getD hrecord hnow
  unfold ofRecord
  cases hmonths : (record.time.getD now).addMonths tier.months with
  | error why => exact Yields.error _
  | ok stop =>
    refine (((ensures_claimAmount denom record why).weaken fun _ _ => trivial).given _).bind
      fun amount _ => (Yields.trivial amount).map fun n _ => ?_
    rw [stop_untilEnd]
    exact EndDate.isOnClock_at (hstart.addMonths hmonths)

theorem reads_ofClaim {record : ClaimRecord} (hrecord : record.IsOnClock)
    (hnow : now.IsOnClock) (tier : ClaimTier) :
    (ofClaim denom now tier record).Reads IsOnClock := by
  refine (reads_onChain denom now record.address).bind fun portion hportion => ?_
  cases portion with
  | ok portion => exact Yields.ok (hportion portion rfl)
  | error why => exact (reads_ofRecord hrecord hnow tier why).bind fun _ => id

theorem reads_ofTier (hnow : now.IsOnClock) (tier : ClaimTier) :
    (ofTier denom now tier).Reads fun entries => ∀ e ∈ entries, e.IsOnClock := by
  refine ⟨trivial, fun answer hanswer => ?_⟩
  cases answer with
  | error why =>
    intro e he
    obtain rfl := List.mem_singleton.mp he
    exact Yields.error _
  | ok records =>
    obtain ⟨body, hbody⟩ := hanswer
    have hrecords := ClaimRecord.yields_listOfText denom body records hbody
    exact .forEach fun record hrecord => reads_ofClaim (hrecords record hrecord) hnow tier

end Entry

namespace Findings

/-- Findings whose end dates a clock can show. -/
def AreOnClock (f : Findings) : Prop :=
  ∀ entries ∈ [f.foundation, f.bootstraps, f.claims.flatten], ∀ e ∈ entries, e.IsOnClock

/-- **The end dates of the entries.** Over answers that are read, at a time that a clock can show
and under a policy with such times, a clock can show the end date of every entry. -/
theorem reads_gather {policy : Policy} (hpolicy : ∀ e ∈ policy.bootstraps, e.IsOnClock)
    (denom : String) {now : Instant} (hnow : now.IsOnClock) :
    (gather policy denom now).Reads AreOnClock := by
  have hsingles : ∀ {p : Asking Single} {asks : Query → Prop} {result : Single → Prop},
      p.Ensures asks result → p.Reads fun _ => True :=
    fun hp => (hp.given _).weaken (fun _ _ => trivial) fun _ _ => trivial
  refine (hsingles (Single.ensures_ofEscrow denom)).bind fun _ _ => ?_
  refine (hsingles (Single.ensures_ofCommunityPool denom)).bind fun _ _ => ?_
  refine (EnsuresGiven.forEach fun name _ =>
    hsingles (Single.ensures_ofModule denom name)).bind fun _ _ => ?_
  refine (EnsuresGiven.forEach fun account _ =>
    Entry.reads_ofFoundation denom now account).bind fun foundation hfoundation => ?_
  refine (EnsuresGiven.forEach fun account haccount =>
    Entry.reads_ofBootstrap (hpolicy account haccount) hnow).bind fun bootstraps hbootstraps => ?_
  refine (EnsuresGiven.forEach fun tier _ => Entry.reads_ofTier hnow tier).bind
    fun claims hclaims => ?_
  have hflatten : ∀ e ∈ claims.flatten, e.IsOnClock := by
    intro e he
    obtain ⟨entries, hentries, he⟩ := List.mem_flatten.mp he
    exact hclaims entries hentries e he
  intro entries hentries
  simp only [List.mem_cons, List.not_mem_nil, or_false] at hentries
  rcases hentries with rfl | rfl | rfl
  · exact hfoundation
  · exact hbootstraps
  · exact hflatten

end Findings

/-! ### The end dates of a snapshot -/

/-- All items of a snapshot. -/
def Snapshot.items (s : Snapshot) : List CohortItem :=
  s.nonCirculating.cohorts.flatMap fun c => c.items.getD []

/-- The items of entries have their end dates. -/
theorem Outcome.isOnClock_cohortOf (label : CohortLabel) {entries : List Entry}
    (h : ∀ e ∈ entries, e.IsOnClock) :
    ∀ item ∈ (cohortOf label (entries.filterMap item?)).1.items.getD [],
      item.endDate.IsOnClock := by
  rw [items_cohortOf]
  intro item hitem
  obtain ⟨x, hx, rfl⟩ := List.mem_map.mp hitem
  obtain ⟨e, he, hx⟩ := List.mem_filterMap.mp hx
  have hon := h e he
  unfold item? at hx
  split at hx
  · next portion hportion =>
    obtain rfl := Option.some.inj hx
    exact hon portion hportion
  · exact absurd hx (by simp)

/-- **The end dates of a snapshot.** Where the policy and the answers of a run are read, the time of
the block can be written, and a clock can show the end date of every item. -/
theorem Snapshot.isOnClock_of_run {text : String} {policy : Policy}
    (hpolicy : Policy.ofText text = .ok policy) {policyEtag : Option String} {denom : String}
    {log : List (Sigma Query.Outcome)} {s : Snapshot}
    (h : (compute policy policyEtag denom).Run log (.ok s))
    (hlog : ∀ x ∈ log, x.1.IsRead x.2) :
    s.updatedAt.IsWritable ∧ ∀ item ∈ s.items, item.endDate.IsOnClock := by
  obtain ⟨block, total, log', f, rfl, hf, rfl⟩ := run_compute h
  obtain ⟨hheight, hrest⟩ := List.forall_mem_cons.mp hlog
  obtain ⟨-, hlog'⟩ := List.forall_mem_cons.mp hrest
  obtain ⟨time, htime⟩ := hheight
  have hwritable : block.time.IsWritable := Instant.yields_parse time block.time htime
  obtain ⟨answers, -, hcovers⟩ := Findings.run_gather hf
  have hbootstraps : ∀ e ∈ policy.bootstraps, e.IsOnClock := fun e he =>
    (Policy.yields_ofText text policy hpolicy e he).isOnClock
  have hstops := ((Findings.reads_gather hbootstraps denom
    hwritable.isOnClock).of_run hf hlog').1
  refine ⟨hwritable, fun item hitem => ?_⟩
  obtain ⟨cohort, hcohort, hitem⟩ := List.mem_flatMap.mp hitem
  obtain ⟨c, hc, rfl⟩ := List.mem_map.mp hcohort
  rcases hcovers.mem_counted hc with ⟨label, -, hof⟩ | ⟨label, entries, hentries, rfl⟩
  · -- a cohort that is counted as one has no items
    rw [hof.2.1] at hitem
    exact absurd hitem List.not_mem_nil
  · exact Outcome.isOnClock_cohortOf label (hstops entries hentries) item hitem

end Circulation
