import Circulation.Proofs.Snapshot.Occurrences

/-!
# Every place of an address counts for itself

An address stands in places: as that of a module account, in the lists of the policy and in the lists of
claims. Each place is evaluated by a program of its own, which knows of no other place and gets answers
of its own. What the places come to, one after another, is what a snapshot counts for addresses and what
it skips. Nothing compares the places, so what an address holds is counted once for every place that
comes to it, and two equal places come to the same where equal questions are answered equally.

## Main definitions

* `Circulation.Place` — a place of an address; `Circulation.Policy.places` are all those of a run.
* `Circulation.Finding`, `Circulation.Place.evaluate` — what a place comes to by itself.
* `Circulation.AreEvaluated` — places that are evaluated one by one.
* `Circulation.Snapshot.CountsEach` — a snapshot counts what its places come to.

## Main results

* `Circulation.Snapshot.exists_countsEach_of_run` — every place counts for itself.
* `Circulation.Snapshot.timesCounted_le_count` — how often an address is counted.
-/

namespace Circulation

open Numeral Program

/-! ### Places -/

/-- A place of an address: a module account, which is resolved to its address, an account of the
foundation, a bootstrap account, or a claim of a tier. -/
inductive Place where
  | moduleAccount (name : String)
  | foundation (e : FoundationEntry)
  | bootstrap (e : BootstrapEntry)
  | claim (tier : ClaimTier) (record : ClaimRecord)

/-- The places that an answer adds: those of the claims of a tier. -/
def Query.places : (q : Query) → q.Outcome → List Place
  | .claims tier _, .ok records => records.map (.claim tier)
  | _, _ => []

/-- All places under a policy in a run. -/
def Policy.places (policy : Policy) (log : List (Sigma Query.Outcome)) : List Place :=
  policy.modules.map .moduleAccount ++ policy.foundation.map .foundation ++
    policy.bootstraps.map .bootstrap ++ log.flatMap fun x => x.1.places x.2

/-- What a place comes to: its address with the amount that is counted for it, or a skip. -/
abbrev Finding : Type :=
  Except Skip (String × Nat)

namespace Finding

/-- What a place is skipped with. -/
def skip? : Finding → Option Skip
  | .ok _ => none
  | .error skip => some skip

/-- Whether the address of a place is known. -/
def isAddressed : Finding → Bool
  | .ok _ => true
  | .error skip => skip.address.isSome

/-- Whether a place counts an amount other than 0 for an address. -/
def countsFor (address : String) : Finding → Bool
  | .ok (a, amount) => a == address && amount != 0
  | .error _ => false

end Finding

/-- What a cohort of one account comes to. -/
def Single.finding : Single → Finding
  | .ok (cohort, amount) => .ok (cohort.address.getD "", amount)
  | .error skip => .error skip

/-- What an entry of a cohort comes to. -/
def Entry.finding (label : CohortLabel) (e : Entry) : Finding :=
  match e.result with
  | .ok portion => .ok (e.address.getD "", portion.amount)
  | .error why => .error ⟨label.name, e.address, why.message⟩

/-- The evaluation of a place by itself. -/
def Place.evaluate (denom : String) (now : Instant) : Place → Asking Finding
  | .moduleAccount name => do return (← Single.ofModule denom name).finding
  | .foundation e => do return (← Entry.ofFoundation denom now e).finding .foundation
  | .bootstrap e => do return (← Entry.ofBootstrap denom now e).finding .bootstraps
  | .claim tier record => do return (← Entry.ofClaim denom now tier record).finding .claims

/-- Places that are evaluated one by one: each by a run of its own program, with its own part of the
answers of a log. -/
structure AreEvaluated (denom : String) (now : Instant) (log : List (Sigma Query.Outcome))
    (places : List Place) (runs : List (List (Sigma Query.Outcome) × Finding)) : Prop where
  evaluates : List.Forall₂ (fun place run => (place.evaluate denom now).Run run.1 run.2) places runs
  answers : (runs.flatMap (·.1)).Sublist log

/-- A snapshot counts what the places of a run come to, each by itself: the addresses and the amounts
that it counts are those of the places that are not skipped, and its skips with an address are those of
the others. -/
structure Snapshot.CountsEach (s : Snapshot) (policy : Policy) (denom : String)
    (log : List (Sigma Query.Outcome)) (runs : List (List (Sigma Query.Outcome) × Finding)) :
    Prop where
  evaluated : AreEvaluated denom s.updatedAt log (policy.places log) runs
  counted : s.contributions = runs.filterMap (·.2.toOption)
  skipped : s.skipped.filter (·.address.isSome) =
    (runs.filterMap (·.2.skip?)).filter (·.address.isSome)

/-! ### Runs over places -/

namespace AreEvaluated

variable {denom : String} {now : Instant} {log log' : List (Sigma Query.Outcome)}
  {places places' : List Place} {runs runs' : List (List (Sigma Query.Outcome) × Finding)}

theorem nil : AreEvaluated denom now log [] [] :=
  ⟨.nil, List.nil_sublist log⟩

theorem append (h : AreEvaluated denom now log places runs)
    (h' : AreEvaluated denom now log' places' runs') :
    AreEvaluated denom now (log ++ log') (places ++ places') (runs ++ runs') := by
  refine ⟨List.rel_append h.evaluates h'.evaluates, ?_⟩
  rw [List.flatMap_append]
  exact h.answers.append h'.answers

theorem mono (h : AreEvaluated denom now log places runs) (hlog : log.Sublist log') :
    AreEvaluated denom now log' places runs :=
  ⟨h.evaluates, h.answers.trans hlog⟩

/-- Accounts that are gone through one after another are places that are evaluated one by one. -/
theorem of_run_forEach {α β : Type} {program : α → Asking β} (place : α → Place)
    (finding : β → Finding)
    (hplace : ∀ a, (place a).evaluate denom now = (program a).bind fun b => done (finding b))
    {as : List α} {bs : List β} (h : (forEach program as).Run log bs) :
    ∃ runs, AreEvaluated denom now log (as.map place) runs ∧ runs.map (·.2) = bs.map finding := by
  obtain ⟨parts, rfl, rfl, hparts⟩ := exists_runs_of_run_forEach h
  refine ⟨parts.map fun part => (part.1, finding part.2), ⟨?_, ?_⟩, ?_⟩
  · rw [List.forall₂_map_left_iff, List.forall₂_map_right_iff]
    refine hparts.imp fun a part hpart => ?_
    rw [hplace]
    exact run_bind_done_iff.mpr ⟨part.2, hpart, rfl⟩
  · rw [List.flatMap_map]
  · rw [List.map_map, List.map_map]
    rfl

/-- Over a table of answers every place comes to what its evaluation over the table yields. -/
theorem map_eq_map_eval (h : AreEvaluated denom now log places runs) {S : Source}
    (hlog : ∀ x ∈ log, S x.1 = x.2) :
    runs.map (·.2) = places.map fun place => (place.evaluate denom now).eval S := by
  obtain ⟨hruns, hanswers⟩ := h
  induction hruns with
  | nil => rfl
  | @cons place run places runs hrun _ ih =>
    rw [List.flatMap_cons] at hanswers
    have hhead : ∀ x ∈ run.1, S x.1 = x.2 := fun x hx =>
      hlog x (hanswers.subset (List.mem_append_left _ hx))
    rw [List.map_cons, List.map_cons, hrun.eq_eval hhead,
      ih ((List.sublist_append_right _ _).trans hanswers)]

end AreEvaluated

/-! ### The places of claims -/

theorem Query.flatMap_places_eq_nil {log : List (Sigma Query.Outcome)}
    (h : ∀ x ∈ log, x.1.isClaims = false) : log.flatMap (fun x => x.1.places x.2) = [] := by
  rw [List.flatMap_eq_nil_iff]
  rintro ⟨q, answer⟩ hx
  have hq : q.isClaims = false := h _ hx
  cases q with
  | claims tier denom => cases hq
  | _ => rfl

namespace Entry

variable {denom : String} {now : Instant} {log : List (Sigma Query.Outcome)}

/-- The claims of a tier are places that are evaluated one by one, if they are known. -/
theorem exists_areEvaluated_of_run {tier : ClaimTier} {entries : List Entry}
    (h : (ofTier denom now tier).Run log entries) :
    ∃ runs, AreEvaluated denom now log (log.flatMap fun x => x.1.places x.2) runs ∧
      runs.map (·.2) = (entries.map (finding .claims)).filter (·.isAddressed) := by
  obtain ⟨answer, rest, hrest, rfl⟩ := run_ask_iff.mp h
  cases answer with
  | error why =>
    obtain ⟨rfl, rfl⟩ := run_done_iff.mp hrest
    exact ⟨[], .nil, rfl⟩
  | ok records =>
    have hspec : (forEach (ofClaim denom now tier) records).Ensures (·.isClaims = false)
        (List.Forall₂ (fun record e => e.address = some record.address) records) :=
      .forEach fun record _ => (ensures_ofClaim denom now tier record).weaken (by
        rintro q (rfl | rfl) <;> rfl)
    obtain ⟨hentries, hquiet⟩ := hspec.of_run hrest
    obtain ⟨runs, hruns, hfindings⟩ :=
      AreEvaluated.of_run_forEach (.claim tier) (finding .claims) (fun _ => rfl) hrest
    refine ⟨runs, ?_, hfindings.trans (List.filter_eq_self.mpr ?_).symm⟩
    · rw [List.flatMap_cons, Query.flatMap_places_eq_nil hquiet, List.append_nil]
      exact hruns.mono (List.sublist_cons_self _ _)
    · intro found hfound
      obtain ⟨e, he, rfl⟩ := List.mem_map.mp hfound
      obtain ⟨record, -, haddress⟩ := exists_mem_of_forall₂ hentries he
      unfold finding
      cases e.result with
      | ok portion => rfl
      | error why => exact Option.isSome_iff_exists.mpr ⟨_, haddress⟩

theorem exists_areEvaluated_of_run_forEach {tiers : List ClaimTier} {found : List (List Entry)}
    (h : (forEach (ofTier denom now) tiers).Run log found) :
    ∃ runs, AreEvaluated denom now log (log.flatMap fun x => x.1.places x.2) runs ∧
      runs.map (·.2) = (found.flatten.map (finding .claims)).filter (·.isAddressed) := by
  induction tiers generalizing log found with
  | nil =>
    obtain ⟨rfl, rfl⟩ := run_done_iff.mp h
    exact ⟨[], .nil, rfl⟩
  | cons tier tiers ih =>
    obtain ⟨log₁, entries, log₂, h₁, h₂, rfl⟩ := run_bind_iff.mp h
    obtain ⟨log₃, found, log₄, h₃, h₄, rfl⟩ := run_bind_iff.mp h₂
    obtain ⟨rfl, rfl⟩ := run_done_iff.mp h₄
    obtain ⟨runs, hruns, hfindings⟩ := exists_areEvaluated_of_run h₁
    obtain ⟨runs', hruns', hfindings'⟩ := ih h₃
    refine ⟨runs ++ runs', ?_, ?_⟩
    · rw [List.append_nil, List.flatMap_append]
      exact hruns.append hruns'
    · rw [List.map_append, hfindings, hfindings', List.flatten_cons, List.map_append,
        List.filter_append]

end Entry

/-! ### What the findings count -/

namespace Single

/-- A cohort that names no account counts nothing for an address. -/
theorem contributions_of_address?_eq_none {label : CohortLabel} {r : Single} (h : r.IsOf label)
    (haddress : r.address? = none) :
    (Outcome.ofSingle r).counted.flatMap (·.1.contributions) = [] ∧
      (Outcome.ofSingle r).skipped.filter (·.address.isSome) = [] := by
  cases r with
  | ok counted =>
    obtain ⟨cohort, amount⟩ := counted
    change cohort.address = none at haddress
    have hitems : cohort.items = none := h.2.1
    simp [Outcome.ofSingle, Cohort.contributions, haddress, hitems]
  | error skip =>
    change skip.address = none at haddress
    simp [Outcome.ofSingle, haddress]

/-- A cohort that is counted names its account. -/
def NamesAccount (r : Single) : Prop :=
  ∀ counted, r = .ok counted → counted.1.address ≠ none

/-- A cohort of one account counts what it comes to. -/
theorem contributions_of_namesAccount {label : CohortLabel} {r : Single} (h : r.IsOf label)
    (haccount : r.NamesAccount) :
    (Outcome.ofSingle r).counted.flatMap (·.1.contributions) = r.finding.toOption.toList ∧
      (Outcome.ofSingle r).skipped = r.finding.skip?.toList := by
  cases r with
  | ok counted =>
    obtain ⟨cohort, amount⟩ := counted
    obtain ⟨address, haddress⟩ := Option.ne_none_iff_exists'.mp (haccount _ rfl)
    change cohort.address = some address at haddress
    obtain ⟨-, hitems, hamount⟩ := h
    change cohort.items = none at hitems
    change cohort.amount = toString amount at hamount
    have hvalue : value cohort.amount = amount := by rw [hamount, value_toString]
    simp [Outcome.ofSingle, Cohort.contributions, finding, Except.toOption, haddress, hitems, hvalue,
      Finding.skip?]
  | error skip => exact ⟨rfl, rfl⟩

variable {denom : String} {log : List (Sigma Query.Outcome)} {r : Single}

theorem address?_ofEscrow (h : (ofEscrow denom).Run log r) : r.address? = none := by
  have hspec : (ofEscrow denom).Ensures (fun _ => True) (fun r => r.address? = none) := by
    refine ⟨trivial, fun answer => ?_⟩
    cases answer <;> exact rfl
  exact (hspec.of_run h).1

theorem address?_ofCommunityPool (h : (ofCommunityPool denom).Run log r) : r.address? = none := by
  have hspec : (ofCommunityPool denom).Ensures (fun _ => True) (fun r => r.address? = none) := by
    refine ⟨trivial, fun answer => ?_⟩
    cases answer with
    | error why => exact rfl
    | ok raw =>
      dsimp only [done_bind]
      cases Amount.floor raw <;> exact rfl
  exact (hspec.of_run h).1

theorem ensures_namesAccount (denom name : String) :
    (ofModule denom name).Ensures (fun _ => True) NamesAccount := by
  refine ⟨trivial, fun resolved => ?_⟩
  cases resolved with
  | error why => exact nofun
  | ok address =>
    refine ⟨trivial, fun balance => ?_⟩
    cases balance with
    | error why => exact nofun
    | ok amount =>
      rintro counted hcounted
      obtain rfl := Except.ok.inj hcounted
      exact Option.some_ne_none address

end Single

namespace Outcome

/-- A cohort of several accounts counts what its entries come to. -/
theorem contributions_ofEntries (label : CohortLabel) {listed : Bool} {entries : List Entry}
    (hlisted : listed = false → entries.filterMap item? = []) :
    (ofEntries label listed entries).counted.flatMap (·.1.contributions) =
      (entries.map (Entry.finding label)).filterMap (·.toOption) := by
  have hitem : ∀ e : Entry, (e.finding label).toOption =
      (item? e).map fun x => (x.1.address, value x.1.amount) := by
    rintro ⟨address, result⟩
    cases result with
    | ok portion =>
      change some _ = some (address.getD "", value (toString portion.amount))
      rw [value_toString]
    | error why => rfl
  have hitems : (entries.map (Entry.finding label)).filterMap (·.toOption) =
      (entries.filterMap item?).map fun x => (x.1.address, value x.1.amount) := by
    rw [List.filterMap_map, List.map_filterMap]
    exact List.filterMap_congr fun e _ => hitem e
  rw [hitems]
  cases listed with
  | false =>
    rw [hlisted rfl]
    rfl
  | true => rw [ofEntries, if_pos rfl, List.flatMap_singleton, contributions_cohortOf]

theorem skipped_ofEntries (label : CohortLabel) (entries : List Entry) :
    entries.filterMap (skip? label.name) = (entries.map (Entry.finding label)).filterMap (·.skip?) := by
  rw [List.filterMap_map]
  refine List.filterMap_congr fun e _ => ?_
  obtain ⟨address, result⟩ := e
  cases result <;> rfl

end Outcome

namespace Finding

theorem filterMap_filter_isAddressed (found : List Finding) :
    (found.filter (·.isAddressed)).filterMap (·.toOption) = found.filterMap (·.toOption) := by
  rw [List.filterMap_filter]
  refine List.filterMap_congr fun x _ => ?_
  cases x with
  | ok counted => rfl
  | error skip => exact ite_self none

theorem filter_skip?_isAddressed (found : List Finding) :
    ((found.filter (·.isAddressed)).filterMap (·.skip?)).filter (·.address.isSome) =
      (found.filterMap (·.skip?)).filter (·.address.isSome) := by
  rw [List.filterMap_filter, List.filter_filterMap, List.filter_filterMap]
  refine List.filterMap_congr fun x _ => ?_
  cases x with
  | ok counted => rfl
  | error skip =>
    obtain ⟨cohort, address, reason⟩ := skip
    cases address <;> rfl

end Finding

namespace Findings

variable {policy : Policy} {denom : String} {now : Instant} {log : List (Sigma Query.Outcome)}
  {f : Findings}

/-- The module accounts count what they come to. -/
theorem contributions_modules {modules : List Single}
    (hmodules : ∀ r ∈ modules, ∃ label, r.IsOf label)
    (hrun : (forEach (Single.ofModule denom) policy.modules).Run log modules) :
    (modules.flatMap fun r => (Outcome.ofSingle r).counted).flatMap (·.1.contributions) =
        (modules.map Single.finding).filterMap (·.toOption) ∧
      (modules.flatMap fun r => (Outcome.ofSingle r).skipped) =
        (modules.map Single.finding).filterMap (·.skip?) := by
  have haccounts := (Ensures.of_run (.forEach fun name _ => Single.ensures_namesAccount denom name)
    hrun).1
  have heach : ∀ r ∈ modules, (Outcome.ofSingle r).counted.flatMap (·.1.contributions) =
      r.finding.toOption.toList ∧ (Outcome.ofSingle r).skipped = r.finding.skip?.toList := by
    intro r hr
    obtain ⟨label, hlabel⟩ := hmodules r hr
    obtain ⟨name, -, haccount⟩ := exists_mem_of_forall₂ haccounts hr
    exact Single.contributions_of_namesAccount hlabel haccount
  rw [List.flatMap_assoc, List.filterMap_map, List.filterMap_map, List.filterMap_eq_flatMap_toList,
    List.filterMap_eq_flatMap_toList]
  exact ⟨List.flatMap_congr fun r hr => (heach r hr).1, List.flatMap_congr fun r hr => (heach r hr).2⟩

/-- **Every place counts for itself.** A run that gathers findings evaluates the places one by one, and
its outcome counts what they come to. -/
theorem exists_areEvaluated_of_run (h : (gather policy denom now).Run log f) :
    ∃ runs, AreEvaluated denom now log (policy.places log) runs ∧
      f.outcome.counted.flatMap (·.1.contributions) = runs.filterMap (·.2.toOption) ∧
      f.outcome.skipped.filter (·.address.isSome) =
        (runs.filterMap (·.2.skip?)).filter (·.address.isSome) := by
  obtain ⟨answers, -, hcovers⟩ := run_gather h
  obtain ⟨escrow, pool, modules, logE, logP, logM, logF, logB, logC, hsingles, rfl,
    hE, hP, hM, hF, hB, hC⟩ := runs_of_run_gather h
  have hofModule : ∀ name, (Place.moduleAccount name).evaluate denom now =
      (Single.ofModule denom name).bind fun r => done r.finding := fun _ => rfl
  obtain ⟨runsM, hrunsM, hfoundM⟩ :=
    AreEvaluated.of_run_forEach .moduleAccount Single.finding hofModule hM
  obtain ⟨runsF, hrunsF, hfoundF⟩ :=
    AreEvaluated.of_run_forEach .foundation (Entry.finding .foundation) (fun _ => rfl) hF
  obtain ⟨runsB, hrunsB, hfoundB⟩ :=
    AreEvaluated.of_run_forEach .bootstrap (Entry.finding .bootstraps) (fun _ => rfl) hB
  obtain ⟨runsC, hrunsC, hfoundC⟩ := Entry.exists_areEvaluated_of_run_forEach hC
  have hof : ∀ r ∈ escrow :: pool :: modules, ∃ label, r.IsOf label := fun r hr => by
    obtain ⟨label, -, hlabel⟩ := hcovers.isOf_of_mem (hsingles ▸ hr)
    exact ⟨label, hlabel⟩
  obtain ⟨⟨_, hescrow⟩, hof⟩ := List.forall_mem_cons.mp hof
  obtain ⟨⟨_, hpool⟩, hof⟩ := List.forall_mem_cons.mp hof
  obtain ⟨hescrow, hescrow'⟩ :=
    Single.contributions_of_address?_eq_none hescrow (Single.address?_ofEscrow hE)
  obtain ⟨hpool, hpool'⟩ :=
    Single.contributions_of_address?_eq_none hpool (Single.address?_ofCommunityPool hP)
  obtain ⟨hmodules, hmodules'⟩ := contributions_modules hof hM
  -- what the places of a run come to, list by list
  have hfound {β : Type} (read : Finding → Option β) :
      (runsM ++ runsF ++ runsB ++ runsC).filterMap (fun run => read run.2) =
        (modules.map Single.finding).filterMap read ++
          (f.foundation.map (Entry.finding .foundation)).filterMap read ++
          (f.bootstraps.map (Entry.finding .bootstraps)).filterMap read ++
          ((f.claims.flatten.map (Entry.finding .claims)).filter (·.isAddressed)).filterMap read := by
    rw [← hfoundM, ← hfoundF, ← hfoundB, ← hfoundC]
    simp only [List.filterMap_append, List.filterMap_map]
    rfl
  refine ⟨runsM ++ runsF ++ runsB ++ runsC, ?_, ?_, ?_⟩
  · have hplaces : policy.places (logE ++ logP ++ logM ++ logF ++ logB ++ logC) =
        policy.modules.map .moduleAccount ++ policy.foundation.map .foundation ++
          policy.bootstraps.map .bootstrap ++ logC.flatMap fun x => x.1.places x.2 := by
      rw [Policy.places, List.flatMap_append,
        Query.flatMap_places_eq_nil (isClaims_eq_false_of_runs hE hP hM hF hB), List.nil_append]
    rw [hplaces]
    refine (((hrunsM.append hrunsF).append hrunsB).append hrunsC).mono ?_
    simp only [List.append_assoc]
    exact (List.sublist_append_right _ _).trans (List.sublist_append_right _ _)
  · rw [hfound (·.toOption), Finding.filterMap_filter_isAddressed, counted_outcome, hsingles,
      List.flatMap_cons, List.flatMap_cons]
    simp only [List.flatMap_append, hescrow, hpool, List.nil_append, hmodules,
      Outcome.contributions_ofEntries _ Outcome.items_eq_nil_of_isEmpty]
    rw [Outcome.contributions_ofEntries CohortLabel.claims (by simp)]
  · rw [hfound (·.skip?), skipped_outcome, hsingles, List.flatMap_cons, List.flatMap_cons, hmodules']
    simp only [List.filter_append, hescrow', hpool', List.nil_append, Outcome.skipped_ofEntries,
      Finding.filter_skip?_isAddressed]

end Findings

/-! ### The snapshot -/

namespace Snapshot

variable {policy : Policy} {policyEtag : Option String} {denom : String}
  {log : List (Sigma Query.Outcome)} {s : Snapshot}

/-- Every place of a run counts for itself in its snapshot. -/
theorem exists_countsEach_of_run (h : (compute policy policyEtag denom).Run log (.ok s)) :
    ∃ runs, s.CountsEach policy denom log runs := by
  obtain ⟨block, total, log', f, rfl, hf, rfl⟩ := run_compute h
  obtain ⟨runs, hruns, hcounted, hskipped⟩ := Findings.exists_areEvaluated_of_run hf
  refine ⟨runs, hruns.mono ((List.sublist_cons_self _ _).trans (List.sublist_cons_self _ _)), ?_,
    hskipped⟩
  rw [← hcounted]
  simp only [contributions, ofOutcome, List.flatMap_map]

/-- An address is counted as often as places come to an amount for it. -/
theorem CountsEach.timesCounted_eq {runs : List (List (Sigma Query.Outcome) × Finding)}
    (h : s.CountsEach policy denom log runs) (address : String) :
    s.timesCounted address = runs.countP (·.2.countsFor address) := by
  rw [timesCounted, h.counted, List.countP_filterMap]
  refine List.countP_congr fun run _ => ?_
  cases run.2 <;> exact Iff.rfl

/-- **Every place of an address counts for itself.** In every run that yields a snapshot every occurrence
of an address is counted by one cohort or item or is skipped, so the snapshot counts something for an
address at most as often as it occurs. What is counted for addresses, and what is counted as a whole,
makes up the sum. Each place is evaluated by a run of its own program with answers of its own, and what
it comes to is counted or skipped whatever the other places come to. Hence an address is counted exactly
as often as its places come to an amount, and where equal questions are answered equally equal places
come to the same. -/
theorem timesCounted_le_count (h : (compute policy policyEtag denom).Run log (.ok s)) :
    (s.contributions.map (·.1) ++ s.skipped.filterMap (·.address)).Perm (policy.occurrences log) ∧
      value s.nonCirculating.sum = s.wholeAmount + Amount.sum (s.contributions.map (·.2)) ∧
      (∀ address, s.timesCounted address ≤ (policy.occurrences log).count address) ∧
      ∃ runs, s.CountsEach policy denom log runs ∧
        (∀ address, s.timesCounted address = runs.countP (·.2.countsFor address)) ∧
        ∀ S : Source, (∀ x ∈ log, S x.1 = x.2) →
          runs.map (·.2) =
            (policy.places log).map fun place => (place.evaluate denom s.updatedAt).eval S := by
  have hperm := perm_occurrences h
  obtain ⟨runs, hruns⟩ := exists_countsEach_of_run h
  refine ⟨hperm, sum_eq_of_run h, fun address => ?_, runs, hruns, hruns.timesCounted_eq, fun S hS =>
    hruns.evaluated.map_eq_map_eval hS⟩
  have hcount := hperm.count_eq address
  have hcontributions := timesCounted_le_count_contributions s address
  rw [List.count_append] at hcount
  omega

end Snapshot

/-! ### An account listed twice -/

/-- A policy that lists one account among those of the foundation and among the bootstrap
accounts. -/
def Policy.overlapping : Policy where
  maxSupply := none
  modules := []
  foundation := [⟨"treasury", "f", none, none⟩]
  bootstraps := [⟨none, "f", false, none, none, none⟩]

namespace Snapshot

/-- The lock of the account holds 300 at both of its places, and is counted for both. -/
theorem timesCounted_le_count_overlapping :
    ∃ log s, (compute .overlapping none "ulume").Run log (.ok s) ∧
      (s.contributions.map (·.1) ++ s.skipped.filterMap (·.address)).Perm
        (Policy.overlapping.occurrences log) ∧
      value s.nonCirculating.sum = s.wholeAmount + Amount.sum (s.contributions.map (·.2)) ∧
      s.timesCounted "f" = 2 ∧ 2 ≤ (Policy.overlapping.occurrences log).count "f" ∧
      ∃ runs, s.CountsEach .overlapping "ulume" log runs ∧
        runs.countP (·.2.countsFor "f") = 2 ∧
        runs.map (·.2) = (Policy.overlapping.places log).map fun place =>
          (place.evaluate "ulume" s.updatedAt).eval Source.small := by
  have hrun := run_eval Source.small (compute .overlapping none "ulume")
  rw [eval_compute] at hrun
  obtain ⟨hperm, hsum, hle, runs, hruns, htimes, hequal⟩ := timesCounted_le_count hrun
  have htwice := htimes "f"
  have hanswers : ∀ x ∈ ((compute .overlapping none "ulume").questions Source.small).map
      (fun q => (⟨q, Source.small q⟩ : Sigma Query.Outcome)), Source.small x.1 = x.2 := by
    intro x hx
    obtain ⟨q, -, rfl⟩ := List.mem_map.mp hx
    rfl
  have hcounted : (ofOutcome .overlapping none "ulume" ⟨7, ⟨0, 0⟩⟩ 1000
      ((Findings.gather .overlapping "ulume" ⟨0, 0⟩).eval Source.small).outcome).timesCounted "f" =
        2 := by
    decide +kernel
  exact ⟨_, _, hrun, hperm, hsum, hcounted, hcounted ▸ hle "f", runs, hruns, htwice ▸ hcounted,
    hequal Source.small hanswers⟩

/-- An account that is listed twice is counted twice: its lock holds 300 once, and the snapshot
counts that amount in two cohorts. -/
theorem not_timesCounted_le_one :
    ¬∀ (policy : Policy) (policyEtag : Option String) (denom : String) (S : Source) (s : Snapshot),
      (compute policy policyEtag denom).eval S = .ok s →
        ∀ address, s.timesCounted address ≤ 1 := by
  intro h
  have honce := h .overlapping none "ulume" Source.small _
    (eval_compute .overlapping none "ulume" Source.small) "f"
  exact absurd honce (by decide +kernel)

end Snapshot

end Circulation
