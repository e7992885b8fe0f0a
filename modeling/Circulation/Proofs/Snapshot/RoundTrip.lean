import Circulation.Proofs.Policy.RoundTrip
import Circulation.Proofs.Snapshot.Writing

/-!
# Snapshots that are written and read back

A snapshot that is written is read back as the same snapshot, apart from the end dates at an instant:
these are written in UTC to the whole second, and that is what is read. What is read has the same
written form.

## Main definitions

* `Circulation.EndDate.floored`, `Circulation.Snapshot.floored` — what is read back.
* `Circulation.EndDate.ShowsYear` — an end date whose year in UTC has four digits.

## Main results

* `Circulation.Snapshot.ofText_toJson` — the round trip of a snapshot.
-/

namespace Circulation

open Json

/-! ### End dates -/

namespace EndDate

/-- The end date that is read back: an instant in UTC at the whole second. -/
def floored : EndDate → EndDate
  | .at t => .at t.floorToSecond
  | d => d

/-- An end date that is not at an instant or whose year in UTC has four digits. -/
def ShowsYear (d : EndDate) : Prop :=
  ∀ t, d = .at t → 0 ≤ t.toUtc.localDate.year ∧ t.toUtc.localDate.year ≤ 9999

theorem parse_of_isShownBy {t : Instant} {text : String} (h : t.IsShownBy text.toList) :
    parse text = .ok (.at t) := by
  obtain ⟨c, cs, -, -, hcs, -, hc, -, hhyphen⟩ := h.exists_ends
  have hempty : text ≠ "" := by
    rintro rfl
    exact nomatch hcs
  have hforever : text ≠ foreverText := by
    rintro rfl
    exact absurd hhyphen (by decide)
  rw [parse, if_neg hempty, if_neg hforever, h.parse]
  rfl

/-- An end date is written as a text that is read back. -/
theorem exists_text? {d : EndDate} (h : d.ShowsYear) :
    ∃ text, d.text? = some text ∧ d.floored.text? = some text ∧
      decoder (Tree.ofJson (.string text)).node = .ok d.floored := by
  have hread : ∀ {text : String}, parse text = .ok d.floored →
      decoder (Tree.ofJson (.string text)).node = .ok d.floored := by
    intro text hparse
    have hstring : Decoder.string (Tree.ofJson (.string text)).node = .ok text := rfl
    rw [← toOption_eq_some_iff, decoder, Decoder.toOption_refine, hstring]
    show ((parse text).mapError ReadError.message).toOption = some d.floored
    rw [hparse]
    rfl
  cases d with
  | none => exact ⟨"", rfl, rfl, hread rfl⟩
  | forever => exact ⟨foreverText, rfl, rfl, hread rfl⟩
  | «at» t =>
    obtain ⟨text, htext, -⟩ := Instant.exists_utcText?_ne_iff.mpr (h t rfl)
    refine ⟨text, htext, (Instant.utcText?_floorToSecond t).trans htext, hread ?_⟩
    exact parse_of_isShownBy (Instant.isShownBy_of_utcText? (h t rfl).1 htext)

end EndDate

/-! ### Items, cohorts and skipped entries -/

/-- The item that is read back. -/
def CohortItem.floored (item : CohortItem) : CohortItem :=
  { item with endDate := item.endDate.floored }

/-- The fields of a written item that has an end date. -/
def CohortItem.written (item : CohortItem) (endDate : String) : List (String × Option Json) :=
  [("address", some (.string item.address)), ("amount", some (.string item.amount)),
    ("end_date", some (.string endDate))]

theorem CohortItem.exists_isReadBack {item : CohortItem} (h : item.endDate.ShowsYear) :
    ∃ v, IsReadBack toJson decoder item item.floored v := by
  obtain ⟨text, htext, hfloored, hread⟩ := EndDate.exists_text? h
  by_cases hnone : item.endDate = .none
  · obtain ⟨address, amount, endDate⟩ := item
    obtain rfl : endDate = .none := hnone
    exact ⟨_, rfl, rfl, rfl, trivial, trivial, trivial⟩
  · have hnone' : item.floored.endDate ≠ .none := by
      unfold floored EndDate.floored
      cases hend : item.endDate <;> simp_all
    refine ⟨_, toJson_of_text? hnone htext, toJson_of_text? hnone' hfloored, ?_, trivial, trivial,
      trivial, trivial⟩
    have hnodup : ((item.written text).map (·.1)).Nodup := by simp [written]
    have hhas := has_membersOf hnodup
    have hend : (Record.defaulted "end_date" EndDate.decoder .none).Reads _ item.endDate.floored :=
      (hhas 2 rfl).reads_defaulted (by simpa using hread) nofun
    exact Record.Reads.decoder (.seq (.seq (.map (hhas 0 rfl).reads_string _)
      (hhas 1 rfl).reads_string) hend) (by decide) (isSome_of_mem_ofMembers _) _

/-- The cohort that is read back. -/
def Cohort.floored (c : Cohort) : Cohort :=
  { c with items := c.items.map (·.map CohortItem.floored) }

/-- The fields of a written cohort, its items as they are written. -/
def Cohort.written (c : Cohort) (items? : Option Json) : List (String × Option Json) :=
  [("name", some (.string c.name)), ("reason", some (.string c.reason)),
    ("address", c.address.map .string), ("items", items?), ("amount", some (.string c.amount))]

theorem Cohort.exists_isReadBack {c : Cohort}
    (h : ∀ item ∈ c.items.getD [], item.endDate.ShowsYear) :
    ∃ v, IsReadBack toJson decoder c c.floored v := by
  have hwritten : ∃ items?, (∀ v ∈ items?, v.HasIntegers ∧
      Decoder.optional (.list CohortItem.decoder) (Tree.ofJson v).node = .ok c.floored.items) ∧
      (items? = none → c.floored.items = none) ∧
      c.toJson = .ok (.object (membersOf (c.written items?))) ∧
      c.floored.toJson = .ok (.object (membersOf (c.written items?))) := by
    obtain ⟨name, reason, address, items, amount⟩ := c
    cases items with
    | none => exact ⟨none, nofun, fun _ => rfl, by cases address <;> rfl, by cases address <;> rfl⟩
    | some items =>
      have hitems : ∀ item ∈ items, ∃ v, IsReadBack CohortItem.toJson CohortItem.decoder item
          item.floored v := fun item hitem => CohortItem.exists_isReadBack (h item hitem)
      obtain ⟨vs, hwritten, hagain, hread, hintegers⟩ := isReadBack_list hitems
      refine ⟨some (.array vs), ?_, nofun, ?_, ?_⟩
      · intro v hv
        obtain rfl := Option.some.inj hv
        exact ⟨hintegers, congrArg (Except.map some) hread⟩
      · unfold toJson
        dsimp only
        rw [hwritten]
        cases address <;> rfl
      · unfold toJson floored
        dsimp only [Option.map]
        rw [hagain]
        cases address <;> rfl
  obtain ⟨items?, hitems, hnone, hwritten, hagain⟩ := hwritten
  have hnodup : ((c.written items?).map (·.1)).Nodup := by simp [written]
  have hhas := has_membersOf hnodup
  refine ⟨_, hwritten, hagain, ?_, ?_⟩
  · have hread : (Record.defaulted "items" (.optional (.list CohortItem.decoder)) none).Reads _
        c.floored.items :=
      (hhas 3 rfl).reads_defaulted (fun v hv => (hitems v hv).2) fun hv => (hnone hv).symm
    exact Record.Reads.decoder (.seq (.seq (.seq (.seq (.map (hhas 0 rfl).reads_string _)
      (hhas 1 rfl).reads_string) (hhas 2 rfl).reads_optional_string) hread)
      (hhas 4 rfl).reads_string) (by decide) (isSome_of_mem_ofMembers _) _
  · refine membersHaveIntegers_membersOf.mpr ?_
    simp only [written, List.forall_mem_cons]
    exact ⟨hasIntegers_optional_string (some c.name), hasIntegers_optional_string (some c.reason),
      hasIntegers_optional_string _, fun v hv => (hitems v hv).1,
      hasIntegers_optional_string (some c.amount), List.forall_mem_nil _⟩

theorem Skip.decoder_toJson (s : Skip) : decoder (Tree.ofJson s.toJson).node = .ok s := by
  obtain ⟨cohort, address, reason⟩ := s
  cases address <;> rfl

theorem Skip.hasIntegers_toJson (s : Skip) : s.toJson.HasIntegers := by
  obtain ⟨cohort, address, reason⟩ := s
  cases address <;> simp [toJson, memberOf?, HasIntegers, MembersHaveIntegers]

/-- The fields of the written parts that do not circulate. -/
def NonCirculating.written (sum : String) (cohorts : List Json) : List (String × Option Json) :=
  [("sum", some (.string sum)), ("cohorts", some (.array cohorts))]

theorem NonCirculating.decoder_of_cohorts {sum : String} {cohorts : List Cohort} {vs : List Json}
    (h : Decoder.list Cohort.decoder (Tree.ofJson (.array vs)).node = .ok cohorts) :
    decoder (Tree.ofJson (.object [("sum", .string sum), ("cohorts", .array vs)])).node =
      .ok ⟨sum, cohorts⟩ := by
  have hnodup : ((written sum vs).map (·.1)).Nodup := by simp [written]
  have hhas := has_membersOf hnodup
  have hcohorts : (Record.required "cohorts" (.list Cohort.decoder)).Reads _ cohorts :=
    (hhas 1 rfl).reads_required h
  exact Record.Reads.decoder (.seq (.map (hhas 0 rfl).reads_string _) hcohorts) (by decide)
    (isSome_of_mem_ofMembers _) _

/-! ### Snapshots -/

namespace Snapshot

/-- The snapshot that is read back. -/
def floored (s : Snapshot) : Snapshot :=
  { s with nonCirculating :=
    { s.nonCirculating with cohorts := s.nonCirculating.cohorts.map Cohort.floored } }

/-- The fields of a written snapshot, the time of its block and its cohorts as they are written. -/
def written (s : Snapshot) (updatedAt : String) (cohorts : List Json) : List (String × Option Json) :=
  [("denom", some (.string s.denom)), ("height", some (.number (.int s.height))),
    ("updated_at", some (.string updatedAt)), ("etag", some (.string s.etag)),
    ("policy_etag", s.policyEtag.map .string), ("total", some (.string s.total)),
    ("circulating", some (.string s.circulating)), ("max", some (ofText? s.max)),
    ("non_circulating",
      some (.object [("sum", .string s.nonCirculating.sum), ("cohorts", .array cohorts)])),
    ("skipped", arrayOf? (s.skipped.map Skip.toJson))]

/-- A snapshot is written once the time of its block and its cohorts are. -/
theorem toJson_eq {s : Snapshot} {updatedAt : String} {cohorts : List Json}
    (hupdated : s.updatedAt.toRfc3339? = some updatedAt)
    (hcohorts : s.nonCirculating.cohorts.mapM Cohort.toJson = .ok cohorts) :
    s.toJson = .ok (.object (membersOf (s.written updatedAt cohorts))) := by
  unfold toJson
  rw [hupdated, hcohorts]
  refine congrArg (fun ms => Except.ok (Json.object ms)) ?_
  simp [membersOf, written, memberOfList_eq, memberOf?]

theorem decoder_written {s : Snapshot} (hheight : Numeral.FitsInt64 s.height) {updatedAt : String}
    (hupdated : s.updatedAt.toRfc3339? = some updatedAt) {cohorts : List Json}
    (hcohorts : Decoder.list Cohort.decoder (Tree.ofJson (.array cohorts)).node =
      .ok s.nonCirculating.cohorts) :
    decoder (Tree.ofJson (.object (membersOf (s.written updatedAt cohorts)))).node = .ok s := by
  have hnodup : ((s.written updatedAt cohorts).map (·.1)).Nodup := by simp [written]
  have hhas := has_membersOf hnodup
  rw [Tree.ofJson]
  generalize membersOf (s.written updatedAt cohorts) = ms at hhas ⊢
  have hheight : (Record.required "height" Decoder.int64).Reads (Tree.ofMembers ms) s.height :=
    (hhas 1 rfl).reads_required (if_pos hheight)
  have hupdated : (Record.required "updated_at" Instant.decoder).Reads (Tree.ofMembers ms) s.updatedAt :=
    (hhas 2 rfl).reads_required (Instant.decoder_of_toRfc3339? hupdated)
  have hmax : (Record.nullable "max" Decoder.string).Reads (Tree.ofMembers ms) s.max := by
    refine (hhas 7 rfl).reads_field (List.forall_mem_nil _) (fun v hv => ?_) nofun
    obtain rfl := Option.some.inj hv
    cases s.max <;> rfl
  have hparts : (Record.required "non_circulating" NonCirculating.decoder).Reads (Tree.ofMembers ms)
      s.nonCirculating :=
    (hhas 8 rfl).reads_required (NonCirculating.decoder_of_cohorts hcohorts)
  have hskips : List.Forall₂ (fun skip v => Skip.decoder (Tree.ofJson v).node = .ok skip) s.skipped
      (s.skipped.map Skip.toJson) :=
    List.forall₂_map_right_iff.mpr (List.forall₂_same.mpr fun skip _ => skip.decoder_toJson)
  have hskipped := (hhas 9 rfl).reads_list (List.forall_mem_nil _) hskips
  exact Record.Reads.decoder (.seq (.seq (.seq (.seq (.seq (.seq (.seq (.seq (.seq
    (.map (hhas 0 rfl).reads_string _) hheight) hupdated) (hhas 3 rfl).reads_string)
    (hhas 4 rfl).reads_optional_string) (hhas 5 rfl).reads_string) (hhas 6 rfl).reads_string) hmax)
    hparts) hskipped) (by decide) (isSome_of_mem_ofMembers _) _

theorem hasIntegers_written {s : Snapshot} (hheight : Numeral.FitsInt64 s.height) (updatedAt : String)
    {cohorts : List Json} (hcohorts : (Json.array cohorts).HasIntegers) :
    (Json.object (membersOf (s.written updatedAt cohorts))).HasIntegers := by
  have hsome : ∀ {v : Json}, v.HasIntegers → ∀ v' ∈ some v, v'.HasIntegers := by
    rintro v hv _ ⟨⟩
    exact hv
  have hnumber : (Json.number (.int s.height)).HasIntegers := by
    obtain ⟨hlow, hhigh⟩ := hheight
    exact ⟨hlow, by simp only [Number.wordLimit]; omega⟩
  have hmax : (ofText? s.max).HasIntegers := by cases s.max <;> trivial
  refine membersHaveIntegers_membersOf.mpr ?_
  simp only [written, List.forall_mem_cons, hasIntegers_arrayOf?, List.forall_mem_map]
  exact ⟨hsome trivial, hsome hnumber, hsome trivial, hsome trivial, hasIntegers_optional_string _,
    hsome trivial, hsome trivial, hsome hmax, hsome ⟨trivial, hcohorts, trivial⟩,
    fun skip _ => skip.hasIntegers_toJson, List.forall_mem_nil _⟩

/-! ### Texts of snapshots -/

/-- The decoder of a snapshot looks down to the items of its cohorts and no deeper. -/
theorem sees_decoder : decoder.Sees 6 := by
  have hstring : ∀ depth, Decoder.string.Sees depth := fun depth =>
    Decoder.sees_string.mono (Nat.zero_le depth)
  have hoptional : ∀ depth, (Decoder.optional Decoder.string).Sees depth := fun depth =>
    (hstring depth).optional
  have hitem : CohortItem.decoder.Sees 1 :=
    Record.Sees.decoder (.seq (.seq (.map (Record.sees_field (hstring 0) _) _)
      (Record.sees_field (hstring 0) _)) (Record.sees_field ((hstring 0).refine _) _)) _
  have hcohort : Cohort.decoder.Sees 3 :=
    Record.Sees.decoder (.seq (.seq (.seq (.seq (.map (Record.sees_field (hstring 2) _) _)
      (Record.sees_field (hstring 2) _)) (Record.sees_field (hoptional 2) _))
      (Record.sees_field hitem.list.optional _)) (Record.sees_field (hstring 2) _)) _
  have hskip : Skip.decoder.Sees 1 :=
    Record.Sees.decoder (.seq (.seq (.map (Record.sees_field (hstring 0) _) _)
      (Record.sees_field (hoptional 0) _)) (Record.sees_field (hstring 0) _)) _
  have hparts : NonCirculating.decoder.Sees 5 :=
    Record.Sees.decoder (.seq (.map (Record.sees_field (hstring 4) _) _)
      (Record.sees_field hcohort.list _)) _
  have hheight : Decoder.int64.Sees 5 := (Decoder.sees_integer _ _ _).mono (by decide)
  have hupdated : Instant.decoder.Sees 5 := ((Decoder.sees_stringAs _).refine _).mono (by decide)
  have hskipped : (Decoder.list Skip.decoder).Sees 5 := hskip.list.mono (by decide)
  exact Record.Sees.decoder (.seq (.seq (.seq (.seq (.seq (.seq (.seq (.seq (.seq
    (.map (Record.sees_field (hstring 5) _) _) (Record.sees_field hheight _))
    (Record.sees_field hupdated _)) (Record.sees_field (hstring 5) _))
    (Record.sees_field (hoptional 5) _)) (Record.sees_field (hstring 5) _))
    (Record.sees_field (hstring 5) _)) (Record.sees_field (hoptional 5) _))
    (Record.sees_field hparts _)) (Record.sees_field hskipped _)) _

/-- **The round trip of a snapshot.** A snapshot whose height has 64 bits, whose time can be written
and whose end dates have years of four digits in UTC is written as a text that is read back as the
same snapshot, apart from its end dates at an instant, which become whole seconds in UTC; and what is
read back is written as the same text. -/
theorem ofText_toJson {s : Snapshot} (hheight : Numeral.FitsInt64 s.height)
    (hupdated : s.updatedAt.IsWritable)
    (hends : ∀ item ∈ s.items, ∀ t, item.endDate = .at t →
      0 ≤ t.toUtc.localDate.year ∧ t.toUtc.localDate.year ≤ 9999) :
    ∃ v, s.toJson = .ok v ∧ ofText (compact v) = .ok s.floored ∧ s.floored.toJson = .ok v := by
  obtain ⟨text, htext⟩ := Instant.exists_toRfc3339?_iff.mpr hupdated
  have hcohort : ∀ c ∈ s.nonCirculating.cohorts, ∃ v, IsReadBack Cohort.toJson Cohort.decoder c
      c.floored v := fun c hc =>
    Cohort.exists_isReadBack fun item hitem => hends item (List.mem_flatMap.mpr ⟨c, hc, hitem⟩)
  obtain ⟨vs, hwritten, hagain, hread, hintegers⟩ := isReadBack_list hcohort
  have hsame : s.floored.written text vs = s.written text vs := rfl
  have hv : s.toJson = .ok (.object (membersOf (s.written text vs))) := toJson_eq htext hwritten
  have hv' : s.floored.toJson = .ok (.object (membersOf (s.written text vs))) :=
    hsame ▸ toJson_eq (s := s.floored) htext hagain
  refine ⟨_, hv, toOption_eq_some_iff.mp ?_, hv'⟩
  have hdecoder := decoder_written (s := s.floored) hheight htext hread
  have hisText := isText_compact (hasIntegers_written hheight text hintegers)
  rw [ofText, sees_decoder.ofText (by decide) hisText, ← hsame, hdecoder]
  rfl

/-- A snapshot with one end date, half a second past a full one on a clock behind UTC. -/
theorem ofText_toJson_small :
    let snapshot (stop : Instant) : Snapshot :=
      ⟨"ulume", -1, ⟨1748736000123456789, 7200⟩, "", none, "10", "3", some "9", ⟨"7",
        [⟨"foundation_genesis", "vesting", none, some [⟨"a", "7", .at stop⟩], "7"⟩]⟩, []⟩
    ∃ v, (snapshot ⟨1748736000500000000, -3600⟩).toJson = .ok v ∧
      ofText (compact v) = .ok (snapshot ⟨1748736000000000000, 0⟩) ∧
      (snapshot ⟨1748736000000000000, 0⟩).toJson = .ok v := by
  refine ofText_toJson (s := ⟨"ulume", -1, ⟨1748736000123456789, 7200⟩, "", none, "10", "3", some "9",
    ⟨"7", [⟨"foundation_genesis", "vesting", none,
      some [⟨"a", "7", .at ⟨1748736000500000000, -3600⟩⟩], "7"⟩]⟩, []⟩) (by decide)
    ⟨by decide, by decide, by decide⟩ fun item hitem t ht => ?_
  obtain rfl := List.mem_singleton.mp hitem
  obtain rfl := EndDate.at.inj ht
  decide

end Snapshot

end Circulation
