import Circulation.Proofs.Instant.Rendering
import Circulation.Proofs.Json.Outline
import Circulation.Proofs.Json.Written
import Circulation.Proofs.Snapshot.EndDates

/-!
# Policies that are written and read back

A policy that is read has a written form, since its times are read from texts that show them. The
written form leaves out the fields that have their default and is read as the same policy.

## Main results

* `Circulation.Policy.exists_toJson?` — a policy whose times can be written has a written form.
* `Circulation.Policy.decoder_toJson?` — the written form of a policy is read as the policy.
-/

namespace Circulation

open Json

/-! ### Times -/

namespace Instant

/-- A written instant is read as the instant. -/
theorem decoder_of_toRfc3339? {t : Instant} {s : String} (h : t.toRfc3339? = some s) :
    decoder (Tree.ofJson (.string s)).node = .ok t := by
  have hread := (isShownBy_of_toRfc3339? h).ofRfc3339
  have hstring : ∀ want, Decoder.stringAs want (Tree.ofJson (.string s)).node = .ok s := fun _ => rfl
  rw [← toOption_eq_some_iff, decoder, Decoder.toOption_refine, hstring]
  show ((ofRfc3339 s.toList).mapError Unreadable.message).toOption = some t
  rw [hread]
  rfl

/-- What stands for an instant that may be absent is nothing or a text. -/
theorem toJson?_eq_some {t? : Option Instant} {v? : Option Json} (h : toJson? t? = some v?) :
    (∀ v ∈ v?, v.HasIntegers ∧ Decoder.optional decoder (Tree.ofJson v).node = .ok t?) ∧
      (v? = none → t? = none) := by
  cases t? with
  | none =>
    obtain rfl := Option.some.inj h
    exact ⟨nofun, fun _ => rfl⟩
  | some t =>
    obtain ⟨s, hs, rfl⟩ := Option.map_eq_some_iff.mp h
    refine ⟨fun v hv => ?_, nofun⟩
    obtain rfl := Option.some.inj hv
    refine ⟨trivial, ?_⟩
    show (decoder (Tree.ofJson (.string s)).node).map some = .ok (some t)
    rw [decoder_of_toRfc3339? hs]
    rfl

theorem exists_toJson? {t? : Option Instant} (h : ∀ t ∈ t?, t.IsWritable) :
    ∃ v?, toJson? t? = some v? := by
  cases t? with
  | none => exact ⟨none, rfl⟩
  | some t =>
    obtain ⟨s, hs⟩ := exists_toRfc3339?_iff.mpr (h t rfl)
    exact ⟨some (.string s), by rw [toJson?, hs]; rfl⟩

end Instant

/-- A number of 32 bits is read from its numeral. -/
theorem Json.Decoder.nat32_of_lt {n : Nat} (h : n < 4294967296) :
    Decoder.nat32 (Tree.ofJson (.number (.int n))).node = .ok n := by
  have hinteger : Decoder.integer "u32" 0 4294967295 (Tree.ofJson (.number (.int n))).node =
      .ok (n : Int) := if_pos ⟨by omega, by omega⟩
  rw [Decoder.nat32, hinteger]
  rfl

/-! ### Accounts of the foundation -/

namespace FoundationEntry

theorem decoder_toJson (e : FoundationEntry) : decoder (Tree.ofJson e.toJson).node = .ok e := by
  obtain ⟨name, address, reason, custody⟩ := e
  cases reason <;> cases custody <;> rfl

theorem hasIntegers_toJson (e : FoundationEntry) : e.toJson.HasIntegers := by
  obtain ⟨name, address, reason, custody⟩ := e
  cases reason <;> cases custody <;> simp [toJson, memberOf?, HasIntegers, MembersHaveIntegers]

end FoundationEntry

/-! ### Bootstrap accounts -/

namespace BootstrapEntry

variable {e : BootstrapEntry}

theorem exists_toJson? (h : e.IsWritable) : ∃ written, e.toJson? = some written := by
  obtain ⟨start?, hstart⟩ := Instant.exists_toJson? h.startTime
  obtain ⟨end?, hend⟩ := Instant.exists_toJson? h.endTime
  unfold toJson?
  rw [hstart, hend]
  exact ⟨_, rfl⟩

/-- The fields of a written bootstrap account, those of its times as they are written. -/
def written (e : BootstrapEntry) (start? end? : Option Json) : List (String × Option Json) :=
  [("name", e.name.map .string), ("address", some (.string e.address)),
    ("permanent", if e.permanent then some (.bool true) else none),
    ("duration_months", e.months.map fun n : Nat => .number (.int n)), ("start_time", start?),
    ("end_time", end?)]

theorem toJson?_eq_some_iff {v : Json} :
    e.toJson? = some v ↔ ∃ start? end?, Instant.toJson? e.startTime = some start? ∧
      Instant.toJson? e.endTime = some end? ∧ v = .object (membersOf (e.written start? end?)) := by
  have hmembers : ∀ start? end?, membersOf (e.written start? end?) =
      memberOf? "name" (e.name.map .string) ++ [("address", .string e.address)] ++
        (if e.permanent then [("permanent", .bool true)] else []) ++
        memberOf? "duration_months" (e.months.map fun n => .number (.int n)) ++
        memberOf? "start_time" start? ++ memberOf? "end_time" end? := by
    intro start? end?
    cases hpermanent : e.permanent <;> cases hmonths : e.months <;>
      simp [membersOf, written, memberOf?, hpermanent, hmonths]
  unfold toJson?
  simp only [Option.bind_eq_bind, Option.bind_eq_some_iff, Option.pure_def, Option.some.injEq,
    hmembers]
  constructor
  · rintro ⟨start?, hstart, end?, hend, rfl⟩
    exact ⟨start?, end?, hstart, hend, rfl⟩
  · rintro ⟨start?, end?, hstart, hend, rfl⟩
    exact ⟨start?, hstart, end?, hend, rfl⟩

theorem decoder_toJson? {v : Json} (h : e.toJson? = some v) (hmonths : ∀ n ∈ e.months, n < 4294967296) :
    decoder (Tree.ofJson v).node = .ok e := by
  rw [toJson?_eq_some_iff] at h
  obtain ⟨start?, end?, hstart, hend, rfl⟩ := h
  have hstart := Instant.toJson?_eq_some hstart
  have hend := Instant.toJson?_eq_some hend
  have hnodup : ((e.written start? end?).map (·.1)).Nodup := by simp [written]
  have hhas := has_membersOf hnodup
  rw [Tree.ofJson]
  generalize membersOf (e.written start? end?) = ms at hhas ⊢
  have hname := (hhas 0 rfl).reads_optional_string
  have haddress := (hhas 1 rfl).reads_string
  have hpermanent : (Record.defaulted "permanent" Decoder.bool false).Reads (Tree.ofMembers ms)
      e.permanent := by
    refine (hhas 2 rfl).reads_defaulted (fun v hv => ?_) fun hv => ?_
    · obtain ⟨hpermanent, hv⟩ := Option.ite_none_right_eq_some.mp hv
      rw [hpermanent, ← Option.some.inj hv]
      rfl
    · exact (Bool.eq_false_iff.mpr (by simpa using hv)).symm
  have hmonths : (Record.defaulted "duration_months" (.optional Decoder.nat32) none).Reads
      (Tree.ofMembers ms) e.months := by
    refine (hhas 3 rfl).reads_defaulted (fun v hv => ?_) fun hv => (Option.map_eq_none_iff.mp hv).symm
    obtain ⟨n, hn, rfl⟩ := Option.map_eq_some_iff.mp hv
    rw [hn]
    exact congrArg (Except.map some) (Decoder.nat32_of_lt (hmonths n hn))
  have hstart : (Record.defaulted "start_time" (.optional Instant.decoder) none).Reads
      (Tree.ofMembers ms) e.startTime :=
    (hhas 4 rfl).reads_defaulted (fun v hv => (hstart.1 v hv).2) fun hv => (hstart.2 hv).symm
  have hend : (Record.defaulted "end_time" (.optional Instant.decoder) none).Reads
      (Tree.ofMembers ms) e.endTime :=
    (hhas 5 rfl).reads_defaulted (fun v hv => (hend.1 v hv).2) fun hv => (hend.2 hv).symm
  exact Record.Reads.decoder (.seq (.seq (.seq (.seq (.seq (.map hname _) haddress) hpermanent)
    hmonths) hstart) hend) (by decide) (isSome_of_mem_ofMembers _) _

theorem hasIntegers_toJson? {v : Json} (h : e.toJson? = some v)
    (hmonths : ∀ n ∈ e.months, n < 4294967296) : v.HasIntegers := by
  rw [toJson?_eq_some_iff] at h
  obtain ⟨start?, end?, hstart, hend, rfl⟩ := h
  have hstart := (Instant.toJson?_eq_some hstart).1
  have hend := (Instant.toJson?_eq_some hend).1
  have hnumber : ∀ v ∈ e.months.map fun n : Nat => Json.number (.int n), v.HasIntegers := by
    intro v hv
    obtain ⟨n, hn, rfl⟩ := Option.map_eq_some_iff.mp hv
    have hlt := hmonths n hn
    exact ⟨by omega, by simp only [Number.wordLimit]; omega⟩
  have hpermanent : ∀ v ∈ (if e.permanent then some (Json.bool true) else none), v.HasIntegers := by
    intro v hv
    rw [← Option.some.inj (Option.ite_none_right_eq_some.mp hv).2]
    trivial
  refine membersHaveIntegers_membersOf.mpr ?_
  simp only [written, List.forall_mem_cons]
  exact ⟨hasIntegers_optional_string _, hasIntegers_optional_string (some e.address), hpermanent,
    hnumber, fun v hv => (hstart v hv).1, fun v hv => (hend v hv).1, nofun⟩

end BootstrapEntry

/-! ### Policies -/

namespace Policy

variable {p : Policy}

/-- The fields of the written lockups of a policy, those of its bootstrap accounts as they are
written. -/
def writtenLockups (p : Policy) (bootstraps : List Json) : List (String × Option Json) :=
  [("foundation_genesis", arrayOf? (p.foundation.map FoundationEntry.toJson)),
    ("supernode_bootstraps", arrayOf? bootstraps)]

/-- The fields of a written policy. -/
def written (p : Policy) (bootstraps : List Json) : List (String × Option Json) :=
  [("max_supply", p.maxSupply.map .string), ("module_accounts", arrayOf? (p.modules.map .string)),
    ("disclosed_lockups", some (.object (membersOf (p.writtenLockups bootstraps))))]

theorem toJson?_eq_some_iff {v : Json} :
    p.toJson? = some v ↔ ∃ bootstraps, p.bootstraps.mapM BootstrapEntry.toJson? = some bootstraps ∧
      v = .object (membersOf (p.written bootstraps)) := by
  have hmembers : ∀ bootstraps, membersOf (p.written bootstraps) =
      memberOf? "max_supply" (p.maxSupply.map .string) ++
        memberOfList "module_accounts" (p.modules.map .string) ++
        [("disclosed_lockups", .object <|
          memberOfList "foundation_genesis" (p.foundation.map FoundationEntry.toJson) ++
            memberOfList "supernode_bootstraps" bootstraps)] := by
    intro bootstraps
    simp [membersOf, written, writtenLockups, memberOfList_eq, memberOf?]
  unfold toJson?
  simp only [Option.bind_eq_bind, Option.bind_eq_some_iff, Option.pure_def, Option.some.injEq,
    hmembers, eq_comm (a := v)]

theorem exists_toJson? (h : p.IsWritable) : ∃ v, p.toJson? = some v := by
  have hbootstraps : p.bootstraps.mapM BootstrapEntry.toJson? =
      some (p.bootstraps.map fun e => e.toJson?.getD .null) := by
    refine mapM_eq_some_iff.mpr (List.forall₂_map_right_iff.mpr (List.forall₂_same.mpr fun e he => ?_))
    obtain ⟨v, hv⟩ := BootstrapEntry.exists_toJson? (h e he)
    rw [hv]
    rfl
  exact ⟨_, toJson?_eq_some_iff.mpr ⟨_, hbootstraps, rfl⟩⟩

/-- The written forms of the bootstrap accounts are read as the accounts. -/
theorem forall₂_bootstraps (h : p.IsWritable) {bootstraps : List Json}
    (hbootstraps : p.bootstraps.mapM BootstrapEntry.toJson? = some bootstraps) :
    List.Forall₂ (fun e v => BootstrapEntry.decoder (Tree.ofJson v).node = .ok e ∧ v.HasIntegers)
      p.bootstraps bootstraps := by
  have hboth := (List.forall₂_and_left _ _).mpr ⟨h, mapM_eq_some_iff.mp hbootstraps⟩
  exact hboth.imp fun e v ⟨he, hv⟩ =>
    ⟨BootstrapEntry.decoder_toJson? hv he.months, BootstrapEntry.hasIntegers_toJson? hv he.months⟩

theorem decoder_lockups (h : p.IsWritable) {bootstraps : List Json}
    (hbootstraps : p.bootstraps.mapM BootstrapEntry.toJson? = some bootstraps) :
    lockupsDecoder (Tree.ofJson (.object (membersOf (p.writtenLockups bootstraps)))).node =
      .ok (p.foundation, p.bootstraps) := by
  have hread := (forall₂_bootstraps h hbootstraps).imp fun _ _ h => h.1
  have hnodup : ((p.writtenLockups bootstraps).map (·.1)).Nodup := by simp [writtenLockups]
  have hhas := has_membersOf hnodup
  have hother : Has (membersOf (p.writtenLockups bootstraps)) "bootstraps" none :=
    has_none_membersOf (by simp [writtenLockups])
  have hfoundation : List.Forall₂ (fun e v => FoundationEntry.decoder (Tree.ofJson v).node = .ok e)
      p.foundation (p.foundation.map FoundationEntry.toJson) :=
    List.forall₂_map_right_iff.mpr (List.forall₂_same.mpr fun e _ => e.decoder_toJson)
  rw [Tree.ofJson]
  exact Record.Reads.decoder
    (.seq (.map ((hhas 0 rfl).reads_list (List.forall_mem_nil _) hfoundation) _)
      ((hhas 1 rfl).reads_list (by simpa using hother) hread)) (by decide) (isSome_of_mem_ofMembers _) _

/-- **The written form of a policy** is read as the policy. -/
theorem decoder_toJson? (h : p.IsWritable) {v : Json} (hv : p.toJson? = some v) :
    decoder (Tree.ofJson v).node = .ok p := by
  rw [toJson?_eq_some_iff] at hv
  obtain ⟨bootstraps, hbootstraps, rfl⟩ := hv
  have hlockups := decoder_lockups h hbootstraps
  have hnodup : ((p.written bootstraps).map (·.1)).Nodup := by simp [written]
  have hhas := has_membersOf hnodup
  have hmodules : List.Forall₂ (fun s v => Decoder.string (Tree.ofJson v).node = .ok s)
      p.modules (p.modules.map .string) :=
    List.forall₂_map_right_iff.mpr (List.forall₂_same.mpr fun _ _ => rfl)
  rw [Tree.ofJson]
  generalize membersOf (p.written bootstraps) = ms at hhas ⊢
  have hdisclosed : (Record.defaulted "disclosed_lockups" lockupsDecoder ([], [])).Reads
      (Tree.ofMembers ms) (p.foundation, p.bootstraps) :=
    (hhas 2 rfl).reads_defaulted (by simpa using hlockups) nofun
  exact Record.Reads.decoder (.seq (.seq (.map (hhas 0 rfl).reads_optional_string _)
    ((hhas 1 rfl).reads_list (List.forall_mem_nil _) hmodules)) hdisclosed) (by decide)
    (isSome_of_mem_ofMembers _) _

theorem hasIntegers_toJson? (h : p.IsWritable) {v : Json} (hv : p.toJson? = some v) :
    v.HasIntegers := by
  rw [toJson?_eq_some_iff] at hv
  obtain ⟨bootstraps, hbootstraps, rfl⟩ := hv
  have hread : ∀ v ∈ bootstraps, v.HasIntegers :=
    ((List.forall₂_and_left _ _).mp
      ((forall₂_bootstraps h hbootstraps).flip.imp fun _ _ h => And.symm h)).1
  have hlockups : (Json.object (membersOf (p.writtenLockups bootstraps))).HasIntegers := by
    refine membersHaveIntegers_membersOf.mpr ?_
    simp only [writtenLockups, List.forall_mem_cons, hasIntegers_arrayOf?, List.forall_mem_map]
    exact ⟨fun e _ => e.hasIntegers_toJson, hread, List.forall_mem_nil _⟩
  refine membersHaveIntegers_membersOf.mpr ?_
  simp only [written, List.forall_mem_cons, hasIntegers_arrayOf?, List.forall_mem_map]
  exact ⟨hasIntegers_optional_string _, fun _ _ => trivial, by simpa using hlockups,
    List.forall_mem_nil _⟩

end Policy
end Circulation
