import Circulation.Proofs.Json.Canonical
import Circulation.Proofs.Policy.RoundTrip

/-!
# What a fingerprint tells apart

The fingerprint of a policy is the digest of the bytes of its canonical text. Different policies have
different bytes, so only the digest can confuse them: a field that is left out stands for its default
alone, strings and numbers are written as they are, a written time shows the local clock with its
fraction and its offset, and sorting moves whole fields only.

## Main definitions

* `Circulation.Policy.fingerprintBytes?` — the bytes whose digest is the fingerprint.

## Main results

* `Circulation.Policy.exists_fingerprint?_iff` — the policies with a fingerprint.
* `Circulation.Policy.sorted_toJson?_inj` — policies that are written alike are the same.
* `Circulation.Policy.fingerprintBytes?_eq_iff` — different policies have different bytes.
-/

namespace Circulation

open Json

/-! ### Records that are sorted alike -/

namespace Json

/-- Objects that are sorted alike have values for a key that are sorted alike. -/
theorem Has.map_sorted_eq {ms ns : List (String × Json)} {key : String} {v? w? : Option Json}
    (hv : Has ms key v?) (hw : Has ns key w?) (h : (object ms).sorted = (object ns).sorted) :
    v?.map sorted = w?.map sorted := by
  rw [← hv.member?_sorted, h, hw.member?_sorted]

/-- Records of the same keys that are sorted alike have fields that are sorted alike. -/
theorem forall₂_of_sorted_eq {fs gs : List (String × Option Json)}
    (h : (object (membersOf fs)).sorted = (object (membersOf gs)).sorted)
    (hsame : fs.map (·.1) = gs.map (·.1)) (hkeys : (fs.map (·.1)).Nodup) :
    List.Forall₂ (fun f g => f.2.map sorted = g.2.map sorted) fs gs := by
  have hlength : fs.length = gs.length := by simpa using congrArg List.length hsame
  refine List.forall₂_iff_get.mpr ⟨hlength, fun i hi hi' => ?_⟩
  have hkey : (fs.get ⟨i, hi⟩).1 = (gs.get ⟨i, hi'⟩).1 := by
    simpa [hi, hi'] using congrArg (·[i]?) hsame
  have hfs : Has (membersOf fs) (fs.get ⟨i, hi⟩).1 (fs.get ⟨i, hi⟩).2 :=
    has_membersOf hkeys i (List.getElem?_eq_getElem hi)
  have hgs : Has (membersOf gs) (gs.get ⟨i, hi'⟩).1 (gs.get ⟨i, hi'⟩).2 :=
    has_membersOf (hsame ▸ hkeys) i (List.getElem?_eq_getElem hi')
  exact hfs.map_sorted_eq (hkey ▸ hgs) h

theorem eq_of_map_sorted_string {s? t? : Option String}
    (h : (s?.map string).map sorted = (t?.map string).map sorted) : s? = t? := by
  cases s? <;> cases t? <;> simp_all [sorted]

theorem map_sorted_of_arrayOf? {vs ws : List Json}
    (h : (arrayOf? vs).map sorted = (arrayOf? ws).map sorted) : vs.map sorted = ws.map sorted := by
  unfold arrayOf? at h
  split_ifs at h with hvs hws hws
  · rw [hvs, hws]
  · cases h
  · cases h
  · have hitems := Json.array.inj (Option.some.inj h)
    rwa [sortedItems_eq_map, sortedItems_eq_map] at hitems

/-- Lists are the same if what they are related to, item by item, looks the same and each item is
determined by the looks. -/
theorem eq_of_forall₂ {α β γ : Type} {R : α → β → Prop} (f : β → γ)
    (hinj : ∀ {a b : α} {v w : β}, R a v → R b w → f v = f w → a = b) {as bs : List α}
    {vs ws : List β} (has : List.Forall₂ R as vs) (hbs : List.Forall₂ R bs ws)
    (h : vs.map f = ws.map f) : as = bs := by
  induction has generalizing bs ws with
  | nil =>
    obtain rfl := List.map_eq_nil_iff.mp h.symm
    cases hbs
    rfl
  | cons ha _ ih =>
    cases hbs with
    | nil => cases h
    | cons hb hbs =>
      obtain ⟨hfirst, hrest⟩ := List.cons.inj h
      rw [hinj ha hb hfirst, ih hbs hrest]

/-- What items have by their relation to others holds of all of them. -/
theorem forall_of_forall₂ {α β : Type} {R : α → β → Prop} {p : α → Prop}
    (hp : ∀ {a : α} {b : β}, R a b → p a) {as : List α} {bs : List β} (h : List.Forall₂ R as bs) :
    ∀ a ∈ as, p a := by
  induction h with
  | nil => exact List.forall_mem_nil _
  | cons hab _ ih => exact List.forall_mem_cons.mpr ⟨hp hab, ih⟩

/-! ### Written records are proper -/

/-- No object of a value has a key twice, and its containers are nested at most so deeply. -/
structure IsTidy (v : Json) (depth : Nat) : Prop where
  hasDistinctKeys : v.HasDistinctKeys
  depth_le : (Tree.ofJson v).depth ≤ depth

namespace IsTidy

theorem string (s : String) (depth : Nat) : (Json.string s).IsTidy depth :=
  ⟨trivial, Nat.zero_le _⟩

theorem optional_string {depth : Nat} (s? : Option String) :
    ∀ v ∈ s?.map Json.string, v.IsTidy depth := by
  intro v hv
  obtain ⟨s, -, rfl⟩ := Option.map_eq_some_iff.mp hv
  exact .string s depth

theorem array {vs : List Json} {depth : Nat} (h : ∀ v ∈ vs, v.IsTidy depth) :
    (Json.array vs).IsTidy (depth + 1) := by
  refine ⟨everyObject_array_iff.mpr fun v hv => (h v hv).hasDistinctKeys, ?_⟩
  rw [Tree.ofJson, Tree.depth, Nat.succ_le_succ_iff]
  induction vs with
  | nil => exact Nat.zero_le _
  | cons v vs ih =>
    obtain ⟨hv, hvs⟩ := List.forall_mem_cons.mp h
    exact Nat.max_le.mpr ⟨hv.depth_le, ih hvs⟩

theorem arrayOf? {vs : List Json} {depth : Nat} (h : ∀ v ∈ vs, v.IsTidy depth) :
    ∀ v ∈ Json.arrayOf? vs, v.IsTidy (depth + 1) := by
  intro v hv
  obtain rfl := Option.some.inj (Option.ite_none_left_eq_some.mp hv).2
  exact .array h

theorem object {ms : List (String × Json)} {depth : Nat} (hkeys : (ms.map (·.1)).Nodup)
    (h : ∀ m ∈ ms, m.2.IsTidy depth) : (Json.object ms).IsTidy (depth + 1) := by
  refine ⟨everyObject_object_iff.mpr ⟨hkeys, fun m hm => (h m hm).hasDistinctKeys⟩, ?_⟩
  rw [Tree.ofJson, Tree.depth, Nat.succ_le_succ_iff]
  clear hkeys
  induction ms with
  | nil => exact Nat.zero_le _
  | cons m ms ih =>
    obtain ⟨hm, hms⟩ := List.forall_mem_cons.mp h
    exact Nat.max_le.mpr ⟨hm.depth_le, ih hms⟩

/-- A record with different keys is tidy if its fields are. -/
theorem membersOf {fields : List (String × Option Json)} {depth : Nat}
    (hkeys : (fields.map (·.1)).Nodup) (h : ∀ f ∈ fields, ∀ v ∈ f.2, v.IsTidy depth) :
    (Json.object (Json.membersOf fields)).IsTidy (depth + 1) :=
  .object (hkeys.sublist (keys_membersOf_sublist fields)) (forall_mem_membersOf.mpr h)

end IsTidy

end Json

/-! ### Times -/

namespace Instant

/-- A written time determines the time. -/
theorem toJson?_inj {t? u? : Option Instant} {v? : Option Json} (ht : toJson? t? = some v?)
    (hu : toJson? u? = some v?) : t? = u? := by
  have ht := toJson?_eq_some ht
  have hu := toJson?_eq_some hu
  cases v? with
  | none => rw [ht.2 rfl, hu.2 rfl]
  | some v => exact Except.ok.inj ((ht.1 v rfl).2.symm.trans (hu.1 v rfl).2)

/-- What stands for a time that may be absent is nothing or a string. -/
theorem exists_string_of_toJson? {t? : Option Instant} {v? : Option Json}
    (h : toJson? t? = some v?) : ∃ s? : Option String, v? = s?.map Json.string := by
  cases t? with
  | none => exact ⟨none, (Option.some.inj h).symm⟩
  | some t =>
    obtain ⟨s, -, rfl⟩ := Option.map_eq_some_iff.mp h
    exact ⟨some s, rfl⟩

theorem eq_of_map_sorted_toJson? {t? u? : Option Instant} {v? w? : Option Json}
    (ht : toJson? t? = some v?) (hu : toJson? u? = some w?)
    (h : v?.map sorted = w?.map sorted) : t? = u? := by
  obtain ⟨s?, rfl⟩ := exists_string_of_toJson? ht
  obtain ⟨s'?, rfl⟩ := exists_string_of_toJson? hu
  obtain rfl := eq_of_map_sorted_string h
  exact toJson?_inj ht hu

theorem isWritable_of_toJson? {t? : Option Instant} {v? : Option Json} (h : toJson? t? = some v?) :
    ∀ t ∈ t?, t.IsWritable := by
  rintro t rfl
  obtain ⟨s, hs, -⟩ := Option.map_eq_some_iff.mp h
  exact exists_toRfc3339?_iff.mp ⟨s, hs⟩

end Instant

/-! ### Accounts -/

namespace FoundationEntry

/-- The fields of a written account of the foundation. -/
def written (e : FoundationEntry) : List (String × Option Json) :=
  [("name", some (.string e.name)), ("address", some (.string e.address)),
    ("reason", e.reason.map .string), ("custody", e.custody.map .string)]

theorem toJson_eq (e : FoundationEntry) : e.toJson = .object (membersOf e.written) := by
  simp [toJson, membersOf, written, memberOf?]

theorem isTidy_toJson (e : FoundationEntry) : e.toJson.IsTidy 1 := by
  rw [toJson_eq]
  refine .membersOf (by simp [written]) ?_
  simp only [written, List.forall_mem_cons]
  exact ⟨.optional_string (some e.name), .optional_string (some e.address), .optional_string _,
    .optional_string _, List.forall_mem_nil _⟩

/-- Accounts of the foundation that are written alike are the same. -/
theorem sorted_toJson_inj {e e' : FoundationEntry} (h : e.toJson.sorted = e'.toJson.sorted) :
    e = e' := by
  rw [toJson_eq, toJson_eq] at h
  have hfields := forall₂_of_sorted_eq h rfl (by simp [written])
  simp only [written, List.forall₂_cons] at hfields
  obtain ⟨hname, haddress, hreason, hcustody, -⟩ := hfields
  have hname : some e.name = some e'.name := eq_of_map_sorted_string hname
  have haddress : some e.address = some e'.address := eq_of_map_sorted_string haddress
  have hreason := eq_of_map_sorted_string hreason
  have hcustody := eq_of_map_sorted_string hcustody
  obtain ⟨name, address, reason, custody⟩ := e
  simp_all

end FoundationEntry

namespace BootstrapEntry

theorem isWritable_of_toJson? {e : BootstrapEntry} {v : Json} (h : e.toJson? = some v)
    (hmonths : ∀ n ∈ e.months, n < 4294967296) : e.IsWritable := by
  obtain ⟨start?, end?, hstart, hend, -⟩ := toJson?_eq_some_iff.mp h
  exact ⟨hmonths, Instant.isWritable_of_toJson? hstart, Instant.isWritable_of_toJson? hend⟩

theorem isTidy_of_toJson? {e : BootstrapEntry} {v : Json} (h : e.toJson? = some v) :
    v.IsTidy 1 := by
  obtain ⟨start?, end?, hstart, hend, rfl⟩ := toJson?_eq_some_iff.mp h
  obtain ⟨s?, rfl⟩ := Instant.exists_string_of_toJson? hstart
  obtain ⟨s'?, rfl⟩ := Instant.exists_string_of_toJson? hend
  refine .membersOf (by simp [written]) ?_
  simp only [written, List.forall_mem_cons]
  refine ⟨.optional_string _, .optional_string (some e.address), fun v hv => ?_, fun v hv => ?_,
    .optional_string _, .optional_string _, List.forall_mem_nil _⟩
  · obtain rfl := Option.some.inj (Option.ite_none_right_eq_some.mp hv).2
    exact ⟨trivial, Nat.zero_le _⟩
  · obtain ⟨n, -, rfl⟩ := Option.map_eq_some_iff.mp hv
    exact ⟨trivial, Nat.zero_le _⟩

/-- Bootstrap accounts that are written alike are the same. -/
theorem sorted_toJson?_inj {e e' : BootstrapEntry} {v w : Json} (hv : e.toJson? = some v)
    (hw : e'.toJson? = some w) (h : v.sorted = w.sorted) : e = e' := by
  obtain ⟨start?, end?, hstart, hend, rfl⟩ := toJson?_eq_some_iff.mp hv
  obtain ⟨start'?, end'?, hstart', hend', rfl⟩ := toJson?_eq_some_iff.mp hw
  have hfields := forall₂_of_sorted_eq h rfl (by simp [written])
  simp only [written, List.forall₂_cons] at hfields
  obtain ⟨hname, haddress, hpermanent, hmonths, hstarts, hends, -⟩ := hfields
  have hname := eq_of_map_sorted_string hname
  have haddress : some e.address = some e'.address := eq_of_map_sorted_string haddress
  have hpermanent : e.permanent = e'.permanent := by
    cases hp : e.permanent <;> cases hp' : e'.permanent <;> simp_all
  have hmonths : e.months = e'.months := by
    cases hm : e.months <;> cases hm' : e'.months <;> simp_all [sorted]
  have hstarts := Instant.eq_of_map_sorted_toJson? hstart hstart' hstarts
  have hends := Instant.eq_of_map_sorted_toJson? hend hend' hends
  obtain ⟨name, address, permanent, months, startTime, endTime⟩ := e
  simp_all

end BootstrapEntry

/-! ### Policies -/

namespace Policy

variable {p q : Policy}

/-- The bytes whose digest is the fingerprint of a policy. -/
def fingerprintBytes? (p : Policy) : Option (List UInt8) :=
  p.fingerprintText?.map Text.utf8

theorem fingerprint?_eq (p : Policy) : p.fingerprint? = p.fingerprintBytes?.map Sha256.hexDigest := by
  rw [fingerprint?, fingerprintBytes?, Option.map_map]
  rfl

theorem isWritable_of_toJson? {v : Json} (h : p.toJson? = some v)
    (hmonths : ∀ e ∈ p.bootstraps, ∀ n ∈ e.months, n < 4294967296) : p.IsWritable := by
  obtain ⟨bootstraps, hbootstraps, -⟩ := toJson?_eq_some_iff.mp h
  have hboth := (List.forall₂_and_left _ _).mpr ⟨hmonths, mapM_eq_some_iff.mp hbootstraps⟩
  exact forall_of_forall₂ (fun h => BootstrapEntry.isWritable_of_toJson? h.2 h.1) hboth

/-- **A policy has a fingerprint** if and only if all of its times can be written. -/
theorem exists_fingerprint?_iff (hmonths : ∀ e ∈ p.bootstraps, ∀ n ∈ e.months, n < 4294967296) :
    (∃ f, p.fingerprint? = some f) ↔ p.IsWritable := by
  constructor
  · rintro ⟨f, hf⟩
    obtain ⟨text, htext, -⟩ := Option.map_eq_some_iff.mp hf
    obtain ⟨v, hv, -⟩ := Option.map_eq_some_iff.mp htext
    exact isWritable_of_toJson? hv hmonths
  · intro h
    obtain ⟨v, hv⟩ := exists_toJson? h
    exact ⟨_, by rw [fingerprint?, fingerprintText?, hv]; rfl⟩

theorem isTidy_toJson? {v : Json} (h : p.toJson? = some v) : v.IsTidy 4 := by
  obtain ⟨bootstraps, hbootstraps, rfl⟩ := toJson?_eq_some_iff.mp h
  have htidy : ∀ v ∈ bootstraps, v.IsTidy 1 :=
    forall_of_forall₂ (fun h => BootstrapEntry.isTidy_of_toJson? h)
      (mapM_eq_some_iff.mp hbootstraps).flip
  have hlockups : (Json.object (membersOf (p.writtenLockups bootstraps))).IsTidy 3 := by
    refine .membersOf (by simp [writtenLockups]) ?_
    simp only [writtenLockups, List.forall_mem_cons]
    exact ⟨.arrayOf? (List.forall_mem_map.mpr fun e _ => e.isTidy_toJson), .arrayOf? htidy,
      List.forall_mem_nil _⟩
  refine .membersOf (by simp [written]) ?_
  simp only [written, List.forall_mem_cons]
  exact ⟨.optional_string _, .arrayOf? (List.forall_mem_map.mpr fun s _ => .string s _),
    by simpa using hlockups, List.forall_mem_nil _⟩

/-- Policies that are written alike are the same. -/
theorem sorted_toJson?_inj {v w : Json} (hv : p.toJson? = some v) (hw : q.toJson? = some w)
    (h : v.sorted = w.sorted) : p = q := by
  obtain ⟨bootstraps, hbootstraps, rfl⟩ := toJson?_eq_some_iff.mp hv
  obtain ⟨bootstraps', hbootstraps', rfl⟩ := toJson?_eq_some_iff.mp hw
  have hfields := forall₂_of_sorted_eq h rfl (by simp [written])
  simp only [written, List.forall₂_cons] at hfields
  obtain ⟨hsupply, hmodules, hlockups, -⟩ := hfields
  have hlists := forall₂_of_sorted_eq (Option.some.inj hlockups) rfl (by simp [writtenLockups])
  simp only [writtenLockups, List.forall₂_cons] at hlists
  obtain ⟨hfoundation, hentries, -⟩ := hlists
  have hsupply := eq_of_map_sorted_string hsupply
  have hmodules : p.modules = q.modules := by
    have hitems := map_sorted_of_arrayOf? hmodules
    rw [List.map_map, List.map_map] at hitems
    exact List.map_injective_iff.mpr (fun _ _ h => Json.string.inj h) hitems
  have hfoundation : p.foundation = q.foundation := by
    have hitems := map_sorted_of_arrayOf? hfoundation
    rw [List.map_map, List.map_map] at hitems
    exact List.map_injective_iff.mpr (fun _ _ h => FoundationEntry.sorted_toJson_inj h) hitems
  have hentries : p.bootstraps = q.bootstraps :=
    eq_of_forall₂ sorted (fun hv hw h => BootstrapEntry.sorted_toJson?_inj hv hw h)
      (mapM_eq_some_iff.mp hbootstraps) (mapM_eq_some_iff.mp hbootstraps')
      (map_sorted_of_arrayOf? hentries)
  obtain ⟨maxSupply, modules, foundation, entries⟩ := p
  simp_all

theorem isProper_toJson? {v : Json} (h : p.IsWritable) (hv : p.toJson? = some v) : v.IsProper :=
  ⟨hasIntegers_toJson? h hv, (isTidy_toJson? hv).hasDistinctKeys,
    Nat.lt_of_le_of_lt (isTidy_toJson? hv).depth_le (by decide)⟩

/-- **Different policies have different bytes.** The fingerprints of two policies are the digests of
bytes that are equal if and only if the policies are. -/
theorem fingerprintBytes?_eq_iff {f g : String} (hp : p.fingerprint? = some f)
    (hq : q.fingerprint? = some g)
    (hmonths : ∀ e ∈ p.bootstraps ++ q.bootstraps, ∀ n ∈ e.months, n < 4294967296) :
    ∃ s t, p.fingerprintBytes? = some s ∧ q.fingerprintBytes? = some t ∧
      f = Sha256.hexDigest s ∧ g = Sha256.hexDigest t ∧ (s = t ↔ p = q) := by
  obtain ⟨hpmonths, hqmonths⟩ := List.forall_mem_append.mp hmonths
  have hpw : p.IsWritable := (exists_fingerprint?_iff hpmonths).mp ⟨f, hp⟩
  have hqw : q.IsWritable := (exists_fingerprint?_iff hqmonths).mp ⟨g, hq⟩
  obtain ⟨v, hv⟩ := exists_toJson? hpw
  obtain ⟨w, hw⟩ := exists_toJson? hqw
  have hs : p.fingerprintBytes? = some (Text.utf8 (canonical v)) := by
    rw [fingerprintBytes?, fingerprintText?, hv]
    rfl
  have ht : q.fingerprintBytes? = some (Text.utf8 (canonical w)) := by
    rw [fingerprintBytes?, fingerprintText?, hw]
    rfl
  rw [fingerprint?_eq, hs] at hp
  rw [fingerprint?_eq, ht] at hq
  refine ⟨_, _, hs, ht, (Option.some.inj hp).symm, (Option.some.inj hq).symm, fun h => ?_, ?_⟩
  · have hpv := isProper_toJson? hpw hv
    have hreorders := (canonical_eq_canonical_iff hpv (isProper_toJson? hqw hw)).mp
      (Text.utf8_inj.mp h).symm
    exact sorted_toJson?_inj hv hw (hreorders.sorted_eq hpv.hasDistinctKeys)
  · rintro rfl
    rw [Option.some.inj (hv.symm.trans hw)]

/-- A policy with one bootstrap account, whose lock of six months begins at a time. -/
def starting (t : Instant) : Policy :=
  ⟨some "100", ["gov"], [⟨"f", "a", none, some ""⟩], [⟨none, "b", false, some 6, some t, none⟩]⟩

theorem isWritable_starting {t : Instant} (ht : t.IsWritable) : (starting t).IsWritable := by
  intro e he
  obtain rfl := List.mem_singleton.mp he
  refine ⟨by simp, fun u hu => ?_, nofun⟩
  exact Option.some.inj hu ▸ ht

theorem fingerprintBytes?_eq_iff_starting :
    ∃ s t, (starting ⟨0, 0⟩).fingerprintBytes? = some s ∧
      (starting ⟨0, 3600⟩).fingerprintBytes? = some t ∧ s ≠ t := by
  have hmonths : ∀ t : Instant, ∀ e ∈ (starting t).bootstraps, ∀ n ∈ e.months, n < 4294967296 := by
    simp [starting]
  obtain ⟨f, hf⟩ := (exists_fingerprint?_iff (hmonths ⟨0, 0⟩)).mpr
    (isWritable_starting ⟨by decide, by decide, by decide⟩)
  obtain ⟨g, hg⟩ := (exists_fingerprint?_iff (hmonths ⟨0, 3600⟩)).mpr
    (isWritable_starting ⟨by decide, by decide, by decide⟩)
  obtain ⟨s, t, hs, ht, -, -, hiff⟩ := fingerprintBytes?_eq_iff hf hg
    (List.forall_mem_append.mpr ⟨hmonths _, hmonths _⟩)
  exact ⟨s, t, hs, ht, fun h => absurd (hiff.mp h) (by decide)⟩

end Policy

end Circulation
