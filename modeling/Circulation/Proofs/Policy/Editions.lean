import Circulation.Proofs.Json.Stability
import Circulation.Proofs.Policy.RoundTrip

/-!
# Policies under edits of their text

The texts of a policy can differ in layout, in the order of their members, in members that are no
fields, in the name of the list of bootstrap accounts and in fields that state their default. All of
them denote the same policy, down to the clocks of its times, and so does its written form. The
fingerprint of a policy is therefore the same for all of its texts.

## Main definitions

* `Circulation.FoundationEntry.edits`, `Circulation.BootstrapEntry.edits`,
  `Circulation.Policy.lockupsEdits`, `Circulation.Policy.edits` — how the fields may be edited.
* `Circulation.Policy.Edit` — one edit of a policy.

## Main results

* `Circulation.Policy.isStable_decoder` — a policy is stable under edits.
* `Circulation.Policy.ofText_edited` — the texts of a policy that is read.
-/

namespace Circulation

open Json

/-! ### Accounts -/

/-- The fields of an account of the foundation: name and address, and two optional texts. -/
def FoundationEntry.edits : List FieldEdits :=
  [{ name := "name" }, { name := "address" }, { name := "reason", default? := some .null },
    { name := "custody", default? := some .null }]

theorem FoundationEntry.isStable_decoder : decoder.IsStable 1 (RecordEdit edits) := by
  have hstring := Decoder.isPlain_string
  refine Record.IsStable.decoder ?_ (by decide) _
  exact .seq (.seq (.seq (.map (Record.isStable_required hstring le_rfl) _)
    (Record.isStable_required hstring le_rfl))
    (Record.isStable_defaulted hstring.optional le_rfl rfl))
    (Record.isStable_defaulted hstring.optional le_rfl rfl)

/-- The fields of a bootstrap account, of which only the address has no default. -/
def BootstrapEntry.edits : List FieldEdits :=
  [{ name := "name", default? := some .null }, { name := "address" },
    { name := "permanent", default? := some (.bool false) },
    { name := "duration_months", default? := some .null },
    { name := "start_time", default? := some .null }, { name := "end_time", default? := some .null }]

theorem BootstrapEntry.isStable_decoder : decoder.IsStable 1 (RecordEdit edits) := by
  have hstring := Decoder.isPlain_string
  have hinstant : Instant.decoder.IsPlain := Decoder.isPlain_refine_stringAs _ _
  refine Record.IsStable.decoder ?_ (by decide) _
  exact .seq (.seq (.seq (.seq (.seq (.map (Record.isStable_defaulted hstring.optional le_rfl rfl) _)
    (Record.isStable_required hstring le_rfl))
    (Record.isStable_defaulted Decoder.isPlain_bool le_rfl rfl))
    (Record.isStable_defaulted Decoder.isPlain_nat32.optional le_rfl rfl))
    (Record.isStable_defaulted hinstant.optional le_rfl rfl))
    (Record.isStable_defaulted hinstant.optional le_rfl rfl)

namespace Policy

/-- The fields of the disclosed lockups: two lists of accounts, the second of which goes by two
names. -/
def lockupsEdits : List FieldEdits :=
  [{ name := "foundation_genesis", default? := some (.array []),
      value := ListEdit (RecordEdit FoundationEntry.edits) },
    { name := "supernode_bootstraps", otherNames := ["bootstraps"], default? := some (.array []),
      value := ListEdit (RecordEdit BootstrapEntry.edits) }]

theorem isStable_lockupsDecoder : lockupsDecoder.IsStable 3 (RecordEdit lockupsEdits) := by
  refine Record.IsStable.decoder ?_ (by decide) _
  exact .seq (.map (Record.isStable_defaulted FoundationEntry.isStable_decoder.list le_rfl rfl) _)
    (Record.isStable_defaulted BootstrapEntry.isStable_decoder.list le_rfl rfl)

/-- The fields of a policy, all of which have a default. -/
def edits : List FieldEdits :=
  [{ name := "max_supply", default? := some .null },
    { name := "module_accounts", default? := some (.array []) },
    { name := "disclosed_lockups", default? := some (.object []), value := RecordEdit lockupsEdits }]

/-- One edit of a policy. -/
abbrev Edit : Tree → Tree → Prop :=
  RecordEdit edits

/-- **A policy** is stable under edits. -/
theorem isStable_decoder : decoder.IsStable 4 Edit := by
  have hstring := Decoder.isPlain_string
  have hempty : lockupsDecoder (Tree.object []).node = .ok ([], []) := rfl
  refine Record.IsStable.decoder ?_ (by decide) _
  exact .seq (.seq (.map (Record.isStable_defaulted hstring.optional (by decide) rfl) _)
    (Record.isStable_defaulted hstring.list.unedited (by decide) rfl))
    (Record.isStable_defaulted isStable_lockupsDecoder le_rfl hempty)

/-- A text denotes a policy if it is decoded as one that has no flaw. -/
theorem ofText_eq_ok_iff {text : String} {p : Policy} :
    ofText text = .ok p ↔ decoder.ofText text = .ok p ∧ p.firstFlaw? = none := by
  unfold ofText
  rw [bind_eq_ok]
  simp only [mapError_eq_ok]
  constructor
  · rintro ⟨q, hq, h⟩
    cases hflaw : q.firstFlaw? with
    | some flaw =>
      rw [hflaw] at h
      exact nomatch h
    | none =>
      rw [hflaw] at h
      obtain rfl := pure_eq_ok.mp h
      exact ⟨hq, hflaw⟩
  · rintro ⟨hp, hflaw⟩
    exact ⟨p, hp, by rw [hflaw]; rfl⟩

/-- The texts of a tree denote a policy without a flaw if the tree does. -/
theorem ofText_of_isText {t : Tree} {text : String} (ht : t.IsText text) {p : Policy}
    (h : decoder t.node = .ok p) (hflaw : p.firstFlaw? = none) : ofText text = .ok p := by
  refine ofText_eq_ok_iff.mpr ⟨toOption_eq_some_iff.mp ?_, hflaw⟩
  rw [isStable_decoder.sees.ofText (by decide) ht, h]
  rfl

/-- **The texts of a policy that is read**. Each of them is a text of some tree; the texts of that
tree and of every tree that edits lead to denote the same policy; and the policy has a fingerprint and
a written form, all of whose texts denote the policy. -/
theorem ofText_edited {text : String} {p : Policy} (h : ofText text = .ok p) :
    (∃ t : Tree, t.IsText text) ∧
      (∀ (t t' : Tree) (text' : String), t.IsText text → Relation.EqvGen Edit t t' →
        t'.IsText text' → ofText text' = .ok p) ∧
      ∃ (v : Json) (digest : String), p.toJson? = some v ∧ p.fingerprint? = some digest ∧
        (Tree.ofJson v).IsText (compact v) ∧
          ∀ text', (Tree.ofJson v).IsText text' → ofText text' = .ok p := by
  obtain ⟨hdecoder, hflaw⟩ := ofText_eq_ok_iff.mp h
  refine ⟨isStable_decoder.exists_isText hdecoder, fun t t' text' ht hedit ht' => ?_, ?_⟩
  · have hsame := isStable_decoder.ofText (by decide) ht hedit ht'
    rw [toOption_eq_some_iff.mpr hdecoder] at hsame
    exact ofText_eq_ok_iff.mpr ⟨toOption_eq_some_iff.mp hsame.symm, hflaw⟩
  · have hwritable : p.IsWritable := yields_ofText text p h
    obtain ⟨v, hv⟩ := exists_toJson? hwritable
    refine ⟨v, Sha256.hexDigest (canonical v).toUTF8.toList, hv, ?_, ?_, fun text' ht' => ?_⟩
    · rw [fingerprint?, fingerprintText?, hv]
      rfl
    · exact isText_compact (hasIntegers_toJson? hwritable hv)
    · exact ofText_of_isText ht' (decoder_toJson? hwritable hv) hflaw

/-- Two texts of a policy with one bootstrap account, the second of which renames the list and says
more. -/
theorem ofText_edited_renamed :
    ofText (compact (.object [("disclosed_lockups", .object
        [("bootstraps", .array [.object [("address", .string "a")]])])])) =
          .ok ⟨none, [], [], [⟨none, "a", false, none, none, none⟩]⟩ ∧
      ofText (compact (.object [("note", .null), ("disclosed_lockups", .object
        [("supernode_bootstraps", .array [.object [("address", .string "a")]])])])) =
          .ok ⟨none, [], [], [⟨none, "a", false, none, none, none⟩]⟩ := by
  have hintegers : ∀ key, (Json.object [("disclosed_lockups", .object
      [(key, .array [.object [("address", .string "a")]])])]).HasIntegers := by
    simp [HasIntegers, HaveIntegers, MembersHaveIntegers]
  have hfirst := ofText_of_isText (isText_compact (hintegers "bootstraps"))
    (p := ⟨none, [], [], [⟨none, "a", false, none, none, none⟩]⟩) rfl (by decide)
  have hnote : ∀ ms, Edit (.object ms) (.object ((some "note", .null) :: ms)) := fun ms =>
    .members (.unknown (by decide) .null)
  have hrename : ∀ t, Edit (.object [(some "disclosed_lockups", .object [(some "bootstraps", t)])])
      (.object [(some "disclosed_lockups", .object [(some "supernode_bootstraps", t)])]) := by
    intro t
    have hlockups : RecordEdit lockupsEdits (.object [(some "bootstraps", t)])
        (.object [(some "supernode_bootstraps", t)]) :=
      .members (.rename (List.mem_cons_of_mem _ List.mem_cons_self) (by decide) (by decide) t)
    exact .members (.value (List.mem_of_getElem? (i := 2) rfl) (by decide) hlockups)
  have hsecond : (Tree.ofJson (.object [("note", .null), ("disclosed_lockups", .object
      [("supernode_bootstraps", .array [.object [("address", .string "a")]])])])).IsText _ :=
    isText_compact ⟨trivial, hintegers "supernode_bootstraps"⟩
  exact ⟨hfirst, (ofText_edited hfirst).2.1 _ _ _ (isText_compact (hintegers "bootstraps"))
    (.trans _ _ _ (.rel _ _ (hrename _)) (.rel _ _ (hnote _))) hsecond⟩

end Policy

end Circulation
