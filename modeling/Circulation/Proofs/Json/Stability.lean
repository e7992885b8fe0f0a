import Circulation.Proofs.Json.Editions
import Circulation.Proofs.Json.Outline

/-!
# Texts that denote the same

A decoder is stable under edits if it goes through all of a text, takes notice of what the text says
only, and respects the edits. Then every text that denotes something is a text of some tree, and
however the tree is edited and its text laid out, the text denotes the same.

## Main definitions

* `Circulation.Json.Decoder.IsStable`, `Circulation.Json.Record.IsStable` — stable decoders.

## Main results

* `Circulation.Json.Record.IsStable.decoder` — a record of stable fields is stable.
* `Circulation.Json.Decoder.IsStable.exists_isText`, `Circulation.Json.Decoder.IsStable.ofText` — texts
  of one tree, or of edited trees, denote the same.
-/

namespace Circulation.Json

variable {α β : Type} {R : Tree → Tree → Prop} {depth : Nat}

/-! ### Decoders -/

/-- What is decoded depends on what the text says down to a depth, all of which is gone through, and
does not change with edits. -/
structure Decoder.IsStable (d : Decoder α) (depth : Nat) (R : Tree → Tree → Prop) : Prop where
  sees : d.Sees depth
  covers : d.Covers
  respects : d.Respects R

namespace Decoder

/-- A part that cannot be edited. -/
abbrev IsPlain (d : Decoder α) : Prop :=
  d.IsStable 0 fun _ _ => False

theorem isPlain_string : string.IsPlain :=
  ⟨sees_string, covers_string, respects_false _⟩

theorem isPlain_bool : bool.IsPlain :=
  ⟨sees_bool, covers_bool, respects_false _⟩

theorem isPlain_nat32 : nat32.IsPlain :=
  ⟨sees_nat32, covers_nat32, respects_false _⟩

theorem isPlain_refine_stringAs (want : String) (f : String → Except String α) :
    ((stringAs want).refine f).IsPlain :=
  ⟨(sees_stringAs want).refine f, (covers_stringAs want).refine f, respects_false _⟩

/-- A part that is left as it is. -/
theorem IsStable.unedited {d : Decoder α} (hd : d.IsStable depth R) :
    d.IsStable depth fun _ _ => False :=
  ⟨hd.sees, hd.covers, respects_false _⟩

theorem IsStable.optional {d : Decoder α} (hd : d.IsPlain) : (Decoder.optional d).IsPlain :=
  ⟨hd.sees.optional, hd.covers.optional, respects_false _⟩

theorem IsStable.list {d : Decoder α} (hd : d.IsStable depth R) :
    (Decoder.list d).IsStable (depth + 1) (ListEdit R) :=
  ⟨hd.sees.list, hd.covers.list, hd.respects.list⟩

/-- **A text that denotes something** is a text of some tree. -/
theorem IsStable.exists_isText {d : Decoder α} (hd : d.IsStable depth R) {s : String} {a : α}
    (h : d.ofText s = .ok a) : ∃ t : Tree, t.IsText s :=
  hd.covers.exists_isText h

/-- **Texts of edited trees** denote the same. -/
theorem IsStable.ofText {d : Decoder α} (hd : d.IsStable depth R) (hdepth : depth < depthLimit)
    {t t' : Tree} {s s' : String} (hs : t.IsText s) (hedit : Relation.EqvGen R t t')
    (hs' : t'.IsText s') : (d.ofText s).toOption = (d.ofText s').toOption := by
  rw [hd.sees.ofText hdepth hs, hd.sees.ofText hdepth hs', hd.respects.eqvGen t t' hedit]

end Decoder

/-! ### Records -/

namespace Record

/-- The fields look down to a depth, go through all of their values and respect edits. -/
structure IsStable (r : Record α) (depth : Nat) (es : List FieldEdits) : Prop where
  sees : r.Sees depth
  covers : r.Covers
  respects : r.Respects es

section Fields

variable {d : Decoder α} {depth' : Nat}

/-- A field that is stable as far as its decoder is, where what stands for its default denotes it. -/
theorem isStable_field {e : FieldEdits} {default? : Form → Option α} (hd : d.IsStable depth e.value)
    (hle : depth ≤ depth')
    (hdefault : ∀ t, e.default? = some t → ∃ a, d t.node = .ok a ∧ ∀ form, default? form = some a) :
    (field e.name e.otherNames d default?).IsStable depth' [e] :=
  ⟨sees_field (hd.sees.mono hle) _, covers_field hd.covers _, respects_field hd.respects hdefault⟩

theorem isStable_required {name : String} (hd : d.IsStable depth R) (hle : depth ≤ depth') :
    (required name d).IsStable depth' [{ name, value := R }] :=
  isStable_field (e := { name, value := R }) hd hle nofun

/-- A field with a default, under any of its names. -/
theorem isStable_defaulted {name : String} {otherNames : List String} {default : α} {t : Tree}
    (hd : d.IsStable depth R) (hle : depth ≤ depth') (ht : d t.node = .ok default) :
    (field name otherNames d fun _ => some default).IsStable depth'
      [{ name, otherNames, default? := some t, value := R }] := by
  refine isStable_field (e := { name, otherNames, default? := some t, value := R }) hd hle
    fun t' ht' => ?_
  obtain rfl := Option.some.inj ht'
  exact ⟨default, ht, fun _ => rfl⟩

end Fields

theorem IsStable.seq {f : Record (α → β)} {x : Record α} {es es' : List FieldEdits}
    (hf : f.IsStable depth es) (hx : x.IsStable depth es') : (f <*> x).IsStable depth (es ++ es') :=
  ⟨hf.sees.seq hx.sees, hf.covers.seq hx.covers, hf.respects.seq hx.respects⟩

theorem IsStable.map {x : Record α} {es : List FieldEdits} (hx : x.IsStable depth es) (f : α → β) :
    (f <$> x).IsStable depth es :=
  ⟨hx.sees.map f, hx.covers.map f, hx.respects.map f⟩

/-- **A record of stable fields** is stable. -/
theorem IsStable.decoder {r : Record α} {es : List FieldEdits} (hr : r.IsStable depth es)
    (hfields : Field.AreApart r.fields) (name : String) :
    (r.decoder name).IsStable (depth + 1) (RecordEdit es) :=
  ⟨hr.sees.decoder name, hr.covers.decoder name, hr.respects.decoder hfields name⟩

end Record

end Circulation.Json
