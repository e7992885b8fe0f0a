import Mathlib.Data.List.Forall2
import Mathlib.Logic.Relation
import Circulation.Proofs.Json.Members

/-!
# Editions of a text

What a text says can be edited without a change of what it denotes as a record: the members of an
object may stand in another order, there may be other members that are no fields, a field may go by
another of its names, and a field that states its default may as well be left out. The same holds
within fields and within lists.

How a record may be edited follows from its fields: from their names, their defaults and the ways in
which their values may be edited. A decoder that is put together from decoders that respect such edits
respects them as well.

## Main definitions

* `Circulation.Json.FieldEdits` — how a field may be edited.
* `Circulation.Json.ObjectEdit`, `Circulation.Json.RecordEdit`, `Circulation.Json.ListEdit` — the edits
  of members, records and lists.
* `Circulation.Json.Decoder.Respects`, `Circulation.Json.Record.Respects` — edits do not change what is
  decoded.

## Main results

* `Circulation.Json.Record.Respects.decoder` — a record respects the edits of its fields.
* `Circulation.Json.Decoder.Respects.eqvGen` — any number of edits, done or undone.
-/

namespace Circulation.Json

variable {α β : Type}

/-! ### Edits -/

/-- How a field may be edited: its names, what stands for its default if it has one, and the edits of
its value. -/
structure FieldEdits where
  name : String
  otherNames : List String := []
  default? : Option Tree := none
  value : Tree → Tree → Prop := fun _ _ => False

/-- The names of a field. -/
def FieldEdits.names (e : FieldEdits) : List String :=
  e.name :: e.otherNames

/-- One edit of the members of an object. Since members may be reordered, the other edits are those of
the first member. -/
inductive ObjectEdit (es : List FieldEdits) :
    List (Option String × Tree) → List (Option String × Tree) → Prop
  | reorder {ms ms' : List (Option String × Tree)} (h : ms.Perm ms') : ObjectEdit es ms ms'
  /-- A member that is no field, whatever its value is. -/
  | unknown {ms : List (Option String × Tree)} {key : String} (hkey : ∀ e ∈ es, key ∉ e.names)
      (t : Tree) : ObjectEdit es ms ((some key, t) :: ms)
  | rename {ms : List (Option String × Tree)} {e : FieldEdits} (he : e ∈ es) {key key' : String}
      (hkey : key ∈ e.names) (hkey' : key' ∈ e.names) (t : Tree) :
      ObjectEdit es ((some key, t) :: ms) ((some key', t) :: ms)
  /-- A field that is absent is said to have its default. -/
  | default {ms : List (Option String × Tree)} {e : FieldEdits} (he : e ∈ es) {key : String}
      (hkey : key ∈ e.names) {t : Tree} (ht : e.default? = some t)
      (habsent : ∀ key' ∈ e.names, ∀ t, (some key', t) ∉ ms) : ObjectEdit es ms ((some key, t) :: ms)
  | value {ms : List (Option String × Tree)} {e : FieldEdits} (he : e ∈ es) {key : String}
      (hkey : key ∈ e.names) {t t' : Tree} (h : e.value t t') :
      ObjectEdit es ((some key, t) :: ms) ((some key, t') :: ms)

/-- One edit of a record, which is an object or an array of its fields. -/
inductive RecordEdit (es : List FieldEdits) : Tree → Tree → Prop
  | members {ms ms' : List (Option String × Tree)} (h : ObjectEdit es ms ms') :
      RecordEdit es (.object ms) (.object ms')
  | item {ts : List Tree} {i : Nat} {e : FieldEdits} {t t' : Tree} (he : es[i]? = some e)
      (ht : ts[i]? = some t) (h : e.value t t') : RecordEdit es (.array ts) (.array (ts.set i t'))
  /-- The first field that is absent from the array is said to have its default. -/
  | default {ts : List Tree} {e : FieldEdits} {t : Tree} (he : es[ts.length]? = some e)
      (ht : e.default? = some t) : RecordEdit es (.array ts) (.array (ts ++ [t]))

/-- One edit of a list is an edit of one of its items. -/
inductive ListEdit (R : Tree → Tree → Prop) : Tree → Tree → Prop
  | item {ts : List Tree} {i : Nat} {t t' : Tree} (ht : ts[i]? = some t) (h : R t t') :
      ListEdit R (.array ts) (.array (ts.set i t'))

/-! ### Decoders that respect edits -/

namespace Decoder

/-- What is decoded is the same after an edit. -/
def Respects (d : Decoder α) (R : Tree → Tree → Prop) : Prop :=
  ∀ t t', R t t' → (d t.node).toOption = (d t'.node).toOption

theorem respects_false (d : Decoder α) : d.Respects fun _ _ => False :=
  fun _ _ h => h.elim

/-- Any number of edits, done or undone. -/
theorem Respects.eqvGen {d : Decoder α} {R : Tree → Tree → Prop} (hd : d.Respects R) :
    d.Respects (Relation.EqvGen R) := by
  intro t t' h
  induction h with
  | rel t t' h => exact hd t t' h
  | refl t => rfl
  | symm t t' _ ih => exact ih.symm
  | trans t t' t'' _ _ ih ih' => exact ih.trans ih'

theorem Respects.list {d : Decoder α} {R : Tree → Tree → Prop} (hd : d.Respects R) :
    (Decoder.list d).Respects (ListEdit R) := by
  rintro _ _ ⟨ht, h⟩
  rename_i ts i t t'
  rw [Tree.node, Tree.node, Tree.nodes_eq_map, Tree.nodes_eq_map]
  refine toOption_mapM_congr (List.forall₂_map_left_iff.mpr (List.forall₂_map_right_iff.mpr ?_))
  refine List.forall₂_iff_get.mpr ⟨(List.length_set).symm, fun j hj hj' => ?_⟩
  simp only [List.get_eq_getElem, List.getElem_set]
  split
  · next hij =>
    subst hij
    have heq : ts[i] = t := Option.some.inj ((List.getElem?_eq_getElem hj).symm.trans ht)
    rw [heq]
    exact hd t t' h
  · rfl

end Decoder

/-! ### Records that respect edits -/

/-- A field of a record decoder has the names that its edits say, and its check respects them. -/
structure Field.Respects (f : Field) (e : FieldEdits) : Prop where
  names : f.name = e.name ∧ f.otherNames = e.otherNames
  value : Decoder.Respects f.check e.value
  default : ∀ t, e.default? = some t → (f.check t.node).toOption.isSome

theorem Field.Respects.mem_names_iff {f : Field} {e : FieldEdits} (h : f.Respects e) {key : String} :
    key ∈ f.names ↔ key ∈ e.names := by
  rw [Field.names, FieldEdits.names, h.names.1, h.names.2]

/-- What becomes of a part of a record by an edit. -/
inductive PartEdit (e : FieldEdits) : Option Node → Option Node → Prop
  | same (n? : Option Node) : PartEdit e n? n?
  | value {t t' : Tree} (h : e.value t t') : PartEdit e (some t.node) (some t'.node)
  | default {t : Tree} (ht : e.default? = some t) : PartEdit e none (some t.node)

namespace Record

/-- The fields of a record decoder are those of the edits, and the record is the same after an edit of
its parts. -/
structure Respects (r : Record α) (es : List FieldEdits) : Prop where
  fields : List.Forall₂ Field.Respects r.fields es
  build : ∀ p p' : Present, p.form = p'.form →
    (∀ e ∈ es, PartEdit e (p.node? e.name) (p'.node? e.name)) →
      (r.build p).toOption = (r.build p').toOption

/-- A field respects edits if its decoder does and what stands for the default denotes it. -/
theorem respects_field {e : FieldEdits} {d : Decoder α} {default? : Form → Option α}
    (hd : d.Respects e.value)
    (hdefault : ∀ t, e.default? = some t → ∃ a, d t.node = .ok a ∧ ∀ form, default? form = some a) :
    (field e.name e.otherNames d default?).Respects [e] where
  fields := by
    refine .cons ⟨⟨rfl, rfl⟩, fun t t' h => ?_, fun t ht => ?_⟩ .nil
    · rw [toOption_map, toOption_map, hd t t' h]
    · obtain ⟨a, ha, -⟩ := hdefault t ht
      rw [toOption_map, ha]
      rfl
  build p p' hform hparts := by
    have hpart := hparts e (List.mem_singleton_self e)
    unfold field
    dsimp only
    rw [← hform]
    generalize p.node? e.name = n?, p'.node? e.name = n'? at hpart
    cases hpart with
    | same n? =>
      cases n? with
      | some n => rfl
      | none => cases default? p.form <;> rfl
    | value h => exact hd _ _ h
    | default ht =>
      obtain ⟨a, ha, hdefault⟩ := hdefault _ ht
      simp only [hdefault, ha]

theorem respects_pure (a : α) : (pure a : Record α).Respects [] where
  fields := .nil
  build _ _ _ _ := rfl

theorem Respects.seq {f : Record (α → β)} {x : Record α} {es es' : List FieldEdits}
    (hf : f.Respects es) (hx : x.Respects es') : (f <*> x).Respects (es ++ es') where
  fields := List.rel_append hf.fields hx.fields
  build p p' hform hparts := by
    show (f.build p >>= fun g => x.build p >>= fun a => pure (g a) : Except Problem β).toOption =
      (f.build p' >>= fun g => x.build p' >>= fun a => pure (g a) : Except Problem β).toOption
    simp only [toOption_bind,
      hf.build p p' hform fun e he => hparts e (List.mem_append_left _ he),
      hx.build p p' hform fun e he => hparts e (List.mem_append_right _ he)]

theorem Respects.map {x : Record α} {es : List FieldEdits} (hx : x.Respects es) (f : α → β) :
    (f <$> x).Respects es :=
  (respects_pure f).seq hx

section Fields

variable {r : Record α} {es : List FieldEdits}

/-- The fields have the names that their edits say. -/
theorem flatMap_names_eq {fields : List Field} (h : List.Forall₂ Field.Respects fields es) :
    fields.flatMap Field.names = es.flatMap FieldEdits.names := by
  induction h with
  | nil => rfl
  | cons hf _ ih =>
    rw [List.flatMap_cons, List.flatMap_cons, ih, Field.names, FieldEdits.names, hf.names.1, hf.names.2]

theorem Respects.exists_field (hr : r.Respects es) {e : FieldEdits} (he : e ∈ es) :
    ∃ f ∈ r.fields, f.Respects e := by
  obtain ⟨hlength, hget⟩ := List.forall₂_iff_get.mp hr.fields
  obtain ⟨i, hi, rfl⟩ := List.mem_iff_getElem.mp he
  exact ⟨r.fields.get ⟨i, hlength ▸ hi⟩, List.get_mem _ _, hget i (hlength ▸ hi) hi⟩

theorem Respects.exists_edits (hr : r.Respects es) {f : Field} (hf : f ∈ r.fields) :
    ∃ e ∈ es, f.Respects e := by
  obtain ⟨hlength, hget⟩ := List.forall₂_iff_get.mp hr.fields
  obtain ⟨i, hi, rfl⟩ := List.mem_iff_getElem.mp hf
  exact ⟨es.get ⟨i, hlength ▸ hi⟩, List.get_mem _ _, hget i hi (hlength ▸ hi)⟩

/-- A key that two edits share belongs to one field. -/
theorem Respects.eq_of_mem_names (hr : r.Respects es) (hfields : Field.AreApart r.fields)
    {e e' : FieldEdits} (he : e ∈ es) (he' : e' ∈ es) {key : String} (hkey : key ∈ e.names)
    (hkey' : key ∈ e'.names) : e = e' := by
  have hnodup : (es.flatMap FieldEdits.names).Nodup := flatMap_names_eq hr.fields ▸ hfields
  exact eq_of_nodup_flatMap hnodup he he' hkey hkey'

end Fields

/-! ### Objects -/

theorem passes_cons_iff {fields : List Field} {m : Option String × Tree}
    {ms : List (Option String × Tree)} :
    Passes fields (m :: ms) ↔ m.1.isSome ∧
      (∀ f ∈ fields, f.isOf m = true →
        (f.check m.2.node).toOption.isSome ∧ ∀ m' ∈ ms, f.isOf m' = false) ∧ Passes fields ms := by
  have hzero : ∀ f : Field, ms.countP f.isOf = 0 ↔ ∀ m' ∈ ms, f.isOf m' = false := by
    intro f
    simp [List.countP_eq_zero]
  constructor
  · rintro ⟨hkeys, hchecks⟩
    refine ⟨hkeys m List.mem_cons_self, fun f hf hm => ⟨(hchecks f hf).1 m List.mem_cons_self hm, ?_⟩,
      fun m' hm' => hkeys m' (List.mem_cons_of_mem m hm'), fun f hf => ⟨fun m' hm' =>
        (hchecks f hf).1 m' (List.mem_cons_of_mem m hm'), ?_⟩⟩
    · have hcount := (hchecks f hf).2
      rw [List.countP_cons_of_pos hm] at hcount
      exact (hzero f).mp (by omega)
    · have hcount := (hchecks f hf).2
      rw [List.countP_cons] at hcount
      omega
  · rintro ⟨hkey, hm, hkeys, hchecks⟩
    refine ⟨List.forall_mem_cons.mpr ⟨hkey, hkeys⟩, fun f hf => ⟨List.forall_mem_cons.mpr
      ⟨fun hisOf => (hm f hf hisOf).1, (hchecks f hf).1⟩, ?_⟩⟩
    by_cases hisOf : f.isOf m = true
    · have hcount := (hzero f).mpr (hm f hf hisOf).2
      rw [List.countP_cons_of_pos hisOf]
      omega
    · rw [List.countP_cons_of_neg hisOf]
      exact (hchecks f hf).2

theorem find?_eq_of_perm {γ : Type} {p : γ → Bool} {as bs : List γ} (h : as.Perm bs)
    (hcount : as.countP p ≤ 1) : as.find? p = bs.find? p := by
  rw [← List.head?_filter, ← List.head?_filter]
  have hperm := h.filter p
  rw [List.countP_eq_length_filter] at hcount
  match hfilter : as.filter p, hcount with
  | [], _ =>
    rw [hfilter] at hperm
    rw [hperm.nil_eq]
  | [a], _ =>
    rw [hfilter] at hperm
    rw [List.singleton_perm.mp hperm]

/-- Members that edits lead to: they pass the check if and only if they did before, and what they give
each field is edited. -/
structure MembersEdit (fields : List Field) (es : List FieldEdits)
    (ms ms' : List (Option String × Tree)) : Prop where
  passes_iff : Passes fields ms ↔ Passes fields ms'
  part : Passes fields ms → ∀ f ∈ fields, ∀ e ∈ es, f.Respects e →
    PartEdit e ((ms.find? f.isOf).map (·.2.node)) ((ms'.find? f.isOf).map (·.2.node))

theorem membersEdit_reorder {fields : List Field} {es : List FieldEdits}
    {ms ms' : List (Option String × Tree)} (h : ms.Perm ms') : MembersEdit fields es ms ms' where
  passes_iff := by
    refine and_congr (by simp [h.mem_iff]) (forall₂_congr fun f hf => ?_)
    simp [h.mem_iff, h.countP_eq]
  part hpasses f hf e _ _ := by
    rw [find?_eq_of_perm h (hpasses.2 f hf).2]
    exact .same _

section Members

variable {r : Record α} {es : List FieldEdits} (hr : r.Respects es) {ms : List (Option String × Tree)}
  {e : FieldEdits} {key : String}
include hr

theorem Respects.membersEdit_unknown (hkey : ∀ e ∈ es, key ∉ e.names) (t : Tree) :
    MembersEdit r.fields es ms ((some key, t) :: ms) := by
  have hother : ∀ f ∈ r.fields, f.isOf (some key, t) = false := by
    intro f hf
    obtain ⟨e, he, hfe⟩ := hr.exists_edits hf
    refine Bool.eq_false_iff.mpr fun hisOf => hkey e he ?_
    obtain ⟨key', hkey', heq⟩ := Field.isOf_iff.mp hisOf
    obtain rfl := Option.some.inj heq
    exact hfe.mem_names_iff.mp hkey'
  refine ⟨?_, fun _ f hf e _ _ => ?_⟩
  · rw [passes_cons_iff]
    refine ⟨fun h => ⟨rfl, fun f hf hisOf => ?_, h⟩, fun h => h.2.2⟩
    exact absurd hisOf (by simp [hother f hf])
  · rw [List.find?_cons_of_neg (by simp [hother f hf])]
    exact .same _

variable (hfields : Field.AreApart r.fields) (he : e ∈ es) (hkey : key ∈ e.names)
include hfields he hkey

/-- The field that has a key of an edit is the field of the edit. -/
theorem Respects.eq_of_isOf {f : Field} {e' : FieldEdits} {t : Tree} (he' : e' ∈ es)
    (hf : f.Respects e') (hisOf : f.isOf (some key, t) = true) : e' = e := by
  obtain ⟨key', hkey', heq⟩ := Field.isOf_iff.mp hisOf
  obtain rfl := Option.some.inj heq
  exact hr.eq_of_mem_names hfields he' he (hf.mem_names_iff.mp hkey') hkey

theorem Respects.membersEdit_rename {key' : String} (hkey' : key' ∈ e.names) (t : Tree) :
    MembersEdit r.fields es ((some key, t) :: ms) ((some key', t) :: ms) := by
  have hisOf : ∀ f ∈ r.fields, f.isOf (some key, t) = f.isOf (some key', t) := by
    intro f hf
    obtain ⟨e', he', hfe⟩ := hr.exists_edits hf
    refine Bool.eq_iff_iff.mpr ⟨fun h => ?_, fun h => ?_⟩
    · obtain rfl := hr.eq_of_isOf hfields he hkey he' hfe h
      exact Field.isOf_iff.mpr ⟨key', hfe.mem_names_iff.mpr hkey', rfl⟩
    · obtain rfl := hr.eq_of_isOf hfields he hkey' he' hfe h
      exact Field.isOf_iff.mpr ⟨key, hfe.mem_names_iff.mpr hkey, rfl⟩
  refine ⟨?_, fun _ f hf e _ _ => ?_⟩
  · rw [passes_cons_iff, passes_cons_iff]
    refine and_congr (by simp) (and_congr (forall₂_congr fun f hf => ?_) Iff.rfl)
    rw [hisOf f hf]
  · rw [List.find?_cons, List.find?_cons, hisOf f hf]
    cases f.isOf (some key', t) <;> exact .same _

theorem Respects.membersEdit_default {t : Tree} (ht : e.default? = some t)
    (habsent : ∀ key' ∈ e.names, ∀ t, (some key', t) ∉ ms) :
    MembersEdit r.fields es ms ((some key, t) :: ms) := by
  have hfield : ∀ f ∈ r.fields, f.isOf (some key, t) = true →
      f.Respects e ∧ ∀ m ∈ ms, f.isOf m = false := by
    intro f hf hisOf
    obtain ⟨e', he', hfe⟩ := hr.exists_edits hf
    obtain rfl := hr.eq_of_isOf hfields he hkey he' hfe hisOf
    refine ⟨hfe, fun ⟨key?, t'⟩ hm => Bool.eq_false_iff.mpr fun hisOf' => ?_⟩
    obtain ⟨key', hkey', rfl⟩ := Field.isOf_iff.mp hisOf'
    exact habsent key' (hfe.mem_names_iff.mp hkey') t' hm
  refine ⟨?_, fun _ f hf e' he' hfe => ?_⟩
  · rw [passes_cons_iff]
    refine ⟨fun h => ⟨rfl, fun f hf hisOf => ?_, h⟩, fun h => h.2.2⟩
    obtain ⟨hfe, hnone⟩ := hfield f hf hisOf
    exact ⟨hfe.default t ht, hnone⟩
  · by_cases hisOf : f.isOf (some key, t) = true
    · obtain rfl := hr.eq_of_isOf hfields he hkey he' hfe hisOf
      have hnone : ms.find? f.isOf = none :=
        List.find?_eq_none.mpr fun m hm => by simp [(hfield f hf hisOf).2 m hm]
      rw [List.find?_cons_of_pos hisOf, hnone]
      exact .default ht
    · rw [List.find?_cons_of_neg hisOf]
      exact .same _

theorem Respects.membersEdit_value {t t' : Tree} (hvalue : e.value t t') :
    MembersEdit r.fields es ((some key, t) :: ms) ((some key, t') :: ms) := by
  have hisOf : ∀ f : Field, f.isOf (some key, t) = f.isOf (some key, t') := fun _ => rfl
  refine ⟨?_, fun _ f hf e' he' hfe => ?_⟩
  · rw [passes_cons_iff, passes_cons_iff]
    refine and_congr (by simp) (and_congr (forall₂_congr fun f hf => ?_) Iff.rfl)
    rw [← hisOf f]
    refine imp_congr_right fun h => and_congr_left' ?_
    obtain ⟨e', he', hfe⟩ := hr.exists_edits hf
    obtain rfl := hr.eq_of_isOf hfields he hkey he' hfe h
    rw [hfe.value t t' hvalue]
  · by_cases h : f.isOf (some key, t) = true
    · obtain rfl := hr.eq_of_isOf hfields he hkey he' hfe h
      rw [List.find?_cons_of_pos h, List.find?_cons_of_pos (hisOf f ▸ h)]
      exact .value hvalue
    · rw [List.find?_cons_of_neg h, List.find?_cons_of_neg (hisOf f ▸ h)]
      exact .same _

end Members

/-- **An edit of members** keeps whether they pass the check, and edits what they give each field. -/
theorem Respects.objectEdit {r : Record α} {es : List FieldEdits} (hr : r.Respects es)
    (hfields : Field.AreApart r.fields) {ms ms' : List (Option String × Tree)}
    (h : ObjectEdit es ms ms') : MembersEdit r.fields es ms ms' := by
  cases h with
  | reorder h => exact membersEdit_reorder h
  | unknown hkey t => exact hr.membersEdit_unknown hkey t
  | rename he hkey hkey' t => exact hr.membersEdit_rename hfields he hkey hkey' t
  | default he hkey ht habsent => exact hr.membersEdit_default hfields he hkey ht habsent
  | value he hkey h => exact hr.membersEdit_value hfields he hkey h

/-! ### Arrays -/

/-- Items that edits lead to: every item is the same or edited, and one more may state a default. -/
def ItemsEdit (es : List FieldEdits) (ts ts' : List Tree) : Prop :=
  (ts.length = ts'.length ∨ ts.length < ts'.length ∧ ts'.length ≤ es.length) ∧
    ∀ (i : Nat) (e : FieldEdits), es[i]? = some e →
      PartEdit e (ts.map Tree.node)[i]? (ts'.map Tree.node)[i]?

theorem itemsEdit_set {es : List FieldEdits} {ts : List Tree} {i : Nat} {e : FieldEdits} {t t' : Tree}
    (he : es[i]? = some e) (ht : ts[i]? = some t) (h : e.value t t') : ItemsEdit es ts (ts.set i t') := by
  refine ⟨.inl List.length_set.symm, fun j e' he' => ?_⟩
  rw [List.getElem?_map, List.getElem?_map, List.getElem?_set]
  by_cases hij : i = j
  · subst hij
    obtain rfl := Option.some.inj (he.symm.trans he')
    have hi : i < ts.length := (List.getElem?_eq_some_iff.mp ht).1
    rw [if_pos rfl, if_pos hi, ht]
    exact .value h
  · rw [if_neg hij]
    exact .same _

theorem itemsEdit_append {es : List FieldEdits} {ts : List Tree} {e : FieldEdits} {t : Tree}
    (he : es[ts.length]? = some e) (ht : e.default? = some t) : ItemsEdit es ts (ts ++ [t]) := by
  have hlength : ts.length < es.length := (List.getElem?_eq_some_iff.mp he).1
  refine ⟨.inr ⟨by simp, by simpa using Nat.succ_le_of_lt hlength⟩, fun j e' he' => ?_⟩
  rw [List.getElem?_map, List.getElem?_map]
  by_cases hj : j = ts.length
  · subst hj
    obtain rfl := Option.some.inj (he.symm.trans he')
    simp only [List.getElem?_concat_length, List.getElem?_eq_none (Nat.le_refl _)]
    exact .default ht
  · have hsame : (ts ++ [t])[j]? = ts[j]? := by
      rcases Nat.lt_or_gt_of_ne hj with hlt | hgt
      · exact List.getElem?_append_left hlt
      · rw [List.getElem?_eq_none (Nat.le_of_lt hgt),
          List.getElem?_eq_none (by rw [List.length_append]; exact hgt)]
    rw [hsame]
    exact .same _

theorem findIdx_name {fields : List Field} (h : Field.AreApart fields) {i : Nat}
    {f : Field} (hf : fields[i]? = some f) : fields.findIdx (·.name == f.name) = i := by
  obtain ⟨hi, rfl⟩ := List.getElem?_eq_some_iff.mp hf
  refine (List.findIdx_eq hi).mpr ⟨by simp, fun j hji => ?_⟩
  have hdisjoint := List.pairwise_iff_getElem.mp (List.nodup_flatMap.mp h).2 j i (by omega) hi hji
  refine beq_false_of_ne fun hname => hdisjoint List.mem_cons_self ?_
  rw [hname]
  exact List.mem_cons_self

section Decoder

variable {r : Record α} {es : List FieldEdits} (hr : r.Respects es)
include hr

/-- The field and the edits at an index belong together. -/
theorem Respects.getElem? {i : Nat} {e : FieldEdits} (he : es[i]? = some e) :
    ∃ f, r.fields[i]? = some f ∧ f.Respects e := by
  obtain ⟨hlength, hget⟩ := List.forall₂_iff_get.mp hr.fields
  obtain ⟨hi, rfl⟩ := List.getElem?_eq_some_iff.mp he
  exact ⟨_, List.getElem?_eq_getElem (hlength ▸ hi), hget i (hlength ▸ hi) hi⟩

/-- Items pass the check before an edit if and only if they pass it after. -/
theorem Respects.isSome_checkItems_iff {ts ts' : List Tree} (h : ItemsEdit es ts ts') :
    (checkItems r.fields (ts.map Tree.node)).toOption.isSome ↔
      (checkItems r.fields (ts'.map Tree.node)).toOption.isSome := by
  rw [Record.isSome_checkItems_iff, Record.isSome_checkItems_iff]
  have hitem : ∀ (i : Nat) (f : Field), r.fields[i]? = some f →
      ((∀ n, (ts.map Tree.node)[i]? = some n → (f.check n).toOption.isSome) ↔
        ∀ n, (ts'.map Tree.node)[i]? = some n → (f.check n).toOption.isSome) := by
    intro i f hf
    have hi : i < es.length := hr.fields.length_eq ▸ (List.getElem?_eq_some_iff.mp hf).1
    obtain ⟨f', hf', hfe⟩ := hr.getElem? (List.getElem?_eq_getElem hi)
    obtain rfl := Option.some.inj (hf.symm.trans hf')
    have hpart := h.2 i es[i] (List.getElem?_eq_getElem hi)
    generalize (ts.map Tree.node)[i]? = n?, (ts'.map Tree.node)[i]? = n'? at hpart
    cases hpart with
    | same => rfl
    | value h => simp [hfe.value _ _ h]
    | default ht => simp [hfe.default _ ht]
  constructor
  · intro h i f n hf hn
    exact (hitem i f hf).mp (fun n hn => h i f n hf hn) n hn
  · intro h i f n hf hn
    exact (hitem i f hf).mpr (fun n hn => h i f n hf hn) n hn

/-- What items give a record is the same after an edit. -/
theorem Respects.itemsEdit (hfields : Field.AreApart r.fields) {ts ts' : List Tree}
    (h : ItemsEdit es ts ts') (name : String) :
    (r.decoder name (Tree.array ts).node).toOption =
      (r.decoder name (Tree.array ts').node).toOption := by
  have hlength : r.fields.length = es.length := hr.fields.length_eq
  have hcount : (ts.map Tree.node).length ≤ r.fields.length ↔
      (ts'.map Tree.node).length ≤ r.fields.length := by
    rw [List.length_map, List.length_map]
    rcases h.1 with heq | hlt <;> omega
  have hbuild : (r.build (r.presentAt name default (ts.map Tree.node))).toOption =
      (r.build (r.presentAt name default (ts'.map Tree.node))).toOption := by
    refine hr.build _ _ rfl fun e he => ?_
    obtain ⟨i, hi, rfl⟩ := List.mem_iff_getElem.mp he
    obtain ⟨f, hf, hfe⟩ := hr.getElem? (List.getElem?_eq_getElem hi)
    simp only [presentAt, ← hfe.names.1, findIdx_name hfields hf]
    exact h.2 i es[i] (List.getElem?_eq_getElem hi)
  have hcheck : (checkItems r.fields (ts.map Tree.node)).toOption =
      (checkItems r.fields (ts'.map Tree.node)).toOption := by
    have hsome := hr.isSome_checkItems_iff h
    generalize (checkItems r.fields (ts.map Tree.node)).toOption = x?,
      (checkItems r.fields (ts'.map Tree.node)).toOption = y? at hsome ⊢
    cases x? <;> cases y? <;> simp_all
  rw [Tree.node, Tree.node, Tree.nodes_eq_map, Tree.nodes_eq_map, toOption_decoder_array,
    toOption_decoder_array, hcheck, hbuild]
  simp only [hcount]

/-- **A record respects the edits** of its fields. -/
theorem Respects.decoder (hfields : Field.AreApart r.fields) (name : String) :
    (r.decoder name).Respects (RecordEdit es) := by
  intro t t' h
  cases h with
  | item he ht h => exact hr.itemsEdit hfields (itemsEdit_set he ht h) name
  | default he ht => exact hr.itemsEdit hfields (itemsEdit_append he ht) name
  | @members ms ms' h =>
    obtain ⟨hpasses, hparts⟩ := hr.objectEdit hfields h
    rw [Tree.node, Tree.node, decoder_object, decoder_object, toOption_bind, toOption_bind]
    by_cases hms : Passes r.fields ms
    · obtain ⟨⟨⟩, hcheck⟩ := Option.isSome_iff_exists.mp ((passes_iff hfields).mp hms)
      obtain ⟨⟨⟩, hcheck'⟩ := Option.isSome_iff_exists.mp ((passes_iff hfields).mp (hpasses.mp hms))
      rw [hcheck, hcheck']
      refine hr.build _ _ rfl fun e he => ?_
      obtain ⟨f, hf, hfe⟩ := hr.exists_field he
      rw [← hfe.names.1, node?_presentAmong hfields hf, node?_presentAmong hfields hf]
      exact hparts hms f hf e he hfe
    · have hcheck := mt (passes_iff hfields).mpr hms
      have hcheck' := mt (passes_iff hfields).mpr (mt hpasses.mpr hms)
      rw [Option.not_isSome_iff_eq_none.mp hcheck, Option.not_isSome_iff_eq_none.mp hcheck']
      rfl

end Decoder

end Record

end Circulation.Json
