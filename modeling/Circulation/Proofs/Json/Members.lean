import Mathlib.Data.List.Nodup
import Mathlib.Data.List.Pairwise
import Circulation.Json.Record
import Circulation.Proofs.Except
import Circulation.Proofs.Json.Tree

/-!
# Records among members

What becomes of the members of an object as a record. The check succeeds if every key is a text, no
field occurs twice and the value of every field decodes, in whatever order the members stand and
whatever else is among them. The record is then put together from the values of its fields.

## Main definitions

* `Circulation.Json.Field.isOf` — whether a member is that of a field.
* `Circulation.Json.Gives` — the value that members give a key, if they give it one.
* `Circulation.Json.Record.Reads` — what members give a record.

## Main results

* `Circulation.Json.Record.isSome_checkMembers_iff` — when the check succeeds.
* `Circulation.Json.Record.Reads.seq`, `Circulation.Json.Record.Reads.decoder` — what an object gives a
  record is what its members give the fields.
-/

namespace Circulation.Json

variable {α β : Type}

/-! ### Checks -/

namespace Record

/-- The check of a member and of the members after it. -/
theorem toOption_checkMembers_cons (fields : List Field) (seen : List String)
    (key : Except Fault String) (keyStop : Nat) (node : Node) (members : List Member) :
    (checkMembers fields seen (.mk key keyStop node :: members)).toOption =
      key.toOption.bind fun key =>
        match fields.find? (·.answersTo key) with
        | none => if node.passFault? = none then (checkMembers fields seen members).toOption else none
        | some f =>
          if f.name ∈ seen then none
          else (f.check node).toOption.bind fun _ =>
            (checkMembers fields (f.name :: seen) members).toOption := by
  cases key with
  | error fault => rfl
  | ok key =>
    simp only [checkMembers, toOption_bind, toOption_mapError]
    show Option.bind (some key) _ = Option.bind (some key) _
    rw [Option.bind_some, Option.bind_some]
    cases hfield : fields.find? (·.answersTo key) with
    | none =>
      dsimp only
      cases hfault : node.passFault? with
      | none => rw [if_pos rfl]
      | some fault => rw [if_neg (Option.some_ne_none fault)]; rfl
    | some f =>
      dsimp only
      by_cases hseen : f.name ∈ seen
      · rw [if_pos hseen, if_pos (List.contains_iff_mem.mpr hseen)]
        rfl
      · rw [if_neg hseen, if_neg (mt List.contains_iff_mem.mp hseen), toOption_bind]

/-- The check of an item and of the items after it. -/
theorem toOption_checkItems_cons (f : Field) (fields : List Field) (item : Node) (items : List Node) :
    (checkItems (f :: fields) (item :: items)).toOption =
      (f.check item).toOption.bind fun _ => (checkItems fields items).toOption :=
  toOption_bind _ _

end Record

/-- Whether a member is that of a field, under any of its names. -/
def Field.isOf (f : Field) (m : Option String × Tree) : Bool :=
  m.1.any f.answersTo

theorem memberNode?_memberNodes (f : Field) (ms : List (Option String × Tree)) :
    Record.memberNode? f (Tree.memberNodes ms) = (ms.find? f.isOf).map (·.2.node) := by
  induction ms with
  | nil => rfl
  | cons m ms ih =>
    obtain ⟨key, t⟩ := m
    cases key with
    | none => exact ih
    | some key =>
      unfold Record.memberNode? at ih ⊢
      rw [Tree.memberNodes, List.findSome?_cons, List.find?_cons]
      by_cases hkey : f.answersTo key = true
      · simp [keyOf, hkey, Field.isOf]
      · simp [keyOf, hkey, Field.isOf, ih]

/-- The names of a field. -/
def Field.names (f : Field) : List String :=
  f.name :: f.otherNames

theorem Field.answersTo_iff {f : Field} {key : String} : f.answersTo key = true ↔ key ∈ f.names := by
  simp [Field.answersTo, Field.names]

theorem Field.isOf_iff {f : Field} {m : Option String × Tree} :
    f.isOf m = true ↔ ∃ key ∈ f.names, m.1 = some key := by
  obtain ⟨key?, t⟩ := m
  cases key? <;> simp [Field.isOf, Field.answersTo_iff]

theorem eq_of_nodup_flatMap {names : α → List String} {as : List α} (h : (as.flatMap names).Nodup)
    {a b : α} (ha : a ∈ as) (hb : b ∈ as) {key : String} (hakey : key ∈ names a)
    (hbkey : key ∈ names b) : a = b := by
  by_contra hne
  have hsymm : Std.Symm (Function.onFun List.Disjoint names) := ⟨fun _ _ h _ hb ha => h ha hb⟩
  exact (List.nodup_flatMap.mp h).2.forall ha hb hne hakey hbkey

/-- No two fields share a name. -/
def Field.AreApart (fields : List Field) : Prop :=
  (fields.flatMap Field.names).Nodup

instance (fields : List Field) : Decidable (Field.AreApart fields) :=
  inferInstanceAs (Decidable (List.Nodup _))

namespace Field.AreApart

variable {fields : List Field}

/-- Fields of which one key is a name are the same. -/
theorem eq_of_mem_names (h : AreApart fields) {f g : Field} (hf : f ∈ fields) (hg : g ∈ fields)
    {key : String} (hfkey : key ∈ f.names) (hgkey : key ∈ g.names) : f = g :=
  eq_of_nodup_flatMap h hf hg hfkey hgkey

/-- A member of one field is a member of no other. -/
theorem isOf_eq_false (h : AreApart fields) {f g : Field} (hf : f ∈ fields) (hg : g ∈ fields)
    (hne : f ≠ g) {key : String} (hkey : key ∈ g.names) (t : Tree) : f.isOf (some key, t) = false := by
  refine Bool.eq_false_iff.mpr fun hisOf => hne ?_
  obtain ⟨key', hkey', heq⟩ := Field.isOf_iff.mp hisOf
  obtain rfl := Option.some.inj heq
  exact h.eq_of_mem_names hf hg hkey' hkey

theorem name_ne (h : AreApart fields) {f g : Field} (hf : f ∈ fields) (hg : g ∈ fields)
    (hne : f ≠ g) : f.name ≠ g.name :=
  fun hname => hne (h.eq_of_mem_names hf hg List.mem_cons_self (hname ▸ List.mem_cons_self))

theorem find?_name (h : AreApart fields) {f : Field} (hf : f ∈ fields) :
    fields.find? (·.name == f.name) = some f := by
  cases hfind : fields.find? (·.name == f.name) with
  | none => exact absurd (beq_self_eq_true f.name) (List.find?_eq_none.mp hfind f hf)
  | some g =>
    have hname : g.name = f.name := by simpa using List.find?_some hfind
    have hg : f.name ∈ g.names := hname ▸ List.mem_cons_self
    rw [h.eq_of_mem_names (List.mem_of_find?_eq_some hfind) hf hg List.mem_cons_self]

end Field.AreApart

namespace Record

theorem isSome_bind_const {x : Option α} {y : Option β} :
    (x.bind fun _ => y).isSome ↔ x.isSome ∧ y.isSome := by
  cases x <;> simp

/-- **When the check of members succeeds**: every key is a text, no field occurs twice, and the value
of every field that occurs passes its check. -/
theorem isSome_checkMembers_iff {fields : List Field} (hfields : Field.AreApart fields)
    {seen : List String} (ms : List (Option String × Tree)) :
    (checkMembers fields seen (Tree.memberNodes ms)).toOption.isSome ↔
      (∀ m ∈ ms, m.1.isSome) ∧
      ∀ f ∈ fields, (∀ m ∈ ms, f.isOf m = true → (f.check m.2.node).toOption.isSome) ∧
        ms.countP f.isOf ≤ if f.name ∈ seen then 0 else 1 := by
  induction ms generalizing seen with
  | nil => simp [Tree.memberNodes, checkMembers, Except.toOption]
  | cons m ms ih =>
    obtain ⟨key?, t⟩ := m
    rw [Tree.memberNodes, toOption_checkMembers_cons]
    cases key? with
    | none => simp [keyOf, Except.toOption]
    | some key =>
      have hkey : (keyOf (some key)).toOption = some key := rfl
      rw [hkey, Option.bind_some]
      cases hfind : fields.find? (·.answersTo key) with
      | none =>
        have hother : ∀ f ∈ fields, f.isOf (some key, t) = false := by
          intro f hf
          simpa [Field.isOf] using List.find?_eq_none.mp hfind f hf
        rw [if_pos (Tree.passFault?_node t), ih, List.forall_mem_cons]
        refine and_congr (by simp) (forall₂_congr fun f hf => ?_)
        simp [hother f hf]
      | some g =>
        have hg : g ∈ fields := List.mem_of_find?_eq_some hfind
        have hgkey : key ∈ g.names :=
          Field.answersTo_iff.mp (List.find?_some (p := fun f : Field => f.answersTo key) hfind)
        have hgisOf : g.isOf (some key, t) = true := Field.isOf_iff.mpr ⟨key, hgkey, rfl⟩
        dsimp only
        by_cases hseen : g.name ∈ seen
        · rw [if_pos hseen]
          refine iff_of_false (by simp) fun h => ?_
          have hcount := (h.2 g hg).2
          rw [if_pos hseen, List.countP_cons_of_pos hgisOf] at hcount
          omega
        -- What one more member demands of a field: something of the field that it belongs to only.
        have hfield : ∀ f ∈ fields,
            ((∀ m ∈ (some key, t) :: ms, f.isOf m = true → (f.check m.2.node).toOption.isSome) ∧
                ((some key, t) :: ms).countP f.isOf ≤ if f.name ∈ seen then 0 else 1) ↔
              (f = g → (f.check t.node).toOption.isSome) ∧
                (∀ m ∈ ms, f.isOf m = true → (f.check m.2.node).toOption.isSome) ∧
                  ms.countP f.isOf ≤ if f.name ∈ g.name :: seen then 0 else 1 := by
          intro f hf
          by_cases hfg : f = g
          · subst hfg
            rw [if_neg hseen, if_pos List.mem_cons_self, List.countP_cons_of_pos hgisOf]
            simp [hgisOf, and_assoc]
          · have hisOf : f.isOf (some key, t) = false := hfields.isOf_eq_false hf hg hfg hgkey t
            have hname : f.name ∈ g.name :: seen ↔ f.name ∈ seen := by
              simp [hfields.name_ne hf hg hfg]
            simp [hisOf, hfg, hname]
        rw [if_neg hseen, isSome_bind_const, ih]
        constructor
        · rintro ⟨hcheck, hkeys, hrest⟩
          exact ⟨List.forall_mem_cons.mpr ⟨rfl, hkeys⟩, fun f hf =>
            (hfield f hf).mpr ⟨fun hfg => hfg ▸ hcheck, hrest f hf⟩⟩
        · rintro ⟨hkeys, hrest⟩
          exact ⟨((hfield g hg).mp (hrest g hg)).1 rfl, (List.forall_mem_cons.mp hkeys).2,
            fun f hf => ((hfield f hf).mp (hrest f hf)).2⟩

/-- Members pass the check of a record. -/
def Passes (fields : List Field) (ms : List (Option String × Tree)) : Prop :=
  (∀ m ∈ ms, m.1.isSome) ∧
    ∀ f ∈ fields, (∀ m ∈ ms, f.isOf m = true → (f.check m.2.node).toOption.isSome) ∧
      ms.countP f.isOf ≤ 1

theorem passes_iff {fields : List Field} (hfields : Field.AreApart fields)
    {ms : List (Option String × Tree)} :
    Passes fields ms ↔ (checkMembers fields [] (Tree.memberNodes ms)).toOption.isSome := by
  rw [isSome_checkMembers_iff hfields]
  simp [Passes]

/-- The fields that are present among members. -/
def presentAmong (r : Record α) (span : Span) (members : List Member) : Present where
  form := .members
  node? name := (r.fields.find? (·.name == name)).bind (memberNode? · members)
  absent name := .mismatch (.missing name) span.stop

/-- An object is checked and then put together. -/
theorem decoder_object (r : Record α) (name : String) (span : Span) (members : List Member) :
    r.decoder name (.object span members) =
      (checkMembers r.fields [] members >>= fun _ => r.build (r.presentAmong span members)) := rfl

/-- The fields that are present among items. -/
def presentAt (r : Record α) (name : String) (span : Span) (items : List Node) : Present where
  form := .positions
  node? field := items[r.fields.findIdx (·.name == field)]?
  absent field :=
    .mismatch (.length (r.fields.findIdx (·.name == field))
      ("struct " ++ name ++ " with " ++ countText r.fields.length)) span.stop

/-- An array is checked and then put together, and must not have more items than there are fields. -/
theorem toOption_decoder_array (r : Record α) (name : String) (span : Span) (items : List Node) :
    (r.decoder name (.array span items)).toOption =
      (checkItems r.fields items).toOption.bind fun _ =>
        (r.build (r.presentAt name span items)).toOption.bind fun a =>
          if items.length ≤ r.fields.length then some a else none := by
  unfold decoder
  rw [toOption_bind]
  refine congrArg _ (funext fun _ => ?_)
  dsimp only
  rw [toOption_bind]
  refine congrArg _ (funext fun a => ?_)
  cases hdrop : items.drop r.fields.length with
  | nil => rw [if_pos (List.drop_eq_nil_iff.mp hdrop)]; rfl
  | cons item rest =>
    have hlength : ¬items.length ≤ r.fields.length := by
      intro hle
      rw [List.drop_eq_nil_of_le hle] at hdrop
      exact absurd hdrop (by simp)
    rw [if_neg hlength]
    rfl

theorem node?_presentAmong {r : Record α} (hr : Field.AreApart r.fields) {f : Field}
    (hf : f ∈ r.fields) (span : Span) (ms : List (Option String × Tree)) :
    (r.presentAmong span (Tree.memberNodes ms)).node? f.name = (ms.find? f.isOf).map (·.2.node) := by
  simp only [presentAmong, hr.find?_name hf, Option.bind_some, memberNode?_memberNodes]

end Record

/-- When the check of items succeeds: every item that stands for a field passes its check. -/
theorem Record.isSome_checkItems_iff {fields : List Field} {items : List Node} :
    (checkItems fields items).toOption.isSome ↔
      ∀ (i : Nat) (f : Field) (n : Node), fields[i]? = some f → items[i]? = some n →
        (f.check n).toOption.isSome := by
  induction fields generalizing items with
  | nil => simp [checkItems, Except.toOption]
  | cons f fields ih =>
    cases items with
    | nil => simp [checkItems, Except.toOption]
    | cons item items =>
      rw [toOption_checkItems_cons, isSome_bind_const, ih]
      constructor
      · rintro ⟨hitem, hrest⟩ i g n hg hn
        cases i with
        | zero =>
          obtain rfl := Option.some.inj hg
          obtain rfl := Option.some.inj hn
          exact hitem
        | succ i => exact hrest i g n hg hn
      · intro h
        exact ⟨h 0 f item rfl rfl, fun i g n hg hn => h (i + 1) g n hg hn⟩

/-! ### What members give a record -/

/-- Members give a key this value, or do not have the key. -/
def Gives (ms : List (Option String × Tree)) (key : String) (t? : Option Tree) : Prop :=
  ms.filter (fun m => m.1 == some key) = t?.toList.map fun t => (some key, t)

namespace Gives

variable {ms : List (Option String × Tree)} {key : String} {t? : Option Tree}

theorem of_mem (h : Gives ms key t?) {t : Tree} (ht : (some key, t) ∈ ms) : t? = some t := by
  have hmem : (some key, t) ∈ ms.filter (fun m => m.1 == some key) :=
    List.mem_filter.mpr ⟨ht, by simp⟩
  rw [h] at hmem
  cases t? with
  | none => exact absurd hmem (by simp)
  | some t' => simpa [eq_comm] using hmem

theorem mem {t : Tree} (h : Gives ms key (some t)) : (some key, t) ∈ ms := by
  have hfilter : ms.filter (fun m => m.1 == some key) = [(some key, t)] := h
  exact (List.mem_filter.mp (hfilter ▸ List.mem_singleton_self _)).1

/-- The members of a field under its own name, where they give none of its other names a value. -/
theorem filter_isOf (h : Gives ms key t?) {otherNames : List String}
    (hothers : ∀ key' ∈ otherNames, Gives ms key' none) (check : Node → Except Problem Unit) :
    ms.filter (Field.mk key otherNames check).isOf = t?.toList.map fun t => (some key, t) := by
  rw [← h]
  refine List.filter_congr fun ⟨key?, t⟩ hm => Bool.eq_iff_iff.mpr ?_
  rw [Field.isOf_iff, beq_iff_eq]
  refine ⟨?_, fun hkey => ⟨key, List.mem_cons_self, hkey⟩⟩
  rintro ⟨key', hkey', rfl⟩
  rcases List.mem_cons.mp hkey' with rfl | hkey'
  · rfl
  · exact absurd ((hothers key' hkey').of_mem hm) (by simp)

end Gives

namespace Record

/-- What members give a record: every field that occurs does so once and passes its check, and the
fields make up the record. -/
structure Reads (r : Record α) (ms : List (Option String × Tree)) (a : α) : Prop where
  check : ∀ f ∈ r.fields, (∀ m ∈ ms, f.isOf m = true → (f.check m.2.node).toOption.isSome) ∧
    ms.countP f.isOf ≤ 1
  build : ∀ p : Present, p.form = .members →
    (∀ f ∈ r.fields, p.node? f.name = (ms.find? f.isOf).map (·.2.node)) → r.build p = .ok a

section Reads

variable {ms : List (Option String × Tree)}

/-- What members give a field: what the decoder makes of their value, or else the default. -/
theorem reads_field {name : String} {otherNames : List String} {d : Decoder α}
    {default? : Form → Option α} {t? : Option Tree} {a : α} (hgives : Gives ms name t?)
    (hothers : ∀ key ∈ otherNames, Gives ms key none) (hsome : ∀ t ∈ t?, d t.node = .ok a)
    (hnone : t? = none → default? .members = some a) :
    (field name otherNames d default?).Reads ms a := by
  have hfilter := hgives.filter_isOf hothers fun n => (d n).map fun _ => ()
  refine ⟨fun f hf => ?_, fun p hform hparts => ?_⟩
  · obtain rfl := List.mem_singleton.mp hf
    refine ⟨fun m hm hkey => ?_, ?_⟩
    · have hmem := List.mem_filter.mpr ⟨hm, hkey⟩
      rw [hfilter] at hmem
      obtain ⟨t, ht, rfl⟩ := List.mem_map.mp hmem
      rw [toOption_map, hsome t (Option.mem_toList.mp ht)]
      rfl
    · rw [List.countP_eq_length_filter, hfilter]
      cases t? <;> simp
  · have hpart := hparts _ (List.mem_singleton_self _)
    rw [← List.head?_filter, hfilter] at hpart
    unfold field
    dsimp only at hpart ⊢
    rw [hpart, hform]
    cases t? with
    | none => simp [hnone rfl]
    | some t => simpa using hsome t rfl

theorem reads_required {name : String} {d : Decoder α} {t : Tree} {a : α}
    (hgives : Gives ms name (some t)) (h : d t.node = .ok a) : (required name d).Reads ms a :=
  reads_field hgives nofun (by simpa using h) nofun

theorem reads_pure (a : α) : (pure a : Record α).Reads ms a where
  check _ hf := absurd hf List.not_mem_nil
  build _ _ _ := rfl

theorem Reads.seq {f : Record (α → β)} {x : Record α} {g : α → β} {a : α} (hf : f.Reads ms g)
    (hx : x.Reads ms a) : (f <*> x).Reads ms (g a) where
  check e he := by
    rcases List.mem_append.mp he with he | he
    · exact hf.check e he
    · exact hx.check e he
  build p hform hparts := by
    have hg := hf.build p hform fun e he => hparts e (List.mem_append_left _ he)
    have ha := hx.build p hform fun e he => hparts e (List.mem_append_right _ he)
    show (f.build p >>= fun g => x.build p >>= fun a => pure (g a) : Except Problem β) = _
    rw [hg, ha]
    rfl

theorem Reads.map {x : Record α} {a : α} (hx : x.Reads ms a) (f : α → β) :
    (f <$> x).Reads ms (f a) :=
  (reads_pure f).seq hx

/-- **What an object gives a record** is what its members give it. -/
theorem Reads.decoder {r : Record α} {a : α} (hr : r.Reads ms a) (hfields : Field.AreApart r.fields)
    (hkeys : ∀ m ∈ ms, m.1.isSome) (name : String) :
    r.decoder name (Tree.object ms).node = .ok a := by
  have hcheck := (passes_iff hfields).mp ⟨hkeys, hr.check⟩
  obtain ⟨⟨⟩, hcheck⟩ := Option.isSome_iff_exists.mp hcheck
  rw [Tree.node, decoder_object, toOption_eq_some_iff.mp hcheck]
  exact hr.build _ rfl fun f hf => node?_presentAmong hfields hf _ ms

end Reads

end Record

end Circulation.Json
