import Circulation.Policy.Json
import Circulation.Proofs.Json.Members
import Circulation.Proofs.Json.Writing

/-!
# Written records

A record is written as an object with a member for each field, apart from the fields that are left
out. What such an object gives a key is therefore the written form of the field, or nothing, and lists
are read item by item.

## Main definitions

* `Circulation.Json.Has` — the value that the members of a value have for a key, if they have one.

## Main results

* `Circulation.Json.Has.gives` — what members have for a key is what they give it.
* `Circulation.Json.Decoder.list_of_forall₂` — a list is read if its items are.
-/

namespace Circulation.Json

variable {α : Type}

/-! ### Members -/

/-- Members have this value for a key, or do not have the key. -/
def Has (ms : List (String × Json)) (key : String) (v? : Option Json) : Prop :=
  ms.filter (fun m => m.1 == key) = v?.toList.map fun v => (key, v)

theorem Has.gives {ms : List (String × Json)} {key : String} {v? : Option Json} (h : Has ms key v?) :
    Gives (Tree.ofMembers ms) key (v?.map Tree.ofJson) := by
  have hkey : (fun m : Option String × Tree => m.1 == some key) ∘
      (fun m : String × Json => (some m.1, Tree.ofJson m.2)) = fun m => m.1 == key := by
    funext m
    exact Option.some_beq_some
  unfold Gives
  rw [Tree.ofMembers_eq_map, List.filter_map, hkey, h]
  cases v? <;> rfl

theorem isSome_of_mem_ofMembers (ms : List (String × Json)) :
    ∀ m ∈ Tree.ofMembers ms, m.1.isSome := by
  intro m hm
  rw [Tree.ofMembers_eq_map] at hm
  obtain ⟨m', -, rfl⟩ := List.mem_map.mp hm
  rfl

namespace Has

variable {ms : List (String × Json)} {key : String} {d : Decoder α} {a : α}

/-- What members that have a value for a field give the field. -/
theorem reads_required {v : Json} (h : Has ms key (some v)) (hv : d (Tree.ofJson v).node = .ok a) :
    (Record.required key d).Reads (Tree.ofMembers ms) a :=
  Record.reads_required h.gives hv

theorem reads_field {otherNames : List String} {v? : Option Json} {default? : Form → Option α}
    (h : Has ms key v?) (hothers : ∀ key' ∈ otherNames, Has ms key' none)
    (hsome : ∀ v ∈ v?, d (Tree.ofJson v).node = .ok a)
    (hnone : v? = none → default? .members = some a) :
    (Record.field key otherNames d default?).Reads (Tree.ofMembers ms) a := by
  refine Record.reads_field h.gives (fun key' hkey' => (hothers key' hkey').gives) (fun t ht => ?_)
    fun ht => hnone (Option.map_eq_none_iff.mp ht)
  obtain ⟨v, hv, rfl⟩ := Option.map_eq_some_iff.mp ht
  exact hsome v hv

theorem reads_defaulted {v? : Option Json} {default : α} (h : Has ms key v?)
    (hsome : ∀ v ∈ v?, d (Tree.ofJson v).node = .ok a) (hnone : v? = none → default = a) :
    (Record.defaulted key d default).Reads (Tree.ofMembers ms) a :=
  h.reads_field nofun hsome fun hv => congrArg some (hnone hv)

theorem reads_string {s : String} (h : Has ms key (some (.string s))) :
    (Record.required key Decoder.string).Reads (Tree.ofMembers ms) s :=
  h.reads_required rfl

/-- An optional text is left out or written as a string. -/
theorem reads_optional_string {s? : Option String} (h : Has ms key (s?.map .string)) :
    (Record.defaulted key (.optional Decoder.string) none).Reads (Tree.ofMembers ms) s? := by
  refine h.reads_defaulted (fun v hv => ?_) fun hv => (Option.map_eq_none_iff.mp hv).symm
  obtain ⟨s, rfl, rfl⟩ := Option.map_eq_some_iff.mp hv
  rfl

end Has

/-! ### Members of fields -/

theorem filter_memberOf? (key key' : String) (v? : Option Json) :
    (memberOf? key v?).filter (fun m => m.1 == key') = if key = key' then memberOf? key v? else [] := by
  cases v? <;> simp [memberOf?, List.filter_cons]

/-- The members of fields, apart from those that are left out. -/
def membersOf (fields : List (String × Option Json)) : List (String × Json) :=
  fields.flatMap fun f => memberOf? f.1 f.2

theorem has_none_membersOf {fields : List (String × Option Json)} {key : String}
    (h : key ∉ fields.map (·.1)) : Has (membersOf fields) key none := by
  unfold Has
  rw [membersOf, List.filter_flatMap]
  refine List.flatMap_eq_nil_iff.mpr fun f hf => ?_
  rw [filter_memberOf?, if_neg]
  rintro rfl
  exact h (List.mem_map_of_mem hf)

/-- Among the members of fields with different keys, each key has the value of its field. -/
theorem has_membersOf {fields : List (String × Option Json)} (h : (fields.map (·.1)).Nodup) (i : Nat)
    ⦃key : String⦄ ⦃v? : Option Json⦄ (hi : fields[i]? = some (key, v?)) :
    Has (membersOf fields) key v? := by
  have hmem : (key, v?) ∈ fields := List.mem_of_getElem? hi
  have hown : memberOf? key v? = v?.toList.map fun v => (key, v) := by cases v? <;> rfl
  clear hi
  induction fields with
  | nil => exact absurd hmem List.not_mem_nil
  | cons f fields ih =>
    rw [List.map_cons, List.nodup_cons] at h
    unfold Has at ih ⊢
    rw [membersOf, List.flatMap_cons, List.filter_append, filter_memberOf?, ← membersOf]
    rcases List.mem_cons.mp hmem with rfl | hmem
    · have hrest : (membersOf fields).filter (fun m => m.1 == key) = [] := has_none_membersOf h.1
      rw [if_pos rfl, hrest, List.append_nil, hown]
    · have hne : f.1 ≠ key := fun heq => h.1 (heq ▸ List.mem_map_of_mem hmem)
      rw [if_neg hne, List.nil_append]
      exact ih h.2 hmem

/-- The members of fields have the values of the fields. -/
theorem forall_mem_membersOf {fields : List (String × Option Json)} {p : Json → Prop} :
    (∀ m ∈ membersOf fields, p m.2) ↔ ∀ f ∈ fields, ∀ v ∈ f.2, p v := by
  have hmember : ∀ (f : String × Option Json),
      (∀ m ∈ memberOf? f.1 f.2, p m.2) ↔ ∀ v ∈ f.2, p v := by
    rintro ⟨key, v?⟩
    cases v? <;> simp [memberOf?]
  simp only [membersOf, List.forall_mem_flatMap, hmember]

theorem membersHaveIntegers_membersOf {fields : List (String × Option Json)} :
    MembersHaveIntegers (membersOf fields) ↔ ∀ f ∈ fields, ∀ v ∈ f.2, v.HasIntegers :=
  membersHaveIntegers_iff.trans forall_mem_membersOf

/-- The keys of the members of fields are keys of the fields, in their order. -/
theorem keys_membersOf_sublist (fields : List (String × Option Json)) :
    ((membersOf fields).map (·.1)).Sublist (fields.map (·.1)) := by
  induction fields with
  | nil => exact .slnil
  | cons f fields ih =>
    obtain ⟨key, v?⟩ := f
    cases v? with
    | none => exact ih.cons key
    | some v => exact ih.cons_cons key

theorem hasIntegers_optional_string (s? : Option String) :
    ∀ v ∈ s?.map Json.string, v.HasIntegers := by
  intro v hv
  obtain ⟨s, -, rfl⟩ := Option.map_eq_some_iff.mp hv
  trivial

/-- The array of a list that is left out if it is empty. -/
def arrayOf? (items : List Json) : Option Json :=
  if items = [] then none else some (.array items)

theorem memberOfList_eq (key : String) (items : List Json) :
    memberOfList key items = memberOf? key (arrayOf? items) := by
  unfold memberOfList arrayOf?
  split <;> rfl

theorem hasIntegers_arrayOf? {items : List Json} :
    (∀ v ∈ arrayOf? items, v.HasIntegers) ↔ ∀ v ∈ items, v.HasIntegers := by
  unfold arrayOf?
  split
  · next h => simp [h]
  · simp [HasIntegers, haveIntegers_iff]

/-! ### Lists -/

/-- **A list is read** if its items are. -/
theorem Decoder.list_of_forall₂ {d : Decoder α} {as : List α} {ts : List Tree}
    (h : List.Forall₂ (fun a t => d t.node = .ok a) as ts) :
    Decoder.list d (Tree.array ts).node = .ok as := by
  rw [Tree.node, Tree.nodes_eq_map]
  exact mapM_eq_ok_iff.mpr (List.forall₂_map_left_iff.mpr h.flip)

theorem Decoder.list_array {d : Decoder α} {as : List α} {vs : List Json}
    (h : List.Forall₂ (fun a v => d (Tree.ofJson v).node = .ok a) as vs) :
    Decoder.list d (Tree.ofJson (.array vs)).node = .ok as := by
  rw [Tree.ofJson, Tree.ofItems_eq_map]
  exact Decoder.list_of_forall₂ (List.forall₂_map_right_iff.mpr h)

/-- A list is left out if it is empty and otherwise written as an array. -/
theorem Has.reads_list {ms : List (String × Json)} {key : String} {otherNames : List String}
    {d : Decoder α} {as : List α} {vs : List Json} (h : Has ms key (arrayOf? vs))
    (hothers : ∀ key' ∈ otherNames, Has ms key' none)
    (hitems : List.Forall₂ (fun a v => d (Tree.ofJson v).node = .ok a) as vs) :
    (Record.field key otherNames (.list d) fun _ => some []).Reads (Tree.ofMembers ms) as := by
  refine h.reads_field hothers (fun v hv => ?_) fun hv => ?_
  · obtain rfl := Option.some.inj (Option.ite_none_left_eq_some.mp hv).2
    exact Decoder.list_array hitems
  · obtain rfl : vs = [] := by simpa [arrayOf?] using hv
    cases hitems
    rfl

/-! ### Values that are read back -/

/-- A written form of one value that is read as another, which has the same written form. -/
structure IsReadBack {ε : Type} (toJson : α → Except ε Json) (d : Decoder α) (a a' : α) (v : Json) :
    Prop where
  written : toJson a = .ok v
  writtenAgain : toJson a' = .ok v
  read : d (Tree.ofJson v).node = .ok a'
  hasIntegers : v.HasIntegers

/-- **A list is read back** if its items are. -/
theorem isReadBack_list {ε : Type} {toJson : α → Except ε Json} {d : Decoder α} {f : α → α}
    {as : List α} (h : ∀ a ∈ as, ∃ v, IsReadBack toJson d a (f a) v) :
    ∃ vs, as.mapM toJson = .ok vs ∧ (as.map f).mapM toJson = .ok vs ∧
      Decoder.list d (Tree.ofJson (.array vs)).node = .ok (as.map f) ∧
        (Json.array vs).HasIntegers := by
  have hvalues : ∃ vs, List.Forall₂ (fun a v => IsReadBack toJson d a (f a) v) as vs := by
    induction as with
    | nil => exact ⟨[], .nil⟩
    | cons a as ih =>
      obtain ⟨⟨v, hv⟩, has⟩ := List.forall_mem_cons.mp h
      obtain ⟨vs, hvs⟩ := ih has
      exact ⟨v :: vs, .cons hv hvs⟩
  obtain ⟨vs, hvs⟩ := hvalues
  have hintegers : List.Forall₂ (fun v a => v.HasIntegers ∧ IsReadBack toJson d a (f a) v) vs as :=
    hvs.flip.imp fun _ _ h => ⟨h.hasIntegers, h⟩
  refine ⟨vs, mapM_eq_ok_iff.mpr (hvs.imp fun _ _ h => h.written), ?_, ?_,
    haveIntegers_iff.mpr ((List.forall₂_and_left _ _).mp hintegers).1⟩
  · exact mapM_eq_ok_iff.mpr (List.forall₂_map_left_iff.mpr (hvs.imp fun _ _ h => h.writtenAgain))
  · exact Decoder.list_array (List.forall₂_map_left_iff.mpr (hvs.imp fun _ _ h => h.read))

end Circulation.Json
