import Circulation.Proofs.Json.Members

/-!
# The fields of a record

A record may be decoded from an object, whose members carry the names of the fields, or from an array,
whose items stand in the order of the fields. Either way there is at most one value for a field, and a
record that is decoded is put together from these values alone.

## Main definitions

* `Circulation.Json.fieldOf?` — the value that stands for a field of a record.

## Main results

* `Circulation.Json.Record.exists_build_of_decoder` — what a record that is decoded is put together from.
* `Circulation.Json.Record.build_seq_eq_ok`, `Circulation.Json.Record.build_map_eq_ok`,
  `Circulation.Json.Record.build_defaulted` — how it is put together, field by field.
-/

namespace Circulation.Json

/-- The value that stands for a field of a record: that of its name among members, and that in its
place among items. -/
def fieldOf? (names : List String) (name : String) : Json → Option Json
  | .array items => items[names.idxOf name]?
  | v => v.member? name

theorem member?_cons (key name : String) (v : Json) (ms : List (String × Json)) :
    (Json.object ((key, v) :: ms)).member? name =
      if key = name then some v else (Json.object ms).member? name := by
  by_cases hkey : key = name
  · simp [member?, hkey]
  · simp [member?, hkey]

theorem getElem?_ofItems (items : List Json) (i : Nat) :
    (Node.ofItems items)[i]? = items[i]?.map Node.ofValue := by
  induction items generalizing i with
  | nil => rfl
  | cons item items ih =>
    cases i with
    | zero => rfl
    | succ i => exact ih i

namespace Record

/-- A field without other names has the first member of its name. -/
theorem memberNode?_ofMembers {f : Field} (hsole : f.otherNames = []) (ms : List (String × Json)) :
    memberNode? f (Node.ofMembers ms) = ((Json.object ms).member? f.name).map Node.ofValue := by
  induction ms with
  | nil => rfl
  | cons m ms ih =>
    obtain ⟨key, v⟩ := m
    have hanswers : f.answersTo key = (key == f.name) := by
      rw [Field.answersTo, hsole]
      exact Bool.or_false _
    rw [member?_cons]
    unfold memberNode? at ih ⊢
    rw [Node.ofMembers, List.findSome?_cons, ih]
    simp only [hanswers]
    by_cases hkey : key = f.name
    · simp [hkey]
    · simp [hkey]

/-- What is decoded as a record is put together from the values that stand for its fields. -/
theorem exists_build_of_decoder {α : Type} {r : Record α} (names : List String)
    (hnames : r.fields.map (·.name) = names) (hsole : ∀ f ∈ r.fields, f.otherNames = [])
    {name : String} {v : Json} {a : α} (h : r.decoder name (Node.ofValue v) = .ok a) :
    ∃ p, r.build p = .ok a ∧
      ∀ field ∈ names, p.node? field = (v.fieldOf? names field).map Node.ofValue := by
  subst hnames
  cases v with
  | object ms =>
    rw [Node.ofValue, decoder_object] at h
    obtain ⟨_, -, hbuild⟩ := bind_eq_ok.mp h
    refine ⟨_, hbuild, fun field hfield => ?_⟩
    obtain ⟨f, hf, hname⟩ := List.mem_map.mp hfield
    obtain ⟨g, hg⟩ : ∃ g, r.fields.find? (·.name == field) = some g := by
      rw [← Option.isSome_iff_exists, List.find?_isSome]
      exact ⟨f, hf, beq_iff_eq.mpr hname⟩
    have hgname : g.name = field := by simpa using List.find?_some hg
    show (r.fields.find? (·.name == field)).bind _ = _
    rw [hg, Option.bind_some, memberNode?_ofMembers (hsole g (List.mem_of_find?_eq_some hg)), hgname]
    rfl
  | array items =>
    rw [Node.ofValue, ← toOption_eq_some_iff, toOption_decoder_array] at h
    simp only [Option.bind_eq_some_iff, toOption_eq_some_iff, Option.ite_none_right_eq_some] at h
    obtain ⟨_, -, _, hbuild, -, h⟩ := h
    obtain rfl := Option.some.inj h
    refine ⟨_, hbuild, fun field _ => ?_⟩
    show (Node.ofItems items)[r.fields.findIdx (·.name == field)]? = _
    rw [getElem?_ofItems, fieldOf?, List.idxOf, List.findIdx_map]
    rfl
  | _ => exact absurd h nofun

/-- A record is put together from all of its fields. -/
theorem build_seq_eq_ok {α β : Type} {f : Record (α → β)} {x : Record α} {p : Present} {b : β} :
    (f <*> x).build p = .ok b ↔ ∃ g a, f.build p = .ok g ∧ x.build p = .ok a ∧ g a = b := by
  show (f.build p >>= fun g => x.build p >>= fun a => pure (g a)) = .ok b ↔ _
  simp only [bind_eq_ok, pure_eq_ok]
  constructor
  · rintro ⟨g, hg, a, ha, hb⟩
    exact ⟨g, a, hg, ha, hb⟩
  · rintro ⟨g, a, hg, ha, hb⟩
    exact ⟨g, hg, a, ha, hb⟩

theorem build_map_eq_ok {α β : Type} {f : α → β} {x : Record α} {p : Present} {b : β} :
    (f <$> x).build p = .ok b ↔ ∃ a, x.build p = .ok a ∧ f a = b := by
  show (x.build p >>= fun a => pure (f a)) = .ok b ↔ _
  simp only [bind_eq_ok, pure_eq_ok]

/-- A field with a default that is put into a record. -/
theorem build_defaulted {α : Type} (name : String) (d : Decoder α) (default : α) (p : Present) :
    (defaulted name d default).build p = (p.node? name).elim (.ok default) d := by
  simp only [defaulted, field]
  cases p.node? name <;> rfl

end Record

end Circulation.Json
