import Circulation.Proofs.Json.Density
import Circulation.Proofs.Json.Outline
import Circulation.Proofs.Json.Reordering

/-!
# Canonical texts

The canonical text of a value stands for the value alone. It has no layout, it lists the members of
every object in the order of their keys, and it is what becomes of every text of the value, whatever
the layout of the text is and in whatever order it has the members. Two values therefore have the same
canonical text if and only if they are the same JSON value.

What a text says is settled by the text: a text of a tree without holes that is not nested too deeply
is a text of no other tree.

## Main definitions

* `Circulation.Json.IsProper` — values of integers, with distinct keys and of a depth that is read.
* `Circulation.Json.IsNormalForm` — a text that stands for a value alone.

## Main results

* `Circulation.Json.eq_ofJson_of_isText` — what a text of a value says.
* `Circulation.Json.isNormalForm_canonical` — canonical texts are normal forms.
-/

namespace Circulation.Json

/-! ### A text says one thing -/

namespace Tree

mutual

theorem node_inj : ∀ {t u : Tree}, t.node = u.node → t = u
  | .null, u, h => by cases u <;> first | rfl | cases h
  | .bool _, u, h => by cases u <;> first | exact congrArg _ (Node.bool.inj h).2 | cases h
  | .number _, u, h => by cases u <;> first | exact congrArg _ (Node.number.inj h).2 | cases h
  | .string _, u, h => by cases u <;> first | exact congrArg _ (Node.string.inj h).2 | cases h
  | .hole, u, h => by cases u <;> first | rfl | cases h
  | .array _, u, h => by
    cases u <;> first | exact congrArg _ (nodes_inj (Node.array.inj h).2) | cases h
  | .object _, u, h => by
    cases u <;> first | exact congrArg _ (memberNodes_inj (Node.object.inj h).2) | cases h

theorem nodes_inj : ∀ {ts us : List Tree}, nodes ts = nodes us → ts = us
  | [], [], _ => rfl
  | [], _ :: _, h => by cases h
  | _ :: _, [], h => by cases h
  | _ :: _, _ :: _, h => by
    obtain ⟨hfirst, hrest⟩ := List.cons.inj h
    rw [node_inj hfirst, nodes_inj hrest]

theorem memberNodes_inj :
    ∀ {ms ns : List (Option String × Tree)}, memberNodes ms = memberNodes ns → ms = ns
  | [], [], _ => rfl
  | [], _ :: _, h => by cases h
  | _ :: _, [], h => by cases h
  | (_, _) :: _, (_, _) :: _, h => by
    obtain ⟨hfirst, hrest⟩ := List.cons.inj h
    obtain ⟨hkey, -, hvalue⟩ := Member.mk.inj hfirst
    rw [keyOf_inj hkey, node_inj hvalue, memberNodes_inj hrest]

end

mutual

/-- A tree that shows a value down to a depth has no holes there. -/
theorem eq_ofJson_of_within :
    ∀ {v : Json} {t : Tree} {room : Nat}, t.within room = ofJson v → t = ofJson v
  | v, .array ts, room, h => by
    unfold within at h
    split_ifs at h
    · cases v <;> cases h
    · cases v with
      | array items =>
        exact congrArg _ (eq_ofItems_of_within (Tree.array.inj h))
      | _ => cases h
  | v, .object ms, room, h => by
    unfold within at h
    split_ifs at h
    · cases v <;> cases h
    · cases v with
      | object members => exact congrArg _ (eq_ofMembers_of_within (Tree.object.inj h))
      | _ => cases h
  | _, .null, _, h | _, .bool _, _, h | _, .number _, _, h | _, .string _, _, h | _, .hole, _, h => h

theorem eq_ofItems_of_within :
    ∀ {vs : List Json} {ts : List Tree} {room : Nat}, withinItems room ts = ofItems vs →
      ts = ofItems vs
  | [], [], _, _ => rfl
  | [], _ :: _, _, h => by cases h
  | _ :: _, [], _, h => by cases h
  | _ :: _, _ :: _, _, h => by
    obtain ⟨hfirst, hrest⟩ := List.cons.inj h
    rw [ofItems, eq_ofJson_of_within hfirst, eq_ofItems_of_within hrest]

theorem eq_ofMembers_of_within :
    ∀ {vs : List (String × Json)} {ms : List (Option String × Tree)} {room : Nat},
      withinMembers room ms = ofMembers vs → ms = ofMembers vs
  | [], [], _, _ => rfl
  | [], _ :: _, _, h => by cases h
  | _ :: _, [], _, h => by cases h
  | (_, _) :: _, (_, _) :: _, _, h => by
    obtain ⟨hfirst, hrest⟩ := List.cons.inj h
    obtain ⟨hkey, hvalue⟩ := Prod.mk.inj hfirst
    rw [ofMembers, hkey, eq_ofJson_of_within hvalue, eq_ofMembers_of_within hrest]

end

end Tree

/-- **What a text of a value says** is the value, with its members in their order, if its containers
are not nested too deeply. -/
theorem eq_ofJson_of_isText {v : Json} {t : Tree} {s : String}
    (hdepth : (Tree.ofJson v).depth < depthLimit) (hv : (Tree.ofJson v).IsText s) (ht : t.IsText s) :
    t = Tree.ofJson v := by
  have hnodes : t.readable.node = (Tree.ofJson v).readable.node := ht.read.1.symm.trans hv.read.1
  have hreadable : (Tree.ofJson v).readable = Tree.ofJson v := Tree.within_of_depth_le (by omega)
  rw [hreadable] at hnodes
  exact Tree.eq_ofJson_of_within (Tree.node_inj hnodes)

/-! ### Depth -/

theorem Tree.depthItems_append (ts us : List Tree) :
    depthItems (ts ++ us) = max (depthItems ts) (depthItems us) := by
  induction ts with
  | nil => simp [depthItems]
  | cons t ts ih => rw [List.cons_append, depthItems, ih, depthItems, Nat.max_assoc]

theorem Tree.depthMembers_append (ms ns : List (Option String × Tree)) :
    depthMembers (ms ++ ns) = max (depthMembers ms) (depthMembers ns) := by
  induction ms with
  | nil => simp [depthMembers]
  | cons m ms ih =>
    obtain ⟨key, t⟩ := m
    rw [List.cons_append, depthMembers, ih, depthMembers, Nat.max_assoc]

theorem Tree.depthMembers_of_perm {ms ns : List (Option String × Tree)} (h : ms.Perm ns) :
    depthMembers ms = depthMembers ns := by
  induction h with
  | nil => rfl
  | cons m _ ih => rw [depthMembers, depthMembers, ih]
  | swap m n ms => simp only [depthMembers, Nat.max_left_comm]
  | trans _ _ ih ih' => exact ih.trans ih'

/-- Reordered values are nested as deeply. -/
theorem Reordering.depth_eq {v w : Json} (h : Reordering v w) :
    (Tree.ofJson v).depth = (Tree.ofJson w).depth := by
  induction h with
  | members h =>
    rw [Tree.ofJson, Tree.ofJson, Tree.depth, Tree.depth, Tree.ofMembers_eq_map,
      Tree.ofMembers_eq_map, Tree.depthMembers_of_perm (h.map _)]
  | item _ ih =>
    simp only [Tree.ofJson, Tree.depth, Tree.ofItems_eq_map, List.map_append, List.map_cons,
      Tree.depthItems_append, Tree.depthItems, ih]
  | value _ ih =>
    simp only [Tree.ofJson, Tree.depth, Tree.ofMembers_eq_map, List.map_append, List.map_cons,
      Tree.depthMembers_append, Tree.depthMembers, ih]

theorem Reorders.depth_eq {v w : Json} (h : v.Reorders w) :
    (Tree.ofJson v).depth = (Tree.ofJson w).depth := by
  induction h with
  | refl => rfl
  | tail _ hstep ih => exact ih.trans hstep.depth_eq

/-! ### Normal forms -/

/-- All numbers of a value are integers of 64 bits, no object of it has a key twice, and its
containers are not nested too deeply to be read. -/
structure IsProper (v : Json) : Prop where
  hasIntegers : v.HasIntegers
  hasDistinctKeys : v.HasDistinctKeys
  depth_lt : (Tree.ofJson v).depth < depthLimit

theorem Reorders.isProper {v w : Json} (h : v.Reorders w) (hv : v.IsProper) : w.IsProper :=
  ⟨h.hasIntegers hv.hasIntegers, h.hasDistinctKeys hv.hasDistinctKeys, h.depth_eq ▸ hv.depth_lt⟩

theorem IsProper.sorted {v : Json} (hv : v.IsProper) : v.sorted.IsProper :=
  (reorders_sorted hv.hasDistinctKeys).isProper hv

/-- A text that stands for a value alone. -/
structure IsNormalForm (v : Json) (s : String) : Prop where
  /-- No blank stands outside of strings. -/
  isDense : ∀ c ∈ outside s, Text.isBlank c = false
  /-- The text says the sorted value and nothing else. -/
  isText_iff : ∀ t : Tree, t.IsText s ↔ t = Tree.ofJson v.sorted
  /-- The keys of every object that the text says increase in the order of their bytes. -/
  hasIncreasingKeys : v.sorted.HasIncreasingKeys
  /-- The text is read as the sorted value. -/
  parse_eq : parse s = .ok v.sorted
  /-- The sorted value is the same JSON value. -/
  reorders_sorted : v.Reorders v.sorted
  /-- Every text of the value, with its members in any order, has this canonical text. -/
  canonical_parse : ∀ (w : Json) (text : String), v.Reorders w → (Tree.ofJson w).IsText text →
    (parse text).map canonical = .ok s
  /-- The canonical text of what the text is read as is the text. -/
  canonical_parse_self : (parse s).map canonical = .ok s
  /-- A value has this canonical text if and only if it is the same JSON value. -/
  canonical_eq_iff : ∀ w : Json, w.IsProper → (canonical w = s ↔ v.Reorders w)

theorem canonical_sorted (v : Json) : canonical v.sorted = canonical v := by
  rw [canonical, canonical, sorted_sorted]

theorem isText_canonical {v : Json} (hv : v.IsProper) :
    (Tree.ofJson v.sorted).IsText (canonical v) :=
  isText_compact hv.sorted.hasIntegers

theorem parse_canonical {v : Json} (hv : v.IsProper) : parse (canonical v) = .ok v.sorted := by
  rw [parse_of_isText hv.sorted.depth_lt (isText_canonical hv), sorted_sorted]

/-- Every text of a value, with its members in any order, has the same canonical text. -/
theorem canonical_parse_of_isText {v w : Json} {text : String} (hv : v.IsProper)
    (hw : v.Reorders w) (htext : (Tree.ofJson w).IsText text) :
    (parse text).map canonical = .ok (canonical v) := by
  have hcanonical : canonical w.sorted = canonical v := by
    rw [← hw.sorted_eq hv.hasDistinctKeys, canonical_sorted]
  rw [parse_of_isText (hw.isProper hv).depth_lt htext]
  exact congrArg _ hcanonical

/-- Values have the same canonical text if and only if they are the same JSON value. -/
theorem canonical_eq_canonical_iff {v w : Json} (hv : v.IsProper) (hw : w.IsProper) :
    canonical w = canonical v ↔ v.Reorders w := by
  rw [reorders_iff_sorted_eq hv.hasDistinctKeys hw.hasDistinctKeys]
  refine ⟨fun h => ?_, fun h => ?_⟩
  · have hparse := parse_canonical hw
    rw [h, parse_canonical hv] at hparse
    exact Except.ok.inj hparse
  · rw [canonical, canonical, h]

/-- **The canonical text** of a value is a normal form of it. -/
theorem isNormalForm_canonical {v : Json} (hv : v.IsProper) : v.IsNormalForm (canonical v) where
  isDense := isBlank_of_mem_outside_compact hv.sorted.hasIntegers
  isText_iff t := by
    refine ⟨fun ht => ?_, fun ht => ht ▸ isText_canonical hv⟩
    exact eq_ofJson_of_isText hv.sorted.depth_lt (isText_canonical hv) ht
  hasIncreasingKeys := hasIncreasingKeys_sorted v
  parse_eq := parse_canonical hv
  reorders_sorted := Json.reorders_sorted hv.hasDistinctKeys
  canonical_parse _ _ hw htext := canonical_parse_of_isText hv hw htext
  canonical_parse_self :=
    canonical_parse_of_isText hv (Json.reorders_sorted hv.hasDistinctKeys) (isText_canonical hv)
  canonical_eq_iff _ hw := canonical_eq_canonical_iff hv hw

/-- A value of several depths whose keys are out of order. -/
def nested : Json :=
  .object [("b", .array [.number (.int 1), .object [("z", .null), ("é", .string "x y"),
    ("a", .bool true)]]), ("a", .number (.int (-2)))]

theorem isProper_nested : nested.IsProper where
  hasIntegers := by
    simp [nested, HasIntegers, HaveIntegers, MembersHaveIntegers, Number.IsInteger,
      Number.wordLimit]
  hasDistinctKeys := by
    simp [nested, HasDistinctKeys, EveryObject, EveryObjectOfItems, EveryObjectOfMembers]
  depth_lt := by decide

theorem isNormalForm_canonical_nested :
    nested.IsNormalForm
      "\x7b\"a\":-2,\"b\":[1,\x7b\"a\":true,\"z\":null,\"é\":\"x y\"\x7d]\x7d" := by
  have htext : canonical nested =
      "\x7b\"a\":-2,\"b\":[1,\x7b\"a\":true,\"z\":null,\"é\":\"x y\"\x7d]\x7d" := by
    decide +kernel
  exact htext ▸ isNormalForm_canonical isProper_nested

end Circulation.Json
