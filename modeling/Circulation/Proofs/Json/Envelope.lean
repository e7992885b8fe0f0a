import Circulation.Proofs.Json.Canonical
import Circulation.Proofs.Json.Written

/-!
# Envelopes

A response wraps what it says into objects. Each of them has the fields that matter among any other
fields, and a record that names the former reads them whatever the latter are.

A field that takes any value is read as the value if the containers of the value are not nested too
deeply. The object around the value counts as one of them, so a value that would be read on its own
may be refused within its envelope.

## Main definitions

* `Circulation.Json.HasField` — an object has a field of which something holds, among any others.

## Main results

* `Circulation.Json.HasField.decoder_field`, `Circulation.Json.HasField.decoder_pair` — records of one
  and of two fields read their objects.
* `Circulation.Json.HasField.ofText_value`, `Circulation.Json.HasField.ofText_tooDeep` — when a field
  of any value is read.
-/

namespace Circulation.Json

variable {α β γ : Type}

/-- An object has a field of which `p` holds, among any others. -/
def HasField (key : String) (p : Tree → Prop) (t : Tree) : Prop :=
  ∃ ms u, t = .object ms ∧ (∀ m ∈ ms, m.1.isSome) ∧ Gives ms key (some u) ∧ p u

theorem Decoder.string_of_eq {u : Tree} {s : String} (h : u = .string s) :
    Decoder.string u.node = .ok s :=
  h ▸ rfl

namespace HasField

variable {key key' : String} {p p' : Tree → Prop} {t : Tree} {d : Decoder α} {d' : Decoder β} {a : α}
  {b : β}

/-- A record of one field reads an object that has the field. -/
theorem decoder_field (h : HasField key p t) (hd : ∀ u, p u → d u.node = .ok a)
    (default? : Form → Option α) (name : String) :
    (Record.field key [] d default?).decoder name t.node = .ok a := by
  obtain ⟨ms, u, rfl, hkeys, hgives, hu⟩ := h
  have hreads : (Record.field key [] d default?).Reads ms a :=
    Record.reads_field hgives nofun (by simpa using hd u hu) nofun
  exact hreads.decoder (by simp [Record.field, Field.AreApart, Field.names]) hkeys name

/-- A record of two fields reads an object that has both. -/
theorem decoder_pair (h : HasField key p t) (h' : HasField key' p' t) (hne : key ≠ key')
    (hd : ∀ u, p u → d u.node = .ok a) (hd' : ∀ u, p' u → d' u.node = .ok b) (f : α → β → γ)
    (name : String) :
    (f <$> Record.required key d <*> Record.required key' d').decoder name t.node = .ok (f a b) := by
  obtain ⟨ms, u, rfl, hkeys, hgives, hu⟩ := h
  obtain ⟨_, u', heq, -, hgives', hu'⟩ := h'
  obtain rfl := Tree.object.inj heq
  have hreads := ((Record.reads_required hgives (hd u hu)).map f).seq
    (Record.reads_required hgives' (hd' u' hu'))
  refine hreads.decoder ?_ hkeys name
  show Field.AreApart [_, _]
  simp [Field.AreApart, Field.names, hne]

/-- What an object denotes stands for itself where it may also be absent. -/
theorem optional (h : HasField key p t) (hd : d t.node = .ok a) :
    Decoder.optional d t.node = .ok (some a) := by
  obtain ⟨ms, u, rfl, -⟩ := h
  show (d (Tree.object ms).node).map some = _
  rw [hd]
  rfl

/-- The fields of a value. -/
theorem of_has {ms : List (String × Json)} {v : Json} (h : Has ms key (some v))
    (hv : p (.ofJson v)) : HasField key p (.ofJson (.object ms)) :=
  ⟨_, _, rfl, isSome_of_mem_ofMembers ms, h.gives, hv⟩

end HasField

/-! ### Fields of any value -/

namespace Tree

mutual

/-- A tree that is too deep to be read has no value. -/
theorem toOption_value_within :
    ∀ {t : Tree} {room : Nat}, room < t.depth → (t.within room).node.value.toOption = none
  | .array items, room, h => by
    rw [depth] at h
    rw [within]
    split_ifs with hroom
    · rfl
    · rw [node, Node.value, toOption_map, toOption_itemValues_within (by omega), Option.map_none]
  | .object members, room, h => by
    rw [depth] at h
    rw [within]
    split_ifs with hroom
    · rfl
    · rw [node, Node.value, toOption_map, toOption_memberValues_within (by omega), Option.map_none]
  | .null, _, h | .bool _, _, h | .number _, _, h | .string _, _, h | .hole, _, h =>
    absurd h (Nat.not_lt_zero _)

theorem toOption_itemValues_within :
    ∀ {items : List Tree} {room : Nat}, room < depthItems items →
      (Node.itemValues (nodes (withinItems room items))).toOption = none
  | [], _, h => absurd h (Nat.not_lt_zero _)
  | item :: items, room, h => by
    rw [withinItems, nodes, Node.itemValues, toOption_bind]
    obtain hfirst | hrest := lt_max_iff.mp h
    · rw [toOption_value_within hfirst, Option.bind_none]
    · refine Option.bind_eq_none_iff.mpr fun v _ => ?_
      rw [toOption_bind, toOption_itemValues_within hrest, Option.bind_none]

theorem toOption_memberValues_within :
    ∀ {members : List (Option String × Tree)} {room : Nat}, room < depthMembers members →
      (Node.memberValues (memberNodes (withinMembers room members))).toOption = none
  | [], _, h => absurd h (Nat.not_lt_zero _)
  | (key, value) :: members, room, h => by
    rw [withinMembers, memberNodes, Node.memberValues, toOption_bind]
    refine Option.bind_eq_none_iff.mpr fun _ _ => ?_
    rw [toOption_bind]
    obtain hfirst | hrest := lt_max_iff.mp h
    · rw [toOption_value_within hfirst, Option.bind_none]
    · refine Option.bind_eq_none_iff.mpr fun v _ => ?_
      rw [toOption_bind, toOption_memberValues_within hrest, Option.bind_none]

end

end Tree

theorem Gives.within {ms : List (Option String × Tree)} {key : String} {t? : Option Tree}
    (h : Gives ms key t?) (room : Nat) :
    Gives (Tree.withinMembers room ms) key (t?.map (Tree.within room)) := by
  have hkey : (fun m : Option String × Tree => m.1 == some key) ∘
      (fun m : Option String × Tree => (m.1, m.2.within room)) = fun m => m.1 == some key := rfl
  unfold Gives
  rw [Tree.withinMembers_eq_map, List.filter_map, hkey, h]
  cases t? <;> rfl

namespace Record

variable {key : String} {d : Decoder α} {ms : List (Option String × Tree)} {u : Tree}

theorem areApart_required (key : String) (d : Decoder α) : Field.AreApart (required key d).fields := by
  simp [required, field, Field.AreApart, Field.names]

/-- A record of one field denotes what the field denotes. -/
theorem toOption_decoder_required (hkeys : ∀ m ∈ ms, m.1.isSome) (hgives : Gives ms key (some u))
    (name : String) :
    ((required key d).decoder name (Tree.object ms).node).toOption = (d u.node).toOption := by
  cases hd : d u.node with
  | ok a => rw [(reads_required hgives hd).decoder (areApart_required key d) hkeys name]
  | error why =>
    rw [Tree.node, decoder_object, toOption_bind]
    refine Option.bind_eq_none_iff.mpr fun _ hcheck => ?_
    have hpasses := (passes_iff (areApart_required key d)).mpr
      (Option.isSome_iff_exists.mpr ⟨_, hcheck⟩)
    have hfield := (hpasses.2 _ (List.mem_singleton_self _)).1 _ hgives.mem
      (Field.isOf_iff.mpr ⟨key, List.mem_cons_self, rfl⟩)
    rw [toOption_map, hd] at hfield
    exact absurd hfield (by simp [Except.toOption])

/-- An object with a value for the field is checked, and denotes what the value denotes. -/
theorem toOption_decoder_required_object {members : List Member} {n : Node}
    (h : memberNode? ⟨key, [], fun n => (d n).map fun _ => ()⟩ members = some n) (name : String)
    (span : Span) :
    ((required key d).decoder name (.object span members)).toOption =
      (checkMembers (required key d).fields [] members).toOption.bind fun _ => (d n).toOption := by
  rw [decoder_object, toOption_bind]
  refine congrArg _ (funext fun _ => ?_)
  have hnode : ((required key d).presentAmong span members).node? key = some n := by
    simp [presentAmong, required, field, h]
  simp only [required, field] at hnode ⊢
  rw [hnode]

/-- The text of an object denotes what the field denotes, if the text shows as much of the field. -/
theorem toOption_decoder_required_of_shows {n : Node} {room : Nat} (hn : n.Shows (room + 1) (.object ms))
    (hkeys : ∀ m ∈ ms, m.1.isSome) (hgives : Gives ms key (some u))
    (hd : ∀ n' : Node, n'.Shows room u → (d n').toOption = (d u.node).toOption) (name : String) :
    ((required key d).decoder name n).toOption = (d u.node).toOption := by
  let f : Field := ⟨key, [], fun n => (d n).map fun _ => ()⟩
  have hfilter : ms.filter f.isOf = [(some key, u)] := hgives.filter_isOf (List.forall_mem_nil _) _
  have hfind : ms.find? f.isOf = some (some key, u) := by rw [← List.head?_filter, hfilter]; rfl
  have htree : memberNode? f (Tree.memberNodes ms) = some u.node := by
    rw [memberNode?_memberNodes, hfind]
    rfl
  cases hn.outlines with
  | deepObject start fault ms h => exact absurd h (Nat.succ_ne_zero room)
  | @object span members ms _ h =>
    have hcheck : (checkMembers [f] [] members).toOption =
        (checkMembers [f] [] (Tree.memberNodes ms)).toOption := by
      refine toOption_checkMembers h (fun g hg m hm hisOf n' hn' => ?_) []
      obtain rfl := List.mem_singleton.mp hg
      obtain rfl := List.mem_singleton.mp (hfilter ▸ List.mem_filter.mpr ⟨hm, hisOf⟩)
      exact (toOption_map _ _).trans ((hd n' hn').symm ▸ (toOption_map _ _).symm)
    have hrel := rel_memberNode? h f
    rw [hfind] at hrel
    generalize hnode : memberNode? f members = n? at hrel
    cases hrel with
    | @some n' _ hn' =>
      calc ((required key d).decoder name (.object span members)).toOption
        _ = (checkMembers [f] [] members).toOption.bind fun _ => (d n').toOption :=
          toOption_decoder_required_object hnode name span
        _ = (checkMembers [f] [] (Tree.memberNodes ms)).toOption.bind fun _ => (d u.node).toOption := by
          rw [hcheck, hd n' hn']
        _ = ((required key d).decoder name (Tree.object ms).node).toOption :=
          (toOption_decoder_required_object htree name default).symm
        _ = (d u.node).toOption := toOption_decoder_required hkeys hgives name

end Record

namespace HasField

variable {key text : String} {t u : Tree} {v : Json}

/-- A field of any value within a text denotes the value of what is read of it: its containers lie one
level deeper than on their own. -/
theorem toOption_ofText_value (htext : t.IsText text) (h : HasField key (· = u) t) (name : String) :
    (((Record.required key Decoder.value).decoder name).ofText text).toOption =
      (u.within (depthLimit - 2)).node.value.toOption := by
  obtain ⟨ms, u, rfl, hkeys, hgives, rfl⟩ := h
  obtain ⟨hroot, htrailing⟩ := htext.read
  -- What is read is a tree of its own, which has no depth beyond the limit.
  have hreadable : (Tree.object ms).readable = .object (Tree.withinMembers (depthLimit - 2) ms) := rfl
  have hshows : (read text).root.Shows (depthLimit - 2 + 1) (Tree.object ms).readable :=
    hroot.trans (congrArg Tree.node (Tree.within_of_depth_le (Tree.depth_within_le _ _)).symm)
  have hvalue : ∀ n : Node, n.Shows (depthLimit - 2) (u.within (depthLimit - 2)) →
      (Decoder.value n).toOption = (Decoder.value (u.within (depthLimit - 2)).node).toOption := by
    intro n hn
    have herase : n.erase = (u.within (depthLimit - 2)).node := by
      rwa [Node.Shows, Tree.within_of_depth_le (Tree.depth_within_le _ _)] at hn
    rw [Decoder.value, Decoder.value, toOption_mapError, toOption_mapError, ← herase,
      Node.toOption_value_erase]
  have hkeys' : ∀ m ∈ Tree.withinMembers (depthLimit - 2) ms, m.1.isSome := by
    rw [Tree.withinMembers_eq_map]
    exact List.forall_mem_map.mpr hkeys
  rw [hreadable] at hshows
  have hread := Record.toOption_decoder_required_of_shows hshows hkeys' (hgives.within _) hvalue name
  rw [Decoder.toOption_ofText _ htrailing, hread, Decoder.value, toOption_mapError]

/-- **A field of any value is read** if its containers are not nested too deeply within the object. -/
theorem ofText_value (htext : t.IsText text) (h : HasField key (· = .ofJson v) t)
    (hdepth : (Tree.ofJson v).depth + 1 < depthLimit) (name : String) :
    ((Record.required key Decoder.value).decoder name).ofText text = .ok v.sorted := by
  have hread := toOption_ofText_value htext h name
  rw [Tree.within_of_depth_le (by omega), Tree.node_ofJson, Tree.value_ofValue] at hread
  exact toOption_eq_some_iff.mp hread

/-- A field is refused if its containers are nested too deeply within the object. -/
theorem ofText_tooDeep (htext : t.IsText text) (h : HasField key (· = .ofJson v) t)
    (hdepth : depthLimit ≤ (Tree.ofJson v).depth + 1) (name : String) :
    ∃ why, ((Record.required key Decoder.value).decoder name).ofText text = .error why := by
  have hread := toOption_ofText_value htext h name
  have hlimit : 2 ≤ depthLimit := by decide
  rw [Tree.toOption_value_within (by omega)] at hread
  cases htry : ((Record.required key Decoder.value).decoder name).ofText text with
  | error why => exact ⟨why, rfl⟩
  | ok a =>
    rw [htry] at hread
    cases hread

end HasField

end Circulation.Json
