import Mathlib.Logic.Relation
import Circulation.Proofs.Json.Sorting
import Circulation.Proofs.Json.Writing
import Circulation.Proofs.Text.Order

/-!
# Values up to the order of their members

The members of an object have no order of their own: two values are the same JSON value when one
becomes the other by reordering members, at any depth. Sorting picks one of these values. It is a
reordering where no object has a key twice, and it does not tell reorderings apart.

## Main definitions

* `Circulation.Json.EveryObject` — a property of the keys of every object of a value.
* `Circulation.Json.HasDistinctKeys` — no object of a value has a key twice.
* `Circulation.Json.HasIncreasingKeys` — the keys of every object increase by their bytes.
* `Circulation.Json.Reordering`, `Circulation.Json.Reorders` — the members of one object, or of any
  number of them, in another order.

## Main results

* `Circulation.Json.hasIncreasingKeys_sorted` — sorted values have increasing keys.
* `Circulation.Json.sorted_of_hasIncreasingKeys` — such values are sorted.
* `Circulation.Json.reorders_iff_sorted_eq` — values are the same if and only if they are sorted
  alike.
-/

namespace Circulation.Json

variable {α β : Type}

/-! ### Sorted members -/

theorem mem_of_mem_insertMember {key : String} {a : α} {ms : List (String × α)} {m : String × α}
    (h : m ∈ insertMember key a ms) : m = (key, a) ∨ m ∈ ms := by
  induction ms with
  | nil => exact .inl (List.mem_singleton.mp h)
  | cons m' ms ih =>
    obtain ⟨k, b⟩ := m'
    unfold insertMember at h
    split_ifs at h
    · exact List.mem_cons.mp h
    · exact (List.mem_cons.mp h).imp_right (List.mem_cons_of_mem _)
    · obtain rfl | h := List.mem_cons.mp h
      · exact .inr List.mem_cons_self
      · exact (ih h).imp_right (List.mem_cons_of_mem _)

theorem pairwise_insertMember (key : String) (a : α) {ms : List (String × α)}
    (h : ms.Pairwise fun m m' => m.1 < m'.1) :
    (insertMember key a ms).Pairwise fun m m' => m.1 < m'.1 := by
  induction ms with
  | nil => exact List.pairwise_singleton _ _
  | cons m ms ih =>
    obtain ⟨k, b⟩ := m
    obtain ⟨hfirst, hrest⟩ := List.pairwise_cons.mp h
    unfold insertMember
    split_ifs with hlt heq
    · refine List.pairwise_cons.mpr ⟨fun m hm => ?_, h⟩
      obtain rfl | hm := List.mem_cons.mp hm
      · exact hlt
      · exact hlt.trans (hfirst m hm)
    · exact List.pairwise_cons.mpr ⟨fun m hm => heq ▸ hfirst m hm, hrest⟩
    · refine List.pairwise_cons.mpr ⟨fun m hm => ?_, ih hrest⟩
      obtain rfl | hm := mem_of_mem_insertMember hm
      · exact lt_of_le_of_ne (le_of_not_gt hlt) (Ne.symm heq)
      · exact hfirst m hm

theorem perm_insertMember {key : String} (a : α) {ms : List (String × α)}
    (h : key ∉ ms.map (·.1)) : (insertMember key a ms).Perm ((key, a) :: ms) := by
  induction ms with
  | nil => rfl
  | cons m ms ih =>
    obtain ⟨k, b⟩ := m
    rw [List.map_cons, List.mem_cons, not_or] at h
    obtain ⟨hne, hrest⟩ := h
    unfold insertMember
    split_ifs with hlt
    · rfl
    · exact ((ih hrest).cons (k, b)).trans (.swap (key, a) (k, b) ms)

theorem pairwise_sortMembers (ms : List (String × α)) :
    (sortMembers ms).Pairwise fun m m' => m.1 < m'.1 := by
  have hfold : ∀ (ms sorted : List (String × α)), sorted.Pairwise (fun m m' => m.1 < m'.1) →
      (ms.foldl (fun sorted m => insertMember m.1 m.2 sorted) sorted).Pairwise
        fun m m' => m.1 < m'.1 := by
    intro ms
    induction ms with
    | nil => exact fun sorted h => h
    | cons m ms ih => exact fun sorted h => ih _ (pairwise_insertMember m.1 m.2 h)
  exact hfold ms [] .nil

/-- Members with distinct keys are sorted by moving them. -/
theorem perm_sortMembers {ms : List (String × α)} (h : (ms.map (·.1)).Nodup) :
    (sortMembers ms).Perm ms := by
  have hfold : ∀ (ms sorted : List (String × α)), ((ms ++ sorted).map (·.1)).Nodup →
      (ms.foldl (fun sorted m => insertMember m.1 m.2 sorted) sorted).Perm (ms ++ sorted) := by
    intro ms
    induction ms with
    | nil => exact fun sorted _ => .refl _
    | cons m ms ih =>
      intro sorted h
      have hmove : (ms ++ m :: sorted).Perm (m :: (ms ++ sorted)) := List.perm_middle
      have hnodup := (hmove.map (·.1)).nodup_iff.mpr h
      rw [List.map_append, List.map_cons, List.nodup_append] at hnodup
      have hinsert := perm_insertMember m.2 (List.nodup_cons.mp hnodup.2.1).1
      refine (ih _ ?_).trans ((hinsert.append_left ms).trans hmove)
      exact (((hinsert.append_left ms).trans hmove).map (·.1)).nodup_iff.mpr h
  have hnil := hfold ms [] (by rwa [List.append_nil])
  rwa [List.append_nil] at hnil

/-- Members in the increasing order of their keys are determined by what they are. -/
theorem eq_of_perm_of_pairwise {ms ms' : List (String × α)} (h : ms.Perm ms')
    (hms : ms.Pairwise fun m m' => m.1 < m'.1) (hms' : ms'.Pairwise fun m m' => m.1 < m'.1) :
    ms = ms' :=
  h.eq_of_pairwise (fun _ _ _ _ hlt hgt => absurd hlt (lt_asymm hgt)) hms hms'

theorem nodup_of_pairwise {ms : List (String × α)} (h : ms.Pairwise fun m m' => m.1 < m'.1) :
    (ms.map (·.1)).Nodup :=
  List.pairwise_map.mpr (h.imp fun hlt => ne_of_lt hlt)

theorem sortMembers_of_pairwise {ms : List (String × α)}
    (h : ms.Pairwise fun m m' => m.1 < m'.1) : sortMembers ms = ms :=
  eq_of_perm_of_pairwise (perm_sortMembers (nodup_of_pairwise h)) (pairwise_sortMembers ms) h

/-- Members with distinct keys are sorted alike in any order. -/
theorem sortMembers_of_perm {ms ms' : List (String × α)} (hnodup : (ms.map (·.1)).Nodup)
    (h : ms.Perm ms') : sortMembers ms = sortMembers ms' := by
  have hnodup' : (ms'.map (·.1)).Nodup := (h.map (·.1)).nodup_iff.mp hnodup
  exact eq_of_perm_of_pairwise
    ((perm_sortMembers hnodup).trans (h.trans (perm_sortMembers hnodup').symm))
    (pairwise_sortMembers ms) (pairwise_sortMembers ms')

/-! ### The keys of every object -/

mutual

/-- A property of the keys, in their order, of every object of a value. -/
def EveryObject (p : List String → Prop) : Json → Prop
  | .array items => EveryObjectOfItems p items
  | .object members => p (members.map (·.1)) ∧ EveryObjectOfMembers p members
  | _ => True

/-- A property of the keys of every object of the items. -/
def EveryObjectOfItems (p : List String → Prop) : List Json → Prop
  | [] => True
  | item :: items => EveryObject p item ∧ EveryObjectOfItems p items

/-- A property of the keys of every object of the values of the members. -/
def EveryObjectOfMembers (p : List String → Prop) : List (String × Json) → Prop
  | [] => True
  | (_, value) :: members => EveryObject p value ∧ EveryObjectOfMembers p members

end

/-- No object of a value has a key twice. -/
def HasDistinctKeys (v : Json) : Prop :=
  v.EveryObject List.Nodup

/-- The keys of every object of a value increase in the order of their bytes. -/
def HasIncreasingKeys (v : Json) : Prop :=
  v.EveryObject (List.Pairwise fun k k' => Text.utf8 k < Text.utf8 k')

variable {p : List String → Prop}

theorem everyObject_array_iff {items : List Json} :
    (array items).EveryObject p ↔ ∀ v ∈ items, v.EveryObject p := by
  rw [EveryObject]
  induction items with
  | nil => simp [EveryObjectOfItems]
  | cons item items ih => rw [EveryObjectOfItems, ih, List.forall_mem_cons]

theorem everyObject_object_iff {members : List (String × Json)} :
    (object members).EveryObject p ↔
      p (members.map (·.1)) ∧ ∀ m ∈ members, m.2.EveryObject p := by
  rw [EveryObject]
  refine and_congr_right' ?_
  induction members with
  | nil => simp [EveryObjectOfMembers]
  | cons m members ih => rw [EveryObjectOfMembers, ih, List.forall_mem_cons]

mutual

/-- A property that follows from another holds of every object of which the other holds. -/
theorem EveryObject.mono {q : List String → Prop} (h : ∀ keys, p keys → q keys) :
    ∀ {v : Json}, v.EveryObject p → v.EveryObject q
  | .null, _ | .bool _, _ | .number _, _ | .string _, _ => trivial
  | .array _, hv => EveryObjectOfItems.mono h hv
  | .object _, hv => ⟨h _ hv.1, EveryObjectOfMembers.mono h hv.2⟩

theorem EveryObjectOfItems.mono {q : List String → Prop} (h : ∀ keys, p keys → q keys) :
    ∀ {items : List Json}, EveryObjectOfItems p items → EveryObjectOfItems q items
  | [], _ => trivial
  | _ :: _, hitems => ⟨hitems.1.mono h, EveryObjectOfItems.mono h hitems.2⟩

theorem EveryObjectOfMembers.mono {q : List String → Prop} (h : ∀ keys, p keys → q keys) :
    ∀ {members : List (String × Json)}, EveryObjectOfMembers p members →
      EveryObjectOfMembers q members
  | [], _ => trivial
  | (_, _) :: _, hmembers => ⟨hmembers.1.mono h, EveryObjectOfMembers.mono h hmembers.2⟩

end

theorem HasIncreasingKeys.hasDistinctKeys {v : Json} (h : v.HasIncreasingKeys) :
    v.HasDistinctKeys :=
  h.mono fun _ hkeys => hkeys.imp fun hlt => ne_of_lt (Text.utf8_lt_utf8_iff.mp hlt)

theorem pairwise_utf8_iff {ms : List (String × α)} :
    ((ms.map (·.1)).Pairwise fun k k' => Text.utf8 k < Text.utf8 k') ↔
      ms.Pairwise fun m m' => m.1 < m'.1 := by
  rw [List.pairwise_map]
  simp only [Text.utf8_lt_utf8_iff]

theorem keys_sortedMembers (ms : List (String × Json)) :
    (sortedMembers ms).map (·.1) = ms.map (·.1) := by
  rw [sortedMembers_eq_map, List.map_map]
  rfl

theorem mem_of_mem_sortMembers {ms : List (String × α)} {m : String × α}
    (h : m ∈ sortMembers ms) : m ∈ ms := by
  have hfold : ∀ (ms sorted : List (String × α)),
      m ∈ ms.foldl (fun sorted m => insertMember m.1 m.2 sorted) sorted → m ∈ ms ∨ m ∈ sorted := by
    intro ms
    induction ms with
    | nil => exact fun sorted h => .inr h
    | cons m' ms ih =>
      intro sorted h
      obtain h | h := ih _ h
      · exact .inl (List.mem_cons_of_mem _ h)
      · obtain rfl | h := mem_of_mem_insertMember h
        · exact .inl List.mem_cons_self
        · exact .inr h
  exact (hfold ms [] h).resolve_right List.not_mem_nil

mutual

/-- **Sorted values** have increasing keys. -/
theorem hasIncreasingKeys_sorted : ∀ v : Json, v.sorted.HasIncreasingKeys
  | .null | .bool _ | .number _ | .string _ => trivial
  | .array items => everyObject_array_iff.mpr (hasIncreasingKeys_sortedItems items)
  | .object members =>
    everyObject_object_iff.mpr ⟨pairwise_utf8_iff.mpr (pairwise_sortMembers _),
      fun m hm => hasIncreasingKeys_sortedMembers members m (mem_of_mem_sortMembers hm)⟩

theorem hasIncreasingKeys_sortedItems :
    ∀ items : List Json, ∀ v ∈ sortedItems items, v.HasIncreasingKeys
  | [] => by simp [sortedItems]
  | item :: items => List.forall_mem_cons.mpr
    ⟨hasIncreasingKeys_sorted item, hasIncreasingKeys_sortedItems items⟩

theorem hasIncreasingKeys_sortedMembers :
    ∀ members : List (String × Json), ∀ m ∈ sortedMembers members, m.2.HasIncreasingKeys
  | [] => by simp [sortedMembers]
  | (_, value) :: members => List.forall_mem_cons.mpr
    ⟨hasIncreasingKeys_sorted value, hasIncreasingKeys_sortedMembers members⟩

end

mutual

/-- A value with increasing keys is sorted. -/
theorem sorted_of_hasIncreasingKeys : ∀ {v : Json}, v.HasIncreasingKeys → v.sorted = v
  | .null, _ | .bool _, _ | .number _, _ | .string _, _ => rfl
  | .array _, h => by rw [sorted, sortedItems_of_hasIncreasingKeys h]
  | .object members, h => by
    have hkeys : (sortedMembers members).Pairwise fun m m' => m.1 < m'.1 :=
      pairwise_utf8_iff.mp ((keys_sortedMembers members).symm ▸ h.1)
    rw [sorted, sortMembers_of_pairwise hkeys, sortedMembers_of_hasIncreasingKeys h.2]

theorem sortedItems_of_hasIncreasingKeys :
    ∀ {items : List Json},
      EveryObjectOfItems (List.Pairwise fun k k' => Text.utf8 k < Text.utf8 k') items →
        sortedItems items = items
  | [], _ => rfl
  | _ :: _, h => by
    rw [sortedItems, sorted_of_hasIncreasingKeys h.1, sortedItems_of_hasIncreasingKeys h.2]

theorem sortedMembers_of_hasIncreasingKeys :
    ∀ {members : List (String × Json)},
      EveryObjectOfMembers (List.Pairwise fun k k' => Text.utf8 k < Text.utf8 k') members →
        sortedMembers members = members
  | [], _ => rfl
  | (_, _) :: _, h => by
    rw [sortedMembers, sorted_of_hasIncreasingKeys h.1, sortedMembers_of_hasIncreasingKeys h.2]

end

theorem sorted_sorted (v : Json) : v.sorted.sorted = v.sorted :=
  sorted_of_hasIncreasingKeys (hasIncreasingKeys_sorted v)

/-! ### Reorderings -/

/-- The members of one object of a value in another order. -/
inductive Reordering : Json → Json → Prop
  | members {ms ms' : List (String × Json)} (h : ms.Perm ms') : Reordering (.object ms) (.object ms')
  | item {before after : List Json} {v w : Json} (h : Reordering v w) :
      Reordering (.array (before ++ v :: after)) (.array (before ++ w :: after))
  | value {before after : List (String × Json)} {key : String} {v w : Json} (h : Reordering v w) :
      Reordering (.object (before ++ (key, v) :: after)) (.object (before ++ (key, w) :: after))

/-- The members of any objects of a value in other orders, at any depth. -/
def Reorders : Json → Json → Prop :=
  Relation.ReflTransGen Reordering

variable {v w : Json}

theorem Reordering.symm (h : Reordering v w) : Reordering w v := by
  induction h with
  | members h => exact .members h.symm
  | item _ ih => exact .item ih
  | value _ ih => exact .value ih

theorem Reorders.symm (h : v.Reorders w) : w.Reorders v := by
  induction h with
  | refl => exact .refl
  | tail _ hstep ih => exact ih.head hstep.symm

/-- What holds alike of the keys in any order holds of a reordered value. -/
theorem Reordering.everyObject (hp : ∀ {keys keys' : List String}, keys.Perm keys' → p keys → p keys')
    (h : Reordering v w) (hv : v.EveryObject p) : w.EveryObject p := by
  induction h with
  | members h =>
    rw [everyObject_object_iff] at hv ⊢
    exact ⟨hp (h.map _) hv.1, fun m hm => hv.2 m (h.mem_iff.mpr hm)⟩
  | item _ ih =>
    simp only [everyObject_array_iff, List.forall_mem_append, List.forall_mem_cons] at hv ⊢
    exact ⟨hv.1, ih hv.2.1, hv.2.2⟩
  | value _ ih =>
    simp only [everyObject_object_iff, List.forall_mem_append, List.forall_mem_cons,
      List.map_append, List.map_cons] at hv ⊢
    exact ⟨hv.1, hv.2.1, ih hv.2.2.1, hv.2.2.2⟩

theorem Reorders.hasDistinctKeys (h : v.Reorders w) (hv : v.HasDistinctKeys) :
    w.HasDistinctKeys := by
  induction h with
  | refl => exact hv
  | tail _ hstep ih => exact hstep.everyObject (fun h => h.nodup_iff.mp) ih

theorem Reordering.hasIntegers (h : Reordering v w) (hv : v.HasIntegers) : w.HasIntegers := by
  induction h with
  | members h =>
    rw [HasIntegers, membersHaveIntegers_iff] at hv ⊢
    exact fun m hm => hv m (h.mem_iff.mpr hm)
  | item _ ih =>
    simp only [HasIntegers, haveIntegers_iff, List.forall_mem_append, List.forall_mem_cons] at hv ⊢
    exact ⟨hv.1, ih hv.2.1, hv.2.2⟩
  | value _ ih =>
    simp only [HasIntegers, membersHaveIntegers_iff, List.forall_mem_append,
      List.forall_mem_cons] at hv ⊢
    exact ⟨hv.1, ih hv.2.1, hv.2.2⟩

theorem Reorders.hasIntegers (h : v.Reorders w) (hv : v.HasIntegers) : w.HasIntegers := by
  induction h with
  | refl => exact hv
  | tail _ hstep ih => exact hstep.hasIntegers ih

/-- Reordered values are sorted alike. -/
theorem Reordering.sorted_eq (h : Reordering v w) (hv : v.HasDistinctKeys) :
    v.sorted = w.sorted := by
  induction h with
  | @members ms ms' h =>
    have hnodup : ((sortedMembers ms).map (·.1)).Nodup := (keys_sortedMembers ms).symm ▸ hv.1
    have hperm : (sortedMembers ms).Perm (sortedMembers ms') := by
      rw [sortedMembers_eq_map, sortedMembers_eq_map]
      exact h.map _
    rw [sorted, sorted, sortMembers_of_perm hnodup hperm]
  | item _ ih =>
    rw [HasDistinctKeys, everyObject_array_iff] at hv
    rw [sorted, sorted, sortedItems_eq_map, sortedItems_eq_map, List.map_append, List.map_append,
      List.map_cons, List.map_cons, ih (hv _ List.mem_append_cons_self)]
  | value _ ih =>
    rw [HasDistinctKeys, everyObject_object_iff] at hv
    rw [sorted, sorted, sortedMembers_eq_map, sortedMembers_eq_map, List.map_append,
      List.map_append, List.map_cons, List.map_cons, ih (hv.2 _ List.mem_append_cons_self)]

theorem Reorders.sorted_eq (h : v.Reorders w) (hv : v.HasDistinctKeys) : v.sorted = w.sorted := by
  induction h with
  | refl => rfl
  | tail h hstep ih => exact ih.trans (hstep.sorted_eq (Reorders.hasDistinctKeys h hv))

/-! ### Sorting reorders -/

/-- Items that are reordered one by one, after others. -/
theorem reorders_array {vs ws : List Json} (h : List.Forall₂ Reorders vs ws) (before : List Json) :
    (array (before ++ vs)).Reorders (array (before ++ ws)) := by
  induction h generalizing before with
  | nil => exact .refl
  | @cons v w vs ws h _ ih =>
    have hfirst : (array (before ++ v :: vs)).Reorders (array (before ++ w :: vs)) :=
      h.lift (fun u => array (before ++ u :: vs)) fun _ _ => .item
    have hrest := ih (before ++ [w])
    rw [List.append_assoc, List.append_assoc] at hrest
    exact hfirst.trans hrest

/-- Members whose values are reordered one by one, after others. -/
theorem reorders_object {ms ns : List (String × Json)}
    (h : List.Forall₂ (fun m n => m.1 = n.1 ∧ m.2.Reorders n.2) ms ns)
    (before : List (String × Json)) :
    (object (before ++ ms)).Reorders (object (before ++ ns)) := by
  induction h generalizing before with
  | nil => exact .refl
  | @cons m n ms ns h _ ih =>
    obtain ⟨key, v⟩ := m
    obtain ⟨key', w⟩ := n
    obtain ⟨rfl, h⟩ : key = key' ∧ v.Reorders w := h
    have hfirst : (object (before ++ (key, v) :: ms)).Reorders (object (before ++ (key, w) :: ms)) :=
      h.lift (fun u => object (before ++ (key, u) :: ms)) fun _ _ => .value
    have hrest := ih (before ++ [(key, w)])
    rw [List.append_assoc, List.append_assoc] at hrest
    exact hfirst.trans hrest

mutual

/-- Sorting a value reorders it. -/
theorem reorders_sorted : ∀ {v : Json}, v.HasDistinctKeys → v.Reorders v.sorted
  | .null, _ | .bool _, _ | .number _, _ | .string _, _ => .refl
  | .array _, h => reorders_array (reorders_sortedItems h) []
  | .object members, h => by
    have hnodup : ((sortedMembers members).map (·.1)).Nodup :=
      (keys_sortedMembers members).symm ▸ h.1
    exact (reorders_object (reorders_sortedMembers h.2) []).tail
      (.members (perm_sortMembers hnodup).symm)

theorem reorders_sortedItems :
    ∀ {items : List Json}, EveryObjectOfItems List.Nodup items →
      List.Forall₂ Reorders items (sortedItems items)
  | [], _ => .nil
  | _ :: _, h => .cons (reorders_sorted h.1) (reorders_sortedItems h.2)

theorem reorders_sortedMembers :
    ∀ {members : List (String × Json)}, EveryObjectOfMembers List.Nodup members →
      List.Forall₂ (fun m n => m.1 = n.1 ∧ m.2.Reorders n.2) members (sortedMembers members)
  | [], _ => .nil
  | (_, _) :: _, h => .cons ⟨rfl, reorders_sorted h.1⟩ (reorders_sortedMembers h.2)

end

/-- **Values are the same** up to the order of their members if and only if they are sorted alike. -/
theorem reorders_iff_sorted_eq (hv : v.HasDistinctKeys) (hw : w.HasDistinctKeys) :
    v.Reorders w ↔ v.sorted = w.sorted := by
  refine ⟨fun h => h.sorted_eq hv, fun h => ?_⟩
  have hsorted := reorders_sorted hv
  rw [h] at hsorted
  exact hsorted.trans (reorders_sorted hw).symm

end Circulation.Json
