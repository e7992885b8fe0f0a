import Circulation.Proofs.Json.Written

/-!
# Looking up sorted values

A sorted object has for each key the value of the last member with the key, itself sorted. Where the
members have a key at most once, sorting changes nothing about the look-up of the key.

## Main definitions

* `Circulation.Json.HasOneOf` — members have at most one of several keys.

## Main results

* `Circulation.Json.Has.member?_sorted` — the value of a key in a sorted object.
* `Circulation.Json.HasOneOf.findSome?_sorted` — the value of the only one of several keys.
-/

namespace Circulation.Json

variable {α β : Type}

theorem find?_insertMember (key key' : String) (a : α) (ms : List (String × α)) :
    (insertMember key a ms).find? (fun m => m.1 == key') =
      if key = key' then some (key, a) else ms.find? fun m => m.1 == key' := by
  induction ms with
  | nil => by_cases hkey : key = key' <;> simp [insertMember, hkey]
  | cons m ms ih =>
    obtain ⟨k, b⟩ := m
    unfold insertMember
    by_cases hlt : key < k
    · rw [if_pos hlt]
      by_cases hkey : key = key' <;> simp [hkey]
    · rw [if_neg hlt]
      by_cases heq : key = k
      · rw [if_pos heq]
        subst heq
        by_cases hkey : key = key' <;> simp [hkey]
      · rw [if_neg heq, List.find?_cons, ih, List.find?_cons]
        by_cases hkey : key = key'
        · have hk : (k == key') = false := beq_false_of_ne fun h => heq (hkey.trans h.symm)
          simp [hk, hkey]
        · simp [hkey]

theorem find?_foldl_insertMember (key : String) (ms sorted : List (String × α)) :
    (ms.foldl (fun sorted m => insertMember m.1 m.2 sorted) sorted).find? (fun m => m.1 == key) =
      ((ms.filter fun m => m.1 == key).getLast?).or (sorted.find? fun m => m.1 == key) := by
  induction ms generalizing sorted with
  | nil => rfl
  | cons m ms ih =>
    obtain ⟨k, a⟩ := m
    rw [List.foldl_cons, ih, find?_insertMember]
    by_cases hkey : k = key
    · subst hkey
      have hkept : ((k, a) :: ms).filter (fun m => m.1 == k) =
          (k, a) :: ms.filter fun m => m.1 == k := List.filter_cons_of_pos (beq_self_eq_true k)
      rw [if_pos rfl, hkept, List.getLast?_cons]
      cases (ms.filter fun m => m.1 == k).getLast? <;> simp
    · rw [if_neg hkey, List.filter_cons_of_neg (by simpa using hkey)]

/-- Of the members with a key the last one counts. -/
theorem find?_sortMembers (ms : List (String × α)) (key : String) :
    (sortMembers ms).find? (fun m => m.1 == key) = (ms.filter fun m => m.1 == key).getLast? :=
  (find?_foldl_insertMember key ms []).trans Option.or_none

theorem sortedMembers_eq_map (ms : List (String × Json)) :
    sortedMembers ms = ms.map fun m => (m.1, m.2.sorted) := by
  induction ms with
  | nil => rfl
  | cons m ms ih => rw [sortedMembers, ih, List.map_cons]

theorem sortedItems_eq_map (vs : List Json) : sortedItems vs = vs.map sorted := by
  induction vs with
  | nil => rfl
  | cons v vs ih => rw [sortedItems, ih, List.map_cons]

/-- A sorted object has for a key the value of the last member with the key, itself sorted. -/
theorem member?_sorted_object (ms : List (String × Json)) (key : String) :
    (Json.object ms).sorted.member? key =
      (ms.filter fun m => m.1 == key).getLast?.map fun m => m.2.sorted := by
  have hkey : (fun m : String × Json => m.1 == key) ∘ (fun m : String × Json => (m.1, m.2.sorted)) =
      fun m => m.1 == key := rfl
  rw [sorted, member?, find?_sortMembers, sortedMembers_eq_map, List.filter_map, hkey,
    List.getLast?_map, Option.map_map]
  rfl

/-- **A sorted object** has for a key what its members have for it. -/
theorem Has.member?_sorted {ms : List (String × Json)} {key : String} {v? : Option Json}
    (h : Has ms key v?) : (Json.object ms).sorted.member? key = v?.map sorted := by
  rw [member?_sorted_object, h]
  cases v? <;> rfl

theorem array?_sorted (vs : List Json) : (Json.array vs).sorted.array? = some (vs.map sorted) := by
  rw [sorted, array?, sortedItems_eq_map]

/-! ### One of several keys -/

/-- Members have this value for one of the keys and do not have the other keys. -/
def HasOneOf (ms : List (String × Json)) (keys : List String) (v? : Option Json) : Prop :=
  ∃ key ∈ keys, Has ms key v? ∧ ∀ key' ∈ keys, key' ≠ key → Has ms key' none

/-- A search of keys of which a single one can have a value. -/
theorem findSome?_of_sole {keys : List String} {f : String → Option β} {key : String} {b? : Option β}
    (hkey : key ∈ keys) (hf : ∀ key' ∈ keys, f key' = if key' = key then b? else none) :
    keys.findSome? f = b? := by
  induction keys with
  | nil => exact absurd hkey List.not_mem_nil
  | cons k keys ih =>
    obtain ⟨hk, hrest⟩ := List.forall_mem_cons.mp hf
    rw [List.findSome?_cons, hk]
    by_cases heq : k = key
    · rw [if_pos heq]
      cases b? with
      | some b => rfl
      | none => exact List.findSome?_eq_none_iff.mpr fun k' hk' => by rw [hrest k' hk', ite_self]
    · rw [if_neg heq]
      exact ih ((List.mem_cons.mp hkey).resolve_left fun h => heq h.symm) hrest

/-- The first of several keys that members have is the only one. -/
theorem HasOneOf.findSome?_sorted {ms : List (String × Json)} {keys : List String} {v? : Option Json}
    (h : HasOneOf ms keys v?) (f : Json → Option β) :
    (keys.findSome? fun key => ((Json.object ms).sorted.member? key).bind f) =
      (v?.map sorted).bind f := by
  obtain ⟨key, hkey, hv, hothers⟩ := h
  refine findSome?_of_sole hkey fun key' hkey' => ?_
  by_cases heq : key' = key
  · rw [if_pos heq, heq, hv.member?_sorted]
  · rw [if_neg heq, (hothers key' hkey' heq).member?_sorted]
    rfl

end Circulation.Json
