import Circulation.Proofs.Json.Outline
import Circulation.Proofs.Json.Sorting

/-!
# Values of trees that agree

Two trees agree if they have the same keys in the same order, and under each key the same value or
values that are related in some way. What is read of them as values agrees as well: either both have no
value, or the values have for every key values that are related.

## Main definitions

* `Circulation.Json.Tree.value?` — the value of a tree down to a depth.
* `Circulation.Json.AgreesWithin`, `Circulation.Json.ItemsAgree` — objects and arrays whose parts are
  related.

## Main results

* `Circulation.Json.toOption_parse` — the value of a text is that of its tree.
* `Circulation.Json.AgreesWithin.rel_value?`, `Circulation.Json.ItemsAgree.rel_value?` — the values of
  trees that agree.
-/

namespace Circulation.Json

/-! ### Options and lists -/

section Options

variable {α β γ δ : Type} {P : α → β → Prop}

theorem rel_refl {Q : α → α → Prop} (h : ∀ a, Q a a) (a? : Option α) : Option.Rel Q a? a? := by
  cases a? with
  | none => exact .none
  | some a => exact .some (h a)

theorem rel_imp {Q : α → β → Prop} {a? : Option α} {b? : Option β} (h : Option.Rel P a? b?)
    (hPQ : ∀ a b, P a b → Q a b) : Option.Rel Q a? b? := by
  cases h with
  | none => exact .none
  | some hab => exact .some (hPQ _ _ hab)

theorem rel_map {Q : γ → δ → Prop} {f : α → γ} {g : β → δ} {a? : Option α} {b? : Option β}
    (h : Option.Rel P a? b?) (hfg : ∀ a b, P a b → Q (f a) (g b)) :
    Option.Rel Q (a?.map f) (b?.map g) := by
  cases h with
  | none => exact .none
  | some hab => exact .some (hfg _ _ hab)

theorem map_eq_of_rel {f : α → γ} {g : β → γ} {a? : Option α} {b? : Option β}
    (h : Option.Rel P a? b?) (hfg : ∀ a b, P a b → f a = g b) : a?.map f = b?.map g := by
  cases h with
  | none => rfl
  | some hab => exact congrArg some (hfg _ _ hab)

theorem bind_eq_of_rel {f : α → Option γ} {g : β → Option γ} {a? : Option α} {b? : Option β}
    (h : Option.Rel P a? b?) (hfg : ∀ a b, P a b → f a = g b) : a?.bind f = b?.bind g := by
  cases h with
  | none => rfl
  | some hab => exact hfg _ _ hab

/-- Steps that end alike in both lists, one by one, end alike together. -/
theorem rel_mapM {f : γ → Option α} {g : δ → Option β} {cs : List γ} {ds : List δ}
    (h : List.Forall₂ (fun c d => Option.Rel P (f c) (g d)) cs ds) :
    Option.Rel (List.Forall₂ P) (cs.mapM f) (ds.mapM g) := by
  induction h with
  | nil => exact .some .nil
  | @cons c d cs ds hcd _ ih =>
    rw [List.mapM_cons, List.mapM_cons]
    generalize f c = a? at hcd
    generalize g d = b? at hcd
    generalize cs.mapM f = as? at ih
    generalize ds.mapM g = bs? at ih
    cases hcd with
    | none => exact .none
    | some hab =>
      cases ih with
      | none => exact .none
      | some hrest => exact .some (.cons hab hrest)

/-- A search that finds what is related at every place. -/
theorem rel_findSome? {f : γ → Option α} {g : γ → Option β} {cs : List γ}
    (h : ∀ c ∈ cs, Option.Rel P (f c) (g c)) :
    Option.Rel P (cs.findSome? f) (cs.findSome? g) := by
  induction cs with
  | nil => exact .none
  | cons c cs ih =>
    obtain ⟨hc, hcs⟩ := List.forall_mem_cons.mp h
    rw [List.findSome?_cons, List.findSome?_cons]
    generalize f c = a? at hc
    generalize g c = b? at hc
    cases hc with
    | none => exact ih hcs
    | some hab => exact .some hab

end Options

/-! ### Values down to a depth -/

namespace Tree

/-- The value of a tree, unless it has containers beyond a depth or parts that denote no value. -/
def value? (room : Nat) (t : Tree) : Option Json :=
  (t.within room).node.value.toOption

/-- The key of a member and its value. -/
def memberValue? (room : Nat) (m : Option String × Tree) : Option (String × Json) :=
  m.1.bind fun key => (m.2.value? room).map (key, ·)

theorem value?_ofJson {v : Json} {room : Nat} (h : (ofJson v).depth ≤ room) :
    (ofJson v).value? room = some v.sorted := by
  rw [value?, within_of_depth_le h, node_ofJson, value_ofValue]
  rfl

theorem toOption_itemValues (room : Nat) (ts : List Tree) :
    (Node.itemValues (nodes (withinItems room ts))).toOption = ts.mapM (value? room) := by
  induction ts with
  | nil => rfl
  | cons t ts ih =>
    rw [withinItems, nodes, Node.itemValues, toOption_bind, List.mapM_cons, ← ih]
    refine congrArg _ (funext fun v => ?_)
    rw [toOption_bind]
    rfl

theorem toOption_memberValues (room : Nat) (ms : List (Option String × Tree)) :
    (Node.memberValues (memberNodes (withinMembers room ms))).toOption =
      ms.mapM (memberValue? room) := by
  induction ms with
  | nil => rfl
  | cons m ms ih =>
    obtain ⟨key, t⟩ := m
    rw [withinMembers, memberNodes, Node.memberValues, toOption_bind, List.mapM_cons, ← ih]
    cases key with
    | none => rfl
    | some key =>
      show ((Node.value (within room t).node >>= _ : Except Fault _).toOption) = _
      rw [toOption_bind, memberValue?, Option.bind_some]
      show _ = ((value? room t).map (key, ·)).bind _
      rw [Option.bind_map]
      refine congrArg _ (funext fun v => ?_)
      rw [toOption_bind]
      rfl

/-- Items are read one level deeper than their array. -/
theorem value?_array (room : Nat) (ts : List Tree) :
    (array ts).value? (room + 1) = (ts.mapM (value? room)).map .array := by
  rw [value?, within, if_neg (Nat.succ_ne_zero room), node, Node.value, toOption_map,
    Nat.add_sub_cancel, toOption_itemValues]

/-- Members are read one level deeper than their object. -/
theorem value?_object (room : Nat) (ms : List (Option String × Tree)) :
    (object ms).value? (room + 1) =
      (ms.mapM (memberValue? room)).map fun ms => .object (sortMembers ms) := by
  rw [value?, within, if_neg (Nat.succ_ne_zero room), node, Node.value, toOption_map,
    Nat.add_sub_cancel, toOption_memberValues]

end Tree

/-- **The value of a text** is that of its tree. -/
theorem toOption_parse {t : Tree} {s : String} (h : t.IsText s) :
    (parse s).toOption = t.value? (depthLimit - 1) := by
  obtain ⟨hroot, htrailing⟩ := h.read
  rw [parse, Decoder.toOption_ofText _ htrailing, Decoder.value, toOption_mapError,
    ← Node.toOption_value_erase, hroot, Tree.readable, Tree.value?]

/-! ### Agreement -/

/-- A member is the same in both objects, or has a value that is related as its key says. -/
inductive MemberAgrees (R : String → Tree → Tree → Prop) :
    Option String × Tree → Option String × Tree → Prop
  | same (m : Option String × Tree) : MemberAgrees R m m
  | value {key : String} {t t' : Tree} (h : R key t t') : MemberAgrees R (some key, t) (some key, t')

/-- Trees that are the same, or objects with the same keys in the same order whose values are the same
or related as their key says. -/
inductive AgreesWithin (R : String → Tree → Tree → Prop) : Tree → Tree → Prop
  | same (t : Tree) : AgreesWithin R t t
  | object {ms ms' : List (Option String × Tree)} (h : List.Forall₂ (MemberAgrees R) ms ms') :
      AgreesWithin R (.object ms) (.object ms')

/-- Arrays whose items are related one by one. -/
inductive ItemsAgree (R : Tree → Tree → Prop) : Tree → Tree → Prop
  | array {ts ts' : List Tree} (h : List.Forall₂ R ts ts') : ItemsAgree R (.array ts) (.array ts')

/-- Values that are arrays of related items. -/
inductive ArraysAgree (P : Json → Json → Prop) : Json → Json → Prop
  | array {vs ws : List Json} (h : List.Forall₂ P vs ws) : ArraysAgree P (.array vs) (.array ws)

theorem ItemsAgree.rel_value? {R : Tree → Tree → Prop} {P : Json → Json → Prop} {room : Nat}
    {t t' : Tree} (h : ItemsAgree R t t')
    (hR : ∀ t t', R t t' → Option.Rel P (t.value? room) (t'.value? room)) :
    Option.Rel (ArraysAgree P) (t.value? (room + 1)) (t'.value? (room + 1)) := by
  obtain ⟨hitems⟩ := h
  rw [Tree.value?_array, Tree.value?_array]
  exact rel_map (rel_mapM (hitems.imp hR)) fun _ _ => .array

section Members

variable {P : String → Json → Json → Prop} {ms ms' : List (String × Json)}

/-- Of related members with the same keys, those with one key are related, and so is the last of
them. -/
theorem rel_getLast?_filter
    (h : List.Forall₂ (fun m m' => m.1 = m'.1 ∧ P m.1 m.2 m'.2) ms ms') (key : String) :
    Option.Rel (fun m m' => P key m.2 m'.2) (ms.filter fun m => m.1 == key).getLast?
      (ms'.filter fun m => m.1 == key).getLast? := by
  induction h with
  | nil => exact .none
  | @cons m m' ms ms' hm _ ih =>
    obtain ⟨k, v⟩ := m
    obtain ⟨k', v'⟩ := m'
    obtain ⟨rfl, hv⟩ : k = k' ∧ P k v v' := hm
    by_cases hkey : (k == key) = true
    · obtain rfl := beq_iff_eq.mp hkey
      rw [List.filter_cons_of_pos (by exact hkey), List.filter_cons_of_pos (by exact hkey),
        List.getLast?_cons, List.getLast?_cons]
      generalize (ms.filter fun m => m.1 == k).getLast? = m? at ih
      generalize (ms'.filter fun m => m.1 == k).getLast? = m'? at ih
      cases ih with
      | none => exact .some hv
      | some hlast => exact .some hlast
    · rwa [List.filter_cons_of_neg (by exact hkey), List.filter_cons_of_neg (by exact hkey)]

theorem rel_member? (h : List.Forall₂ (fun m m' => m.1 = m'.1 ∧ P m.1 m.2 m'.2) ms ms')
    (key : String) :
    Option.Rel (P key) ((Json.object (sortMembers ms)).member? key)
      ((Json.object (sortMembers ms')).member? key) := by
  rw [member?, member?, find?_sortMembers, find?_sortMembers]
  exact rel_map (rel_getLast?_filter h key) fun _ _ hm => hm

end Members

/-- **The values of trees that agree** have for every key values that are related, if those are that are
read of related trees. -/
theorem AgreesWithin.rel_value? {R : String → Tree → Tree → Prop} {P : String → Json → Json → Prop}
    {room : Nat} {t t' : Tree} (h : AgreesWithin R t t') (hrefl : ∀ key v, P key v v)
    (hR : ∀ key t t', R key t t' → Option.Rel (P key) (t.value? room) (t'.value? room)) :
    Option.Rel (fun v w => ∀ key, Option.Rel (P key) (v.member? key) (w.member? key))
      (t.value? (room + 1)) (t'.value? (room + 1)) := by
  cases h with
  | same t => exact rel_refl (fun v key => rel_refl (hrefl key) _) _
  | object hmembers =>
    have hmember : ∀ m m', MemberAgrees R m m' →
        Option.Rel (fun m m' : String × Json => m.1 = m'.1 ∧ P m.1 m.2 m'.2)
          (Tree.memberValue? room m) (Tree.memberValue? room m') := by
      rintro m m' hm
      cases hm with
      | same => exact rel_refl (fun m => ⟨rfl, hrefl m.1 m.2⟩) _
      | value hvalue => exact rel_map (hR _ _ _ hvalue) fun _ _ hv => ⟨rfl, hv⟩
    rw [Tree.value?_object, Tree.value?_object]
    exact rel_map (rel_mapM (hmembers.imp hmember)) fun _ _ => rel_member?

end Circulation.Json
