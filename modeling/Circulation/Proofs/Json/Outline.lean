import Circulation.Proofs.Json.Acceptance
import Circulation.Proofs.Json.Members

/-!
# What decoders see of a text

A decoder takes notice of what a text says and not of where it says it: the places matter only for the
problems that it reports. It also looks only so deep, and containers that are nested too deeply to be
read lie far below. What a text of a tree denotes is therefore what the tree denotes.

The decoder of any value does look at all of the text. A text whose containers are not nested too
deeply denotes the value of its tree.

Most decoders go through all of the text, if only by passing over parts of it. A text that denotes
something for them is a text of some tree.

## Main definitions

* `Circulation.Json.Node.Shows` — the tree of a text shows what the text says.
* `Circulation.Json.Decoder.Sees`, `Circulation.Json.Record.Sees` — what is decoded depends on what
  the text says down to a depth.

## Main results

* `Circulation.Json.Record.Sees.decoder` — a record looks one level deeper than its fields.
* `Circulation.Json.Decoder.Sees.ofText` — what a text denotes is what its tree denotes.
* `Circulation.Json.Decoder.Covers.exists_isText` — what denotes something is a text of some tree.
* `Circulation.Json.parse_of_isText` — the value of the text of a value.
-/

namespace Circulation.Json

variable {α β : Type}

/-- The tree of a text shows a tree, with holes for containers beyond a depth. -/
def Node.Shows (n : Node) (room : Nat) (t : Tree) : Prop :=
  n.erase = (t.within room).node

/-- A member shows a key, if it is a text, and a tree. -/
def Member.Shows (room : Nat) : Member → Option String × Tree → Prop
  | .mk key _ value, (key', t) => key.toOption = key' ∧ value.Shows room t

theorem keyOf_inj {k k' : Option String} (h : keyOf k = keyOf k') : k = k' := by
  cases k <;> cases k' <;> simp_all [keyOf]

/-- What the tree of a text is that shows a tree. -/
inductive Outlines (room : Nat) : Node → Tree → Prop
  | null (span : Span) : Outlines room (.null span) .null
  | bool (span : Span) (b : Bool) : Outlines room (.bool span b) (.bool b)
  | number (span : Span) (n : Number) : Outlines room (.number span n) (.number n)
  | string (span : Span) (s : String) : Outlines room (.string span s) (.string s)
  | hole (start : Nat) (fault : Fault) : Outlines room (.unreadable start fault) .hole
  | deepArray (start : Nat) (fault : Fault) (ts : List Tree) (h : room = 0) :
      Outlines room (.unreadable start fault) (.array ts)
  | deepObject (start : Nat) (fault : Fault) (ms : List (Option String × Tree)) (h : room = 0) :
      Outlines room (.unreadable start fault) (.object ms)
  | array {span : Span} {items : List Node} {ts : List Tree} (hroom : 0 < room)
      (h : List.Forall₂ (·.Shows (room - 1) ·) items ts) : Outlines room (.array span items) (.array ts)
  | object {span : Span} {members : List Member} {ms : List (Option String × Tree)} (hroom : 0 < room)
      (h : List.Forall₂ (Member.Shows (room - 1)) members ms) :
      Outlines room (.object span members) (.object ms)

theorem forall₂_shows {room : Nat} {items : List Node} {ts : List Tree}
    (h : Node.eraseItems items = Tree.nodes (Tree.withinItems room ts)) :
    List.Forall₂ (·.Shows room ·) items ts := by
  rw [Node.eraseItems_eq_map, Tree.nodes_eq_map, Tree.withinItems_eq_map, List.map_map] at h
  exact List.forall₂_map_left_iff.mp (List.forall₂_map_right_iff.mp (h ▸ List.forall₂_refl _))

theorem forall₂_memberShows {room : Nat} {members : List Member} {ms : List (Option String × Tree)}
    (h : Node.eraseMembers members = Tree.memberNodes (Tree.withinMembers room ms)) :
    List.Forall₂ (Member.Shows room) members ms := by
  induction members generalizing ms with
  | nil =>
    cases ms with
    | nil => exact .nil
    | cons m ms => exact absurd h (by simp [Node.eraseMembers, Tree.withinMembers, Tree.memberNodes])
  | cons member members ih =>
    obtain ⟨key, keyStop, value⟩ := member
    cases ms with
    | nil => exact absurd h (by simp [Node.eraseMembers, Tree.withinMembers, Tree.memberNodes])
    | cons m ms =>
      simp only [Node.eraseMembers, Tree.withinMembers, Tree.memberNodes, List.cons.injEq,
        Member.mk.injEq] at h
      obtain ⟨⟨hkey, -, hvalue⟩, hrest⟩ := h
      exact .cons ⟨keyOf_inj hkey, hvalue⟩ (ih hrest)

theorem Node.Shows.outlines {n : Node} {room : Nat} {t : Tree} (h : n.Shows room t) :
    Outlines room n t := by
  unfold Node.Shows at h
  cases t with
  | null =>
    cases n <;> simp [Node.erase, Tree.within, Tree.node] at h
    exact .null _
  | bool b =>
    cases n <;> simp [Node.erase, Tree.within, Tree.node] at h
    subst h
    exact .bool _ _
  | number x =>
    cases n <;> simp [Node.erase, Tree.within, Tree.node] at h
    subst h
    exact .number _ _
  | string s =>
    cases n <;> simp [Node.erase, Tree.within, Tree.node] at h
    subst h
    exact .string _ _
  | hole =>
    cases n <;> simp [Node.erase, Tree.within, Tree.node] at h
    exact .hole _ _
  | array ts =>
    rw [Tree.within] at h
    split at h
    · next hroom =>
      cases n <;> simp [Node.erase, Tree.node] at h
      exact .deepArray _ _ _ hroom
    · next hroom =>
      cases n <;> simp [Node.erase, Tree.node] at h
      exact .array (Nat.pos_of_ne_zero hroom) (forall₂_shows h)
  | object ms =>
    rw [Tree.within] at h
    split at h
    · next hroom =>
      cases n <;> simp [Node.erase, Tree.node] at h
      exact .deepObject _ _ _ hroom
    · next hroom =>
      cases n <;> simp [Node.erase, Tree.node] at h
      exact .object (Nat.pos_of_ne_zero hroom) (forall₂_memberShows h)

/-! ### Decoders -/

namespace Decoder

/-- What is decoded depends on what the text says down to a depth, and on nothing else. -/
def Sees (d : Decoder α) (depth : Nat) : Prop :=
  ∀ ⦃room : Nat⦄ ⦃n : Node⦄ ⦃t : Tree⦄, depth ≤ room → n.Shows room t →
    (d n).toOption = (d t.node).toOption

theorem Sees.mono {d : Decoder α} {depth depth' : Nat} (hd : d.Sees depth) (h : depth ≤ depth') :
    d.Sees depth' :=
  fun _ _ _ hroom hn => hd (Nat.le_trans h hroom) hn

@[simp]
theorem toOption_wrongType (want : String) (n : Node) :
    (wrongType want n : Except Problem α).toOption = none := by
  cases n <;> rfl

theorem sees_stringAs (want : String) : (stringAs want).Sees 0 := by
  intro room n t _ hn
  cases hn.outlines with
  | string span s => rfl
  | _ => exact (toOption_wrongType _ _).trans (toOption_wrongType _ _).symm

theorem sees_string : string.Sees 0 :=
  sees_stringAs _

theorem sees_bool : bool.Sees 0 := by
  intro room n t _ hn
  cases hn.outlines with
  | bool span b => rfl
  | _ => exact (toOption_wrongType _ _).trans (toOption_wrongType _ _).symm

theorem sees_integer (want : String) (low high : Int) : (integer want low high).Sees 0 := by
  intro room n t _ hn
  cases hn.outlines with
  | number span x =>
    cases x with
    | int x =>
      simp only [integer, Tree.node]
      split <;> rfl
    | double x => exact (toOption_wrongType _ _).trans (toOption_wrongType _ _).symm
  | _ => exact (toOption_wrongType _ _).trans (toOption_wrongType _ _).symm

theorem sees_nat32 : nat32.Sees 0 := by
  intro room n t hroom hn
  unfold nat32
  rw [toOption_map, toOption_map, sees_integer _ _ _ hroom hn]

theorem Sees.optional {d : Decoder α} {depth : Nat} (hd : d.Sees depth) :
    (Decoder.optional d).Sees depth := by
  intro room n t hroom hn
  have hsome : ((d n).map some).toOption = ((d t.node).map some).toOption := by
    rw [toOption_map, toOption_map, hd hroom hn]
  cases hn.outlines with
  | null span => rfl
  | _ => exact hsome

theorem Sees.list {d : Decoder α} {depth : Nat} (hd : d.Sees depth) :
    (Decoder.list d).Sees (depth + 1) := by
  intro room n t hroom hn
  cases hn.outlines with
  | @array span items ts _ h =>
    have hitems : List.Forall₂ (fun n n' => (d n).toOption = (d n').toOption) items (ts.map Tree.node) :=
      List.forall₂_map_right_iff.mpr (h.imp fun n t hn => hd (by omega) hn)
    rw [Tree.node, Tree.nodes_eq_map]
    exact toOption_mapM_congr hitems
  | deepArray start fault ts h => exact absurd hroom (by omega)
  | _ => exact (toOption_wrongType _ _).trans (toOption_wrongType _ _).symm

theorem toOption_refine (d : Decoder α) (f : α → Except String β) (n : Node) :
    (d.refine f n).toOption = (d n).toOption.bind fun a => (f a).toOption := by
  unfold refine
  rw [toOption_bind]
  refine congrArg _ (funext fun a => ?_)
  cases f a with
  | ok b => rfl
  | error why => cases n <;> rfl

theorem Sees.refine {d : Decoder α} {depth : Nat} (hd : d.Sees depth) (f : α → Except String β) :
    (d.refine f).Sees depth := by
  intro room n t hroom hn
  rw [toOption_refine, toOption_refine, hd hroom hn]

/-- What a text without anything after its value denotes is what its root denotes. -/
theorem toOption_ofText (d : Decoder α) {s : String} (h : (read s).trailing = none) :
    (d.ofText s).toOption = (d (read s).root).toOption := by
  unfold Decoder.ofText
  dsimp only
  rw [h]
  cases d (read s).root <;> rfl

/-- **What a text of a tree denotes** is what the tree denotes. -/
theorem Sees.ofText {d : Decoder α} {depth : Nat} (hd : d.Sees depth) (hdepth : depth < depthLimit)
    {t : Tree} {s : String} (h : t.IsText s) : (d.ofText s).toOption = (d t.node).toOption := by
  obtain ⟨hroot, htrailing⟩ := h.read
  have hshows : (read s).root.Shows (depthLimit - 1) t := hroot
  rw [toOption_ofText d htrailing, hd (by omega) hshows]

end Decoder

/-! ### Records -/

/-- Two parts of a record, the one of which shows the other. -/
def PartShows (room : Nat) (n? n'? : Option Node) : Prop :=
  Option.Rel (fun n n' => ∃ t : Tree, n.Shows room t ∧ n' = t.node) n? n'?

namespace Record

/-- The record that is put together depends on what the text says down to a depth, and on nothing
else. -/
structure Sees (r : Record α) (depth : Nat) : Prop where
  check : ∀ f ∈ r.fields, Decoder.Sees f.check depth
  build : ∀ {room : Nat} {p p' : Present}, depth ≤ room → p.form = p'.form →
    (∀ name, PartShows room (p.node? name) (p'.node? name)) →
      (r.build p).toOption = (r.build p').toOption

theorem sees_field {name : String} {otherNames : List String} {d : Decoder α} {depth : Nat}
    (hd : d.Sees depth) (default? : Form → Option α) :
    (field name otherNames d default?).Sees depth where
  check f hf := by
    obtain rfl := List.mem_singleton.mp hf
    intro room n t hroom hn
    rw [toOption_map, toOption_map, hd hroom hn]
  build {room p p'} hroom hform hparts := by
    have hpart := hparts name
    unfold field
    dsimp only
    rw [← hform]
    generalize p.node? name = n?, p'.node? name = n'? at hpart
    cases hpart with
    | some h =>
      obtain ⟨t, hn, rfl⟩ := h
      exact hd hroom hn
    | none => cases default? p.form <;> rfl

theorem sees_pure (a : α) (depth : Nat) : (pure a : Record α).Sees depth where
  check _ hf := absurd hf List.not_mem_nil
  build _ _ _ := rfl

theorem Sees.seq {f : Record (α → β)} {x : Record α} {depth : Nat} (hf : f.Sees depth)
    (hx : x.Sees depth) : (f <*> x).Sees depth where
  check g hg := by
    rcases List.mem_append.mp hg with hg | hg
    · exact hf.check g hg
    · exact hx.check g hg
  build {room p p'} hroom hform hparts := by
    show ((f.build p >>= fun g => x.build p >>= fun a => pure (g a)) : Except Problem β).toOption =
      ((f.build p' >>= fun g => x.build p' >>= fun a => pure (g a)) : Except Problem β).toOption
    simp only [toOption_bind, hf.build hroom hform hparts, hx.build hroom hform hparts]

theorem Sees.map {x : Record α} {depth : Nat} (hx : x.Sees depth) (f : α → β) :
    (f <$> x).Sees depth :=
  (sees_pure f depth).seq hx

section Parts

variable {room : Nat}

/-- The check of members depends on what the values of the fields show, and on no other value. -/
theorem toOption_checkMembers {fields : List Field} {members : List Member}
    {ms : List (Option String × Tree)} (h : List.Forall₂ (Member.Shows room) members ms)
    (hfields : ∀ f ∈ fields, ∀ m ∈ ms, f.isOf m = true → ∀ n : Node, n.Shows room m.2 →
      (f.check n).toOption = (f.check m.2.node).toOption) (seen : List String) :
    (checkMembers fields seen members).toOption =
      (checkMembers fields seen (Tree.memberNodes ms)).toOption := by
  induction h generalizing seen with
  | nil => rfl
  | @cons m p members ms hm _ ih =>
    obtain ⟨key, keyStop, value⟩ := m
    obtain ⟨key', t⟩ := p
    obtain ⟨hkey, hvalue⟩ := hm
    have hkey' : (keyOf key').toOption = key' := by cases key' <;> rfl
    replace ih := ih fun f hf m hm => hfields f hf m (List.mem_cons_of_mem _ hm)
    rw [Tree.memberNodes, toOption_checkMembers_cons, toOption_checkMembers_cons, hkey, hkey']
    cases key' with
    | none => rfl
    | some key' =>
      rw [Option.bind_some, Option.bind_some]
      cases hfind : fields.find? (·.answersTo key') with
      | none =>
        dsimp only
        rw [Node.passFault?_of_erase hvalue, Tree.passFault?_node, ih]
      | some f =>
        have hisOf : f.isOf (some key', t) = true :=
          List.find?_some (p := fun f : Field => f.answersTo key') hfind
        dsimp only
        rw [hfields f (List.mem_of_find?_eq_some hfind) _ List.mem_cons_self hisOf value hvalue, ih]

/-- The value of a field shows the value of the field. -/
theorem rel_memberNode? {members : List Member} {ms : List (Option String × Tree)}
    (h : List.Forall₂ (Member.Shows room) members ms) (f : Field) :
    Option.Rel (fun n m => n.Shows room m.2) (memberNode? f members) (ms.find? f.isOf) := by
  induction h with
  | nil => exact .none
  | @cons m p members ms hm _ ih =>
    obtain ⟨key, keyStop, value⟩ := m
    obtain ⟨key', t⟩ := p
    obtain ⟨hkey, hvalue⟩ := hm
    unfold memberNode? at ih ⊢
    rw [List.findSome?_cons, List.find?_cons]
    cases key with
    | error fault =>
      obtain rfl : key' = none := hkey.symm
      exact ih
    | ok key =>
      obtain rfl : key' = some key := hkey.symm
      by_cases hf : f.answersTo key = true
      · simpa [Field.isOf, hf] using hvalue
      · simpa [Field.isOf, hf] using ih

theorem partShows_memberNode? {members : List Member} {ms : List (Option String × Tree)}
    (h : List.Forall₂ (Member.Shows room) members ms) (f : Field) :
    PartShows room (memberNode? f members) (memberNode? f (Tree.memberNodes ms)) := by
  have hrel := rel_memberNode? h f
  rw [memberNode?_memberNodes]
  generalize memberNode? f members = n?, ms.find? f.isOf = m? at hrel
  cases hrel with
  | some hn => exact .some ⟨_, hn, rfl⟩
  | none => exact .none

theorem toOption_checkItems {fields : List Field} {depth : Nat}
    (hfields : ∀ f ∈ fields, Decoder.Sees f.check depth) (hroom : depth ≤ room) {items : List Node}
    {ts : List Tree} (h : List.Forall₂ (·.Shows room ·) items ts) :
    (checkItems fields items).toOption = (checkItems fields (ts.map Tree.node)).toOption := by
  induction h generalizing fields with
  | nil => cases fields <;> rfl
  | cons hitem _ ih =>
    cases fields with
    | nil => rfl
    | cons f fields =>
      obtain ⟨hf, hfields⟩ := List.forall_mem_cons.mp hfields
      rw [List.map_cons, toOption_checkItems_cons, toOption_checkItems_cons, hf hroom hitem,
        ih hfields]

theorem partShows_getElem? {items : List Node} {ts : List Tree}
    (h : List.Forall₂ (·.Shows room ·) items ts) (i : Nat) :
    PartShows room items[i]? (ts.map Tree.node)[i]? := by
  induction h generalizing i with
  | nil => exact .none
  | cons hitem _ ih =>
    cases i with
    | zero => exact .some ⟨_, hitem, rfl⟩
    | succ i => exact ih i

end Parts

/-- **A record looks one level deeper** than its fields. -/
theorem Sees.decoder {r : Record α} {depth : Nat} (hr : r.Sees depth) (name : String) :
    (r.decoder name).Sees (depth + 1) := by
  intro room n t hroom hn
  cases hn.outlines with
  | @object span members ms _ h =>
    have hfields : depth ≤ room - 1 := by omega
    rw [Tree.node, decoder_object, decoder_object, toOption_bind, toOption_bind,
      toOption_checkMembers h fun f hf _ _ _ _ hn => hr.check f hf hfields hn]
    refine congrArg _ (funext fun _ => hr.build hfields rfl fun name => ?_)
    simp only [presentAmong]
    cases r.fields.find? (·.name == name) with
    | none => exact .none
    | some f => exact partShows_memberNode? h f
  | @array span items ts _ h =>
    have hfields : depth ≤ room - 1 := by omega
    have hlength : items.length = (ts.map Tree.node).length := by
      rw [List.length_map, h.length_eq]
    rw [Tree.node, Tree.nodes_eq_map, toOption_decoder_array, toOption_decoder_array,
      toOption_checkItems hr.check hfields h, hlength]
    have hbuild : (r.build (r.presentAt name span items)).toOption =
        (r.build (r.presentAt name default (ts.map Tree.node))).toOption :=
      hr.build hfields rfl fun _ => partShows_getElem? h _
    rw [hbuild]
  | deepArray start fault ts h => exact absurd hroom (by omega)
  | deepObject start fault ms h => exact absurd hroom (by omega)
  | _ => exact (Decoder.toOption_wrongType _ _).trans (Decoder.toOption_wrongType _ _).symm

end Record

/-! ### Going through all of a text -/

namespace Decoder

/-- What is decoded is without faults, also where it is passed over. -/
def Covers (d : Decoder α) : Prop :=
  ∀ n, (d n).toOption.isSome → n.passFault? = none

theorem not_isSome_wrongType {want : String} {n : Node} {p : Prop}
    (h : (wrongType want n : Except Problem α).toOption.isSome) : p :=
  absurd h (by simp)

theorem covers_stringAs (want : String) : (stringAs want).Covers := by
  intro n h
  cases n with
  | string span s => rfl
  | _ => exact not_isSome_wrongType h

theorem covers_string : string.Covers :=
  covers_stringAs _

theorem covers_bool : bool.Covers := by
  intro n h
  cases n with
  | bool span b => rfl
  | _ => exact not_isSome_wrongType h

theorem covers_integer (want : String) (low high : Int) : (integer want low high).Covers := by
  intro n h
  cases n with
  | number span x => rfl
  | _ => exact not_isSome_wrongType h

theorem covers_nat32 : nat32.Covers := by
  intro n h
  refine covers_integer "u32" 0 4294967295 n ?_
  unfold nat32 at h
  rwa [toOption_map, Option.isSome_map] at h

theorem Covers.optional {d : Decoder α} (hd : d.Covers) : (Decoder.optional d).Covers := by
  intro n h
  have hsome : ((d n).map some).toOption.isSome → n.passFault? = none := by
    intro h
    rw [toOption_map, Option.isSome_map] at h
    exact hd n h
  cases n with
  | null span => rfl
  | _ => exact hsome h

theorem Covers.refine {d : Decoder α} (hd : d.Covers) (f : α → Except String β) :
    (d.refine f).Covers := by
  intro n h
  rw [toOption_refine] at h
  refine hd n ?_
  obtain ⟨b, hb⟩ := Option.isSome_iff_exists.mp h
  obtain ⟨a, ha, -⟩ := Option.bind_eq_some_iff.mp hb
  exact Option.isSome_iff_exists.mpr ⟨a, ha⟩

theorem Covers.list {d : Decoder α} (hd : d.Covers) : (Decoder.list d).Covers := by
  intro n h
  cases n with
  | array span items =>
    obtain ⟨as, has⟩ := Option.isSome_iff_exists.mp h
    have hitems := exists_mapM_eq_ok_iff.mp ⟨as, toOption_eq_some_iff.mp has⟩
    refine Node.itemsPassFault?_eq_none_iff.mpr fun item hitem => hd item ?_
    obtain ⟨a, ha⟩ := hitems item hitem
    rw [ha]
    rfl
  | _ => exact not_isSome_wrongType h

/-- **What denotes something** is a text of some tree. -/
theorem Covers.exists_isText {d : Decoder α} (hd : d.Covers) {s : String} {a : α}
    (h : d.ofText s = .ok a) : ∃ t : Tree, t.IsText s := by
  refine exists_isText_of_isClean ?_
  unfold Decoder.ofText at h
  dsimp only at h
  cases hroot : d (read s).root with
  | error problem =>
    rw [hroot] at h
    exact nomatch h
  | ok a' =>
    have hpass : (read s).root.passFault? = none := hd _ (by rw [hroot]; rfl)
    rw [hroot] at h
    cases htrailing : (read s).trailing with
    | some fault =>
      rw [htrailing] at h
      exact nomatch h
    | none => exact ⟨htrailing, hpass⟩

end Decoder

namespace Record

/-- The checks of all fields go through all of their values. -/
def Covers (r : Record α) : Prop :=
  ∀ f ∈ r.fields, Decoder.Covers f.check

theorem covers_field {name : String} {otherNames : List String} {d : Decoder α} (hd : d.Covers)
    (default? : Form → Option α) : (field name otherNames d default?).Covers := by
  intro f hf n h
  obtain rfl := List.mem_singleton.mp hf
  rw [toOption_map, Option.isSome_map] at h
  exact hd n h

theorem covers_pure (a : α) : (pure a : Record α).Covers :=
  fun _ hf => absurd hf List.not_mem_nil

theorem Covers.seq {f : Record (α → β)} {x : Record α} (hf : f.Covers) (hx : x.Covers) :
    (f <*> x).Covers :=
  List.forall_mem_append.mpr ⟨hf, hx⟩

theorem Covers.map {x : Record α} (hx : x.Covers) (f : α → β) : (f <$> x).Covers :=
  (covers_pure f).seq hx

theorem membersPassFault?_of_checkMembers {fields : List Field}
    (hfields : ∀ f ∈ fields, Decoder.Covers f.check) {members : List Member} {seen : List String}
    (h : (checkMembers fields seen members).toOption.isSome) :
    Node.membersPassFault? members = none := by
  induction members generalizing seen with
  | nil => rfl
  | cons m members ih =>
    obtain ⟨key, keyStop, value⟩ := m
    rw [toOption_checkMembers_cons] at h
    cases key with
    | error fault => exact absurd h (by simp [Except.toOption])
    | ok key =>
      have hkey : (Except.ok key : Except Fault String).toOption = some key := rfl
      rw [hkey, Option.bind_some] at h
      rw [Node.membersPassFault?, Option.or_eq_none_iff]
      cases hfind : fields.find? (·.answersTo key) with
      | none =>
        rw [hfind] at h
        dsimp only at h
        by_cases hvalue : value.passFault? = none
        · exact ⟨hvalue, ih (by rwa [if_pos hvalue] at h)⟩
        · exact absurd h (by simp [if_neg hvalue])
      | some f =>
        rw [hfind] at h
        dsimp only at h
        by_cases hseen : f.name ∈ seen
        · exact absurd h (by simp [if_pos hseen])
        · rw [if_neg hseen, isSome_bind_const] at h
          exact ⟨hfields f (List.mem_of_find?_eq_some hfind) value h.1, ih h.2⟩

/-- **A record goes through all of its text** if its fields do. -/
theorem Covers.decoder {r : Record α} (hr : r.Covers) (name : String) : (r.decoder name).Covers := by
  intro n h
  cases n with
  | object span members =>
    rw [decoder_object, toOption_bind] at h
    obtain ⟨a, ha⟩ := Option.isSome_iff_exists.mp h
    obtain ⟨⟨⟩, hcheck, -⟩ := Option.bind_eq_some_iff.mp ha
    exact membersPassFault?_of_checkMembers hr (Option.isSome_iff_exists.mpr ⟨_, hcheck⟩)
  | array span items =>
    rw [toOption_decoder_array] at h
    obtain ⟨a, ha⟩ := Option.isSome_iff_exists.mp h
    obtain ⟨⟨⟩, hcheck, hbuild⟩ := Option.bind_eq_some_iff.mp ha
    obtain ⟨a', -, hlength⟩ := Option.bind_eq_some_iff.mp hbuild
    have hlength : items.length ≤ r.fields.length := by
      by_contra hlong
      rw [if_neg hlong] at hlength
      exact nomatch hlength
    have hchecks := isSome_checkItems_iff.mp (Option.isSome_iff_exists.mpr ⟨_, hcheck⟩)
    refine Node.itemsPassFault?_eq_none_iff.mpr fun item hitem => ?_
    obtain ⟨i, hi, rfl⟩ := List.mem_iff_getElem.mp hitem
    have hfield : i < r.fields.length := by omega
    exact hr _ (List.getElem_mem hfield) _ (hchecks i _ _ (List.getElem?_eq_getElem hfield)
      (List.getElem?_eq_getElem hi))
  | _ => exact Decoder.not_isSome_wrongType h

end Record

/-! ### Any value -/

namespace Node

mutual

/-- The value of a node does not depend on the places. -/
theorem toOption_value_erase : ∀ n : Node, n.erase.value.toOption = n.value.toOption
  | .null _ | .bool _ _ | .number _ _ | .string _ _ | .unreadable _ _ | .broken _ _ _ => rfl
  | .array _ items => by
    rw [erase, value, value, toOption_map, toOption_map, toOption_itemValues_erase items]
  | .object _ members => by
    rw [erase, value, value, toOption_map, toOption_map, toOption_memberValues_erase members]

theorem toOption_itemValues_erase :
    ∀ items : List Node, (itemValues (eraseItems items)).toOption = (itemValues items).toOption
  | [] => rfl
  | item :: items => by
    simp only [eraseItems, itemValues, toOption_bind, toOption_value_erase item,
      toOption_itemValues_erase items]

theorem toOption_memberValues_erase :
    ∀ members : List Member,
      (memberValues (eraseMembers members)).toOption = (memberValues members).toOption
  | [] => rfl
  | .mk key _ value :: members => by
    have hkey : (keyOf key.toOption).toOption = key.toOption := by cases key <;> rfl
    simp only [eraseMembers, memberValues, toOption_bind, hkey, toOption_value_erase value,
      toOption_memberValues_erase members]

end

end Node

/-- **The text of a value** whose containers are not nested too deeply denotes the value, with the
members of its objects in the order of their keys. -/
theorem parse_of_isText {v : Json} {s : String} (hdepth : (Tree.ofJson v).depth < depthLimit)
    (h : (Tree.ofJson v).IsText s) : parse s = .ok v.sorted := by
  obtain ⟨hroot, htrailing⟩ := h.read
  have hroot : (read s).root.erase = Node.ofValue v := by
    rw [hroot, Tree.readable, Tree.within_of_depth_le (by omega), Tree.node_ofJson]
  have hvalue : (read s).root.value = .ok v.sorted := by
    rw [← toOption_eq_some_iff, ← Node.toOption_value_erase, hroot, Tree.value_ofValue]
    rfl
  unfold parse Decoder.ofText Decoder.value
  dsimp only
  rw [hvalue, htrailing]
  rfl

end Circulation.Json
