import Circulation.Json.Reader

/-!
# What a JSON text says

A tree is what a JSON text says, apart from its layout and from the places of its parts. Where a
part is well-formed but denotes no value, a number that is too large or a string with half a surrogate
pair, the tree has a hole, and the key of a member may be unknown for the same reason.

Every value is a tree, with the members of its objects as they stand. Containers that are nested too
deeply to be read become holes of the tree that is read.

## Main definitions

* `Circulation.Json.Tree` — the trees.
* `Circulation.Json.Tree.node` — a tree as a tree of a text, all of whose places are the same.
* `Circulation.Json.Tree.within` — a tree whose containers are holes beyond a depth.
* `Circulation.Json.Tree.ofJson` — a value as a tree.
* `Circulation.Json.Node.erase` — the tree of a text without the places.
-/

namespace Circulation.Json

/-- What a text says, apart from its layout. -/
inductive Tree where
  | null
  | bool (b : Bool)
  | number (n : Number)
  | string (s : String)
  /-- A part that denotes no value. -/
  | hole
  | array (items : List Tree)
  | object (members : List (Option String × Tree))

/-- A key that may be unknown as the key of a member. -/
def keyOf : Option String → Except Fault String
  | some key => .ok key
  | none => .error default

/-! ### Trees without places -/

namespace Tree

mutual

/-- A tree as the tree of a text, with all places at the beginning. -/
def node : Tree → Node
  | .null => .null default
  | .bool b => .bool default b
  | .number n => .number default n
  | .string s => .string default s
  | .hole => .unreadable 0 default
  | .array items => .array default (nodes items)
  | .object members => .object default (memberNodes members)

/-- Items as trees of a text. -/
def nodes : List Tree → List Node
  | [] => []
  | item :: items => node item :: nodes items

/-- Keys and trees as members. -/
def memberNodes : List (Option String × Tree) → List Member
  | [] => []
  | (key, value) :: members => .mk (keyOf key) 0 (node value) :: memberNodes members

end

theorem nodes_eq_map (items : List Tree) : nodes items = items.map node := by
  induction items with
  | nil => rfl
  | cons item items ih => rw [nodes, ih, List.map_cons]

mutual

/-- There is nothing in a tree that may not be passed over. -/
@[simp]
theorem passFault?_node : ∀ t : Tree, t.node.passFault? = none
  | .null | .bool _ | .number _ | .string _ | .hole => rfl
  | .array items => itemsPassFault?_nodes items
  | .object members => membersPassFault?_memberNodes members

theorem itemsPassFault?_nodes : ∀ items : List Tree, Node.itemsPassFault? (nodes items) = none
  | [] => rfl
  | item :: items => by
    rw [nodes, Node.itemsPassFault?, passFault?_node item, itemsPassFault?_nodes items]
    rfl

theorem membersPassFault?_memberNodes :
    ∀ members : List (Option String × Tree),
      Node.membersPassFault? (memberNodes members) = none
  | [] => rfl
  | (key, value) :: members => by
    rw [memberNodes, Node.membersPassFault?, passFault?_node value,
      membersPassFault?_memberNodes members]
    rfl

end

end Tree

namespace Node

mutual

/-- The tree of a text with all places at the beginning and without the reasons for its faults. -/
def erase : Node → Node
  | .null _ => .null default
  | .bool _ b => .bool default b
  | .number _ n => .number default n
  | .string _ s => .string default s
  | .array _ items => .array default (eraseItems items)
  | .object _ members => .object default (eraseMembers members)
  | .unreadable _ _ => .unreadable 0 default
  | .broken _ _ _ => .broken 0 default default

/-- Items without places. -/
def eraseItems : List Node → List Node
  | [] => []
  | item :: items => erase item :: eraseItems items

/-- Members without places. -/
def eraseMembers : List Member → List Member
  | [] => []
  | .mk key _ value :: members => .mk (keyOf key.toOption) 0 (erase value) :: eraseMembers members

end

theorem eraseItems_eq_map (items : List Node) : eraseItems items = items.map erase := by
  induction items with
  | nil => rfl
  | cons item items ih => rw [eraseItems, ih, List.map_cons]

end Node

/-- A member without places. -/
def Member.erase : Member → Member
  | .mk key _ value => .mk (keyOf key.toOption) 0 value.erase

namespace Node

theorem eraseMembers_eq_map (members : List Member) :
    eraseMembers members = members.map Member.erase := by
  induction members with
  | nil => rfl
  | cons m members ih =>
    obtain ⟨key, keyStop, value⟩ := m
    rw [eraseMembers, ih, List.map_cons, Member.erase]

mutual

/-- Whether a node may be passed over does not depend on the places. -/
@[simp]
theorem passFault?_erase : ∀ n : Node, n.erase.passFault?.isSome = n.passFault?.isSome
  | .null _ | .bool _ _ | .number _ _ | .string _ _ | .unreadable _ _ | .broken _ _ _ => rfl
  | .array _ items => itemsPassFault?_erase items
  | .object _ members => membersPassFault?_erase members

theorem itemsPassFault?_erase :
    ∀ items : List Node, (itemsPassFault? (eraseItems items)).isSome = (itemsPassFault? items).isSome
  | [] => rfl
  | item :: items => by
    rw [eraseItems, itemsPassFault?, itemsPassFault?, Option.isSome_or, Option.isSome_or,
      passFault?_erase item, itemsPassFault?_erase items]

theorem membersPassFault?_erase :
    ∀ members : List Member,
      (membersPassFault? (eraseMembers members)).isSome = (membersPassFault? members).isSome
  | [] => rfl
  | .mk key _ value :: members => by
    rw [eraseMembers, membersPassFault?, membersPassFault?, Option.isSome_or, Option.isSome_or,
      passFault?_erase value, membersPassFault?_erase members]

end

/-- What shows a tree may be passed over. -/
theorem passFault?_of_erase {n : Node} {t : Tree} (h : n.erase = t.node) : n.passFault? = none := by
  have hsome := n.passFault?_erase
  rw [h, Tree.passFault?_node] at hsome
  exact Option.not_isSome_iff_eq_none.mp (by simp [← hsome])

end Node

/-! ### Depth -/

namespace Tree

mutual

/-- A tree whose containers are holes beyond a depth. -/
def within (room : Nat) : Tree → Tree
  | .array items => if room = 0 then .hole else .array (withinItems (room - 1) items)
  | .object members => if room = 0 then .hole else .object (withinMembers (room - 1) members)
  | t => t

/-- Items whose containers are holes beyond a depth. -/
def withinItems (room : Nat) : List Tree → List Tree
  | [] => []
  | item :: items => within room item :: withinItems room items

/-- Members whose containers are holes beyond a depth. -/
def withinMembers (room : Nat) : List (Option String × Tree) → List (Option String × Tree)
  | [] => []
  | (key, value) :: members => (key, within room value) :: withinMembers room members

end

theorem withinItems_eq_map (room : Nat) (items : List Tree) :
    withinItems room items = items.map (within room) := by
  induction items with
  | nil => rfl
  | cons item items ih => rw [withinItems, ih, List.map_cons]

theorem withinMembers_eq_map (room : Nat) (members : List (Option String × Tree)) :
    withinMembers room members = members.map fun m => (m.1, m.2.within room) := by
  induction members with
  | nil => rfl
  | cons m members ih => rw [withinMembers, ih, List.map_cons]

mutual

/-- The number of containers around the innermost part of a tree. -/
def depth : Tree → Nat
  | .array items => depthItems items + 1
  | .object members => depthMembers members + 1
  | _ => 0

/-- The depth of the deepest of the items. -/
def depthItems : List Tree → Nat
  | [] => 0
  | item :: items => max (depth item) (depthItems items)

/-- The depth of the deepest of the members. -/
def depthMembers : List (Option String × Tree) → Nat
  | [] => 0
  | (_, value) :: members => max (depth value) (depthMembers members)

end

mutual

/-- A tree of a smaller depth has no holes beyond it. -/
theorem within_of_depth_le : ∀ {t : Tree} {room : Nat}, t.depth ≤ room → t.within room = t
  | .null, _, _ | .bool _, _, _ | .number _, _, _ | .string _, _, _ | .hole, _, _ => rfl
  | .array items, room, h => by
    rw [depth] at h
    rw [within, if_neg (by omega), withinItems_of_depth_le (by omega)]
  | .object members, room, h => by
    rw [depth] at h
    rw [within, if_neg (by omega), withinMembers_of_depth_le (by omega)]

theorem withinItems_of_depth_le :
    ∀ {items : List Tree} {room : Nat}, depthItems items ≤ room → withinItems room items = items
  | [], _, _ => rfl
  | item :: items, room, h => by
    rw [depthItems, Nat.max_le] at h
    rw [withinItems, within_of_depth_le h.1, withinItems_of_depth_le h.2]

theorem withinMembers_of_depth_le :
    ∀ {members : List (Option String × Tree)} {room : Nat}, depthMembers members ≤ room →
      withinMembers room members = members
  | [], _, _ => rfl
  | (key, value) :: members, room, h => by
    rw [depthMembers, Nat.max_le] at h
    rw [withinMembers, within_of_depth_le h.1, withinMembers_of_depth_le h.2]

end

mutual

/-- A tree has no depth beyond the holes. -/
theorem depth_within_le : ∀ (t : Tree) (room : Nat), (t.within room).depth ≤ room
  | .null, _ | .bool _, _ | .number _, _ | .string _, _ | .hole, _ => Nat.zero_le _
  | .array items, room => by
    rw [within]
    split
    · exact Nat.zero_le _
    · have hitems := depthItems_withinItems_le items (room - 1)
      rw [depth]
      omega
  | .object members, room => by
    rw [within]
    split
    · exact Nat.zero_le _
    · have hmembers := depthMembers_withinMembers_le members (room - 1)
      rw [depth]
      omega

theorem depthItems_withinItems_le :
    ∀ (items : List Tree) (room : Nat), depthItems (withinItems room items) ≤ room
  | [], _ => Nat.zero_le _
  | item :: items, room =>
    Nat.max_le.mpr ⟨depth_within_le item room, depthItems_withinItems_le items room⟩

theorem depthMembers_withinMembers_le :
    ∀ (members : List (Option String × Tree)) (room : Nat),
      depthMembers (withinMembers room members) ≤ room
  | [], _ => Nat.zero_le _
  | (_, value) :: members, room =>
    Nat.max_le.mpr ⟨depth_within_le value room, depthMembers_withinMembers_le members room⟩

end

/-! ### Values -/

mutual

/-- A value as a tree, with the members of its objects as they stand. -/
def ofJson : Json → Tree
  | .null => .null
  | .bool b => .bool b
  | .number n => .number n
  | .string s => .string s
  | .array items => .array (ofItems items)
  | .object members => .object (ofMembers members)

/-- Values as trees. -/
def ofItems : List Json → List Tree
  | [] => []
  | item :: items => ofJson item :: ofItems items

/-- Keys and values as members of a tree. -/
def ofMembers : List (String × Json) → List (Option String × Tree)
  | [] => []
  | (key, value) :: members => (some key, ofJson value) :: ofMembers members

end

theorem ofItems_eq_map (items : List Json) : ofItems items = items.map ofJson := by
  induction items with
  | nil => rfl
  | cons item items ih => rw [ofItems, ih, List.map_cons]

theorem ofMembers_eq_map (members : List (String × Json)) :
    ofMembers members = members.map fun m => (some m.1, ofJson m.2) := by
  induction members with
  | nil => rfl
  | cons m members ih => rw [ofMembers, ih, List.map_cons]

mutual

/-- The tree of a value has the nodes of the value. -/
theorem node_ofJson : ∀ v : Json, (ofJson v).node = Node.ofValue v
  | .null | .bool _ | .number _ | .string _ => rfl
  | .array items => by rw [ofJson, node, nodes_ofItems items, Node.ofValue]
  | .object members => by rw [ofJson, node, memberNodes_ofMembers members, Node.ofValue]

theorem nodes_ofItems : ∀ items : List Json, nodes (ofItems items) = Node.ofItems items
  | [] => rfl
  | item :: items => by rw [ofItems, nodes, node_ofJson item, nodes_ofItems items, Node.ofItems]

theorem memberNodes_ofMembers :
    ∀ members : List (String × Json), memberNodes (ofMembers members) = Node.ofMembers members
  | [] => rfl
  | (key, value) :: members => by
    rw [ofMembers, memberNodes, node_ofJson value, memberNodes_ofMembers members, Node.ofMembers,
      keyOf]

end

mutual

/-- The value of the tree of a value is the value with sorted members. -/
theorem value_ofValue : ∀ v : Json, (Node.ofValue v).value = .ok v.sorted
  | .null | .bool _ | .number _ | .string _ => rfl
  | .array items => by
    rw [Node.ofValue, Node.value, itemValues_ofItems items]
    rfl
  | .object members => by
    rw [Node.ofValue, Node.value, memberValues_ofMembers members]
    rfl

theorem itemValues_ofItems :
    ∀ items : List Json, Node.itemValues (Node.ofItems items) = .ok (Json.sortedItems items)
  | [] => rfl
  | item :: items => by
    rw [Node.ofItems, Node.itemValues, value_ofValue item, itemValues_ofItems items]
    rfl

theorem memberValues_ofMembers :
    ∀ members : List (String × Json),
      Node.memberValues (Node.ofMembers members) = .ok (Json.sortedMembers members)
  | [] => rfl
  | (key, value) :: members => by
    rw [Node.ofMembers, Node.memberValues, value_ofValue value, memberValues_ofMembers members]
    rfl

end

end Tree

end Circulation.Json
