import Circulation.Json.Number

/-!
# JSON values

The members of an object stand in the order in which they are written. An object that is read, and
every object of a sorted value, has them in the increasing order of their keys and has each key once,
so that two sorted values are equal when they are the same JSON value. Keys are ordered by code
points, which is also the order of their UTF-8 bytes.

## Main definitions

* `Circulation.Json` — the values.
* `Circulation.Json.sortMembers` — members in the order of their keys.
* `Circulation.Json.sorted` — a value with the members of every object in the order of their keys.
* `Circulation.Json.member?` — the value of a key.
-/

namespace Circulation

/-- A JSON value. The members of an object stand in the order in which they are written. -/
inductive Json where
  | null
  | bool (b : Bool)
  | number (n : Json.Number)
  | string (s : String)
  | array (items : List Json)
  | object (members : List (String × Json))
  deriving Repr, Inhabited

namespace Json

/-- Members in the order of keys with one more, in place of an earlier member of the same key. -/
def insertMember {α : Type} (key : String) (value : α) : List (String × α) → List (String × α)
  | [] => [(key, value)]
  | (k, v) :: rest =>
    if key < k then (key, value) :: (k, v) :: rest
    else if key = k then (key, value) :: rest
    else (k, v) :: insertMember key value rest

/-- Members in the order of their keys; of two members with the same key the later counts. -/
def sortMembers {α : Type} (members : List (String × α)) : List (String × α) :=
  members.foldl (fun sorted (k, v) => insertMember k v sorted) []

mutual

/-- A value with the members of every object in the order of their keys. -/
def sorted : Json → Json
  | .array items => .array (sortedItems items)
  | .object members => .object (sortMembers (sortedMembers members))
  | v => v

/-- Items that are sorted values. -/
def sortedItems : List Json → List Json
  | [] => []
  | item :: items => sorted item :: sortedItems items

/-- Members, in the same order, whose values are sorted. -/
def sortedMembers : List (String × Json) → List (String × Json)
  | [] => []
  | (key, value) :: members => (key, sorted value) :: sortedMembers members

end

/-- The value of a key, if the value is an object that has it. -/
def member? (key : String) : Json → Option Json
  | .object members => (members.find? fun (k, _) => k == key).map (·.2)
  | _ => none

/-- The text of a string. -/
def string? : Json → Option String
  | .string s => some s
  | _ => none

/-- The items of an array. -/
def array? : Json → Option (List Json)
  | .array items => some items
  | _ => none

end Json

end Circulation
