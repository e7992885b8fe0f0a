import Circulation.Proofs.Json.Written

/-!
# Paths into a JSON value

A path leads from a JSON value into it, by the keys of objects and the indices of arrays. Its text has
the keys joined by points and the indices in brackets.

## Main definitions

* `Circulation.Json.Step`, `Circulation.Json.follow?` — the steps of a path, and where a path leads.
* `Circulation.Json.pathText` — the text of a path.

## Main results

* `Circulation.Json.Has.follow?` — a path into a member leads into the value that it has.
-/

namespace Circulation.Json

/-- A step from a value into it. -/
inductive Step where
  | key (name : String)
  | index (i : Nat)
  deriving DecidableEq, Repr

/-- The value to which a step leads. -/
def step? (v : Json) : Step → Option Json
  | .key name => v.member? name
  | .index i => v.array?.bind fun items => items[i]?

/-- The value to which a path leads. -/
def follow? (v : Json) : List Step → Option Json
  | [] => some v
  | s :: path => (v.step? s).bind fun inner => inner.follow? path

/-- The text of a path that goes on after other steps. -/
def pathTail : List Step → String
  | [] => ""
  | .key name :: path => "." ++ name ++ pathTail path
  | .index i :: path => "[" ++ toString i ++ "]" ++ pathTail path

/-- The text of a path. -/
def pathText : List Step → String
  | .key name :: path => name ++ pathTail path
  | path => pathTail path

theorem Has.member? {ms : List (String × Json)} {key : String} {v? : Option Json} (h : Has ms key v?) :
    (Json.object ms).member? key = v? := by
  show (ms.find? fun m => m.1 == key).map (·.2) = v?
  rw [← List.head?_filter, h]
  cases v? <;> rfl

/-- A path into a member leads into the value that it has. -/
theorem Has.follow? {ms : List (String × Json)} {key : String} {v : Json} (h : Has ms key (some v))
    (path : List Step) : (Json.object ms).follow? (.key key :: path) = v.follow? path := by
  show ((Json.object ms).member? key).bind _ = _
  rw [h.member?, Option.bind_some]

/-- A path into an item of a list that is not empty. -/
theorem Has.follow?_index {ms : List (String × Json)} {key : String} {vs : List Json} {i : Nat}
    {v : Json} (h : Has ms key (arrayOf? vs)) (hv : vs[i]? = some v) :
    (Json.object ms).follow? [.key key, .index i] = some v := by
  have hne : vs ≠ [] := List.ne_nil_of_mem (List.mem_of_getElem? hv)
  rw [arrayOf?, if_neg hne] at h
  rw [h.follow?]
  show (vs[i]?).bind _ = _
  rw [hv]
  rfl

end Circulation.Json
