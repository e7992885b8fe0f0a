import Circulation.Json.Error
import Circulation.Json.Reader

/-!
# Decoders

A decoder walks through the tree of a text, or of a value, in the order of the text and yields a value
of its type or the first problem that it meets. A text with more after its value fails only when the
value itself decodes.

## Main definitions

* `Circulation.Json.Decoder` — what a tree denotes, or the first problem.
* `Circulation.Json.Decoder.ofText`, `Circulation.Json.Decoder.ofValue` — decoding texts and values.
* `Circulation.Json.Decoder.string`, `Circulation.Json.Decoder.bool`,
  `Circulation.Json.Decoder.integer`, `Circulation.Json.Decoder.value`,
  `Circulation.Json.Decoder.optional`, `Circulation.Json.Decoder.list`,
  `Circulation.Json.Decoder.refine` — the decoders of the usual shapes.
-/

namespace Circulation.Json

/-- What a tree denotes, or the first problem in it. -/
abbrev Decoder (α : Type) := Node → Except Problem α

/-- A node as something that stands in place of a value, and the offset at which that shows: before a
container and after anything else. -/
def Node.got (n : Node) : Except Problem (Got × Nat) :=
  match n with
  | .null span => .ok (.null, span.stop)
  | .bool span b => .ok (.bool b, span.stop)
  | .number span n => .ok (.number n, span.stop)
  | .string span s => .ok (.string s, span.stop)
  | .array span _ => .ok (.sequence, span.start)
  | .object span _ => .ok (.map, span.start)
  | .unreadable _ fault => .error (.fault fault)
  | .broken _ read _ => .error (.fault read)

namespace Decoder

/-- The problem of a node of the wrong kind. -/
def wrongType {α : Type} (want : String) : Decoder α := fun n => do
  let (got, offset) ← n.got
  throw (.mismatch (.type got want) offset)

/-- A string, described as `want`. -/
def stringAs (want : String) : Decoder String
  | .string _ s => .ok s
  | n => wrongType want n

/-- A string. -/
def string : Decoder String :=
  stringAs "a string"

/-- A boolean. -/
def bool : Decoder Bool
  | .bool _ b => .ok b
  | n => wrongType "a boolean" n

/-- An integer from `low` to `high`, described as `want`. -/
def integer (want : String) (low high : Int) : Decoder Int
  | .number span (.int n) =>
    if low ≤ n ∧ n ≤ high then .ok n
    else .error (.mismatch (.value (.number (.int n)) want) span.stop)
  | n => wrongType want n

/-- A signed integer of 64 bits. -/
def int64 : Decoder Int :=
  integer "i64" (-9223372036854775808) 9223372036854775807

/-- A natural number of 32 bits. -/
def nat32 : Decoder Nat := fun n =>
  (integer "u32" 0 4294967295 n).map Int.toNat

/-- Any value. -/
def value : Decoder Json := fun n =>
  n.value.mapError Problem.fault

/-- Nothing in place of `null`, and otherwise what `d` decodes. -/
def optional {α : Type} (d : Decoder α) : Decoder (Option α)
  | .null _ => .ok none
  | n => (d n).map some

/-- The items of an array, each decoded by `d`. -/
def list {α : Type} (d : Decoder α) : Decoder (List α)
  | .array _ items => items.mapM d
  | n => wrongType "a sequence" n

/-- What `f` makes of the result of `d`, or its objection at the end of the node. -/
def refine {α β : Type} (d : Decoder α) (f : α → Except String β) : Decoder β := fun n => do
  let a ← d n
  match f a with
  | .ok b => return b
  | .error why =>
    let (_, offset) ← n.got
    throw (.mismatch (.refused why) offset)

/-- What a text denotes. -/
def ofText {α : Type} (d : Decoder α) (s : String) : Except DecodeError α :=
  let document := read s
  match d document.root with
  | .error problem => .error (.ofText s problem)
  | .ok a =>
    match document.trailing with
    | some fault => .error (.ofText s (.fault fault))
    | none => .ok a

/-- What a value denotes. -/
def ofValue {α : Type} (d : Decoder α) (v : Json) : Except DecodeError α :=
  (d (Node.ofValue v)).mapError .ofValue

end Decoder

/-- The value of a text. -/
def parse (s : String) : Except DecodeError Json :=
  Decoder.value.ofText s

end Circulation.Json
