import Circulation.Json.Decoder

/-!
# Decoding records

A record is written as an object, or as an array of its fields in their order. Members of an object
that are no fields are passed over; a field that occurs twice is refused, also under two of its names.
Fields that may be left out have a default.

A record decoder first goes through the text and checks every field where it stands. It then puts the
record together from the fields by name, so that the order of the members plays no part in the result.

## Main definitions

* `Circulation.Json.Record` — the fields of a record and how they make it up.
* `Circulation.Json.Record.required`, `Circulation.Json.Record.defaulted`,
  `Circulation.Json.Record.nullable` — records of a single field.
* `Circulation.Json.Record.decoder` — the decoder of a record.
-/

namespace Circulation.Json

/-- A field: its names, the first of which is its own, and the check of its value. -/
structure Field where
  name : String
  otherNames : List String
  check : Node → Except Problem Unit

/-- Whether a key is one of the names of a field. -/
def Field.answersTo (f : Field) (key : String) : Bool :=
  key == f.name || f.otherNames.contains key

/-- The ways to write a record. -/
inductive Form where
  | members
  | positions
  deriving DecidableEq, Repr

/-- The fields that are present, by name, and the problem that the absence of one is. -/
structure Present where
  form : Form
  node? : String → Option Node
  absent : String → Problem

/-- The fields of a record in their order, and the record that they make up. -/
structure Record (α : Type) where
  fields : List Field
  build : Present → Except Problem α

namespace Record

instance : Applicative Record where
  pure a := ⟨[], fun _ => .ok a⟩
  seq f x :=
    ⟨f.fields ++ (x ()).fields, fun p => do
      let g ← f.build p
      let a ← (x ()).build p
      return g a⟩

/-- A field that is replaced by what `default?` says for the form of the record, where that is
something, when it is absent. -/
def field {α : Type} (name : String) (otherNames : List String) (d : Decoder α)
    (default? : Form → Option α) : Record α :=
  ⟨[⟨name, otherNames, fun n => (d n).map fun _ => ()⟩], fun p =>
    match p.node? name, default? p.form with
    | some n, _ => d n
    | none, some a => .ok a
    | none, none => .error (p.absent name)⟩

/-- A field that must be present. -/
def required {α : Type} (name : String) (d : Decoder α) : Record α :=
  field name [] d fun _ => none

/-- A field with a default. -/
def defaulted {α : Type} (name : String) (d : Decoder α) (default : α) : Record α :=
  field name [] d fun _ => some default

/-- A field that may be left out among members, where `null` then stands for it, but not among
positions. -/
def nullable {α : Type} (name : String) (d : Decoder α) : Record (Option α) :=
  field name [] (Decoder.optional d) fun
    | .members => some none
    | .positions => none

/-- Goes through members in their order: every field is checked, and nothing else is read. -/
def checkMembers (fields : List Field) (seen : List String) : List Member → Except Problem Unit
  | [] => .ok ()
  | .mk key keyStop node :: members => do
    let key ← key.mapError Problem.fault
    match fields.find? (·.answersTo key) with
    | none =>
      match node.passFault? with
      | some fault => throw (.fault fault)
      | none => checkMembers fields seen members
    | some f =>
      if seen.contains f.name then throw (.mismatch (.duplicate f.name) keyStop)
      f.check node
      checkMembers fields (f.name :: seen) members

/-- Goes through items in the order of the fields that they stand for. -/
def checkItems : List Field → List Node → Except Problem Unit
  | f :: fields, item :: items => do
    f.check item
    checkItems fields items
  | _, _ => .ok ()

/-- The node of the member that a field has among members. -/
def memberNode? (f : Field) (members : List Member) : Option Node :=
  members.findSome? fun
    | .mk (.ok key) _ node => if f.answersTo key then some node else none
    | .mk (.error _) _ _ => none

/-- The fault by which a text shows that an item is one too many. -/
def excessFault : Node → Fault
  | .broken start read _ =>
    match read.cause with
    | .expectedCommaInList => ⟨.trailingText, read.offset⟩
    | .endInList | .trailingComma => read
    | .endInValue => ⟨.trailingText, min read.offset (start + 1)⟩
    | _ => ⟨.trailingText, start + 1⟩
  | .unreadable start _ => ⟨.trailingText, start + 1⟩
  | .null span | .bool span _ | .number span _ | .string span _ | .array span _ | .object span _ =>
    ⟨.trailingText, span.start + 1⟩

/-- The text that counts the elements of a record. -/
def countText (n : Nat) : String :=
  if n = 1 then "1 element" else toString n ++ " elements"

/-- The decoder of a record of the given name. -/
def decoder {α : Type} (r : Record α) (name : String) : Decoder α
  | .object span members => do
    checkMembers r.fields [] members
    r.build
      { form := .members
        node? := fun field => (r.fields.find? (·.name == field)).bind (memberNode? · members)
        absent := fun field => .mismatch (.missing field) span.stop }
  | .array span items => do
    checkItems r.fields items
    let position (field : String) : Nat := r.fields.findIdx (·.name == field)
    let a ← r.build
      { form := .positions
        node? := fun field => items[position field]?
        absent := fun field =>
          .mismatch
            (.length (position field)
              ("struct " ++ name ++ " with " ++ countText r.fields.length))
            span.stop }
    match items.drop r.fields.length with
    | [] => return a
    | item :: _ => throw (.excess items.length (excessFault item))
  | n => Decoder.wrongType ("struct " ++ name) n

end Record

end Circulation.Json
