import Circulation.Json.Node
import Circulation.Text.Quoted

/-!
# Errors of decoding

Decoding fails either because a text is not JSON or because a value does not have the shape that is
asked for. Both kinds of error are reported with their place in the text, if the value came from a
text: the line, counted from 1, and the number of bytes before the place in it.

## Main definitions

* `Circulation.Json.Mismatch` — how a value differs from the shape that is asked for.
* `Circulation.Json.Problem` — an error at an offset of the text.
* `Circulation.Json.DecodeError` — an error at a place of the text, with its message and category.
-/

namespace Circulation.Json

/-- What stands in place of a value of the shape that is asked for. -/
inductive Got where
  | null
  | bool (b : Bool)
  | number (n : Number)
  | string (s : String)
  | sequence
  | map
  deriving DecidableEq, Repr

/-- The text that names what stands in place of a value. -/
def Got.text : Got → String
  | .null => "null"
  | .bool b => "boolean `" ++ toString b ++ "`"
  | .number (.int n) => "integer `" ++ toString n ++ "`"
  | .number (.double x) => "floating point `" ++ Number.doubleText x ++ "`"
  | .string s => "string " ++ Text.quote s
  | .sequence => "sequence"
  | .map => "map"

/-- How a value differs from the shape that is asked for. -/
inductive Mismatch where
  /-- A value of another kind. -/
  | type (got : Got) (want : String)
  /-- A value of the right kind that is out of range. -/
  | value (got : Got) (want : String)
  /-- A sequence of the wrong length. -/
  | length (n : Nat) (want : String)
  | missing (field : String)
  | duplicate (field : String)
  /-- A value that a rule of its own refuses. -/
  | refused (why : String)
  deriving DecidableEq, Repr

/-- The text that reports a mismatch. -/
def Mismatch.message : Mismatch → String
  | .type got want => "invalid type: " ++ got.text ++ ", expected " ++ want
  | .value got want => "invalid value: " ++ got.text ++ ", expected " ++ want
  | .length n want => "invalid length " ++ toString n ++ ", expected " ++ want
  | .missing field => "missing field `" ++ field ++ "`"
  | .duplicate field => "duplicate field `" ++ field ++ "`"
  | .refused why => why

/-- An error at an offset of the text. -/
inductive Problem where
  | fault (f : Fault)
  | mismatch (m : Mismatch) (offset : Nat)
  /-- A sequence of `length` items is longer than the record that it stands for. A text shows that by
  the given fault before its length is known. -/
  | excess (length : Nat) (f : Fault)
  deriving DecidableEq, Repr

/-- The kinds of decoding errors. -/
inductive Category where
  /-- The text is not JSON. -/
  | notJson
  /-- The text ends too early. -/
  | tooShort
  /-- The value has another shape. -/
  | shape
  deriving DecidableEq, Repr

/-- A line of a text, counted from 1, and a number of bytes in it. -/
structure Place where
  line : Nat
  column : Nat
  deriving DecidableEq, Repr

/-- The place reached from a place by the first `offset` bytes of a text. -/
def Place.advance (p : Place) (offset : Nat) : List Char → Place
  | [] => p
  | c :: cs =>
    if offset < c.utf8Size then { p with column := p.column + offset }
    else
      advance (if c = '\n' then ⟨p.line + 1, 0⟩ else { p with column := p.column + c.utf8Size })
        (offset - c.utf8Size) cs

/-- The place of an offset in a text. -/
def Place.ofOffset (s : String) (offset : Nat) : Place :=
  Place.advance ⟨1, 0⟩ offset s.toList

/-- Why decoding failed. -/
inductive Reason where
  | text (cause : Cause)
  | value (mismatch : Mismatch)
  deriving DecidableEq, Repr

/-- Why decoding failed, and the place of the error if the value came from a text. -/
structure DecodeError where
  reason : Reason
  place : Option Place
  deriving DecidableEq, Repr

namespace DecodeError

/-- The error of a problem in a text. -/
def ofText (s : String) : Problem → DecodeError
  | .fault f => ⟨.text f.cause, some (Place.ofOffset s f.offset)⟩
  | .mismatch m offset => ⟨.value m, some (Place.ofOffset s offset)⟩
  | .excess _ f => ⟨.text f.cause, some (Place.ofOffset s f.offset)⟩

/-- The error of a problem in a value that did not come from a text. -/
def ofValue : Problem → DecodeError
  | .fault f => ⟨.text f.cause, none⟩
  | .mismatch m _ => ⟨.value m, none⟩
  | .excess n _ => ⟨.value (.length n "fewer elements in array"), none⟩

/-- The text that reports the reason alone. -/
def reasonText (e : DecodeError) : String :=
  match e.reason with
  | .text cause => cause.message
  | .value m => m.message

/-- The text that reports an error, with its place if there is one. -/
def message (e : DecodeError) : String :=
  e.reasonText ++
    match e.place with
    | some p => " at line " ++ toString p.line ++ " column " ++ toString p.column
    | none => ""

/-- The kind of an error. -/
def category (e : DecodeError) : Category :=
  match e.reason with
  | .text cause => if cause.isEnd then .tooShort else .notJson
  | .value _ => .shape

end DecodeError

end Circulation.Json
