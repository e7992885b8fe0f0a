import Circulation.Json.Basic

/-!
# JSON texts as trees

A text is read into a tree whose nodes know where they stand. The tree also holds what makes the
text, or a part of it, unreadable, so that whoever walks through it in the order of the text meets
the first fault first:

* an *unreadable* node is a well-formed part of the text that denotes no value: a number that is too
  large, a string with half a surrogate pair, or a container that is nested too deeply;
* a *broken* node stands where the text ends or ceases to be JSON. Nothing follows it.

A part of a text that is only passed over need not denote a value, and a fault in it may be reported
in other words. A broken node therefore has two faults, one for those who read it and one for those
who pass over it.

## Main definitions

* `Circulation.Json.Cause`, `Circulation.Json.Fault` — why and where a text is not JSON.
* `Circulation.Json.Node`, `Circulation.Json.Member` — the tree.
* `Circulation.Json.Node.passFault?` — the fault met by passing over a node.
* `Circulation.Json.Node.value` — the value of a node, or the first fault in it.
* `Circulation.Json.Node.ofValue` — a value as a tree without positions.
-/

namespace Circulation.Json

/-- Why a text is not JSON. -/
inductive Cause where
  | endInValue
  | endInList
  | endInObject
  | endInString
  | expectedColon
  | expectedCommaInList
  | expectedCommaInObject
  | expectedWord
  | expectedValue
  | invalidEscape
  | invalidNumber
  | numberTooLarge
  | controlCharacter
  | keyNotString
  | loneSurrogate
  | endOfSurrogatePair
  | trailingComma
  | trailingText
  | tooDeep
  deriving DecidableEq, Repr, Inhabited

/-- The text that reports a cause. -/
def Cause.message : Cause → String
  | .endInValue => "EOF while parsing a value"
  | .endInList => "EOF while parsing a list"
  | .endInObject => "EOF while parsing an object"
  | .endInString => "EOF while parsing a string"
  | .expectedColon => "expected `:`"
  | .expectedCommaInList => "expected `,` or `]`"
  | .expectedCommaInObject => "expected `,` or `\x7d`"
  | .expectedWord => "expected ident"
  | .expectedValue => "expected value"
  | .invalidEscape => "invalid escape"
  | .invalidNumber => "invalid number"
  | .numberTooLarge => "number out of range"
  | .controlCharacter => "control character (\\u0000-\\u001F) found while parsing a string"
  | .keyNotString => "key must be a string"
  | .loneSurrogate => "lone leading surrogate in hex escape"
  | .endOfSurrogatePair => "unexpected end of hex escape"
  | .trailingComma => "trailing comma"
  | .trailingText => "trailing characters"
  | .tooDeep => "recursion limit exceeded"

/-- Whether the text ended where more of it was needed. -/
def Cause.isEnd : Cause → Bool
  | .endInValue | .endInList | .endInObject | .endInString => true
  | _ => false

/-- Why a text is not JSON, and the number of bytes before the place where that shows. -/
structure Fault where
  cause : Cause
  offset : Nat
  deriving DecidableEq, Repr, Inhabited

/-- The bytes of a text from offset `start` up to offset `stop`. -/
structure Span where
  start : Nat
  stop : Nat
  deriving DecidableEq, Repr, Inhabited

mutual

/-- A part of a JSON text. -/
inductive Node where
  | null (span : Span)
  | bool (span : Span) (b : Bool)
  | number (span : Span) (n : Number)
  | string (span : Span) (s : String)
  | array (span : Span) (items : List Node)
  | object (span : Span) (members : List Member)
  /-- A well-formed part of the text that denotes no value, and where it starts. -/
  | unreadable (start : Nat) (fault : Fault)
  /-- The place where the text ceases to be JSON: where it stands, the fault for those who read it
  and the fault for those who pass over it. -/
  | broken (start : Nat) (read passed : Fault)

/-- A member of an object: its key, or why the key denotes no text; the offset of what follows the
key; and its value. -/
inductive Member where
  | mk (key : Except Fault String) (keyStop : Nat) (value : Node)

end

instance : Inhabited Node :=
  ⟨.null ⟨0, 0⟩⟩

namespace Node

mutual

/-- The fault met by passing over a node. -/
def passFault? : Node → Option Fault
  | .broken _ _ passed => some passed
  | .array _ items => itemsPassFault? items
  | .object _ members => membersPassFault? members
  | _ => none

/-- The first fault met by passing over items. -/
def itemsPassFault? : List Node → Option Fault
  | [] => none
  | item :: items => (passFault? item).or (itemsPassFault? items)

/-- The first fault met by passing over members. -/
def membersPassFault? : List Member → Option Fault
  | [] => none
  | .mk _ _ value :: members => (passFault? value).or (membersPassFault? members)

end

mutual

/-- The value of a node, or the first fault in it. Of two members of an object with the same key the
later counts. -/
def value : Node → Except Fault Json
  | .null _ => .ok .null
  | .bool _ b => .ok (.bool b)
  | .number _ n => .ok (.number n)
  | .string _ s => .ok (.string s)
  | .array _ items => (itemValues items).map .array
  | .object _ members => (memberValues members).map fun ms => .object (sortMembers ms)
  | .unreadable _ fault => .error fault
  | .broken _ read _ => .error read

/-- The values of items, or the first fault in them. -/
def itemValues : List Node → Except Fault (List Json)
  | [] => .ok []
  | item :: items => do
    let v ← value item
    return v :: (← itemValues items)

/-- The keys and values of members, or the first fault in them. -/
def memberValues : List Member → Except Fault (List (String × Json))
  | [] => .ok []
  | .mk key _ v :: members => do
    let k ← key
    let v ← value v
    return (k, v) :: (← memberValues members)

end

mutual

/-- A value as a tree all of whose positions are zero. -/
def ofValue : Json → Node
  | .null => .null default
  | .bool b => .bool default b
  | .number n => .number default n
  | .string s => .string default s
  | .array items => .array default (ofItems items)
  | .object members => .object default (ofMembers members)

/-- Values as nodes. -/
def ofItems : List Json → List Node
  | [] => []
  | item :: items => ofValue item :: ofItems items

/-- Keys and values as members. -/
def ofMembers : List (String × Json) → List Member
  | [] => []
  | (key, v) :: members => .mk (.ok key) 0 (ofValue v) :: ofMembers members

end

end Node

end Circulation.Json
