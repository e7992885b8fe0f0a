import Circulation.Json.Basic
import Circulation.Text.Hex

/-!
# Writing JSON

The compact text of a value has no blank outside strings. The indented text puts every item and every
member on a line of its own, two spaces deeper than its container.

## Main definitions

* `Circulation.Json.quoted` — a string literal.
* `Circulation.Json.compact` — the compact text of a value.
* `Circulation.Json.indented` — the indented text of a value.
* `Circulation.Json.canonical` — the compact text of a value whose members are sorted.
-/

namespace Circulation.Json

/-- The written form of one character of a string literal: quote, backslash and control characters
are escaped, every other character stands for itself. -/
def quotedChar (c : Char) : List Char :=
  if c = '"' then ['\\', '"']
  else if c = '\\' then ['\\', '\\']
  else if c = '\n' then ['\\', 'n']
  else if c = '\r' then ['\\', 'r']
  else if c = '\t' then ['\\', 't']
  else if c = '\x08' then ['\\', 'b']
  else if c = '\x0c' then ['\\', 'f']
  else if c.toNat < 0x20 then
    ['\\', 'u', '0', '0', Text.lowerHexDigit (c.toNat / 16), Text.lowerHexDigit (c.toNat % 16)]
  else [c]

/-- A string literal. -/
def quoted (s : String) : List Char :=
  '"' :: s.toList.flatMap quotedChar ++ ['"']

/-- Texts with a comma between each two. -/
def commaSeparated : List (List Char) → List Char
  | [] => []
  | [t] => t
  | t :: ts => t ++ ',' :: commaSeparated ts

mutual

/-- The characters of the compact text of a value. -/
def compactChars : Json → List Char
  | .null => "null".toList
  | .bool true => "true".toList
  | .bool false => "false".toList
  | .number n => n.text.toList
  | .string s => quoted s
  | .array items => '[' :: commaSeparated (compactItems items) ++ [']']
  | .object members => '\x7b' :: commaSeparated (compactMembers members) ++ ['\x7d']

/-- The compact texts of the items of an array. -/
def compactItems : List Json → List (List Char)
  | [] => []
  | item :: items => compactChars item :: compactItems items

/-- The compact texts of the members of an object. -/
def compactMembers : List (String × Json) → List (List Char)
  | [] => []
  | (key, value) :: members => (quoted key ++ ':' :: compactChars value) :: compactMembers members

end

/-- The compact text of a value. -/
def compact (v : Json) : String :=
  String.ofList (compactChars v)

/-- The compact text of a value with the members of every object in the order of their keys. -/
def canonical (v : Json) : String :=
  compact v.sorted

/-- A line break and the blanks of a depth. -/
def newline (depth : Nat) : List Char :=
  '\n' :: List.replicate (2 * depth) ' '

/-- Texts on lines of their own between brackets; nothing stands between the brackets if there are no
texts. -/
def block (depth : Nat) (opening closing : Char) (texts : List (List Char)) : List Char :=
  if texts = [] then [opening, closing]
  else
    opening :: commaSeparated (texts.map fun t => newline (depth + 1) ++ t) ++
      newline depth ++ [closing]

mutual

/-- The characters of the indented text of a value at a depth. -/
def indentedChars (depth : Nat) : Json → List Char
  | .array items => block depth '[' ']' (indentedItems (depth + 1) items)
  | .object members => block depth '\x7b' '\x7d' (indentedMembers (depth + 1) members)
  | v => compactChars v

/-- The indented texts of the items of an array. -/
def indentedItems (depth : Nat) : List Json → List (List Char)
  | [] => []
  | item :: items => indentedChars depth item :: indentedItems depth items

/-- The indented texts of the members of an object. -/
def indentedMembers (depth : Nat) : List (String × Json) → List (List Char)
  | [] => []
  | (key, value) :: members =>
    (quoted key ++ ':' :: ' ' :: indentedChars depth value) :: indentedMembers depth members

end

/-- The indented text of a value. -/
def indented (v : Json) : String :=
  String.ofList (indentedChars 0 v)

end Circulation.Json
