import Circulation.Text.Unprintable

/-!
# Quoted texts

How a text is shown inside a message or a log line: between double quotes, with the quote, the
backslash and the usual control characters written by a letter and every other unprintable
character by its number. Every other character stands for itself.

## Main definitions

* `Circulation.Text.hexDigits` — a number in lower-case base 16.
* `Circulation.Text.quote` — a text between double quotes.
-/

namespace Circulation.Text

/-- A number in lower-case base 16 without leading zeros. -/
def hexDigits (n : Nat) : String :=
  String.ofList (Nat.toDigits 16 n)

/-- The written form of one character of a quoted text. -/
def quoteChar (c : Char) : String :=
  match c with
  | '"' => "\\\""
  | '\\' => "\\\\"
  | '\n' => "\\n"
  | '\r' => "\\r"
  | '\t' => "\\t"
  | '\x00' => "\\0"
  | c => if isUnprintable c then "\\u\x7b" ++ hexDigits c.toNat ++ "\x7d" else c.toString

/-- A text between double quotes, its characters written by `quoteChar`. -/
def quote (s : String) : String :=
  "\"" ++ String.join (s.toList.map quoteChar) ++ "\""

end Circulation.Text
