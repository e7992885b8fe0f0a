import Circulation.Proofs.Json.Tree

/-!
# The grammar of JSON texts

The grammar relates a tree to the texts that say it. Each of its relations holds between a part of a
tree, a text that begins with this part and the rest of the text. A tree has many texts: blanks may
stand between any two tokens, a character of a string may be escaped, and a number may be written in
several ways.

## Main definitions

* `Circulation.Json.Grammar.Numeral` — the literals of numbers.
* `Circulation.Json.Grammar.Pieces` — the contents of string literals.
* `Circulation.Json.Grammar.Value` — the values.
* `Circulation.Json.Tree.IsText` — the texts of a tree.
-/

namespace Circulation.Json

namespace Grammar

/-- Blanks, as many as one likes. -/
inductive Blanks : List Char → List Char → Prop
  | none {r : List Char} : Blanks r r
  | more {c : Char} {cs r : List Char} (hc : Reader.isBlank c = true) (h : Blanks cs r) :
      Blanks (c :: cs) r

/-! ### Numbers -/

/-- One or more digits. -/
def IsDigits (ds : List Char) : Prop :=
  ds ≠ [] ∧ ∀ d ∈ ds, d.isDigit = true

/-- The digits before the point: zero, or digits that do not begin with a zero. -/
inductive Whole : List Char → Prop
  | zero : Whole ['0']
  | digits {d : Char} {ds : List Char} (hzero : d ≠ '0') (hd : d.isDigit = true)
      (hds : ∀ d ∈ ds, d.isDigit = true) : Whole (d :: ds)

/-- The fraction of a literal, if it has one. -/
inductive Fraction : Option (List Char) → List Char → Prop
  | none : Fraction none []
  | point {ds : List Char} (h : IsDigits ds) : Fraction (some ds) ('.' :: ds)

/-- The exponent of a literal, if it has one: whether it is negative, and its digits. -/
inductive Exponent : Option (Bool × List Char) → List Char → Prop
  | none : Exponent none []
  | unsigned {mark : Char} {ds : List Char} (hmark : mark = 'e' ∨ mark = 'E') (h : IsDigits ds) :
      Exponent (some (false, ds)) (mark :: ds)
  | plus {mark : Char} {ds : List Char} (hmark : mark = 'e' ∨ mark = 'E') (h : IsDigits ds) :
      Exponent (some (false, ds)) (mark :: '+' :: ds)
  | minus {mark : Char} {ds : List Char} (hmark : mark = 'e' ∨ mark = 'E') (h : IsDigits ds) :
      Exponent (some (true, ds)) (mark :: '-' :: ds)

/-- A literal without its sign, and its parts. -/
inductive Unsigned (negative : Bool) : Number.Literal → List Char → Prop
  | parts {whole : List Char} {fraction : Option (List Char)} {exponent : Option (Bool × List Char)}
      {fractionText exponentText : List Char} (hwhole : Whole whole)
      (hfraction : Fraction fraction fractionText) (hexponent : Exponent exponent exponentText) :
      Unsigned negative ⟨negative, whole, fraction, exponent⟩ (whole ++ fractionText ++ exponentText)

/-- A literal and its parts. -/
inductive Numeral : Number.Literal → List Char → Prop
  | positive {l : Number.Literal} {cs : List Char} (h : Unsigned false l cs) : Numeral l cs
  | negative {l : Number.Literal} {cs : List Char} (h : Unsigned true l cs) : Numeral l ('-' :: cs)

/-! ### Strings -/

/-- A piece of a string literal: a character, which stands for itself or is escaped by a letter, or an
escape by number. -/
inductive Piece where
  | char (c : Char)
  | unit (n : Nat)

/-- The number of four digits of base 16, if they are such digits. -/
def hexValue? (ds : List Char) : Option Nat :=
  ds.foldl (fun n? d => n?.bind fun n => (Text.hexDigitValue? d).map fun k => 16 * n + k) (some 0)

/-- Pieces of a string literal, as many as one likes. -/
inductive Pieces : List Piece → List Char → List Char → Prop
  | none {r : List Char} : Pieces [] r r
  | plain {c : Char} {ps : List Piece} {cs r : List Char} (hquote : c ≠ '"') (hescape : c ≠ '\\')
      (hcontrol : 0x20 ≤ c.toNat) (h : Pieces ps cs r) : Pieces (.char c :: ps) (c :: cs) r
  | escape {c d : Char} {ps : List Piece} {cs r : List Char} (hd : Reader.escapedChar? c = some d)
      (h : Pieces ps cs r) : Pieces (.char d :: ps) ('\\' :: c :: cs) r
  | unit {a b c d : Char} {n : Nat} {ps : List Piece} {cs r : List Char}
      (hn : hexValue? [a, b, c, d] = some n) (h : Pieces ps cs r) :
      Pieces (.unit n :: ps) ('\\' :: 'u' :: a :: b :: c :: d :: cs) r

/-- The characters that pieces denote after the first half of a surrogate pair, if there is one. Half a
pair denotes nothing. -/
def textOf? : Option Nat → List Piece → Option (List Char)
  | none, [] => some []
  | none, .char c :: ps => (textOf? none ps).map (c :: ·)
  | none, .unit n :: ps =>
    if Reader.isLowSurrogate n then none
    else if Reader.isHighSurrogate n then textOf? (some n) ps
    else (textOf? none ps).map (Char.ofNat n :: ·)
  | some high, .unit low :: ps =>
    if Reader.isLowSurrogate low then
      (textOf? none ps).map (Char.ofNat (0x10000 + (high - 0xD800) * 0x400 + (low - 0xDC00)) :: ·)
    else none
  | some _, _ => none

/-- The string that pieces denote. -/
def stringOf? (ps : List Piece) : Option String :=
  (textOf? none ps).map String.ofList

end Grammar

/-! ### Values -/

/-- The tree of a literal. -/
def Tree.ofLiteral (l : Number.Literal) : Tree :=
  match Number.ofLiteral l with
  | .ok n => .number n
  | .error _ => .hole

/-- The tree of a string literal. -/
def Tree.ofPieces (ps : List Grammar.Piece) : Tree :=
  match Grammar.stringOf? ps with
  | some s => .string s
  | none => .hole

namespace Grammar

/-- The key of a member, with the colon after it. -/
inductive Key : List Piece → List Char → List Char → Prop
  | key {ps : List Piece} {cs cs₁ cs₂ r : List Char} (hbefore : Blanks cs ('"' :: cs₁))
      (h : Pieces ps cs₁ ('"' :: cs₂)) (hafter : Blanks cs₂ (':' :: r)) : Key ps cs r

mutual

/-- A value without blanks before or after it. -/
inductive Value : Tree → List Char → List Char → Prop
  | null {r : List Char} : Value .null ('n' :: 'u' :: 'l' :: 'l' :: r) r
  | true {r : List Char} : Value (.bool true) ('t' :: 'r' :: 'u' :: 'e' :: r) r
  | false {r : List Char} : Value (.bool false) ('f' :: 'a' :: 'l' :: 's' :: 'e' :: r) r
  | number {l : Number.Literal} {cs r : List Char} (h : Numeral l cs) :
      Value (.ofLiteral l) (cs ++ r) r
  | string {ps : List Piece} {cs r : List Char} (h : Pieces ps cs ('"' :: r)) :
      Value (.ofPieces ps) ('"' :: cs) r
  | emptyArray {cs r : List Char} (h : Blanks cs (']' :: r)) : Value (.array []) ('[' :: cs) r
  | array {items : List Tree} {cs r : List Char} (h : Items items cs (']' :: r)) :
      Value (.array items) ('[' :: cs) r
  | emptyObject {cs r : List Char} (h : Blanks cs ('\x7d' :: r)) :
      Value (.object []) ('\x7b' :: cs) r
  | object {members : List (Option String × Tree)} {cs r : List Char}
      (h : Members members cs ('\x7d' :: r)) : Value (.object members) ('\x7b' :: cs) r

/-- A value with blanks before and after it. -/
inductive Element : Tree → List Char → List Char → Prop
  | element {t : Tree} {cs cs₁ cs₂ r : List Char} (hbefore : Blanks cs cs₁) (h : Value t cs₁ cs₂)
      (hafter : Blanks cs₂ r) : Element t cs r

/-- One or more items with commas between them. -/
inductive Items : List Tree → List Char → List Char → Prop
  | last {t : Tree} {cs r : List Char} (h : Element t cs r) : Items [t] cs r
  | more {t : Tree} {ts : List Tree} {cs ds r : List Char} (h : Element t cs (',' :: ds))
      (hmore : Items ts ds r) : Items (t :: ts) cs r

/-- One or more members with commas between them. -/
inductive Members : List (Option String × Tree) → List Char → List Char → Prop
  | last {ps : List Piece} {t : Tree} {cs ds r : List Char} (hkey : Key ps cs ds)
      (h : Element t ds r) : Members [(stringOf? ps, t)] cs r
  | more {ps : List Piece} {t : Tree} {ms : List (Option String × Tree)} {cs ds es r : List Char}
      (hkey : Key ps cs ds) (h : Element t ds (',' :: es)) (hmore : Members ms es r) :
      Members ((stringOf? ps, t) :: ms) cs r

end

end Grammar

/-- The texts of a tree: its value, with blanks around it. -/
def Tree.IsText (t : Tree) (s : String) : Prop :=
  Grammar.Element t s.toList []

end Circulation.Json
