import Circulation.Text.Percent
import Circulation.Text.Utf8
import Circulation.Url.Punycode

/-!
# Hosts

The host of a URL is a name in ASCII or an address. Where the scheme is one of the special ones, a
name is decoded, brought to lower case and, label by label, to ASCII; a name whose last label is a
number is an address of four bytes. An address of sixteen bytes stands in square brackets.

## Main definitions

* `Circulation.UrlError` — why a text is not a URL.
* `Circulation.Host.parse`, `Circulation.Host.parseOpaque` — the host of a text, written out.
-/

namespace Circulation

/-- Why a text is not a URL. -/
inductive UrlError where
  | emptyHost
  | hostName
  | port
  | ipv4
  | ipv6
  | hostCharacter
  | relative
  deriving DecidableEq, Repr

/-- The text that reports why a text is not a URL. -/
def UrlError.message : UrlError → String
  | .emptyHost => "empty host"
  | .hostName => "invalid international domain name"
  | .port => "invalid port number"
  | .ipv4 => "invalid IPv4 address"
  | .ipv6 => "invalid IPv6 address"
  | .hostCharacter => "invalid domain character"
  | .relative => "relative URL without a base"

/-- The name of the cause, as the command line reports it. -/
def UrlError.name : UrlError → String
  | .emptyHost => "EmptyHost"
  | .hostName => "IdnaError"
  | .port => "InvalidPort"
  | .ipv4 => "InvalidIpv4Address"
  | .ipv6 => "InvalidIpv6Address"
  | .hostCharacter => "InvalidDomainCharacter"
  | .relative => "RelativeUrlWithoutBase"

namespace Host

/-- The parts of a text between the marks `c`. -/
def splitOn (c : Char) (cs : List Char) : List (List Char) :=
  cs.foldr
    (fun d parts =>
      if d = c then [] :: parts
      else
        match parts with
        | part :: rest => (d :: part) :: rest
        | [] => [[d]])
    [[]]

/-- The number of a text in a base, if all its characters are digits of the base. -/
def numberIn? (base : Nat) (cs : List Char) : Option Nat :=
  cs.foldl
    (fun n c => do
      let d ← Text.hexDigitValue? c
      if d < base then return base * (← n) + d else none)
    (some 0)

/-- The number of a part of an address of four bytes: of base 16 after `0x`, of base 8 after another
`0`, and of base 10 otherwise. -/
def partNumber? : List Char → Option Nat
  | [] => none
  | '0' :: 'x' :: ds => numberIn? 16 ds
  | '0' :: 'X' :: ds => numberIn? 16 ds
  | '0' :: d :: ds => numberIn? 8 (d :: ds)
  | ds => numberIn? 10 ds

/-- The parts of a name between points, without an empty last part. -/
def labels (cs : List Char) : List (List Char) :=
  let parts := splitOn '.' cs
  if parts.getLast? = some [] then parts.dropLast else parts

/-- Whether the last label of a name is a number. -/
def endsInNumber (cs : List Char) : Bool :=
  match (labels cs).getLast? with
  | some label => (label ≠ [] && label.all Char.isDigit) || (partNumber? label).isSome
  | none => false

/-- Four bytes with points between them. -/
def ipv4Text (n : Nat) : String :=
  ".".intercalate ([24, 16, 8, 0].map fun shift => toString (n / Nat.pow 2 shift % 256))

/-- The address of a name whose last label is a number. The last part fills all bytes that are left. -/
def parseIpv4 (cs : List Char) : Except UrlError String :=
  let parts := labels cs
  if 4 < parts.length then .error .ipv4
  else
    match parts.mapM partNumber? with
    | none => .error .ipv4
    | some numbers =>
      let last := numbers.getLastD 0
      let leading := numbers.dropLast
      if Nat.pow 256 (4 - leading.length) ≤ last ∨ leading.any (255 < ·) then .error .ipv4
      else
        .ok (ipv4Text (leading.foldl (fun n b => 256 * n + b) 0 * Nat.pow 256 (4 - leading.length) + last))

/-- The value of one to four digits of base 16. -/
def piece? (cs : List Char) : Option Nat :=
  if cs = [] ∨ 4 < cs.length then none else numberIn? 16 cs

/-- A byte of a trailing address of four bytes: a numeral of base 10 without leading zeros. -/
def byte? (cs : List Char) : Option Nat :=
  if cs = [] ∨ 3 < cs.length ∨ (1 < cs.length ∧ cs.head? = some '0') then none
  else (numberIn? 10 cs).filter (· < 256)

/-- The pieces of a part of an address of sixteen bytes; only its last piece may be four bytes. -/
def pieces? : List (List Char) → Option (List Nat)
  | [] => some []
  | [last] =>
    if last.contains '.' then do
      match ← (splitOn '.' last).mapM byte? with
      | [a, b, c, d] => return [256 * a + b, 256 * c + d]
      | _ => none
    else (piece? last).map ([·])
  | part :: parts => do
    let n ← piece? part
    return n :: (← pieces? parts)

/-- The texts before and after the first `::`, if there is one. -/
def splitGap : List Char → Option (List Char × List Char)
  | ':' :: ':' :: rest => some ([], rest)
  | c :: rest => (splitGap rest).map fun (a, b) => (c :: a, b)
  | [] => none

/-- The pieces between colons; a text without characters has none. -/
def piecesBetweenColons? (cs : List Char) : Option (List Nat) :=
  if cs = [] then some [] else pieces? (splitOn ':' cs)

/-- The eight pieces of an address of sixteen bytes. -/
def ipv6Pieces? (cs : List Char) : Option (List Nat) :=
  match splitGap cs with
  | none => (piecesBetweenColons? cs).filter (·.length == 8)
  | some (before, after) => do
    if before.contains '.' then none
    else
      let a ← piecesBetweenColons? before
      let b ← piecesBetweenColons? after
      if a.length + b.length ≤ 7 then
        return a ++ List.replicate (8 - a.length - b.length) 0 ++ b
      else none

/-- The length of the zeros at the front of pieces. -/
def zeroRun (pieces : List Nat) : Nat :=
  (pieces.takeWhile (· == 0)).length

/-- Start and length of the first longest run of two or more zeros, if there is one. -/
def longestRun? (pieces : List Nat) : Option (Nat × Nat) :=
  (List.range pieces.length).foldl
    (fun best i =>
      let n := zeroRun (pieces.drop i)
      if 2 ≤ n ∧ (best.map (·.2)).getD 0 < n then some (i, n) else best)
    none

/-- Pieces in lower-case base 16 with colons between them. -/
def colonText (pieces : List Nat) : String :=
  ":".intercalate (pieces.map fun n => String.ofList (Nat.toDigits 16 n))

/-- An address of sixteen bytes in square brackets, its longest run of zeros left out. -/
def ipv6Text (pieces : List Nat) : String :=
  match longestRun? pieces with
  | none => "[" ++ colonText pieces ++ "]"
  | some (i, n) => "[" ++ colonText (pieces.take i) ++ "::" ++ colonText (pieces.drop (i + n)) ++ "]"

/-- The address between square brackets. -/
def parseIpv6 (cs : List Char) : Except UrlError String :=
  if cs.getLast? = some ']' then
    match ipv6Pieces? cs.dropLast with
    | some pieces => .ok (ipv6Text pieces)
    | none => .error .ipv6
  else .error .ipv6

/-- The bytes that a text stands for, `%XX` being one byte; a percent sign without two digits stands
for itself. -/
def percentDecoded : List Char → List UInt8
  | [] => []
  | '%' :: a :: b :: rest =>
    match Text.hexDigitValue? a, Text.hexDigitValue? b with
    | some high, some low => UInt8.ofNat (16 * high + low) :: percentDecoded rest
    | _, _ => 0x25 :: percentDecoded (a :: b :: rest)
  | c :: rest => (String.singleton c).toUTF8.toList ++ percentDecoded rest

/-- A letter of ASCII, Latin, Greek or Cyrillic in lower case. -/
def lower (c : Char) : Char :=
  let n := c.toNat
  if 0x41 ≤ n ∧ n ≤ 0x5A then Char.ofNat (n + 32)
  else if 0xC0 ≤ n ∧ n ≤ 0xDE ∧ n ≠ 0xD7 then Char.ofNat (n + 32)
  else if 0x391 ≤ n ∧ n ≤ 0x3A9 then Char.ofNat (n + 32)
  else if 0x410 ≤ n ∧ n ≤ 0x42F then Char.ofNat (n + 32)
  else if 0x400 ≤ n ∧ n ≤ 0x40F then Char.ofNat (n + 80)
  else c

/-- The ASCII characters that cannot stand in the name of a host. -/
def isForbiddenInName (c : Char) : Bool :=
  c.toNat ≤ 0x20 || c.toNat == 0x7F || "%#/:<>?@[\\]^\x7b|\x7d".toList.contains c || c.toNat == 0x60

/-- The ASCII form of a label. -/
def labelToAscii (label : List Char) : List Char :=
  if label.all fun c => c.toNat < 0x80 then label
  else 'x' :: 'n' :: '-' :: '-' :: Punycode.encode label

/-- The ASCII form of a name. -/
def nameToAscii (cs : List Char) : Except UrlError (List Char) :=
  let name := cs.map lower
  if name.any isForbiddenInName then .error .hostName
  else .ok (['.'].intercalate ((splitOn '.' name).map labelToAscii))

/-- The host of a text, for a special scheme. -/
def parse (cs : List Char) : Except UrlError String :=
  match cs with
  | '[' :: rest => parseIpv6 rest
  | _ => do
    let name ← nameToAscii (Text.decodeUtf8 (percentDecoded cs))
    if name = [] then throw .emptyHost
    else if endsInNumber name then parseIpv4 name
    else return String.ofList name

/-- The characters that cannot stand in a host, for a scheme that is not special. -/
def isForbidden (c : Char) : Bool :=
  "\x00\t\n\r #/:<>?@[\\]^|".toList.contains c

/-- The host of a text, for a scheme that is not special. -/
def parseOpaque (cs : List Char) : Except UrlError String :=
  match cs with
  | '[' :: rest => parseIpv6 rest
  | _ =>
    if cs.any isForbidden then .error .hostCharacter
    else .ok (Text.percentEncodeWhere (fun c => c.toNat < 0x20 || 0x7F ≤ c.toNat) cs)

end Host

end Circulation
