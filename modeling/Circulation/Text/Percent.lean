import Circulation.Text.Hex

/-!
# Percent-encoding

A text as a part of a request target: the unreserved characters (letters, digits, `-`, `.`, `_`
and `~`) stand for themselves and every other byte of the UTF-8 form is written `%XX` in upper-case
base 16. No other character occurs in the result, so an encoded text cannot end the path segment or
the query value that holds it.

## Main definitions

* `Circulation.Text.isUnreserved` — the bytes that stand for themselves.
* `Circulation.Text.percentEncode` — the encoded form of a text.
* `Circulation.Text.percentEncodeWhere` — a text with chosen characters encoded.
* `Circulation.Text.percentDecode` — the bytes that an encoded form stands for.
-/

namespace Circulation.Text

/-- The bytes of the ASCII letters and digits and of `-`, `.`, `_` and `~`. -/
def isUnreserved (b : UInt8) : Bool :=
  (0x30 ≤ b && b ≤ 0x39) || (0x41 ≤ b && b ≤ 0x5A) || (0x61 ≤ b && b ≤ 0x7A) ||
    b == 0x2D || b == 0x2E || b == 0x5F || b == 0x7E

/-- The encoded form of one byte. -/
def percentByte (b : UInt8) : List Char :=
  if isUnreserved b then
    [Char.ofNat b.toNat]
  else
    ['%', upperHexDigit (b.toNat / 16), upperHexDigit (b.toNat % 16)]

/-- The encoded form of a text: the encoded bytes of its UTF-8 form. -/
def percentEncode (s : String) : String :=
  String.ofList (s.toUTF8.toList.flatMap percentByte)

/-- A text in which the bytes of the characters that `encoded` names are written `%XX`. -/
def percentEncodeWhere (encoded : Char → Bool) (cs : List Char) : String :=
  String.ofList <| cs.flatMap fun c =>
    if encoded c then
      (String.singleton c).toUTF8.toList.flatMap fun b =>
        ['%', upperHexDigit (b.toNat / 16), upperHexDigit (b.toNat % 16)]
    else [c]

/-- The bytes that an encoded text stands for: `%XX` is one byte, and any other ASCII character
stands for itself. -/
def percentDecode : List Char → Option (List UInt8)
  | [] => some []
  | '%' :: a :: b :: rest => do
    let high ← hexDigitValue? a
    let low ← hexDigitValue? b
    return UInt8.ofNat (16 * high + low) :: (← percentDecode rest)
  | c :: rest =>
    if c = '%' ∨ 0x80 ≤ c.toNat then none
    else (percentDecode rest).map (UInt8.ofNat c.toNat :: ·)

end Circulation.Text
