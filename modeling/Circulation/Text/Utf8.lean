/-!
# UTF-8 with errors

Bytes as a text. Where the bytes are not UTF-8, every longest part of a character stands for the
replacement character `U+FFFD`, and so does every byte that begins no character.

## Main definitions

* `Circulation.Text.decodeUtf8` — the characters of bytes.
-/

namespace Circulation.Text

/-- The replacement character. -/
def replacement : Char := Char.ofNat 0xFFFD

/-- The form of a character by its first byte: the number of further bytes, the least and the
greatest second byte, and the bits of the first byte that count. -/
structure Lead where
  more : Nat
  low : Nat
  high : Nat
  bits : Nat

/-- The form of the character that a byte begins, if it begins one of several bytes. -/
def lead? (b : Nat) : Option Lead :=
  if 0xC2 ≤ b ∧ b ≤ 0xDF then some ⟨1, 0x80, 0xBF, b - 0xC0⟩
  else if b = 0xE0 then some ⟨2, 0xA0, 0xBF, 0⟩
  else if b = 0xED then some ⟨2, 0x80, 0x9F, 13⟩
  else if 0xE1 ≤ b ∧ b ≤ 0xEF then some ⟨2, 0x80, 0xBF, b - 0xE0⟩
  else if b = 0xF0 then some ⟨3, 0x90, 0xBF, 0⟩
  else if 0xF1 ≤ b ∧ b ≤ 0xF3 then some ⟨3, 0x80, 0xBF, b - 0xF0⟩
  else if b = 0xF4 then some ⟨3, 0x80, 0x8F, 4⟩
  else none

/-- What the decoder is in the middle of: the characters so far, the last first, and the form of the
character in progress. -/
structure Decoding where
  chars : List Char := []
  pending : Option Lead := none

/-- The decoder between two characters, at a byte. -/
def Decoding.begin (d : Decoding) (b : Nat) : Decoding :=
  if b < 0x80 then { chars := Char.ofNat b :: d.chars }
  else
    match lead? b with
    | some lead => { chars := d.chars, pending := some lead }
    | none => { chars := replacement :: d.chars }

/-- The decoder after a byte. -/
def Decoding.step (d : Decoding) (byte : UInt8) : Decoding :=
  let b := byte.toNat
  match d.pending with
  | none => d.begin b
  | some lead =>
    if lead.low ≤ b ∧ b ≤ lead.high then
      let bits := 64 * lead.bits + (b - 0x80)
      if lead.more ≤ 1 then { chars := Char.ofNat bits :: d.chars }
      else { d with pending := some ⟨lead.more - 1, 0x80, 0xBF, bits⟩ }
    else Decoding.begin { chars := replacement :: d.chars } b

/-- The characters of bytes. -/
def decodeUtf8 (bytes : List UInt8) : List Char :=
  let d := bytes.foldl Decoding.step {}
  (if d.pending.isSome then replacement :: d.chars else d.chars).reverse

end Circulation.Text
