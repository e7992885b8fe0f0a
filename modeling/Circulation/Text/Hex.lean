/-!
# Base 16

Digits of base 16 and the written form of bytes: two lower-case digits for each byte.

## Main definitions

* `Circulation.Text.hexDigitValue?` — the value of a digit of either case.
* `Circulation.Text.lowerHexDigit`, `Circulation.Text.upperHexDigit` — the digit of a value.
* `Circulation.Text.hexEncode`, `Circulation.Text.hexDecode?` — bytes and their written form.
-/

namespace Circulation.Text

/-- The value of a digit of base 16 in either case. -/
def hexDigitValue? (c : Char) : Option Nat :=
  if '0' ≤ c ∧ c ≤ '9' then some (c.toNat - '0'.toNat)
  else if 'a' ≤ c ∧ c ≤ 'f' then some (c.toNat - 'a'.toNat + 10)
  else if 'A' ≤ c ∧ c ≤ 'F' then some (c.toNat - 'A'.toNat + 10)
  else none

/-- The lower-case digit of a value below 16. -/
def lowerHexDigit (n : Nat) : Char :=
  if n < 10 then Char.ofNat (0x30 + n) else Char.ofNat (0x57 + n)

/-- The upper-case digit of a value below 16. -/
def upperHexDigit (n : Nat) : Char :=
  if n < 10 then Char.ofNat (0x30 + n) else Char.ofNat (0x37 + n)

/-- Bytes as two lower-case digits each. -/
def hexEncode (bytes : List UInt8) : String :=
  String.ofList (bytes.flatMap fun b => [lowerHexDigit (b.toNat / 16), lowerHexDigit (b.toNat % 16)])

/-- The bytes that pairs of digits stand for, if the text consists of such pairs. -/
def hexDecode? : List Char → Option (List UInt8)
  | [] => some []
  | a :: b :: rest => do
    let high ← hexDigitValue? a
    let low ← hexDigitValue? b
    return UInt8.ofNat (16 * high + low) :: (← hexDecode? rest)
  | [_] => none

/-- Every byte reads back from its two digits. -/
theorem hexDecode?_hexEncode (bytes : List UInt8) :
    hexDecode? (hexEncode bytes).toList = some bytes := by
  have digit : ∀ n : Fin 16, hexDigitValue? (lowerHexDigit n.val) = some n.val := by decide
  have digit' : ∀ n, n < 16 → hexDigitValue? (lowerHexDigit n) = some n :=
    fun n h => digit ⟨n, h⟩
  unfold hexEncode
  rw [String.toList_ofList]
  induction bytes with
  | nil => rfl
  | cons b bytes ih =>
    have hb := b.toNat_lt
    simp only [List.flatMap_cons, List.cons_append, List.nil_append, hexDecode?]
    rw [digit' _ (by omega), digit' _ (by omega), ih]
    simp only [Option.bind_eq_bind, Option.bind_some, Option.pure_def, Nat.div_add_mod]
    simp

end Circulation.Text
