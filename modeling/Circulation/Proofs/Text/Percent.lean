import Circulation.Proofs.Text.Order
import Circulation.Text.Percent

/-!
# Texts read back from their percent-encoding

An encoded text consists of unreserved characters and of percent signs, so it holds none of the marks
that take a request target apart, and it reads back as the text.

## Main definitions

* `Circulation.Text.percentDecodeText?` — the text that an encoded text stands for.
* `Circulation.Text.marks` — the characters that take a request target apart.
* `Circulation.Text.isPlain` — whether a text consists of unreserved characters.

## Main results

* `Circulation.Text.percentDecodeText?_percentEncode` — a text reads back from its encoding.
* `Circulation.Text.not_mem_percentEncode` — an encoding holds no mark.
-/

namespace Circulation.Text

/-- The text that an encoded text stands for, if the bytes that it stands for are one. -/
def percentDecodeText? (cs : List Char) : Option String :=
  (percentDecode cs).bind fun bytes => String.fromUTF8? ⟨bytes.toArray⟩

theorem toNat_ofNat {n : Nat} (h : n < 128) : (Char.ofNat n).toNat = n := by
  have hvalid : n.isValidChar := .inl (by omega)
  rw [Char.ofNat, dif_pos hvalid]
  rfl

/-- The range of the unreserved bytes, and the marks and the percent sign, which are not among them. -/
theorem isUnreserved_toNat {b : UInt8} (h : isUnreserved b = true) :
    b.toNat < 128 ∧ b.toNat ∉ [0x25, 0x26, 0x2F, 0x3D, 0x3F] := by
  simp only [isUnreserved, Bool.or_eq_true, Bool.and_eq_true, decide_eq_true_eq, beq_iff_eq,
    UInt8.le_iff_toNat_le, ← UInt8.toNat_inj, UInt8.reduceToNat] at h
  simp only [List.mem_cons, List.not_mem_nil, or_false]
  omega

theorem hexDigitValue?_upperHexDigit {n : Nat} (h : n < 16) :
    hexDigitValue? (upperHexDigit n) = some n := by
  have hall : ∀ n : Fin 16, hexDigitValue? (upperHexDigit n.val) = some n.val := by decide
  exact hall ⟨n, h⟩

/-! ### Reading back -/

/-- A character that is no percent sign stands for itself. -/
theorem percentDecode_cons {c : Char} (hc : c ≠ '%') (hascii : c.toNat < 128) (cs : List Char) :
    percentDecode (c :: cs) = (percentDecode cs).map (UInt8.ofNat c.toNat :: ·) := by
  rw [percentDecode.eq_3 _ _ fun _ _ _ h _ => hc h, if_neg (not_or.mpr ⟨hc, by omega⟩)]

theorem percentDecode_percentByte (b : UInt8) (cs : List Char) :
    percentDecode (percentByte b ++ cs) = (percentDecode cs).map (b :: ·) := by
  unfold percentByte
  split_ifs with hb
  · obtain ⟨hascii, hmark⟩ := isUnreserved_toNat hb
    have hne : Char.ofNat b.toNat ≠ '%' := by
      intro h
      have hnat := congrArg Char.toNat h
      rw [toNat_ofNat hascii] at hnat
      exact hmark (by simp [hnat])
    rw [List.singleton_append, percentDecode_cons hne (by rwa [toNat_ofNat hascii]),
      toNat_ofNat hascii, UInt8.ofNat_toNat]
  · have hb := b.toNat_lt
    rw [List.cons_append, List.cons_append, List.singleton_append, percentDecode,
      hexDigitValue?_upperHexDigit (by omega), hexDigitValue?_upperHexDigit (by omega)]
    simp only [Option.bind_eq_bind, Option.bind_some, Option.pure_def, Nat.div_add_mod,
      UInt8.ofNat_toNat]
    exact Option.map_eq_bind.symm

theorem percentDecode_flatMap (bytes : List UInt8) :
    percentDecode (bytes.flatMap percentByte) = some bytes := by
  induction bytes with
  | nil => rfl
  | cons b bytes ih => rw [List.flatMap_cons, percentDecode_percentByte, ih, Option.map_some]

/-- **A text reads back** from its encoding. -/
theorem percentDecodeText?_percentEncode (s : String) :
    percentDecodeText? (percentEncode s).toList = some s := by
  rw [percentDecodeText?, percentEncode, String.toList_ofList, percentDecode_flatMap, Option.bind_some,
    toList_eq_data, Array.toArray_toList]
  exact dif_pos s.isValidUTF8

/-! ### Marks -/

/-- The marks that take a request target apart. -/
def marks : List Char :=
  ['/', '?', '&', '=']

theorem not_mem_percentByte {c : Char} (hc : c ∈ marks) (b : UInt8) :
    c ∉ percentByte b := by
  unfold percentByte
  split_ifs with hb
  · obtain ⟨hascii, hmark⟩ := isUnreserved_toNat hb
    intro h
    obtain rfl := List.mem_singleton.mp h
    have hmarks : marks.all (fun c => [0x25, 0x26, 0x2F, 0x3D, 0x3F].contains c.toNat) = true := by
      decide
    have hmem := List.contains_iff_mem.mp (List.all_eq_true.mp hmarks _ hc)
    exact hmark (toNat_ofNat hascii ▸ hmem)
  · have hb := b.toNat_lt
    have hdigits : ∀ n : Fin 16, upperHexDigit n.val ∉ marks := by decide
    simp only [List.mem_cons, List.not_mem_nil, or_false]
    rintro (rfl | rfl | rfl)
    · exact absurd hc (by decide)
    · exact hdigits ⟨b.toNat / 16, by omega⟩ hc
    · exact hdigits ⟨b.toNat % 16, by omega⟩ hc

/-- **An encoding holds no mark** that takes a target apart. -/
theorem not_mem_percentEncode {c : Char} (hc : c ∈ marks) (s : String) :
    c ∉ (percentEncode s).toList := by
  rw [percentEncode, String.toList_ofList, List.mem_flatMap]
  rintro ⟨b, -, hmem⟩
  exact not_mem_percentByte hc b hmem

/-! ### Texts that stand for themselves -/

/-- Whether a text consists of ASCII letters and digits and of `-`, `.`, `_` and `~`. -/
def isPlain (s : String) : Bool :=
  s.toList.all fun c => decide (c.toNat < 128) && isUnreserved (UInt8.ofNat c.toNat)

/-- A plain text is its own encoding. -/
theorem percentEncode_eq_self {s : String} (h : isPlain s = true) : percentEncode s = s := by
  have hchar : ∀ c ∈ s.toList, (String.utf8EncodeChar c).flatMap percentByte = [c] := by
    intro c hc
    obtain ⟨hascii, hc⟩ : c.toNat < 128 ∧ isUnreserved (UInt8.ofNat c.toNat) = true := by
      simpa using List.all_eq_true.mp h c hc
    have hbyte : String.utf8EncodeChar c = [UInt8.ofNat c.toNat] := if_pos (Nat.le_of_lt_succ hascii)
    have hnat : (UInt8.ofNat c.toNat).toNat = c.toNat :=
      UInt8.toNat_ofNat_of_lt' (Nat.lt_trans hascii (by decide))
    rw [hbyte, List.flatMap_singleton, percentByte, if_pos hc, hnat, Char.ofNat_toNat]
  have hchars : s.toList.flatMap (fun c => (String.utf8EncodeChar c).flatMap percentByte) =
      s.toList.flatMap fun c => [c] :=
    List.flatMap_congr hchar
  rw [percentEncode, ← utf8, utf8_eq_flatMap, List.flatMap_assoc, hchars, List.flatMap_singleton',
    String.ofList_toList]

end Circulation.Text
