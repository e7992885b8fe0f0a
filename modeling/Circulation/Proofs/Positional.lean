import Mathlib.Data.Nat.Digits.Defs
import Circulation.Proofs.Decimal
import Circulation.Proofs.Lcd.Answer

/-!
# Amounts as positional numerals

An amount is read from a run of digits, blanks around it aside, and is the sum of its digits, each
times the power of 10 of its place. Written amounts are read as themselves. A numeral is a decimal
numeral too, with or without a point and digits after it, and its whole units are the amount.

## Main definitions

* `Circulation.Numeral.IsNumeral` — the numerals without a sign or a point.
* `Circulation.Numeral.positional` — the number that a numeral denotes by its places.

## Main results

* `Circulation.Numeral.ofDigits_eq_positional` — the number is read from the left as it is denoted from
  the right.
* `Circulation.Amount.parse_eq_positional` — what is read from any text, and what is read back.
-/

namespace Circulation

namespace Numeral

/-- The numerals: digits, and at least one. -/
def IsNumeral (cs : List Char) : Prop :=
  cs ≠ [] ∧ ∀ c ∈ cs, c.isDigit = true

instance (cs : List Char) : Decidable (IsNumeral cs) :=
  decidable_of_iff (cs ≠ [] ∧ cs.all Char.isDigit = true) (by rw [IsNumeral, List.all_eq_true])

/-- The number that a numeral denotes: every digit counts for the power of 10 of its place, the last
one for itself. -/
def positional (cs : List Char) : Nat :=
  Nat.ofDigits 10 (cs.reverse.map digitValue)

/-- A numeral is read from the left, digit by digit, and its places are counted from the right. -/
theorem ofDigits_eq_positional (ds : List Char) : ofDigits ds = positional ds := by
  induction ds using List.reverseRecOn with
  | nil => rfl
  | append_singleton ds d ih =>
    rw [ofDigits_concat, ih, positional, positional, List.reverse_concat, List.map_cons,
      Nat.ofDigits_cons, Nat.add_comm]

end Numeral

namespace Amount

open Numeral

variable {s : String}

theorem parse_of_isNumeral (h : IsNumeral (Text.trimChars s.toList)) :
    parse s = .ok (positional (Text.trimChars s.toList)) := by
  simp only [parse, natural?_of_digits h.1 h.2, ofDigits_eq_positional]

theorem parse_of_not_isNumeral (h : ¬IsNumeral (Text.trimChars s.toList)) :
    parse s = .error (.amount (Text.trim s)) := by
  have hnone : natural? (Text.trimChars s.toList) = none :=
    if_neg fun hall => h ⟨hall.1, List.all_eq_true.mp hall.2⟩
  simp only [parse, hnone, Text.trim]

theorem parse_eq_ok_iff {n : Nat} :
    parse s = .ok n ↔
      IsNumeral (Text.trimChars s.toList) ∧ n = positional (Text.trimChars s.toList) := by
  by_cases h : IsNumeral (Text.trimChars s.toList)
  · rw [parse_of_isNumeral h, Except.ok.injEq, eq_comm]
    exact (and_iff_right h).symm
  · rw [parse_of_not_isNumeral h]
    exact iff_of_false nofun fun hs => h hs.1

/-! ### Whole units -/

theorem floor_of_isNumeral (h : IsNumeral (Text.trimChars s.toList)) :
    floor s = .ok (positional (Text.trimChars s.toList)) := by
  rw [floor_of_not_mem (not_mem_of_digits h.2), if_pos ⟨h.1, List.all_eq_true.mpr h.2⟩,
    ofDigits_eq_positional]

/-- Digits after a point make no difference. -/
theorem floor_append_point (h : IsNumeral (Text.trimChars s.toList)) {fraction : String}
    (hfraction : ∀ c ∈ fraction.toList, c.isDigit = true) :
    floor (Text.trim s ++ "." ++ fraction) = .ok (positional (Text.trimChars s.toList)) := by
  have htext : (Text.trim s ++ "." ++ fraction).toList =
      Text.trimChars s.toList ++ '.' :: fraction.toList := by
    rw [String.toList_append, String.toList_append, Text.trim, String.toList_ofList, List.append_assoc]
    rfl
  have htrim : Text.trimChars (Text.trim s ++ "." ++ fraction).toList =
      Text.trimChars s.toList ++ '.' :: fraction.toList := by
    rw [htext]
    refine Text.trimChars_of_forall_not_isBlank fun c hc => ?_
    rcases List.mem_append.mp hc with hc | hc
    · exact Instant.isBlank_of_isDigit (h.2 c hc)
    · rcases List.mem_cons.mp hc with rfl | hc
      · decide
      · exact Instant.isBlank_of_isDigit (hfraction c hc)
  rw [floor_of_append htrim (not_mem_of_digits h.2),
    if_pos ⟨List.all_eq_true.mpr h.2, List.all_eq_true.mpr hfraction⟩, ofDigits_eq_positional]

/-- **Amounts are read exactly.** A text that is, without the blanks around it, a numeral yields the
number that it denotes, and every other text is refused, with an error that repeats it without the
blanks. A written number is read as itself. And of a text from which an amount is read, with or without
a point and digits after it, that amount is the whole units. -/
theorem parse_eq_positional (s : String) :
    (parse s =
      if IsNumeral (Text.trimChars s.toList) then .ok (positional (Text.trimChars s.toList))
      else .error (.amount (Text.trim s))) ∧
    (∀ n : Nat, parse (toString n) = .ok n) ∧
    ∀ n, parse s = .ok n → floor s = .ok n ∧
      ∀ fraction : String, (∀ c ∈ fraction.toList, c.isDigit = true) →
        floor (Text.trim s ++ "." ++ fraction) = .ok n := by
  refine ⟨?_, Lcd.ChainState.parse_toString, fun n hn => ?_⟩
  · by_cases h : IsNumeral (Text.trimChars s.toList)
    · rw [parse_of_isNumeral h, if_pos h]
    · rw [parse_of_not_isNumeral h, if_neg h]
  · obtain ⟨hs, rfl⟩ := parse_eq_ok_iff.mp hn
    exact ⟨floor_of_isNumeral hs, fun fraction hfraction => floor_append_point hs hfraction⟩

/-- Leading zeros, and a blank of another script. -/
theorem parse_eq_positional_blank :
    parse " 0042\u2003" = .ok 42 ∧ (∀ c ∈ "75".toList, c.isDigit = true) ∧
      floor " 0042\u2003" = .ok 42 ∧ floor (Text.trim " 0042\u2003" ++ "." ++ "75") = .ok 42 := by
  have hparse : parse " 0042\u2003" = .ok 42 := by decide
  have hdigits : ∀ c ∈ "75".toList, c.isDigit = true := List.all_eq_true.mp (by decide)
  obtain ⟨-, -, hfloor⟩ := parse_eq_positional " 0042\u2003"
  exact ⟨hparse, hdigits, (hfloor 42 hparse).1, (hfloor 42 hparse).2 "75" hdigits⟩

end Amount

end Circulation
