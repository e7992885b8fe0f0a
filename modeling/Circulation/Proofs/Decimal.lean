import Mathlib.Algebra.Order.Floor.Semifield
import Mathlib.Data.List.TakeWhile
import Mathlib.Data.Rat.Floor
import Circulation.Amount
import Circulation.Proofs.Numeral

/-!
# Whole units of decimal numerals

A decimal numeral is a run of digits with at most one point before, among or after them. Its whole
units are the floor of the number that it denotes, since the digits after the point are together
less than one unit. The whole units are read from every decimal numeral, and from one more text, a
point without digits, which counts as no units; every other text is refused.

## Main definitions

* `Circulation.Numeral.IsDecimal` — the decimal numerals.
* `Circulation.Numeral.decimalOf` — the number that a decimal numeral denotes.

## Main results

* `Circulation.Numeral.floor_decimalOf_append` — the floor of the number is what stands before the
  point.
* `Circulation.Amount.floor_eq_floor_decimalOf` — what is read from any text.
-/

namespace Circulation

namespace Numeral

/-- The decimal numerals: digits with at most one point among them, and at least one digit. -/
def IsDecimal (cs : List Char) : Prop :=
  (∀ c ∈ cs, c.isDigit = true ∨ c = '.') ∧ cs.count '.' ≤ 1 ∧ ∃ c ∈ cs, c.isDigit = true

instance (cs : List Char) : Decidable (IsDecimal cs) :=
  decidable_of_iff (cs.all (fun c => c.isDigit || c == '.') = true ∧ cs.count '.' ≤ 1 ∧
    cs.any Char.isDigit = true) (by simp [IsDecimal])

/-- The count of digits after the point. -/
def places (cs : List Char) : Nat :=
  ((cs.dropWhile (· != '.')).filter Char.isDigit).length

/-- The number that a decimal numeral denotes: that of all its digits, divided by 10 once for every
digit after the point. -/
def decimalOf (cs : List Char) : ℚ :=
  (ofDigits (cs.filter Char.isDigit) : ℚ) / (10 ^ places cs : Nat)

variable {cs ds es : List Char}

theorem not_mem_of_digits (h : ∀ d ∈ ds, d.isDigit = true) : '.' ∉ ds :=
  fun hpoint => absurd (h '.' hpoint) (by decide)

theorem bne_of_not_mem (h : '.' ∉ ds) : ∀ d ∈ ds, (d != '.') = true := by
  rintro d hd
  exact bne_iff_ne.mpr (ne_of_mem_of_not_mem hd h)

theorem dropWhile_of_not_mem (h : '.' ∉ ds) : ds.dropWhile (· != '.') = [] :=
  List.dropWhile_eq_nil_iff.mpr (bne_of_not_mem h)

theorem dropWhile_append_point (h : '.' ∉ ds) :
    (ds ++ '.' :: es).dropWhile (· != '.') = '.' :: es := by
  rw [List.dropWhile_append_of_pos (bne_of_not_mem h)]
  rfl

/-! ### Numerals without a point -/

theorem isDecimal_iff_of_not_mem (h : '.' ∉ cs) :
    IsDecimal cs ↔ cs ≠ [] ∧ ∀ c ∈ cs, c.isDigit = true := by
  constructor
  · rintro ⟨hall, -, c, hc, -⟩
    exact ⟨List.ne_nil_of_mem hc, fun d hd =>
      (hall d hd).resolve_right fun hpoint => h (hpoint ▸ hd)⟩
  · rintro ⟨hne, hdigits⟩
    obtain ⟨c, hc⟩ := List.exists_mem_of_ne_nil cs hne
    exact ⟨fun d hd => .inl (hdigits d hd), by rw [List.count_eq_zero_of_not_mem h]; omega,
      c, hc, hdigits c hc⟩

theorem floor_decimalOf_digits (h : ∀ d ∈ ds, d.isDigit = true) :
    ⌊decimalOf ds⌋₊ = ofDigits ds := by
  have hplaces : places ds = 0 := by
    rw [places, dropWhile_of_not_mem (not_mem_of_digits h)]
    rfl
  rw [decimalOf, hplaces, List.filter_eq_self.mpr h, Nat.floor_div_eq_div, Nat.pow_zero, Nat.div_one]

/-! ### Numerals with a point -/

theorem isDecimal_append_iff (h : '.' ∉ ds) :
    IsDecimal (ds ++ '.' :: es) ↔
      ((∀ d ∈ ds, d.isDigit = true) ∧ ∀ e ∈ es, e.isDigit = true) ∧ ds ++ es ≠ [] := by
  have hcount : (ds ++ '.' :: es).count '.' = es.count '.' + 1 := by
    rw [List.count_append, List.count_eq_zero_of_not_mem h, List.count_cons_self, Nat.zero_add]
  constructor
  · rintro ⟨hall, hone, c, hc, hdigit⟩
    have hrest : '.' ∉ es := List.count_eq_zero.mp (by omega)
    refine ⟨⟨fun d hd => ?_, fun e he => ?_⟩, ?_⟩
    · exact (hall d (by simp [hd])).resolve_right fun hpoint => h (hpoint ▸ hd)
    · exact (hall e (by simp [he])).resolve_right fun hpoint => hrest (hpoint ▸ he)
    · have hne : c ≠ '.' := fun hpoint => absurd (hpoint ▸ hdigit) (by decide)
      have hc : c ∈ ds ++ es := by simpa [hne] using hc
      exact List.ne_nil_of_mem hc
  · rintro ⟨⟨hds, hes⟩, hne⟩
    obtain ⟨c, hc⟩ := List.exists_mem_of_ne_nil _ hne
    have hdigit : c.isDigit = true := (List.mem_append.mp hc).elim (hds c) (hes c)
    refine ⟨fun d hd => ?_, ?_, c, ?_, hdigit⟩
    · rcases List.mem_append.mp hd with hd | hd
      · exact .inl (hds d hd)
      · exact (List.mem_cons.mp hd).elim .inr fun hd => .inl (hes d hd)
    · rw [hcount, List.count_eq_zero_of_not_mem (not_mem_of_digits hes)]
    · rcases List.mem_append.mp hc with hc | hc <;> simp [hc]

/-- The digits after the point are less than one unit, so that the floor is the number before it. -/
theorem floor_decimalOf_append (hds : ∀ d ∈ ds, d.isDigit = true)
    (hes : ∀ e ∈ es, e.isDigit = true) : ⌊decimalOf (ds ++ '.' :: es)⌋₊ = ofDigits ds := by
  have hdigits : (ds ++ '.' :: es).filter Char.isDigit = ds ++ es := by
    rw [List.filter_append, List.filter_eq_self.mpr hds,
      List.filter_cons_of_neg (show ¬Char.isDigit '.' = true by decide), List.filter_eq_self.mpr hes]
  have hplaces : places (ds ++ '.' :: es) = es.length := by
    rw [places, dropWhile_append_point (not_mem_of_digits hds),
      List.filter_cons_of_neg (show ¬Char.isDigit '.' = true by decide), List.filter_eq_self.mpr hes]
  have hfraction : ofDigits es / 10 ^ es.length = 0 := Nat.div_eq_of_lt (ofDigits_lt hes)
  have hunits : ofDigits (ds ++ es) / 10 ^ es.length = ofDigits ds := by
    rw [ofDigits_append, Nat.mul_comm, Nat.mul_add_div (Nat.pow_pos (by decide)), hfraction,
      Nat.add_zero]
  rw [decimalOf, hdigits, hplaces, Nat.floor_div_eq_div, hunits]

end Numeral

namespace Amount

open Numeral

variable {s : String} {ds es : List Char}

/-! ### Reading -/

theorem splitPoint_of_not_mem (h : '.' ∉ ds) : splitPoint ds = (ds, []) := by
  rw [splitPoint, List.takeWhile_eq_self_iff.mpr (bne_of_not_mem h), dropWhile_of_not_mem h]
  rfl

theorem splitPoint_append (h : '.' ∉ ds) : splitPoint (ds ++ '.' :: es) = (ds, es) := by
  rw [splitPoint, List.takeWhile_append_of_pos (bne_of_not_mem h), dropWhile_append_point h,
    List.takeWhile_cons_of_neg (by decide), List.append_nil]
  rfl

theorem floor_of_not_mem (h : '.' ∉ Text.trimChars s.toList) :
    floor s =
      if Text.trimChars s.toList ≠ [] ∧ (Text.trimChars s.toList).all Char.isDigit = true then
        .ok (ofDigits (Text.trimChars s.toList))
      else .error (.decimal (Text.trim s)) := by
  simp only [floor, Text.trim, splitPoint_of_not_mem h, List.all_nil, and_true]

theorem floor_of_append (hs : Text.trimChars s.toList = ds ++ '.' :: es) (h : '.' ∉ ds) :
    floor s =
      if ds.all Char.isDigit = true ∧ es.all Char.isDigit = true then .ok (ofDigits ds)
      else .error (.decimal (Text.trim s)) := by
  have hne : ds ++ '.' :: es ≠ [] := List.append_ne_nil_of_right_ne_nil _ (List.cons_ne_nil _ _)
  simp only [floor, Text.trim, hs, splitPoint_append h, hne, ne_eq, not_false_eq_true, true_and]

/-- A decimal numeral yields the floor of the number that it denotes. -/
theorem floor_of_isDecimal (h : IsDecimal (Text.trimChars s.toList)) :
    floor s = .ok ⌊decimalOf (Text.trimChars s.toList)⌋₊ := by
  by_cases hpoint : '.' ∈ Text.trimChars s.toList
  · obtain ⟨ds, es, hs, hds⟩ := List.eq_append_cons_of_mem hpoint
    have hdigits := ((isDecimal_append_iff hds).mp (hs ▸ h)).1
    rw [floor_of_append hs hds, if_pos (by simpa only [List.all_eq_true] using hdigits), hs,
      floor_decimalOf_append hdigits.1 hdigits.2]
  · have hdigits := (isDecimal_iff_of_not_mem hpoint).mp h
    rw [floor_of_not_mem hpoint, if_pos (by simpa only [List.all_eq_true] using hdigits),
      floor_decimalOf_digits hdigits.2]

/-- Of the texts that are no decimal numerals, only a point without digits is not refused. -/
theorem floor_of_not_isDecimal (h : ¬IsDecimal (Text.trimChars s.toList)) :
    floor s =
      if Text.trimChars s.toList = ['.'] then .ok 0 else .error (.decimal (Text.trim s)) := by
  by_cases hpoint : '.' ∈ Text.trimChars s.toList
  · obtain ⟨ds, es, hs, hds⟩ := List.eq_append_cons_of_mem hpoint
    rw [hs, isDecimal_append_iff hds, not_and_or, not_not] at h
    rw [floor_of_append hs hds, hs]
    rcases h with hdigits | hnil
    · rw [if_neg (by simpa only [List.all_eq_true] using hdigits), if_neg]
      rintro hsole
      have hlength := congrArg List.length hsole
      simp only [List.length_append, List.length_cons, List.length_nil] at hlength
      obtain rfl : ds = [] := List.eq_nil_of_length_eq_zero (by omega)
      obtain rfl : es = [] := List.eq_nil_of_length_eq_zero (by omega)
      exact hdigits ⟨by simp, by simp⟩
    · obtain ⟨rfl, rfl⟩ := List.append_eq_nil_iff.mp hnil
      rw [if_pos ⟨rfl, rfl⟩, if_pos (List.nil_append _)]
      rfl
  · have hne : Text.trimChars s.toList ≠ ['.'] := fun hsole => hpoint (by simp [hsole])
    rw [isDecimal_iff_of_not_mem hpoint] at h
    rw [floor_of_not_mem hpoint, if_neg (by simpa only [List.all_eq_true] using h), if_neg hne]

/-- A numeral that begins with its point denotes less than one unit. -/
theorem floor_decimalOf_of_head? {cs : List Char} (h : IsDecimal cs) (hhead : cs.head? = some '.') :
    ⌊decimalOf cs⌋₊ = 0 := by
  obtain ⟨es, rfl⟩ := List.head?_eq_some_iff.mp hhead
  have hes := ((@isDecimal_append_iff [] es List.not_mem_nil).mp h).1.2
  exact @floor_decimalOf_append [] es (by simp) hes

/-- **The whole units are read from the decimal numerals.** A text that is, without the blanks around
it, a decimal numeral yields the floor of the number that it denotes, which is 0 where nothing stands
before the point. A point without digits, which denotes nothing, yields 0 as well. Every other text
is refused, and the error repeats it without the blanks. -/
theorem floor_eq_floor_decimalOf (s : String) :
    floor s =
        (if IsDecimal (Text.trimChars s.toList) then .ok ⌊decimalOf (Text.trimChars s.toList)⌋₊
        else if Text.trimChars s.toList = ['.'] then .ok 0
        else .error (.decimal (Text.trim s))) ∧
      (IsDecimal (Text.trimChars s.toList) → (Text.trimChars s.toList).head? = some '.' →
        ⌊decimalOf (Text.trimChars s.toList)⌋₊ = 0) := by
  refine ⟨?_, floor_decimalOf_of_head?⟩
  by_cases h : IsDecimal (Text.trimChars s.toList)
  · rw [floor_of_isDecimal h, if_pos h]
  · rw [floor_of_not_isDecimal h, if_neg h]

/-- A numeral without whole digits. -/
theorem floor_eq_floor_decimalOf_half :
    IsDecimal (Text.trimChars ".5".toList) ∧ (Text.trimChars ".5".toList).head? = some '.' ∧
      ⌊decimalOf (Text.trimChars ".5".toList)⌋₊ = 0 := by
  have hdecimal : IsDecimal (Text.trimChars ".5".toList) := by decide
  exact ⟨hdecimal, by decide, (floor_eq_floor_decimalOf ".5").2 hdecimal (by decide)⟩

/-- A point is no decimal numeral, and yet its whole units are read. -/
theorem not_floor_point_eq_error :
    ¬IsDecimal (Text.trimChars ".".toList) ∧ floor "." = .ok 0 ∧
      floor "." ≠ .error (.decimal (Text.trim ".")) := by
  decide

end Amount

end Circulation
