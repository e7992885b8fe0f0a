import Mathlib.Algebra.Group.Nat.Defs
import Mathlib.Data.List.Induction
import Mathlib.Tactic.Ring
import Circulation.Numeral

/-!
# Written numerals

Every number has one written numeral: digits only, and no leading zero but in `0` itself. The
numeral determines the number.

## Main definitions

* `Circulation.Numeral.IsCanonical` — the form of a written numeral.
* `Circulation.Numeral.value` — the number that a numeral denotes.
* `Circulation.Numeral.IsIntegerText` — the numerals of an integer.

## Main results

* `Circulation.Numeral.isCanonical_toString`, `Circulation.Numeral.value_toString` — a number is
  written in this form, and its numeral denotes it.
* `Circulation.Numeral.ofDigits_append` — the number of two runs of digits, one after the other.
* `Circulation.Numeral.ofDigits_lt` — the length of a numeral bounds the number.
* `Circulation.Numeral.toString_int_inj` — an integer is determined by how it is written.
-/

namespace Circulation.Numeral

/-- A written numeral: digits only, and no leading zero but in `0` itself. -/
def IsCanonical (s : String) : Prop :=
  s ≠ "" ∧ (∀ c ∈ s.toList, c.isDigit = true) ∧ (s.toList.head? = some '0' → s = "0")

/-- The number that a numeral denotes. -/
def value (s : String) : Nat :=
  ofDigits s.toList

theorem toList_toString (n : Nat) : (toString n).toList = Nat.toDigits 10 n := by
  rw [Nat.toString_eq_repr, Nat.toList_repr]

@[simp]
theorem value_toString (n : Nat) : value (toString n) = n := by
  rw [value, toList_toString]
  exact Nat.ofDigitChars_ten_toDigits

/-- The numeral of a positive number does not begin with a zero: below ten it is a single digit, and
above it begins as the numeral of the tenth part does. -/
theorem head?_toDigits_ne_zero (n : Nat) (hn : 0 < n) :
    (Nat.toDigits 10 n).head? ≠ some '0' := by
  induction n using Nat.strongRecOn with
  | _ n ih =>
    by_cases h : n < 10
    · rw [Nat.toDigits_of_lt_base h, List.head?_cons]
      intro hzero
      have hdigit : n.digitChar = '0' := Option.some.inj hzero
      rw [Nat.digitChar_eq_zero] at hdigit
      omega
    · rw [Nat.toDigits_of_base_le (by decide) (by omega), List.head?_append]
      intro hzero
      rcases Option.or_eq_some_iff.mp hzero with hzero | ⟨hnone, -⟩
      · exact ih (n / 10) (by omega) (by omega) hzero
      · exact Nat.toDigits_ne_nil (List.head?_eq_none_iff.mp hnone)

theorem isCanonical_toString (n : Nat) : IsCanonical (toString n) := by
  refine ⟨?_, ?_, ?_⟩
  · rw [Nat.toString_eq_repr]
    exact Nat.repr_ne_empty
  · intro c hc
    rw [toList_toString] at hc
    exact Nat.isDigit_of_mem_toDigits (by decide) (by decide) hc
  · intro hhead
    rw [toList_toString] at hhead
    have hn : n = 0 := Nat.eq_zero_of_not_pos fun hpos => head?_toDigits_ne_zero n hpos hhead
    rw [hn]
    rfl

theorem digitValue_le_nine {c : Char} (h : c.isDigit = true) : digitValue c ≤ 9 := by
  simp only [Char.isDigit, Bool.and_eq_true, decide_eq_true_eq, ge_iff_le,
    UInt32.le_iff_toNat_le] at h
  have hhigh : c.toNat ≤ 57 := h.2
  simp only [digitValue]
  have hzero : '0'.toNat = 48 := rfl
  omega

theorem ofDigits_concat (ds : List Char) (d : Char) :
    ofDigits (ds ++ [d]) = 10 * ofDigits ds + digitValue d := by
  rw [ofDigits, List.foldl_append]
  rfl

/-- The first of two runs of digits counts for the power of 10 of the other's length. -/
theorem ofDigits_append (ds es : List Char) :
    ofDigits (ds ++ es) = ofDigits ds * 10 ^ es.length + ofDigits es := by
  induction es using List.reverseRecOn with
  | nil => simp [ofDigits]
  | append_singleton es e ih =>
    rw [← List.append_assoc, ofDigits_concat, ofDigits_concat, ih, List.length_append,
      List.length_singleton, Nat.pow_succ]
    ring

/-- A numeral denotes a number below the power of 10 of its length. -/
theorem ofDigits_lt {ds : List Char} (h : ∀ d ∈ ds, d.isDigit = true) :
    ofDigits ds < 10 ^ ds.length := by
  induction ds using List.reverseRecOn with
  | nil => decide
  | append_singleton ds d ih =>
    have hinit := ih fun c hc => h c (List.mem_append_left _ hc)
    have hlast := digitValue_le_nine (h d (by simp))
    rw [ofDigits_concat, List.length_append, List.length_singleton, Nat.pow_succ]
    omega

/-! ### Integers -/

/-- The numerals of an integer: its digits, after a hyphen if it is negative. -/
inductive IsIntegerText : Int → List Char → Prop
  | natural {ds : List Char} (hne : ds ≠ []) (hdigits : ∀ d ∈ ds, d.isDigit = true) :
      IsIntegerText (ofDigits ds) ds
  | negative {ds : List Char} (hne : ds ≠ []) (hdigits : ∀ d ∈ ds, d.isDigit = true) :
      IsIntegerText (-(ofDigits ds : Int)) ('-' :: ds)

theorem natural?_of_digits {ds : List Char} (hne : ds ≠ []) (hdigits : ∀ d ∈ ds, d.isDigit = true) :
    natural? ds = some (ofDigits ds) :=
  if_pos ⟨hne, List.all_eq_true.mpr hdigits⟩

namespace IsIntegerText

variable {n : Int} {cs : List Char}

theorem ne_nil (h : IsIntegerText n cs) : cs ≠ [] := by
  cases h with
  | natural hne _ => exact hne
  | negative _ _ => exact List.cons_ne_nil _ _

theorem integer? (h : IsIntegerText n cs) : Numeral.integer? cs = some n := by
  cases h with
  | @natural ds hne hdigits =>
    unfold Numeral.integer?
    split
    · exact absurd (hdigits '+' List.mem_cons_self) (by decide)
    · exact absurd (hdigits '-' List.mem_cons_self) (by decide)
    · rw [natural?_of_digits hne hdigits]
      rfl
  | negative hne hdigits =>
    rw [Numeral.integer?, natural?_of_digits hne hdigits]
    rfl

theorem int64? (h : IsIntegerText n cs) (hfits : FitsInt64 n) : Numeral.int64? cs = some n := by
  rw [Numeral.int64?, h.integer?, Option.filter_some, if_pos (decide_eq_true hfits)]

/-- The characters of a numeral. -/
theorem isDigit_or_eq_of_mem (h : IsIntegerText n cs) {c : Char} (hc : c ∈ cs) :
    c.isDigit = true ∨ c = '-' := by
  cases h with
  | natural _ hdigits => exact .inl (hdigits c hc)
  | negative _ hdigits =>
    rcases List.mem_cons.mp hc with rfl | hc
    · exact .inr rfl
    · exact .inl (hdigits c hc)

end IsIntegerText

theorem toList_toString_negSucc (n : Nat) :
    (toString (Int.negSucc n)).toList = '-' :: (toString (n + 1)).toList := by
  show ("-" ++ toString (n + 1)).toList = _
  rw [String.toList_append]
  rfl

/-- An integer is written as one of its numerals. -/
theorem isIntegerText_toString (n : Int) : IsIntegerText n (toString n).toList := by
  have hdigits : ∀ n : Nat, (toString n).toList ≠ [] ∧ (∀ d ∈ (toString n).toList, d.isDigit = true) ∧
      ofDigits (toString n).toList = n := by
    intro n
    obtain ⟨hne, hdigits, -⟩ := isCanonical_toString n
    exact ⟨fun h => hne (String.toList_eq_nil_iff.mp h), hdigits, value_toString n⟩
  cases n with
  | ofNat n =>
    obtain ⟨hne, hall, hvalue⟩ := hdigits n
    have h := IsIntegerText.natural hne hall
    rw [hvalue] at h
    exact h
  | negSucc n =>
    obtain ⟨hne, hall, hvalue⟩ := hdigits (n + 1)
    have h := IsIntegerText.negative hne hall
    rw [hvalue] at h
    rw [toList_toString_negSucc]
    exact h

/-- An integer is determined by how it is written. -/
theorem toString_int_inj {m n : Int} : toString m = toString n ↔ m = n := by
  refine ⟨fun h => ?_, fun h => h ▸ rfl⟩
  have hm := (isIntegerText_toString m).integer?
  have hn := (isIntegerText_toString n).integer?
  rw [h] at hm
  exact Option.some.inj (hm.symm.trans hn)

end Circulation.Numeral
