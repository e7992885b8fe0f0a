import Circulation.Proofs.Double
import Circulation.Proofs.Except
import Circulation.Proofs.Json.Writing

/-!
# Literals of integers

A literal without point and exponent denotes an integer. As a word of 64 bits it is this integer if the
integer fits. Of a literal that does not fit, what is kept in its place has the sign of the integer, and
is large where the integer is large and positive: the significand of such a literal is almost full, and
no step after it rounds to less than a power of two that it has reached.

## Main definitions

* `Circulation.Json.Grammar.IntegerLiteral` — the literals of an integer.

## Main results

* `Circulation.Json.Grammar.IntegerLiteral.toInt64_of_read` — what such a literal is as a word.
-/

namespace Circulation.Json

namespace Grammar

/-- The literals of an integer: its digits, after a hyphen if it is negative. Zero has two of them. -/
inductive IntegerLiteral : Int → Number.Literal → List Char → Prop
  | natural {ds : List Char} (h : Whole ds) :
      IntegerLiteral (Numeral.ofDigits ds) ⟨false, ds, none, none⟩ ds
  | negative {ds : List Char} (h : Whole ds) :
      IntegerLiteral (-(Numeral.ofDigits ds : Int)) ⟨true, ds, none, none⟩ ('-' :: ds)

theorem Whole.isDigits {ds : List Char} (h : Whole ds) : IsDigits ds := by
  cases h with
  | zero => exact ⟨List.cons_ne_nil _ _, List.forall_mem_singleton.mpr (by decide)⟩
  | digits _ hd hds => exact ⟨List.cons_ne_nil _ _, List.forall_mem_cons.mpr ⟨hd, hds⟩⟩

namespace IntegerLiteral

variable {z : Int} {l : Number.Literal} {cs : List Char}

/-- The literal is one of the grammar. -/
theorem numeral (h : IntegerLiteral z l cs) : Grammar.Numeral l cs := by
  cases h with
  | natural h => exact numeral_whole h
  | negative h => exact numeral_neg_whole h

/-- The text of the literal is a numeral of the integer. -/
theorem isIntegerText (h : IntegerLiteral z l cs) : Numeral.IsIntegerText z cs := by
  cases h with
  | natural h => exact .natural h.isDigits.1 h.isDigits.2
  | negative h => exact .negative h.isDigits.1 h.isDigits.2

end IntegerLiteral

end Grammar

namespace Number

/-! ### Large literals -/

/-- Digits that a significand does not hold leave it almost full. -/
theorem le_significandOf {significand : Nat} {ds : List Char} (hds : ∀ d ∈ ds, d.isDigit = true)
    (hfits : significand < wordLimit)
    (h : wordLimit ≤ ds.foldl (fun n d => 10 * n + Numeral.digitValue d) significand) :
    wordLimit ≤ 10 * (significandOf significand ds).1 + 9 := by
  induction ds generalizing significand with
  | nil => exact absurd hfits (Nat.not_lt.mpr h)
  | cons d ds ih =>
    obtain ⟨hd, hds⟩ := List.forall_mem_cons.mp hds
    unfold significandOf
    dsimp only
    split
    · next hnext => exact ih hds hnext h
    · next hnext =>
      have hdigit := Numeral.digitValue_le_nine hd
      omega

/-- Powers of ten up to the greatest that is read at once are numbers. -/
theorem isSome_nearest?_pow {k : Nat} (hk : k ≤ 308) :
    (Double.nearest? false (Nat.pow 10 k) 1).isSome := by
  have hall : ∀ k < 309, (Double.nearest? false (Nat.pow 10 k) 1).isSome := by decide +kernel
  exact hall k (by omega)

theorem one_le_powerOfTen {k : Nat} (hk : k ≤ 308) :
    (powerOfTen k).negative = false ∧ 1 ≤ (powerOfTen k).magnitude := by
  obtain ⟨x, hx⟩ := Option.isSome_iff_exists.mp (isSome_nearest?_pow hk)
  rw [powerOfTen, hx, Option.getD_some]
  have hone : (1 : ℚ) ≤ (Nat.pow 10 k : Nat) / (1 : Nat) := by
    rw [Nat.cast_one, div_one]
    exact_mod_cast Nat.one_le_pow _ _ (by decide)
  have hbound := Double.le_magnitude_of_nearest? (k := 0) (by decide) Nat.one_pos hx
  rw [zpow_zero] at hbound
  exact ⟨Double.negative_of_nearest? hx, hbound hone⟩

section ToDouble

variable {significand power : Nat} {x : Double}

/-- A significand that is scaled up has no sign and passes no power of two on its way down. -/
theorem le_magnitude_of_toDouble? (h : toDouble? significand power = some x) :
    x.negative = false ∧ ∀ k : Nat, 2 ^ k ≤ significand → (2 : ℚ) ^ k ≤ x.magnitude := by
  obtain ⟨y, hy, h⟩ := Option.bind_eq_some_iff.mp h
  have hsign := Double.negative_of_nearest? hy
  have hbound : ∀ k : Nat, 2 ^ k ≤ significand → (2 : ℚ) ^ (k : ℤ) ≤ y.magnitude := by
    intro k hk
    refine Double.le_magnitude_of_nearest? ?_ Nat.one_pos hy ?_
    · unfold Double.minExponent
      omega
    · rw [Nat.cast_one, div_one, zpow_natCast]
      exact_mod_cast hk
  rw [if_neg (by omega)] at h
  split at h
  · next hpower =>
    rw [Int.toNat_natCast] at h
    obtain ⟨htenSign, hten⟩ := one_le_powerOfTen (k := power) (by omega)
    refine ⟨by rw [Double.negative_of_mul? h, hsign, htenSign]; rfl, fun k hk => ?_⟩
    have hproduct : (2 : ℚ) ^ (k : ℤ) ≤ y.magnitude * (powerOfTen power).magnitude :=
      (hbound k hk).trans (le_mul_of_one_le_right ((zpow_nonneg zero_le_two _).trans (hbound k hk)) hten)
    have hresult := Double.le_magnitude_of_mul? (by unfold Double.minExponent; omega) h hproduct
    rwa [zpow_natCast] at hresult
  · split at h
    · obtain rfl := Option.some.inj h
      exact ⟨hsign, fun k hk => by simpa using hbound k hk⟩
    · exact nomatch h

end ToDouble

/-- Without a point and an exponent, only the digits that the significand does not hold count for the
power. -/
theorem doubleOf_whole {negative : Bool} {ds : List Char} {x : Double}
    (h : doubleOf ⟨negative, ds, none, none⟩ = .ok x) :
    ∃ y, toDouble? (significandOf 0 ds).1 (significandOf 0 ds).2.length = some y ∧
      x = if negative then y.neg else y := by
  have hscaled : scaled ds [] = ((significandOf 0 ds).1, ((significandOf 0 ds).2.length : Int)) := by
    simp [scaled, significandOf]
  simp only [doubleOf, Option.getD_none, hscaled] at h
  split at h
  · next y hy => exact ⟨y, hy, (Except.ok.inj h).symm⟩
  · exact nomatch h

/-! ### Words -/

theorem le_toInt64_double {x : Double} (h : 2 ^ 60 ≤ x.truncate) : 2 ^ 60 ≤ (double x).toInt64 := by
  rw [toInt64, Numeral.saturate64]
  omega

theorem toInt64_double_nonpos {x : Double} (h : x.truncate ≤ 0) : (double x).toInt64 ≤ 0 := by
  rw [toInt64, Numeral.saturate64]
  omega

end Number

namespace Grammar.IntegerLiteral

open Number

variable {z : Int} {l : Number.Literal} {cs : List Char} {n : Number}

/-- **The literal of an integer as a word**: the integer, or a large number for a large integer, or a
number that is not positive for an integer that is not. -/
theorem toInt64_of_read (h : IntegerLiteral z l cs) (hread : ofLiteral l = .ok n) :
    n.toInt64 = z ∨ (2 ^ 60 ≤ z ∧ 2 ^ 60 ≤ n.toInt64) ∨ (z ≤ 0 ∧ n.toInt64 ≤ 0) := by
  unfold ofLiteral at hread
  cases h with
  | natural h =>
    by_cases hword : Numeral.ofDigits cs < wordLimit
    · rw [if_pos ⟨rfl, rfl, rfl, hword⟩] at hread
      obtain rfl : .int (Numeral.ofDigits cs) = n := Except.ok.inj hread
      by_cases hfits : Numeral.FitsInt64 (Numeral.ofDigits cs)
      · exact .inl (if_pos hfits)
      · refine .inr (.inl ?_)
        rw [toInt64, if_neg hfits, Numeral.saturate64]
        unfold Numeral.FitsInt64 at hfits
        omega
    · rw [if_neg (fun hword' => hword hword'.2.2.2), if_neg (fun hsign => nomatch hsign.2.2.1)]
        at hread
      obtain ⟨x, hx, rfl⟩ := map_eq_ok.mp hread
      obtain ⟨x, hdouble, rfl⟩ := doubleOf_whole hx
      have hfull := le_significandOf h.isDigits.2 (show 0 < wordLimit by decide) (Nat.not_lt.mp hword)
      obtain ⟨hsign, hbound⟩ := le_magnitude_of_toDouble? hdouble
      have htruncate := Double.pow_le_truncate hsign (hbound 60 (by unfold wordLimit at hfull; omega))
      unfold wordLimit at hword
      exact .inr (.inl ⟨by omega, le_toInt64_double htruncate⟩)
  | negative h =>
    rw [if_neg (fun hsign => nomatch hsign.2.2.1)] at hread
    split at hread
    · next hword =>
      obtain rfl := Except.ok.inj hread
      refine .inl (if_pos ?_)
      unfold Numeral.FitsInt64
      omega
    · obtain ⟨x, hx, rfl⟩ := map_eq_ok.mp hread
      obtain ⟨x, hdouble, rfl⟩ := doubleOf_whole hx
      obtain ⟨hsign, -⟩ := le_magnitude_of_toDouble? hdouble
      have hneg : x.neg.negative = true := by rw [Double.neg, hsign]; rfl
      exact .inr (.inr ⟨by omega, toInt64_double_nonpos (Double.truncate_nonpos hneg)⟩)

end Grammar.IntegerLiteral

end Circulation.Json
