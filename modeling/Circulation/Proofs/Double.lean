import Mathlib.Algebra.Order.Field.Power
import Mathlib.Data.Rat.Cast.Order
import Mathlib.Tactic.Positivity
import Mathlib.Tactic.Ring
import Circulation.Double.Basic

/-!
# Powers of two below rounded numbers

Rounding passes no power of two, since a power of two is itself a number: what is at least a power of
two rounds to a number that is at least this power. The sign of a number is not touched. This bounds
what comes of several steps of which each rounds.

## Main definitions

* `Circulation.Double.magnitude` — the size of a number as a rational number.

## Main results

* `Circulation.Double.le_magnitude_of_nearest?`, `Circulation.Double.le_magnitude_of_mul?` — rounded
  quotients and products are bounded by powers of two.
* `Circulation.Double.pow_le_truncate`, `Circulation.Double.truncate_nonpos` — the integer parts of
  large numbers and of negative ones.
-/

namespace Circulation.Double

/-- The size of a number as a rational number. -/
def magnitude (x : Double) : ℚ :=
  x.mantissa * 2 ^ x.exponent

/-! ### Quotients -/

theorem scale_pos (num : Nat) {den : Nat} (hden : 0 < den) (e : Int) : 0 < (scale num den e).2 := by
  unfold scale
  split
  · exact Nat.mul_pos hden (Nat.two_pow_pos _)
  · exact hden

/-- What scaling does to a quotient. -/
theorem scale_div (num den : Nat) (e : Int) :
    ((scale num den e).1 / (scale num den e).2 : ℚ) = num / den / 2 ^ e := by
  unfold scale
  split
  · next h =>
    obtain ⟨k, rfl⟩ := Int.eq_ofNat_of_zero_le h
    rw [Int.toNat_natCast, Nat.pow_eq, zpow_natCast, Nat.cast_mul, Nat.cast_pow, Nat.cast_ofNat,
      div_div]
  · next h =>
    obtain ⟨k, rfl⟩ : ∃ k : Nat, e = -k := ⟨(-e).toNat, by omega⟩
    rw [neg_neg, Int.toNat_natCast, Nat.pow_eq, zpow_neg, zpow_natCast, Nat.cast_mul, Nat.cast_pow,
      Nat.cast_ofNat, div_inv_eq_mul, div_mul_eq_mul_div]

theorem size_pos (x : Double) : 0 < x.size.2 :=
  scale_pos x.mantissa Nat.one_pos _

theorem size_div (x : Double) : (x.size.1 / x.size.2 : ℚ) = x.magnitude := by
  rw [size, scale_div, Nat.cast_one, div_one, zpow_neg, div_inv_eq_mul, magnitude]

/-! ### Rounding -/

theorem le_roundToEven (num den : Nat) : num / den ≤ roundToEven num den := by
  unfold roundToEven
  dsimp only
  split
  · exact Nat.le_succ _
  · exact Nat.le_refl _

/-- Unless it is the least one, the exponent leaves a mantissa that is not zero. -/
theorem two_zpow_exponentOf_le {num den : Nat} (hnum : 0 < num) (hden : 0 < den)
    (hmin : minExponent < exponentOf num den) : (2 : ℚ) ^ exponentOf num den ≤ num / den := by
  have hexponent : exponentOf num den ≤ num.log2 - (den.log2 + 1 : Nat) := by
    unfold exponentOf at hmin ⊢
    dsimp only at hmin ⊢
    split at hmin <;> split <;> omega
  have hlow : ((2 ^ num.log2 : Nat) : ℚ) ≤ num := by
    exact_mod_cast Nat.log2_self_le hnum.ne'
  have hhigh : (den : ℚ) ≤ (2 ^ (den.log2 + 1) : Nat) := by
    exact_mod_cast Nat.lt_log2_self.le
  calc (2 : ℚ) ^ exponentOf num den
      ≤ 2 ^ ((num.log2 : ℤ) - (den.log2 + 1 : Nat)) := zpow_le_zpow_right₀ one_le_two hexponent
    _ = (2 ^ num.log2 : Nat) / (2 ^ (den.log2 + 1) : Nat) := by
      rw [zpow_sub₀ two_ne_zero, zpow_natCast, zpow_natCast, Nat.cast_pow, Nat.cast_pow,
        Nat.cast_ofNat]
    _ ≤ num / den := by gcongr

/-- Rounding to multiples of `2 ^ e` passes no power of two that is such a multiple. -/
theorem le_roundToEven_scale {num den : Nat} (hden : 0 < den) {e k : ℤ} (hek : e ≤ k)
    (hle : (2 : ℚ) ^ k ≤ num / den) :
    (2 : ℚ) ^ k ≤ roundToEven (scale num den e).1 (scale num den e).2 * 2 ^ e := by
  obtain ⟨j, rfl⟩ := Int.le.dest hek
  have hsplit : (2 : ℚ) ^ (e + j) = (2 ^ j : Nat) * 2 ^ e := by
    rw [add_comm, zpow_add₀ two_ne_zero, zpow_natCast, Nat.cast_pow, Nat.cast_ofNat]
  have hquotient : ((2 ^ j : Nat) : ℚ) ≤ (scale num den e).1 / (scale num den e).2 := by
    rw [scale_div, le_div_iff₀ (by positivity), ← hsplit]
    exact hle
  have hpos := scale_pos num hden e
  rw [le_div_iff₀ (by exact_mod_cast hpos)] at hquotient
  have hfloor : 2 ^ j ≤ (scale num den e).1 / (scale num den e).2 :=
    (Nat.le_div_iff_mul_le hpos).mpr (by exact_mod_cast hquotient)
  rw [hsplit]
  gcongr
  exact hfloor.trans (le_roundToEven _ _)

section Nearest

variable {negative : Bool} {num den : Nat} {x : Double}

/-- The sign and the size of what is rounded. A mantissa that is rounded up to the next power of two
is halved and the exponent is counted up, which does not change the size. -/
theorem of_nearest? (hnum : num ≠ 0) (h : nearest? negative num den = some x) :
    x.negative = negative ∧ x.magnitude =
      roundToEven (scale num den (exponentOf num den)).1 (scale num den (exponentOf num den)).2 *
        2 ^ exponentOf num den := by
  unfold nearest? at h
  rw [if_neg hnum] at h
  dsimp only at h
  generalize roundToEven _ _ = m at h ⊢
  by_cases hcarry : m = Nat.pow 2 53
  · rw [if_pos hcarry] at h
    split at h
    · exact nomatch h
    · obtain rfl := Option.some.inj h
      refine ⟨rfl, ?_⟩
      have hdouble : Nat.pow 2 53 = 2 * Nat.pow 2 52 := rfl
      rw [magnitude, hcarry, hdouble, Nat.cast_mul, Nat.cast_ofNat, zpow_add₀ two_ne_zero, zpow_one]
      ring
  · simp only [if_neg hcarry] at h
    split at h
    · exact nomatch h
    · obtain rfl := Option.some.inj h
      exact ⟨rfl, rfl⟩

theorem negative_of_nearest? (h : nearest? negative num den = some x) : x.negative = negative := by
  by_cases hnum : num = 0
  · rw [nearest?, if_pos hnum] at h
    obtain rfl := Option.some.inj h
    rfl
  · exact (of_nearest? hnum h).1

/-- **Rounding passes no power of two.** -/
theorem le_magnitude_of_nearest? {k : ℤ} (hk : minExponent ≤ k) (hden : 0 < den)
    (h : nearest? negative num den = some x) (hle : (2 : ℚ) ^ k ≤ num / den) :
    (2 : ℚ) ^ k ≤ x.magnitude := by
  have hnum : num ≠ 0 := by
    rintro rfl
    rw [Nat.cast_zero, zero_div] at hle
    exact absurd hle (not_le.mpr (by positivity))
  rw [(of_nearest? hnum h).2]
  by_cases hek : exponentOf num den ≤ k
  · exact le_roundToEven_scale hden hek hle
  · -- the power is less than the unit of the mantissa, which is not zero
    have hkey : k ≤ exponentOf num den := (not_le.mp hek).le
    calc (2 : ℚ) ^ k ≤ 2 ^ exponentOf num den := zpow_le_zpow_right₀ one_le_two hkey
      _ ≤ _ := le_roundToEven_scale hden le_rfl
        (two_zpow_exponentOf_le (Nat.pos_of_ne_zero hnum) hden (hk.trans_lt (not_le.mp hek)))

end Nearest

/-! ### Products -/

section Products

variable {x y z : Double}

theorem negative_of_mul? (h : x.mul? y = some z) : z.negative = (x.negative != y.negative) :=
  negative_of_nearest? h

theorem le_magnitude_of_mul? {k : ℤ} (hk : minExponent ≤ k) (h : x.mul? y = some z)
    (hle : (2 : ℚ) ^ k ≤ x.magnitude * y.magnitude) : (2 : ℚ) ^ k ≤ z.magnitude := by
  have hnearest : nearest? (x.negative != y.negative) (x.size.1 * y.size.1) (x.size.2 * y.size.2) =
      some z := h
  refine le_magnitude_of_nearest? hk (Nat.mul_pos x.size_pos y.size_pos) hnearest ?_
  rw [Nat.cast_mul, Nat.cast_mul, mul_div_mul_comm, size_div, size_div]
  exact hle

end Products

/-! ### Integer parts -/

theorem pow_le_truncate {x : Double} (hsign : x.negative = false) {k : Nat}
    (hle : (2 : ℚ) ^ k ≤ x.magnitude) : 2 ^ k ≤ x.truncate := by
  have hpos := x.size_pos
  rw [← size_div, le_div_iff₀ (by exact_mod_cast hpos)] at hle
  have hfloor : 2 ^ k ≤ x.size.1 / x.size.2 :=
    (Nat.le_div_iff_mul_le hpos).mpr (by exact_mod_cast hle)
  simp only [truncate, hsign, Bool.false_eq_true, if_false]
  exact_mod_cast hfloor

theorem truncate_nonpos {x : Double} (hsign : x.negative = true) : x.truncate ≤ 0 := by
  simp only [truncate, hsign, if_true]
  exact Int.neg_nonpos_of_nonneg (Int.natCast_nonneg _)

end Circulation.Double
