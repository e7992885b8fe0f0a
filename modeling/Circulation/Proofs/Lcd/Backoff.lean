import Mathlib.Algebra.Group.Nat.Defs
import Mathlib.Order.Lattice
import Circulation.Lcd.Client

/-!
# The length of a pause

The pauses between the attempts at a request double from one to the next up to a limit. They are
computed within unsigned words, where a bit may leave the word and a product may not fit; the greatest
word stands in for both. Since the greatest word is above the limit, the pause is nevertheless the
exact product, cut at the limit.

## Main definitions

* `Circulation.Lcd.Word.mul`, `Circulation.Lcd.Word.powerOfTwo?` — a product and a power of two within a
  word.
* `Circulation.Lcd.Word.backoff` — the length of a pause in words.

## Main results

* `Circulation.Lcd.backoff_eq_min` — the length of a pause is the exact product, cut at the limit.
* `Circulation.Lcd.Word.toNat_backoff` — the computation in words yields it.
* `Circulation.Lcd.backoff_doubles` — the laws of pauses.
-/

namespace Circulation.Lcd

variable {base attempt : Nat}

/-! ### Pauses as numbers -/

/-- The greatest word is above the limit, so that a cut at the former makes no difference. -/
theorem min_maxWord_maxBackoff (n : Nat) : min (min n maxWord) maxBackoff = min n maxBackoff := by
  rw [min_assoc, min_eq_right (show maxBackoff ≤ maxWord by decide)]

theorem backoff_of_lt (base : Nat) (h : attempt < 64) :
    backoff base attempt = min (base * 2 ^ attempt) maxBackoff := by
  simp only [backoff, if_pos h, min_maxWord_maxBackoff]
  rfl

/-- Once the bit has left the word, both the product and what stands in for it are above the limit,
unless the base is zero. -/
theorem backoff_of_le (base : Nat) (h : 64 ≤ attempt) :
    backoff base attempt = min (base * 2 ^ attempt) maxBackoff := by
  simp only [backoff, if_neg (Nat.not_lt.mpr h), min_maxWord_maxBackoff]
  rcases Nat.eq_zero_or_pos base with rfl | hbase
  · rw [Nat.zero_mul, Nat.zero_mul]
  · have hword : maxBackoff ≤ base * maxWord :=
      le_trans (by decide) (Nat.le_mul_of_pos_left maxWord hbase)
    have hpower : maxBackoff ≤ 2 ^ attempt :=
      le_trans (by decide) (Nat.pow_le_pow_right (by decide : 0 < 2) h)
    rw [min_eq_right hword, min_eq_right (hpower.trans (Nat.le_mul_of_pos_left _ hbase))]

/-- The length of a pause is the exact product, cut at the limit. -/
theorem backoff_eq_min (base attempt : Nat) :
    backoff base attempt = min (base * 2 ^ attempt) maxBackoff := by
  rcases Nat.lt_or_ge attempt 64 with h | h
  · exact backoff_of_lt base h
  · exact backoff_of_le base h

/-- Pauses grow with the base and with the number of attempts. -/
theorem backoff_le_backoff {base' attempt' : Nat} (hbase : base ≤ base') (h : attempt ≤ attempt') :
    backoff base attempt ≤ backoff base' attempt' := by
  have hproduct : base * 2 ^ attempt ≤ base' * 2 ^ attempt' :=
    Nat.mul_le_mul hbase (Nat.pow_le_pow_right (by decide) h)
  rw [backoff_eq_min, backoff_eq_min]
  omega

/-! ### Pauses as words -/

namespace Word

/-- The product of two words, or the greatest word if the product does not fit. -/
def mul (a b : UInt64) : UInt64 :=
  if a.toNat * b.toNat < UInt64.size then a * b else .ofNat maxWord

/-- One bit, moved to the left within a word. -/
def powerOfTwo? (n : UInt32) : Option UInt64 :=
  if n < 64 then some (1 <<< n.toUInt64) else none

/-- The length of a pause, computed in words. -/
def backoff (base : UInt64) (attempt : UInt32) : UInt64 :=
  let product := mul base ((powerOfTwo? attempt).getD (.ofNat maxWord))
  if product ≤ .ofNat maxBackoff then product else .ofNat maxBackoff

theorem toNat_mul (a b : UInt64) : (mul a b).toNat = min (a.toNat * b.toNat) maxWord := by
  unfold mul
  split_ifs with h
  · rw [UInt64.toNat_mul, Nat.mod_eq_of_lt h, min_eq_left (b := maxWord) (Nat.le_of_lt_succ h)]
  · rw [min_eq_right (by unfold UInt64.size at h; unfold maxWord; omega)]
    rfl

theorem toNat_powerOfTwo? (n : UInt32) :
    ((powerOfTwo? n).getD (.ofNat maxWord)).toNat = if n.toNat < 64 then 2 ^ n.toNat else maxWord := by
  unfold powerOfTwo?
  by_cases h : n < 64
  · have hn : n.toNat < 64 := h
    have hfits : 2 ^ n.toNat < 2 ^ 64 := Nat.pow_lt_pow_right (by decide) hn
    rw [if_pos h, if_pos hn, Option.getD_some, UInt64.toNat_shiftLeft, UInt32.toNat_toUInt64,
      Nat.mod_eq_of_lt hn, Nat.shiftLeft_eq, UInt64.toNat_one, Nat.one_mul, Nat.mod_eq_of_lt hfits]
  · have hn : ¬n.toNat < 64 := h
    rw [if_neg h, if_neg hn]
    rfl

/-- The computation in words yields the length of the pause: no bit and no digit is lost. -/
theorem toNat_backoff (base : UInt64) (attempt : UInt32) :
    (backoff base attempt).toNat = Lcd.backoff base.toNat attempt.toNat := by
  have hproduct : (mul base ((powerOfTwo? attempt).getD (.ofNat maxWord))).toNat =
      min (base.toNat * if attempt.toNat < 64 then Nat.pow 2 attempt.toNat else maxWord) maxWord := by
    rw [toNat_mul, toNat_powerOfTwo?]
    rfl
  rw [Lcd.backoff, ← hproduct]
  unfold backoff
  generalize mul base ((powerOfTwo? attempt).getD (.ofNat maxWord)) = product
  show (if product ≤ .ofNat maxBackoff then product else .ofNat maxBackoff).toNat = _
  split_ifs with h
  · exact (min_eq_left h).symm
  · exact (min_eq_right (Nat.le_of_not_le h)).symm

end Word

/-- **Pauses double up to the limit.** A pause is the base, doubled once for every failed attempt and
cut at the limit, however large the product is. It grows with the number of attempts and with the base,
and without a base there is none. The computation in words has the same result, so that no bit that
leaves a word and no product that does not fit is ever noticed. -/
theorem backoff_doubles (base attempt : Nat) :
    backoff base attempt = min (base * 2 ^ attempt) 30000 ∧
      Monotone (backoff base) ∧ Monotone (fun b => backoff b attempt) ∧ backoff 0 attempt = 0 ∧
      ∀ (b : UInt64) (n : UInt32), (Word.backoff b n).toNat = min (b.toNat * 2 ^ n.toNat) 30000 := by
  refine ⟨backoff_eq_min base attempt, fun _ _ h => backoff_le_backoff le_rfl h,
    fun _ _ h => backoff_le_backoff h le_rfl, ?_, fun b n => ?_⟩
  · rw [backoff_eq_min, Nat.zero_mul, Nat.zero_min]
  · rw [Word.toNat_backoff, backoff_eq_min]
    rfl

/-- From 64 attempts on, the greatest word stands in for the power of two. -/
example : backoff 250 6 = 16000 ∧ backoff 1 64 = 30000 ∧ backoff 0 64 = 0 := by
  decide

end Circulation.Lcd
