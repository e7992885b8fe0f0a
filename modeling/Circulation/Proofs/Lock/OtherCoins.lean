import Mathlib.Data.List.Forall2
import Circulation.Lock.Evaluation

/-!
# Coins of other denominations in a lock

What a lock holds of a denomination is found by looking for the first coin of the denomination, in the
granted coins and in every period. Coins of other denominations are passed over without a look at their
amounts. So they may be put in, taken out or changed anywhere in the lock, also if their amounts are no
numerals: the portion is the same, and so is the error where there is one.

## Main definitions

* `Circulation.AgreeBeside` — lists that differ in foreign elements only.
* `Circulation.AccountLock.AgreesBeside` — locks that differ in coins of other denominations only.

## Main results

* `Circulation.AgreeBeside.find?_eq` — a search that passes over foreign elements.
* `Circulation.AccountLock.AgreesBeside.lockedAt_eq` — such locks hold the same.
-/

namespace Circulation

/-- Lists with the same elements in the same order, except that each may have foreign elements at any
place. -/
inductive AgreeBeside {α : Type} (foreign : α → Prop) : List α → List α → Prop
  | nil : AgreeBeside foreign [] []
  | same (a : α) {as bs : List α} (h : AgreeBeside foreign as bs) :
      AgreeBeside foreign (a :: as) (a :: bs)
  | left {a : α} {as bs : List α} (ha : foreign a) (h : AgreeBeside foreign as bs) :
      AgreeBeside foreign (a :: as) bs
  | right {b : α} {as bs : List α} (hb : foreign b) (h : AgreeBeside foreign as bs) :
      AgreeBeside foreign as (b :: bs)

namespace AgreeBeside

variable {α β : Type} {foreign : α → Prop} {as bs : List α}

theorem refl (as : List α) : AgreeBeside foreign as as := by
  induction as with
  | nil => exact .nil
  | cons a as ih => exact .same a ih

/-- A foreign element is put in at any place. -/
theorem insert {a : α} (ha : foreign a) (before after : List α) :
    AgreeBeside foreign (before ++ after) (before ++ a :: after) := by
  induction before with
  | nil => exact .right ha (refl after)
  | cons b before ih => exact .same b ih

/-- A foreign element is taken out at any place. -/
theorem remove {a : α} (ha : foreign a) (before after : List α) :
    AgreeBeside foreign (before ++ a :: after) (before ++ after) := by
  induction before with
  | nil => exact .left ha (refl after)
  | cons b before ih => exact .same b ih

/-- A foreign element is changed to another one. -/
theorem change {a b : α} (ha : foreign a) (hb : foreign b) (before after : List α) :
    AgreeBeside foreign (before ++ a :: after) (before ++ b :: after) := by
  induction before with
  | nil => exact .left ha (.right hb (refl after))
  | cons c before ih => exact .same c ih

/-- A search that passes over foreign elements finds the same in both lists. -/
theorem find?_eq {p : α → Bool} (hp : ∀ a, foreign a → p a = false) (h : AgreeBeside foreign as bs) :
    as.find? p = bs.find? p := by
  induction h with
  | nil => rfl
  | same a _ ih => rw [List.find?_cons, List.find?_cons, ih]
  | left ha _ ih => rw [List.find?_cons_of_neg (by simp [hp _ ha]), ih]
  | right hb _ ih => rw [List.find?_cons_of_neg (by simp [hp _ hb]), ih]

end AgreeBeside

/-! ### Coins -/

/-- A coin of another denomination. -/
def Coin.IsOther (denom : String) (c : Coin) : Prop :=
  c.denom ≠ denom

variable {denom : String}

/-- The first coin of a denomination is found beside any others. -/
theorem Coin.amountTextOf?_congr {coins coins' : List Coin}
    (h : AgreeBeside (Coin.IsOther denom) coins coins') :
    Coin.amountTextOf? coins denom = Coin.amountTextOf? coins' denom := by
  have hother : ∀ c, Coin.IsOther denom c → (c.denom == denom) = false :=
    fun _ hc => beq_false_of_ne hc
  rw [Coin.amountTextOf?, Coin.amountTextOf?, h.find?_eq hother]

/-- Periods of the same length that differ in coins of other denominations only. -/
structure LockPeriod.AgreesBeside (denom : String) (p p' : LockPeriod) : Prop where
  lengthSeconds : p.lengthSeconds = p'.lengthSeconds
  coins : AgreeBeside (Coin.IsOther denom) p.coins p'.coins

namespace AccountLock

/-- Locks of one kind with the same times and periods of the same lengths that differ, as for their
coins, in coins of other denominations only. -/
structure AgreesBeside (denom : String) (lock lock' : AccountLock) : Prop where
  kind : lock.kind = lock'.kind
  startTime : lock.startTime = lock'.startTime
  endTime : lock.endTime = lock'.endTime
  grantedCoins : AgreeBeside (Coin.IsOther denom) lock.grantedCoins lock'.grantedCoins
  vestingPeriods :
    List.Forall₂ (LockPeriod.AgreesBeside denom) lock.vestingPeriods lock'.vestingPeriods
  lockupPeriods :
    List.Forall₂ (LockPeriod.AgreesBeside denom) lock.lockupPeriods lock'.lockupPeriods

section Periods

variable {periods periods' : List LockPeriod}

theorem amountOf_congr {coins coins' : List Coin} (h : AgreeBeside (Coin.IsOther denom) coins coins') :
    amountOf coins denom = amountOf coins' denom := by
  rw [amountOf, amountOf, Coin.amountTextOf?_congr h]

/-- The tranches end at the same times, and each of them is worth the same. -/
theorem tranches_congr (start : Instant) (elapsed : Int)
    (h : List.Forall₂ (LockPeriod.AgreesBeside denom) periods periods') :
    tranches start denom elapsed periods = tranches start denom elapsed periods' := by
  induction h generalizing elapsed with
  | nil => rfl
  | cons hp _ ih => rw [tranches, tranches, hp.lengthSeconds, amountOf_congr hp.coins, ih]

theorem totalLength_congr (h : List.Forall₂ (LockPeriod.AgreesBeside denom) periods periods') :
    totalLength periods = totalLength periods' := by
  have hsum : ∀ sum : Int,
      periods.foldl (fun sum p => Numeral.saturate64 (sum + p.lengthSeconds)) sum =
        periods'.foldl (fun sum p => Numeral.saturate64 (sum + p.lengthSeconds)) sum := by
    induction h with
    | nil => exact fun _ => rfl
    | cons hp _ ih =>
      intro sum
      rw [List.foldl_cons, List.foldl_cons, hp.lengthSeconds, ih]
  exact hsum 0

end Periods

namespace AgreesBeside

variable {lock lock' : AccountLock}

theorem periodicPortion_eq (h : lock.AgreesBeside denom lock') (now : Instant) :
    periodicPortion lock denom now = periodicPortion lock' denom now := by
  simp only [periodicPortion, h.kind, h.startTime, tranches_congr _ _ h.vestingPeriods]

theorem vestingPeriods_eq_nil_iff (h : lock.AgreesBeside denom lock') :
    lock.vestingPeriods = [] ↔ lock'.vestingPeriods = [] := by
  rw [← List.length_eq_zero_iff, ← List.length_eq_zero_iff, h.vestingPeriods.length_eq]

/-- **Coins of other denominations do not count**: the portion of a denomination, its end date and the
error are the same without them. -/
theorem lockedAt_eq (h : lock.AgreesBeside denom lock') (now : Instant) :
    lock.lockedAt denom now = lock'.lockedAt denom now := by
  simp only [lockedAt, amountOf_congr h.grantedCoins, h.kind, h.startTime, h.endTime,
    h.periodicPortion_eq, ne_eq, h.vestingPeriods_eq_nil_iff, totalLength_congr h.lockupPeriods]

end AgreesBeside

end AccountLock

end Circulation
