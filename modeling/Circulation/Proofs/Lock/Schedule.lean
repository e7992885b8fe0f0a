import Circulation.Lock.Schedule
import Circulation.Proofs.Amount

/-!
# Schedules only open

The locked amount of every schedule is at most the whole amount, and it does not grow in time. The
instants of a schedule may stand in any order: an interval may be empty or reversed, and a cliff may
lie outside the interval.

A periodic schedule is a sum of delayed ones, so its laws are those of a delayed lock, term by term.

## Main results

* `Circulation.Schedule.delayed_antitone` and its like — the locked amount does not grow in time.
* `Circulation.Schedule.delayed_le` and its like — the locked amount is at most the whole amount.
-/

namespace Circulation.Schedule

variable {total : Nat} {now now' start cliff stop : Instant}

/-! ### Delayed -/

theorem delayed_le : delayed total now stop ≤ total := by
  unfold delayed
  split
  · exact Nat.le_refl _
  · exact Nat.zero_le _

theorem delayed_antitone (h : now.nanos ≤ now'.nanos) :
    delayed total now' stop ≤ delayed total now stop := by
  by_cases hopen : now.nanos < stop.nanos
  · have hall : delayed total now stop = total := if_pos hopen
    rw [hall]
    exact delayed_le
  · have hpassed : ¬now'.nanos < stop.nanos := by omega
    rw [delayed, if_neg hpassed]
    exact Nat.zero_le _

/-! ### Continuous -/

/-- The share of an amount that a part of a whole has is at most the amount. -/
theorem share_le {part whole : Nat} (h : part ≤ whole) : total * part / whole ≤ total := by
  refine Nat.div_le_of_le_mul ?_
  rw [Nat.mul_comm whole total]
  exact Nat.mul_le_mul_left total h

theorem continuous_of_closed (h : stop.nanos ≤ start.nanos ∨ stop.nanos ≤ now.nanos) :
    continuous total now start stop = 0 :=
  if_pos h

theorem continuous_of_lt_start (hspan : start.nanos < stop.nanos) (h : now.nanos < start.nanos) :
    continuous total now start stop = total := by
  have hopen : ¬(stop.nanos ≤ start.nanos ∨ stop.nanos ≤ now.nanos) := by omega
  rw [continuous, if_neg hopen, if_pos h]

theorem continuous_of_within (hstart : start.nanos ≤ now.nanos) (hstop : now.nanos < stop.nanos) :
    continuous total now start stop =
      total * (stop.nanos - now.nanos).toNat / (stop.nanos - start.nanos).toNat := by
  have hopen : ¬(stop.nanos ≤ start.nanos ∨ stop.nanos ≤ now.nanos) := by omega
  have hstarted : ¬now.nanos < start.nanos := by omega
  rw [continuous, if_neg hopen, if_neg hstarted]

theorem continuous_le : continuous total now start stop ≤ total := by
  by_cases hclosed : stop.nanos ≤ start.nanos ∨ stop.nanos ≤ now.nanos
  · rw [continuous_of_closed hclosed]
    exact Nat.zero_le _
  · by_cases hstart : now.nanos < start.nanos
    · exact Nat.le_of_eq (continuous_of_lt_start (by omega) hstart)
    · rw [continuous_of_within (by omega) (by omega)]
      exact share_le (by omega)

theorem continuous_antitone (h : now.nanos ≤ now'.nanos) :
    continuous total now' start stop ≤ continuous total now start stop := by
  by_cases hclosed : stop.nanos ≤ start.nanos ∨ stop.nanos ≤ now'.nanos
  · rw [continuous_of_closed hclosed]
    exact Nat.zero_le _
  · by_cases hstart : now.nanos < start.nanos
    · rw [continuous_of_lt_start (by omega) hstart]
      exact continuous_le
    · -- both instants lie within the interval, and the later one leaves less of it
      have hleft : (stop.nanos - now'.nanos).toNat ≤ (stop.nanos - now.nanos).toNat := by omega
      rw [continuous_of_within (by omega) (by omega), continuous_of_within (by omega) (by omega)]
      exact Nat.div_le_div_right (Nat.mul_le_mul_left total hleft)

/-! ### Clawback -/

theorem clawback_le : clawback total now start cliff stop ≤ total := by
  by_cases hcliff : now.nanos < cliff.nanos
  · exact Nat.le_of_eq (if_pos hcliff)
  · rw [clawback, if_neg hcliff]
    exact continuous_le

theorem clawback_antitone (h : now.nanos ≤ now'.nanos) :
    clawback total now' start cliff stop ≤ clawback total now start cliff stop := by
  -- before the cliff everything is locked, so whatever comes after it is no more
  by_cases hcliff : now.nanos < cliff.nanos
  · have hall : clawback total now start cliff stop = total := if_pos hcliff
    rw [hall]
    exact clawback_le
  · have hpassed : ¬now'.nanos < cliff.nanos := by omega
    rw [clawback, clawback, if_neg hcliff, if_neg hpassed]
    exact continuous_antitone h

/-! ### Periodic -/

@[simp]
theorem periodic_nil : periodic [] now = 0 := rfl

/-- Each tranche is a delayed lock of its own. -/
@[simp]
theorem periodic_cons (t : Tranche) (ts : List Tranche) :
    periodic (t :: ts) now = delayed t.amount now t.stop + periodic ts now := by
  by_cases h : now.nanos < t.stop.nanos
  · simp [periodic, delayed, h]
  · simp [periodic, delayed, h]

theorem periodic_le (ts : List Tranche) : periodic ts now ≤ Amount.sum (ts.map (·.amount)) := by
  induction ts with
  | nil => exact Nat.le_refl _
  | cons t ts ih =>
    have hhead : delayed t.amount now t.stop ≤ t.amount := delayed_le
    rw [periodic_cons, List.map_cons, Amount.sum_cons]
    omega

theorem periodic_antitone (ts : List Tranche) (h : now.nanos ≤ now'.nanos) :
    periodic ts now' ≤ periodic ts now := by
  induction ts with
  | nil => exact Nat.le_refl _
  | cons t ts ih =>
    have hhead : delayed t.amount now' t.stop ≤ delayed t.amount now t.stop := delayed_antitone h
    rw [periodic_cons, periodic_cons]
    omega

end Circulation.Schedule
