import Circulation.Proofs.Lock.Schedule

/-!
# Amounts that open evenly

Between two instants an amount opens evenly: what is still locked is the share that the time left has
in the whole time, rounded down to whole units. The division is by the whole time, which is not zero
where it is made. An amount that is split in two loses at most one unit by rounding, and the clocks that
show the instants make no difference.

## Main definitions

* `Circulation.Instant.IsSamePoint` — one point in time, shown on two clocks.
* `Circulation.Schedule.OpensEvenly` — what is locked of every total while it opens evenly.
* `Circulation.Schedule.continuous?` — the locked amount where a division by zero has no result.

## Main results

* `Circulation.Schedule.continuous_eq_iff` — the share is the only number of whole units at its place.
* `Circulation.Schedule.opensEvenly_continuous` — a continuous schedule opens evenly, on any clocks.
-/

namespace Circulation

/-- Two instants are one point in time: what their clocks show differs by as much as the clocks do. -/
def Instant.IsSamePoint (t u : Instant) : Prop :=
  t.localNanos - u.localNanos = (t.offset - u.offset) * nanosPerSecond

instance (t u : Instant) : Decidable (t.IsSamePoint u) :=
  inferInstanceAs (Decidable (_ = _))

theorem Instant.IsSamePoint.nanos_eq {t u : Instant} (h : t.IsSamePoint u) : t.nanos = u.nanos := by
  simp only [IsSamePoint, localNanos, nanosPerSecond] at h
  omega

namespace Schedule

/-- What is locked of every total, at every instant, while it opens evenly between two instants. -/
structure OpensEvenly (start stop : Instant) (locked : (total : Nat) → (now : Instant) → Nat) :
    Prop where
  /-- Between the instants it is the share of the time left, and less than one unit is lost. -/
  within : ∀ total now amount, start.nanos ≤ now.nanos → now.nanos < stop.nanos →
    (locked total now = amount ↔
      (amount : Int) * (stop.nanos - start.nanos) ≤ total * (stop.nanos - now.nanos) ∧
        (total : Int) * (stop.nanos - now.nanos) < (amount + 1) * (stop.nanos - start.nanos))
  /-- Up to the first instant it is the total. -/
  upToStart : ∀ total now, start.nanos < stop.nanos → now.nanos ≤ start.nanos →
    locked total now = total
  /-- From the second instant on it is nothing. -/
  fromStop : ∀ total now, stop.nanos ≤ now.nanos → locked total now = 0
  /-- It is always nothing if the second instant does not come after the first. -/
  degenerate : ∀ total now, stop.nanos ≤ start.nanos → locked total now = 0
  /-- Of a greater total no less is locked. -/
  monotone : ∀ total total' now, total ≤ total' → locked total now ≤ locked total' now
  /-- No unit is gained by splitting a total, and at most one is lost. -/
  splitting : ∀ total total' now,
    locked total now + locked total' now ≤ locked (total + total') now ∧
      locked (total + total') now ≤ locked total now + locked total' now + 1

/-- A quotient rounded down, which there is none of by zero. -/
def quotient? (dividend divisor : Nat) : Option Nat :=
  if divisor = 0 then none else some (dividend / divisor)

/-- The locked amount of a continuous schedule, where a division by zero has no result. -/
def continuous? (total : Nat) (now start stop : Instant) : Option Nat :=
  if stop.nanos ≤ start.nanos ∨ stop.nanos ≤ now.nanos then some 0
  else if now.nanos < start.nanos then some total
  else quotient? (total * (stop.nanos - now.nanos).toNat) (stop.nanos - start.nanos).toNat

variable {total total' : Nat} {now now' start start' stop stop' : Instant}

/-- No division is by zero. -/
theorem continuous?_eq_some (total : Nat) (now start stop : Instant) :
    continuous? total now start stop = some (continuous total now start stop) := by
  unfold continuous? continuous
  split
  · rfl
  · next hopen =>
    split
    · rfl
    · have hspan : (stop.nanos - start.nanos).toNat ≠ 0 := by omega
      exact if_neg hspan

/-- A quotient rounded down is the only number at its place. -/
theorem div_eq_iff_mem {dividend whole amount : Nat} (hwhole : 0 < whole) :
    dividend / whole = amount ↔ amount * whole ≤ dividend ∧ dividend < (amount + 1) * whole := by
  rw [Nat.div_eq_iff hwhole, Nat.add_one_mul]
  omega

/-- **The share is exact.** It is the only number of whole units that the share of the time left reaches
and that one unit more exceeds. -/
theorem continuous_eq_iff {amount : Nat} (hstart : start.nanos ≤ now.nanos)
    (hstop : now.nanos < stop.nanos) :
    continuous total now start stop = amount ↔
      (amount : Int) * (stop.nanos - start.nanos) ≤ total * (stop.nanos - now.nanos) ∧
        (total : Int) * (stop.nanos - now.nanos) < (amount + 1) * (stop.nanos - start.nanos) := by
  -- the time left and the whole time are natural numbers, and the whole time is not zero
  obtain ⟨left, hleft⟩ := Int.eq_ofNat_of_zero_le (show 0 ≤ stop.nanos - now.nanos by omega)
  obtain ⟨whole, hwhole⟩ := Int.eq_ofNat_of_zero_le (show 0 ≤ stop.nanos - start.nanos by omega)
  have hpos : 0 < whole := by omega
  rw [continuous_of_within hstart hstop, hleft, hwhole, Int.toNat_natCast, Int.toNat_natCast,
    div_eq_iff_mem hpos]
  norm_cast

theorem continuous_of_le_start (hspan : start.nanos < stop.nanos) (h : now.nanos ≤ start.nanos) :
    continuous total now start stop = total := by
  rcases Int.lt_or_eq_of_le h with hlt | heq
  · exact continuous_of_lt_start hspan hlt
  · have hpos : 0 < (stop.nanos - start.nanos).toNat := by omega
    rw [continuous_of_within (by omega) (by omega), heq, Nat.mul_div_cancel _ hpos]

theorem continuous_mono (h : total ≤ total') (now start stop : Instant) :
    continuous total now start stop ≤ continuous total' now start stop := by
  unfold continuous
  split
  · exact Nat.le_refl _
  · split
    · exact h
    · exact Nat.div_le_div_right (Nat.mul_le_mul_right _ h)

/-- A quotient of a sum is that of its terms, and at most one more. -/
theorem add_div_mem (m n : Nat) {divisor : Nat} (h : 0 < divisor) :
    m / divisor + n / divisor ≤ (m + n) / divisor ∧
      (m + n) / divisor ≤ m / divisor + n / divisor + 1 := by
  rw [Nat.add_div h]
  split <;> omega

theorem continuous_add_mem (total total' : Nat) (now start stop : Instant) :
    continuous total now start stop + continuous total' now start stop ≤
        continuous (total + total') now start stop ∧
      continuous (total + total') now start stop ≤
        continuous total now start stop + continuous total' now start stop + 1 := by
  unfold continuous
  split
  · omega
  · split
    · omega
    · rw [Nat.add_mul]
      exact add_div_mem _ _ (by omega)

/-- The clocks make no difference. -/
theorem continuous_congr (hnow : now.IsSamePoint now') (hstart : start.IsSamePoint start')
    (hstop : stop.IsSamePoint stop') (total : Nat) :
    continuous total now start stop = continuous total now' start' stop' := by
  simp only [continuous, hnow.nanos_eq, hstart.nanos_eq, hstop.nanos_eq]

/-- **A continuous schedule opens evenly.** Between its two instants the share of the time left is
locked, exactly but for less than one unit; all is locked up to the first instant, and nothing from the
second on. No division is by zero, and the clocks that show the instants make no difference. -/
theorem opensEvenly_continuous (start stop : Instant) :
    OpensEvenly start stop (fun total now => continuous total now start stop) ∧
    (∀ total now, continuous? total now start stop = some (continuous total now start stop)) ∧
    ∀ total now now' start' stop', now.IsSamePoint now' → start.IsSamePoint start' →
      stop.IsSamePoint stop' →
        continuous total now start stop = continuous total now' start' stop' := by
  refine ⟨?_, fun total now => continuous?_eq_some total now start stop,
    fun total now now' start' stop' hnow hstart hstop => continuous_congr hnow hstart hstop total⟩
  exact {
    within := fun total now amount => continuous_eq_iff
    upToStart := fun total now => continuous_of_le_start
    fromStop := fun total now h => continuous_of_closed (.inr h)
    degenerate := fun total now h => continuous_of_closed (.inl h)
    monotone := fun total total' now h => continuous_mono h now start stop
    splitting := fun total total' now => continuous_add_mem total total' now start stop }

/-- When a third of the time has passed, of 10 units 6 are locked on whatever clocks, and of 2 units 1,
while of each unit alone nothing is locked any more. -/
theorem opensEvenly_continuous_third :
    let start : Instant := ⟨0, 0⟩
    let now : Instant := ⟨1000000000, -3600⟩
    let stop : Instant := ⟨3000000000, 7200⟩
    continuous 10 now start stop = 6 ∧ continuous 10 now.toUtc start stop.toUtc = 6 ∧
      continuous 1 now start stop = 0 ∧ continuous 2 now start stop = 1 ∧
      continuous 10 start start stop = 10 ∧ continuous 10 stop start stop = 0 ∧
      continuous? 10 now stop start = some 0 := by
  intro start now stop
  obtain ⟨heven, hdefined, hclocks⟩ := opensEvenly_continuous start stop
  have hten : continuous 10 now start stop = 6 :=
    (heven.within 10 now 6 (by decide) (by decide)).mpr (by decide)
  refine ⟨hten, ?_, ?_, ?_, heven.upToStart 10 start (by decide) (Int.le_refl _),
    heven.fromStop 10 stop (Int.le_refl _), ?_⟩
  · rw [← hclocks 10 now now.toUtc start stop.toUtc (by decide) (by decide) (by decide)]
    exact hten
  · exact (heven.within 1 now 0 (by decide) (by decide)).mpr (by decide)
  · exact (heven.within 2 now 1 (by decide) (by decide)).mpr (by decide)
  · obtain ⟨hback, hdefinedBack, -⟩ := opensEvenly_continuous stop start
    rw [hdefinedBack, hback.degenerate 10 now (by decide)]

end Schedule

end Circulation
