import Circulation.Cache.Timeline
import Mathlib.Order.Nat

/-!
# The attempts of a refresher

A refresher that is alone on its cache builds, waits for one period of freshness, and builds again.
No build disturbs another, so what its attempts give, and when, follows from the world alone: an
attempt takes as long as the answers to its questions take together, and it leaves to the next one the
world that these answers leave behind.

## Main definitions

* `Circulation.Program.timed` — the result of a program, and after how long it has it.
* `Circulation.Refresher`, `Circulation.Refresher.attempt` — a refresher, and what its attempts give.
* `Circulation.Refresher.startOf`, `Circulation.Refresher.stopOf` — when its attempts begin and end.
* `Circulation.Refresher.slotAfter` — what the cache holds after some attempts.

## Main results

* `Circulation.Refresher.stopOf_lt_startOf` — attempts do not overlap.
* `Circulation.Refresher.slotAfter_eq_some_iff` — the cache holds the snapshot of the last attempt
  that had one.
* `Circulation.Refresher.attempt_ofAttempts` — attempts can give anything, after any time.
-/

namespace Circulation

variable {Q : Type} {A : Q → Type} {S : Type}

/-! ### Programs in time -/

namespace Program

variable {α : Type} (answer : S → (q : Q) → Timed S (A q))

/-- The result of a program, after how many milliseconds it has it, and the world then. -/
def timed (world : S) : Program Q A Event α → Timed S α
  | .done a => ⟨a, 0, world⟩
  | .note _ next => next.timed world
  | .ask q next =>
    let first := answer world q
    let rest := (next first.value).timed first.world
    ⟨rest.value, first.milliseconds + rest.milliseconds, rest.world⟩

/-- A program that is run as far as it gets without waiting either ends there, or has the rest of its
time before it. -/
theorem timed_eq_of_advance (world : S) (p : Program Q A Event α) :
    (∀ a, (p.advance answer world).2.2 = .inl a →
      p.timed answer world = ⟨a, 0, (p.advance answer world).1⟩) ∧
    ∀ milliseconds rest, (p.advance answer world).2.2 = .inr (milliseconds, rest) →
      0 < milliseconds ∧ p.timed answer world =
        ⟨(rest.timed answer (p.advance answer world).1).value,
          milliseconds + (rest.timed answer (p.advance answer world).1).milliseconds,
          (rest.timed answer (p.advance answer world).1).world⟩ := by
  induction p generalizing world with
  | done a =>
    refine ⟨?_, by simp [advance]⟩
    rintro _ ⟨⟩
    rfl
  | note e next ih => exact ih world
  | ask q next ih =>
    by_cases hnow : (answer world q).milliseconds = 0
    · rw [timed, advance, if_pos hnow, hnow, Nat.zero_add]
      exact ih _ _
    · simp only [timed, advance, if_neg hnow]
      refine ⟨by simp, ?_⟩
      rintro _ _ ⟨⟩
      exact ⟨Nat.pos_of_ne_zero hnow, rfl⟩

end Program

/-! ### Attempts -/

/-- A refresher that is alone on its cache. -/
structure Refresher (Q : Type) (A : Q → Type) (S : Type) where
  /-- What its cache is set up with. -/
  settings : Cache.Settings
  /-- What answers its builds. -/
  answers : World Q A S
  /-- The world in which it starts. -/
  world : S

namespace Refresher

variable (r : Refresher Q A S)

/-- The world in which an attempt begins. -/
def before : Nat → S
  | 0 => r.world
  | n + 1 => (r.answers.build.timed r.answers.answer (before n)).world

/-- What an attempt gives, how long it takes, and the world after it. -/
def attempt (n : Nat) : Timed S (Except ComputeError Snapshot) :=
  r.answers.build.timed r.answers.answer (r.before n)

/-- How many milliseconds the first attempts take together. -/
def spent : Nat → Nat
  | 0 => 0
  | n + 1 => spent n + (r.attempt n).milliseconds

/-- The instant at which an attempt begins: before it come the attempts before it, with a period of
freshness after each. -/
def startOf (n : Nat) : Nat :=
  n * r.settings.ttlMs + r.spent n

/-- The instant at which an attempt ends. -/
def stopOf (n : Nat) : Nat :=
  r.startOf n + (r.attempt n).milliseconds

/-- What the cache holds after the first attempts. An attempt without a snapshot leaves it alone. -/
def slotAfter : Nat → Option Stored
  | 0 => none
  | n + 1 =>
    match (r.attempt n).value with
    | .ok snapshot => some ⟨snapshot, r.stopOf n⟩
    | .error _ => slotAfter n

variable {r} {k n : Nat}

@[simp]
theorem startOf_zero : r.startOf 0 = 0 := by
  rw [startOf, spent, Nat.zero_mul]

theorem startOf_succ : r.startOf (n + 1) = r.stopOf n + r.settings.ttlMs := by
  rw [stopOf, startOf, startOf, spent, Nat.succ_mul]
  omega

theorem startOf_le_stopOf : r.startOf n ≤ r.stopOf n :=
  Nat.le_add_right _ _

/-- An attempt begins after all attempts before it have ended. -/
theorem stopOf_lt_startOf (hlt : k < n) : r.stopOf k < r.startOf n := by
  induction n, hlt using Nat.le_induction with
  | base =>
    rw [startOf_succ]
    exact Nat.lt_add_of_pos_right r.settings.ttlMs_pos
  | succ n hlt ih =>
    rw [startOf_succ]
    exact (ih.trans_le startOf_le_stopOf).trans_le (Nat.le_add_right _ _)

theorem startOf_mono (hle : k ≤ n) : r.startOf k ≤ r.startOf n := by
  rcases hle.eq_or_lt with rfl | hlt
  · exact le_rfl
  · exact startOf_le_stopOf.trans (stopOf_lt_startOf hlt).le

theorem stopOf_mono (hle : k ≤ n) : r.stopOf k ≤ r.stopOf n := by
  rcases hle.eq_or_lt with rfl | hlt
  · exact le_rfl
  · exact (stopOf_lt_startOf hlt).le.trans startOf_le_stopOf

theorem slotAfter_succ_of_ok {snapshot : Snapshot} (hvalue : (r.attempt n).value = .ok snapshot) :
    r.slotAfter (n + 1) = some ⟨snapshot, r.stopOf n⟩ := by
  rw [slotAfter, hvalue]

theorem slotAfter_succ_of_error {why : ComputeError} (hvalue : (r.attempt n).value = .error why) :
    r.slotAfter (n + 1) = r.slotAfter n := by
  rw [slotAfter, hvalue]

/-- After some attempts the cache is empty if and only if none of them had a snapshot. -/
theorem slotAfter_eq_none_iff :
    r.slotAfter n = none ↔ ∀ k < n, ∃ why, (r.attempt k).value = .error why := by
  induction n with
  | zero => exact iff_of_true rfl fun k hk => absurd hk (Nat.not_lt_zero k)
  | succ n ih =>
    cases hvalue : (r.attempt n).value with
    | ok snapshot =>
      rw [slotAfter_succ_of_ok hvalue]
      refine iff_of_false (by simp) fun hall => ?_
      obtain ⟨why, hwhy⟩ := hall n n.lt_succ_self
      exact absurd (hvalue.symm.trans hwhy) (by simp)
    | error why =>
      rw [slotAfter_succ_of_error hvalue, ih]
      refine ⟨fun hall k hk => ?_, fun hall k hk => hall k (Nat.lt_succ_of_lt hk)⟩
      rcases Nat.lt_succ_iff_lt_or_eq.mp hk with hk | rfl
      · exact hall k hk
      · exact ⟨why, hvalue⟩

/-- After some attempts the cache holds what the last of them that had a snapshot stored at its
end. -/
theorem slotAfter_eq_some_iff {stored : Stored} :
    r.slotAfter n = some stored ↔
      ∃ k < n, (r.attempt k).value = .ok stored.snapshot ∧ stored.storedAt = r.stopOf k ∧
        ∀ j < n, k < j → ∃ why, (r.attempt j).value = .error why := by
  induction n with
  | zero => exact iff_of_false (by simp [slotAfter]) fun ⟨k, hk, _⟩ => absurd hk (Nat.not_lt_zero k)
  | succ n ih =>
    cases hvalue : (r.attempt n).value with
    | ok snapshot =>
      rw [slotAfter_succ_of_ok hvalue, Option.some.injEq]
      refine ⟨?_, fun ⟨k, hk, hok, hstored, hlater⟩ => ?_⟩
      · rintro rfl
        exact ⟨n, n.lt_succ_self, hvalue, rfl, fun j hj hlt => absurd hlt (by omega)⟩
      · rcases Nat.lt_succ_iff_lt_or_eq.mp hk with hk | rfl
        · obtain ⟨why, hwhy⟩ := hlater n n.lt_succ_self hk
          exact absurd (hvalue.symm.trans hwhy) (by simp)
        · rw [hvalue, Except.ok.injEq] at hok
          rw [hok, ← hstored]
    | error why =>
      rw [slotAfter_succ_of_error hvalue, ih]
      refine ⟨fun ⟨k, hk, hok, hstored, hlater⟩ => ?_, fun ⟨k, hk, hok, hstored, hlater⟩ => ?_⟩
      · refine ⟨k, Nat.lt_succ_of_lt hk, hok, hstored, fun j hj hlt => ?_⟩
        rcases Nat.lt_succ_iff_lt_or_eq.mp hj with hj | rfl
        · exact hlater j hj hlt
        · exact ⟨why, hvalue⟩
      · rcases Nat.lt_succ_iff_lt_or_eq.mp hk with hk | rfl
        · exact ⟨k, hk, hok, hstored, fun j hj => hlater j (Nat.lt_succ_of_lt hj)⟩
        · exact absurd (hvalue.symm.trans hok) (by simp)

/-- What the cache holds was stored before the next attempt begins. -/
theorem storedAt_lt_startOf {stored : Stored} (hslot : r.slotAfter n = some stored) :
    stored.storedAt < r.startOf n := by
  obtain ⟨k, hk, -, hstored, -⟩ := slotAfter_eq_some_iff.mp hslot
  rw [hstored]
  exact stopOf_lt_startOf hk

/-- When every attempt has a snapshot, the cache holds that of the last one. -/
theorem exists_slotAfter_succ (hok : ∀ n, ∃ snapshot, (r.attempt n).value = .ok snapshot) (n : Nat) :
    ∃ snapshot, r.slotAfter (n + 1) = some ⟨snapshot, r.stopOf n⟩ := by
  obtain ⟨snapshot, hvalue⟩ := hok n
  exact ⟨snapshot, slotAfter_succ_of_ok hvalue⟩

/-! ### Any attempts -/

/-- A refresher whose attempts are given. Its builds ask one question, and the world counts them. -/
def ofAttempts (s : Cache.Settings) (value : Nat → Except ComputeError Snapshot)
    (milliseconds : Nat → Nat) : Refresher Unit (fun _ => Except ComputeError Snapshot) Nat where
  settings := s
  answers :=
    { build := .ask () .done
      answer := fun n _ => ⟨value n, milliseconds n, n + 1⟩ }
  world := 0

/-- Attempts can give anything, after any time. -/
theorem attempt_ofAttempts (s : Cache.Settings) (value : Nat → Except ComputeError Snapshot)
    (milliseconds : Nat → Nat) (n : Nat) :
    (ofAttempts s value milliseconds).attempt n = ⟨value n, milliseconds n, n + 1⟩ := by
  have hbefore : ∀ n, (ofAttempts s value milliseconds).before n = n := by
    intro n
    induction n with
    | zero => rfl
    | succ n ih =>
      rw [before, ih]
      rfl
  rw [attempt, hbefore]
  rfl

end Refresher

end Circulation
