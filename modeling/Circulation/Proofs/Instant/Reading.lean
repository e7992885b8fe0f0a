import Mathlib.Data.List.TakeWhile
import Circulation.Proofs.Except
import Circulation.Proofs.Instant.Clock
import Circulation.Proofs.Numeral

/-!
# Instants that are read

What a text denotes is an instant with a year of four digits, on a clock that is a whole number of
minutes and less than a day ahead of UTC or behind it. So it has a written form on its own clock.

## Main definitions

* `Circulation.Instant.IsWritable` — the instants with a written form on their own clock.
* `Circulation.Instant.Scan.Yields` — what holds of the parts that a reader yields.

## Main results

* `Circulation.Instant.yields_ofRfc3339` — what is read can be written.
* `Circulation.Instant.IsWritable.isOnClock` — what can be written is on a clock.
-/

namespace Circulation.Instant

open Numeral

/-! ### What readers yield -/

namespace Scan

variable {α β : Type}

/-- Whatever the text, what the reader yields has the property. -/
def Yields (x : Scan α) (p : α → Prop) : Prop :=
  ∀ cs, Circulation.Yields (x.run cs) fun r => p r.1

namespace Yields

variable {p : α → Prop} {q : β → Prop}

theorem trivial (x : Scan α) : Yields x fun _ => True :=
  fun _ _ _ => True.intro

theorem pure {a : α} (h : p a) : Yields (Pure.pure a) p :=
  fun _ => .ok h

theorem throw (why : Unreadable) : Yields (MonadExcept.throw why) p :=
  fun _ => .error why

theorem bind {x : Scan α} {f : α → Scan β} (hx : Yields x p) (hf : ∀ a, p a → Yields (f a) q) :
    Yields (x >>= f) q := by
  intro cs
  rw [StateT.run_bind]
  exact (hx cs).bind fun r hr => hf r.1 hr r.2

/-- A reader that goes on unless a condition holds. -/
theorem ite_throw {c : Prop} [Decidable c] {why : Unreadable} {next : Unit → Scan β}
    (h : ¬c → Yields (next ()) q) :
    Yields (if c then MonadExcept.throw why >>= next else next ()) q := by
  by_cases hc : c
  · rw [if_pos hc]
    exact (throw (p := fun _ => False) why).bind fun _ => False.elim
  · rw [if_neg hc]
    exact h hc

end Yields

theorem yields_digits (n : Nat) (name : String) : Yields (digits n name) (· < 10 ^ n) := by
  refine (Yields.trivial _).bind fun cs _ => ?_
  cases hvalue : natural? (cs.take n) with
  | none => exact .throw _
  | some value =>
    by_cases hlength : (cs.take n).length = n
    · simp only [if_pos hlength]
      refine (Yields.trivial _).bind fun _ _ => .pure ?_
      simp only [natural?, Option.ite_none_right_eq_some, Option.some.injEq,
        List.all_eq_true] at hvalue
      obtain ⟨⟨-, hdigits⟩, rfl⟩ := hvalue
      have hlt := ofDigits_lt hdigits
      rwa [hlength] at hlt
    · simp only [if_neg hlength]
      exact .throw _

theorem yields_fraction : Yields fraction (· < 1000000000) := by
  refine (Yields.trivial _).bind fun cs _ => ?_
  split
  · next rest =>
    refine Yields.ite_throw fun _ => (Yields.trivial _).bind fun _ _ => .pure ?_
    -- only the first nine digits count, and zeros make them up to nine
    have hdigits : ∀ d ∈ (rest.takeWhile Char.isDigit).take 9, d.isDigit = true := fun d hd =>
      List.mem_takeWhile_imp (List.mem_of_mem_take hd)
    have hlength : ((rest.takeWhile Char.isDigit).take 9).length ≤ 9 := List.length_take_le _ _
    generalize (rest.takeWhile Char.isDigit).take 9 = kept at hdigits hlength
    calc ofDigits kept * 10 ^ (9 - kept.length)
        < 10 ^ kept.length * 10 ^ (9 - kept.length) :=
          Nat.mul_lt_mul_of_pos_right (ofDigits_lt hdigits) (Nat.pow_pos (by decide))
      _ = 10 ^ 9 := by rw [← Nat.pow_add, Nat.add_sub_cancel' hlength]
  · exact .pure (by decide)

theorem yields_offset : Yields offset fun o => o % 60 = 0 ∧ o.natAbs < 86400 := by
  refine (Yields.trivial _).bind fun cs _ => ?_
  cases cs with
  | nil => exact .throw _
  | cons c rest =>
    dsimp only
    split
    · exact (Yields.trivial _).bind fun _ _ => .pure (by decide)
    · split
      · refine (Yields.trivial _).bind fun _ _ => ?_
        refine (Yields.trivial _).bind fun hours _ => .ite_throw fun hhours => ?_
        refine (Yields.trivial _).bind fun _ _ => ?_
        refine (Yields.trivial _).bind fun minutes _ => .ite_throw fun hminutes => .pure ?_
        split <;> omega
      · exact .throw _

end Scan

/-! ### What is read -/

/-- The instants with a written form on their own clock: the year has four digits, and the clock is
a whole number of minutes and less than a day ahead of UTC or behind it. -/
structure IsWritable (t : Instant) : Prop where
  year : 0 ≤ t.localDate.year ∧ t.localDate.year ≤ 9999
  minutes : t.offset % 60 = 0
  offset : t.offset.natAbs < 86400

theorem exists_toRfc3339?_iff {t : Instant} :
    (∃ text, t.toRfc3339? = some text) ↔ t.IsWritable := by
  unfold toRfc3339?
  constructor
  · rintro ⟨text, h⟩
    obtain ⟨⟨hfrom, hto, hminutes, hoffset⟩, -⟩ := Option.ite_none_right_eq_some.mp h
    exact ⟨⟨hfrom, hto⟩, hminutes, hoffset⟩
  · rintro ⟨⟨hfrom, hto⟩, hminutes, hoffset⟩
    exact ⟨_, if_pos ⟨hfrom, hto, hminutes, hoffset⟩⟩

/-- What can be written is on a clock. -/
theorem IsWritable.isOnClock {t : Instant} (h : t.IsWritable) : t.IsOnClock := by
  refine ⟨isSupportedDay_iff.mpr ?_, h.offset⟩
  have hyear : Calendar.yearOf t.localDay = t.localDate.year := rfl
  have hfrom := h.year.1
  rw [hyear]
  exact ⟨by omega, h.year.2⟩

/-- A date and a time of day on a clock, all in their ranges. -/
theorem isWritable_ofLocal {year month day : Nat} {timeOfDay offset : Int} (hyear : year < 10000)
    (hmonth : 1 ≤ month ∧ month ≤ 12) (hday : 1 ≤ day ∧ day ≤ Date.monthLength year month)
    (htime : 0 ≤ timeOfDay ∧ timeOfDay < nanosPerDay)
    (hoffset : offset % 60 = 0 ∧ offset.natAbs < 86400) :
    (ofLocal (Date.dayNumber ⟨year, month, day⟩) timeOfDay offset).IsWritable := by
  have hlocal : (ofLocal (Date.dayNumber ⟨year, month, day⟩) timeOfDay offset).localDate.year =
      year := by
    change Calendar.yearOf (localDay _) = _
    rw [localDay_ofLocal htime.1 htime.2, Calendar.yearOf_dayNumber _ hmonth hday]
  refine ⟨?_, hoffset.1, hoffset.2⟩
  rw [hlocal]
  omega

theorem yields_checkRange (name : String) (low high value : Nat) :
    Yields (checkRange name low high value) fun _ => low ≤ value ∧ value ≤ high := by
  unfold checkRange
  by_cases h : low ≤ value ∧ value ≤ high
  · rw [if_pos h]
    exact .ok h
  · rw [if_neg h]
    exact .error _

/-- What the readers of the parts of a text bound: the year, the fraction and the offset. -/
def PartsInRange : Nat × Nat × Nat × Nat × Nat × Nat × Nat × Int → Prop
  | (year, _, _, _, _, _, nanos, offset) =>
    year < 10000 ∧ nanos < 1000000000 ∧ offset % 60 = 0 ∧ offset.natAbs < 86400

/-- **What is read can be written.** -/
theorem yields_ofRfc3339 (cs : List Char) : Yields (ofRfc3339 cs) IsWritable := by
  unfold ofRfc3339
  refine Yields.bind (p := fun r => PartsInRange r.1) ?_ ?_
  · revert cs
    refine Scan.Yields.bind (Scan.yields_digits 4 _) fun year hyear => ?_
    refine Scan.Yields.bind (.trivial _) fun _ _ => ?_
    refine Scan.Yields.bind (.trivial _) fun month _ => .ite_throw fun _ => ?_
    refine Scan.Yields.bind (.trivial _) fun _ _ => ?_
    refine Scan.Yields.bind (.trivial _) fun day _ => ?_
    refine Scan.Yields.bind (.trivial _) fun _ _ => ?_
    refine Scan.Yields.bind (.trivial _) fun hour _ => ?_
    refine Scan.Yields.bind (.trivial _) fun _ _ => ?_
    refine Scan.Yields.bind (.trivial _) fun minute _ => ?_
    refine Scan.Yields.bind (.trivial _) fun _ _ => ?_
    refine Scan.Yields.bind (.trivial _) fun second _ => ?_
    refine Scan.Yields.bind Scan.yields_fraction fun nanos hnanos => ?_
    refine Scan.Yields.bind Scan.yields_offset fun offset hoffset => .pure ?_
    exact ⟨hyear, hnanos, hoffset⟩
  · rintro ⟨⟨year, month, day, hour, minute, second, nanos, offset⟩, rest⟩ ⟨hyear, hnanos, hoffset⟩
    refine Yields.ite_throw fun _ => ?_
    refine (yields_checkRange "month" 1 12 month).bind fun _ hmonth => ?_
    refine (yields_checkRange "day" _ _ day).bind fun _ hday => ?_
    refine (yields_checkRange "hour" _ _ hour).bind fun _ hhour => ?_
    refine (yields_checkRange "minute" _ _ minute).bind fun _ hminute => ?_
    refine (yields_checkRange "second" _ _ second).bind fun _ hsecond => ?_
    have htime : ∀ s n : Nat, s ≤ 59 → n < 1000000000 →
        0 ≤ ((3600 * hour + 60 * minute + s : Nat) : Int) * nanosPerSecond + n ∧
          ((3600 * hour + 60 * minute + s : Nat) : Int) * nanosPerSecond + n < nanosPerDay := by
      intro s n hs hn
      simp only [nanosPerSecond, nanosPerDay]
      omega
    have honDay := fun s n hs hn => isWritable_ofLocal hyear hmonth hday (htime s n hs hn) hoffset
    dsimp only
    by_cases hleap : second = 60
    · simp only [beq_iff_eq, if_pos hleap]
      split
      · exact .ok (honDay 59 999999999 (by decide) (by decide))
      · exact .error _
    · simp only [beq_iff_eq, if_neg hleap]
      exact .ok (honDay second nanos (by omega) hnanos)

theorem yields_parse (s : String) : Yields (parse s) IsWritable :=
  (yields_ofRfc3339 _).mapError

theorem yields_ofUnixText (s : String) : Yields (ofUnixText s) fun t? => ∀ t ∈ t?, t.IsOnClock := by
  unfold ofUnixText
  dsimp only
  split
  · exact .ok fun t ht => absurd ht (by simp)
  · split
    · exact .error _
    · exact .ok fun t ht => absurd ht (by simp)
    · next seconds _ _ =>
      cases hseconds : ofUnixSeconds? seconds with
      | none => exact .error _
      | some instant =>
        refine .ok fun t ht => ?_
        obtain rfl := Option.some.inj ht
        exact .of_ofUnixSeconds? hseconds

end Circulation.Instant
