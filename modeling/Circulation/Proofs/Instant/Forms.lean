import Circulation.Proofs.Instant.Rendering
import Circulation.Proofs.Json.Writing

/-!
# The forms of a time in a value

A time is stated as a text of RFC 3339 on any clock, or as the number of seconds since the epoch, which
is a text or a number. Seconds state only those times whose year UTC supports, and not the epoch
itself: zero, like an empty text, states no time.

## Main definitions

* `Circulation.Instant.IsEpochSeconds` — the number of seconds that states an instant.
* `Circulation.Json.StatesInteger` — the forms of an integer.
* `Circulation.Instant.IsStatedBy`, `Circulation.Json.StatesNoTime` — the forms of an instant and of no
  time.

## Main results

* `Circulation.Instant.join_ofUnixText` — the instant of a numeral of seconds, of whatever size.
* `Circulation.Instant.IsEpochSeconds.ofUnixText` — seconds are read as the instant.
-/

namespace Circulation

open Json

namespace Numeral

namespace IsIntegerText

variable {n : Int} {cs : List Char}

theorem trimChars_eq (h : IsIntegerText n cs) : Text.trimChars cs = cs := by
  have hdigit : ∀ {ds : List Char}, (∀ d ∈ ds, d.isDigit = true) → ∀ d ∈ ds, Text.isBlank d = false :=
    fun h d hd => Instant.isBlank_of_isDigit (h d hd)
  refine Text.trimChars_of_forall_not_isBlank ?_
  cases h with
  | natural _ hdigits => exact hdigit hdigits
  | negative _ hdigits => exact List.forall_mem_cons.mpr ⟨by decide, hdigit hdigits⟩

end IsIntegerText

/-- The written form of an integer is one of its numerals. -/
theorem isIntegerText_text (n : Int) : IsIntegerText n (Number.int n).text.toList :=
  isIntegerText_toString n

end Numeral

namespace Instant

/-! ### Seconds -/

/-- Supported instants are less than `2 ^ 60` seconds away from the epoch. -/
theorem natAbs_lt_of_ofUnixSeconds? {n : Int} {t : Instant} (h : ofUnixSeconds? n = some t) :
    n.natAbs < 2 ^ 60 := by
  obtain ⟨hday, -⟩ := Option.ite_none_right_eq_some.mp h
  simp only [isSupportedDay_iff_mem, localDay, localNanos, nanosPerDay, nanosPerSecond] at hday
  omega

theorem ofUnixSeconds?_eq_none {n : Int} (h : 2 ^ 60 ≤ n.natAbs) : ofUnixSeconds? n = none := by
  rw [Option.eq_none_iff_forall_ne_some]
  exact fun t ht => absurd (natAbs_lt_of_ofUnixSeconds? ht) (Nat.not_lt.mpr h)

/-- The instant of a numeral of seconds, which may be too large for a word. There is none for zero. -/
theorem join_ofUnixText {n : Int} {s : String} (hs : Numeral.IsIntegerText n s.toList) :
    (ofUnixText s).toOption.join = if n = 0 then none else ofUnixSeconds? n := by
  unfold ofUnixText
  simp only [hs.trimChars_eq, if_neg hs.ne_nil, Numeral.int64?, hs.integer?, Option.filter_some]
  by_cases hfits : Numeral.FitsInt64 n
  · rw [if_pos (decide_eq_true hfits)]
    by_cases hn : n = 0
    · subst hn
      rfl
    · rw [if_neg hn]
      split
      · next heq => exact absurd heq (Option.some_ne_none n)
      · next heq => exact absurd (Option.some.inj heq) hn
      · next heq =>
        obtain rfl := Option.some.inj heq
        cases ofUnixSeconds? n <;> rfl
  · rw [if_neg (by simpa using hfits)]
    unfold Numeral.FitsInt64 at hfits
    rw [if_neg (by omega), ofUnixSeconds?_eq_none (by omega)]
    rfl

/-- The number of seconds that states an instant: it is not zero, and UTC supports the year. -/
structure IsEpochSeconds (t : Instant) (seconds : Int) : Prop where
  nanos : t.nanos = seconds * nanosPerSecond
  supported : IsSupportedDay t.toUtc.localDay
  ne_zero : seconds ≠ 0

namespace IsEpochSeconds

variable {t : Instant} {seconds : Int}

theorem ofUnixSeconds? (h : t.IsEpochSeconds seconds) :
    Instant.ofUnixSeconds? seconds = some t.toUtc := by
  have hutc : (⟨seconds * nanosPerSecond, 0⟩ : Instant) = t.toUtc := by rw [toUtc, h.nanos]
  rw [Instant.ofUnixSeconds?, hutc, supported?, if_pos h.supported]

theorem fitsInt64 (h : t.IsEpochSeconds seconds) : Numeral.FitsInt64 seconds := by
  have hbound := natAbs_lt_of_ofUnixSeconds? h.ofUnixSeconds?
  unfold Numeral.FitsInt64
  omega

/-- **Seconds are read** as the instant, in UTC. -/
theorem ofUnixText (h : t.IsEpochSeconds seconds) {s : String}
    (hs : Numeral.IsIntegerText seconds s.toList) : Instant.ofUnixText s = .ok (some t.toUtc) := by
  have hread := join_ofUnixText hs
  rw [if_neg h.ne_zero, h.ofUnixSeconds?] at hread
  exact eq_ok_of_toOption (Option.join_eq_some_iff.mp hread)

end IsEpochSeconds

end Instant

/-- The forms of an integer: a numeral or a number. -/
inductive Json.StatesInteger (n : Int) : Json → Prop
  | text {s : String} (h : Numeral.IsIntegerText n s.toList) : StatesInteger n (.string s)
  | number : StatesInteger n (.number (.int n))

/-- The forms of an instant: a text that shows it on some clock, or its seconds. -/
inductive Instant.IsStatedBy (t : Instant) : Json → Prop
  | shown {u : Instant} {s : String} (hnanos : u.nanos = t.nanos) (h : u.IsShownBy s.toList) :
      IsStatedBy t (.string s)
  | seconds {n : Int} {v : Json} (h : t.IsEpochSeconds n) (hv : StatesInteger n v) : IsStatedBy t v

/-- The forms of no time. -/
inductive Json.StatesNoTime : Option Json → Prop
  | absent : StatesNoTime none
  | null : StatesNoTime (some .null)
  | empty : StatesNoTime (some (.string ""))
  | zeroText : StatesNoTime (some (.string "0"))
  | zero : StatesNoTime (some (.number (.int 0)))

/-- The forms of a time that may be unset. -/
inductive Instant.IsStatedBy? : Option Instant → Option Json → Prop
  | set {t : Instant} {v : Json} (h : t.IsStatedBy v) : IsStatedBy? (some t) (some v)
  | unset {v? : Option Json} (h : StatesNoTime v?) : IsStatedBy? none v?

end Circulation
