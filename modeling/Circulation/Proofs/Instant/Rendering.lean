import Mathlib.Tactic.Ring
import Circulation.Proofs.Instant.Reading

/-!
# Written instants

The texts of RFC 3339 that show an instant on its own clock, and what is read from them: the instant
itself, to the nanosecond and with its offset. An instant has several such texts: the separator, the
letter of UTC and the digits of the fraction may differ. The text that is written is one of them.

## Main definitions

* `Circulation.Numeral.IsPadded` — a number with a fixed count of digits.
* `Circulation.Instant.IsShownBy` — the texts that show an instant on its own clock.

## Main results

* `Circulation.Instant.IsShownBy.ofRfc3339` — the instant is read from any of its texts.
* `Circulation.Instant.isShownBy_of_toRfc3339?` — the written form is one of them.
-/

namespace Circulation

namespace Numeral

/-- A number as a fixed count of digits. -/
structure IsPadded (width n : Nat) (ds : List Char) : Prop where
  length : ds.length = width
  digits : ∀ d ∈ ds, d.isDigit = true
  value : ofDigits ds = n

theorem ofDigits_replicate_zero (k : Nat) (ds : List Char) :
    ofDigits (List.replicate k '0' ++ ds) = ofDigits ds := by
  induction k with
  | zero => rfl
  | succ k ih => exact ih

end Numeral

namespace Instant

open Numeral

theorem isPadded_padded {width n : Nat} (h : n < 10 ^ width) (hwidth : 0 < width) :
    IsPadded width n (padded width n).toList := by
  have hlength : (toString n).length ≤ width := by
    rw [← String.length_toList, toList_toString]
    exact (Nat.length_toDigits_le_iff (by decide) hwidth).mpr h
  refine ⟨?_, ?_, ?_⟩
  · simp only [padded, String.toList_append, String.toList_ofList, List.length_append,
      List.length_replicate]
    have htoList : (toString n).toList.length = (toString n).length := String.length_toList
    omega
  · intro d hd
    simp only [padded, String.toList_append, String.toList_ofList, List.mem_append] at hd
    rcases hd with hd | hd
    · rw [(List.mem_replicate.mp hd).2]
      rfl
    · exact (isCanonical_toString n).2.1 d hd
  · simp only [padded, String.toList_append, String.toList_ofList]
    rw [ofDigits_replicate_zero]
    exact value_toString n

/-! ### Texts -/

/-- The fraction of a second: nothing, or digits that denote its nanoseconds. -/
inductive FractionText : Nat → List Char → Prop
  | none : FractionText 0 []
  | digits {nanos : Nat} {ds : List Char} (hne : ds ≠ []) (hds : ∀ d ∈ ds, d.isDigit = true)
      (hvalue : ofDigits ds * 10 ^ 9 = nanos * 10 ^ ds.length) : FractionText nanos ('.' :: ds)

/-- The offset of a clock: the letter of UTC, or a sign, hours and minutes. -/
inductive OffsetText : Int → List Char → Prop
  | utc {c : Char} (hc : c = 'Z' ∨ c = 'z') : OffsetText 0 [c]
  | ahead {h m : Nat} {hs ms : List Char} (hours : IsPadded 2 h hs) (hh : h ≤ 23)
      (minutes : IsPadded 2 m ms) (hm : m ≤ 59) :
      OffsetText (3600 * h + 60 * m : Nat) ('+' :: (hs ++ ':' :: ms))
  | behind {h m : Nat} {hs ms : List Char} (hours : IsPadded 2 h hs) (hh : h ≤ 23)
      (minutes : IsPadded 2 m ms) (hm : m ≤ 59) :
      OffsetText (-(3600 * h + 60 * m : Nat)) ('-' :: (hs ++ ':' :: ms))

/-- The second of the local day. -/
def secondOfDay (t : Instant) : Nat :=
  (t.timeOfDay / nanosPerSecond).toNat

/-- The nanoseconds of the second. -/
def nanosOfSecond (t : Instant) : Nat :=
  (t.timeOfDay % nanosPerSecond).toNat

/-- The texts of RFC 3339 that show an instant on its own clock. -/
inductive IsShownBy (t : Instant) : List Char → Prop
  | text {years months days hours minutes seconds fraction offset : List Char} {separator : Char}
      (hfrom : 0 ≤ t.localDate.year) (hyear : IsPadded 4 t.localDate.year.toNat years)
      (hmonth : IsPadded 2 t.localDate.month months) (hday : IsPadded 2 t.localDate.day days)
      (hseparator : separator = 'T' ∨ separator = 't' ∨ separator = ' ')
      (hhour : IsPadded 2 (t.secondOfDay / 3600) hours)
      (hminute : IsPadded 2 (t.secondOfDay / 60 % 60) minutes)
      (hsecond : IsPadded 2 (t.secondOfDay % 60) seconds)
      (hfraction : FractionText t.nanosOfSecond fraction) (hoffset : OffsetText t.offset offset) :
      IsShownBy t (years ++ '-' :: (months ++ '-' :: (days ++ separator ::
        (hours ++ ':' :: (minutes ++ ':' :: (seconds ++ (fraction ++ offset)))))))

/-! ### Readers -/

namespace Scan

/-- A reader of digits takes as many as it has to. -/
theorem run_digits {n value : Nat} {ds : List Char} (h : IsPadded n value ds) (hn : 0 < n)
    (name : String) (rest : List Char) : (digits n name).run (ds ++ rest) = .ok (value, rest) := by
  have htake : (ds ++ rest).take n = ds := by rw [← h.length, List.take_left]
  have hdrop : (ds ++ rest).drop n = rest := by rw [← h.length, List.drop_left]
  have hne : ds ≠ [] := List.ne_nil_of_length_pos (h.length ▸ hn)
  have hvalue : natural? ds = some value := by
    rw [natural?, if_pos ⟨hne, List.all_eq_true.mpr h.digits⟩, h.value]
  simp only [digits, StateT.run_bind, StateT.run_get, pure_bind, htake, hdrop, hvalue, h.length,
    if_pos, StateT.run_set, StateT.run_pure]
  rfl

theorem run_mark (c : Char) (rest : List Char) : (mark c).run (c :: rest) = .ok ((), rest) := by
  simp only [mark, StateT.run_bind, StateT.run_get, pure_bind, if_pos, StateT.run_set]
  rfl

theorem run_separator {c : Char} (hc : c = 'T' ∨ c = 't' ∨ c = ' ') (rest : List Char) :
    separator.run (c :: rest) = .ok ((), rest) := by
  have hascii : c.toNat < 0x80 := by
    rcases hc with rfl | rfl | rfl <;> decide
  simp only [separator, StateT.run_bind, StateT.run_get, pure_bind, if_pos hascii, StateT.run_set]
  rfl

theorem run_mark_error {c : Char} {cs : List Char} (h : ∀ r, cs ≠ c :: r) :
    (mark c).run cs = .error .mark := by
  simp only [mark, StateT.run_bind, StateT.run_get, pure_bind]
  cases cs with
  | nil => rfl
  | cons d r =>
    have hne : d ≠ c := by
      rintro rfl
      exact h r rfl
    simp only [if_neg hne]
    rfl

/-- A reader of digits takes as many digits as it has to and leaves the rest. -/
theorem exists_of_run_digits {n value : Nat} {name : String} {cs rest : List Char}
    (h : (digits n name).run cs = .ok (value, rest)) :
    ∃ ds, cs = ds ++ rest ∧ ds.length = n ∧ ∀ d ∈ ds, d.isDigit = true := by
  simp only [digits, StateT.run_bind, StateT.run_get, pure_bind] at h
  split at h
  · next hvalue =>
    have hdigits := (Option.ite_none_right_eq_some.mp hvalue).1.2
    split at h
    · next hlength =>
      simp only [StateT.run_bind, StateT.run_set, pure_bind, StateT.run_pure] at h
      cases h
      exact ⟨cs.take n, (List.take_append_drop n cs).symm, hlength, List.all_eq_true.mp hdigits⟩
    · cases h
  · cases h

/-- The nine digits that count denote the nanoseconds, whatever zeros follow. -/
theorem nanos_of_fraction {nanos : Nat} {ds : List Char}
    (hvalue : ofDigits ds * 10 ^ 9 = nanos * 10 ^ ds.length) (hds : ∀ d ∈ ds, d.isDigit = true) :
    ofDigits (ds.take 9) * 10 ^ (9 - (ds.take 9).length) = nanos := by
  have hsplit : ofDigits ds =
      ofDigits (ds.take 9) * 10 ^ (ds.drop 9).length + ofDigits (ds.drop 9) := by
    rw [← ofDigits_append, List.take_append_drop]
  have hrest : ofDigits (ds.drop 9) < 10 ^ (ds.drop 9).length :=
    ofDigits_lt fun d hd => hds d (List.mem_of_mem_drop hd)
  rcases Nat.le_total ds.length 9 with hle | hle
  · rw [List.take_of_length_le hle]
    have hpow : 10 ^ 9 = 10 ^ (9 - ds.length) * 10 ^ ds.length := by
      rw [← Nat.pow_add, Nat.sub_add_cancel hle]
    rw [hpow, ← Nat.mul_assoc] at hvalue
    exact Nat.eq_of_mul_eq_mul_right (Nat.pow_pos (by decide)) hvalue
  · have hlength : (ds.take 9).length = 9 := by rw [List.length_take, Nat.min_eq_left hle]
    have hdrop : (ds.drop 9).length = ds.length - 9 := List.length_drop
    have hpow : 10 ^ ds.length = 10 ^ (ds.length - 9) * 10 ^ 9 := by
      rw [← Nat.pow_add, Nat.sub_add_cancel hle]
    rw [hpow, ← Nat.mul_assoc] at hvalue
    have hwhole := Nat.eq_of_mul_eq_mul_right (Nat.pow_pos (by decide)) hvalue
    rw [hdrop] at hsplit hrest
    have hquotient : nanos * 10 ^ (ds.length - 9) / 10 ^ (ds.length - 9) = ofDigits (ds.take 9) := by
      rw [← hwhole, hsplit, Nat.add_comm, Nat.add_mul_div_right _ _ (Nat.pow_pos (by decide)),
        Nat.div_eq_of_lt hrest, Nat.zero_add]
    rw [Nat.mul_div_cancel _ (Nat.pow_pos (by decide))] at hquotient
    rw [hlength, ← hquotient]
    exact Nat.mul_one nanos

/-- What follows a fraction does not go on with it. -/
theorem run_fraction {nanos : Nat} {cs : List Char} (h : FractionText nanos cs) {rest : List Char}
    (hrest : ∀ c r, rest = c :: r → c.isDigit = false ∧ c ≠ '.') :
    fraction.run (cs ++ rest) = .ok (nanos, rest) := by
  cases h with
  | none =>
    rw [List.nil_append]
    simp only [fraction, StateT.run_bind, StateT.run_get, pure_bind]
    split
    · next r => exact absurd rfl (hrest '.' r rfl).2
    · rfl
  | @digits _ ds hne hds hvalue =>
    have htake : (ds ++ rest).takeWhile Char.isDigit = ds := by
      rw [List.takeWhile_append_of_pos hds]
      cases rest with
      | nil => simp
      | cons c r => simp [(hrest c r rfl).1]
    have hdrop : (ds ++ rest).dropWhile Char.isDigit = rest := by
      rw [List.dropWhile_append_of_pos hds]
      cases rest with
      | nil => rfl
      | cons c r => simp [(hrest c r rfl).1]
    rw [List.cons_append]
    simp only [fraction, StateT.run_bind, StateT.run_get, pure_bind, htake, hdrop, if_neg hne,
      StateT.run_set, StateT.run_pure]
    rw [← nanos_of_fraction hvalue hds]
    rfl

theorem run_offset {o : Int} {cs : List Char} (h : OffsetText o cs) :
    offset.run cs = .ok (o, []) := by
  have hsigned : ∀ {sign : Char} {h m : Nat} {hs ms : List Char}, sign = '+' ∨ sign = '-' →
      IsPadded 2 h hs → h ≤ 23 → IsPadded 2 m ms → m ≤ 59 →
      offset.run (sign :: (hs ++ ':' :: ms)) =
        .ok (if sign = '-' then -(3600 * h + 60 * m : Nat) else (3600 * h + 60 * m : Nat), []) := by
    intro sign h m hs ms hsign hours hh minutes hm
    have hutc : ¬(sign = 'Z' ∨ sign = 'z') := by
      rcases hsign with rfl | rfl <;> decide
    have hhours := run_digits hours (by decide) "offset hour" (':' :: ms)
    have hminutes := run_digits minutes (by decide) "offset minute" []
    rw [List.append_nil] at hminutes
    have hh : ¬23 < h := by omega
    have hm : ¬59 < m := by omega
    simp only [offset, StateT.run_bind, StateT.run_get, pure_bind, if_neg hutc, if_pos hsign,
      StateT.run_set, hhours, ok_bind, if_neg hh, run_mark, hminutes, if_neg hm, StateT.run_pure]
    split <;> simp <;> rfl
  cases h with
  | utc hc =>
    simp only [offset, StateT.run_bind, StateT.run_get, pure_bind, if_pos hc, StateT.run_set,
      StateT.run_pure]
    rfl
  | ahead hours hh minutes hm => exact hsigned (.inl rfl) hours hh minutes hm
  | behind hours hh minutes hm => exact hsigned (.inr rfl) hours hh minutes hm

end Scan

/-! ### Parts -/

theorem secondOfDay_lt (t : Instant) : t.secondOfDay < 86400 := by
  have h := timeOfDay_mem t
  simp only [secondOfDay, nanosPerDay, nanosPerSecond] at *
  omega

theorem nanosOfSecond_lt (t : Instant) : t.nanosOfSecond < 1000000000 := by
  simp only [nanosOfSecond, nanosPerSecond]
  omega

theorem timeOfDay_eq (t : Instant) :
    t.timeOfDay = t.secondOfDay * nanosPerSecond + t.nanosOfSecond := by
  have h := (timeOfDay_mem t).1
  simp only [secondOfDay, nanosOfSecond, nanosPerSecond]
  omega

theorem OffsetText.ends {o : Int} {cs : List Char} (h : OffsetText o cs) :
    ∀ c r, cs = c :: r → c.isDigit = false ∧ c ≠ '.' := by
  cases h with
  | utc hc => rcases hc with rfl | rfl <;> rintro _ _ ⟨⟩ <;> decide
  | ahead _ _ _ _ => rintro _ _ ⟨⟩; decide
  | behind _ _ _ _ => rintro _ _ ⟨⟩; decide

/-! ### What is read -/

theorem checkRange_eq_ok {name : String} {low high value : Nat} (h : low ≤ value ∧ value ≤ high) :
    checkRange name low high value = .ok () :=
  if_pos h

/-- **An instant is read** from any of the texts that show it. -/
theorem IsShownBy.ofRfc3339 {t : Instant} {cs : List Char} (h : t.IsShownBy cs) :
    ofRfc3339 cs = .ok t := by
  obtain ⟨hfrom, hyear, hmonth, hday, hseparator, hhour, hminute, hsecond, hfraction, hoffset⟩ := h
  obtain ⟨hmonthRange, hdayRange, hnumber⟩ := localDate_spec t
  have hmonth0 : ¬t.localDate.month = 0 := by omega
  have hyearCast : ((t.localDate.year.toNat : Nat) : Int) = t.localDate.year := Int.toNat_of_nonneg hfrom
  have hseconds := secondOfDay_lt t
  have hsplit : 3600 * (t.secondOfDay / 3600) + 60 * (t.secondOfDay / 60 % 60) +
      t.secondOfDay % 60 = t.secondOfDay := by omega
  have hhourRange : 0 ≤ t.secondOfDay / 3600 ∧ t.secondOfDay / 3600 ≤ 23 := by omega
  have hminuteRange : 0 ≤ t.secondOfDay / 60 % 60 ∧ t.secondOfDay / 60 % 60 ≤ 59 := by omega
  have hsecondRange : 0 ≤ t.secondOfDay % 60 ∧ t.secondOfDay % 60 ≤ 60 := by omega
  have hleap : (t.secondOfDay % 60 == 60) = false := by
    rw [beq_eq_false_iff_ne]
    omega
  unfold Instant.ofRfc3339
  simp only [StateT.run_bind, Scan.run_digits hyear (by decide), Scan.run_mark,
    Scan.run_digits hmonth (by decide), if_neg hmonth0, Scan.run_digits hday (by decide),
    Scan.run_separator hseparator, Scan.run_digits hhour (by decide),
    Scan.run_digits hminute (by decide), Scan.run_digits hsecond (by decide),
    Scan.run_fraction hfraction hoffset.ends, Scan.run_offset hoffset, ok_bind, StateT.run_pure]
  simp only [pure_bind, ne_eq, not_true_eq_false, if_false, hyearCast, hsplit, hleap,
    checkRange_eq_ok hmonthRange, checkRange_eq_ok hdayRange, checkRange_eq_ok hhourRange,
    checkRange_eq_ok hminuteRange, checkRange_eq_ok hsecondRange, ok_bind, Bool.false_eq_true,
    ← timeOfDay_eq]
  show Except.ok (ofLocal t.localDate.dayNumber t.timeOfDay t.offset) = Except.ok t
  rw [hnumber, ofLocal_localDay]

/-! ### What is written -/

theorem exists_eq_append_replicate (ds : List Char) :
    ∃ k, ds = (ds.reverse.dropWhile (· == '0')).reverse ++ List.replicate k '0' := by
  have hzeros : ds.reverse.takeWhile (· == '0') =
      List.replicate (ds.reverse.takeWhile (· == '0')).length '0' :=
    List.eq_replicate_iff.mpr ⟨rfl, fun d hd => by simpa using List.mem_takeWhile_imp hd⟩
  refine ⟨(ds.reverse.takeWhile (· == '0')).length, ?_⟩
  have hsplit : ds.reverse =
      List.replicate (ds.reverse.takeWhile (· == '0')).length '0' ++
        ds.reverse.dropWhile (· == '0') := by
    rw [← hzeros, List.takeWhile_append_dropWhile]
  have hreverse := congrArg List.reverse hsplit
  rwa [List.reverse_reverse, List.reverse_append, List.reverse_replicate] at hreverse

theorem fractionText_spec (t : Instant) : FractionText t.nanosOfSecond t.fractionText.toList := by
  have hlt := nanosOfSecond_lt t
  have hnanos : (t.timeOfDay % nanosPerSecond).toNat = t.nanosOfSecond := rfl
  unfold fractionText
  dsimp only
  rw [hnanos]
  by_cases hzero : t.nanosOfSecond = 0
  · rw [if_pos hzero, hzero]
    exact .none
  · rw [if_neg hzero]
    have hpadded : IsPadded 9 t.nanosOfSecond (padded 9 t.nanosOfSecond).toList :=
      isPadded_padded hlt (by decide)
    obtain ⟨k, hk⟩ := exists_eq_append_replicate (padded 9 t.nanosOfSecond).toList
    have hpoint : ".".toList = ['.'] := rfl
    rw [String.toList_append, hpoint, String.toList_ofList, List.singleton_append]
    generalize ((padded 9 t.nanosOfSecond).toList.reverse.dropWhile (· == '0')).reverse = kept at hk
    obtain ⟨hlength, hdigits, hvalue⟩ := hk ▸ hpadded
    have hzeros : ofDigits (List.replicate k '0') = 0 := by
      simpa [ofDigits] using ofDigits_replicate_zero k []
    rw [ofDigits_append, List.length_replicate, hzeros, Nat.add_zero] at hvalue
    rw [List.length_append, List.length_replicate] at hlength
    refine .digits ?_ (fun d hd => hdigits d (List.mem_append_left _ hd)) ?_
    · rintro rfl
      rw [show ofDigits [] = 0 from rfl, Nat.zero_mul] at hvalue
      exact hzero hvalue.symm
    · rw [← hvalue, ← hlength, Nat.pow_add]
      ring

theorem offsetText_spec {t : Instant} (hminutes : t.offset % 60 = 0) (hday : t.offset.natAbs < 86400) :
    OffsetText t.offset t.offsetText.toList := by
  unfold offsetText
  generalize t.offset = o at hminutes hday
  by_cases hzero : o = 0
  · rw [if_pos hzero, hzero]
    exact .utc (.inl rfl)
  rw [if_neg hzero]
  obtain ⟨n, hn⟩ : ∃ n : Nat, o.natAbs = n * 60 := ⟨o.natAbs / 60, by omega⟩
  have hquotient : o.natAbs / 60 = n := by omega
  have hhours : n / 60 ≤ 23 := by omega
  have hrest : n % 60 ≤ 59 := by omega
  have hours : IsPadded 2 (n / 60) (padded 2 (n / 60)).toList := isPadded_padded (by omega) (by decide)
  have minutes : IsPadded 2 (n % 60) (padded 2 (n % 60)).toList :=
    isPadded_padded (by omega) (by decide)
  have hsplit : 3600 * (n / 60) + 60 * (n % 60) = n * 60 := by omega
  have hcolon : ":".toList = [':'] := rfl
  have hplus : "+".toList = ['+'] := rfl
  have hminus : "-".toList = ['-'] := rfl
  dsimp only
  rw [hquotient, String.toList_append, String.toList_append, String.toList_append, hcolon,
    List.append_assoc, List.append_assoc, List.singleton_append]
  by_cases hsign : o < 0
  · have hoffset : o = -((3600 * (n / 60) + 60 * (n % 60) : Nat) : Int) := by
      rw [hsplit]
      omega
    have htext := OffsetText.behind hours hhours minutes hrest
    rw [← hoffset] at htext
    rw [if_pos hsign, hminus, List.singleton_append]
    exact htext
  · have hoffset : o = ((3600 * (n / 60) + 60 * (n % 60) : Nat) : Int) := by
      rw [hsplit]
      omega
    have htext := OffsetText.ahead hours hhours minutes hrest
    rw [← hoffset] at htext
    rw [if_neg hsign, hplus, List.singleton_append]
    exact htext

/-- The date and the time of day as a text, with what follows. -/
theorem isShownBy_dateTimeText {t : Instant} (hfrom : 0 ≤ t.localDate.year) (hto : t.localDate.year ≤ 9999)
    {fraction offset : List Char} (hfraction : FractionText t.nanosOfSecond fraction)
    (hoffset : OffsetText t.offset offset) :
    t.IsShownBy (t.dateTimeText.toList ++ (fraction ++ offset)) := by
  obtain ⟨hmonthRange, hdayRange, -⟩ := localDate_spec t
  have hdayMax : t.localDate.day ≤ 31 := (Calendar.day_mem t.localDay).2
  have hseconds := secondOfDay_lt t
  have hshown : t.IsShownBy _ :=
    .text hfrom (isPadded_padded (by omega) (by decide)) (isPadded_padded (by omega) (by decide))
      (isPadded_padded (by omega) (by decide)) (.inl rfl) (isPadded_padded (by omega) (by decide))
      (isPadded_padded (by omega) (by decide)) (isPadded_padded (by omega) (by decide))
      hfraction hoffset
  simpa [dateTimeText, secondOfDay, String.toList_append] using hshown

/-- **The written form** of an instant shows it on its own clock. -/
theorem isShownBy_of_toRfc3339? {t : Instant} {s : String} (h : t.toRfc3339? = some s) :
    t.IsShownBy s.toList := by
  obtain ⟨⟨hfrom, hto, hminutes, hday⟩, heq⟩ := Option.ite_none_right_eq_some.mp h
  obtain rfl := Option.some.inj heq
  have hshown := isShownBy_dateTimeText hfrom hto (fractionText_spec t) (offsetText_spec hminutes hday)
  rw [String.toList_append, String.toList_append, List.append_assoc]
  exact hshown

/-- The whole second of an instant, in UTC. -/
def floorToSecond (t : Instant) : Instant :=
  ⟨t.nanos / nanosPerSecond * nanosPerSecond, 0⟩

theorem localDay_floorToSecond (t : Instant) : t.floorToSecond.localDay = t.toUtc.localDay := by
  simp only [localDay, localNanos, floorToSecond, toUtc, nanosPerDay, nanosPerSecond]
  omega

theorem secondOfDay_floorToSecond (t : Instant) : t.floorToSecond.secondOfDay = t.toUtc.secondOfDay := by
  simp only [secondOfDay, timeOfDay, localNanos, floorToSecond, toUtc, nanosPerDay, nanosPerSecond]
  omega

theorem nanosOfSecond_floorToSecond (t : Instant) : t.floorToSecond.nanosOfSecond = 0 := by
  simp only [nanosOfSecond, timeOfDay, localNanos, floorToSecond, nanosPerDay, nanosPerSecond]
  omega

theorem localDate_floorToSecond (t : Instant) : t.floorToSecond.localDate = t.toUtc.localDate := by
  rw [localDate, localDay_floorToSecond, localDate]

theorem dateTimeText_floorToSecond (t : Instant) :
    t.floorToSecond.dateTimeText = t.toUtc.dateTimeText := by
  have hsecond := secondOfDay_floorToSecond t
  unfold secondOfDay at hsecond
  simp only [dateTimeText, localDate_floorToSecond, hsecond]

/-- The whole second has the written form of the instant. -/
theorem utcText?_floorToSecond (t : Instant) : t.floorToSecond.utcText? = t.utcText? := by
  have hutc : t.floorToSecond.toUtc = t.floorToSecond := rfl
  unfold utcText?
  simp only [hutc, localDay_floorToSecond, localDate_floorToSecond, dateTimeText_floorToSecond]

/-- The written form in UTC shows the whole second. -/
theorem isShownBy_of_utcText? {t : Instant} {s : String} (hfrom : 0 ≤ t.toUtc.localDate.year)
    (h : t.utcText? = some s) : t.floorToSecond.IsShownBy s.toList := by
  obtain ⟨hsupported, heq⟩ := Option.ite_none_right_eq_some.mp h
  rw [if_pos hfrom] at heq
  obtain rfl := Option.some.inj heq
  have hto : t.toUtc.localDate.year ≤ 9999 := (isSupportedDay_iff.mp hsupported).2
  have hfraction : FractionText t.floorToSecond.nanosOfSecond [] := by
    rw [nanosOfSecond_floorToSecond]
    exact .none
  have hshown := isShownBy_dateTimeText (by rwa [localDate_floorToSecond])
    (by rwa [localDate_floorToSecond]) hfraction (.utc (.inl rfl))
  rw [String.toList_append, ← dateTimeText_floorToSecond]
  exact hshown

/-! ### Times that are read -/

theorem isBlank_of_isDigit {c : Char} (h : c.isDigit = true) : Text.isBlank c = false := by
  simp only [Char.isDigit, Bool.and_eq_true, decide_eq_true_eq, ge_iff_le,
    UInt32.le_iff_toNat_le] at h
  have hlow : 48 ≤ c.toNat := h.1
  have hhigh : c.toNat ≤ 57 := h.2
  simp only [Text.isBlank, Bool.or_eq_false_iff, Bool.and_eq_false_iff, decide_eq_false_iff_not,
    beq_eq_false_iff_ne]
  omega

/-- A text whose first and last characters are not blank is its own trimmed form. -/
theorem trimChars_eq_self {c d : Char} {cs ds : List Char} (hc : Text.isBlank c = false)
    (hd : Text.isBlank d = false) (h : c :: cs = ds ++ [d]) : Text.trimChars (c :: cs) = c :: cs := by
  rw [Text.trimChars, List.dropWhile_cons_of_neg (by simp [hc]), h, List.reverse_append,
    List.reverse_singleton, List.singleton_append, List.dropWhile_cons_of_neg (by simp [hd]),
    List.reverse_cons, List.reverse_reverse]

theorem exists_last_of_isPadded {width n : Nat} {ds : List Char} (h : IsPadded width n ds)
    (hwidth : 0 < width) : ∃ es d, ds = es ++ [d] ∧ d.isDigit = true := by
  have hne : ds ≠ [] := List.ne_nil_of_length_pos (h.length ▸ hwidth)
  exact ⟨ds.dropLast, ds.getLast hne, (List.dropLast_append_getLast hne).symm,
    h.digits _ (List.getLast_mem hne)⟩

theorem OffsetText.exists_last {o : Int} {cs : List Char} (h : OffsetText o cs) :
    ∃ ds d, cs = ds ++ [d] ∧ Text.isBlank d = false := by
  cases h with
  | utc hc =>
    refine ⟨[], _, rfl, ?_⟩
    rcases hc with rfl | rfl <;> decide
  | @ahead h m hs ms _ _ minutes _ =>
    obtain ⟨es, d, rfl, hd⟩ := exists_last_of_isPadded minutes (by decide)
    exact ⟨'+' :: (hs ++ ':' :: es), d, by simp, isBlank_of_isDigit hd⟩
  | @behind h m hs ms _ _ minutes _ =>
    obtain ⟨es, d, rfl, hd⟩ := exists_last_of_isPadded minutes (by decide)
    exact ⟨'-' :: (hs ++ ':' :: es), d, by simp, isBlank_of_isDigit hd⟩

/-- A text that shows an instant begins with a digit, has a hyphen and does not end with a blank. -/
theorem IsShownBy.exists_ends {t : Instant} {cs : List Char} (h : t.IsShownBy cs) :
    ∃ c cs' ds d, cs = c :: cs' ∧ cs = ds ++ [d] ∧ c.isDigit = true ∧ Text.isBlank d = false ∧
      '-' ∈ cs := by
  obtain ⟨-, hyear, -, -, -, -, -, -, -, hoffset⟩ := h
  rename_i years months days hours minutes seconds fraction offset separator
  obtain ⟨ds, d, rfl, hd⟩ := hoffset.exists_last
  have hne : years ≠ [] := List.ne_nil_of_length_pos (by rw [hyear.length]; decide)
  obtain ⟨c, years, rfl⟩ := List.exists_cons_of_ne_nil hne
  refine ⟨c, _, c :: years ++ '-' :: (months ++ '-' :: (days ++ separator :: (hours ++ ':' ::
    (minutes ++ ':' :: (seconds ++ (fraction ++ ds)))))), d, rfl, ?_, hyear.digits c List.mem_cons_self,
    hd, ?_⟩
  · simp
  · exact List.mem_append_right _ List.mem_cons_self

theorem IsShownBy.trimChars_eq {t : Instant} {cs : List Char} (h : t.IsShownBy cs) :
    Text.trimChars cs = cs := by
  obtain ⟨c, cs', ds, d, rfl, hlast, hc, hd, -⟩ := h.exists_ends
  exact trimChars_eq_self (isBlank_of_isDigit hc) hd hlast

/-- A shown instant is read, blanks or not. -/
theorem IsShownBy.parse {t : Instant} {s : String} (h : t.IsShownBy s.toList) :
    Instant.parse s = .ok t := by
  rw [Instant.parse, h.trimChars_eq, h.ofRfc3339]
  rfl

/-- A text that denotes an instant begins with the four digits of the year and a hyphen. -/
theorem exists_year_of_ofRfc3339 {t : Instant} {cs : List Char}
    (h : Instant.ofRfc3339 cs = .ok t) :
    ∃ ds rest, cs = ds ++ '-' :: rest ∧ ds.length = 4 ∧ ∀ d ∈ ds, d.isDigit = true := by
  unfold Instant.ofRfc3339 at h
  simp only [StateT.run_bind] at h
  cases hread : (Scan.digits 4 "year").run cs with
  | error why =>
    rw [hread] at h
    exact nomatch h
  | ok r =>
    obtain ⟨ds, hcs, hlength, hdigits⟩ := Scan.exists_of_run_digits hread
    by_cases hhyphen : ∃ rest, r.2 = '-' :: rest
    · obtain ⟨rest, hrest⟩ := hhyphen
      exact ⟨ds, rest, hrest ▸ hcs, hlength, hdigits⟩
    · have hmark : (Scan.mark '-').run r.2 = .error .mark :=
        Scan.run_mark_error fun rest hrest => hhyphen ⟨rest, hrest⟩
      simp only [hread, ok_bind, hmark] at h
      exact nomatch h

/-- A text that denotes an instant is no numeral. -/
theorem integer?_eq_none_of_ofRfc3339 {t : Instant} {cs : List Char}
    (h : Instant.ofRfc3339 cs = .ok t) : integer? cs = none := by
  obtain ⟨ds, rest, rfl, hlength, hdigits⟩ := exists_year_of_ofRfc3339 h
  obtain ⟨d, ds, rfl⟩ := List.exists_cons_of_length_eq_add_one hlength
  have hfirst : d.isDigit = true := hdigits d List.mem_cons_self
  have hnatural : natural? (d :: ds ++ '-' :: rest) = none := by
    rw [natural?, if_neg]
    rintro ⟨-, hall⟩
    have hhyphen : '-' ∈ d :: ds ++ '-' :: rest := List.mem_append_right _ List.mem_cons_self
    exact absurd (List.all_eq_true.mp hall '-' hhyphen) (by decide)
  unfold integer?
  split
  · next heq =>
    cases heq
    exact absurd hfirst (by decide)
  · next heq =>
    cases heq
    exact absurd hfirst (by decide)
  · rw [hnatural]
    rfl

/-- A shown instant is no numeral. -/
theorem IsShownBy.int64?_eq_none {t : Instant} {cs : List Char} (h : t.IsShownBy cs) :
    int64? cs = none := by
  rw [int64?, integer?_eq_none_of_ofRfc3339 h.ofRfc3339]
  rfl

theorem IsShownBy.ne_nil {t : Instant} {cs : List Char} (h : t.IsShownBy cs) : cs ≠ [] := by
  obtain ⟨c, cs', -, -, rfl, -⟩ := h.exists_ends
  exact List.cons_ne_nil c cs'

/-- A shown instant is no number of seconds. -/
theorem IsShownBy.ofUnixText_eq_error {t : Instant} {s : String} (h : t.IsShownBy s.toList) :
    ∃ why, ofUnixText s = .error why := by
  unfold ofUnixText
  simp only [h.trimChars_eq, if_neg h.ne_nil, h.int64?_eq_none]
  exact ⟨_, rfl⟩

/-- A numeral shows no instant, blanks or not. -/
theorem exists_parse_eq_error {s : String} {n : Int}
    (h : integer? (Text.trimChars s.toList) = some n) : ∃ why, Instant.parse s = .error why := by
  unfold Instant.parse
  cases hread : Instant.ofRfc3339 (Text.trimChars s.toList) with
  | error why => exact ⟨_, rfl⟩
  | ok t =>
    rw [integer?_eq_none_of_ofRfc3339 hread] at h
    exact nomatch h

end Instant

end Circulation
