import Circulation.Proofs.Snapshot.RoundTrip
import Circulation.Proofs.Text.Order

/-!
# Written instants in the order of time

In UTC every part of date and time is written with the same number of digits for every instant, the
greater parts first. So the texts are in the order of the seconds that they show, and two instants
have the same text only if they lie in the same second. What is read from the text is that second.

## Main definitions

* `Circulation.Instant.utcSecond` — the second in which an instant lies.
* `Circulation.Instant.ShowsUtcYear` — the instants whose year in UTC has four digits.
* `Circulation.Instant.IsStampedBy` — the text of an instant and what is read from it.

## Main results

* `Circulation.Instant.ShowsUtcYear.isStampedBy` — such an instant has a text.
* `Circulation.Instant.lt_of_utcSecond_lt` — a later second has a greater text.
* `Circulation.Instant.exists_isStampedBy_ordered` — texts as instants and as end dates, and their
  order.
-/

namespace Circulation

open Json

/-! ### Digits -/

namespace Numeral

theorem ofDigits_cons (d : Char) (ds : List Char) :
    ofDigits (d :: ds) = digitValue d * 10 ^ ds.length + ofDigits ds := by
  have hsingle : ofDigits [d] = digitValue d := by simp [ofDigits]
  rw [← List.singleton_append, ofDigits_append, hsingle]

theorem toNat_of_isDigit {c : Char} (h : c.isDigit = true) : c.toNat = digitValue c + 48 := by
  simp only [Char.isDigit, Bool.and_eq_true, decide_eq_true_eq, ge_iff_le,
    UInt32.le_iff_toNat_le] at h
  have hlow : 48 ≤ c.toNat := h.1
  have hzero : '0'.toNat = 48 := rfl
  rw [digitValue]
  omega

theorem lt_of_digitValue_lt {d e : Char} (hd : d.isDigit = true) (he : e.isDigit = true)
    (h : digitValue d < digitValue e) : d < e := by
  have hlt : d.toNat < e.toNat := by
    rw [toNat_of_isDigit hd, toNat_of_isDigit he]
    omega
  exact hlt

theorem eq_of_digitValue_eq {d e : Char} (hd : d.isDigit = true) (he : e.isDigit = true)
    (h : digitValue d = digitValue e) : d = e := by
  refine Char.toNat_inj.mp ?_
  rw [toNat_of_isDigit hd, toNat_of_isDigit he, h]

/-- Of two numerals with equally many digits, that of the smaller number comes first, whatever
follows them. -/
theorem append_lt_append_of_ofDigits_lt {ds es : List Char} (hlength : ds.length = es.length)
    (hds : ∀ d ∈ ds, d.isDigit = true) (hes : ∀ e ∈ es, e.isDigit = true)
    (h : ofDigits ds < ofDigits es) (cs cs' : List Char) : ds ++ cs < es ++ cs' := by
  induction ds generalizing es with
  | nil =>
    obtain rfl := List.length_eq_zero_iff.mp hlength.symm
    exact absurd h (Nat.lt_irrefl _)
  | cons d ds ih =>
    cases es with
    | nil => exact nomatch hlength
    | cons e es =>
      obtain ⟨hd, hds⟩ := List.forall_mem_cons.mp hds
      obtain ⟨he, hes⟩ := List.forall_mem_cons.mp hes
      have hlength : ds.length = es.length := Nat.succ.inj hlength
      rw [ofDigits_cons, ofDigits_cons, ← hlength] at h
      rcases Nat.lt_trichotomy (digitValue d) (digitValue e) with hlt | heq | hgt
      · exact List.cons_lt_cons_iff.mpr (.inl (lt_of_digitValue_lt hd he hlt))
      · rw [heq, Nat.add_lt_add_iff_left] at h
        exact List.cons_lt_cons_iff.mpr (.inr ⟨eq_of_digitValue_eq hd he heq, ih hlength hds hes h⟩)
      · -- a greater first digit outweighs all digits after it
        have hrest : ofDigits es < 10 ^ ds.length := hlength ▸ ofDigits_lt hes
        have hfirst : (digitValue e + 1) * 10 ^ ds.length ≤ digitValue d * 10 ^ ds.length :=
          Nat.mul_le_mul_right _ hgt
        rw [Nat.succ_mul] at hfirst
        omega

end Numeral

/-! ### Dates -/

/-- A later day has a greater year, or the same year and a greater month, or the same month and a
greater day of the month. -/
theorem Calendar.ofDayNumber_lt {m n : Int} (h : m < n) :
    (Date.ofDayNumber m).year < (Date.ofDayNumber n).year ∨
      (Date.ofDayNumber m).year = (Date.ofDayNumber n).year ∧
        ((Date.ofDayNumber m).month < (Date.ofDayNumber n).month ∨
          (Date.ofDayNumber m).month = (Date.ofDayNumber n).month ∧
            (Date.ofDayNumber m).day < (Date.ofDayNumber n).day) := by
  have hindex := monthIndex_le_monthIndex (Int.le_of_lt h)
  have hm := monthStart_monthIndex m
  have hn := monthStart_monthIndex n
  obtain ⟨month, day, hmonth, -, heq, -⟩ := exists_ofDayNumber m
  obtain ⟨month', day', hmonth', -, heq', -⟩ := exists_ofDayNumber n
  rw [heq] at hindex hm ⊢
  rw [heq'] at hindex hn ⊢
  simp only [Date.monthIndex] at hindex hm hn
  by_cases hsame : yearOf m * 12 + (month - 1 : Int) = yearOf n * 12 + (month' - 1 : Int)
  · rw [hsame] at hm
    dsimp only
    omega
  · dsimp only
    omega

namespace Instant

open Numeral

/-! ### The parts of a text -/

theorem padded_append_lt {width m n : Nat} (hn : n < 10 ^ width) (hwidth : 0 < width)
    {cs ds : List Char} (h : m < n ∨ m = n ∧ cs < ds) :
    (padded width m).toList ++ cs < (padded width n).toList ++ ds := by
  rcases h with h | ⟨rfl, h⟩
  · have hm := isPadded_padded (Nat.lt_trans h hn) hwidth
    have hn := isPadded_padded hn hwidth
    exact append_lt_append_of_ofDigits_lt (hm.length.trans hn.length.symm) hm.digits hn.digits
      (by rwa [hm.value, hn.value]) cs ds
  · exact (Text.append_lt_append_left_iff _).mpr h

theorem cons_lt_cons (c : Char) {cs ds : List Char} (h : cs < ds) : c :: cs < c :: ds :=
  List.cons_lt_cons_iff.mpr (.inr ⟨rfl, h⟩)

/-- The characters of date and time of day. -/
theorem toList_dateTimeText (t : Instant) : t.dateTimeText.toList =
    (padded 4 t.localDate.year.toNat).toList ++ '-' :: ((padded 2 t.localDate.month).toList ++ '-' ::
      ((padded 2 t.localDate.day).toList ++ 'T' :: ((padded 2 (t.secondOfDay / 3600)).toList ++ ':' ::
        ((padded 2 (t.secondOfDay / 60 % 60)).toList ++ ':' ::
          (padded 2 (t.secondOfDay % 60)).toList)))) := by
  simp [dateTimeText, secondOfDay, String.toList_append]

theorem length_dateTimeText {t : Instant} (hto : t.localDate.year ≤ 9999) :
    t.dateTimeText.length = 19 := by
  obtain ⟨hmonth, -, -⟩ := localDate_spec t
  have hday : t.localDate.day ≤ 31 := (Calendar.day_mem t.localDay).2
  have hseconds := secondOfDay_lt t
  have hwidth : ∀ (width : Nat) {n : Nat}, n < 10 ^ width → 0 < width →
      (padded width n).toList.length = width :=
    fun _ _ hn hwidth => (isPadded_padded hn hwidth).length
  rw [← String.length_toList, toList_dateTimeText]
  simp only [List.length_append, List.length_cons]
  rw [hwidth 4 (by omega) (by decide), hwidth 2 (by omega) (by decide),
    hwidth 2 (by omega) (by decide), hwidth 2 (by omega) (by decide),
    hwidth 2 (by omega) (by decide), hwidth 2 (by omega) (by decide)]

/-- A later second of the same clock has a greater text, whatever follows. -/
theorem dateTimeText_append_lt {t u : Instant} (hfrom : 0 ≤ t.localDate.year)
    (hto : u.localDate.year ≤ 9999)
    (h : t.localDay < u.localDay ∨ t.localDay = u.localDay ∧ t.secondOfDay < u.secondOfDay)
    (cs ds : List Char) : t.dateTimeText.toList ++ cs < u.dateTimeText.toList ++ ds := by
  obtain ⟨hmonth, -, -⟩ := localDate_spec u
  have hday : u.localDate.day ≤ 31 := (Calendar.day_mem u.localDay).2
  have hseconds := secondOfDay_lt u
  have hdates : t.localDate.year < u.localDate.year ∨ t.localDate.year = u.localDate.year ∧
      (t.localDate.month < u.localDate.month ∨ t.localDate.month = u.localDate.month ∧
        (t.localDate.day < u.localDate.day ∨ t.localDate.day = u.localDate.day ∧
          t.secondOfDay < u.secondOfDay)) := by
    rcases h with h | ⟨h, hsecond⟩
    · have hdates := Calendar.ofDayNumber_lt h
      change t.localDate.year < _ ∨ t.localDate.year = u.localDate.year ∧ _ at hdates
      exact hdates.imp_right fun ⟨hyear, hdates⟩ => ⟨hyear, hdates.imp_right fun ⟨hmonth, hday⟩ =>
        ⟨hmonth, .inl hday⟩⟩
    · have hdate : t.localDate = u.localDate := by rw [localDate, h, localDate]
      rw [hdate]
      exact .inr ⟨rfl, .inr ⟨rfl, .inr ⟨rfl, hsecond⟩⟩⟩
  simp only [toList_dateTimeText, List.append_assoc, List.cons_append]
  have hyears : t.localDate.year < u.localDate.year → t.localDate.year.toNat < u.localDate.year.toNat :=
    fun h => by omega
  have htimes : t.secondOfDay < u.secondOfDay →
      t.secondOfDay / 3600 < u.secondOfDay / 3600 ∨ t.secondOfDay / 3600 = u.secondOfDay / 3600 ∧
        (t.secondOfDay / 60 % 60 < u.secondOfDay / 60 % 60 ∨
          t.secondOfDay / 60 % 60 = u.secondOfDay / 60 % 60 ∧
            t.secondOfDay % 60 < u.secondOfDay % 60) := fun h => by omega
  -- each part decides unless it is the same in both texts
  refine padded_append_lt (by omega) (by decide) (hdates.imp hyears ?_)
  rintro ⟨hyear, hdates⟩
  refine ⟨congrArg Int.toNat hyear, cons_lt_cons '-' ?_⟩
  refine padded_append_lt (by omega) (by decide) (hdates.imp_right ?_)
  rintro ⟨hmonth, hdates⟩
  refine ⟨hmonth, cons_lt_cons '-' ?_⟩
  refine padded_append_lt (by omega) (by decide) (hdates.imp_right ?_)
  rintro ⟨hday, hsecond⟩
  refine ⟨hday, cons_lt_cons 'T' ?_⟩
  refine padded_append_lt (by omega) (by decide) ((htimes hsecond).imp_right ?_)
  rintro ⟨hhour, htimes⟩
  refine ⟨hhour, cons_lt_cons ':' ?_⟩
  refine padded_append_lt (by omega) (by decide) (htimes.imp_right ?_)
  rintro ⟨hminute, hsecond⟩
  refine ⟨hminute, cons_lt_cons ':' ?_⟩
  exact padded_append_lt (by omega) (by decide) (.inl hsecond)

/-! ### Texts in UTC -/

/-- The number of the second in which an instant lies, counted from the epoch. -/
def utcSecond (t : Instant) : Int :=
  t.nanos / nanosPerSecond

/-- The year of the instant in UTC has four digits. -/
def ShowsUtcYear (t : Instant) : Prop :=
  0 ≤ t.toUtc.localDate.year ∧ t.toUtc.localDate.year ≤ 9999

instance (t : Instant) : Decidable t.ShowsUtcYear :=
  inferInstanceAs (Decidable (_ ∧ _))

/-- The text of an instant in UTC: twenty characters that end with a `Z`, from which the whole second
is read. -/
structure IsStampedBy (t : Instant) (text : String) : Prop where
  written : t.utcText? = some text
  length : text.length = 20
  getLast? : text.toList.getLast? = some 'Z'
  read : parse text = .ok t.floorToSecond

variable {t u : Instant}

theorem ShowsUtcYear.utcText?_eq (ht : t.ShowsUtcYear) :
    t.utcText? = some (t.toUtc.dateTimeText ++ "Z") := by
  obtain ⟨text, htext, -⟩ := exists_utcText?_ne_iff.mpr ht
  obtain ⟨hday, heq⟩ := Option.ite_none_right_eq_some.mp htext
  rw [htext, ← heq, if_pos ht.1]

theorem ShowsUtcYear.isStampedBy (ht : t.ShowsUtcYear) :
    t.IsStampedBy (t.toUtc.dateTimeText ++ "Z") where
  written := ht.utcText?_eq
  length := by rw [String.length_append, length_dateTimeText ht.2]; rfl
  getLast? := by rw [String.toList_append]; exact List.getLast?_concat
  read := (isShownBy_of_utcText? ht.1 ht.utcText?_eq).parse

/-- The second of an instant is its day in UTC and the second of the day. -/
theorem utcSecond_eq (t : Instant) : t.utcSecond = t.toUtc.localDay * 86400 + t.toUtc.secondOfDay := by
  simp only [utcSecond, localDay, secondOfDay, timeOfDay, localNanos, toUtc, nanosPerDay,
    nanosPerSecond]
  omega

/-- Instants in the same second have the same text. -/
theorem utcText?_eq_of_utcSecond_eq (h : t.utcSecond = u.utcSecond) : t.utcText? = u.utcText? := by
  have hfloor : t.floorToSecond = u.floorToSecond := by
    simp only [utcSecond] at h
    rw [floorToSecond, h, floorToSecond]
  rw [← utcText?_floorToSecond, hfloor, utcText?_floorToSecond]

/-- **A later second** has a greater text. -/
theorem lt_of_utcSecond_lt (ht : t.ShowsUtcYear) (hu : u.ShowsUtcYear)
    (h : t.utcSecond < u.utcSecond) : t.toUtc.dateTimeText ++ "Z" < u.toUtc.dateTimeText ++ "Z" := by
  have hsecond := secondOfDay_lt t.toUtc
  have hsecond' := secondOfDay_lt u.toUtc
  rw [utcSecond_eq, utcSecond_eq] at h
  rw [String.lt_iff_toList_lt, String.toList_append, String.toList_append]
  exact dateTimeText_append_lt ht.1 hu.2 (by omega) _ _

theorem text_lt_text_iff (ht : t.ShowsUtcYear) (hu : u.ShowsUtcYear) :
    t.toUtc.dateTimeText ++ "Z" < u.toUtc.dateTimeText ++ "Z" ↔ t.utcSecond < u.utcSecond := by
  refine ⟨fun h => ?_, lt_of_utcSecond_lt ht hu⟩
  rcases lt_trichotomy t.utcSecond u.utcSecond with hlt | heq | hgt
  · exact hlt
  · have htext := utcText?_eq_of_utcSecond_eq heq
    rw [ht.utcText?_eq, hu.utcText?_eq, Option.some.injEq] at htext
    rw [htext] at h
    exact absurd h (String.lt_irrefl _)
  · exact absurd h (String.lt_asymm (lt_of_utcSecond_lt hu ht hgt))

theorem text_eq_text_iff (ht : t.ShowsUtcYear) (hu : u.ShowsUtcYear) :
    t.toUtc.dateTimeText ++ "Z" = u.toUtc.dateTimeText ++ "Z" ↔ t.utcSecond = u.utcSecond := by
  have hlt := text_lt_text_iff ht hu
  have hgt := text_lt_text_iff hu ht
  rw [le_antisymm_iff, le_antisymm_iff, ← not_lt, ← not_lt, ← not_lt, ← not_lt, hlt, hgt]

end Instant

/-! ### Texts of end dates -/

/-- An end date is read back from its text, an instant as its whole second. -/
theorem EndDate.ofText_text? {d : EndDate} (h : d.ShowsYear) :
    ∃ text, d.text? = some text ∧ decoder.ofText (compact (.string text)) = .ok d.floored := by
  obtain ⟨text, htext, -, hread⟩ := exists_text? h
  have hsees : decoder.Sees 0 := Decoder.sees_string.refine _
  have hisText : (Tree.ofJson (.string text)).IsText (compact (.string text)) :=
    isText_compact True.intro
  refine ⟨text, htext, toOption_eq_some_iff.mp ?_⟩
  rw [hsees.ofText (by decide) hisText, hread]
  rfl

namespace Instant

/-- **Texts follow time.** Two instants whose years in UTC have four digits, on any clocks, have texts
of twenty characters that end with a `Z` and from which their whole seconds are read. The texts are the
same only in the same second and are otherwise in the order of time. Read back from its text, an end
date is of the same kind, and at an instant it is at the whole second. -/
theorem exists_isStampedBy_ordered {t u : Instant} (ht : t.ShowsUtcYear) (hu : u.ShowsUtcYear) :
    ∃ text text', t.IsStampedBy text ∧ u.IsStampedBy text' ∧
      (text = text' ↔ t.utcSecond = u.utcSecond) ∧ (text < text' ↔ t.utcSecond < u.utcSecond) ∧
      ∀ d ∈ [EndDate.none, .forever, .at t], ∃ s, d.text? = some s ∧
        EndDate.decoder.ofText (compact (.string s)) = .ok d.floored := by
  refine ⟨_, _, ht.isStampedBy, hu.isStampedBy, text_eq_text_iff ht hu, text_lt_text_iff ht hu,
    fun d hd => EndDate.ofText_text? fun t' ht' => ?_⟩
  simp only [List.mem_cons, List.not_mem_nil, or_false] at hd
  rcases hd with rfl | rfl | rfl
  · exact nomatch ht'
  · exact nomatch ht'
  · obtain rfl := EndDate.at.inj ht'
    exact ht

/-- An instant half a second before the epoch on a clock ahead of UTC, where it is the year after, and
one in the first second of March in UTC on a clock behind it, where it is the leap day. -/
theorem exists_isStampedBy_ordered_leapDay :
    let t : Instant := ⟨-500000000, 19800⟩
    let u : Instant := ⟨1709251200999999999, -86340⟩
    t.ShowsUtcYear ∧ u.ShowsUtcYear ∧ ∃ text text', t.IsStampedBy text ∧ u.IsStampedBy text' ∧
      (text = text' ↔ t.utcSecond = u.utcSecond) ∧ (text < text' ↔ t.utcSecond < u.utcSecond) ∧
      ∀ d ∈ [EndDate.none, .forever, .at t], ∃ s, d.text? = some s ∧
        EndDate.decoder.ofText (compact (.string s)) = .ok d.floored := by
  intro t u
  have ht : t.ShowsUtcYear := by decide
  have hu : u.ShowsUtcYear := by decide
  exact ⟨ht, hu, exists_isStampedBy_ordered ht hu⟩

example : (⟨-500000000, 19800⟩ : Instant).utcText? = some "1969-12-31T23:59:59Z" := by decide +kernel

end Instant

end Circulation
