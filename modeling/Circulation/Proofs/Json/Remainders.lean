import Circulation.Proofs.Json.Literals

/-!
# What is left of a literal

In the middle of a literal the machine takes only characters with which some literal of the grammar
goes on. What is left of the literal after a character therefore gives what was left before it.

## Main definitions

* `Circulation.Json.Reader.NumberPhase.Remains` — what may follow in the literal of a number.
* `Circulation.Json.Reader.QuotePhase.Remains` — what may follow in a string literal.

## Main results

* `Circulation.Json.Reader.remains_cons`, `Circulation.Json.Reader.quoteRemains_cons` — a character that
  goes on with a literal.
-/

namespace Circulation.Json.Reader

open Grammar

/-! ### Numbers -/

/-- What may follow in a literal of a number that is in the middle of something. -/
def NumberPhase.Remains : NumberPhase → List Char → Prop
  | .sign, cs => ∀ negative, ∃ l, Unsigned negative l cs
  | .zero, cs => ∃ fraction exponent fractionText exponentText, Fraction fraction fractionText ∧
      Exponent exponent exponentText ∧ cs = fractionText ++ exponentText
  | .whole, cs => ∃ ds fraction exponent fractionText exponentText, (∀ d ∈ ds, d.isDigit = true) ∧
      Fraction fraction fractionText ∧ Exponent exponent exponentText ∧
      cs = ds ++ fractionText ++ exponentText
  | .point, cs => ∃ ds exponent exponentText, IsDigits ds ∧ Exponent exponent exponentText ∧
      cs = ds ++ exponentText
  | .fraction, cs => ∃ ds exponent exponentText, (∀ d ∈ ds, d.isDigit = true) ∧
      Exponent exponent exponentText ∧ cs = ds ++ exponentText
  | .exponentMark, cs => ∀ mark, mark = 'e' ∨ mark = 'E' → ∃ e, Exponent (some e) (mark :: cs)
  | .exponentSign, cs => IsDigits cs
  | .exponent, cs => ∀ d ∈ cs, d.isDigit = true

theorem remains_nil {p : NumberPhase} (hp : p.IsComplete) : p.Remains [] := by
  rcases hp with rfl | rfl | rfl | rfl
  · exact ⟨none, none, [], [], .none, .none, rfl⟩
  · exact ⟨[], none, none, [], [], by simp, .none, .none, rfl⟩
  · exact ⟨[], none, [], by simp, .none, rfl⟩
  · simp [NumberPhase.Remains]

theorem isDigits_cons {d : Char} {ds : List Char} (hd : d.isDigit = true)
    (hds : ∀ d ∈ ds, d.isDigit = true) : IsDigits (d :: ds) :=
  ⟨List.cons_ne_nil d ds, List.forall_mem_cons.mpr ⟨hd, hds⟩⟩

/-- A point or the mark of an exponent, where one may stand, begins what may follow the digits before
the point. -/
theorem remains_pointOrMark {n n' : Numeral} {c : Char} {cs : List Char}
    (h : (if c = '.' then NumberStep.more { n with phase := .point }
      else if c = 'e' ∨ c = 'E' then
        .more { n with
          phase := .exponentMark, literal := { n.literal with exponent := some (false, []) } }
      else .finished) = .more n') (hrest : n'.phase.Remains cs) :
    (NumberPhase.zero).Remains (c :: cs) := by
  split at h
  · next hc =>
    cases h
    obtain ⟨ds, exponent, exponentText, hds, hexponent, rfl⟩ := hrest
    exact ⟨some ds, exponent, '.' :: ds, exponentText, .point hds, hexponent, by rw [hc]; rfl⟩
  · split at h
    · next hc =>
      cases h
      obtain ⟨e, he⟩ := hrest c hc
      exact ⟨none, some e, [], c :: cs, .none, he, rfl⟩
    · cases h

/-- A character that goes on with a literal comes before what is left after it. -/
theorem remains_cons {n n' : Numeral} {c : Char} {cs : List Char}
    (h : numberStep n c = .more n') (hrest : n'.phase.Remains cs) : n.phase.Remains (c :: cs) := by
  obtain ⟨start, phase, literal⟩ := n
  cases phase with
  | sign =>
    intro negative
    simp only [numberStep] at h
    split at h
    · next hzero =>
      cases h
      obtain ⟨fraction, exponent, fractionText, exponentText, hfraction, hexponent, rfl⟩ := hrest
      subst hzero
      exact ⟨_, .parts .zero hfraction hexponent⟩
    · next hzero =>
      split at h
      · next hd =>
        cases h
        obtain ⟨ds, fraction, exponent, fractionText, exponentText, hds, hfraction, hexponent, rfl⟩ :=
          hrest
        exact ⟨_, .parts (.digits hzero hd hds) hfraction hexponent⟩
      · cases h
  | zero =>
    dsimp only [numberStep] at h
    split at h
    · cases h
    · exact remains_pointOrMark (n := ⟨start, .zero, literal⟩) h hrest
  | whole =>
    dsimp only [numberStep] at h
    split at h
    · next hd =>
      cases h
      obtain ⟨ds, fraction, exponent, fractionText, exponentText, hds, hfraction, hexponent, rfl⟩ :=
        hrest
      exact ⟨c :: ds, fraction, exponent, fractionText, exponentText,
        List.forall_mem_cons.mpr ⟨hd, hds⟩, hfraction, hexponent, rfl⟩
    · obtain ⟨fraction, exponent, fractionText, exponentText, hfraction, hexponent, heq⟩ :=
        remains_pointOrMark (n := ⟨start, .whole, literal⟩) h hrest
      exact ⟨[], fraction, exponent, fractionText, exponentText, by simp, hfraction, hexponent, heq⟩
  | point =>
    simp only [numberStep] at h
    split at h
    · next hd =>
      cases h
      obtain ⟨ds, exponent, exponentText, hds, hexponent, rfl⟩ := hrest
      exact ⟨c :: ds, exponent, exponentText, isDigits_cons hd hds, hexponent, rfl⟩
    · cases h
  | fraction =>
    dsimp only [numberStep] at h
    split at h
    · next hd =>
      cases h
      obtain ⟨ds, exponent, exponentText, hds, hexponent, rfl⟩ := hrest
      exact ⟨c :: ds, exponent, exponentText, List.forall_mem_cons.mpr ⟨hd, hds⟩, hexponent, rfl⟩
    · split at h
      · cases h
      · split at h
        · next hc =>
          cases h
          obtain ⟨e, he⟩ := hrest c hc
          exact ⟨[], some e, c :: cs, by simp, he, rfl⟩
        · cases h
  | exponentMark =>
    intro mark hmark
    simp only [numberStep] at h
    split at h
    · next hc =>
      cases h
      rcases hc with rfl | rfl
      · exact ⟨_, .plus hmark hrest⟩
      · exact ⟨_, .minus hmark hrest⟩
    · split at h
      · next hd =>
        cases h
        exact ⟨_, .unsigned hmark (isDigits_cons hd hrest)⟩
      · cases h
  | exponentSign =>
    simp only [numberStep] at h
    split at h
    · next hd =>
      cases h
      exact isDigits_cons hd hrest
    · cases h
  | exponent =>
    simp only [numberStep] at h
    split at h
    · next hd =>
      cases h
      exact List.forall_mem_cons.mpr ⟨hd, hrest⟩
    · cases h

/-- A literal that ends before a character is complete. -/
theorem isComplete_of_finished {n : Numeral} {c : Char} (h : numberStep n c = .finished) :
    n.phase.IsComplete := by
  obtain ⟨start, phase, literal⟩ := n
  cases phase with
  | zero => exact .inl rfl
  | whole => exact .inr (.inl rfl)
  | fraction => exact .inr (.inr (.inl rfl))
  | exponent => exact .inr (.inr (.inr rfl))
  | _ => simp only [numberStep] at h; repeat' split at h <;> try cases h

/-! ### Strings -/

/-- What may follow in a string literal that is in the middle of something, up to the quotation mark
before the given rest. -/
def QuotePhase.Remains : QuotePhase → List Char → List Char → Prop
  | .plain, cs, r => ∃ ps, Pieces ps cs ('"' :: r)
  | .escape, cs, r => ∃ ps, Pieces ps ('\\' :: cs) ('"' :: r)
  | .hex taken value, cs, r => ∃ digits n ps rest, digits.length = 3 - taken + 1 ∧
      digits.foldl (fun n? d => n?.bind fun n => (Text.hexDigitValue? d).map fun k => 16 * n + k)
        value = some n ∧
      cs = digits ++ rest ∧ Pieces ps rest ('"' :: r)

theorem foldl_hexDigit_none (digits : List Char) :
    digits.foldl (fun n? d => n?.bind fun n => (Text.hexDigitValue? d).map fun k => 16 * n + k) none =
      (none : Option Nat) := by
  induction digits with
  | nil => rfl
  | cons d digits ih => exact ih

/-- A hexadecimal digit that goes on with an escape by number comes before what is left after it. -/
theorem quoteRemains_hex {q q' : Quote} {o taken : Nat} {value : Option Nat} {c : Char}
    {cs r : List Char} (hq : q.phase = .hex taken value) (h : quoteStep q o c = .more q')
    (hrest : q'.phase.Remains cs r) : (QuotePhase.hex taken value).Remains (c :: cs) r := by
  simp only [quoteStep, hq] at h
  split at h
  · next htaken =>
    cases h
    obtain ⟨digits, n, ps, rest, hlength, hn, rfl, hps⟩ := hrest
    cases hd : Text.hexDigitValue? c with
    | none =>
      have hnone : (value.bind fun n => (Text.hexDigitValue? c).map fun d => 16 * n + d) = none := by
        simp [hd]
      rw [hnone, foldl_hexDigit_none] at hn
      exact absurd hn (by simp)
    | some d =>
      rw [utf8Size_of_hexDigitValue? hd] at htaken hlength
      exact ⟨c :: digits, n, ps, rest, by simp only [List.length_cons]; omega, hn, rfl, hps⟩
  · next htaken =>
    split at h
    · next n hn =>
      cases h
      have hplain : (q.pushUnit n (o - taken + 4)).phase = .plain := phase_pushUnit _ _ _
      rw [hplain] at hrest
      obtain ⟨ps, hps⟩ := hrest
      have hd : ∃ d, Text.hexDigitValue? c = some d := by
        simp only [Option.bind_eq_some_iff, Option.map_eq_some_iff] at hn
        obtain ⟨_, _, d, hd, _⟩ := hn
        exact ⟨d, hd⟩
      obtain ⟨d, hd⟩ := hd
      rw [utf8Size_of_hexDigitValue? hd] at htaken
      exact ⟨[c], n, ps, cs, by simp only [List.length_cons, List.length_nil]; omega, hn, rfl, hps⟩
    · cases h

/-- A character that goes on with a string literal comes before what is left after it. -/
theorem quoteRemains_cons {q q' : Quote} {o : Nat} {c : Char} {cs r : List Char}
    (h : quoteStep q o c = .more q') (hrest : q'.phase.Remains cs r) :
    q.phase.Remains (c :: cs) r := by
  have hdrop : (q.dropHigh o).phase = q.phase := by
    unfold Quote.dropHigh Quote.withFault
    split <;> rfl
  unfold quoteStep at h
  split at h
  · next hq =>
    rw [hq]
    split at h
    · next hc =>
      cases h
      subst hc
      exact hrest
    · next hescape =>
      dsimp only at h
      split at h
      · cases h
      · next hquote =>
        split at h
        · cases h
        · next hcontrol =>
          cases h
          obtain ⟨ps, hps⟩ := hrest
          exact ⟨_, .plain hquote hescape (Nat.le_of_not_lt hcontrol) hps⟩
  · next hq =>
    rw [hq]
    split at h
    · next hc =>
      cases h
      subst hc
      obtain ⟨digits, n, ps, rest, hlength, hn, rfl, hps⟩ := hrest
      match digits, hlength with
      | [a, b, c, d], _ => exact ⟨_, .unit hn hps⟩
    · dsimp only at h
      split at h
      · next d hd =>
        cases h
        obtain ⟨ps, hps⟩ := hrest
        exact ⟨_, .escape hd hps⟩
      · cases h
  · next taken value hq =>
    rw [hq]
    exact quoteRemains_hex (o := o) hq (by unfold quoteStep; rw [hq]; exact h) hrest

/-- The quotation mark that ends a string literal follows its pieces. -/
theorem quoteRemains_of_finished {q q' : Quote} {o : Nat} {c : Char} {cs : List Char}
    (h : quoteStep q o c = .finished q') : q.phase.Remains (c :: cs) cs := by
  unfold quoteStep at h
  split at h
  · next hq =>
    rw [hq]
    split at h
    · cases h
    · dsimp only at h
      split at h
      · next hc =>
        subst hc
        exact ⟨[], .none⟩
      · split at h <;> cases h
  · split at h
    · cases h
    · dsimp only at h
      split at h <;> cases h
  · dsimp only at h
    split at h
    · cases h
    · split at h <;> cases h

end Circulation.Json.Reader
