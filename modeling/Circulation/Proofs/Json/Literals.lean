import Mathlib.Tactic.Tauto
import Circulation.Proofs.Json.Grammar

/-!
# Reading literals

How the machine takes a literal: the digits of a number, the pieces of a string. A number ends where
a character stands that cannot belong to it, or with the text.
-/

namespace Circulation.Json.Reader

open Grammar

/-- The document of a text, of which the machine has taken the first part. -/
def documentFrom (s : State) (cs : List Char) : Document :=
  finish (run s cs)

theorem documentFrom_cons (s : State) (c : Char) (cs : List Char) :
    documentFrom s (c :: cs) = documentFrom (step s c) cs := rfl

/-- The state at an offset, in the middle of something. -/
def State.at (s : State) (offset : Nat) (phase : Phase) : State :=
  { s with offset := offset, phase := phase }

/-! ### Numbers -/

/-- A literal that may be complete. -/
def NumberPhase.IsComplete (p : NumberPhase) : Prop :=
  p = .zero ∨ p = .whole ∨ p = .fraction ∨ p = .exponent

/-- The rest of a text does not go on with a number. -/
def EndsNumber (cs : List Char) : Prop :=
  ∀ c r, cs = c :: r → c.isDigit = false ∧ c ≠ '.' ∧ c ≠ 'e' ∧ c ≠ 'E'

theorem step_number {s : State} {n n' : Numeral} {c : Char} {o : Nat}
    (h : numberStep n c = .more n') :
    step (s.at o (.number n)) c = s.at (o + c.utf8Size) (.number n') := by
  simp only [step, stepPhase, State.at, h]

theorem documentFrom_number {s : State} {n n' : Numeral} {c : Char} {cs : List Char} {o : Nat}
    (h : numberStep n c = .more n') :
    documentFrom (s.at o (.number n)) (c :: cs) =
      documentFrom (s.at (o + c.utf8Size) (.number n')) cs := by
  rw [documentFrom_cons, step_number h]

theorem numberStep_digit {n : Numeral} {d : Char} (hd : d.isDigit = true)
    (hphase : n.phase = .whole ∨ n.phase = .fraction ∨ n.phase = .exponent) :
    numberStep n d = .more (n.addDigit n.phase d) := by
  rcases hphase with h | h | h <;> simp [numberStep, h, hd]

/-- The literal with more digits of the part that it is in the middle of. -/
def Numeral.addDigits (n : Numeral) (ds : List Char) : Numeral :=
  ds.foldl (fun n d => n.addDigit n.phase d) n

theorem documentFrom_digits {s : State} {ds r : List Char} (hds : ∀ d ∈ ds, d.isDigit = true)
    {n : Numeral} (hphase : n.phase = .whole ∨ n.phase = .fraction ∨ n.phase = .exponent) (o : Nat) :
    ∃ o', documentFrom (s.at o (.number n)) (ds ++ r) =
      documentFrom (s.at o' (.number (n.addDigits ds))) r := by
  induction ds generalizing n o with
  | nil => exact ⟨o, rfl⟩
  | cons d ds ih =>
    obtain ⟨hd, hds⟩ := List.forall_mem_cons.mp hds
    obtain ⟨o', h⟩ := ih hds (n := n.addDigit n.phase d) hphase (o + d.utf8Size)
    exact ⟨o', by rw [List.cons_append, documentFrom_number (numberStep_digit hd hphase), h]; rfl⟩

section Digits

variable (start : Nat) (negative : Bool) (whole : List Char) (fraction : Option (List Char))
  (exponent : Option (Bool × List Char)) (ds : List Char)

theorem addDigits_whole :
    Numeral.addDigits ⟨start, .whole, ⟨negative, whole, fraction, exponent⟩⟩ ds =
      ⟨start, .whole, ⟨negative, ds.reverse ++ whole, fraction, exponent⟩⟩ := by
  induction ds generalizing whole with
  | nil => rfl
  | cons d ds ih =>
    rw [List.reverse_cons, List.append_assoc]
    exact ih (d :: whole)

theorem addDigits_fraction (digits : List Char) :
    Numeral.addDigits ⟨start, .fraction, ⟨negative, whole, some digits, exponent⟩⟩ ds =
      ⟨start, .fraction, ⟨negative, whole, some (ds.reverse ++ digits), exponent⟩⟩ := by
  induction ds generalizing digits with
  | nil => rfl
  | cons d ds ih =>
    rw [List.reverse_cons, List.append_assoc]
    exact ih (d :: digits)

theorem addDigits_exponent (down : Bool) (digits : List Char) :
    Numeral.addDigits ⟨start, .exponent, ⟨negative, whole, fraction, some (down, digits)⟩⟩ ds =
      ⟨start, .exponent, ⟨negative, whole, fraction, some (down, ds.reverse ++ digits)⟩⟩ := by
  induction ds generalizing digits with
  | nil => rfl
  | cons d ds ih =>
    rw [List.reverse_cons, List.append_assoc]
    exact ih (d :: digits)

end Digits

/-- A fraction, which follows the digits before the point. -/
theorem documentFrom_fraction {s : State} {fraction : Option (List Char)} {cs r : List Char}
    (h : Fraction fraction cs) (start : Nat) (negative : Bool) (whole : List Char)
    {p : NumberPhase} (hp : p = .zero ∨ p = .whole) (o : Nat) :
    ∃ o' p', (p' = .zero ∨ p' = .whole ∨ p' = .fraction) ∧
      documentFrom (s.at o (.number ⟨start, p, ⟨negative, whole, none, none⟩⟩)) (cs ++ r) =
        documentFrom
          (s.at o' (.number ⟨start, p', ⟨negative, whole, fraction.map List.reverse, none⟩⟩)) r := by
  cases h with
  | none => exact ⟨o, p, by tauto, rfl⟩
  | @point ds hds =>
    obtain ⟨hne, hds⟩ := hds
    obtain ⟨d, ds, rfl⟩ := List.exists_cons_of_ne_nil hne
    obtain ⟨hd, hds⟩ := List.forall_mem_cons.mp hds
    have hpoint : numberStep ⟨start, p, ⟨negative, whole, none, none⟩⟩ '.' =
        .more ⟨start, .point, ⟨negative, whole, none, none⟩⟩ := by
      rcases hp with rfl | rfl <;> rfl
    have hfirst : numberStep ⟨start, .point, ⟨negative, whole, none, none⟩⟩ d =
        .more ⟨start, .fraction, ⟨negative, whole, some [d], none⟩⟩ := by
      simp [numberStep, hd, Numeral.addDigit]
    obtain ⟨o', hrest⟩ := documentFrom_digits (s := s) (r := r) hds
      (n := ⟨start, .fraction, ⟨negative, whole, some [d], none⟩⟩) (by simp)
      (o + '.'.utf8Size + d.utf8Size)
    refine ⟨o', .fraction, by simp, ?_⟩
    rw [List.cons_append, List.cons_append, documentFrom_number hpoint,
      documentFrom_number hfirst, hrest, addDigits_fraction]
    simp

section Exponent

variable {s : State} {r : List Char} (start : Nat) (negative : Bool) (whole : List Char)
  (fraction : Option (List Char)) {p : NumberPhase}

theorem documentFrom_exponentDigits (hp : p = .exponentMark ∨ p = .exponentSign) {ds : List Char}
    (hds : IsDigits ds) (down : Bool) (o : Nat) :
    ∃ o', documentFrom
        (s.at o (.number ⟨start, p, ⟨negative, whole, fraction, some (down, [])⟩⟩)) (ds ++ r) =
      documentFrom (s.at o' (.number ⟨start, .exponent, ⟨negative, whole, fraction,
        some (down, ds.reverse)⟩⟩)) r := by
  obtain ⟨hne, hds⟩ := hds
  obtain ⟨d, ds, rfl⟩ := List.exists_cons_of_ne_nil hne
  obtain ⟨hd, hds⟩ := List.forall_mem_cons.mp hds
  have hsign : ¬(d = '+' ∨ d = '-') := by
    rintro (rfl | rfl) <;> exact absurd hd (by decide)
  have hfirst : numberStep ⟨start, p, ⟨negative, whole, fraction, some (down, [])⟩⟩ d =
      .more ⟨start, .exponent, ⟨negative, whole, fraction, some (down, [d])⟩⟩ := by
    rcases hp with rfl | rfl <;> simp [numberStep, hsign, hd, Numeral.addDigit]
  obtain ⟨o', hrest⟩ := documentFrom_digits (s := s) (r := r) hds
    (n := ⟨start, .exponent, ⟨negative, whole, fraction, some (down, [d])⟩⟩) (by simp)
    (o + d.utf8Size)
  refine ⟨o', ?_⟩
  rw [List.cons_append, documentFrom_number hfirst, hrest, addDigits_exponent]
  simp

/-- An exponent, which follows the digits before it. -/
theorem documentFrom_exponent {exponent : Option (Bool × List Char)} {cs : List Char}
    (h : Exponent exponent cs) (hp : p = .zero ∨ p = .whole ∨ p = .fraction) (o : Nat) :
    ∃ o' p', p'.IsComplete ∧
      documentFrom (s.at o (.number ⟨start, p, ⟨negative, whole, fraction, none⟩⟩)) (cs ++ r) =
        documentFrom (s.at o' (.number ⟨start, p', ⟨negative, whole, fraction,
          exponent.map fun (down, ds) => (down, ds.reverse)⟩⟩)) r := by
  have hmark : ∀ c, c = 'e' ∨ c = 'E' →
      numberStep ⟨start, p, ⟨negative, whole, fraction, none⟩⟩ c =
        .more ⟨start, .exponentMark, ⟨negative, whole, fraction, some (false, [])⟩⟩ := by
    rintro c (rfl | rfl) <;> rcases hp with rfl | rfl | rfl <;> rfl
  have hplus : numberStep ⟨start, .exponentMark, ⟨negative, whole, fraction, some (false, [])⟩⟩ '+' =
      .more ⟨start, .exponentSign, ⟨negative, whole, fraction, some (false, [])⟩⟩ := rfl
  have hminus : numberStep ⟨start, .exponentMark, ⟨negative, whole, fraction, some (false, [])⟩⟩ '-' =
      .more ⟨start, .exponentSign, ⟨negative, whole, fraction, some (true, [])⟩⟩ := rfl
  cases h with
  | none => exact ⟨o, p, by unfold NumberPhase.IsComplete; tauto, rfl⟩
  | unsigned hm hds =>
    obtain ⟨o', hrest⟩ := documentFrom_exponentDigits (s := s) (r := r) start negative
      whole fraction (.inl rfl) hds false _
    refine ⟨o', .exponent, by simp [NumberPhase.IsComplete], ?_⟩
    rw [List.cons_append, documentFrom_number (hmark _ hm), hrest]
    rfl
  | plus hm hds =>
    obtain ⟨o', hrest⟩ := documentFrom_exponentDigits (s := s) (r := r) start negative
      whole fraction (.inr rfl) hds false _
    refine ⟨o', .exponent, by simp [NumberPhase.IsComplete], ?_⟩
    rw [List.cons_append, List.cons_append, documentFrom_number (hmark _ hm),
      documentFrom_number hplus, hrest]
    rfl
  | minus hm hds =>
    obtain ⟨o', hrest⟩ := documentFrom_exponentDigits (s := s) (r := r) start negative
      whole fraction (.inr rfl) hds true _
    refine ⟨o', .exponent, by simp [NumberPhase.IsComplete], ?_⟩
    rw [List.cons_append, List.cons_append, documentFrom_number (hmark _ hm),
      documentFrom_number hminus, hrest]
    rfl

end Exponent

/-! ### Values of numbers -/

/-- A value is due, possibly besides the end of an array. -/
def State.AwaitsValue (s : State) : Prop :=
  s.phase = .value ∨ s.phase = .firstItem ∨ s.phase = .nextItem

theorem step_value {s : State} (hs : s.AwaitsValue) {c : Char} (hblank : isBlank c = false)
    (hclose : c ≠ ']') :
    step s c = { stepValue s c with offset := s.offset + c.utf8Size } := by
  rcases hs with h | h | h <;> simp [step, stepPhase, stepBetween, h, hblank, hclose]

theorem ne_of_isDigit {c d : Char} (hc : c.isDigit = true) (hd : d.isDigit = false) : c ≠ d := by
  rintro rfl
  exact absurd hc (by simp [hd])

theorem isBlank_of_isDigit {c : Char} (hc : c.isDigit = true) : isBlank c = false := by
  simp [isBlank, ne_of_isDigit hc (show ' '.isDigit = false by decide),
    ne_of_isDigit hc (show '\n'.isDigit = false by decide),
    ne_of_isDigit hc (show '\t'.isDigit = false by decide),
    ne_of_isDigit hc (show '\r'.isDigit = false by decide)]

/-- The first character of a number other than a zero. -/
theorem startValue?_digit {d : Char} (hd : d.isDigit = true) (hzero : d ≠ '0') (o : Nat) :
    startValue? o d = some (.number ⟨o, .whole, { whole := [d] }⟩) := by
  simp [startValue?, hd, hzero, ne_of_isDigit hd (show 'n'.isDigit = false by decide),
    ne_of_isDigit hd (show 't'.isDigit = false by decide),
    ne_of_isDigit hd (show 'f'.isDigit = false by decide),
    ne_of_isDigit hd (show '"'.isDigit = false by decide),
    ne_of_isDigit hd (show '-'.isDigit = false by decide)]

theorem step_startValue {s : State} (hs : s.AwaitsValue) {c : Char} {p : Phase}
    (h : startValue? s.offset c = some p) (hblank : isBlank c = false) (hclose : c ≠ ']')
    (harray : c ≠ '[') (hobject : c ≠ '\x7b') :
    step s c = s.at (s.offset + c.utf8Size) p := by
  rw [step_value hs hblank hclose]
  simp only [stepValue, if_neg harray, if_neg hobject, h, State.at]

/-- What a literal is in the middle of after its first digit. -/
def firstPhase (d : Char) : NumberPhase :=
  if d = '0' then .zero else .whole

/-- A literal after its sign, where `s₀` is the state before the first digit. -/
theorem documentFrom_unsigned (s₀ s : State) (start : Nat) {negative : Bool} {l : Number.Literal}
    {cs r : List Char} (h : Unsigned negative l cs)
    (hfirst : ∀ d ds, d.isDigit = true → ∃ o, documentFrom s₀ (d :: ds) =
      documentFrom (s.at o (.number ⟨start, firstPhase d, ⟨negative, [d], none, none⟩⟩)) ds) :
    ∃ o p, p.IsComplete ∧ documentFrom s₀ (cs ++ r) =
      documentFrom (s.at o (.number ⟨start, p, ⟨l.negative, l.whole.reverse,
        l.fraction.map List.reverse, l.exponent.map fun (down, ds) => (down, ds.reverse)⟩⟩)) r := by
  obtain @⟨whole, fraction, exponent, fractionText, exponentText, hwhole, hfraction, hexponent⟩ := h
  have hdigits : ∃ o p, (p = .zero ∨ p = .whole) ∧
      documentFrom s₀ (whole ++ (fractionText ++ (exponentText ++ r))) =
        documentFrom (s.at o (.number ⟨start, p, ⟨negative, whole.reverse, none, none⟩⟩))
          (fractionText ++ (exponentText ++ r)) := by
    cases hwhole with
    | zero =>
      obtain ⟨o, hzero⟩ := hfirst '0' (fractionText ++ (exponentText ++ r)) (by decide)
      exact ⟨o, .zero, .inl rfl, hzero⟩
    | @digits d ds hzero hd hds =>
      obtain ⟨o, hd'⟩ := hfirst d (ds ++ (fractionText ++ (exponentText ++ r))) hd
      obtain ⟨o', hds'⟩ := documentFrom_digits (s := s) (r := fractionText ++ (exponentText ++ r)) hds
        (n := ⟨start, .whole, ⟨negative, [d], none, none⟩⟩) (.inl rfl) o
      refine ⟨o', .whole, .inr rfl, ?_⟩
      rw [List.cons_append, hd', firstPhase, if_neg hzero, hds', addDigits_whole, List.reverse_cons]
  obtain ⟨o₁, p₁, hp₁, hwholeRead⟩ := hdigits
  obtain ⟨o₂, p₂, hp₂, hfractionRead⟩ := documentFrom_fraction (s := s) (r := exponentText ++ r)
    hfraction start negative whole.reverse hp₁ o₁
  obtain ⟨o₃, p₃, hp₃, hexponentRead⟩ := documentFrom_exponent (s := s) (r := r) start negative
    whole.reverse (fraction.map List.reverse) hexponent hp₂ o₂
  refine ⟨o₃, p₃, hp₃, ?_⟩
  rw [List.append_assoc, List.append_assoc, hwholeRead, hfractionRead, hexponentRead]

/-- A literal that is complete denotes its tree. -/
theorem erase_numberNode (l : Number.Literal) (start : Nat) (p : NumberPhase) (stop : Nat) :
    (numberNode ⟨start, p, ⟨l.negative, l.whole.reverse, l.fraction.map List.reverse,
      l.exponent.map fun (down, ds) => (down, ds.reverse)⟩⟩ stop).erase =
      (Tree.ofLiteral l).node := by
  have hfraction : (l.fraction.map List.reverse).map List.reverse = l.fraction := by
    cases l.fraction <;> simp
  have hexponent : ((l.exponent.map fun (down, ds) => (down, ds.reverse)).map
      fun (down, ds) => (down, ds.reverse)) = l.exponent := by
    cases l.exponent <;> simp
  simp only [numberNode, List.reverse_reverse, hfraction, hexponent, Tree.ofLiteral]
  cases Number.ofLiteral l <;> rfl

/-- After a value, it does not matter what the machine was in the middle of. -/
theorem complete_at (s : State) (o : Nat) (p : Phase) (node : Node) :
    complete (s.at o p) node = complete { s with offset := o } node := by
  obtain ⟨limit, offset, stack, phase⟩ := s
  rcases stack with _ | ⟨_ | _ | _, stack⟩ <;> rfl

/-- After a value, something that stands between values is due. -/
theorem stepPhase_complete (s : State) (node : Node) (c : Char) :
    stepPhase (complete s node) c = stepBetween (complete s node) c := by
  obtain ⟨limit, offset, stack, phase⟩ := s
  rcases stack with _ | ⟨_ | _ | _, stack⟩ <;> rfl

theorem offset_complete (s : State) (node : Node) : (complete s node).offset = s.offset := by
  obtain ⟨limit, offset, stack, phase⟩ := s
  rcases stack with _ | ⟨_ | _ | _, stack⟩ <;> rfl

/-- A text may end with a number that is complete. -/
theorem finish_number (s : State) {n : Numeral} (hn : n.phase.IsComplete) (o : Nat) :
    finish (s.at o (.number n)) = finish (complete { s with offset := o } (numberNode n o)) := by
  obtain ⟨limit, offset, stack, phase⟩ := s
  obtain ⟨start, p, literal⟩ := n
  rcases hn with rfl | rfl | rfl | rfl <;> rcases stack with _ | ⟨_ | _ | _, stack⟩ <;> rfl

/-- A literal ends where the text does not go on with it. -/
theorem documentFrom_endNumber {s : State} {n : Numeral} (hn : n.phase.IsComplete) {r : List Char}
    (hr : EndsNumber r) (o : Nat) :
    documentFrom (s.at o (.number n)) r =
      documentFrom (complete { s with offset := o } (numberNode n o)) r := by
  cases r with
  | nil => exact finish_number s hn o
  | cons c r =>
    obtain ⟨hdigit, hpoint, he, hE⟩ := hr c r rfl
    have hstep : numberStep n c = .finished := by
      rcases hn with h | h | h | h <;> simp [numberStep, h, hdigit, hpoint, he, hE]
    have hsame : step (s.at o (.number n)) c =
        step (complete { s with offset := o } (numberNode n o)) c := by
      rw [step, step, stepPhase_complete, offset_complete]
      simp only [stepPhase, State.at, hstep]
      rw [← complete_at s o (.number n)]
      rfl
    rw [documentFrom_cons, documentFrom_cons, hsame]

/-- A number, where a value is due. -/
theorem documentFrom_numeral {s : State} (hs : s.AwaitsValue) {l : Number.Literal}
    {cs r : List Char} (h : Grammar.Numeral l cs) (hr : EndsNumber r) :
    ∃ o node, node.erase = (Tree.ofLiteral l).node ∧
      documentFrom s (cs ++ r) = documentFrom (complete { s with offset := o } node) r := by
  have hread : ∃ o start p, p.IsComplete ∧ documentFrom s (cs ++ r) =
      documentFrom (s.at o (.number ⟨start, p, ⟨l.negative, l.whole.reverse,
        l.fraction.map List.reverse, l.exponent.map fun (down, ds) => (down, ds.reverse)⟩⟩)) r := by
    cases h with
    | positive h =>
      obtain ⟨o, p, hp, hread⟩ := documentFrom_unsigned s s s.offset (r := r) h
        fun d ds hd => by
          refine ⟨s.offset + d.utf8Size, ?_⟩
          have hstart : startValue? s.offset d =
              some (.number ⟨s.offset, firstPhase d, ⟨false, [d], none, none⟩⟩) := by
            by_cases hzero : d = '0'
            · subst hzero
              rfl
            · rw [startValue?_digit hd hzero, firstPhase, if_neg hzero]
          rw [documentFrom_cons, step_startValue hs hstart (isBlank_of_isDigit hd)
            (ne_of_isDigit hd (by decide)) (ne_of_isDigit hd (by decide))
            (ne_of_isDigit hd (by decide))]
      exact ⟨o, s.offset, p, hp, hread⟩
    | negative h =>
      have hsign : step s '-' =
          s.at (s.offset + '-'.utf8Size) (.number ⟨s.offset, .sign, ⟨true, [], none, none⟩⟩) :=
        step_startValue hs rfl (by decide) (by decide) (by decide) (by decide)
      obtain ⟨o, p, hp, hread⟩ := documentFrom_unsigned (step s '-') s s.offset (r := r) h
        fun d ds hd => by
          refine ⟨s.offset + '-'.utf8Size + d.utf8Size, ?_⟩
          have hdigit : numberStep ⟨s.offset, .sign, ⟨true, [], none, none⟩⟩ d =
              .more ⟨s.offset, firstPhase d, ⟨true, [d], none, none⟩⟩ := by
            by_cases hzero : d = '0'
            · simp [numberStep, firstPhase, hzero, Numeral.addDigit]
            · simp [numberStep, firstPhase, hzero, hd, Numeral.addDigit]
          rw [hsign, documentFrom_number hdigit]
      exact ⟨o, s.offset, p, hp, hread⟩
  obtain ⟨o, start, p, hp, hread⟩ := hread
  exact ⟨o, _, erase_numberNode l start p o, hread.trans (documentFrom_endNumber hp hr o)⟩

/-! ### Strings -/

/-- The characters of a literal if the pieces follow, unless it has a fault. -/
def Quote.charsWith (q : Quote) (ps : List Piece) : Option (List Char) :=
  match q.fault with
  | some _ => none
  | none => (textOf? q.high ps).map (q.chars.reverse ++ ·)

/-- What the machine is in the middle of: a string, or a key. -/
def IsLiteral (wrap : Quote → Phase) : Prop :=
  wrap = .string ∨ wrap = .key

theorem isLiteral_string : IsLiteral .string :=
  .inl rfl

theorem isLiteral_key : IsLiteral .key :=
  .inr rfl

section Quote

variable {s : State} {wrap : Quote → Phase} {q : Quote} {c : Char} {cs : List Char} {o : Nat}

theorem documentFrom_quote (hwrap : IsLiteral wrap) {q' : Quote}
    (h : quoteStep q o c = .more q') :
    documentFrom (s.at o (wrap q)) (c :: cs) =
      documentFrom (s.at (o + c.utf8Size) (wrap q')) cs := by
  rw [documentFrom_cons]
  rcases hwrap with rfl | rfl <;> simp only [step, stepPhase, State.at, h]

/-- A character, after a first half of a pair, leaves the literal without a text. -/
theorem charsWith_push (q : Quote) (o : Nat) (c : Char) (ps : List Piece) :
    ((q.dropHigh o).push c).charsWith ps = q.charsWith (.char c :: ps) := by
  obtain ⟨start, chars, high, fault, phase⟩ := q
  cases fault <;> cases high <;>
    simp [Quote.charsWith, Quote.dropHigh, Quote.withFault, Quote.push, textOf?, Function.comp_def]

theorem charsWith_pushUnit (q : Quote) (n o : Nat) (ps : List Piece) :
    (q.pushUnit n o).charsWith ps = q.charsWith (.unit n :: ps) := by
  obtain ⟨start, chars, high, fault, phase⟩ := q
  cases hlow : isLowSurrogate n <;> cases hhigh : isHighSurrogate n <;> cases fault <;>
    cases high <;> simp [Quote.charsWith, Quote.pushUnit, Quote.withFault, Quote.push, textOf?,
      hlow, hhigh, Function.comp_def]

theorem phase_pushUnit (q : Quote) (n o : Nat) : (q.pushUnit n o).phase = .plain := by
  obtain ⟨start, chars, high, fault, phase⟩ := q
  cases high with
  | none =>
    simp only [Quote.pushUnit]
    split
    · rfl
    · split <;> rfl
  | some high =>
    simp only [Quote.pushUnit]
    split <;> rfl

theorem charsWith_phase (q : Quote) (p : QuotePhase) (ps : List Piece) :
    { q with phase := p }.charsWith ps = q.charsWith ps := rfl

theorem utf8Size_of_hexDigitValue? {k : Nat} (h : Text.hexDigitValue? c = some k) :
    c.utf8Size = 1 := by
  have hle : c ≤ 'f' := by
    unfold Text.hexDigitValue? at h
    split at h
    · next hc => exact Char.le_trans hc.2 (by decide)
    · split at h
      · next hc => exact hc.2
      · split at h
        · next hc => exact Char.le_trans hc.2 (by decide)
        · exact absurd h (by simp)
  exact Char.utf8Size_eq_one_iff.mpr (UInt32.le_trans hle (by decide))

/-- Four digits of base 16 make up an escape by number. -/
theorem documentFrom_unit (hwrap : IsLiteral wrap) {a b c d : Char} {n : Nat}
    (hn : hexValue? [a, b, c, d] = some n) (cs : List Char) :
    ∃ o₁ o₂, documentFrom (s.at o (wrap { q with phase := .hex 0 (some 0) }))
        (a :: b :: c :: d :: cs) = documentFrom (s.at o₁ (wrap (q.pushUnit n o₂))) cs := by
  simp only [hexValue?, List.foldl_cons, List.foldl_nil, Option.bind_eq_some_iff,
    Option.map_eq_some_iff, Option.some.injEq] at hn
  obtain ⟨_, ⟨_, ⟨_, ⟨_, rfl, wa, ha, rfl⟩, wb, hb, rfl⟩, wc, hc, rfl⟩, wd, hd, rfl⟩ := hn
  have hdigit : ∀ {taken value w : Nat} {c : Char} (o : Nat), taken < 3 →
      Text.hexDigitValue? c = some w →
      quoteStep { q with phase := .hex taken (some value) } o c =
        .more { q with phase := .hex (taken + 1) (some (16 * value + w)) } := by
    intro taken value w c o htaken hw
    have hmore : taken + 1 < 4 := by omega
    simp [quoteStep, utf8Size_of_hexDigitValue? hw, hw, hmore]
  have hlast : ∀ {value w : Nat} {c : Char} (o : Nat), Text.hexDigitValue? c = some w →
      quoteStep { q with phase := .hex 3 (some value) } o c =
        .more (q.pushUnit (16 * value + w) (o - 3 + 4)) := by
    intro value w c o hw
    simp [quoteStep, utf8Size_of_hexDigitValue? hw, hw, Quote.pushUnit]
  refine ⟨o + a.utf8Size + b.utf8Size + c.utf8Size + d.utf8Size,
    o + a.utf8Size + b.utf8Size + c.utf8Size - 3 + 4, ?_⟩
  rw [documentFrom_quote hwrap (hdigit _ (by decide) ha),
    documentFrom_quote hwrap (hdigit _ (by decide) hb),
    documentFrom_quote hwrap (hdigit _ (by decide) hc), documentFrom_quote hwrap (hlast _ hd)]

/-- The machine takes the pieces of a literal, and the literal has their text. -/
theorem documentFrom_pieces (hwrap : IsLiteral wrap) {ps : List Piece} {r : List Char}
    (h : Pieces ps cs r) (hq : q.phase = .plain) :
    ∃ o' q', q'.phase = .plain ∧ q'.charsWith [] = q.charsWith ps ∧
      documentFrom (s.at o (wrap q)) cs = documentFrom (s.at o' (wrap q')) r := by
  induction h generalizing q o with
  | none => exact ⟨o, q, hq, rfl, rfl⟩
  | @plain c ps cs r hquote hescape hcontrol _ ih =>
    have hstep : quoteStep q o c = .more ((q.dropHigh o).push c) := by
      have hcontrol : ¬c.toNat < 0x20 := by omega
      simp only [quoteStep, hq, if_neg hescape, if_neg hquote, if_neg hcontrol]
    obtain ⟨o', q', hq', htext, hread⟩ := ih (q := (q.dropHigh o).push c) (o := o + c.utf8Size) rfl
    refine ⟨o', q', hq', htext.trans (charsWith_push q o c ps), ?_⟩
    rw [documentFrom_quote hwrap hstep, hread]
  | @escape c d ps cs r hd _ ih =>
    have hunit : c ≠ 'u' := by
      rintro rfl
      exact nomatch hd
    have hbackslash : quoteStep q o '\\' = .more { q with phase := .escape } := by
      simp only [quoteStep, hq, if_pos]
    have hletter : quoteStep { q with phase := .escape } (o + '\\'.utf8Size) c =
        .more (({ q with phase := .escape }.dropHigh (o + '\\'.utf8Size)).push d) := by
      simp only [quoteStep, if_neg hunit, hd]
    obtain ⟨o', q', hq', htext, hread⟩ := ih
      (q := ({ q with phase := .escape }.dropHigh (o + '\\'.utf8Size)).push d)
      (o := o + '\\'.utf8Size + c.utf8Size) rfl
    refine ⟨o', q', hq', htext.trans ((charsWith_push _ _ d ps).trans (charsWith_phase q _ _)), ?_⟩
    rw [documentFrom_quote hwrap hbackslash, documentFrom_quote hwrap hletter, hread]
  | @unit a b c d n ps cs r hn _ ih =>
    have hbackslash : quoteStep q o '\\' = .more { q with phase := .escape } := by
      simp only [quoteStep, hq, if_pos]
    have hletter : quoteStep { q with phase := .escape } (o + '\\'.utf8Size) 'u' =
        .more { q with phase := .hex 0 (some 0) } := by
      simp only [quoteStep, if_pos]
    obtain ⟨o₁, o₂, hunit⟩ := documentFrom_unit (s := s) (q := q)
      (o := o + '\\'.utf8Size + 'u'.utf8Size) hwrap hn cs
    obtain ⟨o', q', hq', htext, hread⟩ := ih (o := o₁) (phase_pushUnit q n o₂)
    refine ⟨o', q', hq', htext.trans (charsWith_pushUnit q n o₂ ps), ?_⟩
    rw [documentFrom_quote hwrap hbackslash, documentFrom_quote hwrap hletter, hunit, hread]

theorem toOption_text_dropHigh (q : Quote) (o : Nat) :
    (q.dropHigh o).text.toOption = (q.charsWith []).map String.ofList := by
  obtain ⟨start, chars, high, fault, phase⟩ := q
  cases fault <;> cases high <;>
    simp [Quote.text, Quote.dropHigh, Quote.withFault, Quote.charsWith, textOf?, Except.toOption]

theorem quoteStep_close (hq : q.phase = .plain) : quoteStep q o '"' = .finished (q.dropHigh o) := by
  simp [quoteStep, hq]

end Quote

/-- The pieces of a new literal denote its text. -/
theorem charsWith_new (start : Nat) (ps : List Piece) :
    ({ start := start } : Quote).charsWith ps = textOf? none ps := by
  simp [Quote.charsWith]

/-- A text is the string of its pieces, and a literal without a text is a hole. -/
theorem erase_stringNode {q : Quote} {ps : List Piece} (h : q.text.toOption = stringOf? ps)
    (stop : Nat) : (stringNode q stop).erase = (Tree.ofPieces ps).node := by
  rw [Tree.ofPieces, ← h, stringNode]
  cases q.text <;> rfl

/-- A string, where a value is due. -/
theorem documentFrom_string {s : State} (hs : s.AwaitsValue) {ps : List Piece} {cs r : List Char}
    (h : Pieces ps cs ('"' :: r)) :
    ∃ o node, node.erase = (Tree.ofPieces ps).node ∧
      documentFrom s ('"' :: cs) = documentFrom (complete { s with offset := o } node) r := by
  have hopen : step s '"' = s.at (s.offset + '"'.utf8Size) (.string { start := s.offset }) :=
    step_startValue hs rfl (by decide) (by decide) (by decide) (by decide)
  obtain ⟨o, q, hq, htext, hread⟩ := documentFrom_pieces (s := s)
    (q := { start := s.offset }) (o := s.offset + '"'.utf8Size) isLiteral_string h rfl
  have hclose : step (s.at o (.string q)) '"' =
      complete { s with offset := o + '"'.utf8Size } (stringNode (q.dropHigh o) (o + 1)) := by
    simp only [step, stepPhase, State.at, quoteStep_close hq]
    obtain ⟨limit, offset, stack, phase⟩ := s
    rcases stack with _ | ⟨_ | _ | _, stack⟩ <;> rfl
  refine ⟨_, _, erase_stringNode ?_ _, by
    rw [documentFrom_cons, hopen, hread, documentFrom_cons, hclose]⟩
  rw [toOption_text_dropHigh, htext, charsWith_new, stringOf?]

/-- A key, where a key is due. -/
theorem documentFrom_quotedKey {s : State} (hs : s.phase = .firstKey ∨ s.phase = .nextKey)
    {ps : List Piece} {cs r : List Char} (h : Pieces ps cs ('"' :: r)) :
    ∃ o key, key.toOption = stringOf? ps ∧
      documentFrom s ('"' :: cs) = documentFrom (s.at o (.colon key)) r := by
  have hopen : step s '"' = s.at (s.offset + '"'.utf8Size) (.key { start := s.offset }) := by
    rcases hs with hs | hs <;> simp [step, stepPhase, stepBetween, hs, State.at, isBlank]
  obtain ⟨o, q, hq, htext, hread⟩ := documentFrom_pieces (s := s)
    (q := { start := s.offset }) (o := s.offset + '"'.utf8Size) isLiteral_key h rfl
  have hclose : step (s.at o (.key q)) '"' =
      s.at (o + '"'.utf8Size) (.colon (q.dropHigh o).text) := by
    simp only [step, stepPhase, State.at, quoteStep_close hq]
  refine ⟨_, _, ?_, by rw [documentFrom_cons, hopen, hread, documentFrom_cons, hclose]⟩
  rw [toOption_text_dropHigh, htext, charsWith_new, stringOf?]

/-! ### Words -/

/-- A word, where a value is due. -/
theorem documentFrom_word {s : State} (hs : s.AwaitsValue) {c : Char} {w r : List Char}
    {node : Span → Node} (hw : w ≠ []) (h : startValue? s.offset c = some (.word s.offset w node))
    (hblank : isBlank c = false) (hclose : c ≠ ']') (harray : c ≠ '[') (hobject : c ≠ '\x7b') :
    ∃ o stop, documentFrom s (c :: w ++ r) =
      documentFrom (complete { s with offset := o } (node ⟨s.offset, stop⟩)) r := by
  have hword : ∀ (w : List Char) (o : Nat), w ≠ [] →
      ∃ o' stop, documentFrom (s.at o (.word s.offset w node)) (w ++ r) =
        documentFrom (complete { s with offset := o' } (node ⟨s.offset, stop⟩)) r := by
    intro w
    induction w with
    | nil => exact fun _ hne => absurd rfl hne
    | cons c w ih =>
      intro o _
      by_cases hlast : w = []
      · subst hlast
        refine ⟨o + c.utf8Size, o + 1, ?_⟩
        have hstep : step (s.at o (.word s.offset [c] node)) c =
            complete { s with offset := o + c.utf8Size } (node ⟨s.offset, o + 1⟩) := by
          simp only [step, stepPhase, State.at, if_pos]
          obtain ⟨limit, offset, stack, phase⟩ := s
          rcases stack with _ | ⟨_ | _ | _, stack⟩ <;> rfl
        rw [List.cons_append, documentFrom_cons, hstep, List.nil_append]
      · obtain ⟨o', stop, hread⟩ := ih (o + c.utf8Size) hlast
        refine ⟨o', stop, ?_⟩
        have hstep : step (s.at o (.word s.offset (c :: w) node)) c =
            s.at (o + c.utf8Size) (.word s.offset w node) := by
          simp only [step, stepPhase, State.at, if_pos, if_neg hlast]
        rw [List.cons_append, documentFrom_cons, hstep, hread]
  obtain ⟨o, stop, hread⟩ := hword w (s.offset + c.utf8Size) hw
  refine ⟨o, stop, ?_⟩
  rw [List.cons_append, documentFrom_cons,
    step_startValue hs h hblank hclose harray hobject, hread]

end Circulation.Json.Reader
