import Circulation.Proofs.Json.Writing
import Circulation.Text.Blank

/-!
# No blanks outside of strings

A text is read from its beginning to tell which of its characters belong to string literals: a
quotation mark opens a literal and the next one closes it, unless a backslash stands before it. The
compact text of a value has no blank outside of its literals.

## Main definitions

* `Circulation.Json.outside` — the characters of a text outside of its string literals.
* `Circulation.Json.IsDense` — a part of a text that has no blank there.

## Main results

* `Circulation.Json.isBlank_of_mem_outside_compact` — the compact text of a value is dense.
-/

namespace Circulation.Json

/-- Where a character stands with respect to string literals. -/
inductive Quoting where
  | outside
  | inside
  /-- Within a literal, after a backslash. -/
  | escaped
  deriving DecidableEq, Repr

/-- Where the character after a character stands. -/
def Quoting.next : Quoting → Char → Quoting
  | outside, c => if c = '"' then inside else outside
  | inside, c => if c = '"' then outside else if c = '\\' then escaped else inside
  | escaped, _ => inside

/-- The characters outside of string literals of a text whose first character stands as told. A mark
that opens a literal is one of them and a mark that closes it is not. -/
def outsideFrom : Quoting → List Char → List Char
  | _, [] => []
  | .outside, c :: cs => c :: outsideFrom (Quoting.outside.next c) cs
  | .inside, c :: cs => outsideFrom (Quoting.inside.next c) cs
  | .escaped, c :: cs => outsideFrom (Quoting.escaped.next c) cs

/-- The characters of a text outside of its string literals. -/
def outside (s : String) : List Char :=
  outsideFrom .outside s.toList

example : outside "[\"a \\\" b\", 1]" = "[\", 1]".toList := by decide

/-- A part of a text that closes the literals which it opens and has no blank outside of them. -/
def IsDense (cs : List Char) : Prop :=
  ∀ r, ∃ ds, outsideFrom .outside (cs ++ r) = ds ++ outsideFrom .outside r ∧
    ∀ d ∈ ds, Text.isBlank d = false

namespace IsDense

variable {cs ds : List Char}

theorem nil : IsDense [] :=
  fun _ => ⟨[], rfl, fun _ h => absurd h List.not_mem_nil⟩

theorem append (hcs : IsDense cs) (hds : IsDense ds) : IsDense (cs ++ ds) := by
  intro r
  obtain ⟨es, hes, hdense⟩ := hcs (ds ++ r)
  obtain ⟨fs, hfs, hdense'⟩ := hds r
  refine ⟨es ++ fs, ?_, List.forall_mem_append.mpr ⟨hdense, hdense'⟩⟩
  rw [List.append_assoc, hes, hfs, List.append_assoc]

/-- A character that is no quotation mark and no blank, before a dense part. -/
theorem cons {c : Char} (hquote : c ≠ '"') (hblank : Text.isBlank c = false) (h : IsDense cs) :
    IsDense (c :: cs) := by
  intro r
  obtain ⟨es, hes, hdense⟩ := h r
  refine ⟨c :: es, ?_, List.forall_mem_cons.mpr ⟨hblank, hdense⟩⟩
  rw [List.cons_append, outsideFrom, Quoting.next, if_neg hquote, hes, List.cons_append]

theorem of_forall (h : ∀ c ∈ cs, c ≠ '"' ∧ Text.isBlank c = false) : IsDense cs := by
  induction cs with
  | nil => exact .nil
  | cons c cs ih =>
    obtain ⟨⟨hquote, hblank⟩, hrest⟩ := List.forall_mem_cons.mp h
    exact .cons hquote hblank (ih hrest)

end IsDense

/-! ### Literals -/

theorem outsideFrom_lowerHexDigit {n : Nat} (h : n < 16) (r : List Char) :
    outsideFrom .inside (Text.lowerHexDigit n :: r) = outsideFrom .inside r := by
  have hall : ∀ n : Fin 16, Quoting.inside.next (Text.lowerHexDigit n.val) = .inside := by decide
  rw [outsideFrom, hall ⟨n, h⟩]

/-- A written character leaves a literal open. -/
theorem outsideFrom_quotedChar (c : Char) (r : List Char) :
    outsideFrom .inside (quotedChar c ++ r) = outsideFrom .inside r := by
  unfold quotedChar
  split_ifs with hquote hbackslash _ _ _ _ _ hcontrol
  any_goals rfl
  · change outsideFrom .inside (Text.lowerHexDigit (c.toNat / 16) ::
      Text.lowerHexDigit (c.toNat % 16) :: r) = _
    rw [outsideFrom_lowerHexDigit (by omega), outsideFrom_lowerHexDigit (by omega)]
  · rw [List.cons_append, outsideFrom, Quoting.next, if_neg hquote, if_neg hbackslash]
    rfl

theorem isDense_quoted (s : String) : IsDense (quoted s) := by
  intro r
  have hchars : ∀ cs : List Char, outsideFrom .inside (cs.flatMap quotedChar ++ '"' :: r) =
      outsideFrom .outside r := by
    intro cs
    induction cs with
    | nil => rfl
    | cons c cs ih => rw [List.flatMap_cons, List.append_assoc, outsideFrom_quotedChar, ih]
  refine ⟨['"'], ?_, List.forall_mem_singleton.mpr rfl⟩
  have hopen : quoted s ++ r = '"' :: (s.toList.flatMap quotedChar ++ '"' :: r) := by
    simp [quoted]
  rw [hopen, outsideFrom, List.singleton_append]
  exact congrArg _ (hchars s.toList)

theorem isDense_digits {ds : List Char} (h : ∀ d ∈ ds, d.isDigit = true) : IsDense ds := by
  refine .of_forall fun d hd => ?_
  obtain ⟨hlow, hhigh⟩ : 48 ≤ d.toNat ∧ d.toNat ≤ 57 := by
    simpa [Char.isDigit, UInt32.le_iff_toNat_le] using h d hd
  constructor
  · rintro rfl
    exact absurd hlow (by decide)
  · simp only [Text.isBlank, Bool.or_eq_false_iff, Bool.and_eq_false_iff, decide_eq_false_iff_not,
      beq_eq_false_iff_ne]
    omega

theorem isDense_number {n : Number} (hn : n.IsInteger) : IsDense n.text.toList := by
  cases n with
  | double x => exact hn.elim
  | int n =>
    cases n with
    | ofNat n => exact isDense_digits (Numeral.isCanonical_toString n).2.1
    | negSucc n =>
      rw [toList_text_negSucc]
      exact .cons (by decide) (by decide) (isDense_digits (Numeral.isCanonical_toString _).2.1)

/-! ### Values -/

theorem isDense_commaSeparated {ts : List (List Char)} (h : ∀ t ∈ ts, IsDense t) :
    IsDense (commaSeparated ts) := by
  induction ts with
  | nil => exact .nil
  | cons t ts ih =>
    obtain ⟨ht, hrest⟩ := List.forall_mem_cons.mp h
    cases ts with
    | nil => exact ht
    | cons t' ts => exact ht.append (.cons (by decide) (by decide) (ih hrest))

theorem isDense_bracketed {ts : List (List Char)} {opening closing : Char}
    (hopening : opening ≠ '"' ∧ Text.isBlank opening = false)
    (hclosing : closing ≠ '"' ∧ Text.isBlank closing = false) (h : ∀ t ∈ ts, IsDense t) :
    IsDense (opening :: commaSeparated ts ++ [closing]) :=
  (IsDense.cons hopening.1 hopening.2 (isDense_commaSeparated h)).append
    (.cons hclosing.1 hclosing.2 .nil)

mutual

theorem isDense_compactChars : ∀ {v : Json}, v.HasIntegers → IsDense (compactChars v)
  | .null, _ | .bool true, _ | .bool false, _ => .of_forall (by simp [compactChars, Text.isBlank])
  | .number _, h => isDense_number h
  | .string s, _ => isDense_quoted s
  | .array _, h => isDense_bracketed (by decide) (by decide) (isDense_compactItems h)
  | .object _, h => isDense_bracketed (by decide) (by decide) (isDense_compactMembers h)

theorem isDense_compactItems :
    ∀ {items : List Json}, HaveIntegers items → ∀ t ∈ compactItems items, IsDense t
  | [], _ => by simp [compactItems]
  | _ :: _, h => List.forall_mem_cons.mpr ⟨isDense_compactChars h.1, isDense_compactItems h.2⟩

theorem isDense_compactMembers :
    ∀ {members : List (String × Json)}, MembersHaveIntegers members →
      ∀ t ∈ compactMembers members, IsDense t
  | [], _ => by simp [compactMembers]
  | (key, _) :: _, h => List.forall_mem_cons.mpr
    ⟨(isDense_quoted key).append (.cons (by decide) (by decide) (isDense_compactChars h.1)),
      isDense_compactMembers h.2⟩

end

/-- **The compact text of a value** has no blank outside of its string literals. -/
theorem isBlank_of_mem_outside_compact {v : Json} (h : v.HasIntegers) :
    ∀ c ∈ outside (compact v), Text.isBlank c = false := by
  obtain ⟨ds, hds, hdense⟩ := isDense_compactChars h []
  rw [List.append_nil] at hds
  rw [outside, compact, String.toList_ofList, hds, outsideFrom, List.append_nil]
  exact hdense

end Circulation.Json
