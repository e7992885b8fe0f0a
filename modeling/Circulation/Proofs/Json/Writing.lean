import Circulation.Json.Writer
import Circulation.Proofs.Json.Grammar
import Circulation.Proofs.Numeral

/-!
# Written values are texts

The compact text of a value whose numbers are integers of 64 bits is a text of its tree: every
character of a string is escaped where the grammar asks for it, and every integer has the form of a
literal that denotes it.

## Main definitions

* `Circulation.Json.HasIntegers` — all numbers of a value are integers of 64 bits.

## Main results

* `Circulation.Json.value_compactChars` — the compact text of a value is a text of its tree, whatever
  follows it.
* `Circulation.Json.isText_compact` — the same for the whole text.
-/

namespace Circulation.Json

/-- An integer of 64 bits, signed or unsigned. -/
def Number.IsInteger : Number → Prop
  | .int n => -9223372036854775808 ≤ n ∧ n < Number.wordLimit
  | .double _ => False

mutual

/-- All numbers of a value are integers of 64 bits. -/
def HasIntegers : Json → Prop
  | .number n => n.IsInteger
  | .array items => HaveIntegers items
  | .object members => MembersHaveIntegers members
  | _ => True

/-- All numbers of the items are integers of 64 bits. -/
def HaveIntegers : List Json → Prop
  | [] => True
  | item :: items => HasIntegers item ∧ HaveIntegers items

/-- All numbers of the members are integers of 64 bits. -/
def MembersHaveIntegers : List (String × Json) → Prop
  | [] => True
  | (_, value) :: members => HasIntegers value ∧ MembersHaveIntegers members

end

theorem haveIntegers_iff {items : List Json} : HaveIntegers items ↔ ∀ v ∈ items, v.HasIntegers := by
  induction items with
  | nil => simp [HaveIntegers]
  | cons item items ih => rw [HaveIntegers, ih, List.forall_mem_cons]

theorem membersHaveIntegers_iff {members : List (String × Json)} :
    MembersHaveIntegers members ↔ ∀ m ∈ members, m.2.HasIntegers := by
  induction members with
  | nil => simp [MembersHaveIntegers]
  | cons m members ih => rw [MembersHaveIntegers, ih, List.forall_mem_cons]

open Grammar

/-! ### Integers -/

/-- The written form of a natural number has the form of the digits before a point. -/
theorem whole_toString (n : Nat) : Whole (toString n).toList := by
  obtain ⟨hne, hdigits, hzero⟩ := Numeral.isCanonical_toString n
  obtain ⟨d, ds, hds⟩ := List.exists_cons_of_ne_nil fun h => hne (String.toList_eq_nil_iff.mp h)
  rw [hds] at hdigits hzero ⊢
  obtain ⟨hd, hrest⟩ := List.forall_mem_cons.mp hdigits
  by_cases hfirst : d = '0'
  · have heq : toString n = "0" := hzero (by rw [hfirst]; rfl)
    have hlist : d :: ds = ['0'] := by rw [← hds, heq]; rfl
    rw [hlist]
    exact .zero
  · exact .digits hfirst hd hrest

theorem ofDigits_toString (n : Nat) : Numeral.ofDigits (toString n).toList = n :=
  Numeral.value_toString n

/-- Digits alone are a literal, with or without a sign. -/
theorem numeral_whole {ds : List Char} (h : Whole ds) : Numeral ⟨false, ds, none, none⟩ ds := by
  have hparts : Unsigned false ⟨false, ds, none, none⟩ (ds ++ [] ++ []) := .parts h .none .none
  rw [List.append_nil, List.append_nil] at hparts
  exact .positive hparts

theorem numeral_neg_whole {ds : List Char} (h : Whole ds) :
    Numeral ⟨true, ds, none, none⟩ ('-' :: ds) := by
  have hparts : Unsigned true ⟨true, ds, none, none⟩ (ds ++ [] ++ []) := .parts h .none .none
  rw [List.append_nil, List.append_nil] at hparts
  exact .negative hparts

theorem ofLiteral_natural {ds : List Char} (h : Numeral.ofDigits ds < Number.wordLimit) :
    Tree.ofLiteral ⟨false, ds, none, none⟩ = .number (.int (Numeral.ofDigits ds)) := by
  simp [Tree.ofLiteral, Number.ofLiteral, h]

theorem ofLiteral_negative {ds : List Char} (hpos : 0 < Numeral.ofDigits ds)
    (h : Numeral.ofDigits ds ≤ 9223372036854775808) :
    Tree.ofLiteral ⟨true, ds, none, none⟩ = .number (.int (-Numeral.ofDigits ds)) := by
  simp [Tree.ofLiteral, Number.ofLiteral, hpos, h]

theorem toList_text_negSucc (n : Nat) :
    (Number.int (Int.negSucc n)).text.toList = '-' :: (toString (n + 1)).toList :=
  Numeral.toList_toString_negSucc n

/-- The written form of an integer is a literal that denotes it. -/
theorem value_number {n : Number} (hn : n.IsInteger) (r : List Char) :
    Value (.number n) (n.text.toList ++ r) r := by
  cases n with
  | double x => exact hn.elim
  | int n =>
    obtain ⟨hlow, hhigh⟩ := hn
    cases n with
    | ofNat n =>
      have hlt : Numeral.ofDigits (toString n).toList < Number.wordLimit := by
        rw [ofDigits_toString]
        exact Int.ofNat_lt.mp hhigh
      have htree := ofLiteral_natural hlt
      rw [ofDigits_toString] at htree
      exact htree ▸ .number (numeral_whole (whole_toString n))
    | negSucc n =>
      have hpos : 0 < Numeral.ofDigits (toString (n + 1)).toList := by
        rw [ofDigits_toString]
        omega
      have hle : Numeral.ofDigits (toString (n + 1)).toList ≤ 9223372036854775808 := by
        rw [ofDigits_toString]
        omega
      have htree := ofLiteral_negative hpos hle
      rw [ofDigits_toString] at htree
      rw [toList_text_negSucc]
      exact htree ▸ .number (numeral_neg_whole (whole_toString (n + 1)))

/-! ### Strings -/

/-- The two digits after the zeros denote the number of a control character. -/
theorem hexValue?_of_lt {n : Nat} (h : n < 0x20) :
    hexValue? ['0', '0', Text.lowerHexDigit (n / 16), Text.lowerHexDigit (n % 16)] = some n := by
  have hall : ∀ n : Fin 0x20, hexValue? ['0', '0', Text.lowerHexDigit (n.val / 16),
      Text.lowerHexDigit (n.val % 16)] = some n.val := by decide
  exact hall ⟨n, h⟩

/-- A written character is a piece that denotes it. -/
theorem exists_piece (c : Char) :
    ∃ p, (∀ {ps cs r}, Pieces ps cs r → Pieces (p :: ps) (quotedChar c ++ cs) r) ∧
      ∀ ps, textOf? none (p :: ps) = (textOf? none ps).map (c :: ·) := by
  have hescape : ∀ {letter : Char}, Reader.escapedChar? letter = some c →
      quotedChar c = ['\\', letter] → ∃ p,
        (∀ {ps cs r}, Pieces ps cs r → Pieces (p :: ps) (quotedChar c ++ cs) r) ∧
          ∀ ps, textOf? none (p :: ps) = (textOf? none ps).map (c :: ·) := by
    intro letter hletter hquoted
    rw [hquoted]
    exact ⟨.char c, fun h => .escape hletter h, fun _ => rfl⟩
  by_cases hquote : c = '"'
  · subst hquote
    exact hescape rfl rfl
  by_cases hbackslash : c = '\\'
  · subst hbackslash
    exact hescape rfl rfl
  by_cases hn : c = '\n'
  · subst hn
    exact hescape rfl rfl
  by_cases hr : c = '\r'
  · subst hr
    exact hescape rfl rfl
  by_cases ht : c = '\t'
  · subst ht
    exact hescape rfl rfl
  by_cases hb : c = '\x08'
  · subst hb
    exact hescape rfl rfl
  by_cases hf : c = '\x0c'
  · subst hf
    exact hescape rfl rfl
  by_cases hcontrol : c.toNat < 0x20
  · refine ⟨.unit c.toNat, fun h => ?_, fun ps => ?_⟩
    · simp only [quotedChar, if_neg hquote, if_neg hbackslash, if_neg hn, if_neg hr, if_neg ht,
        if_neg hb, if_neg hf, if_pos hcontrol]
      exact .unit (hexValue?_of_lt hcontrol) h
    · have hlow : Reader.isLowSurrogate c.toNat = false := by
        simp only [Reader.isLowSurrogate, Bool.and_eq_false_iff, decide_eq_false_iff_not]
        omega
      have hhigh : Reader.isHighSurrogate c.toNat = false := by
        simp only [Reader.isHighSurrogate, Bool.and_eq_false_iff, decide_eq_false_iff_not]
        omega
      simp [textOf?, hlow, hhigh]
  · refine ⟨.char c, fun h => ?_, fun _ => rfl⟩
    simp only [quotedChar, if_neg hquote, if_neg hbackslash, if_neg hn, if_neg hr, if_neg ht,
      if_neg hb, if_neg hf, if_neg hcontrol]
    exact .plain hquote hbackslash (Nat.le_of_not_lt hcontrol) h

/-- A written string is made up of pieces that denote it. -/
theorem exists_pieces (cs : List Char) (r : List Char) :
    ∃ ps, Pieces ps (cs.flatMap quotedChar ++ r) r ∧ textOf? none ps = some cs := by
  induction cs with
  | nil => exact ⟨[], .none, rfl⟩
  | cons c cs ih =>
    obtain ⟨ps, hps, htext⟩ := ih
    obtain ⟨p, hp, hc⟩ := exists_piece c
    refine ⟨p :: ps, ?_, by rw [hc, htext]; rfl⟩
    rw [List.flatMap_cons, List.append_assoc]
    exact hp hps

/-! ### Values -/

theorem value_quoted (s : String) (r : List Char) : Value (.string s) (quoted s ++ r) r := by
  obtain ⟨ps, hps, htext⟩ := exists_pieces s.toList ('"' :: r)
  have htree : Tree.ofPieces ps = .string s := by
    simp [Tree.ofPieces, stringOf?, htext]
  rw [quoted, List.cons_append, List.cons_append, List.append_assoc]
  exact htree ▸ .string hps

theorem key_quoted (s : String) (r : List Char) :
    ∃ ps, stringOf? ps = some s ∧ Key ps (quoted s ++ ':' :: r) r := by
  obtain ⟨ps, hps, htext⟩ := exists_pieces s.toList ('"' :: ':' :: r)
  refine ⟨ps, by simp [stringOf?, htext], ?_⟩
  rw [quoted, List.cons_append, List.cons_append, List.append_assoc]
  exact .key .none hps .none

mutual

/-- **The compact text of a value** is a text of its tree, whatever follows it. -/
theorem value_compactChars :
    ∀ {v : Json}, v.HasIntegers → ∀ r, Value (.ofJson v) (compactChars v ++ r) r
  | .null, _, _ => .null
  | .bool true, _, _ => .true
  | .bool false, _, _ => .false
  | .number _, h, r => value_number h r
  | .string s, _, r => value_quoted s r
  | .array [], _, _ => .emptyArray .none
  | .array (item :: items), h, r => by
    have hitems := items_compactItems (List.cons_ne_nil item items) h (']' :: r)
    rw [compactChars, List.cons_append, List.cons_append, List.append_assoc]
    exact .array hitems
  | .object [], _, _ => .emptyObject .none
  | .object (m :: members), h, r => by
    have hmembers := members_compactMembers (List.cons_ne_nil m members) h ('\x7d' :: r)
    rw [compactChars, List.cons_append, List.cons_append, List.append_assoc]
    exact .object hmembers

/-- The compact texts of items with commas between them. -/
theorem items_compactItems :
    ∀ {items : List Json}, items ≠ [] → HaveIntegers items → ∀ r,
      Items (Tree.ofItems items) (commaSeparated (compactItems items) ++ r) r
  | [_], _, h, r => .last (.element .none (value_compactChars h.1 r) .none)
  | item :: next :: items, _, h, r => by
    have hvalue := value_compactChars h.1
      (',' :: (commaSeparated (compactItems (next :: items)) ++ r))
    have hmore := items_compactItems (List.cons_ne_nil next items) h.2 r
    have htext : commaSeparated (compactItems (item :: next :: items)) ++ r =
        compactChars item ++ ',' :: (commaSeparated (compactItems (next :: items)) ++ r) := by
      simp [compactItems, commaSeparated]
    rw [htext]
    exact .more (.element .none hvalue .none) hmore

/-- The compact texts of members with commas between them. -/
theorem members_compactMembers :
    ∀ {members : List (String × Json)}, members ≠ [] → MembersHaveIntegers members → ∀ r,
      Members (Tree.ofMembers members) (commaSeparated (compactMembers members) ++ r) r
  | [(key, value)], _, h, r => by
    obtain ⟨ps, hps, hkey⟩ := key_quoted key (compactChars value ++ r)
    have htext : commaSeparated (compactMembers [(key, value)]) ++ r =
        quoted key ++ ':' :: (compactChars value ++ r) := by
      simp [compactMembers, commaSeparated]
    rw [htext, Tree.ofMembers, Tree.ofMembers, ← hps]
    exact .last hkey (.element .none (value_compactChars h.1 r) .none)
  | (key, value) :: next :: members, _, h, r => by
    have hvalue := value_compactChars h.1
      (',' :: (commaSeparated (compactMembers (next :: members)) ++ r))
    have hmore := members_compactMembers (List.cons_ne_nil next members) h.2 r
    obtain ⟨ps, hps, hkey⟩ := key_quoted key
      (compactChars value ++ ',' :: (commaSeparated (compactMembers (next :: members)) ++ r))
    have htext : commaSeparated (compactMembers ((key, value) :: next :: members)) ++ r =
        quoted key ++ ':' :: (compactChars value ++
          ',' :: (commaSeparated (compactMembers (next :: members)) ++ r)) := by
      simp [compactMembers, commaSeparated]
    rw [htext, Tree.ofMembers, ← hps]
    exact .more hkey (.element .none hvalue .none) hmore

end

/-- **The compact text of a value** is a text of the value. -/
theorem isText_compact {v : Json} (h : v.HasIntegers) : (Tree.ofJson v).IsText (compact v) := by
  have hvalue := value_compactChars h []
  rw [List.append_nil] at hvalue
  unfold Tree.IsText compact
  rw [String.toList_ofList]
  exact .element .none hvalue .none

end Circulation.Json
