import Mathlib.Data.List.Basic
import Mathlib.Data.List.TakeWhile
import Circulation.Proofs.Json.Path
import Circulation.Proofs.Numeral
import Circulation.Proofs.Policy.Editions

/-!
# The flaws of a policy

A policy is read if it keeps every condition, and is refused for the first one that it violates. The
conditions come in an order: that on the greatest supply, those on the names of modules, those on the
accounts of the foundation and those on the bootstrap accounts; in each list by index, and for each
account in the order of its fields. The message of a flaw has the path of the entry in the written form
of the policy, and what it says there is true of the value to which this path leads. No two flaws of a
policy have the same message.

The conditions are checked one after the other, and a search through some checks and then through
others finds the first flaw of both as soon as all flaws of the former precede those of the latter.
This settles a single check, the checks of an account, those of a list and those of a policy.

## Main definitions

* `Circulation.Policy.Violates` — the conditions that a policy violates.
* `Circulation.Policy.IsSound` — the policies that violate none.
* `Circulation.Policy.Flaw.Precedes` — the order of the conditions.
* `Circulation.Policy.Finds` — the outcome of a search for the first of some flaws.
* `Circulation.Policy.Flaw.path`, `Circulation.Policy.Flaw.complaint` — the two parts of a message;
  `Circulation.Policy.Deserves` says of which values a complaint is true.
* `Circulation.Policy.IsNamed` — the message of a flaw names the offending entry.

## Main results

* `Circulation.Policy.Finds.or`, `Circulation.Policy.finds_firstIn?` — searches one after the other,
  and along a list.
* `Circulation.Policy.finds_firstFlaw?` — the search through all checks of a policy.
* `Circulation.Policy.Violates.isNamed` — the message of a flaw names the offending entry.
* `Circulation.Policy.firstFlaw?_isFirst` — which policies are read, and for what the others are
  refused.
-/

namespace Circulation

open Json

/-- A text has ink if something is left when it is trimmed. -/
theorem Text.hasInk_iff {s : String} : hasInk s = true ↔ trimChars s.toList ≠ [] := by
  have hblank : trimChars s.toList = [] ↔ ∀ c ∈ s.toList, isBlank c = true := by
    simp only [trimChars, List.reverse_eq_nil_iff, List.dropWhile_eq_nil_iff, List.mem_reverse]
    refine ⟨fun h => ?_, fun h c hc => h c ((List.dropWhile_suffix _).subset hc)⟩
    by_contra hink
    have hne : s.toList.dropWhile isBlank ≠ [] := mt List.dropWhile_eq_nil_iff.mp hink
    exact absurd (h _ (List.head_mem hne)) (Bool.eq_false_iff.mp (List.head_dropWhile_not isBlank hne))
  rw [ne_eq, hblank, hasInk]
  simp

/-! ### The order of the conditions -/

namespace Policy.Flaw

/-- The part of a policy that a condition is about. -/
def part : Flaw → Nat
  | maxSupply _ => 0
  | moduleName _ => 1
  | foundationName _ | foundationAddress _ => 2
  | bootstrapAddress _ | bootstrapMonths _ => 3

/-- The index of the entry that violates a condition. -/
def index : Flaw → Nat
  | maxSupply _ => 0
  | moduleName i | foundationName i | foundationAddress i | bootstrapAddress i | bootstrapMonths i => i

/-- The turn of a condition among those on the same entry. -/
def turn : Flaw → Nat
  | maxSupply _ | moduleName _ | foundationName _ | bootstrapAddress _ => 0
  | foundationAddress _ | bootstrapMonths _ => 1

/-- The order of the conditions: by part, by index, and for an entry by turn. -/
def Precedes (f g : Flaw) : Prop :=
  f.part < g.part ∨ f.part = g.part ∧ (f.index < g.index ∨ f.index = g.index ∧ f.turn < g.turn)

variable {f g : Flaw}

theorem Precedes.asymm (h : f.Precedes g) : ¬g.Precedes f := by
  unfold Precedes at *
  omega

theorem precedes_of_part {m n : Nat} (hf : f.part = m) (hg : g.part = n) (h : m < n) :
    f.Precedes g :=
  .inl (hf.symm ▸ hg.symm ▸ h)

end Policy.Flaw

/-! ### Conditions -/

/-- The conditions on an account of the foundation that the account of an index violates. -/
inductive FoundationEntry.Violates (index : Nat) (e : FoundationEntry) : Policy.Flaw → Prop
  | name (h : e.name = "") : Violates index e (.foundationName index)
  | address (h : e.address = "") : Violates index e (.foundationAddress index)

/-- The conditions on a bootstrap account that the account of an index violates. -/
inductive BootstrapEntry.Violates (index : Nat) (e : BootstrapEntry) : Policy.Flaw → Prop
  | address (h : e.address = "") : Violates index e (.bootstrapAddress index)
  | months (h : e.months = some 0) : Violates index e (.bootstrapMonths index)

variable {index : Nat} {f : Policy.Flaw}

theorem FoundationEntry.Violates.place {e : FoundationEntry} (h : e.Violates index f) :
    f.part = 2 ∧ f.index = index := by
  cases h <;> exact ⟨rfl, rfl⟩

theorem BootstrapEntry.Violates.place {e : BootstrapEntry} (h : e.Violates index f) :
    f.part = 3 ∧ f.index = index := by
  cases h <;> exact ⟨rfl, rfl⟩

namespace Policy

/-- The conditions that a policy violates. -/
inductive Violates (p : Policy) : Flaw → Prop
  | maxSupply {text : String} (htext : p.maxSupply = some text)
      (h : ¬∃ n, Amount.parse text = .ok n) : Violates p (.maxSupply text)
  | moduleName {i : Nat} {name : String} (hname : p.modules[i]? = some name)
      (h : Text.hasInk name = false) : Violates p (.moduleName i)
  | foundation {i : Nat} {e : FoundationEntry} {f : Flaw} (he : p.foundation[i]? = some e)
      (h : e.Violates i f) : Violates p f
  | bootstrap {i : Nat} {e : BootstrapEntry} {f : Flaw} (he : p.bootstraps[i]? = some e)
      (h : e.Violates i f) : Violates p f

/-- The policies that violate no condition. -/
structure IsSound (p : Policy) : Prop where
  maxSupply : ∀ text ∈ p.maxSupply, ∃ n, Amount.parse text = .ok n
  modules : ∀ name ∈ p.modules, Text.hasInk name = true
  foundation : ∀ e ∈ p.foundation, e.name ≠ "" ∧ e.address ≠ ""
  bootstraps : ∀ e ∈ p.bootstraps, e.address ≠ "" ∧ e.months ≠ some 0

variable {p : Policy}

theorem IsSound.not_violates (h : p.IsSound) (f : Flaw) : ¬p.Violates f := by
  intro hf
  cases hf with
  | maxSupply htext hno => exact hno (h.maxSupply _ htext)
  | moduleName hname hno =>
    exact absurd (h.modules _ (List.mem_of_getElem? hname)) (Bool.eq_false_iff.mp hno)
  | foundation he hno =>
    have hkept := h.foundation _ (List.mem_of_getElem? he)
    cases hno with
    | name hname => exact hkept.1 hname
    | address haddress => exact hkept.2 haddress
  | bootstrap he hno =>
    have hkept := h.bootstraps _ (List.mem_of_getElem? he)
    cases hno with
    | address haddress => exact hkept.1 haddress
    | months hmonths => exact hkept.2 hmonths

theorem isSound_of_not_violates (h : ∀ f, ¬p.Violates f) : p.IsSound where
  maxSupply text htext := by_contra fun hno => h _ (.maxSupply htext hno)
  modules name hname := by
    obtain ⟨i, hi⟩ := List.mem_iff_getElem?.mp hname
    exact Bool.of_not_eq_false fun hno => h _ (.moduleName hi hno)
  foundation e he := by
    obtain ⟨i, hi⟩ := List.mem_iff_getElem?.mp he
    exact ⟨fun hno => h _ (.foundation hi (.name hno)), fun hno => h _ (.foundation hi (.address hno))⟩
  bootstraps e he := by
    obtain ⟨i, hi⟩ := List.mem_iff_getElem?.mp he
    exact ⟨fun hno => h _ (.bootstrap hi (.address hno)), fun hno => h _ (.bootstrap hi (.months hno))⟩

/-- The first flaw of a policy. -/
def IsFirstFlaw (p : Policy) (f : Flaw) : Prop :=
  p.Violates f ∧ ∀ g, p.Violates g → g = f ∨ f.Precedes g

/-! ### Searches -/

/-- The outcome of a search among some flaws: none if there is none, and otherwise the first. -/
inductive Finds (IsOne : Flaw → Prop) : Option Flaw → Prop
  | nothing (h : ∀ f, ¬IsOne f) : Finds IsOne none
  | first {f : Flaw} (h : IsOne f) (hfirst : ∀ g, IsOne g → g = f ∨ f.Precedes g) : Finds IsOne (some f)

namespace Finds

variable {A B : Flaw → Prop} {found found' : Option Flaw}

theorem congr (h : Finds A found) (heq : ∀ f, A f ↔ B f) : Finds B found := by
  obtain rfl : A = B := funext fun f => propext (heq f)
  exact h

theorem eq_none_iff (h : Finds A found) : found = none ↔ ∀ f, ¬A f := by
  cases h with
  | nothing h => exact iff_of_true rfl h
  | @first f h _ => exact iff_of_false nofun fun hno => hno f h

theorem eq_some_iff (h : Finds A found) {f : Flaw} :
    found = some f ↔ A f ∧ ∀ g, A g → g = f ∨ f.Precedes g := by
  cases h with
  | nothing h => exact iff_of_false nofun fun hf => h f hf.1
  | @first f' h hfirst =>
    constructor
    · intro heq
      obtain rfl := Option.some.inj heq
      exact ⟨h, hfirst⟩
    · rintro ⟨hf, hfirst'⟩
      rcases hfirst f hf with rfl | hlt
      · rfl
      · rcases hfirst' f' h with rfl | hlt'
        · rfl
        · exact absurd hlt' hlt.asymm

/-- Two searches, one after the other. -/
theorem or (h : Finds A found) (h' : Finds B found') (horder : ∀ f g, A f → B g → f.Precedes g) :
    Finds (fun f => A f ∨ B f) (found.or found') := by
  cases h with
  | nothing h => exact h'.congr fun f => (or_iff_right (h f)).symm
  | @first f h hfirst =>
    refine .first (.inl h) fun g hg => ?_
    rcases hg with hg | hg
    · exact hfirst g hg
    · exact .inr (horder f g h hg)

end Finds

/-- A single check. -/
theorem finds_check {c : Prop} [Decidable c] (f : Flaw) :
    Finds (fun g => c ∧ g = f) (if c then some f else none) := by
  by_cases hc : c
  · rw [if_pos hc]
    exact .first ⟨hc, rfl⟩ fun g hg => .inl hg.2
  · rw [if_neg hc]
    exact .nothing fun g hg => hc hg.1

/-- Two checks, of which the second is made if the first is passed. -/
theorem finds_check_check {c d : Prop} [Decidable c] [Decidable d] {f g : Flaw}
    (horder : f.Precedes g) :
    Finds (fun h => c ∧ h = f ∨ d ∧ h = g) (if c then some f else if d then some g else none) := by
  have hor := (finds_check (c := c) f).or (finds_check (c := d) g) ?_
  · by_cases hc : c
    · simpa only [if_pos hc, Option.some_or] using hor
    · simpa only [if_neg hc, Option.none_or] using hor
  · rintro _ _ ⟨-, rfl⟩ ⟨-, rfl⟩
    exact horder

section List

variable {α : Type} {flaw? : Nat → α → Option Flaw} {IsOf : Nat → α → Flaw → Prop} {part : Nat}

/-- The search along a list. -/
theorem finds_firstIn? (hitem : ∀ i a, Finds (IsOf i a) (flaw? i a))
    (hplace : ∀ i a f, IsOf i a f → f.part = part ∧ f.index = i) (first : Nat) (as : List α) :
    Finds (fun f => ∃ i a, as[i]? = some a ∧ IsOf (first + i) a f) (firstIn? flaw? first as) := by
  induction as generalizing first with
  | nil => exact .nothing (by simp)
  | cons a as ih =>
    refine Finds.congr ((hitem first a).or (ih (first + 1)) ?_) fun f => ⟨?_, ?_⟩
    · rintro f g hf ⟨i, b, -, hg⟩
      obtain ⟨hpart, hindex⟩ := hplace _ _ _ hf
      obtain ⟨hpart', hindex'⟩ := hplace _ _ _ hg
      exact .inr ⟨hpart.trans hpart'.symm, .inl (by omega)⟩
    · rintro (hf | ⟨i, b, hb, hf⟩)
      · exact ⟨0, a, rfl, hf⟩
      · exact ⟨i + 1, b, hb, (show first + (i + 1) = first + 1 + i by omega) ▸ hf⟩
    · rintro ⟨i, b, hb, hf⟩
      cases i with
      | zero =>
        obtain rfl := Option.some.inj hb
        exact .inl hf
      | succ i => exact .inr ⟨i, b, hb, (show first + (i + 1) = first + 1 + i by omega) ▸ hf⟩

end List

/-! ### The parts of a policy -/

theorem finds_maxSupplyFlaw? (p : Policy) :
    Finds (fun f => ∃ text, p.maxSupply = some text ∧ (¬∃ n, Amount.parse text = .ok n) ∧
      f = .maxSupply text) p.maxSupplyFlaw? := by
  rw [maxSupplyFlaw?]
  cases p.maxSupply with
  | none => exact .nothing (by simp)
  | some text =>
    rw [Option.bind_some]
    cases hparse : Amount.parse text with
    | ok n => exact .nothing (by simp [hparse])
    | error why => exact .first ⟨text, rfl, by simp [hparse], rfl⟩ (by simp)

theorem finds_moduleFlaw? (i : Nat) (name : String) :
    Finds (fun f => Text.hasInk name = false ∧ f = .moduleName i) (moduleFlaw? i name) := by
  refine (finds_check _).congr fun f => ?_
  rw [← Bool.not_eq_true, Text.hasInk_iff, not_not]

theorem finds_foundationFlaw? (i : Nat) (e : FoundationEntry) :
    Finds (e.Violates i) (foundationFlaw? i e) := by
  have horder : (Flaw.foundationName i).Precedes (.foundationAddress i) :=
    .inr ⟨rfl, .inr ⟨rfl, Nat.zero_lt_one⟩⟩
  refine (finds_check_check horder).congr fun f => ⟨?_, ?_⟩
  · rintro (⟨h, rfl⟩ | ⟨h, rfl⟩)
    · exact .name h
    · exact .address h
  · rintro (h | h)
    · exact .inl ⟨h, rfl⟩
    · exact .inr ⟨h, rfl⟩

theorem finds_bootstrapFlaw? (i : Nat) (e : BootstrapEntry) :
    Finds (e.Violates i) (bootstrapFlaw? i e) := by
  have horder : (Flaw.bootstrapAddress i).Precedes (.bootstrapMonths i) :=
    .inr ⟨rfl, .inr ⟨rfl, Nat.zero_lt_one⟩⟩
  refine (finds_check_check horder).congr fun f => ⟨?_, ?_⟩
  · rintro (⟨h, rfl⟩ | ⟨h, rfl⟩)
    · exact .address h
    · exact .months h
  · rintro (h | h)
    · exact .inl ⟨h, rfl⟩
    · exact .inr ⟨h, rfl⟩

/-- The search through all checks. -/
theorem finds_firstFlaw? (p : Policy) : Finds p.Violates p.firstFlaw? := by
  have hplace : ∀ i (name : String) f, Text.hasInk name = false ∧ f = Flaw.moduleName i →
      f.part = 1 ∧ f.index = i := by
    rintro i _ _ ⟨-, rfl⟩
    exact ⟨rfl, rfl⟩
  have hmodules := finds_firstIn? finds_moduleFlaw? hplace 0 p.modules
  have hfoundation := finds_firstIn? finds_foundationFlaw? (fun _ _ _ => FoundationEntry.Violates.place)
    0 p.foundation
  have hbootstraps := finds_firstIn? finds_bootstrapFlaw? (fun _ _ _ => BootstrapEntry.Violates.place)
    0 p.bootstraps
  simp only [Nat.zero_add] at hmodules hfoundation hbootstraps
  refine ((finds_maxSupplyFlaw? p).or (hmodules.or (hfoundation.or hbootstraps ?_) ?_) ?_).congr
    fun f => ⟨?_, ?_⟩
  · rintro f g ⟨_, _, -, hf⟩ ⟨_, _, -, hg⟩
    exact Flaw.precedes_of_part hf.place.1 hg.place.1 (by decide)
  · rintro _ g ⟨_, _, -, -, rfl⟩ (⟨_, _, -, hg⟩ | ⟨_, _, -, hg⟩)
    · exact Flaw.precedes_of_part (m := 1) rfl hg.place.1 (by decide)
    · exact Flaw.precedes_of_part (m := 1) rfl hg.place.1 (by decide)
  · rintro _ g ⟨_, -, -, rfl⟩ (⟨_, _, -, -, rfl⟩ | ⟨_, _, -, hg⟩ | ⟨_, _, -, hg⟩)
    · exact Flaw.precedes_of_part rfl rfl Nat.zero_lt_one
    · exact Flaw.precedes_of_part (m := 0) rfl hg.place.1 (by decide)
    · exact Flaw.precedes_of_part (m := 0) rfl hg.place.1 (by decide)
  · rintro (⟨text, htext, hno, rfl⟩ | ⟨i, name, hname, hno, rfl⟩ | ⟨i, e, he, hno⟩ | ⟨i, e, he, hno⟩)
    · exact .maxSupply htext hno
    · exact .moduleName hname hno
    · exact .foundation he hno
    · exact .bootstrap he hno
  · rintro (⟨htext, hno⟩ | ⟨hname, hno⟩ | ⟨he, hno⟩ | ⟨he, hno⟩)
    · exact .inl ⟨_, htext, hno, rfl⟩
    · exact .inr (.inl ⟨_, _, hname, hno, rfl⟩)
    · exact .inr (.inr (.inl ⟨_, _, he, hno⟩))
    · exact .inr (.inr (.inr ⟨_, _, he, hno⟩))

/-! ### Messages -/

namespace Flaw

/-- The kind of a flaw, apart from its text or index. -/
def kind : Flaw → Fin 6
  | maxSupply _ => 0
  | moduleName _ => 1
  | foundationName _ => 2
  | foundationAddress _ => 3
  | bootstrapAddress _ => 4
  | bootstrapMonths _ => 5

/-- The words of the messages of a kind, before and after the text or the index. -/
def words : Fin 6 → String × String
  | 0 => ("max_supply ", " is not an integer")
  | 1 => ("module_accounts[", "] is empty")
  | 2 => ("disclosed_lockups.foundation_genesis[", "] missing name")
  | 3 => ("disclosed_lockups.foundation_genesis[", "] missing address")
  | 4 => ("disclosed_lockups.supernode_bootstraps[", "] missing address")
  | 5 => ("disclosed_lockups.supernode_bootstraps[", "] duration_months must be positive")

/-- The text or the index in a message. -/
def detail : Flaw → String
  | maxSupply text => Text.quote text
  | f => toString f.index

variable {f g : Flaw}

theorem message_eq (f : Flaw) : f.message = (words f.kind).1 ++ f.detail ++ (words f.kind).2 := by
  cases f <;> rfl

theorem kind_eq_zero_iff : f.kind = 0 ↔ ∃ text, f = .maxSupply text := by
  cases f <;> simp [kind]

theorem detail_eq (h : f.kind ≠ 0) : f.detail = toString f.index := by
  cases f with
  | maxSupply text => exact absurd rfl h
  | _ => rfl

theorem eq_of_kind_eq (h : f.kind ≠ 0) (hkind : f.kind = g.kind) (hindex : f.index = g.index) :
    f = g := by
  cases f <;> cases g <;> simp_all [kind, index]

/-- There are no digits among the words. -/
theorem isDigit_words (k : Fin 6) :
    ∀ c ∈ (words k).1.toList ++ (words k).2.toList, c.isDigit = false := by
  have hall : ∀ k, ((words k).1.toList ++ (words k).2.toList).all (fun c => !c.isDigit) = true := by
    decide +kernel
  simpa only [List.all_eq_true, Bool.not_eq_true'] using hall k

/-- The words tell the kinds apart. -/
theorem words_inj : ∀ k l, (words k).1.toList ++ (words k).2.toList =
    (words l).1.toList ++ (words l).2.toList → k = l := by
  decide +kernel

/-- The message about the greatest supply begins like no other. -/
theorem take_words : ∀ k, 2 ≤ (words k).1.toList.length ∧
    ((words k).1.toList.take 2 = ['m', 'a'] ↔ k = 0) := by
  decide +kernel

theorem take_message : f.message.toList.take 2 = ['m', 'a'] ↔ f.kind = 0 := by
  obtain ⟨hlength, hwords⟩ := take_words f.kind
  rw [message_eq, String.append_assoc, String.toList_append, List.take_append_of_le_length hlength,
    hwords]

/-- The digits of a message are those of the index, and the other characters are the words. -/
theorem filter_message (h : f.kind ≠ 0) :
    f.message.toList.filter Char.isDigit = (toString f.index).toList ∧
      f.message.toList.filter (fun c => !c.isDigit) =
        (words f.kind).1.toList ++ (words f.kind).2.toList := by
  have hwords := isDigit_words f.kind
  have hbefore : ∀ c ∈ (words f.kind).1.toList, c.isDigit = false := fun c hc =>
    hwords c (List.mem_append_left _ hc)
  have hafter : ∀ c ∈ (words f.kind).2.toList, c.isDigit = false := fun c hc =>
    hwords c (List.mem_append_right _ hc)
  have hindex := (Numeral.isCanonical_toString f.index).2.1
  rw [message_eq, detail_eq h, String.toList_append, String.toList_append, List.filter_append,
    List.filter_append, List.filter_append, List.filter_append]
  constructor
  · rw [List.filter_eq_nil_iff.mpr fun c hc => Bool.eq_false_iff.mp (hbefore c hc),
      List.filter_eq_self.mpr hindex,
      List.filter_eq_nil_iff.mpr fun c hc => Bool.eq_false_iff.mp (hafter c hc), List.nil_append,
      List.append_nil]
  · rw [List.filter_eq_self.mpr fun c hc => Bool.not_eq_true' _ ▸ hbefore c hc,
      List.filter_eq_nil_iff.mpr fun c hc => by simp [hindex c hc],
      List.filter_eq_self.mpr fun c hc => Bool.not_eq_true' _ ▸ hafter c hc, List.append_nil]

theorem eq_of_message_eq (h : f.kind ≠ 0) (hmessage : f.message = g.message) : f = g := by
  have h' : g.kind ≠ 0 := by rwa [ne_eq, ← take_message, ← hmessage, take_message]
  obtain ⟨hdigits, hwords⟩ := filter_message h
  obtain ⟨hdigits', hwords'⟩ := filter_message h'
  refine eq_of_kind_eq h (words_inj _ _ ?_) ?_
  · rw [← hwords, ← hwords', hmessage]
  · have hindex : toString f.index = toString g.index := by
      rw [← String.toList_inj, ← hdigits, ← hdigits', hmessage]
    rw [← Numeral.value_toString f.index, hindex, Numeral.value_toString]

end Flaw

theorem Violates.eq_maxSupply {text : String} (h : p.Violates (.maxSupply text)) :
    p.maxSupply = some text := by
  cases h with
  | maxSupply htext _ => exact htext
  | foundation _ h => nomatch h
  | bootstrap _ h => nomatch h

/-- A policy has no two flaws with the same message. -/
theorem Violates.eq_of_message_eq {f g : Flaw} (hf : p.Violates f) (hg : p.Violates g)
    (h : f.message = g.message) : f = g := by
  by_cases hkind : f.kind = 0
  · have hkind' : g.kind = 0 := by rwa [← Flaw.take_message, ← h, Flaw.take_message]
    obtain ⟨text, rfl⟩ := Flaw.kind_eq_zero_iff.mp hkind
    obtain ⟨text', rfl⟩ := Flaw.kind_eq_zero_iff.mp hkind'
    rw [Option.some.inj (hf.eq_maxSupply.symm.trans hg.eq_maxSupply)]
  · exact Flaw.eq_of_message_eq hkind h

/-! ### What a message names -/

/-- Items of one list stand in the places of those of another to which they are related. -/
theorem exists_getElem?_of_forall₂ {α β : Type} {R : α → β → Prop} {as : List α} {bs : List β}
    (h : List.Forall₂ R as bs) {i : Nat} {a : α} (ha : as[i]? = some a) :
    ∃ b, R a b ∧ bs[i]? = some b := by
  obtain ⟨hi, rfl⟩ := List.getElem?_eq_some_iff.mp ha
  have hi' : i < bs.length := h.length_eq ▸ hi
  exact ⟨bs[i], h.get hi hi', List.getElem?_eq_getElem hi'⟩

namespace Flaw

/-- The path of the entry that a flaw is about, in the written form of a policy. -/
def path : Flaw → List Step
  | maxSupply _ => [.key "max_supply"]
  | moduleName i => [.key "module_accounts", .index i]
  | foundationName i | foundationAddress i =>
    [.key "disclosed_lockups", .key "foundation_genesis", .index i]
  | bootstrapAddress i | bootstrapMonths i =>
    [.key "disclosed_lockups", .key "supernode_bootstraps", .index i]

/-- What a message says about the entry. -/
def complaint : Flaw → String
  | maxSupply text => " " ++ Text.quote text ++ " is not an integer"
  | moduleName _ => " is empty"
  | foundationName _ => " missing name"
  | foundationAddress _ | bootstrapAddress _ => " missing address"
  | bootstrapMonths _ => " duration_months must be positive"

/-- The brackets of an index belong to the path. -/
theorem bracket_append (before index after : String) :
    before ++ "[" ++ index ++ ("]" ++ after) = before ++ ("[" ++ index ++ "]" ++ "") ++ after := by
  simp only [String.append_assoc, String.empty_append]

theorem message_eq_path_complaint (f : Flaw) : f.message = pathText f.path ++ f.complaint := by
  have hlockups (key index after : String) :
      "disclosed_lockups" ++ "." ++ key ++ "[" ++ index ++ ("]" ++ after) =
        "disclosed_lockups" ++ ("." ++ key ++ ("[" ++ index ++ "]" ++ "")) ++ after := by
    rw [bracket_append]
    simp only [String.append_assoc]
  cases f with
  | maxSupply text =>
    change "max_supply" ++ " " ++ Text.quote text ++ " is not an integer" =
      "max_supply" ++ "" ++ (" " ++ Text.quote text ++ " is not an integer")
    simp only [String.append_assoc, String.empty_append]
  | moduleName i => exact bracket_append "module_accounts" (toString i) " is empty"
  | foundationName i => exact hlockups "foundation_genesis" (toString i) " missing name"
  | foundationAddress i => exact hlockups "foundation_genesis" (toString i) " missing address"
  | bootstrapAddress i => exact hlockups "supernode_bootstraps" (toString i) " missing address"
  | bootstrapMonths i =>
    exact hlockups "supernode_bootstraps" (toString i) " duration_months must be positive"

end Flaw

/-- The values of which a complaint is true: a text that is no amount, a text of blanks, a record with an
empty field, and a record in which the number of a field is 0. -/
inductive Deserves : Json → String → Prop
  | notInteger {text : String} (h : ¬∃ n, Amount.parse text = .ok n) :
      Deserves (.string text) (" " ++ Text.quote text ++ " is not an integer")
  | empty {text : String} (h : Text.hasInk text = false) : Deserves (.string text) " is empty"
  | missing {entry : Json} {field : String} (h : entry.member? field = some (.string "")) :
      Deserves entry (" missing " ++ field)
  | notPositive {entry : Json} {field : String} (h : entry.member? field = some (.number (.int 0))) :
      Deserves entry (" " ++ field ++ " must be positive")

/-- The message of a flaw names the offending entry of a policy: it consists of a path and a complaint,
the path leads to an entry in the written form of the policy of which the complaint is true, and no other
flaw of the policy has this message. -/
structure IsNamed (p : Policy) (f : Flaw) : Prop where
  message : f.message = pathText f.path ++ f.complaint
  deserved : ∀ v, p.toJson? = some v → ∃ entry, v.follow? f.path = some entry ∧
    Deserves entry f.complaint
  unique : ∀ g, p.Violates g → g.message = f.message → g = f

end Policy

/-- What is wrong with an account shows in its written form. -/
theorem FoundationEntry.Violates.deserves {e : FoundationEntry} (h : e.Violates index f) :
    Policy.Deserves e.toJson f.complaint := by
  cases h with
  | name h =>
    have hname : e.toJson.member? "name" = some (.string "") := h ▸ rfl
    exact .missing hname
  | address h =>
    have haddress : e.toJson.member? "address" = some (.string "") := h ▸ rfl
    exact .missing haddress

theorem BootstrapEntry.Violates.deserves {e : BootstrapEntry} {v : Json} (h : e.Violates index f)
    (hv : e.toJson? = some v) : Policy.Deserves v f.complaint := by
  obtain ⟨start?, end?, -, -, rfl⟩ := toJson?_eq_some_iff.mp hv
  have hnodup : ((e.written start? end?).map (·.1)).Nodup := by simp [written]
  have hhas := has_membersOf hnodup
  cases h with
  | address h => exact .missing (h ▸ (hhas 1 rfl).member?)
  | months h =>
    have hmonths := (hhas 3 rfl).member?
    rw [h] at hmonths
    exact .notPositive hmonths

namespace Policy

variable {p : Policy}

/-- The path of a flaw leads to an entry of which its complaint is true. -/
theorem Violates.exists_deserves (h : p.Violates f) {v : Json} (hv : p.toJson? = some v) :
    ∃ entry, v.follow? f.path = some entry ∧ Deserves entry f.complaint := by
  obtain ⟨bootstraps, hbootstraps, rfl⟩ := toJson?_eq_some_iff.mp hv
  have hnodup : ((p.written bootstraps).map (·.1)).Nodup := by simp [written]
  have hnodup' : ((p.writtenLockups bootstraps).map (·.1)).Nodup := by simp [writtenLockups]
  have hhas := has_membersOf hnodup
  have hlockups := has_membersOf hnodup'
  cases h with
  | maxSupply htext h =>
    have hsupply := hhas 0 rfl
    rw [htext] at hsupply
    exact ⟨_, hsupply.follow? [], .notInteger h⟩
  | @moduleName i name hname h =>
    have hitem : (p.modules.map Json.string)[i]? = some (.string name) := by
      rw [List.getElem?_map, hname]
      rfl
    exact ⟨_, (hhas 1 rfl).follow?_index hitem, .empty h⟩
  | @foundation i e f he h =>
    have hitem : (p.foundation.map FoundationEntry.toJson)[i]? = some e.toJson := by
      rw [List.getElem?_map, he]
      rfl
    have hpath : f.path = [.key "disclosed_lockups", .key "foundation_genesis", .index i] := by
      cases h <;> rfl
    rw [hpath, (hhas 2 rfl).follow?]
    exact ⟨_, (hlockups 0 rfl).follow?_index hitem, h.deserves⟩
  | @bootstrap i e f he h =>
    obtain ⟨entry, hentry, hitem⟩ := exists_getElem?_of_forall₂ (mapM_eq_some_iff.mp hbootstraps) he
    have hpath : f.path = [.key "disclosed_lockups", .key "supernode_bootstraps", .index i] := by
      cases h <;> rfl
    rw [hpath, (hhas 2 rfl).follow?]
    exact ⟨_, (hlockups 1 rfl).follow?_index hitem, h.deserves hentry⟩

/-- **The message of a flaw names the offending entry.** -/
theorem Violates.isNamed (h : p.Violates f) : p.IsNamed f where
  message := f.message_eq_path_complaint
  deserved _ hv := h.exists_deserves hv
  unique _ hg hmessage := hg.eq_of_message_eq h hmessage

/-- A policy that is decoded has a written form. -/
theorem exists_toJson?_of_decoder {text : String} (h : decoder.ofText text = .ok p) :
    ∃ v, p.toJson? = some v :=
  exists_toJson? (yields_decoder.ofText text p h)

/-! ### Policies that are read -/

theorem firstFlaw?_eq_none_iff : p.firstFlaw? = none ↔ p.IsSound :=
  (finds_firstFlaw? p).eq_none_iff.trans ⟨isSound_of_not_violates, IsSound.not_violates⟩

theorem firstFlaw?_eq_some_iff {f : Flaw} : p.firstFlaw? = some f ↔ p.IsFirstFlaw f :=
  (finds_firstFlaw? p).eq_some_iff

theorem ofText_of_firstFlaw? {text : String} {f : Flaw} (hp : decoder.ofText text = .ok p)
    (hflaw : p.firstFlaw? = some f) : ofText text = .error (.invalid f) := by
  unfold ofText
  rw [mapError_eq_ok.mpr hp, ok_bind, hflaw]
  rfl

/-- A text is refused for a flaw if it is decoded as a policy that has one. -/
theorem ofText_eq_invalid_iff {text : String} {f : Flaw} :
    ofText text = .error (.invalid f) ↔
      ∃ q, decoder.ofText text = .ok q ∧ q.firstFlaw? = some f := by
  constructor
  · intro h
    cases hdecoder : decoder.ofText text with
    | error why =>
      unfold ofText at h
      rw [hdecoder] at h
      cases h
    | ok q =>
      refine ⟨q, rfl, ?_⟩
      cases hflaw : q.firstFlaw? with
      | none =>
        rw [ofText_eq_ok_iff.mpr ⟨hdecoder, hflaw⟩] at h
        cases h
      | some g =>
        rw [ofText_of_firstFlaw? hdecoder hflaw] at h
        cases h
        rfl
  · rintro ⟨q, hq, hflaw⟩
    exact ofText_of_firstFlaw? hq hflaw

/-- **Policies are refused for their first flaw.** A policy without a flaw keeps every condition, and
the flaw of any other is the first condition that it violates, with the index of the entry. The message
names it: it has the path of the entry in the written form of the policy, and what it says is true of the
value to which this path leads. Hence a text is read exactly as a policy that keeps every condition, and
it is refused for a flaw exactly if it is decoded as a policy of which that is the first. Every policy
that is decoded has a written form. -/
theorem firstFlaw?_isFirst (p : Policy) (text : String) :
    ((p.firstFlaw? = none ↔ p.IsSound) ∧
      (∀ f, p.firstFlaw? = some f ↔ p.IsFirstFlaw f) ∧
      ∀ f, p.Violates f → p.IsNamed f) ∧
    (ofText text = .ok p ↔ decoder.ofText text = .ok p ∧ p.IsSound) ∧
      (∀ f, ofText text = .error (.invalid f) ↔
        ∃ q, decoder.ofText text = .ok q ∧ q.IsFirstFlaw f) ∧
      (decoder.ofText text = .ok p → ∃ v, p.toJson? = some v) := by
  refine ⟨⟨firstFlaw?_eq_none_iff, fun _ => firstFlaw?_eq_some_iff, fun _ hf => hf.isNamed⟩, ?_,
    fun f => ?_, exists_toJson?_of_decoder⟩
  · rw [ofText_eq_ok_iff, firstFlaw?_eq_none_iff]
  · simp only [ofText_eq_invalid_iff, firstFlaw?_eq_some_iff]

/-- A blank module name counts before an account without a name, and is found where the message says. -/
theorem firstFlaw?_isFirst_blank :
    let p : Policy := ⟨none, ["gov", " "], [⟨"", "a", none, none⟩], []⟩
    let text := "\x7b\"module_accounts\":[\"gov\",\" \"],\"disclosed_lockups\":\x7b" ++
      "\"foundation_genesis\":[\x7b\"name\":\"\",\"address\":\"a\"\x7d]\x7d\x7d"
    decoder.ofText text = .ok p ∧ ofText text = .error (.invalid (.moduleName 1)) ∧
      pathText (Flaw.moduleName 1).path ++ " is empty" = "module_accounts[1] is empty" ∧
      p.IsNamed (.moduleName 1) ∧
      ∃ v entry, p.toJson? = some v ∧ v.follow? [.key "module_accounts", .index 1] = some entry ∧
        Deserves entry " is empty" := by
  intro p text
  have hdecoded : decoder.ofText text = .ok p := eq_ok_of_toOption (by decide +kernel)
  obtain ⟨⟨-, hfirst, hnamed⟩, -, hinvalid, hwritten⟩ := firstFlaw?_isFirst p text
  have hflaw : p.IsFirstFlaw (.moduleName 1) := (hfirst _).mp (by decide)
  obtain ⟨v, hv⟩ := hwritten hdecoded
  have hnamed := hnamed _ hflaw.1
  obtain ⟨entry, hentry, hdeserves⟩ := hnamed.deserved v hv
  exact ⟨hdecoded, (hinvalid _).mpr ⟨p, hdecoded, hflaw⟩, rfl, hnamed, v, entry, hv, hentry, hdeserves⟩

end Policy

end Circulation
