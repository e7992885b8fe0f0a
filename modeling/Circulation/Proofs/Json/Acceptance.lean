import Circulation.Proofs.Json.Reading
import Circulation.Proofs.Json.Remainders

/-!
# Only texts of the grammar are read

A document without faults is the document of a text of some tree. The proof follows the machine from
the end of the text to its beginning: whatever state the machine is in, the rest of a text that it
takes without a fault completes what the state is in the middle of and closes what it holds open.

## Main definitions

* `Circulation.Json.Document.IsClean` — there is no fault that someone who passes over it would meet.
* `Circulation.Json.Reader.Closes` — what a stack of open containers still demands.
* `Circulation.Json.Reader.Completes` — what a state still demands.

## Main results

* `Circulation.Json.Reader.completes_of_isClean` — a document without faults met all demands.
* `Circulation.Json.exists_isText_of_isClean` — it is the document of a text of some tree.
-/

namespace Circulation.Json

/-- Whoever passes over the document meets no fault. -/
def Document.IsClean (d : Document) : Prop :=
  d.trailing = none ∧ d.root.passFault? = none

namespace Node

theorem itemsPassFault?_eq_none_iff {items : List Node} :
    itemsPassFault? items = none ↔ ∀ item ∈ items, item.passFault? = none := by
  induction items with
  | nil => simp [itemsPassFault?]
  | cons item items ih => simp [itemsPassFault?, ih]

theorem membersPassFault?_eq_none_iff {members : List Member} :
    membersPassFault? members = none ↔
      ∀ key keyStop value, Member.mk key keyStop value ∈ members → value.passFault? = none := by
  induction members with
  | nil => simp [membersPassFault?]
  | cons m members ih =>
    obtain ⟨key, keyStop, value⟩ := m
    rw [membersPassFault?, Option.or_eq_none_iff, ih]
    constructor
    · rintro ⟨hvalue, hmembers⟩ key' keyStop' value' hm
      rcases List.mem_cons.mp hm with heq | hm
      · cases heq
        exact hvalue
      · exact hmembers key' keyStop' value' hm
    · intro h
      exact ⟨h key keyStop value List.mem_cons_self,
        fun key' keyStop' value' hm => h key' keyStop' value' (List.mem_cons_of_mem _ hm)⟩

end Node

namespace Reader

open Grammar

/-! ### Documents that end too soon -/

/-- The fault of a container shows at any depth. -/
theorem passFault?_guardDepth (limit depth start : Nat) {node : Node} (h : node.passFault? ≠ none) :
    (guardDepth limit depth start node).passFault? ≠ none := by
  unfold guardDepth
  split
  · exact h
  · obtain ⟨passed, hpassed⟩ := Option.ne_none_iff_exists'.mp h
    rw [hpassed]
    exact Option.some_ne_none _

/-- A frame has a place for the value inside it. -/
def Frame.Holds : Frame → Prop
  | .array _ _ | .member _ _ _ _ => True
  | .object _ _ => False

/-- A fault inside open containers shows. -/
theorem passFault?_close (limit : Nat) {stack : List Frame} (hstack : ∀ f ∈ stack, f.Holds)
    {node : Node} (h : node.passFault? ≠ none) : (close limit node stack).passFault? ≠ none := by
  induction stack generalizing node with
  | nil => exact h
  | cons f stack ih =>
    obtain ⟨hf, hrest⟩ := List.forall_mem_cons.mp hstack
    cases f with
    | array start items =>
      refine ih hrest (passFault?_guardDepth _ _ _ fun hnone => h ?_)
      exact Node.itemsPassFault?_eq_none_iff.mp hnone node (by simp)
    | member start members key keyStop =>
      refine ih hrest (passFault?_guardDepth _ _ _ fun hnone => h ?_)
      exact Node.membersPassFault?_eq_none_iff.mp hnone key keyStop node (by simp)
    | object start members => exact hf.elim

theorem passFault?_broken (start : Nat) (read passed : Fault) :
    (Node.broken start read passed).passFault? ≠ none :=
  Option.some_ne_none passed

theorem not_isClean_stop {s : State} (hs : ∀ f ∈ s.stack, f.Holds) (start : Nat)
    (read passed : Fault) : ¬(stop s start read passed).IsClean :=
  fun h => passFault?_close s.limit hs (passFault?_broken start read passed) h.2

theorem not_isClean_stopAtKey {s : State} {objectStart : Nat} {members : List Member}
    {stack : List Frame} (hs : s.stack = .object objectStart members :: stack)
    (hstack : ∀ f ∈ stack, f.Holds) (start : Nat) (read passed : Fault) :
    ¬(stopAtKey s start read passed).IsClean := by
  unfold stopAtKey
  rw [hs]
  have hholds : ∀ f ∈ Frame.member objectStart members (.error read) start :: stack, f.Holds :=
    List.forall_mem_cons.mpr ⟨trivial, hstack⟩
  exact fun h =>
    passFault?_close s.limit hholds (passFault?_broken start read passed) h.2

/-! ### What a state demands -/

/-- The innermost container and the phase belong together, and a document that came to its end too
soon has a fault. -/
inductive Fits : Phase → List Frame → Prop
  | atItem {p : Phase} {start : Nat} {items : List Node} {stack : List Frame}
      (hp : p = .firstItem ∨ p = .nextItem ∨ p = .afterItem) (hstack : ∀ f ∈ stack, f.Holds) :
      Fits p (.array start items :: stack)
  | atMember {p : Phase} {start : Nat} {members : List Member} {stack : List Frame}
      (hp : p = .firstKey ∨ p = .nextKey ∨ p = .afterMember ∨ (∃ key, p = .colon key) ∨
        ∃ q, p = .key q) (hstack : ∀ f ∈ stack, f.Holds) :
      Fits p (.object start members :: stack)
  | inValue {p : Phase} {stack : List Frame}
      (hp : p = .value ∨ (∃ start w node, w ≠ [] ∧ p = .word start w node) ∨ (∃ n, p = .number n) ∨
        ∃ q, p = .string q) (hstack : ∀ f ∈ stack, f.Holds) : Fits p stack
  | done {root : Node} : Fits (.done root) []
  | stopped {d : Document} {stack : List Frame} (h : ¬d.IsClean) : Fits (.stopped d) stack

/-- What has to follow a value inside open containers: it closes them. -/
def Closes : List Frame → List Char → Prop
  | [], cs => Blanks cs []
  | .array _ _ :: stack, cs => ∃ r,
      (Blanks cs (']' :: r) ∨ ∃ ds ts, Blanks cs (',' :: ds) ∧ Items ts ds (']' :: r)) ∧
      Closes stack r
  | .object _ _ :: stack, cs | .member _ _ _ _ :: stack, cs => ∃ r,
      (Blanks cs ('\x7d' :: r) ∨ ∃ ds ms, Blanks cs (',' :: ds) ∧ Members ms ds ('\x7d' :: r)) ∧
      Closes stack r

/-- What has to follow in a phase inside open containers: it completes what the machine is in the
middle of and closes the containers. -/
def Completes : Phase → List Frame → List Char → Prop
  | .value, stack, cs => ∃ t r, Element t cs r ∧ Closes stack r
  | .firstItem, stack, cs => ∃ r,
      (Blanks cs (']' :: r) ∨ ∃ ts, Items ts cs (']' :: r)) ∧ Closes stack.tail r
  | .nextItem, stack, cs => ∃ ts r, Items ts cs (']' :: r) ∧ Closes stack.tail r
  | .firstKey, stack, cs => ∃ r,
      (Blanks cs ('\x7d' :: r) ∨ ∃ ms, Members ms cs ('\x7d' :: r)) ∧ Closes stack.tail r
  | .nextKey, stack, cs => ∃ ms r, Members ms cs ('\x7d' :: r) ∧ Closes stack.tail r
  | .colon _, stack, cs => ∃ ds t r, Blanks cs (':' :: ds) ∧ Element t ds r ∧ Closes stack r
  | .afterItem, stack, cs | .afterMember, stack, cs => Closes stack cs
  | .word _ w _, stack, cs => ∃ r, cs = w ++ r ∧ Closes stack r
  | .number n, stack, cs => ∃ ds r, n.phase.Remains ds ∧ cs = ds ++ r ∧ Closes stack r
  | .string q, stack, cs => ∃ r, q.phase.Remains cs r ∧ Closes stack r
  | .key q, stack, cs => ∃ r ds t r', q.phase.Remains cs r ∧ Blanks r (':' :: ds) ∧
      Element t ds r' ∧ Closes stack r'
  | .done _, _, cs => Blanks cs []
  | .stopped _, _, _ => False

section Blanks

variable {c : Char} (hc : isBlank c = true)
include hc

theorem blank_element {t : Tree} {cs r : List Char} (h : Element t cs r) : Element t (c :: cs) r := by
  obtain ⟨hbefore, h, hafter⟩ := h
  exact .element (.more hc hbefore) h hafter

theorem blank_items {ts : List Tree} {cs r : List Char} (h : Items ts cs r) :
    Items ts (c :: cs) r := by
  cases h with
  | last h => exact .last (blank_element hc h)
  | more h hmore => exact .more (blank_element hc h) hmore

theorem blank_key {ps : List Piece} {cs r : List Char} (h : Key ps cs r) : Key ps (c :: cs) r := by
  obtain ⟨hbefore, h, hafter⟩ := h
  exact .key (.more hc hbefore) h hafter

theorem blank_members {ms : List (Option String × Tree)} {cs r : List Char}
    (h : Members ms cs r) : Members ms (c :: cs) r := by
  cases h with
  | last hkey h => exact .last (blank_key hc hkey) h
  | more hkey h hmore => exact .more (blank_key hc hkey) h hmore

theorem blank_closes {stack : List Frame} {cs : List Char} (h : Closes stack cs) :
    Closes stack (c :: cs) := by
  rcases stack with _ | ⟨_ | _ | _, stack⟩
  · exact .more hc h
  all_goals
    obtain ⟨r, hend | ⟨ds, parts, hcomma, hparts⟩, hclose⟩ := h
    · exact ⟨r, .inl (.more hc hend), hclose⟩
    · exact ⟨r, .inr ⟨ds, parts, .more hc hcomma, hparts⟩, hclose⟩

theorem blank_completes {p : Phase} (hp : p.IsBetween) {stack : List Frame} {cs : List Char}
    (h : Completes p stack cs) : Completes p stack (c :: cs) := by
  cases p with
  | value =>
    obtain ⟨t, r, h, hclose⟩ := h
    exact ⟨t, r, blank_element hc h, hclose⟩
  | firstItem =>
    obtain ⟨r, hend | ⟨ts, h⟩, hclose⟩ := h
    · exact ⟨r, .inl (.more hc hend), hclose⟩
    · exact ⟨r, .inr ⟨ts, blank_items hc h⟩, hclose⟩
  | nextItem =>
    obtain ⟨ts, r, h, hclose⟩ := h
    exact ⟨ts, r, blank_items hc h, hclose⟩
  | firstKey =>
    obtain ⟨r, hend | ⟨ms, h⟩, hclose⟩ := h
    · exact ⟨r, .inl (.more hc hend), hclose⟩
    · exact ⟨r, .inr ⟨ms, blank_members hc h⟩, hclose⟩
  | nextKey =>
    obtain ⟨ms, r, h, hclose⟩ := h
    exact ⟨ms, r, blank_members hc h, hclose⟩
  | colon key =>
    obtain ⟨ds, t, r, hcolon, h⟩ := h
    exact ⟨ds, t, r, .more hc hcolon, h⟩
  | afterItem => exact blank_closes hc h
  | afterMember => exact blank_closes hc h
  | done root => exact .more hc h
  | _ => exact hp.elim

end Blanks

/-! ### Parts put together -/

theorem element_of_value {t : Tree} {cs r : List Char} (h : Value t cs r) : Element t cs r :=
  .element .none h .none

theorem blanks_trans {cs ds r : List Char} (h : Blanks cs ds) (h' : Blanks ds r) : Blanks cs r := by
  induction h with
  | none => exact h'
  | more hc _ ih => exact .more hc (ih h')

theorem element_blanks {t : Tree} {cs ds r : List Char} (h : Element t cs ds) (h' : Blanks ds r) :
    Element t cs r := by
  obtain ⟨hbefore, h, hafter⟩ := h
  exact .element hbefore h (blanks_trans hafter h')

/-- An item and what follows it make up the rest of an array. -/
theorem items_of_closes {t : Tree} {cs ds : List Char} {start : Nat} {items : List Node}
    {stack : List Frame} (h : Element t cs ds) (hclose : Closes (.array start items :: stack) ds) :
    ∃ ts r, Items ts cs (']' :: r) ∧ Closes stack r := by
  obtain ⟨r, hend | ⟨es, ts, hcomma, hts⟩, hclose⟩ := hclose
  · exact ⟨[t], r, .last (element_blanks h hend), hclose⟩
  · exact ⟨t :: ts, r, .more (element_blanks h hcomma) hts, hclose⟩

/-- A member and what follows it make up the rest of an object. -/
theorem members_of_closes {ps : List Piece} {t : Tree} {cs ds es : List Char} {start : Nat}
    {members : List Member} {stack : List Frame} (hkey : Key ps cs ds) (h : Element t ds es)
    (hclose : Closes (.object start members :: stack) es) :
    ∃ ms r, Members ms cs ('\x7d' :: r) ∧ Closes stack r := by
  obtain ⟨r, hend | ⟨fs, ms, hcomma, hms⟩, hclose⟩ := hclose
  · exact ⟨_, r, .last hkey (element_blanks h hend), hclose⟩
  · exact ⟨_, r, .more hkey (element_blanks h hcomma) hms, hclose⟩

/-! ### Steps -/

theorem closes_of_complete {s : State} {node : Node} {cs : List Char}
    (h : Completes (complete s node).phase (complete s node).stack cs) : Closes s.stack cs := by
  obtain ⟨limit, offset, stack, phase⟩ := s
  rcases stack with _ | ⟨_ | _ | _, stack⟩ <;> exact h

theorem fits_complete {s : State} (hs : ∀ f ∈ s.stack, f.Holds) (node : Node) :
    Fits (complete s node).phase (complete s node).stack := by
  obtain ⟨limit, offset, stack, phase⟩ := s
  rcases stack with _ | ⟨_ | _ | _, stack⟩
  · exact .done
  all_goals have hrest := (List.forall_mem_cons.mp hs).2
  · exact .atItem (.inr (.inr rfl)) hrest
  · exact .atMember (.inr (.inr (.inl rfl))) hrest
  · exact .atMember (.inr (.inr (.inl rfl))) hrest

/-- The first character of a value that is no container begins it. -/
theorem value_of_startValue? {o : Nat} {c : Char} {p : Phase} (hp : startValue? o c = some p)
    {stack : List Frame} {cs : List Char} (h : Completes p stack cs) :
    ∃ t r, Value t (c :: cs) r ∧ Closes stack r := by
  have hword : ∀ {start : Nat} {w : List Char} {node : Span → Node},
      Completes (.word start w node) stack cs → ∃ r, cs = w ++ r ∧ Closes stack r := id
  have hfirst : ∀ {n n' : Numeral}, numberStep n c = .more n' → n.phase = .sign →
      Completes (.number n') stack cs → ∃ t r, Value t (c :: cs) r ∧ Closes stack r := by
    rintro n n' hmore hsign ⟨ds, r, hds, rfl, hclose⟩
    have hrest := remains_cons hmore hds
    rw [hsign] at hrest
    obtain ⟨l, hl⟩ := hrest false
    exact ⟨_, r, .number (.positive hl), hclose⟩
  unfold startValue? at hp
  split at hp
  · next hc =>
    subst hc
    cases hp
    obtain ⟨r, rfl, hclose⟩ := hword h
    exact ⟨_, r, .null, hclose⟩
  split at hp
  · next hc =>
    subst hc
    cases hp
    obtain ⟨r, rfl, hclose⟩ := hword h
    exact ⟨_, r, .true, hclose⟩
  split at hp
  · next hc =>
    subst hc
    cases hp
    obtain ⟨r, rfl, hclose⟩ := hword h
    exact ⟨_, r, .false, hclose⟩
  split at hp
  · next hc =>
    subst hc
    cases hp
    obtain ⟨r, ⟨ps, hps⟩, hclose⟩ := h
    exact ⟨_, r, .string hps, hclose⟩
  split at hp
  · next hc =>
    subst hc
    cases hp
    obtain ⟨ds, r, hds, rfl, hclose⟩ := h
    obtain ⟨l, hl⟩ := hds true
    exact ⟨_, r, .number (.negative hl), hclose⟩
  split at hp
  · next hc =>
    subst hc
    cases hp
    refine hfirst (n := ⟨o, .sign, {}⟩) ?_ rfl h
    simp [numberStep, Numeral.addDigit]
  split at hp
  · next hzero hd =>
    cases hp
    refine hfirst (n := ⟨o, .sign, {}⟩) ?_ rfl h
    simp [numberStep, hzero, hd, Numeral.addDigit]
  · cases hp

theorem value_of_stepValue {s : State} {c : Char} {cs : List Char}
    (h : Completes (stepValue s c).phase (stepValue s c).stack cs) :
    ∃ t r, Value t (c :: cs) r ∧ Closes s.stack r := by
  unfold stepValue at h
  dsimp only at h
  split at h
  · next hc =>
    subst hc
    obtain ⟨r, hend | ⟨ts, hts⟩, hclose⟩ := h
    · exact ⟨_, r, .emptyArray hend, hclose⟩
    · exact ⟨_, r, .array hts, hclose⟩
  split at h
  · next hc =>
    subst hc
    obtain ⟨r, hend | ⟨ms, hms⟩, hclose⟩ := h
    · exact ⟨_, r, .emptyObject hend, hclose⟩
    · exact ⟨_, r, .object hms, hclose⟩
  split at h
  · next p hp => exact value_of_startValue? hp h
  · exact h.elim

theorem fits_stepValue {s : State} (hs : ∀ f ∈ s.stack, f.Holds) (c : Char) :
    Fits (stepValue s c).phase (stepValue s c).stack := by
  unfold stepValue
  dsimp only
  split
  · exact .atItem (.inl rfl) hs
  split
  · exact .atMember (.inl rfl) hs
  split
  · next p hp =>
    refine .inValue ?_ hs
    unfold startValue? at hp
    repeat' split at hp
    all_goals cases hp
    all_goals simp
  · exact .stopped (not_isClean_stop hs _ _ _)

section Between

variable {limit offset : Nat} {stack : List Frame} {p : Phase} {c : Char} (hblank : ¬isBlank c = true)
include hblank

theorem completes_of_stepInArray {start : Nat} {items : List Node} {cs : List Char}
    (hp : p = .firstItem ∨ p = .nextItem ∨ p = .afterItem)
    (h : Completes (stepBetween ⟨limit, offset, .array start items :: stack, p⟩ c).phase
      (stepBetween ⟨limit, offset, .array start items :: stack, p⟩ c).stack cs) :
    Completes p (.array start items :: stack) (c :: cs) := by
  rcases hp with rfl | rfl | rfl
  · simp only [stepBetween, if_neg hblank] at h
    split at h
    · next hc =>
      subst hc
      exact ⟨cs, .inl .none, closes_of_complete h⟩
    · obtain ⟨t, ds, ht, hclose⟩ := value_of_stepValue h
      obtain ⟨ts, r, hts, hclose⟩ := items_of_closes (element_of_value ht) hclose
      exact ⟨r, .inr ⟨ts, hts⟩, hclose⟩
  · simp only [stepBetween, if_neg hblank] at h
    split at h
    · exact h.elim
    · obtain ⟨t, ds, ht, hclose⟩ := value_of_stepValue h
      exact items_of_closes (element_of_value ht) hclose
  · simp only [stepBetween, if_neg hblank] at h
    split at h
    · next hc =>
      subst hc
      obtain ⟨ts, r, hts, hclose⟩ := h
      exact ⟨r, .inr ⟨cs, ts, .none, hts⟩, hclose⟩
    · split at h
      · next hc =>
        subst hc
        exact ⟨cs, .inl .none, closes_of_complete h⟩
      · exact h.elim

theorem fits_stepInArray {start : Nat} {items : List Node}
    (hp : p = .firstItem ∨ p = .nextItem ∨ p = .afterItem) (hstack : ∀ f ∈ stack, f.Holds) :
    Fits (stepBetween ⟨limit, offset, .array start items :: stack, p⟩ c).phase
      (stepBetween ⟨limit, offset, .array start items :: stack, p⟩ c).stack := by
  have hall : ∀ f ∈ Frame.array start items :: stack, f.Holds :=
    List.forall_mem_cons.mpr ⟨trivial, hstack⟩
  rcases hp with rfl | rfl | rfl
  · simp only [stepBetween, if_neg hblank]
    split
    · exact fits_complete hstack _
    · exact fits_stepValue hall c
  · simp only [stepBetween, if_neg hblank]
    split
    · exact .stopped (not_isClean_stop hall _ _ _)
    · exact fits_stepValue hall c
  · simp only [stepBetween, if_neg hblank]
    split
    · exact .atItem (.inr (.inl rfl)) hstack
    · split
      · exact fits_complete hstack _
      · exact .stopped (not_isClean_stop hall _ _ _)

theorem completes_of_stepInObject {start : Nat} {members : List Member} {cs : List Char}
    (hp : p = .firstKey ∨ p = .nextKey ∨ p = .afterMember ∨ ∃ key, p = .colon key)
    (h : Completes (stepBetween ⟨limit, offset, .object start members :: stack, p⟩ c).phase
      (stepBetween ⟨limit, offset, .object start members :: stack, p⟩ c).stack cs) :
    Completes p (.object start members :: stack) (c :: cs) := by
  have hkey : ∀ {q : Quote}, c = '"' → q.phase = .plain →
      Completes (.key q) (.object start members :: stack) cs →
      ∃ ms r, Members ms (c :: cs) ('\x7d' :: r) ∧ Closes stack r := by
    rintro q rfl hq ⟨r, ds, t, r', hquote, hcolon, ht, hclose⟩
    rw [hq] at hquote
    obtain ⟨ps, hps⟩ := hquote
    exact members_of_closes (.key .none hps hcolon) ht hclose
  rcases hp with rfl | rfl | rfl | ⟨key, rfl⟩
  · simp only [stepBetween, if_neg hblank] at h
    split at h
    · next hc =>
      obtain ⟨ms, r, hms, hclose⟩ := hkey hc rfl h
      exact ⟨r, .inr ⟨ms, hms⟩, hclose⟩
    · split at h
      · next hc =>
        subst hc
        exact ⟨cs, .inl .none, closes_of_complete h⟩
      · exact h.elim
  · simp only [stepBetween, if_neg hblank] at h
    split at h
    · next hc => exact hkey hc rfl h
    · split at h <;> exact h.elim
  · simp only [stepBetween, if_neg hblank] at h
    split at h
    · next hc =>
      subst hc
      obtain ⟨ms, r, hms, hclose⟩ := h
      exact ⟨r, .inr ⟨cs, ms, .none, hms⟩, hclose⟩
    · split at h
      · next hc =>
        subst hc
        exact ⟨cs, .inl .none, closes_of_complete h⟩
      · exact h.elim
  · simp only [stepBetween, if_neg hblank] at h
    split at h
    · next hc =>
      subst hc
      obtain ⟨t, r, ht, hclose⟩ := h
      exact ⟨cs, t, r, .none, ht, hclose⟩
    · exact h.elim

theorem fits_stepInObject {start : Nat} {members : List Member}
    (hp : p = .firstKey ∨ p = .nextKey ∨ p = .afterMember ∨ ∃ key, p = .colon key)
    (hstack : ∀ f ∈ stack, f.Holds) :
    Fits (stepBetween ⟨limit, offset, .object start members :: stack, p⟩ c).phase
      (stepBetween ⟨limit, offset, .object start members :: stack, p⟩ c).stack := by
  have hstop : ∀ {p : Phase} {at' : Nat} {read passed : Fault},
      Fits (.stopped (stopAtKey ⟨limit, offset, .object start members :: stack, p⟩ at' read passed))
        (.object start members :: stack) :=
    .stopped (not_isClean_stopAtKey rfl hstack _ _ _)
  rcases hp with rfl | rfl | rfl | ⟨key, rfl⟩
  · simp only [stepBetween, if_neg hblank]
    split
    · exact .atMember (by simp) hstack
    · split
      · exact fits_complete hstack _
      · exact hstop
  · simp only [stepBetween, if_neg hblank]
    split
    · exact .atMember (by simp) hstack
    · split <;> exact hstop
  · simp only [stepBetween, if_neg hblank]
    split
    · exact .atMember (by simp) hstack
    · split
      · exact fits_complete hstack _
      · exact hstop
  · have hall : ∀ f ∈ Frame.member start members key offset :: stack, f.Holds :=
      List.forall_mem_cons.mpr ⟨trivial, hstack⟩
    simp only [stepBetween, if_neg hblank]
    split
    · exact .inValue (.inl rfl) hall
    · exact .stopped (not_isClean_stop hall _ _ _)

end Between

/-- The phases between the parts of an object. -/
theorem memberPhase_of_isBetween {p : Phase}
    (hp : p = .firstKey ∨ p = .nextKey ∨ p = .afterMember ∨ (∃ key, p = .colon key) ∨
      ∃ q, p = .key q) (hbetween : p.IsBetween) :
    p = .firstKey ∨ p = .nextKey ∨ p = .afterMember ∨ ∃ key, p = .colon key := by
  rcases hp with hp | hp | hp | hp | ⟨q, rfl⟩
  · exact .inl hp
  · exact .inr (.inl hp)
  · exact .inr (.inr (.inl hp))
  · exact .inr (.inr (.inr hp))
  · exact hbetween.elim

/-- The only phase between the parts of a text in which a value is due outside an array. -/
theorem valuePhase_of_isBetween {p : Phase}
    (hp : p = .value ∨ (∃ start w node, w ≠ [] ∧ p = .word start w node) ∨ (∃ n, p = .number n) ∨
      ∃ q, p = .string q) (hbetween : p.IsBetween) : p = .value := by
  rcases hp with hp | ⟨_, _, _, _, rfl⟩ | ⟨_, rfl⟩ | ⟨_, rfl⟩
  · exact hp
  all_goals exact hbetween.elim

/-- A step between the parts of a text leads from what the text still demands to what it demanded. -/
theorem completes_of_stepBetween {s : State} (hs : Fits s.phase s.stack)
    (hbetween : s.phase.IsBetween) {c : Char} {cs : List Char}
    (h : Completes (stepBetween s c).phase (stepBetween s c).stack cs) :
    Completes s.phase s.stack (c :: cs) := by
  obtain ⟨limit, offset, stack, phase⟩ := s
  by_cases hblank : isBlank c = true
  · simp only [stepBetween, if_pos hblank] at h
    exact blank_completes hblank hbetween h
  cases hs with
  | atItem hp _ => exact completes_of_stepInArray hblank hp h
  | atMember hp _ => exact completes_of_stepInObject hblank (memberPhase_of_isBetween hp hbetween) h
  | inValue hp _ =>
    obtain rfl := valuePhase_of_isBetween hp hbetween
    simp only [stepBetween, if_neg hblank] at h
    obtain ⟨t, r, ht, hclose⟩ := value_of_stepValue h
    exact ⟨t, r, element_of_value ht, hclose⟩
  | done =>
    simp only [stepBetween, if_neg hblank] at h
    exact h.elim
  | stopped _ => exact hbetween.elim

theorem fits_stepBetween {s : State} (hs : Fits s.phase s.stack) (hbetween : s.phase.IsBetween)
    (c : Char) : Fits (stepBetween s c).phase (stepBetween s c).stack := by
  obtain ⟨limit, offset, stack, phase⟩ := s
  by_cases hblank : isBlank c = true
  · simp only [stepBetween, if_pos hblank]
    exact hs
  cases hs with
  | atItem hp hstack => exact fits_stepInArray hblank hp hstack
  | atMember hp hstack => exact fits_stepInObject hblank (memberPhase_of_isBetween hp hbetween) hstack
  | inValue hp hstack =>
    obtain rfl := valuePhase_of_isBetween hp hbetween
    simp only [stepBetween, if_neg hblank]
    exact fits_stepValue hstack c
  | done =>
    simp only [stepBetween, if_neg hblank]
    exact .stopped fun h => absurd h.1 (by simp)
  | stopped _ => exact hbetween.elim

/-- The phase belongs to the innermost container after every step. -/
theorem fits_step {s : State} (hs : Fits s.phase s.stack) (c : Char) :
    Fits (step s c).phase (step s c).stack := by
  show Fits (stepPhase s c).phase (stepPhase s c).stack
  by_cases hbetween : s.phase.IsBetween
  · rw [stepPhase_of_isBetween hbetween]
    exact fits_stepBetween hs hbetween c
  obtain ⟨limit, offset, stack, phase⟩ := s
  cases hs with
  | atItem hp _ => rcases hp with rfl | rfl | rfl <;> exact absurd trivial hbetween
  | @atMember _ start members stack hp hstack =>
    rcases hp with rfl | rfl | rfl | ⟨key, rfl⟩ | ⟨q, rfl⟩
    iterate 4 exact absurd trivial hbetween
    simp only [stepPhase]
    split
    · exact .atMember (by simp) hstack
    · exact .atMember (by simp) hstack
    · exact .stopped (not_isClean_stopAtKey rfl hstack _ _ _)
  | inValue hp hstack =>
    rcases hp with rfl | ⟨first, w, node, hw, rfl⟩ | ⟨n, rfl⟩ | ⟨q, rfl⟩
    · exact absurd trivial hbetween
    · obtain ⟨d, w, rfl⟩ := List.exists_cons_of_ne_nil hw
      simp only [stepPhase]
      split
      · split
        · exact fits_complete hstack _
        · next hrest => exact .inValue (.inr (.inl ⟨_, _, _, hrest, rfl⟩)) hstack
      · exact .stopped (not_isClean_stop hstack _ _ _)
    · simp only [stepPhase]
      split
      · exact .inValue (by simp) hstack
      · exact fits_stepBetween (fits_complete hstack _) (isBetween_complete _ _) c
      · exact .stopped (not_isClean_stop hstack _ _ _)
    · simp only [stepPhase]
      split
      · exact .inValue (by simp) hstack
      · exact fits_complete hstack _
      · exact .stopped (not_isClean_stop hstack _ _ _)
  | done => exact absurd trivial hbetween
  | stopped h => exact .stopped h

/-- A step leads from what the text still demands to what it demanded before. -/
theorem completes_of_step {s : State} (hs : Fits s.phase s.stack) {c : Char} {cs : List Char}
    (h : Completes (step s c).phase (step s c).stack cs) : Completes s.phase s.stack (c :: cs) := by
  have h : Completes (stepPhase s c).phase (stepPhase s c).stack cs := h
  by_cases hbetween : s.phase.IsBetween
  · rw [stepPhase_of_isBetween hbetween] at h
    exact completes_of_stepBetween hs hbetween h
  obtain ⟨limit, offset, stack, phase⟩ := s
  cases hs with
  | atItem hp _ => rcases hp with rfl | rfl | rfl <;> exact absurd trivial hbetween
  | @atMember _ start members stack hp hstack =>
    rcases hp with rfl | rfl | rfl | ⟨key, rfl⟩ | ⟨q, rfl⟩
    iterate 4 exact absurd trivial hbetween
    simp only [stepPhase] at h
    split at h
    · next q' hmore =>
      obtain ⟨r, ds, t, r', hquote, hrest⟩ := h
      exact ⟨r, ds, t, r', quoteRemains_cons hmore hquote, hrest⟩
    · next q' hfinished =>
      obtain ⟨ds, t, r', hrest⟩ := h
      exact ⟨cs, ds, t, r', quoteRemains_of_finished hfinished, hrest⟩
    · exact h.elim
  | inValue hp hstack =>
    rcases hp with rfl | ⟨first, w, node, hw, rfl⟩ | ⟨n, rfl⟩ | ⟨q, rfl⟩
    · exact absurd trivial hbetween
    · obtain ⟨d, w, rfl⟩ := List.exists_cons_of_ne_nil hw
      simp only [stepPhase] at h
      split at h
      · next hd =>
        subst hd
        split at h
        · next hlast =>
          subst hlast
          exact ⟨cs, rfl, closes_of_complete h⟩
        · obtain ⟨r, rfl, hclose⟩ := h
          exact ⟨r, rfl, hclose⟩
      · exact h.elim
    · simp only [stepPhase] at h
      split at h
      · next n' hmore =>
        obtain ⟨ds, r, hds, rfl, hclose⟩ := h
        exact ⟨c :: ds, r, remains_cons hmore hds, rfl, hclose⟩
      · next hfinished =>
        have hrest := completes_of_stepBetween (fits_complete hstack _) (isBetween_complete _ _) h
        exact ⟨[], c :: cs, remains_nil (isComplete_of_finished hfinished), rfl,
          closes_of_complete hrest⟩
      · exact h.elim
    · simp only [stepPhase] at h
      split at h
      · next q' hmore =>
        obtain ⟨r, hquote, hclose⟩ := h
        exact ⟨r, quoteRemains_cons hmore hquote, hclose⟩
      · next q' hfinished =>
        exact ⟨cs, quoteRemains_of_finished hfinished, closes_of_complete h⟩
      · exact h.elim
  | done => exact absurd trivial hbetween
  | stopped _ => exact h.elim

/-- Only outside all containers may a text end with a number. -/
theorem closes_of_finish_number {limit offset : Nat} {stack : List Frame} {n : Numeral}
    (hn : n.phase.IsComplete) (hstack : ∀ f ∈ stack, f.Holds)
    (h : (finish ⟨limit, offset, stack, .number n⟩).IsClean) : Closes stack [] := by
  have hfinish : (finish (complete ⟨limit, offset, stack, .value⟩ (numberNode n offset))).IsClean :=
    finish_number ⟨limit, offset, stack, .value⟩ hn offset ▸ h
  rcases stack with _ | ⟨_ | _ | _, stack⟩
  · exact .none
  all_goals obtain ⟨hf, hrest⟩ := List.forall_mem_cons.mp hstack
  · exact absurd hfinish (not_isClean_stop (List.forall_mem_cons.mpr ⟨trivial, hrest⟩) _ _ _)
  · exact hf.elim
  · exact absurd hfinish (not_isClean_stopAtKey rfl hrest _ _ _)

/-- A text that ends without a fault demands nothing more. -/
theorem completes_of_finish {s : State} (hs : Fits s.phase s.stack) (h : (finish s).IsClean) :
    Completes s.phase s.stack [] := by
  obtain ⟨limit, offset, stack, phase⟩ := s
  cases hs with
  | @atItem _ start items stack hp hstack =>
    have hall : ∀ f ∈ Frame.array start items :: stack, f.Holds :=
      List.forall_mem_cons.mpr ⟨trivial, hstack⟩
    rcases hp with rfl | rfl | rfl <;> exact absurd h (not_isClean_stop hall _ _ _)
  | @atMember _ start members stack hp hstack =>
    rcases hp with rfl | rfl | rfl | ⟨key, rfl⟩ | ⟨q, rfl⟩
    iterate 3 exact absurd h (not_isClean_stopAtKey rfl hstack _ _ _)
    · have hall : ∀ f ∈ Frame.member start members key offset :: stack, f.Holds :=
        List.forall_mem_cons.mpr ⟨trivial, hstack⟩
      exact absurd h (not_isClean_stop hall _ _ _)
    · exact absurd h (not_isClean_stopAtKey rfl hstack _ _ _)
  | inValue hp hstack =>
    rcases hp with rfl | ⟨first, w, node, hw, rfl⟩ | ⟨n, rfl⟩ | ⟨q, rfl⟩
    · exact absurd h (not_isClean_stop hstack _ _ _)
    · exact absurd h (not_isClean_stop hstack _ _ _)
    · by_cases hcomplete : n.phase.IsComplete
      · refine ⟨[], [], remains_nil hcomplete, rfl, closes_of_finish_number hcomplete hstack h⟩
      · obtain ⟨start, p, literal⟩ := n
        cases p <;> first
          | exact absurd h (not_isClean_stop hstack _ _ _)
          | exact absurd (by simp [NumberPhase.IsComplete]) hcomplete
    · exact absurd h (not_isClean_stop hstack _ _ _)
  | done => exact .none
  | stopped hd => exact absurd h hd

/-- **A text that is taken without a fault** meets all that the state before it demands. -/
theorem completes_of_isClean {cs : List Char} {s : State} (hs : Fits s.phase s.stack)
    (h : (documentFrom s cs).IsClean) : Completes s.phase s.stack cs := by
  induction cs generalizing s with
  | nil => exact completes_of_finish hs h
  | cons c cs ih => exact completes_of_step hs (ih (fits_step hs c) h)

end Reader

/-- **Only texts of the grammar have no fault.** -/
theorem exists_isText_of_isClean {s : String} (h : (read s).IsClean) : ∃ t : Tree, t.IsText s := by
  have hinitial : Reader.Fits .value [] := .inValue (.inl rfl) (by simp)
  obtain ⟨t, r, ht, hclose⟩ :=
    Reader.completes_of_isClean (s := { limit := depthLimit }) hinitial h
  exact ⟨t, Reader.element_blanks ht hclose⟩

end Circulation.Json
