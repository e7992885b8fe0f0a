import Circulation.Proofs.Json.Literals

/-!
# The texts that are read

The machine reads every text of the grammar and comes to its tree, except that containers that are
nested too deeply become holes. A value leads from any state in which a value is due to the state after
it, whatever comes after it in the text; the parts of containers are taken one by one.

## Main results

* `Circulation.Json.Reader.documentFrom_value` — how the machine takes a value.
* `Circulation.Json.Tree.IsText.read` — the document of a text of the grammar.
-/

namespace Circulation.Json

namespace Reader

open Grammar

/-! ### Blanks -/

/-- The machine passes over blanks. -/
def Phase.IsBetween : Phase → Prop
  | .value | .firstItem | .nextItem | .firstKey | .nextKey | .colon _ | .afterItem | .afterMember
  | .done _ => True
  | .word _ _ _ | .number _ | .string _ | .key _ | .stopped _ => False

theorem stepPhase_of_isBetween {s : State} (hs : s.phase.IsBetween) (c : Char) :
    stepPhase s c = stepBetween s c := by
  obtain ⟨limit, offset, stack, phase⟩ := s
  cases phase <;> first | rfl | exact hs.elim

theorem documentFrom_blanks {s : State} (hs : s.phase.IsBetween) {cs r : List Char}
    (h : Blanks cs r) : ∃ o, documentFrom s cs = documentFrom { s with offset := o } r := by
  induction h generalizing s with
  | none => exact ⟨s.offset, rfl⟩
  | @more c cs r hc _ ih =>
    have hstep : step s c = { s with offset := s.offset + c.utf8Size } := by
      simp only [step, stepPhase_of_isBetween hs, stepBetween, if_pos hc]
    obtain ⟨o, hread⟩ := ih (s := { s with offset := s.offset + c.utf8Size }) hs
    exact ⟨o, by rw [documentFrom_cons, hstep, hread]⟩

theorem isBetween_complete (s : State) (node : Node) : (complete s node).phase.IsBetween := by
  obtain ⟨limit, offset, stack, phase⟩ := s
  rcases stack with _ | ⟨_ | _ | _, stack⟩ <;> exact trivial

theorem State.AwaitsValue.isBetween {s : State} (hs : s.AwaitsValue) : s.phase.IsBetween := by
  rcases hs with h | h | h <;> rw [h] <;> exact trivial

theorem endsNumber_nil : EndsNumber [] :=
  fun _ _ h => absurd h (by simp)

theorem endsNumber_cons {c : Char} {r : List Char} (hdigit : c.isDigit = false) (hpoint : c ≠ '.')
    (he : c ≠ 'e') (hE : c ≠ 'E') : EndsNumber (c :: r) := by
  rintro _ _ ⟨⟩
  exact ⟨hdigit, hpoint, he, hE⟩

theorem endsNumber_of_blanks {cs r : List Char} (h : Blanks cs r) (hr : EndsNumber r) :
    EndsNumber cs := by
  cases h with
  | none => exact hr
  | @more c cs r hc h =>
    have hblank : c = ' ' ∨ c = '\n' ∨ c = '\t' ∨ c = '\r' := by
      simpa [isBlank, or_assoc] using hc
    rcases hblank with rfl | rfl | rfl | rfl <;>
      exact endsNumber_cons (by decide) (by decide) (by decide) (by decide)

/-! ### Containers -/

/-- A container that is nested too deeply is a hole. -/
theorem erase_guardDepth {node : Node} (h : node.passFault? = none) (limit depth start : Nat) :
    (guardDepth limit depth start node).erase =
      if depth < limit then node.erase else .unreadable 0 default := by
  unfold guardDepth
  split
  · rfl
  · rw [h]
    rfl

theorem erase_array {limit depth : Nat} (start stop : Nat) {nodes : List Node} {ts : List Tree}
    (h : nodes.map Node.erase = (Tree.withinItems (limit - 1 - (depth + 1)) ts).map Tree.node) :
    (guardDepth limit (depth + 1) start (.array ⟨start, stop⟩ nodes)).erase =
      ((Tree.array ts).within (limit - 1 - depth)).node := by
  have herase : (Node.array ⟨start, stop⟩ nodes).erase =
      (Tree.array (Tree.withinItems (limit - 1 - (depth + 1)) ts)).node := by
    rw [Node.erase, Node.eraseItems_eq_map, h, Tree.node, Tree.nodes_eq_map]
  rw [erase_guardDepth (Node.passFault?_of_erase herase), herase, Tree.within]
  by_cases hdepth : depth + 1 < limit
  · rw [if_pos hdepth, if_neg (by omega), show limit - 1 - depth - 1 = limit - 1 - (depth + 1) by omega]
  · rw [if_neg hdepth, if_pos (by omega), Tree.node]

theorem erase_object {limit depth : Nat} (start stop : Nat) {members : List Member}
    {ms : List (Option String × Tree)}
    (h : members.map Member.erase =
      Tree.memberNodes (Tree.withinMembers (limit - 1 - (depth + 1)) ms)) :
    (guardDepth limit (depth + 1) start (.object ⟨start, stop⟩ members)).erase =
      ((Tree.object ms).within (limit - 1 - depth)).node := by
  have herase : (Node.object ⟨start, stop⟩ members).erase =
      (Tree.object (Tree.withinMembers (limit - 1 - (depth + 1)) ms)).node := by
    rw [Node.erase, Node.eraseMembers_eq_map, h, Tree.node]
  rw [erase_guardDepth (Node.passFault?_of_erase herase), herase, Tree.within]
  by_cases hdepth : depth + 1 < limit
  · rw [if_pos hdepth, if_neg (by omega), show limit - 1 - depth - 1 = limit - 1 - (depth + 1) by omega]
  · rw [if_neg hdepth, if_pos (by omega), Tree.node]

theorem within_ofLiteral (l : Number.Literal) (room : Nat) :
    (Tree.ofLiteral l).within room = Tree.ofLiteral l := by
  unfold Tree.ofLiteral
  cases Number.ofLiteral l <;> rfl

theorem within_ofPieces (ps : List Piece) (room : Nat) :
    (Tree.ofPieces ps).within room = Tree.ofPieces ps := by
  unfold Tree.ofPieces
  cases stringOf? ps <;> rfl

/-- A key and its colon, where a key is due. -/
theorem documentFrom_key {ps : List Piece} {cs r : List Char} (h : Key ps cs r) {s : State}
    {start : Nat} {members : List Member} {stack : List Frame}
    (hs : s.phase = .firstKey ∨ s.phase = .nextKey) (hstack : s.stack = .object start members :: stack) :
    ∃ o key keyStop, key.toOption = stringOf? ps ∧
      documentFrom s cs =
        documentFrom ⟨s.limit, o, .member start members key keyStop :: stack, .value⟩ r := by
  obtain ⟨hbefore, h, hafter⟩ := h
  have hbetween : s.phase.IsBetween := by
    rcases hs with hs | hs <;> rw [hs] <;> exact trivial
  obtain ⟨o₁, hread₁⟩ := documentFrom_blanks hbetween hbefore
  obtain ⟨o₂, key, hkey, hread₂⟩ := documentFrom_quotedKey (s := { s with offset := o₁ }) hs h
  have hcolonBetween : (Phase.colon key).IsBetween := trivial
  obtain ⟨o₃, hread₃⟩ := documentFrom_blanks
    (s := { s with offset := o₁ }.at o₂ (.colon key)) hcolonBetween hafter
  have hcolon : step ⟨s.limit, o₃, .object start members :: stack, .colon key⟩ ':' =
      ⟨s.limit, o₃ + 1, .member start members key o₃ :: stack, .value⟩ := rfl
  refine ⟨o₃ + 1, key, o₃, hkey, ?_⟩
  rw [hread₁, hread₂, hread₃, documentFrom_cons, ← hcolon, ← hstack]
  rfl

theorem complete_phase (s : State) (o : Nat) (p : Phase) (node : Node) :
    complete ⟨s.limit, o, s.stack, p⟩ node = complete { s with offset := o } node :=
  complete_at s o p node

/-- The beginning of an array. -/
theorem step_openArray {s : State} (hs : s.AwaitsValue) :
    step s '[' = ⟨s.limit, s.offset + 1, .array s.offset [] :: s.stack, .firstItem⟩ := by
  rw [step_value hs (by decide) (by decide)]
  rfl

/-- The beginning of an object. -/
theorem step_openObject {s : State} (hs : s.AwaitsValue) :
    step s '\x7b' = ⟨s.limit, s.offset + 1, .object s.offset [] :: s.stack, .firstKey⟩ := by
  rw [step_value hs (by decide) (by decide)]
  rfl

/-- The end of an array. -/
theorem step_closeArray (limit o start : Nat) (items : List Node) (stack : List Frame) {p : Phase}
    (hp : p = .firstItem ∨ p = .afterItem) :
    step ⟨limit, o, .array start items :: stack, p⟩ ']' =
      complete ⟨limit, o + 1, stack, p⟩
        (guardDepth limit (stack.length + 1) start (.array ⟨start, o + 1⟩ items.reverse)) := by
  rcases hp with rfl | rfl <;> rcases stack with _ | ⟨_ | _ | _, stack⟩ <;> rfl

/-- The end of an object. -/
theorem step_closeObject (limit o start : Nat) (members : List Member) (stack : List Frame)
    {p : Phase} (hp : p = .firstKey ∨ p = .afterMember) :
    step ⟨limit, o, .object start members :: stack, p⟩ '\x7d' =
      complete ⟨limit, o + 1, stack, p⟩
        (guardDepth limit (stack.length + 1) start (.object ⟨start, o + 1⟩ members.reverse)) := by
  rcases hp with rfl | rfl <;> rcases stack with _ | ⟨_ | _ | _, stack⟩ <;> rfl

mutual

/-- **How the machine takes a value.** Where a value is due, it leads to the state after it. -/
theorem documentFrom_value : ∀ {t : Tree} {cs r : List Char}, Value t cs r → ∀ {s : State},
    s.AwaitsValue → EndsNumber r →
    ∃ o node, node.erase = (t.within (s.limit - 1 - s.stack.length)).node ∧
      documentFrom s cs = documentFrom (complete { s with offset := o } node) r
  | _, _, _, .null, s, hs, hr => by
    obtain ⟨o, stop, hread⟩ := documentFrom_word hs (c := 'n') (w := ['u', 'l', 'l']) (by simp) rfl
      (by decide) (by decide) (by decide) (by decide)
    exact ⟨o, _, rfl, hread⟩
  | _, _, _, .true, s, hs, hr => by
    obtain ⟨o, stop, hread⟩ := documentFrom_word hs (c := 't') (w := ['r', 'u', 'e']) (by simp) rfl
      (by decide) (by decide) (by decide) (by decide)
    exact ⟨o, _, rfl, hread⟩
  | _, _, _, .false, s, hs, hr => by
    obtain ⟨o, stop, hread⟩ := documentFrom_word hs (c := 'f') (w := ['a', 'l', 's', 'e']) (by simp)
      rfl (by decide) (by decide) (by decide) (by decide)
    exact ⟨o, _, rfl, hread⟩
  | _, _, _, .number h, s, hs, hr => by
    obtain ⟨o, node, hnode, hread⟩ := documentFrom_numeral hs h hr
    exact ⟨o, node, by rw [hnode, within_ofLiteral], hread⟩
  | _, _, _, .string h, s, hs, hr => by
    obtain ⟨o, node, hnode, hread⟩ := documentFrom_string hs h
    exact ⟨o, node, by rw [hnode, within_ofPieces], hread⟩
  | _, _, _, .emptyArray h, s, hs, hr => by
    have hfirst : Phase.firstItem.IsBetween := trivial
    obtain ⟨o, hread⟩ := documentFrom_blanks
      (s := ⟨s.limit, s.offset + 1, .array s.offset [] :: s.stack, .firstItem⟩) hfirst h
    have hempty : ([] : List Node).map Node.erase =
        (Tree.withinItems (s.limit - 1 - (s.stack.length + 1)) []).map Tree.node := rfl
    refine ⟨o + 1, _, erase_array s.offset (o + 1) hempty, ?_⟩
    rw [documentFrom_cons, step_openArray hs, hread, documentFrom_cons,
      step_closeArray _ _ _ _ _ (.inl rfl), complete_phase]
    rfl
  | _, _, _, .array h, s, hs, hr => by
    obtain ⟨o, nodes, hnodes, hread⟩ := documentFrom_items h
      (s := ⟨s.limit, s.offset + 1, .array s.offset [] :: s.stack, .firstItem⟩) (.inl rfl) rfl
    refine ⟨o + 1, _, erase_array s.offset (o + 1) hnodes, ?_⟩
    rw [documentFrom_cons, step_openArray hs, hread, documentFrom_cons,
      step_closeArray _ _ _ _ _ (.inr rfl), List.append_nil, List.reverse_reverse]
    exact congrArg (documentFrom · _) (complete_phase s (o + 1) .afterItem _)
  | _, _, _, .emptyObject h, s, hs, hr => by
    have hfirst : Phase.firstKey.IsBetween := trivial
    obtain ⟨o, hread⟩ := documentFrom_blanks
      (s := ⟨s.limit, s.offset + 1, .object s.offset [] :: s.stack, .firstKey⟩) hfirst h
    have hempty : ([] : List Member).map Member.erase =
        Tree.memberNodes (Tree.withinMembers (s.limit - 1 - (s.stack.length + 1)) []) := rfl
    refine ⟨o + 1, _, erase_object s.offset (o + 1) hempty, ?_⟩
    rw [documentFrom_cons, step_openObject hs, hread, documentFrom_cons,
      step_closeObject _ _ _ _ _ (.inl rfl), complete_phase]
    rfl
  | _, _, _, .object h, s, hs, hr => by
    obtain ⟨o, added, hadded, hread⟩ := documentFrom_members h
      (s := ⟨s.limit, s.offset + 1, .object s.offset [] :: s.stack, .firstKey⟩) (.inl rfl) rfl
    refine ⟨o + 1, _, erase_object s.offset (o + 1) hadded, ?_⟩
    rw [documentFrom_cons, step_openObject hs, hread, documentFrom_cons,
      step_closeObject _ _ _ _ _ (.inr rfl), List.append_nil, List.reverse_reverse]
    exact congrArg (documentFrom · _) (complete_phase s (o + 1) .afterMember _)

/-- A value with blanks around it. -/
theorem documentFrom_element : ∀ {t : Tree} {cs r : List Char}, Element t cs r → ∀ {s : State},
    s.AwaitsValue → EndsNumber r →
    ∃ o node, node.erase = (t.within (s.limit - 1 - s.stack.length)).node ∧
      documentFrom s cs = documentFrom (complete { s with offset := o } node) r
  | _, _, _, .element hbefore h hafter, s, hs, hr => by
    obtain ⟨o₁, hread₁⟩ := documentFrom_blanks hs.isBetween hbefore
    obtain ⟨o₂, node, hnode, hread₂⟩ := documentFrom_value h (s := { s with offset := o₁ }) hs
      (endsNumber_of_blanks hafter hr)
    obtain ⟨o₃, hread₃⟩ := documentFrom_blanks
      (isBetween_complete { s with offset := o₂ } node) hafter
    refine ⟨o₃, node, hnode, ?_⟩
    rw [hread₁, hread₂, hread₃]
    obtain ⟨limit, offset, stack, phase⟩ := s
    rcases stack with _ | ⟨_ | _ | _, stack⟩ <;> rfl

/-- The items of an array. -/
theorem documentFrom_items : ∀ {ts : List Tree} {cs r : List Char}, Items ts cs (']' :: r) →
    ∀ {s : State} {start : Nat} {items : List Node} {stack : List Frame},
    s.phase = .firstItem ∨ s.phase = .nextItem → s.stack = .array start items :: stack →
    ∃ (o : Nat) (nodes : List Node),
      nodes.map Node.erase =
        (Tree.withinItems (s.limit - 1 - (stack.length + 1)) ts).map Tree.node ∧
      documentFrom s cs =
        documentFrom ⟨s.limit, o, .array start (nodes.reverse ++ items) :: stack, .afterItem⟩
          (']' :: r)
  | _, _, _, .last h, s, start, items, stack, hs, hstack => by
    have hawaits : s.AwaitsValue := .inr hs
    obtain ⟨o, node, hnode, hread⟩ := documentFrom_element h hawaits
      (endsNumber_cons (by decide) (by decide) (by decide) (by decide))
    rw [hstack, List.length_cons] at hnode
    refine ⟨o, [node], ?_, ?_⟩
    · rw [List.map_singleton, hnode, Tree.withinItems, Tree.withinItems, List.map_singleton]
    · rw [hread, complete, hstack]
      rfl
  | _, _, _, .more h hmore, s, start, items, stack, hs, hstack => by
    have hawaits : s.AwaitsValue := .inr hs
    obtain ⟨o₁, node, hnode, hread₁⟩ := documentFrom_element h hawaits
      (endsNumber_cons (by decide) (by decide) (by decide) (by decide))
    rw [hstack, List.length_cons] at hnode
    have hcomma : step (complete { s with offset := o₁ } node) ',' =
        ⟨s.limit, o₁ + 1, .array start (node :: items) :: stack, .nextItem⟩ := by
      rw [complete, hstack]
      rfl
    obtain ⟨o₂, nodes, hnodes, hread₂⟩ := documentFrom_items hmore
      (s := ⟨s.limit, o₁ + 1, .array start (node :: items) :: stack, .nextItem⟩) (.inr rfl) rfl
    refine ⟨o₂, node :: nodes, ?_, ?_⟩
    · rw [List.map_cons, hnode, hnodes, Tree.withinItems, List.map_cons]
    · rw [hread₁, documentFrom_cons, hcomma, hread₂, List.reverse_cons, List.append_assoc]
      rfl

/-- The members of an object. -/
theorem documentFrom_members : ∀ {ms : List (Option String × Tree)} {cs r : List Char},
    Members ms cs ('\x7d' :: r) →
    ∀ {s : State} {start : Nat} {members : List Member} {stack : List Frame},
    s.phase = .firstKey ∨ s.phase = .nextKey → s.stack = .object start members :: stack →
    ∃ (o : Nat) (added : List Member),
      added.map Member.erase =
        Tree.memberNodes (Tree.withinMembers (s.limit - 1 - (stack.length + 1)) ms) ∧
      documentFrom s cs =
        documentFrom ⟨s.limit, o, .object start (added.reverse ++ members) :: stack, .afterMember⟩
          ('\x7d' :: r)
  | _, _, _, .last hkey h, s, start, members, stack, hs, hstack => by
    obtain ⟨o₁, key, keyStop, hkeyText, hread₁⟩ := documentFrom_key hkey hs hstack
    obtain ⟨o₂, node, hnode, hread₂⟩ := documentFrom_element h
      (s := ⟨s.limit, o₁, .member start members key keyStop :: stack, .value⟩) (.inl rfl)
      (endsNumber_cons (by decide) (by decide) (by decide) (by decide))
    refine ⟨o₂, [.mk key keyStop node], ?_, by rw [hread₁, hread₂]; rfl⟩
    rw [List.map_singleton, Member.erase, hkeyText, hnode]
    rfl
  | _, _, _, .more hkey h hmore, s, start, members, stack, hs, hstack => by
    obtain ⟨o₁, key, keyStop, hkeyText, hread₁⟩ := documentFrom_key hkey hs hstack
    obtain ⟨o₂, node, hnode, hread₂⟩ := documentFrom_element h
      (s := ⟨s.limit, o₁, .member start members key keyStop :: stack, .value⟩) (.inl rfl)
      (endsNumber_cons (by decide) (by decide) (by decide) (by decide))
    obtain ⟨o₃, added, hadded, hread₃⟩ := documentFrom_members hmore
      (s := ⟨s.limit, o₂ + 1, .object start (.mk key keyStop node :: members) :: stack, .nextKey⟩)
      (.inr rfl) rfl
    refine ⟨o₃, .mk key keyStop node :: added, ?_, ?_⟩
    · rw [List.map_cons, hadded, Member.erase, hkeyText, hnode]
      rfl
    · rw [hread₁, hread₂, List.reverse_cons, List.append_assoc]
      exact hread₃

end

end Reader

/-! ### Texts -/

namespace Tree

/-- The tree that a text is read as: containers that are nested too deeply are holes. -/
def readable (t : Tree) : Tree :=
  t.within (depthLimit - 1)

/-- **The document of a text of the grammar** shows its tree and has no fault. -/
theorem IsText.read {t : Tree} {s : String} (h : t.IsText s) :
    (Json.read s).root.erase = t.readable.node ∧ (Json.read s).trailing = none := by
  obtain ⟨o, node, hnode, hread⟩ := Reader.documentFrom_element h (s := { limit := depthLimit })
    (.inl rfl) Reader.endsNumber_nil
  have hdocument : Json.read s = ⟨node, none⟩ := hread
  rw [hdocument]
  exact ⟨hnode, rfl⟩

end Tree

end Circulation.Json
