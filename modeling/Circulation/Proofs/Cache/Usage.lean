import Mathlib.Logic.Function.Basic
import Circulation.Proofs.Cache.Step
import Circulation.Proofs.Program.Run

/-!
# A cache in use

Beside its own state, a cache in use has updates: which have been requested, and what the build of
each has asked so far. In a moment the cache takes a step, or a build has some of its questions
answered, or nothing happens. Nothing is assumed about answers but that a build goes on from them, and
a build ends with a result that its own questions and answers lead to.

## Main definitions

* `Circulation.Cache.Action` — what happens in a moment.
* `Circulation.Cache.Usage` — the state of a cache in use.
* `Circulation.Cache.Usage.Allows`, `Circulation.Cache.Usage.after` — what may happen in a moment, and
  the state after it.

## Main results

* `Circulation.Cache.Usage.Allows.cache_cases` — in a moment the cache takes a step or stays as it is.
* `Circulation.Cache.Usage.Allows.mem_calls_after` — only an update that builds asks questions.
-/

namespace Circulation.Cache

variable {Q : Type} {A : Q → Type}

/-- What happens in a moment to a cache in use. -/
inductive Action (Q : Type) (A : Q → Type) where
  /-- The cache takes a step. -/
  | step (a : Step)
  /-- The build of an update asks some questions and gets their answers. -/
  | call (ticket : Ticket) (answers : List (Sigma A))
  /-- Nothing happens to the cache. -/
  | look

/-- A cache in use. -/
structure Usage (Q : Type) (A : Q → Type) where
  cache : Cache := {}
  /-- The updates that have been requested. -/
  requested : List Ticket := []
  /-- The questions that each update has asked, with the answers that it got. -/
  calls : Ticket → List (Sigma A) := fun _ => []

/-- The update that a step requests. -/
def Step.requested? : Step → Option Ticket
  | .request ticket _ => some ticket
  | _ => none

namespace Usage

/-- The state after a moment. A step that cannot be taken changes nothing. -/
def after (s : Settings) (now : Nat) (u : Usage Q A) : Action Q A → Usage Q A
  | .step a =>
    match u.cache.step s now a with
    | some (cache, _) => { u with cache, requested := a.requested?.toList ++ u.requested }
    | none => u
  | .call ticket answers =>
    { u with calls := Function.update u.calls ticket (u.calls ticket ++ answers) }
  | .look => u

/-- What the cache does in a moment. -/
def effectOf (s : Settings) (now : Nat) (u : Usage Q A) : Action Q A → Option Effect
  | .step a => (u.cache.step s now a).bind (·.2)
  | .call _ _ | .look => none

/-- The states before the moments of a cache that is in use from its start on. -/
def play (s : Settings) (instant : Nat → Nat) (action : Nat → Action Q A) : Nat → Usage Q A
  | 0 => {}
  | n + 1 => (play s instant action n).after s (instant n) (action n)

/-- What may happen in a moment, where every update runs the program `build`. A request has a new
ticket. A build asks questions that lie on one of its runs, and ends with a result of the run on
which all its questions lie. -/
def Allows (s : Settings) (build : Program Q A Event (Except ComputeError Snapshot)) (now : Nat)
    (u : Usage Q A) : Action Q A → Prop
  | .step a =>
    (∀ ticket, a.requested? = some ticket → ticket ∉ u.requested) ∧
      (∀ ticket result, a = .finish ticket result → build.Run (u.calls ticket) result) ∧
      (u.cache.step s now a).isSome
  | .call ticket answers =>
    ticket ∈ u.cache.building ∧
      ∃ rest result, build.Run (u.calls ticket ++ answers ++ rest) result
  | .look => True

variable {s : Settings} {build : Program Q A Event (Except ComputeError Snapshot)} {now : Nat}
  {u : Usage Q A} {action : Action Q A} {ticket : Ticket}

theorem after_of_step {a : Step} {cache : Cache} {effect : Option Effect}
    (hstep : u.cache.step s now a = some (cache, effect)) :
    u.after s now (.step a) =
      { u with cache, requested := a.requested?.toList ++ u.requested } := by
  simp only [after, hstep]

theorem effectOf_of_step {a : Step} {cache : Cache} {effect : Option Effect}
    (hstep : u.cache.step s now a = some (cache, effect)) :
    u.effectOf s now (.step a) = effect := by
  simp only [effectOf, hstep, Option.bind_some]

theorem calls_after_step (s : Settings) (now : Nat) (u : Usage Q A) (a : Step) :
    (u.after s now (.step a)).calls = u.calls := by
  rw [after]
  split <;> rfl

theorem calls_after_call (s : Settings) (now : Nat) (u : Usage Q A) (ticket : Ticket)
    (answers : List (Sigma A)) :
    (u.after s now (.call ticket answers)).calls =
      Function.update u.calls ticket (u.calls ticket ++ answers) := rfl

namespace Allows

theorem happens (h : u.Allows s build now action) {a : Step} (haction : action = .step a) :
    Happens s now u.cache a (u.after s now action).cache (u.effectOf s now action) := by
  subst haction
  obtain ⟨⟨cache, effect⟩, hstep⟩ := Option.isSome_iff_exists.mp h.2.2
  rw [after_of_step hstep, effectOf_of_step hstep]
  exact happens_of_step hstep

/-- In a moment the cache takes a step or stays as it is. -/
theorem cache_cases (h : u.Allows s build now action) :
    (∃ a, action = .step a ∧
      Happens s now u.cache a (u.after s now action).cache (u.effectOf s now action)) ∨
    u.effectOf s now action = none ∧ (u.after s now action).cache = u.cache := by
  cases action with
  | step a => exact .inl ⟨a, rfl, h.happens rfl⟩
  | call => exact .inr ⟨rfl, rfl⟩
  | look => exact .inr ⟨rfl, rfl⟩

/-- What an update has asked after a moment, it had asked before or asks in the moment, and then it
builds. -/
theorem mem_calls_after (h : u.Allows s build now action) {x : Sigma A}
    (hx : x ∈ (u.after s now action).calls ticket) :
    x ∈ u.calls ticket ∨
      ticket ∈ u.cache.building ∧ ∃ answers, action = .call ticket answers ∧ x ∈ answers := by
  cases action with
  | step a =>
    rw [calls_after_step] at hx
    exact .inl hx
  | call other answers =>
    rcases eq_or_ne ticket other with rfl | hne
    · rw [calls_after_call, Function.update_self] at hx
      exact (List.mem_append.mp hx).imp id fun hx => ⟨h.1, answers, rfl, hx⟩
    · rw [calls_after_call, Function.update_of_ne hne] at hx
      exact .inl hx
  | look => exact .inl hx

theorem mem_requested_after_iff {a : Step} (h : u.Allows s build now (.step a)) :
    ticket ∈ (u.after s now (.step a)).requested ↔
      a.requested? = some ticket ∨ ticket ∈ u.requested := by
  obtain ⟨⟨cache, effect⟩, hstep⟩ := Option.isSome_iff_exists.mp h.2.2
  simp only [after_of_step hstep, List.mem_append, Option.mem_toList]

theorem requested_of_request (h : u.Allows s build now action) {denom : String}
    (haction : action = .step (.request ticket denom)) :
    ticket ∉ u.requested ∧ ticket ∈ (u.after s now action).requested := by
  subst haction
  exact ⟨h.1 ticket rfl, h.mem_requested_after_iff.mpr (.inl rfl)⟩

theorem run_of_finish (h : u.Allows s build now action) {result : Except ComputeError Snapshot}
    (haction : action = .step (.finish ticket result)) : build.Run (u.calls ticket) result := by
  subst haction
  exact h.2.1 ticket result rfl

/-- A build may ask all its questions in one moment. -/
theorem call_all {answers : List (Sigma A)} {result : Except ComputeError Snapshot}
    (hbuilding : ticket ∈ u.cache.building) (hcalls : u.calls ticket = [])
    (hrun : build.Run answers result) : u.Allows s build now (.call ticket answers) := by
  refine ⟨hbuilding, [], result, ?_⟩
  rw [hcalls, List.nil_append, List.append_nil]
  exact hrun

end Allows

theorem mem_requested_after (hmem : ticket ∈ u.requested) (s : Settings) (now : Nat)
    (action : Action Q A) : ticket ∈ (u.after s now action).requested := by
  cases action with
  | step a =>
    rw [after]
    split
    · exact List.mem_append_right _ hmem
    · exact hmem
  | call | look => exact hmem

end Usage

end Circulation.Cache
