import Circulation.Proofs.Program.Run

/-!
# What a program ensures of the answers that it may get

`Program.Ensures` speaks of arbitrary answers. Here a program is only held to the answers that a
condition allows, so its later questions and its result may be described by the earlier answers: by
those that a run has taken, by those of a table, or by those that can be read from a text.

## Main definitions

* `Circulation.Program.EnsuresGiven` — what a program asks and yields as long as its answers are of
  a kind.

## Main results

* `Circulation.Program.EnsuresGiven.of_run` — what a program ensures holds of its runs.
* `Circulation.Program.EnsuresGiven.eval_congr` — two tables that agree on what a program may ask
  over one of them give it the same result.
-/

namespace Circulation.Program

variable {Q : Type} {A : Q → Type} {E : Type} {α β : Type}

/-- As long as the answers are such that `given` holds of them, the program asks only questions for
which `asks` holds, and `result` holds of its result. -/
def EnsuresGiven (given : (q : Q) → A q → Prop) (asks : Q → Prop) (result : α → Prop) :
    Program Q A E α → Prop
  | done a => result a
  | ask q next => asks q ∧
      ∀ answer, given q answer → (next answer).EnsuresGiven given asks result
  | note _ next => next.EnsuresGiven given asks result

/-- What a program ensures whatever the answers, it ensures of any kind of answers. -/
theorem Ensures.given {asks : Q → Prop} {result : α → Prop} {p : Program Q A E α}
    (hp : p.Ensures asks result) (given : (q : Q) → A q → Prop) :
    p.EnsuresGiven given asks result := by
  induction p with
  | done a => exact hp
  | ask q next ih => exact ⟨hp.1, fun answer _ => ih answer (hp.2 answer)⟩
  | note e next ih => exact ih hp

namespace EnsuresGiven

variable {given : (q : Q) → A q → Prop} {asks : Q → Prop}

theorem weaken {asks' : Q → Prop} {result result' : α → Prop} {p : Program Q A E α}
    (hp : p.EnsuresGiven given asks result) (hasks : ∀ q, asks q → asks' q)
    (hresult : ∀ a, result a → result' a) : p.EnsuresGiven given asks' result' := by
  induction p with
  | done a => exact hresult a hp
  | ask q next ih =>
    exact ⟨hasks q hp.1, fun answer hanswer => ih answer (hp.2 answer hanswer)⟩
  | note e next ih => exact ih hp

/-- A program in sequence ensures what its second part does wherever the first may end. -/
theorem bind {middle : α → Prop} {result : β → Prop} {p : Program Q A E α}
    {f : α → Program Q A E β} (hp : p.EnsuresGiven given asks middle)
    (hf : ∀ a, middle a → (f a).EnsuresGiven given asks result) :
    (p.bind f).EnsuresGiven given asks result := by
  induction p with
  | done a => exact hf a hp
  | ask q next ih => exact ⟨hp.1, fun answer hanswer => ih answer (hp.2 answer hanswer)⟩
  | note e next ih => exact ih hp

/-- What the programs of a list ensure one by one holds of all their results. -/
theorem forEach {f : α → Program Q A E β} {result : β → Prop} {as : List α}
    (hf : ∀ a ∈ as, (f a).EnsuresGiven given asks result) :
    (forEach f as).EnsuresGiven given asks fun bs => ∀ b ∈ bs, result b := by
  induction as with
  | nil => exact fun b hb => absurd hb List.not_mem_nil
  | cons a as ih =>
    refine (hf a List.mem_cons_self).bind fun b hb => ?_
    refine (ih fun a' ha' => hf a' (List.mem_cons_of_mem _ ha')).bind fun bs hbs => ?_
    exact List.forall_mem_cons.mpr ⟨hb, hbs⟩

/-- A run whose answers are of the kind asks and yields what the program ensures. -/
theorem of_run {result : α → Prop} {p : Program Q A E α} {log : List (Sigma A)} {a : α}
    (hp : p.EnsuresGiven given asks result) (h : p.Run log a)
    (hlog : ∀ x ∈ log, given x.1 x.2) : result a ∧ ∀ x ∈ log, asks x.1 := by
  induction h with
  | done a => exact ⟨hp, fun x hx => absurd hx List.not_mem_nil⟩
  | ask answer h ih =>
    obtain ⟨hanswer, hrest⟩ := List.forall_mem_cons.mp hlog
    obtain ⟨hresult, hasks⟩ := ih (hp.2 answer hanswer) hrest
    exact ⟨hresult, List.forall_mem_cons.mpr ⟨hp.1, hasks⟩⟩
  | note h ih => exact ih hp hlog

/-- A table gives a program the answers of the table. -/
theorem questions {answer : (q : Q) → A q} {result : α → Prop} {p : Program Q A E α}
    (hp : p.EnsuresGiven (fun q a => answer q = a) asks result) :
    ∀ q ∈ p.questions answer, asks q := by
  have hlog : ∀ x ∈ (p.questions answer).map fun q => (⟨q, answer q⟩ : Sigma A),
      answer x.1 = x.2 := by
    rintro x hx
    obtain ⟨q, -, rfl⟩ := List.mem_map.mp hx
    rfl
  intro q hq
  exact (hp.of_run (run_eval answer p) hlog).2 ⟨q, answer q⟩ (List.mem_map.mpr ⟨q, hq, rfl⟩)

/-- Two tables that agree on all that a program may ask over one of them give it the same result. -/
theorem eval_congr {answer answer' : (q : Q) → A q} {result : α → Prop} {p : Program Q A E α}
    (hp : p.EnsuresGiven (fun q a => answer q = a) asks result)
    (h : ∀ q, asks q → answer' q = answer q) : p.eval answer' = p.eval answer :=
  Program.eval_congr fun q hq => h q (hp.questions q hq)

end EnsuresGiven

end Circulation.Program
