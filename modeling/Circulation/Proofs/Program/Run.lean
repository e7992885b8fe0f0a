import Mathlib.Data.List.Forall2
import Circulation.Program

/-!
# Runs of a program

A run of a program takes some answer at every question. Nothing is assumed about the answers: two
questions of one wording may be answered differently, as by a source that changes between two calls,
so what holds of every run holds over every source and in whatever order the parts of the program
proceed. A run over a fixed table of answers is the special case `Program.run_eval`.

## Main definitions

* `Circulation.Program.Run` — a run, with the answers that it takes and its result.
* `Circulation.Program.Ensures` — what a program asks and yields in every run.

## Main results

* `Circulation.Program.run_bind_iff` — the runs of two programs in sequence;
  `Circulation.Program.exists_runs_of_run_forEach` has those of the programs of a list.
* `Circulation.Program.Ensures.of_run` — what a program ensures holds of its runs.
* `Circulation.Program.run_eval`, `Circulation.Program.Run.eq_eval` — evaluation is a run, and the only
  one over a table of answers.
* `Circulation.Program.eval_congr`, `Circulation.Program.questions_congr` — a program depends on
  nothing but the answers to its own questions.
-/

namespace Circulation.Program

variable {Q : Type} {A : Q → Type} {E : Type} {α β : Type}

/-- A run of a program: the questions that it asks, each with the answer that it takes, and its
result. -/
inductive Run : Program Q A E α → List (Sigma A) → α → Prop
  | done (a : α) : Run (done a) [] a
  | ask {q : Q} {next : A q → Program Q A E α} {log : List (Sigma A)} {a : α} (answer : A q)
      (h : Run (next answer) log a) : Run (ask q next) (⟨q, answer⟩ :: log) a
  | note {e : E} {next : Program Q A E α} {log : List (Sigma A)} {a : α} (h : Run next log a) :
      Run (note e next) log a

/-! ### Runs of composed programs -/

theorem run_done_iff {a b : α} {log : List (Sigma A)} :
    (done a : Program Q A E α).Run log b ↔ log = [] ∧ b = a := by
  constructor
  · rintro ⟨⟩
    exact ⟨rfl, rfl⟩
  · rintro ⟨rfl, rfl⟩
    exact .done _

theorem run_ask_iff {q : Q} {next : A q → Program Q A E α} {log : List (Sigma A)} {a : α} :
    (ask q next).Run log a ↔
      ∃ (answer : A q) (rest : List (Sigma A)),
        (next answer).Run rest a ∧ log = ⟨q, answer⟩ :: rest := by
  constructor
  · intro h
    cases h with
    | ask answer h => exact ⟨answer, _, h, rfl⟩
  · rintro ⟨answer, rest, h, rfl⟩
    exact .ask answer h

theorem run_note_iff {e : E} {next : Program Q A E α} {log : List (Sigma A)} {a : α} :
    (note e next).Run log a ↔ next.Run log a := by
  constructor
  · intro h
    cases h with
    | note h => exact h
  · exact .note

/-- A run of two programs in sequence is a run of the first and then one of the second. -/
theorem run_bind_iff {p : Program Q A E α} {f : α → Program Q A E β} {log : List (Sigma A)}
    {b : β} :
    (p.bind f).Run log b ↔
      ∃ (log₁ : List (Sigma A)) (a : α) (log₂ : List (Sigma A)),
        p.Run log₁ a ∧ (f a).Run log₂ b ∧ log = log₁ ++ log₂ := by
  induction p generalizing log with
  | done a =>
    constructor
    · intro h
      exact ⟨[], a, log, .done a, h, rfl⟩
    · rintro ⟨log₁, a', log₂, h₁, h₂, rfl⟩
      obtain ⟨rfl, rfl⟩ := run_done_iff.mp h₁
      exact h₂
  | ask q next ih =>
    rw [ask_bind, run_ask_iff]
    constructor
    · rintro ⟨answer, rest, h, rfl⟩
      obtain ⟨log₁, a, log₂, h₁, h₂, rfl⟩ := (ih answer).mp h
      exact ⟨_, a, log₂, .ask answer h₁, h₂, rfl⟩
    · rintro ⟨log₁, a, log₂, h₁, h₂, rfl⟩
      obtain ⟨answer, rest, h, rfl⟩ := run_ask_iff.mp h₁
      exact ⟨answer, _, (ih answer).mpr ⟨rest, a, log₂, h, h₂, rfl⟩, rfl⟩
  | note e next ih =>
    rw [note_bind, run_note_iff, ih]
    constructor
    · rintro ⟨log₁, a, log₂, h₁, h₂, rfl⟩
      exact ⟨log₁, a, log₂, .note h₁, h₂, rfl⟩
    · rintro ⟨log₁, a, log₂, h₁, h₂, rfl⟩
      exact ⟨log₁, a, log₂, run_note_iff.mp h₁, h₂, rfl⟩

/-- A run of a program whose result is read differently. -/
theorem run_bind_done_iff {p : Program Q A E α} {f : α → β} {log : List (Sigma A)} {b : β} :
    (p.bind fun a => done (f a)).Run log b ↔ ∃ a, p.Run log a ∧ b = f a := by
  rw [run_bind_iff]
  constructor
  · rintro ⟨log₁, a, log₂, h₁, h₂, rfl⟩
    obtain ⟨rfl, rfl⟩ := run_done_iff.mp h₂
    exact ⟨a, (List.append_nil log₁).symm ▸ h₁, rfl⟩
  · rintro ⟨a, h, rfl⟩
    exact ⟨log, a, [], h, .done _, (List.append_nil log).symm⟩

/-- What is read off the answers of the programs of a list, one after another, is what is read off
their results, if it is so for each of them. -/
theorem flatMap_of_run_forEach {γ : Type} {f : α → Program Q A E β} {ofAnswer : Sigma A → List γ}
    {ofResult : β → List γ} {as : List α} {log : List (Sigma A)} {bs : List β}
    (hf : ∀ a ∈ as, ∀ log b, (f a).Run log b → log.flatMap ofAnswer = ofResult b)
    (h : (forEach f as).Run log bs) : log.flatMap ofAnswer = bs.flatMap ofResult := by
  induction as generalizing log bs with
  | nil =>
    obtain ⟨rfl, rfl⟩ := run_done_iff.mp h
    rfl
  | cons a as ih =>
    obtain ⟨log₁, b, log₂, h₁, h₂, rfl⟩ := run_bind_iff.mp h
    obtain ⟨log₃, bs, log₄, h₃, h₄, rfl⟩ := run_bind_iff.mp h₂
    obtain ⟨rfl, rfl⟩ := run_done_iff.mp h₄
    have hhead := hf a List.mem_cons_self _ _ h₁
    have htail := ih (fun a' ha' => hf a' (List.mem_cons_of_mem _ ha')) h₃
    rw [List.append_nil, List.flatMap_append, List.flatMap_cons, hhead, htail]

/-- A run of the programs of a list is a run of each, with the answers of one after those of another. -/
theorem exists_runs_of_run_forEach {f : α → Program Q A E β} {as : List α} {log : List (Sigma A)}
    {bs : List β} (h : (forEach f as).Run log bs) :
    ∃ runs : List (List (Sigma A) × β), runs.flatMap (·.1) = log ∧ runs.map (·.2) = bs ∧
      List.Forall₂ (fun a run => (f a).Run run.1 run.2) as runs := by
  induction as generalizing log bs with
  | nil =>
    obtain ⟨rfl, rfl⟩ := run_done_iff.mp h
    exact ⟨[], rfl, rfl, .nil⟩
  | cons a as ih =>
    obtain ⟨log₁, b, log₂, h₁, h₂, rfl⟩ := run_bind_iff.mp h
    obtain ⟨log₃, bs, log₄, h₃, h₄, rfl⟩ := run_bind_iff.mp h₂
    obtain ⟨rfl, rfl⟩ := run_done_iff.mp h₄
    obtain ⟨runs, rfl, rfl, hruns⟩ := ih h₃
    exact ⟨(log₁, b) :: runs, by rw [List.append_nil, List.flatMap_cons], rfl, .cons h₁ hruns⟩

/-- A run of the programs of a list, one after another, is made of a run of each. -/
theorem forall₂_of_run_forEach {f : α → Program Q A E β} {as : List α} {log : List (Sigma A)}
    {bs : List β} (h : (forEach f as).Run log bs) :
    List.Forall₂ (fun a b => ∃ part, part <:+: log ∧ (f a).Run part b) as bs := by
  obtain ⟨runs, rfl, rfl, hruns⟩ := exists_runs_of_run_forEach h
  clear h
  induction hruns with
  | nil => exact .nil
  | @cons a run as runs hrun _ ih =>
    refine .cons ⟨run.1, (List.prefix_append _ _).isInfix, hrun⟩ (ih.imp ?_)
    rintro a b ⟨part, hpart, hrun⟩
    exact ⟨part, hpart.trans (List.suffix_append _ _).isInfix, hrun⟩

/-! ### What a program ensures -/

/-- Whatever the answers, the program asks only questions for which `asks` holds, and `result` holds
of its result. -/
def Ensures (asks : Q → Prop) (result : α → Prop) : Program Q A E α → Prop
  | done a => result a
  | ask q next => asks q ∧ ∀ answer, (next answer).Ensures asks result
  | note _ next => next.Ensures asks result

namespace Ensures

variable {asks : Q → Prop}

theorem of_run {result : α → Prop} {p : Program Q A E α} {log : List (Sigma A)} {a : α}
    (hp : p.Ensures asks result) (h : p.Run log a) : result a ∧ ∀ x ∈ log, asks x.1 := by
  induction h with
  | done a => exact ⟨hp, fun x hx => absurd hx List.not_mem_nil⟩
  | ask answer h ih =>
    obtain ⟨hresult, hlog⟩ := ih (hp.2 answer)
    refine ⟨hresult, fun x hx => ?_⟩
    rcases List.mem_cons.mp hx with rfl | hx
    · exact hp.1
    · exact hlog x hx
  | note h ih => exact ih hp

theorem weaken {asks' : Q → Prop} {result : α → Prop} {p : Program Q A E α}
    (hp : p.Ensures asks result) (hasks : ∀ q, asks q → asks' q) : p.Ensures asks' result := by
  induction p with
  | done a => exact hp
  | ask q next ih => exact ⟨hasks q hp.1, fun answer => ih answer (hp.2 answer)⟩
  | note e next ih => exact ih hp

/-- A program in sequence ensures what its second part does wherever the first may end. -/
theorem bind {middle : α → Prop} {result : β → Prop} {p : Program Q A E α}
    {f : α → Program Q A E β} (hp : p.Ensures asks middle)
    (hf : ∀ a, middle a → (f a).Ensures asks result) : (p.bind f).Ensures asks result := by
  induction p with
  | done a => exact hf a hp
  | ask q next ih => exact ⟨hp.1, fun answer => ih answer (hp.2 answer)⟩
  | note e next ih => exact ih hp

/-- The results of the programs of a list stand in its order, one for each. -/
theorem forEach {f : α → Program Q A E β} {result : α → β → Prop} {as : List α}
    (hf : ∀ a ∈ as, (f a).Ensures asks (result a)) :
    (forEach f as).Ensures asks (List.Forall₂ result as) := by
  induction as with
  | nil => exact .nil
  | cons a as ih =>
    refine (hf a List.mem_cons_self).bind fun b hb => ?_
    refine (ih fun a' ha' => hf a' (List.mem_cons_of_mem _ ha')).bind fun bs hbs => ?_
    exact .cons hb hbs

end Ensures

/-! ### Runs over a table of answers -/

/-- The evaluation of a program over a table of answers is one of its runs. -/
theorem run_eval (answer : (q : Q) → A q) (p : Program Q A E α) :
    p.Run ((p.questions answer).map fun q => ⟨q, answer q⟩) (p.eval answer) := by
  induction p with
  | done a => exact .done a
  | ask q next ih => exact .ask (answer q) (ih (answer q))
  | note e next ih => exact .note ih

/-- A run whose answers are those of a table is the evaluation over it. -/
theorem Run.eq_eval {answer : (q : Q) → A q} {p : Program Q A E α} {log : List (Sigma A)} {a : α}
    (h : p.Run log a) (hlog : ∀ x ∈ log, answer x.1 = x.2) : a = p.eval answer := by
  induction h with
  | done a => rfl
  | ask given h ih =>
    obtain ⟨hgiven, hrest⟩ := List.forall_mem_cons.mp hlog
    rw [eval_ask, show answer _ = given from hgiven]
    exact ih hrest
  | note h ih => exact ih hlog

theorem Ensures.eval {asks : Q → Prop} {result : α → Prop} {p : Program Q A E α}
    (hp : p.Ensures asks result) (answer : (q : Q) → A q) : result (p.eval answer) :=
  (hp.of_run (run_eval answer p)).1

theorem Ensures.questions {asks : Q → Prop} {result : α → Prop} {p : Program Q A E α}
    (hp : p.Ensures asks result) (answer : (q : Q) → A q) : ∀ q ∈ p.questions answer, asks q :=
  fun q hq => (hp.of_run (run_eval answer p)).2 ⟨q, answer q⟩ (List.mem_map.mpr ⟨q, hq, rfl⟩)

/-- Two tables that agree on the questions of a program give it the same result. -/
theorem eval_congr {answer answer' : (q : Q) → A q} {p : Program Q A E α}
    (h : ∀ q ∈ p.questions answer, answer' q = answer q) : p.eval answer' = p.eval answer := by
  induction p with
  | done a => rfl
  | ask q next ih =>
    have hq : answer' q = answer q := h q List.mem_cons_self
    rw [eval_ask, eval_ask, hq]
    exact ih _ fun q' hq' => h q' (List.mem_cons_of_mem _ hq')
  | note e next ih => exact ih h

/-- Two tables that agree on all that a program may ask give it the same result. -/
theorem Ensures.eval_congr {asks : Q → Prop} {result : α → Prop} {p : Program Q A E α}
    (hp : p.Ensures asks result) {answer answer' : (q : Q) → A q}
    (h : ∀ q, asks q → answer' q = answer q) : p.eval answer' = p.eval answer :=
  Program.eval_congr fun q hq => h q (hp.questions answer q hq)

/-- Two tables that agree on the questions of a program make it ask the same questions. -/
theorem questions_congr {answer answer' : (q : Q) → A q} {p : Program Q A E α}
    (h : ∀ q ∈ p.questions answer, answer' q = answer q) :
    p.questions answer' = p.questions answer := by
  induction p with
  | done a => rfl
  | ask q next ih =>
    have hq : answer' q = answer q := h q List.mem_cons_self
    rw [questions_ask, questions_ask, hq]
    exact congrArg (q :: ·) (ih _ fun q' hq' => h q' (List.mem_cons_of_mem _ hq'))
  | note e next ih => exact ih h

end Circulation.Program
