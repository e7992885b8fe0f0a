/-!
# Programs that ask questions

A program either is done, or asks a question and goes on from the answer, or notes an event and goes
on. What a program does is thus independent of who answers it: the same program runs over a fixed
table of answers, over a client that turns every question into requests, or in time.

## Main definitions

* `Circulation.Program` — the programs over a family of questions and answers.
* `Circulation.Program.bind` — one program after another.
* `Circulation.Program.eval`, `Circulation.Program.questions`, `Circulation.Program.events` — the
  result of a program over a table of answers, and what it asks and notes on the way.
* `Circulation.Program.handle` — a program whose questions are answered by other programs.
* `Circulation.Program.interpret` — a program in a monad that answers its questions.
-/

namespace Circulation

/-- A program that asks questions `q : Q`, whose answers have the type `A q`, and notes events. -/
inductive Program (Q : Type) (A : Q → Type) (E : Type) (α : Type) : Type where
  | done (a : α)
  | ask (q : Q) (next : A q → Program Q A E α)
  | note (e : E) (next : Program Q A E α)

namespace Program

variable {Q : Type} {A : Q → Type} {E : Type} {α β : Type}

/-- The first program, and then the one that `f` makes of its result. -/
def bind : Program Q A E α → (α → Program Q A E β) → Program Q A E β
  | done a, f => f a
  | ask q next, f => ask q fun answer => (next answer).bind f
  | note e next, f => note e (next.bind f)

instance : Monad (Program Q A E) where
  pure := done
  bind := bind

/-- The program that asks one question. -/
def question (q : Q) : Program Q A E (A q) :=
  ask q done

/-- The program that notes one event. -/
def mention (e : E) : Program Q A E Unit :=
  note e (done ())

/-- The program that notes an event if a condition holds. -/
def mentionIf (condition : Bool) (e : E) : Program Q A E Unit :=
  if condition then mention e else done ()

/-- The programs of a list, one after another, and the list of their results. -/
def forEach (f : α → Program Q A E β) : List α → Program Q A E (List β)
  | [] => done []
  | a :: as => (f a).bind fun b => (forEach f as).bind fun bs => done (b :: bs)

/-- The result of a program over a table of answers. -/
def eval (answer : (q : Q) → A q) : Program Q A E α → α
  | done a => a
  | ask q next => (next (answer q)).eval answer
  | note _ next => next.eval answer

/-- The questions of a program over a table of answers, in order. -/
def questions (answer : (q : Q) → A q) : Program Q A E α → List Q
  | done _ => []
  | ask q next => q :: (next (answer q)).questions answer
  | note _ next => next.questions answer

/-- The events that a program notes over a table of answers, in order. -/
def events (answer : (q : Q) → A q) : Program Q A E α → List E
  | done _ => []
  | ask q next => (next (answer q)).events answer
  | note e next => e :: next.events answer

/-- The program whose questions are answered by the programs of `answer`. -/
def handle {P : Type} {B : P → Type} (answer : (q : Q) → Program P B E (A q)) :
    Program Q A E α → Program P B E α
  | done a => done a
  | ask q next => (answer q).bind fun a => (next a).handle answer
  | note e next => note e (next.handle answer)

/-- Runs a program in a monad in which its questions are answered and its events recorded. -/
def interpret {m : Type → Type} [Monad m] (answer : (q : Q) → m (A q)) (record : E → m Unit) :
    Program Q A E α → m α
  | done a => pure a
  | ask q next => do (next (← answer q)).interpret answer record
  | note e next => do
    record e
    next.interpret answer record

@[simp]
theorem pure_eq_done (a : α) : (pure a : Program Q A E α) = done a := rfl

@[simp]
theorem bind_eq_bind (p : Program Q A E α) (f : α → Program Q A E β) : (p >>= f) = p.bind f := rfl

@[simp]
theorem done_bind (a : α) (f : α → Program Q A E β) :
    (done a : Program Q A E α).bind f = f a := rfl

@[simp]
theorem ask_bind (q : Q) (next : A q → Program Q A E α) (f : α → Program Q A E β) :
    (ask q next).bind f = ask q fun answer => (next answer).bind f := rfl

@[simp]
theorem note_bind (e : E) (next : Program Q A E α) (f : α → Program Q A E β) :
    (note e next).bind f = note e (next.bind f) := rfl

@[simp]
theorem eval_done (answer : (q : Q) → A q) (a : α) :
    (done a : Program Q A E α).eval answer = a := rfl

@[simp]
theorem eval_ask (answer : (q : Q) → A q) (q : Q) (next : A q → Program Q A E α) :
    (ask q next).eval answer = (next (answer q)).eval answer := rfl

@[simp]
theorem eval_note (answer : (q : Q) → A q) (e : E) (next : Program Q A E α) :
    (note e next).eval answer = next.eval answer := rfl

@[simp]
theorem eval_bind (answer : (q : Q) → A q) (p : Program Q A E α) (f : α → Program Q A E β) :
    (p.bind f).eval answer = (f (p.eval answer)).eval answer := by
  induction p with
  | done a => rfl
  | ask q next ih => exact ih (answer q)
  | note e next ih => exact ih

@[simp]
theorem questions_done (answer : (q : Q) → A q) (a : α) :
    (done a : Program Q A E α).questions answer = [] := rfl

@[simp]
theorem questions_ask (answer : (q : Q) → A q) (q : Q) (next : A q → Program Q A E α) :
    (ask q next).questions answer = q :: (next (answer q)).questions answer := rfl

@[simp]
theorem questions_note (answer : (q : Q) → A q) (e : E) (next : Program Q A E α) :
    (note e next).questions answer = next.questions answer := rfl

@[simp]
theorem questions_bind (answer : (q : Q) → A q) (p : Program Q A E α) (f : α → Program Q A E β) :
    (p.bind f).questions answer =
      p.questions answer ++ (f (p.eval answer)).questions answer := by
  induction p with
  | done a => rfl
  | ask q next ih => exact congrArg (q :: ·) (ih (answer q))
  | note e next ih => exact ih

/-- The programs of a list are evaluated one by one. -/
@[simp]
theorem eval_forEach (answer : (q : Q) → A q) (f : α → Program Q A E β) (as : List α) :
    (forEach f as).eval answer = as.map fun a => (f a).eval answer := by
  induction as with
  | nil => rfl
  | cons a as ih => simp [forEach, ih]

/-- The questions of the programs of a list are asked one program after another. -/
@[simp]
theorem questions_forEach (answer : (q : Q) → A q) (f : α → Program Q A E β) (as : List α) :
    (forEach f as).questions answer = as.flatMap fun a => (f a).questions answer := by
  induction as with
  | nil => rfl
  | cons a as ih => simp [forEach, ih]

end Program

end Circulation
