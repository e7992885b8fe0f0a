import Mathlib.Data.List.Basic
import Circulation.Cache.Timeline
import Circulation.Proofs.Cache.History

/-!
# The jobs of a timeline

A job on the agenda of a timeline is of an update that is yet to be requested, or of one that builds
and waits for an answer. The rest of such a build follows on what it has asked: run it, and with what
was asked before there is a run of the whole build.

## Main definitions

* `Circulation.Program.LeadsTo` — where a program gets with some of its questions answered.
* `Circulation.Job.Fits` — the jobs that fit a cache in use.
* `Circulation.Cache.Step.Spares` — the jobs that are not affected by a step.

## Main results

* `Circulation.Program.exists_leadsTo_advance` — a program is run as far as it gets by answering some
  of its questions.
* `Circulation.Job.Fits.after_step`, `Circulation.Job.Fits.after_call` — a job fits as long as its
  update is left alone.
* `Circulation.Timeline.pairwise_enter` — an agenda stays sorted.
-/

namespace Circulation

variable {Q : Type} {A : Q → Type} {S : Type} {s : Cache.Settings}

/-! ### Builds that pause -/

namespace Program

variable {E α : Type}

/-- A program, after some questions and answers, ends or goes on as told. -/
def LeadsTo (p : Program Q A E α) (log : List (Sigma A)) : α ⊕ (Nat × Program Q A E α) → Prop
  | .inl a => p.Run log a
  | .inr (_, rest) => ∀ rest' a, rest.Run rest' a → p.Run (log ++ rest') a

/-- A program that is run as far as it gets has some of its questions answered. -/
theorem exists_leadsTo_advance (answer : S → (q : Q) → Timed S (A q)) (world : S)
    (p : Program Q A Event α) : ∃ log, p.LeadsTo log (p.advance answer world).2.2 := by
  induction p generalizing world with
  | done a => exact ⟨[], .done a⟩
  | note e next ih =>
    obtain ⟨log, hlog⟩ := ih world
    refine ⟨log, ?_⟩
    rw [advance]
    revert hlog
    rcases (next.advance answer world).2.2 with a | ⟨milliseconds, rest⟩
    · exact .note
    · exact fun hlog rest' a hrest => .note (hlog rest' a hrest)
  | ask q next ih =>
    rw [advance]
    split
    · obtain ⟨log, hlog⟩ := ih (answer world q).value (answer world q).world
      refine ⟨⟨q, (answer world q).value⟩ :: log, ?_⟩
      revert hlog
      rcases ((next (answer world q).value).advance answer (answer world q).world).2.2 with
        a | ⟨milliseconds, rest⟩
      · exact .ask _
      · exact fun hlog rest' a hrest => .ask _ (hlog rest' a hrest)
    · exact ⟨[⟨q, (answer world q).value⟩], fun rest' a hrest => .ask _ hrest⟩

end Program

/-! ### Agendas -/

/-- The update that a job is of. -/
def Job.ticket? : Job Q A → Option Ticket
  | .call ticket _ => some ticket
  | .refresh => none
  | .resume ticket _ => some ticket

/-- A job is one for a cache in use: an update is yet to be requested with a ticket that was given
out, or it builds and the rest of its build follows on what it has asked. -/
def Job.Fits (w : World Q A S) (u : Cache.Usage Q A) (tickets : Nat) : Job Q A → Prop
  | .call ticket _ => ticket < tickets ∧ ticket ∉ u.requested
  | .refresh => True
  | .resume ticket rest =>
    ticket ∈ u.cache.building ∧
      ∀ log result, rest.Run log result → w.build.Run (u.calls ticket ++ log) result

/-- A step of a cache does not take a job's update away. -/
def Cache.Step.Spares (a : Cache.Step) : Job Q A → Prop
  | .call ticket _ => a.requested? ≠ some ticket
  | .refresh => True
  | .resume ticket _ => (∀ result, a ≠ .finish ticket result) ∧ a ≠ .cancel ticket

/-- The update that a step is of. The gate is given to whoever is first. -/
def Cache.Step.ticket? : Cache.Step → Option Ticket
  | .request ticket _ | .finish ticket _ | .cancel ticket => some ticket
  | .grant => none

/-- A step spares the jobs of other updates. -/
theorem Cache.Step.spares_of_ne {a : Cache.Step} {job : Job Q A}
    (hne : ∀ ticket, a.ticket? = some ticket → job.ticket? ≠ some ticket) : a.Spares job := by
  cases job with
  | refresh => exact trivial
  | call ticket denom =>
    intro hrequested
    cases a with
    | request other denom =>
      obtain rfl := Option.some.inj hrequested
      exact hne other rfl rfl
    | grant | finish | cancel => exact absurd hrequested (by simp [requested?])
  | resume ticket rest =>
    refine ⟨?_, ?_⟩
    · rintro result rfl
      exact hne ticket rfl rfl
    · rintro rfl
      exact hne ticket rfl rfl

namespace Job.Fits

variable {w : World Q A S} {u : Cache.Usage Q A} {tickets now : Nat} {job : Job Q A}

theorem mono (hjob : job.Fits w u tickets) {tickets' : Nat} (hle : tickets ≤ tickets') :
    job.Fits w u tickets' := by
  cases job with
  | refresh => exact trivial
  | call ticket denom => exact ⟨hjob.1.trans_le hle, hjob.2⟩
  | resume ticket rest => exact hjob

theorem after_step (hjob : job.Fits w u tickets) {a : Cache.Step}
    (hallows : u.Allows s w.build now (.step a)) (hspares : a.Spares job) :
    job.Fits w (u.after s now (.step a)) tickets := by
  cases job with
  | refresh => exact trivial
  | call ticket denom =>
    refine ⟨hjob.1, fun hmem => ?_⟩
    rcases hallows.mem_requested_after_iff.mp hmem with hnew | hmem
    · exact hspares hnew
    · exact hjob.2 hmem
  | resume ticket rest =>
    obtain ⟨hbuilding, hrest⟩ := hjob
    refine ⟨?_, ?_⟩
    · rcases Cache.mem_building_or_of_happens (hallows.happens rfl) hbuilding with
        hbuilding | ⟨result, rfl⟩ | rfl
      · exact hbuilding
      · exact absurd rfl (hspares.1 result)
      · exact absurd rfl hspares.2
    · rw [Cache.Usage.calls_after_step]
      exact hrest

theorem after_call (hjob : job.Fits w u tickets) {ticket : Ticket} {answers : List (Sigma A)}
    (hother : job.ticket? ≠ some ticket) :
    job.Fits w (u.after s now (.call ticket answers)) tickets := by
  cases job with
  | refresh => exact trivial
  | call other denom => exact hjob
  | resume other rest =>
    have hne : other ≠ ticket := fun heq => hother (congrArg some heq)
    refine ⟨hjob.1, ?_⟩
    rw [Cache.Usage.calls_after_call, Function.update_of_ne hne]
    exact hjob.2

end Job.Fits

namespace Timeline

theorem perm_enter (instant : Nat) (job : Job Q A) (agenda : List (Nat × Job Q A)) :
    (enter instant job agenda).Perm ((instant, job) :: agenda) := by
  induction agenda with
  | nil => exact .refl _
  | cons x agenda ih =>
    rw [enter]
    split
    · exact (ih.cons x).trans (.swap _ _ _)
    · exact .refl _

theorem pairwise_enter (instant : Nat) (job : Job Q A) {agenda : List (Nat × Job Q A)}
    (hsorted : agenda.Pairwise fun x y => x.1 ≤ y.1) :
    (enter instant job agenda).Pairwise fun x y => x.1 ≤ y.1 := by
  induction agenda with
  | nil => exact List.pairwise_singleton _ _
  | cons x agenda ih =>
    obtain ⟨hfirst, hsorted⟩ := List.pairwise_cons.mp hsorted
    rw [enter]
    split
    · next hle =>
      refine List.pairwise_cons.mpr ⟨fun y hy => ?_, ih hsorted⟩
      rcases List.mem_cons.mp ((perm_enter instant job agenda).mem_iff.mp hy) with rfl | hy
      · exact hle
      · exact hfirst y hy
    · next hlt =>
      have hle : instant ≤ x.1 := (Nat.not_le.mp hlt).le
      refine List.pairwise_cons.mpr ⟨fun y hy => ?_, List.pairwise_cons.mpr ⟨hfirst, hsorted⟩⟩
      rcases List.mem_cons.mp hy with rfl | hy
      · exact hle
      · exact hle.trans (hfirst y hy)

end Timeline

end Circulation
