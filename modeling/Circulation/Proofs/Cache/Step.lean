import Circulation.Cache.Basic

/-!
# What a step does to a cache

The steps of a cache, case by case, with the conditions under which each case applies. All that is
proved about caches rests on this list.

## Main definitions

* `Circulation.Cache.Happens` — the cases of a step.
* `Circulation.Cache.Effect.answer?` — the update that returns in a step, and what it returns.
* `Circulation.Cache.Step.stored?` — what a step stores.
* `Circulation.Cache.IsPending` — the updates that wait or build.

## Main results

* `Circulation.Cache.step_eq_some_iff` — a step is one of its cases.
* `Circulation.Cache.slot_of_happens` — the slot holds what was stored last.
* `Circulation.Cache.isPending_of_happens` — only a request brings in an update.
-/

namespace Circulation.Cache

variable {s : Settings} {now : Nat} {c c' : Cache} {a : Step} {effect : Option Effect}
  {ticket : Ticket}

/-- The update that returns in a step, and what it returns. -/
def Effect.answer? : Effect → Option (Ticket × Except Error Snapshot)
  | .build _ => none
  | .reuse ticket snapshot => some (ticket, .ok snapshot)
  | .reply ticket result => some (ticket, result)

/-- What a step at an instant stores: the snapshot of a build that succeeds. -/
def Step.stored? (now : Nat) : Step → Option Stored
  | .finish _ (.ok snapshot) => some ⟨snapshot, now⟩
  | _ => none

/-- An update waits or builds. -/
def IsPending (c : Cache) (ticket : Ticket) : Prop :=
  ticket ∈ c.building ∨ ∃ w ∈ c.waiting, w.ticket = ticket

/-! ### The parts of a cache -/

theorem isPending_eq_true_iff : c.isPending ticket = true ↔ c.IsPending ticket := by
  simp only [isPending, IsPending, Bool.or_eq_true, List.contains_iff_mem, List.any_eq_true,
    beq_iff_eq]

theorem isPending_eq_false_iff : c.isPending ticket = false ↔ ¬c.IsPending ticket := by
  rw [← isPending_eq_true_iff, Bool.not_eq_true]

theorem storedAfter?_eq_some_iff {instant : Nat} {snapshot : Snapshot} :
    c.storedAfter? instant = some snapshot ↔
      ∃ stored, c.slot = some stored ∧ instant < stored.storedAt ∧ stored.snapshot = snapshot := by
  simp only [storedAfter?, Option.bind_eq_some_iff, Option.ite_none_right_eq_some,
    Option.some.injEq]

theorem storedAfter?_eq_none_iff {instant : Nat} :
    c.storedAfter? instant = none ↔ ∀ stored, c.slot = some stored → stored.storedAt ≤ instant := by
  simp only [storedAfter?, Option.bind_eq_none_iff, ite_eq_right_iff, reduceCtorEq, imp_false,
    Nat.not_lt]

theorem mem_waiting_leave {w : Waiting} :
    w ∈ (c.leave ticket).waiting ↔ w ∈ c.waiting ∧ w.ticket ≠ ticket := by
  simp only [leave, List.mem_filter, decide_eq_true_eq]

theorem mem_building_leave {t : Ticket} :
    t ∈ (c.leave ticket).building ↔ t ∈ c.building ∧ t ≠ ticket := by
  simp only [leave, List.mem_filter, decide_eq_true_eq]

theorem not_isPending_leave (c : Cache) (ticket : Ticket) : ¬(c.leave ticket).IsPending ticket := by
  rintro (h | ⟨w, hw, hticket⟩)
  · exact (mem_building_leave.mp h).2 rfl
  · exact (mem_waiting_leave.mp hw).2 hticket

/-! ### The cases of a step -/

/-- The cases of a step at an instant: the cache before it, the step, the cache after it, and what
the cache does. -/
inductive Happens (s : Settings) (now : Nat) (c : Cache) :
    Step → Cache → Option Effect → Prop
  /-- An update of another denomination is refused. -/
  | refuse {ticket : Ticket} {denom : String} (hfree : ¬c.IsPending ticket)
      (hdenom : denom ≠ s.denom) :
      Happens s now c (.request ticket denom) c (some (.reply ticket (.error (.denom s.denom denom))))
  /-- An update that takes turns waits for the gate. -/
  | wait {ticket : Ticket} (hfree : ¬c.IsPending ticket) (hflight : s.singleFlight = true) :
      Happens s now c (.request ticket s.denom)
        { c with waiting := c.waiting ++ [⟨ticket, now⟩] } none
  /-- An update that does not take turns builds at once. -/
  | start {ticket : Ticket} (hfree : ¬c.IsPending ticket) (hflight : s.singleFlight = false) :
      Happens s now c (.request ticket s.denom) { c with building := c.building ++ [ticket] }
        (some (.build ticket))
  /-- The first update that waits takes a snapshot that was stored after its request. -/
  | reuse {first : Waiting} {others : List Waiting} {snapshot : Snapshot} (hgate : c.gate = none)
      (hwaiting : c.waiting = first :: others)
      (hstored : c.storedAfter? first.requestedAt = some snapshot) :
      Happens s now c .grant { c with waiting := others } (some (.reuse first.ticket snapshot))
  /-- The first update that waits holds the gate and builds. -/
  | enter {first : Waiting} {others : List Waiting} (hgate : c.gate = none)
      (hwaiting : c.waiting = first :: others)
      (hstored : c.storedAfter? first.requestedAt = none) :
      Happens s now c .grant
        { c with
          gate := some first.ticket
          waiting := others
          building := c.building ++ [first.ticket] }
        (some (.build first.ticket))
  /-- A build succeeds, and its snapshot is stored. -/
  | store {ticket : Ticket} {snapshot : Snapshot} (hbuilding : ticket ∈ c.building) :
      Happens s now c (.finish ticket (.ok snapshot))
        { c.leave ticket with slot := some ⟨snapshot, now⟩ } (some (.reply ticket (.ok snapshot)))
  /-- A build fails. -/
  | fail {ticket : Ticket} {why : ComputeError} (hbuilding : ticket ∈ c.building) :
      Happens s now c (.finish ticket (.error why)) (c.leave ticket)
        (some (.reply ticket (.error (.compute why))))
  /-- An update is given up. -/
  | cancel {ticket : Ticket} : Happens s now c (.cancel ticket) (c.leave ticket) none

theorem happens_of_step (h : c.step s now a = some (c', effect)) : Happens s now c a c' effect := by
  cases a with
  | request ticket denom =>
    rw [step, Option.ite_none_left_eq_some, Bool.not_eq_true, isPending_eq_false_iff] at h
    obtain ⟨hfree, h⟩ := h
    rw [Option.some.injEq, request] at h
    split at h
    · next hdenom =>
      obtain ⟨rfl, rfl⟩ := Prod.mk.inj h
      exact .refuse hfree hdenom
    · next hdenom =>
      obtain rfl : denom = s.denom := Classical.not_not.mp hdenom
      split at h
      · next hflight =>
        obtain ⟨rfl, rfl⟩ := Prod.mk.inj h
        exact .wait hfree hflight
      · next hflight =>
        obtain ⟨rfl, rfl⟩ := Prod.mk.inj h
        exact .start hfree (Bool.not_eq_true _ ▸ hflight)
  | grant =>
    rw [step] at h
    split at h
    · next first others hgate hwaiting =>
      rw [Option.some.injEq, grantFirst] at h
      split at h
      · next snapshot hstored =>
        obtain ⟨rfl, rfl⟩ := Prod.mk.inj h
        exact .reuse hgate hwaiting hstored
      · next hstored =>
        obtain ⟨rfl, rfl⟩ := Prod.mk.inj h
        exact .enter hgate hwaiting hstored
    · exact absurd h (by simp)
  | finish ticket result =>
    rw [step, Option.ite_none_right_eq_some, Option.some.injEq] at h
    obtain ⟨hbuilding, h⟩ := h
    cases result with
    | ok snapshot =>
      obtain ⟨rfl, rfl⟩ := Prod.mk.inj h
      exact .store hbuilding
    | error why =>
      obtain ⟨rfl, rfl⟩ := Prod.mk.inj h
      exact .fail hbuilding
  | cancel ticket =>
    rw [step, Option.some.injEq] at h
    obtain ⟨rfl, rfl⟩ := Prod.mk.inj h
    exact .cancel

theorem step_of_happens (h : Happens s now c a c' effect) :
    c.step s now a = some (c', effect) := by
  cases h with
  | refuse hfree hdenom => simp [step, isPending_eq_false_iff.mpr hfree, request, hdenom]
  | wait hfree hflight => simp [step, isPending_eq_false_iff.mpr hfree, request, hflight]
  | start hfree hflight => simp [step, isPending_eq_false_iff.mpr hfree, request, hflight]
  | reuse hgate hwaiting hstored => simp [step, hgate, hwaiting, grantFirst, hstored]
  | enter hgate hwaiting hstored => simp [step, hgate, hwaiting, grantFirst, hstored]
  | store hbuilding => simp [step, hbuilding, finish]
  | fail hbuilding => simp [step, hbuilding, finish]
  | cancel => rfl

/-- A step is one of its cases. -/
theorem step_eq_some_iff : c.step s now a = some (c', effect) ↔ Happens s now c a c' effect :=
  ⟨happens_of_step, step_of_happens⟩

/-- Many steps and then one more. -/
theorem run_concat {c c' : Cache} {steps : List (Nat × Step)} {effects : List Effect}
    (h : c.run s steps = some (c', effects)) (now : Nat) (a : Step) :
    c.run s (steps ++ [(now, a)]) =
      (c'.step s now a).map fun next => (next.1, effects ++ next.2.toList) := by
  induction steps generalizing c effects with
  | nil =>
    obtain ⟨rfl, rfl⟩ := Prod.mk.inj (Option.some.inj h)
    cases hstep : c.step s now a with
    | none => simp [run, hstep]
    | some next => simp [run, hstep]
  | cons first steps ih =>
    simp only [run, Option.bind_eq_bind, Option.bind_eq_some_iff] at h
    obtain ⟨⟨c₁, effect⟩, hfirst, ⟨c₂, rest⟩, hrest, heq⟩ := h
    obtain ⟨rfl, rfl⟩ := Prod.mk.inj (Option.some.inj heq)
    have htail := ih hrest
    simp only [List.cons_append, run, hfirst, htail, Option.bind_eq_bind, Option.bind_some]
    cases c₂.step s now a with
    | none => rfl
    | some next => simp

/-- The slot holds what the step stores, and what it held before if nothing is stored. -/
theorem slot_of_happens (h : Happens s now c a c' effect) :
    c'.slot = (a.stored? now).or c.slot := by
  cases h <;> rfl

theorem Step.stored?_eq_some_iff {stored : Stored} :
    a.stored? now = some stored ↔
      ∃ ticket, a = .finish ticket (.ok stored.snapshot) ∧ stored.storedAt = now := by
  constructor
  · intro h
    cases a with
    | request | grant | cancel => exact absurd h (by simp [stored?])
    | finish ticket result =>
      cases result with
      | error => exact absurd h (by simp [stored?])
      | ok snapshot =>
        obtain rfl := Option.some.inj h
        exact ⟨ticket, rfl, rfl⟩
  · rintro ⟨ticket, rfl, rfl⟩
    rfl

/-! ### Which updates are pending -/

/-- Only a request of the denomination brings in an update. -/
theorem isPending_of_happens (h : Happens s now c a c' effect) (hpending : c'.IsPending ticket) :
    c.IsPending ticket ∨ a = .request ticket s.denom := by
  cases h with
  | refuse => exact .inl hpending
  | wait =>
    rcases hpending with hbuilding | ⟨w, hw, hticket⟩
    · exact .inl (.inl hbuilding)
    · rcases List.mem_append.mp hw with hw | hw
      · exact .inl (.inr ⟨w, hw, hticket⟩)
      · obtain rfl := List.mem_singleton.mp hw
        exact .inr (by rw [← hticket])
  | start =>
    rcases hpending with hbuilding | hwaiting
    · rcases List.mem_append.mp hbuilding with hbuilding | hbuilding
      · exact .inl (.inl hbuilding)
      · obtain rfl := List.mem_singleton.mp hbuilding
        exact .inr rfl
    · exact .inl (.inr hwaiting)
  | reuse _ hwaiting =>
    rcases hpending with hbuilding | ⟨w, hw, hticket⟩
    · exact .inl (.inl hbuilding)
    · exact .inl (.inr ⟨w, hwaiting ▸ List.mem_cons_of_mem _ hw, hticket⟩)
  | enter _ hwaiting =>
    rcases hpending with hbuilding | ⟨w, hw, hticket⟩
    · rcases List.mem_append.mp hbuilding with hbuilding | hbuilding
      · exact .inl (.inl hbuilding)
      · obtain rfl := List.mem_singleton.mp hbuilding
        exact .inl (.inr ⟨_, hwaiting ▸ List.mem_cons_self, rfl⟩)
    · exact .inl (.inr ⟨w, hwaiting ▸ List.mem_cons_of_mem _ hw, hticket⟩)
  | store | fail | cancel =>
    rcases hpending with hbuilding | ⟨w, hw, hticket⟩
    · exact .inl (.inl (mem_building_leave.mp hbuilding).1)
    · exact .inl (.inr ⟨w, (mem_waiting_leave.mp hw).1, hticket⟩)

/-- Only a request puts an update into the queue, at the instant of the step. -/
theorem mem_waiting_of_happens (h : Happens s now c a c' effect) {w : Waiting}
    (hw : w ∈ c'.waiting) :
    w ∈ c.waiting ∨ a = .request w.ticket s.denom ∧ w.requestedAt = now := by
  cases h with
  | refuse | start => exact .inl hw
  | wait =>
    rcases List.mem_append.mp hw with hw | hw
    · exact .inl hw
    · obtain rfl := List.mem_singleton.mp hw
      exact .inr ⟨rfl, rfl⟩
  | reuse _ hwaiting | enter _ hwaiting => exact .inl (hwaiting ▸ List.mem_cons_of_mem _ hw)
  | store | fail | cancel => exact .inl (mem_waiting_leave.mp hw).1

/-- An update builds from the step in which it begins to. -/
theorem mem_building_of_happens (h : Happens s now c a c' effect)
    (hbuilding : ticket ∈ c'.building) :
    ticket ∈ c.building ∨ effect = some (.build ticket) := by
  cases h with
  | refuse | wait | reuse => exact .inl hbuilding
  | start | enter =>
    rcases List.mem_append.mp hbuilding with hbuilding | hbuilding
    · exact .inl hbuilding
    · rw [List.mem_singleton.mp hbuilding]
      exact .inr rfl
  | store | fail | cancel => exact .inl (mem_building_leave.mp hbuilding).1

theorem mem_building_of_build (h : Happens s now c a c' (some (.build ticket))) :
    ticket ∈ c'.building := by
  cases h <;> exact List.mem_append_right _ List.mem_cons_self

/-- An update begins to build when it is requested or when it has waited. -/
theorem start_or_waits_of_build (h : Happens s now c a c' (some (.build ticket))) :
    a = .request ticket s.denom ∨ ∃ w ∈ c.waiting, w.ticket = ticket := by
  cases h with
  | start => exact .inl rfl
  | enter _ hwaiting => exact .inr ⟨_, hwaiting ▸ List.mem_cons_self, rfl⟩

/-- An update builds until its build ends or it is given up. -/
theorem mem_building_or_of_happens (h : Happens s now c a c' effect)
    (hbuilding : ticket ∈ c.building) :
    ticket ∈ c'.building ∨ (∃ result, a = .finish ticket result) ∨ a = .cancel ticket := by
  cases h with
  | refuse | wait | reuse => exact .inl hbuilding
  | start | enter => exact .inl (List.mem_append_left _ hbuilding)
  | @store other | @fail other =>
    rcases Decidable.em (ticket = other) with rfl | hne
    · exact .inr (.inl ⟨_, rfl⟩)
    · exact .inl (mem_building_leave.mpr ⟨hbuilding, hne⟩)
  | @cancel other =>
    rcases Decidable.em (ticket = other) with rfl | hne
    · exact .inr (.inr rfl)
    · exact .inl (mem_building_leave.mpr ⟨hbuilding, hne⟩)

/-- A build that ends was in progress, and its update is pending no more. -/
theorem not_isPending_of_finish {result : Except ComputeError Snapshot}
    (h : Happens s now c (.finish ticket result) c' effect) :
    ticket ∈ c.building ∧ ¬c'.IsPending ticket := by
  cases h with
  | store hbuilding => exact ⟨hbuilding, not_isPending_leave c ticket⟩
  | fail hbuilding => exact ⟨hbuilding, not_isPending_leave c ticket⟩

/-! ### Which updates return -/

/-- An update returns in one of three ways: it is refused, it takes the stored snapshot, or its build
ends. -/
theorem answer_of_happens (h : Happens s now c a c' effect) {result : Except Error Snapshot}
    (hanswer : effect.bind Effect.answer? = some (ticket, result)) :
    (∃ denom, a = .request ticket denom ∧ denom ≠ s.denom ∧
      result = .error (.denom s.denom denom)) ∨
    (∃ w stored, a = .grant ∧ c.waiting.head? = some w ∧ w.ticket = ticket ∧
      c.slot = some stored ∧ w.requestedAt < stored.storedAt ∧ result = .ok stored.snapshot) ∨
    ∃ built, a = .finish ticket built ∧ ticket ∈ c.building ∧
      result = built.mapError .compute := by
  cases h with
  | wait | start | enter | cancel => exact absurd hanswer (by simp [Effect.answer?])
  | refuse _ hdenom =>
    obtain ⟨rfl, rfl⟩ := Prod.mk.inj (Option.some.inj hanswer)
    exact .inl ⟨_, rfl, hdenom, rfl⟩
  | reuse _ hwaiting hstored =>
    obtain ⟨rfl, rfl⟩ := Prod.mk.inj (Option.some.inj hanswer)
    obtain ⟨stored, hslot, hlater, rfl⟩ := storedAfter?_eq_some_iff.mp hstored
    exact .inr (.inl ⟨_, stored, rfl, by rw [hwaiting, List.head?_cons], rfl, hslot, hlater, rfl⟩)
  | store hbuilding | fail hbuilding =>
    obtain ⟨rfl, rfl⟩ := Prod.mk.inj (Option.some.inj hanswer)
    exact .inr (.inr ⟨_, rfl, hbuilding, rfl⟩)

/-- An update whose build ends returns what was built. -/
theorem effect_of_finish {result : Except ComputeError Snapshot}
    (h : Happens s now c (.finish ticket result) c' effect) :
    effect = some (.reply ticket (result.mapError .compute)) := by
  cases h <;> rfl

/-- A request of another denomination is refused at once. -/
theorem refuse_of_happens {denom : String}
    (h : Happens s now c (.request ticket denom) c' effect) (hdenom : denom ≠ s.denom) :
    effect = some (.reply ticket (.error (.denom s.denom denom))) ∧ c' = c := by
  cases h with
  | refuse => exact ⟨rfl, rfl⟩
  | wait => exact absurd rfl hdenom
  | start => exact absurd rfl hdenom

/-- An update that gets the gate either takes the stored snapshot or builds. -/
theorem effect_of_grant (h : Happens s now c .grant c' effect) {w : Waiting}
    (hw : c.waiting.head? = some w) :
    effect = match c.storedAfter? w.requestedAt with
      | some snapshot => some (.reuse w.ticket snapshot)
      | none => some (.build w.ticket) := by
  cases h with
  | reuse _ hwaiting hstored | enter _ hwaiting hstored =>
    rw [hwaiting, List.head?_cons, Option.some.injEq] at hw
    rw [← hw, hstored]

end Circulation.Cache
