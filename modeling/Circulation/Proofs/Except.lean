import Mathlib.Data.List.Forall2

/-!
# Results that may fail

When a chain of steps that may fail succeeds: each of its steps does. What becomes of an error does
not matter then. What is known of the results of the steps is put together along the chain.

## Main definitions

* `Circulation.Yields` — what holds of a result if there is one.
-/

namespace Circulation

variable {ε α β : Type}

/-- A chain of two steps succeeds if and only if both do. -/
theorem bind_eq_ok {x : Except ε α} {f : α → Except ε β} {b : β} :
    (x >>= f) = .ok b ↔ ∃ a, x = .ok a ∧ f a = .ok b := by
  cases x with
  | error e => simp [bind, Except.bind]
  | ok a => simp [bind, Except.bind]

theorem pure_eq_ok {a b : α} : (pure a : Except ε α) = .ok b ↔ a = b := by
  simp [pure, Except.pure]

theorem ok_bind (a : α) (f : α → Except ε β) : (Except.ok a >>= f) = f a := rfl

/-- What follows a failure does not matter. -/
theorem throw_bind_ne_ok {why : ε} {f : α → Except ε β} {b : β} :
    (throw why >>= f : Except ε β) ≠ .ok b :=
  nofun

theorem mapError_eq_ok {ε' : Type} {x : Except ε α} {f : ε → ε'} {a : α} :
    x.mapError f = .ok a ↔ x = .ok a := by
  cases x with
  | error e => exact iff_of_false nofun nofun
  | ok b => exact ⟨fun h => congrArg _ (Except.ok.inj h), fun h => congrArg _ (Except.ok.inj h)⟩

theorem map_eq_ok {x : Except ε α} {f : α → β} {b : β} :
    x.map f = .ok b ↔ ∃ a, x = .ok a ∧ f a = b := by
  cases x with
  | error e => simp [Except.map]
  | ok a => simp [Except.map]

theorem eq_ok_of_toOption {x : Except ε α} {a : α} (h : x.toOption = some a) : x = .ok a := by
  cases x with
  | error why => exact absurd h (by simp [Except.toOption])
  | ok b => rw [← Option.some.inj h]

/-- A list of steps succeeds if and only if each of them does. -/
theorem exists_mapM_eq_ok_iff {f : α → Except ε β} {as : List α} :
    (∃ bs, as.mapM f = .ok bs) ↔ ∀ a ∈ as, ∃ b, f a = .ok b := by
  induction as with
  | nil => simp [pure_eq_ok]
  | cons a as ih =>
    rw [List.mapM_cons, List.forall_mem_cons, ← ih]
    simp only [bind_eq_ok, pure_eq_ok]
    constructor
    · rintro ⟨-, b, hb, bs, hbs, -⟩
      exact ⟨⟨b, hb⟩, bs, hbs⟩
    · rintro ⟨⟨b, hb⟩, bs, hbs⟩
      exact ⟨_, b, hb, bs, hbs, rfl⟩

/-- The results of a list of steps are the results of the steps. -/
theorem mapM_eq_ok_iff {f : α → Except ε β} {as : List α} {bs : List β} :
    as.mapM f = .ok bs ↔ List.Forall₂ (fun a b => f a = .ok b) as bs := by
  induction as generalizing bs with
  | nil => cases bs <;> simp [pure_eq_ok]
  | cons a as ih =>
    rw [List.mapM_cons]
    simp only [bind_eq_ok, pure_eq_ok, ih]
    constructor
    · rintro ⟨b, hb, bs, hbs, rfl⟩
      exact .cons hb hbs
    · rintro (_ | ⟨hb, hbs⟩)
      exact ⟨_, hb, _, hbs, rfl⟩

/-- A list of steps fails as the first of them that fails. -/
theorem mapM_eq_error_iff {f : α → Except ε β} {as : List α} {why : ε} :
    as.mapM f = .error why ↔ ∃ before a after, as = before ++ a :: after ∧
      (∀ b ∈ before, ∃ c, f b = .ok c) ∧ f a = .error why := by
  induction as with
  | nil => simp [pure, Except.pure]
  | cons a as ih =>
    rw [List.mapM_cons]
    cases ha : f a with
    | error why' =>
      constructor
      · intro h
        obtain rfl := Except.error.inj h
        exact ⟨[], a, as, rfl, nofun, ha⟩
      · rintro ⟨before, b, after, hsplit, hbefore, hb⟩
        cases before with
        | nil =>
          obtain ⟨rfl, rfl⟩ := List.cons.inj hsplit
          exact congrArg _ (Except.error.inj (ha.symm.trans hb))
        | cons c before =>
          obtain ⟨rfl, rfl⟩ := List.cons.inj hsplit
          obtain ⟨d, hd⟩ := hbefore a List.mem_cons_self
          exact nomatch ha.symm.trans hd
    | ok c =>
      have hrest : (Except.ok c >>= fun c => as.mapM f >>= fun cs => pure (c :: cs)) =
          (.error why : Except ε (List β)) ↔ as.mapM f = .error why := by
        rw [ok_bind]
        cases as.mapM f <;> simp [bind, Except.bind, pure, Except.pure]
      rw [hrest, ih]
      constructor
      · rintro ⟨before, b, after, rfl, hbefore, hb⟩
        exact ⟨a :: before, b, after, rfl, List.forall_mem_cons.mpr ⟨⟨c, ha⟩, hbefore⟩, hb⟩
      · rintro ⟨before, b, after, hsplit, hbefore, hb⟩
        cases before with
        | nil =>
          obtain ⟨rfl, rfl⟩ := List.cons.inj hsplit
          exact nomatch ha.symm.trans hb
        | cons d before =>
          obtain ⟨rfl, rfl⟩ := List.cons.inj hsplit
          exact ⟨before, b, after, rfl, (List.forall_mem_cons.mp hbefore).2, hb⟩

/-- The same for steps without a reason to fail. -/
theorem mapM_eq_some_iff {f : α → Option β} {as : List α} {bs : List β} :
    as.mapM f = some bs ↔ List.Forall₂ (fun a b => f a = some b) as bs := by
  induction as generalizing bs with
  | nil => cases bs <;> simp
  | cons a as ih =>
    rw [List.mapM_cons]
    simp only [Option.bind_eq_bind, Option.bind_eq_some_iff, Option.pure_def, Option.some.injEq, ih]
    constructor
    · rintro ⟨b, hb, bs, hbs, rfl⟩
      exact .cons hb hbs
    · rintro (_ | ⟨hb, hbs⟩)
      exact ⟨_, hb, _, hbs, rfl⟩

/-- What is written item by item is read item by item. -/
theorem mapM_map_eq_some {write : α → β} {read : β → Option α}
    (h : ∀ a, read (write a) = some a) (as : List α) : (as.map write).mapM read = some as :=
  mapM_eq_some_iff.mpr (List.forall₂_map_left_iff.mpr (List.forall₂_same.mpr fun a _ => h a))

/-! ### Results alone -/

section Results

variable {ε' : Type}

@[simp]
theorem toOption_bind (x : Except ε α) (f : α → Except ε β) :
    (x >>= f).toOption = x.toOption.bind fun a => (f a).toOption := by
  cases x <;> rfl

@[simp]
theorem toOption_map (x : Except ε α) (f : α → β) : (x.map f).toOption = x.toOption.map f := by
  cases x <;> rfl

@[simp]
theorem toOption_mapError (x : Except ε α) (f : ε → ε') : (x.mapError f).toOption = x.toOption := by
  cases x <;> rfl

theorem toOption_eq_some_iff {x : Except ε α} {a : α} : x.toOption = some a ↔ x = .ok a := by
  cases x <;> simp [Except.toOption]

theorem toOption_mapM (f : α → Except ε β) (as : List α) :
    (as.mapM f).toOption = as.mapM fun a => (f a).toOption := by
  induction as with
  | nil => rfl
  | cons a as ih =>
    rw [List.mapM_cons, List.mapM_cons, toOption_bind, ← ih]
    refine congrArg _ (funext fun b => ?_)
    rw [toOption_bind]
    rfl

/-- Two lists of steps have the same results if each two of the steps do. -/
theorem toOption_mapM_congr {γ : Type} {f : α → Except ε β} {g : γ → Except ε' β} {as : List α}
    {cs : List γ} (h : List.Forall₂ (fun a c => (f a).toOption = (g c).toOption) as cs) :
    (as.mapM f).toOption = (cs.mapM g).toOption := by
  induction h with
  | nil => rfl
  | cons hac _ ih =>
    rw [List.mapM_cons, List.mapM_cons, toOption_bind, toOption_bind, hac]
    refine congrArg _ (funext fun b => ?_)
    rw [toOption_bind, toOption_bind, ih]
    rfl

end Results

/-! ### What holds of a result -/

/-- If there is a result, it has the property. -/
def Yields (x : Except ε α) (p : α → Prop) : Prop :=
  ∀ a, x = .ok a → p a

namespace Yields

variable {p : α → Prop} {q : β → Prop}

theorem trivial (x : Except ε α) : Yields x fun _ => True :=
  fun _ _ => True.intro

theorem ok {a : α} (h : p a) : Yields (.ok a : Except ε α) p := by
  rintro _ ⟨⟩
  exact h

theorem error (why : ε) : Yields (.error why : Except ε α) p := by
  rintro _ ⟨⟩

theorem bind {x : Except ε α} {f : α → Except ε β} (hx : Yields x p)
    (hf : ∀ a, p a → Yields (f a) q) : Yields (x >>= f) q := by
  intro b h
  obtain ⟨a, ha, hb⟩ := bind_eq_ok.mp h
  exact hf a (hx a ha) b hb

/-- A step that is taken unless a condition holds. -/
theorem ite_throw {c : Prop} [Decidable c] {why : ε} {next : Unit → Except ε β}
    (h : ¬c → Yields (next ()) q) : Yields (if c then throw why >>= next else next ()) q := by
  by_cases hc : c
  · rw [if_pos hc]
    exact error why
  · rw [if_neg hc]
    exact h hc

theorem map {x : Except ε α} {f : α → β} (hx : Yields x p) (hf : ∀ a, p a → q (f a)) :
    Yields (x.map f) q := by
  cases x with
  | error why => exact error why
  | ok a => exact ok (hf a (hx a rfl))

theorem mapError {ε' : Type} {x : Except ε α} {f : ε → ε'} (hx : Yields x p) :
    Yields (x.mapError f) p :=
  fun a h => hx a (mapError_eq_ok.mp h)

theorem mapM {f : α → Except ε β} {as : List α} (hf : ∀ a ∈ as, Yields (f a) q) :
    Yields (as.mapM f) fun bs => ∀ b ∈ bs, q b := by
  induction as with
  | nil => exact ok fun b hb => absurd hb List.not_mem_nil
  | cons a as ih =>
    obtain ⟨ha, has⟩ := List.forall_mem_cons.mp hf
    rw [List.mapM_cons]
    refine ha.bind fun b hb => (ih has).bind fun bs hbs => ?_
    exact ok (List.forall_mem_cons.mpr ⟨hb, hbs⟩)

end Yields

end Circulation
