import Circulation.Amount

/-!
# Sums of amounts

The laws of the sum of a list of amounts: over a list in two parts, in another order, and term by
term.
-/

namespace Circulation.Amount

variable {α β : Type}

@[simp]
theorem sum_nil : sum [] = 0 := rfl

@[simp]
theorem sum_cons (n : Nat) (ns : List Nat) : sum (n :: ns) = n + sum ns := rfl

@[simp]
theorem sum_append (ms ns : List Nat) : sum (ms ++ ns) = sum ms + sum ns := by
  induction ms with
  | nil => simp
  | cons m ms ih => simp [ih, Nat.add_assoc]

/-- A sum does not depend on the order of its terms. -/
theorem sum_perm {ms ns : List Nat} (h : ms.Perm ns) : sum ms = sum ns := by
  induction h with
  | nil => rfl
  | cons n _ ih => rw [sum_cons, sum_cons, ih]
  | swap m n ns =>
    simp only [sum_cons]
    omega
  | trans _ _ ih ih' => exact ih.trans ih'

/-- Terms that are left out of a sum when they are absent count for nothing. -/
theorem sum_filterMap (f : α → Option β) (g : β → Nat) (as : List α) :
    sum ((as.filterMap f).map g) = sum (as.map fun a => (f a).elim 0 g) := by
  induction as with
  | nil => rfl
  | cons a as ih =>
    cases h : f a with
    | none => simp [h, ih]
    | some b => simp [h, ih]

/-- A sum grows with its terms. -/
theorem sum_map_le {f g : α → Nat} {as : List α} (h : ∀ a ∈ as, f a ≤ g a) :
    sum (as.map f) ≤ sum (as.map g) := by
  induction as with
  | nil => exact Nat.le_refl _
  | cons a as ih =>
    have hhead : f a ≤ g a := h a List.mem_cons_self
    have htail : sum (as.map f) ≤ sum (as.map g) := ih fun b hb => h b (List.mem_cons_of_mem _ hb)
    simp only [List.map_cons, sum_cons]
    omega

end Circulation.Amount
