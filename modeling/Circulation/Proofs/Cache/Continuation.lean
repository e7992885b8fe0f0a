import Circulation.Proofs.Cache.History

/-!
# Histories that go on

What has happened up to a moment does not depend on what happens later. So a history may go on from
any moment with anything that can happen then, and every finite play of a cache is the beginning of a
history in which nothing happens afterwards.

## Main definitions

* `Circulation.Cache.History.idle` — the history in which nothing happens.
* `Circulation.Cache.History.extend` — a history that goes on with a given moment.

## Main results

* `Circulation.Cache.History.usage_extend`, `Circulation.Cache.History.effect_extend` — the past stays
  as it was.
* `Circulation.Cache.History.usage_extend_succ` — the state after the given moment.
-/

namespace Circulation.Cache

variable {Q : Type} {A : Q → Type} {s : Settings}
variable {build : Program Q A Event (Except ComputeError Snapshot)}

theorem Usage.play_congr {instant instant' : Nat → Nat} {action action' : Nat → Action Q A} {n : Nat}
    (hsame : ∀ k < n, instant' k = instant k ∧ action' k = action k) :
    Usage.play s instant' action' n = Usage.play s instant action n := by
  induction n with
  | zero => rfl
  | succ n ih =>
    obtain ⟨hinstant, haction⟩ := hsame n (Nat.lt_succ_self n)
    rw [Usage.play, Usage.play, hinstant, haction, ih fun k hk => hsame k (Nat.lt_succ_of_lt hk)]

namespace History

/-- The history in which nothing happens. -/
def idle (s : Settings) (build : Program Q A Event (Except ComputeError Snapshot)) :
    History s build where
  instant _ := 0
  action _ := .look
  clock _ := Nat.le_refl 0
  allows _ := trivial

variable {n now : Nat} {action : Action Q A}

/-- The history that goes on from before moment `n` with another one, after which nothing happens. -/
def extend (h : History s build) (n now : Nat) (action : Action Q A)
    (hclock : ∀ k < n, h.instant k ≤ now) (hallows : (h.usage n).Allows s build now action) :
    History s build where
  instant k := if k < n then h.instant k else now
  action k := if k < n then h.action k else if k = n then action else .look
  clock k := by
    by_cases hk : k + 1 < n
    · rw [if_pos hk, if_pos (Nat.lt_of_succ_lt hk)]
      exact h.clock k
    · rw [if_neg hk]
      split
      · next hkn => exact hclock k hkn
      · exact Nat.le_refl now
  allows k := by
    have hplay : ∀ m ≤ n, Usage.play s (fun k => if k < n then h.instant k else now)
        (fun k => if k < n then h.action k else if k = n then action else .look) m = h.usage m :=
      fun m hm => Usage.play_congr fun k hk =>
        ⟨if_pos (Nat.lt_of_lt_of_le hk hm), if_pos (Nat.lt_of_lt_of_le hk hm)⟩
    rcases Nat.lt_trichotomy k n with hlt | rfl | hlt
    · rw [hplay k hlt.le, if_pos hlt, if_pos hlt]
      exact h.allows k
    · rw [hplay k le_rfl, if_neg (Nat.lt_irrefl k), if_neg (Nat.lt_irrefl k), if_pos rfl]
      exact hallows
    · rw [if_neg hlt.not_gt, if_neg hlt.not_gt, if_neg hlt.ne']
      exact trivial

section

variable (h : History s build) {hclock : ∀ k < n, h.instant k ≤ now}
  {hallows : (h.usage n).Allows s build now action}

theorem instant_extend {k : Nat} (hk : k < n) :
    (h.extend n now action hclock hallows).instant k = h.instant k := if_pos hk

theorem instant_extend_self : (h.extend n now action hclock hallows).instant n = now :=
  if_neg (Nat.lt_irrefl n)

theorem action_extend {k : Nat} (hk : k < n) :
    (h.extend n now action hclock hallows).action k = h.action k := if_pos hk

theorem action_extend_self : (h.extend n now action hclock hallows).action n = action :=
  (if_neg (Nat.lt_irrefl n)).trans (if_pos rfl)

theorem usage_extend {k : Nat} (hk : k ≤ n) :
    (h.extend n now action hclock hallows).usage k = h.usage k :=
  Usage.play_congr fun _ hj =>
    ⟨instant_extend h (Nat.lt_of_lt_of_le hj hk), action_extend h (Nat.lt_of_lt_of_le hj hk)⟩

theorem usage_extend_succ :
    (h.extend n now action hclock hallows).usage (n + 1) = (h.usage n).after s now action := by
  change Usage.after s _ ((h.extend n now action hclock hallows).usage n) _ = _
  rw [usage_extend h le_rfl, instant_extend_self, action_extend_self]

theorem effect_extend {k : Nat} (hk : k < n) :
    (h.extend n now action hclock hallows).effect k = h.effect k := by
  rw [effect, usage_extend h hk.le, instant_extend h hk, action_extend h hk]
  rfl

end

end History

end Circulation.Cache
