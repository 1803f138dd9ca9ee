import Mathlib.Algebra.BigOperators.Group.List.Basic
import Mathlib.Algebra.GroupWithZero.Nat

/-!
# A shared counter of what is held

Several holders count what they hold in one shared counter. When every change of the counter goes
with the same change of one holding, it is the sum of the holdings.
-/

namespace Lib

/-- The counter is what the holders hold together, and within the limit. -/
structure Balanced (limit : Nat) (used : Int) (held : List Nat) : Prop where
  total : used = (held.sum : Nat)
  within : used ≤ limit

variable {limit : Nat} {used used' : Int} {held : List Nat}

theorem Balanced.nonneg (h : Balanced limit used held) : 0 ≤ used := by
  rw [h.total]
  exact Int.natCast_nonneg _

theorem Balanced.join (h : Balanced limit used held) : Balanced limit used (held ++ [0]) :=
  ⟨by rw [h.total, List.sum_append, List.sum_singleton, Nat.add_zero], h.within⟩

theorem sum_set_add {i x : Nat} (y : Nat) :
    ∀ {held : List Nat}, held[i]? = some x → (held.set i y).sum + x = held.sum + y := by
  induction i with
  | zero =>
    intro held h
    cases held with
    | nil => cases h
    | cons a rest =>
      cases h
      rw [List.set_cons_zero, List.sum_cons, List.sum_cons]
      omega
  | succ i ih =>
    intro held h
    cases held with
    | nil => cases h
    | cons a rest =>
      have hrest : (rest.set i y).sum + x = rest.sum + y := ih h
      rw [List.set_cons_succ, List.sum_cons, List.sum_cons]
      omega

theorem Balanced.move (h : Balanced limit used held) {i x y : Nat} (hx : held[i]? = some x)
    (hmove : used' + x = used + y) (hwithin : used' ≤ limit) : Balanced limit used' (held.set i y) := by
  refine ⟨?_, hwithin⟩
  have hset := sum_set_add y hx
  have htotal := h.total
  omega

end Lib
