import Mathlib.Data.Int.Order.Basic
import Mathlib.Data.List.Basic

/-!
# High-water marks, and an outbox read through one

A table of high-water marks keeps one number per key and only ever raises it. When items are read
back through the filter "number above the mark of its key", raising the marks for a batch of
finished items hides nothing that is still open exactly when the batch *covers* what it overtakes.
-/

namespace Lib

variable {K : Type} [DecidableEq K]

variable (m : K → Int)

def raise (k : K) (n : Int) : K → Int :=
  if m k < n then Function.update m k n else m

def raiseAll (l : List (K × Int)) : K → Int :=
  l.foldl (fun m p => raise m p.1 p.2) m

@[simp] theorem raiseAll_nil : raiseAll m [] = m := rfl

@[simp] theorem raiseAll_cons (p : K × Int) (l : List (K × Int)) :
    raiseAll m (p :: l) = raiseAll (raise m p.1 p.2) l := rfl

theorem raiseAll_append (l l' : List (K × Int)) :
    raiseAll m (l ++ l') = raiseAll (raiseAll m l) l' := List.foldl_append

theorem le_raise_iff {m : K → Int} {k x : K} {n i : Int} :
    i ≤ raise m k n x ↔ i ≤ m x ∨ (x = k ∧ i ≤ n) := by
  unfold raise
  by_cases hx : x = k
  · subst hx
    split
    · rw [Function.update_self]; constructor
      · intro h; exact Or.inr ⟨rfl, h⟩
      · rintro (h | ⟨_, h⟩) <;> omega
    · constructor
      · intro h; exact Or.inl h
      · rintro (h | ⟨_, h⟩) <;> omega
  · split
    · rw [Function.update_of_ne hx]; simp [hx]
    · simp [hx]

theorem le_raiseAll_iff {l : List (K × Int)} :
    ∀ {m : K → Int} {k : K} {i : Int},
      i ≤ raiseAll m l k ↔ i ≤ m k ∨ ∃ p ∈ l, p.1 = k ∧ i ≤ p.2 := by
  induction l with
  | nil => intro m k i; simp
  | cons q l ih =>
    intro m k i
    rw [raiseAll_cons, ih, le_raise_iff]
    simp only [List.mem_cons, exists_eq_or_imp, or_assoc, @eq_comm _ q.1]

theorem raiseAll_lt_iff {l : List (K × Int)} {m : K → Int} {k : K} {i : Int} :
    raiseAll m l k < i ↔ m k < i ∧ ∀ p ∈ l, p.1 = k → p.2 < i := by
  rw [← not_le, le_raiseAll_iff, not_or, not_le]
  constructor
  · rintro ⟨h1, h2⟩
    refine ⟨h1, fun p hp hk => ?_⟩
    exact not_le.mp fun hle => h2 ⟨p, hp, hk, hle⟩
  · rintro ⟨h1, h2⟩
    refine ⟨h1, ?_⟩
    rintro ⟨p, hp, hk, hle⟩
    exact not_le.mpr (h2 p hp hk) hle

/-! ## Reading an outbox through its marks -/

section Outbox

variable {α : Type} [DecidableEq α] (key : α → K) (num : α → Int)

/-- No open item sits at or below the mark of its key. -/
def Clear (m : K → Int) (opens : List α) : Prop :=
  ∀ x ∈ opens, m (key x) < num x

def Covers (opens fin : List α) : Prop :=
  ∀ x ∈ fin, ∀ y ∈ opens, key y = key x → num y ≤ num x → y ∈ fin

instance (opens fin : List α) : Decidable (Covers key num opens fin) :=
  inferInstanceAs (Decidable (∀ x ∈ fin, ∀ y ∈ opens, key y = key x → num y ≤ num x → y ∈ fin))

variable {key num}

/--
**Raising the marks for a finished batch keeps the outbox clear exactly when the
batch covers what it overtakes.**
-/
theorem clear_raiseAll_iff {m : K → Int} {opens fin : List α} (h : Clear key num m opens) :
    Clear key num (raiseAll m (fin.map fun x => (key x, num x)))
        (opens.filter fun y => decide (y ∉ fin)) ↔ Covers key num opens fin := by
  constructor
  · intro hc x hx y hy hk hn
    by_contra hnot
    have hlt := hc y (List.mem_filter.mpr ⟨hy, by simpa using hnot⟩)
    have hp := (raiseAll_lt_iff.mp hlt).2 (key x, num x) (List.mem_map_of_mem hx) hk.symm
    exact absurd hp (not_lt.mpr hn)
  · intro hcov y hy
    obtain ⟨hy, hnot⟩ := List.mem_filter.mp hy
    have hnot : y ∉ fin := by simpa using hnot
    refine raiseAll_lt_iff.mpr ⟨h y hy, ?_⟩
    intro p hp hk
    obtain ⟨x, hx, rfl⟩ := List.mem_map.mp hp
    by_contra hle
    exact hnot (hcov x hx y hy hk.symm (not_lt.mp hle))

omit [DecidableEq K] [DecidableEq α] in
theorem Clear.subset {m : K → Int} {opens opens' : List α} (h : Clear key num m opens)
    (hsub : ∀ x ∈ opens', x ∈ opens) : Clear key num m opens' :=
  fun x hx => h x (hsub x hx)

end Outbox

end Lib
