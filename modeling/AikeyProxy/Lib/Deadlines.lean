import Mathlib.Order.Lattice
import AikeyProxy.Lib.Table

/-!
# Tables of deadlines

A table holds for each key a deadline that is only ever put off. Readers ask which deadlines are
ahead, and drop lapsed ones on the way. Tables with the same deadlines ahead stay so when time
passes, when one is pruned, and when both take the same deadline (`SameAhead`). A deadline is ahead
in the table when the last one accepted for the key is (`Tracks`).
-/

namespace Lib

open AList Option Function

variable {K T : Type} [DecidableEq K] [LinearOrder T]

def ahead (now : T) (t : Table K T) (k : K) : Option T :=
  (t.lookup k).filter fun d => decide (now < d)

variable {d : T} {k : K}

variable {now : T} {t : Table K T}

theorem ahead_eq_some : ahead now t k = some d ↔ t.lookup k = some d ∧ now < d := by
  rw [ahead, filter_eq_some_iff, decide_eq_true_iff]

/-- Whether a key has a deadline that is not ahead any more. -/
def lapsed (now : T) (t : Table K T) (k : K) : Bool :=
  match t.lookup k with
  | some d => !decide (now < d)
  | none => false

/-- Whether a table takes a deadline for a key: when it has none, or an earlier one. -/
def accepts (t : Table K T) (k : K) (d : T) : Bool :=
  match t.lookup k with
  | some cur => decide (cur < d)
  | none => true

def putOff (t : Table K T) (k : K) (d : T) : Table K T :=
  if accepts t k d then t.insert k d else t

/-- The table keeps every deadline that is ahead, and may lose others. -/
def Pruned (now : T) (t t' : Table K T) : Prop :=
  ∀ k, t'.lookup k = t.lookup k ∨ t'.lookup k = none ∧ ∀ d, t.lookup k = some d → d ≤ now

theorem pruned_dropKeys {drop : K → Bool}
    (h : ∀ k, drop k = true → ∀ d, t.lookup k = some d → d ≤ now) :
    Pruned now t (dropKeys drop t) := by
  intro k
  rw [lookup_dropKeys]
  cases hd : drop k with
  | false => exact .inl rfl
  | true => exact .inr ⟨rfl, h k hd⟩

theorem le_of_lapsed (h : lapsed now t k = true) (hd : t.lookup k = some d) : d ≤ now := by
  rw [lapsed, hd] at h
  simpa using h

theorem putOff_of_not_accepts {t : Table K T} (h : accepts t k d = false) : putOff t k d = t := by
  rw [putOff, h]
  rfl

theorem lookup_putOff_self (t : Table K T) (k : K) (d : T) :
    (putOff t k d).lookup k = if accepts t k d then some d else t.lookup k := by
  unfold putOff
  split
  · rw [lookup_insert]
  · rfl

theorem lookup_putOff_ne {t : Table K T} {k' : K} (h : k' ≠ k) (d : T) :
    (putOff t k d).lookup k' = t.lookup k' := by
  unfold putOff
  split
  · rw [lookup_insert_ne h]
  · rfl

/-! ## The same deadlines ahead -/

def SameAhead (now : T) (t t' : Table K T) : Prop := ∀ k, ahead now t k = ahead now t' k

namespace SameAhead

variable {now now' : T} {t t' t'' : Table K T}

theorem refl (now : T) (t : Table K T) : SameAhead now t t := fun _ => rfl

theorem symm (h : SameAhead now t t') : SameAhead now t' t := fun k => (h k).symm

theorem trans (h : SameAhead now t t') (h' : SameAhead now t' t'') : SameAhead now t t'' :=
  fun k => (h k).trans (h' k)

theorem mono (h : SameAhead now t t') (hle : now ≤ now') : SameAhead now' t t' := by
  have hfilter : ∀ t : Table K T, ∀ k,
      ahead now' t k = (ahead now t k).filter fun d => decide (now' < d) := by
    intro t k
    unfold ahead
    cases t.lookup k with
    | none => rfl
    | some d =>
      by_cases hd : now' < d
      · have hnow : now < d := lt_of_le_of_lt hle hd
        simp [Option.filter, hd, hnow]
      · by_cases hnow : now < d <;> simp [Option.filter, hd, hnow]
  intro k
  rw [hfilter, hfilter, h k]

theorem of_pruned (h : Pruned now t t') : SameAhead now t t' := by
  intro k
  unfold ahead
  rcases h k with heq | ⟨hnone, hlapsed⟩
  · rw [heq]
  · rw [hnone]
    cases hk : t.lookup k with
    | none => rfl
    | some d =>
      have hd : ¬ now < d := not_lt.mpr (hlapsed d hk)
      simp [Option.filter, hd]

theorem ahead_putOff_self (now : T) (t : Table K T) (k : K) (d : T) :
    ahead now (putOff t k d) k =
      match ahead now t k with
      | some cur => some (max cur d)
      | none => if now < d then some d else none := by
  unfold ahead
  rw [lookup_putOff_self]
  unfold accepts
  cases t.lookup k with
  | none => simp [Option.filter]
  | some cur =>
    by_cases hcur : now < cur
    · by_cases hd : cur < d
      · have hnow : now < d := hcur.trans hd
        simp [Option.filter, hcur, hd, hnow, max_eq_right hd.le]
      · simp [Option.filter, hcur, hd, max_eq_left (not_lt.mp hd)]
    · by_cases hd : cur < d
      · simp [Option.filter, hcur, hd]
      · have hnow : ¬ now < d := fun h => hcur (h.trans_le (not_lt.mp hd))
        simp [Option.filter, hcur, hd, hnow]

theorem putOff (h : SameAhead now t t') (k : K) (d : T) :
    SameAhead now (Lib.putOff t k d) (Lib.putOff t' k d) := by
  intro k'
  by_cases hk : k' = k
  · subst hk
    rw [ahead_putOff_self, ahead_putOff_self, h k']
  · have hsame := h k'
    unfold ahead at hsame ⊢
    rw [lookup_putOff_ne hk, lookup_putOff_ne hk, hsame]

end SameAhead

/-! ## The last accepted deadline -/

/-- What the table has is what was accepted last, and what it does not have any more has lapsed. -/
structure Tracks (now : T) (t : Table K T) (last : K → Option T) : Prop where
  stored : ∀ k d, t.lookup k = some d → last k = some d
  lost : ∀ k d, t.lookup k = none → last k = some d → d ≤ now

def noteAccepted (t : Table K T) (k : K) (d : T) (last : K → Option T) : K → Option T :=
  if accepts t k d then Function.update last k (some d) else last

namespace Tracks

variable {now now' : T} {t t' : Table K T} {last : K → Option T}

section

variable (h : Tracks now t last)

include h

theorem mono (hle : now ≤ now') : Tracks now' t last :=
  ⟨h.stored, fun k d hk hd => (h.lost k d hk hd).trans hle⟩

theorem of_pruned (hp : Pruned now t t') : Tracks now t' last where
  stored := by
    intro k d hk
    rcases hp k with heq | ⟨hnone, -⟩
    · exact h.stored k d (heq ▸ hk)
    · rw [hnone] at hk
      cases hk
  lost := by
    intro k d hk hd
    rcases hp k with heq | ⟨-, hlapsed⟩
    · exact h.lost k d (heq ▸ hk) hd
    · cases hold : t.lookup k with
      | none => exact h.lost k d hold hd
      | some d' =>
        have hd' := h.stored k d' hold
        rw [hd] at hd'
        cases hd'
        exact hlapsed d hold

theorem putOff (k : K) (d : T) : Tracks now (Lib.putOff t k d) (noteAccepted t k d last) := by
  unfold Lib.putOff noteAccepted
  split
  · refine ⟨?_, ?_⟩
    · intro k' d' hk'
      by_cases hk : k' = k
      · subst hk
        rw [lookup_insert] at hk'
        rw [update_self, hk']
      · rw [lookup_insert_ne hk] at hk'
        rw [update_of_ne hk]
        exact h.stored k' d' hk'
    · intro k' d' hk' hd'
      obtain ⟨hk, hnone⟩ := lookup_insert_eq_none.mp hk'
      rw [update_of_ne hk] at hd'
      exact h.lost k' d' hnone hd'
  · exact h

/-- **The table is exact.** -/
theorem ahead_eq (k : K) : ahead now t k = (last k).filter fun d => decide (now < d) := by
  unfold ahead
  cases hk : t.lookup k with
  | some d => rw [h.stored k d hk]
  | none =>
    cases hlast : last k with
    | none => rfl
    | some d =>
      have hd : ¬ now < d := not_lt.mpr (h.lost k d hk hlast)
      simp [Option.filter, hd]

theorem isSome_ahead (k : K) : (ahead now t k).isSome ↔ ∃ d, last k = some d ∧ now < d := by
  rw [h.ahead_eq, isSome_iff_exists]
  simp only [filter_eq_some_iff, decide_eq_true_iff]

theorem later (hacc : accepts t k d = true) {cur : T}
    (hcur : last k = some cur) : cur < d ∨ cur ≤ now := by
  cases hk : t.lookup k with
  | none => exact .inr (h.lost k cur hk hcur)
  | some d' =>
    have hd' := h.stored k d' hk
    rw [hcur] at hd'
    cases hd'
    rw [accepts, hk] at hacc
    exact .inl (of_decide_eq_true hacc)

end

end Tracks

end Lib
