import Mathlib.Data.List.Basic
import Mathlib.Data.List.Nodup
import Mathlib.Data.List.Induction

/-!
# Grouping a list by a key

The loop "look the key up in a map of lists and append" builds, for every key that occurs, the
sublist of its elements in their order (`mem_groupBy_iff`).
-/

namespace Lib

open List

variable {α K : Type} [DecidableEq K]

def addToGroup (k : K) (x : α) : List (K × List α) → List (K × List α)
  | [] => [(k, [x])]
  | (k', g) :: rest =>
    if k' = k then (k', g ++ [x]) :: rest else (k', g) :: addToGroup k x rest

def groupBy (key : α → K) (l : List α) : List (K × List α) :=
  l.foldl (fun gs x => addToGroup (key x) x gs) []

variable {x : α} {k : K} {l : List α}

variable {gs : List (K × List α)}

theorem mem_addToGroup_key {k' : K} :
    k' ∈ (addToGroup k x gs).map Prod.fst ↔ k' = k ∨ k' ∈ gs.map Prod.fst := by
  fun_induction addToGroup k x gs with
  | case1 | case2 g gs => simp
  | case3 k₀ g gs hk ih =>
    simp only [map_cons, mem_cons, ih]
    tauto

theorem addToGroup_nodup (h : (gs.map Prod.fst).Nodup) :
    ((addToGroup k x gs).map Prod.fst).Nodup := by
  fun_induction addToGroup k x gs with
  | case1 => simp
  | case2 g gs => exact h
  | case3 k₀ g gs hk ih =>
    simp only [map_cons, nodup_cons] at h ⊢
    refine ⟨?_, ih h.2⟩
    rw [mem_addToGroup_key]
    rintro (hc | hc)
    · exact hk hc
    · exact h.1 hc

theorem mem_addToGroup (h : (gs.map Prod.fst).Nodup) {k' : K} {g : List α} :
    (k', g) ∈ addToGroup k x gs ↔ if k' = k then
        (∃ g₀, (k, g₀) ∈ gs ∧ g = g₀ ++ [x]) ∨ (k ∉ gs.map Prod.fst ∧ g = [x])
      else (k', g) ∈ gs := by
  fun_induction addToGroup k x gs with
  | case1 => by_cases hk : k' = k <;> simp [hk]
  | case2 g₀ gs =>
    by_cases hk : k' = k
    · subst hk
      have hno : ∀ g', (k', g') ∉ gs := fun g' hg' =>
        (nodup_cons.mp h).1 (mem_map.mpr ⟨(k', g'), hg', rfl⟩)
      simp [hno]
    · simp [hk]
  | case3 k₀ g₀ gs hk₀ ih =>
    rw [mem_cons, ih (nodup_cons.mp h).2]
    by_cases hk : k' = k
    · subst hk
      simp [Ne.symm hk₀]
    · simp [hk]

/-- The invariant of the grouping loop: after the prefix `l`, group `k` is `l` filtered by `k`. -/
private theorem groupBy_spec (key : α → K) (l : List α) :
    ((groupBy key l).map Prod.fst).Nodup ∧
      ∀ k g, (k, g) ∈ groupBy key l ↔ g ≠ [] ∧ g = l.filter (fun x => decide (key x = k)) := by
  induction l using List.reverseRecOn with
  | nil =>
    refine ⟨by simp [groupBy], fun k g => ?_⟩
    simp only [groupBy, foldl_nil, not_mem_nil, filter_nil, false_iff, not_and]
    intro h1 h2; exact h1 h2
  | append_singleton l x ih =>
    obtain ⟨hnd, hspec⟩ := ih
    have hstep : groupBy key (l ++ [x]) = addToGroup (key x) x (groupBy key l) := by
      simp [groupBy]
    rw [hstep]
    refine ⟨addToGroup_nodup hnd, fun k g => ?_⟩
    rw [mem_addToGroup hnd, filter_append]
    by_cases hk : k = key x
    · subst hk
      simp only [if_true, decide_true, filter_cons_of_pos, filter_nil, ne_eq]
      constructor
      · rintro (⟨g₀, hg₀, rfl⟩ | ⟨hno, rfl⟩)
        · exact ⟨by simp, by rw [((hspec _ _).mp hg₀).2]⟩
        · -- the key is new, so nothing in `l` has it
          have hempty : l.filter (fun y => decide (key y = key x)) = [] := by
            by_contra hne
            exact hno (mem_map.mpr ⟨(key x, _), (hspec _ _).mpr ⟨hne, rfl⟩, rfl⟩)
          exact ⟨by simp, by rw [hempty]; rfl⟩
      · rintro ⟨_, rfl⟩
        by_cases hempty : l.filter (fun y => decide (key y = key x)) = []
        · refine Or.inr ⟨?_, by rw [hempty]; rfl⟩
          intro hin
          obtain ⟨⟨k', g'⟩, hg', hk'⟩ := mem_map.mp hin
          have := (hspec k' g').mp hg'
          simp only at hk'
          rw [hk'] at this
          exact this.1 (this.2.trans hempty)
        · exact Or.inl ⟨_, (hspec _ _).mpr ⟨hempty, rfl⟩, rfl⟩
    · have hx : ¬ key x = k := fun he => hk he.symm
      rw [if_neg hk, hspec, filter_cons_of_neg (by simpa using hx), filter_nil,
        append_nil]

/-- **The groups are the nonempty sublists of one key each.** -/
theorem mem_groupBy_iff {key : α → K} {g : List α} :
    (k, g) ∈ groupBy key l ↔ g ≠ [] ∧ g = l.filter (fun x => decide (key x = k)) :=
  (groupBy_spec key l).2 k g

theorem mem_of_mem_groupBy {key : α → K} {g : List α} (h : (k, g) ∈ groupBy key l) (hx : x ∈ g) :
    x ∈ l ∧ key x = k := by
  obtain ⟨_, rfl⟩ := mem_groupBy_iff.mp h
  simpa using mem_filter.mp hx

theorem flatMap_filter_perm_filter (key : α → K) (l : List α) :
    ∀ {ks : List K}, ks.Nodup →
      (ks.flatMap fun k => l.filter fun x => key x = k).Perm
        (l.filter fun x => key x ∈ ks) := by
  intro ks
  induction ks with
  | nil => intro _; simp
  | cons k ks ih =>
    intro hnd
    obtain ⟨hnot, hnd⟩ := nodup_cons.mp hnd
    have hthis : (l.filter fun x => key x ∈ k :: ks).filter (fun x => key x = k) =
        l.filter fun x => key x = k := by
      rw [filter_filter]
      refine filter_congr fun x _ => ?_
      by_cases hx : key x = k <;> simp [hx]
    have hothers : (l.filter fun x => key x ∈ k :: ks).filter (fun x => !decide (key x = k)) =
        l.filter fun x => key x ∈ ks := by
      rw [filter_filter]
      refine filter_congr fun x _ => ?_
      by_cases hx : key x = k <;> simp [hx, hnot]
    have hsplit := filter_append_perm (fun x => decide (key x = k))
      (l.filter fun x => key x ∈ k :: ks)
    rw [hthis, hothers] at hsplit
    rw [flatMap_cons]
    exact ((ih hnd).append_left _).trans hsplit

theorem flatMap_filter_perm (key : α → K) {ks : List K} (hnd : ks.Nodup)
    (hall : ∀ x ∈ l, key x ∈ ks) : (ks.flatMap fun k => l.filter fun x => key x = k).Perm l := by
  have hperm := flatMap_filter_perm_filter key l hnd
  rwa [filter_eq_self.mpr fun x hx => decide_eq_true (hall x hx)] at hperm

end Lib
