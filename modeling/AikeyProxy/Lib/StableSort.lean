import Mathlib.Data.List.Sort

/-!
# Sorting by a key

A stable sort by a key keeps the elements of one key in their order. So its first element is the
first of those with the least key, and with keys in a known range the result is the elements of each
key in turn.
-/

namespace Lib

open List

variable {A K : Type} [LinearOrder K]

def sortBy (key : A → K) (l : List A) : List A := l.insertionSort fun a b => key a ≤ key b

theorem sortBy_perm (key : A → K) (l : List A) : (sortBy key l).Perm l :=
  perm_insertionSort _ l

variable {a : A} {l : List A} {key : A → K} {n : Nat}

theorem mem_sortBy : a ∈ sortBy key l ↔ a ∈ l :=
  (sortBy_perm key l).mem_iff

theorem length_sortBy (key : A → K) (l : List A) : (sortBy key l).length = l.length :=
  (sortBy_perm key l).length_eq

def FirstLeast (key : A → K) (l : List A) (a : A) : Prop :=
  ∃ before after, l = before ++ a :: after ∧ (∀ b ∈ before, key a < key b) ∧
    ∀ b ∈ after, key a ≤ key b

theorem FirstLeast.le {b : A} (h : FirstLeast key l a) (hb : b ∈ l) : key a ≤ key b := by
  obtain ⟨before, after, rfl, hbefore, hafter⟩ := h
  rcases mem_append.mp hb with hb | hb
  · exact le_of_lt (hbefore b hb)
  · rcases mem_cons.mp hb with rfl | hb
    · exact le_rfl
    · exact hafter b hb

theorem sortBy_cons (x : A) (l : List A) :
    sortBy key (x :: l) = (sortBy key l).orderedInsert (fun a b => key a ≤ key b) x :=
  rfl

theorem firstLeast_of_head? :
    ∀ {l : List A} {a : A}, (sortBy key l).head? = some a → FirstLeast key l a := by
  intro l
  induction l with
  | nil => intro a h; cases h
  | cons x l ih =>
    intro a h
    rw [sortBy_cons] at h
    cases hl : sortBy key l with
    | nil =>
      rw [hl] at h
      cases h
      have hnil : l = [] := length_eq_zero_iff.mp (by rw [← length_sortBy key, hl]; rfl)
      exact ⟨[], [], by rw [hnil]; rfl, by simp, by simp⟩
    | cons y ys =>
      have hy : FirstLeast key l y := ih (by rw [hl]; rfl)
      rw [hl, List.orderedInsert] at h
      split at h
      next hxy =>
        cases h
        exact ⟨[], l, rfl, by simp, fun b hb => hxy.trans (hy.le hb)⟩
      next hxy =>
        cases h
        obtain ⟨before, after, rfl, hbefore, hafter⟩ := hy
        refine ⟨x :: before, after, rfl, fun b hb => ?_, hafter⟩
        rcases mem_cons.mp hb with rfl | hb
        · exact not_le.mp hxy
        · exact hbefore b hb

theorem FirstLeast.mem (h : FirstLeast key l a) : a ∈ l := by
  obtain ⟨before, after, rfl, -⟩ := h
  simp

theorem FirstLeast.find?_eq (h : FirstLeast key l a) :
    l.find? (fun x => decide (key x ≤ key a)) = some a := by
  obtain ⟨before, after, rfl, hbefore, -⟩ := h
  rw [find?_append, find?_eq_none.mpr (by simpa using hbefore), Option.none_or,
    find?_cons_of_pos (by simp)]

theorem head?_of_firstLeast (h : FirstLeast key l a) : (sortBy key l).head? = some a := by
  cases hs : (sortBy key l).head? with
  | none =>
    have hnil : sortBy key l = [] := head?_eq_none_iff.mp hs
    have hmem : a ∈ sortBy key l := mem_sortBy.mpr h.mem
    rw [hnil] at hmem
    cases hmem
  | some b =>
    have hb := firstLeast_of_head? hs
    have hkey : key b = key a := le_antisymm (hb.le h.mem) (h.le hb.mem)
    have hfind := hb.find?_eq
    rw [hkey, h.find?_eq] at hfind
    exact hfind.symm

/-! ## Keys in a range -/

theorem orderedInsert_append {after : List A} (hafter : ∀ b ∈ after.head?, key a ≤ key b) :
    ∀ {before : List A}, (∀ b ∈ before, key b < key a) →
      (before ++ after).orderedInsert (fun a b => key a ≤ key b) a = before ++ a :: after := by
  intro before
  induction before with
  | nil =>
    intro _
    cases after with
    | nil => rfl
    | cons b after => exact orderedInsert_cons_of_le _ _ (hafter b rfl)
  | cons b before ih =>
    intro hbefore
    have hb : ¬ key a ≤ key b := not_le.mpr (hbefore b mem_cons_self)
    rw [cons_append, List.orderedInsert, if_neg hb,
      ih fun c hc => hbefore c (mem_cons_of_mem b hc), cons_append]

def bands (key : A → Nat) (lo n : Nat) (l : List A) : List A :=
  (List.range' lo n).flatMap fun v => l.filter fun a => decide (key a = v)

theorem mem_bands {key : A → Nat} {lo : Nat} :
    a ∈ bands key lo n l ↔ a ∈ l ∧ lo ≤ key a ∧ key a < lo + n := by
  simp [bands, mem_flatMap, mem_range'_1]
  tauto

theorem bands_cons_of_outside {key : A → Nat} {lo : Nat} (h : ¬ (lo ≤ key a ∧ key a < lo + n)) :
    bands key lo n (a :: l) = bands key lo n l := by
  refine flatMap_congr fun v hv => ?_
  rw [mem_range'_1] at hv
  exact filter_cons_of_neg (by simpa using fun heq : key a = v => h (heq ▸ hv))

theorem sortBy_eq_bands {key : A → Nat} :
    ∀ {l : List A}, (∀ a ∈ l, key a < n) → sortBy key l = bands key 0 n l := by
  intro l
  induction l with
  | nil => intro _; simp [sortBy, bands]
  | cons a l ih =>
    intro h
    obtain ⟨m, rfl⟩ : ∃ m, n = key a + (m + 1) :=
      ⟨n - key a - 1, by have := h a mem_cons_self; omega⟩
    have hsplit : ∀ l : List A, bands key 0 (key a + (m + 1)) l =
        bands key 0 (key a) l ++ (l.filter (fun b => decide (key b = key a)) ++
          bands key (key a + 1) m l) := by
      intro l
      have hrange : List.range' 0 (key a + (m + 1)) =
          List.range' 0 (key a) ++ key a :: List.range' (key a + 1) m := by
        rw [← range'_succ, ← range'_append_1, Nat.zero_add]
      simp [bands, hrange]
    rw [sortBy_cons, ih fun b hb => h b (mem_cons_of_mem a hb), hsplit, hsplit,
      bands_cons_of_outside (by omega), bands_cons_of_outside (by omega),
      filter_cons_of_pos (by simp), cons_append]
    -- `a` goes before the elements of its own key and after those of lesser ones
    refine orderedInsert_append (fun b hb => ?_) fun b hb => ?_
    · have hmem := mem_of_mem_head? hb
      rcases mem_append.mp hmem with hb | hb
      · exact ge_of_eq (by simpa using (mem_filter.mp hb).2)
      · have := (mem_bands.mp hb).2.1
        omega
    · have := (mem_bands.mp hb).2.2
      omega

end Lib
