import Mathlib.Data.List.AList

/-!
# Tables filled by assignment

A map that a loop fills with `out[k] = v`, later assignments winning: where its entries come from,
which keys it has, and what a loop that rewrites every value in place leaves. Copying one table over
another is Mathlib's left-biased `∪`.
-/

namespace Lib

open List Option

variable {K V : Type} [DecidableEq K]

/-- A finite map with at most one value per key. -/
abbrev Table (K V : Type) := AList (fun _ : K => V)

omit [DecidableEq K] in
theorem entries_isEmpty_iff (t : Table K V) : t.entries.isEmpty = true ↔ t = ∅ := by
  rw [List.isEmpty_iff]
  exact ⟨fun h => AList.ext h, fun h => h ▸ rfl⟩

theorem Table.mem_iff {t : Table K V} {k : K} :
    k ∈ t ↔ ∃ v, t.lookup k = some v :=
  AList.lookup_isSome.symm.trans isSome_iff_exists

/-- Whether a table is empty is decided on its length, for any type of values. -/
instance decidableEqEmpty (t : Table K V) : Decidable (t = ∅) :=
  decidable_of_iff _ (entries_isEmpty_iff t)

def assignAll (t : Table K V) (rows : List (K × V)) : Table K V :=
  rows.foldl (fun t row => t.insert row.1 row.2) t

variable {k : K}

theorem mem_assignAll :
    ∀ {rows : List (K × V)} {t : Table K V},
      k ∈ assignAll t rows ↔ k ∈ rows.map Prod.fst ∨ k ∈ t := by
  intro rows
  induction rows with
  | nil => intro t; simp [assignAll]
  | cons row rows ih =>
    intro t
    have hcons : assignAll t (row :: rows) = assignAll (t.insert row.1 row.2) rows := rfl
    rw [hcons, ih, AList.mem_insert, map_cons, mem_cons]
    tauto

/-- **The last assignment wins.** -/
theorem lookup_assignAll_eq :
    ∀ {rows : List (K × V)} {t : Table K V},
      (assignAll t rows).lookup k =
        ((rows.reverse.find? fun row => decide (row.1 = k)).map Prod.snd).or (t.lookup k) := by
  intro rows
  induction rows with
  | nil => intro t; simp [assignAll]
  | cons row rows ih =>
    intro t
    have hcons : assignAll t (row :: rows) = assignAll (t.insert row.1 row.2) rows := rfl
    rw [hcons, ih, reverse_cons, find?_append]
    cases hfind : rows.reverse.find? fun row => decide (row.1 = k) with
    | some r => simp
    | none =>
      by_cases hk : row.1 = k
      · simp [hk]
      · simp [hk, AList.lookup_insert_ne (Ne.symm hk)]

theorem lookup_assignAll {v : V} {rows : List (K × V)} {t : Table K V}
    (h : (assignAll t rows).lookup k = some v) : (k, v) ∈ rows ∨ t.lookup k = some v := by
  rw [lookup_assignAll_eq] at h
  rcases or_eq_some_iff.mp h with hrow | ⟨-, hold⟩
  · obtain ⟨row, hfind, rfl⟩ := map_eq_some_iff.mp hrow
    obtain rfl : row.1 = k := by simpa using find?_some hfind
    exact .inl (mem_reverse.mp (mem_of_find?_eq_some hfind))
  · exact .inr hold

theorem lookup_assignAll_of_nodup {rows : List (K × V)} {t : Table K V}
    (hnd : (rows.map Prod.fst).Nodup) {row : K × V} (hrow : row ∈ rows) :
    (assignAll t rows).lookup row.1 = some row.2 := by
  cases hfind : rows.reverse.find? fun r => decide (r.1 = row.1) with
  | none =>
    have hno := find?_eq_none.mp hfind row (mem_reverse.mpr hrow)
    exact absurd (decide_eq_true rfl) hno
  | some r =>
    have hmem : r ∈ rows := mem_reverse.mp (mem_of_find?_eq_some hfind)
    have hkey : r.1 = row.1 := by simpa using find?_some hfind
    rw [lookup_assignAll_eq, hfind, inj_on_of_nodup_map hnd hmem hrow hkey]
    rfl

/-- The table that a loop over another one fills, with at most one row for each row it meets. -/
def collect {W : Type} (f : K → V → Option W) (t : Table K V) : Table K W where
  entries := t.entries.filterMap fun e => (f e.1 e.2).map (Sigma.mk e.1)
  nodupKeys := by
    have hsub : List.Sublist
        (t.entries.filterMap fun e => (f e.1 e.2).map (Sigma.mk (β := fun _ => W) e.1)).keys
        t.entries.keys := by
      induction t.entries with
      | nil => exact List.Sublist.refl _
      | cons e es ih =>
        cases hf : f e.1 e.2 with
        | none =>
          rw [filterMap_cons_none (by rw [hf]; rfl)]
          exact ih.cons _
        | some w =>
          rw [filterMap_cons_some (by rw [hf]; rfl)]
          exact ih.cons_cons _
    exact List.Nodup.sublist hsub t.nodupKeys

theorem lookup_collect {W : Type} (f : K → V → Option W) (t : Table K V) (k : K) :
    (collect f t).lookup k = (t.lookup k).bind (f k) := by
  obtain ⟨entries, hnd⟩ := t
  simp only [collect, AList.lookup]
  induction entries with
  | nil => rfl
  | cons e es ih =>
    obtain ⟨k₀, v⟩ := e
    obtain ⟨hnew, hnd'⟩ := nodupKeys_cons.mp hnd
    have hnone : List.dlookup k₀ es = none := dlookup_eq_none.mpr hnew
    cases hf : f k₀ v with
    | none =>
      rw [filterMap_cons_none (by rw [hf]; rfl), ih hnd']
      by_cases hk : k = k₀
      · subst hk
        rw [dlookup_cons_eq, bind_some, hf, hnone, bind_none]
      · rw [dlookup_cons_ne _ _ hk]
    | some w =>
      rw [filterMap_cons_some (by rw [hf]; rfl)]
      by_cases hk : k = k₀
      · subst hk
        rw [dlookup_cons_eq, dlookup_cons_eq, bind_some, hf]
      · rw [dlookup_cons_ne _ _ hk, dlookup_cons_ne _ _ hk, ih hnd']

def mapEntries (f : K → V → V) (t : Table K V) : Table K V :=
  collect (fun k v => some (f k v)) t

theorem lookup_mapEntries (f : K → V → V) (t : Table K V) (k : K) :
    (mapEntries f t).lookup k = (t.lookup k).map (f k) := by
  rw [mapEntries, lookup_collect]
  cases t.lookup k <;> rfl

def dropKeys (drop : K → Bool) (t : Table K V) : Table K V :=
  collect (fun k v => if drop k then none else some v) t

theorem lookup_dropKeys (drop : K → Bool) (t : Table K V) (k : K) :
    (dropKeys drop t).lookup k = if drop k then none else t.lookup k := by
  rw [dropKeys, lookup_collect]
  cases drop k <;> cases t.lookup k <;> rfl

end Lib
