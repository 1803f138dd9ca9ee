import AikeyProxy.Lib.Table
import Mathlib.Data.Finset.Card
import Mathlib.Logic.Relation

/-!
# Readings that are closed with a zero

A source reads a value per key in windows. A key that was active in a window and is not in the next
one is read once more, as zero. Readings wait in a retry buffer until a delivery succeeds, and are
joined there with older ones.

`Trend` is what one key sees of source, buffer and receiver, and by `Trend.Closes` whatever is not
zero yet will still be followed by a zero.
-/

namespace Lib

open List AList Option

/-! ## A bounded retry buffer -/

section Retry

variable {K V : Type} [DecidableEq K]

/-- The values waiting by key, the keys that have a place, and how many values found none. -/
structure Retry (K V : Type) where
  places : Finset K
  values : Table K V
  dropped : Nat

/-- Take a value in: a key that is not waiting yet needs a place. -/
def Retry.merge (cap : Nat) (join : Option V → V → V) (b : Retry K V) (row : K × V) :
    Retry K V :=
  let values := b.values.insert row.1 (join (b.values.lookup row.1) row.2)
  if row.1 ∈ b.values then { b with values }
  else if row.1 ∈ b.places ∨ b.places.card < cap then
    { b with places := insert row.1 b.places, values }
  else { b with dropped := b.dropped + 1 }

def Retry.mergeAll (cap : Nat) (join : Option V → V → V) (b : Retry K V)
    (rows : List (K × V)) : Retry K V :=
  rows.foldl (Retry.merge cap join) b

variable {cap : Nat} {join : Option V → V → V}

theorem Retry.merge_places (cap : Nat) (join : Option V → V → V) (b : Retry K V) (row : K × V) :
    b.places ⊆ (b.merge cap join row).places ∧
      (b.merge cap join row).places ⊆ insert row.1 b.places := by
  unfold Retry.merge
  split
  · exact ⟨Finset.Subset.refl _, Finset.subset_insert _ _⟩
  · split
    · exact ⟨Finset.subset_insert _ _, Finset.Subset.refl _⟩
    · exact ⟨Finset.Subset.refl _, Finset.subset_insert _ _⟩

variable {k : K}

theorem Retry.merge_lookup_ne (b : Retry K V) {row : K × V} (hk : k ≠ row.1) :
    (b.merge cap join row).values.lookup k = b.values.lookup k := by
  unfold Retry.merge
  split
  · exact lookup_insert_ne hk
  · split
    · exact lookup_insert_ne hk
    · rfl

theorem Retry.merge_lookup_self (b : Retry K V) {row : K × V}
    (hroom : row.1 ∈ b.values ∨ row.1 ∈ b.places ∨ b.places.card < cap) :
    (b.merge cap join row).values.lookup row.1 =
      some (join (b.values.lookup row.1) row.2) := by
  unfold Retry.merge
  split
  next => exact lookup_insert _
  next hnew =>
    rw [if_pos (hroom.resolve_left hnew)]
    exact lookup_insert _

theorem Retry.mergeAll_places (cap : Nat) (join : Option V → V → V) :
    ∀ (rows : List (K × V)) (b : Retry K V), b.places ⊆ (b.mergeAll cap join rows).places ∧
      (b.mergeAll cap join rows).places ⊆ b.places ∪ (rows.map Prod.fst).toFinset := by
  intro rows
  induction rows with
  | nil =>
    intro b
    refine ⟨Finset.Subset.refl _, ?_⟩
    rw [map_nil, toFinset_nil, Finset.union_empty]
    exact Finset.Subset.refl _
  | cons row rows ih =>
    intro b
    obtain ⟨hup, hsub⟩ := ih (b.merge cap join row)
    obtain ⟨hup₁, hsub₁⟩ := Retry.merge_places cap join b row
    refine ⟨hup₁.trans hup, hsub.trans ?_⟩
    rw [map_cons, toFinset_cons, Finset.union_insert, ← Finset.insert_union]
    exact Finset.union_subset_union hsub₁ (Finset.Subset.refl _)

theorem Retry.mergeAll_lookup_of_notMem :
    ∀ (rows : List (K × V)) (b : Retry K V), k ∉ rows.map Prod.fst →
      (b.mergeAll cap join rows).values.lookup k = b.values.lookup k := by
  intro rows
  induction rows with
  | nil => intro b _; rfl
  | cons row rows ih =>
    intro b hk
    rw [map_cons, mem_cons, not_or] at hk
    have hrest := ih (b.merge cap join row) hk.2
    rw [b.merge_lookup_ne hk.1] at hrest
    exact hrest

/-- A key with one row, and room for it, has that row joined with what was waiting. -/
theorem Retry.mergeAll_lookup {v : V} :
    ∀ (rows : List (K × V)) (b : Retry K V), (rows.map Prod.fst).Nodup → (k, v) ∈ rows →
      (k ∈ b.places ∨ (b.places ∪ (rows.map Prod.fst).toFinset).card ≤ cap) →
      (b.mergeAll cap join rows).values.lookup k = some (join (b.values.lookup k) v) := by
  intro rows
  induction rows with
  | nil => intro b _ hmem; cases hmem
  | cons row rows ih =>
    intro b hnd hmem hroom
    rw [map_cons, nodup_cons] at hnd
    have hcons : b.mergeAll cap join (row :: rows) = (b.merge cap join row).mergeAll cap join rows :=
      rfl
    rw [hcons]
    rcases mem_cons.mp hmem with hhead | htail
    · subst hhead
      rw [Retry.mergeAll_lookup_of_notMem rows _ hnd.1]
      refine b.merge_lookup_self (.inr ?_)
      by_cases hplace : k ∈ b.places
      · exact .inl hplace
      · refine .inr (Nat.lt_of_lt_of_le ?_ (hroom.resolve_left hplace))
        refine Finset.card_lt_card (Finset.ssubset_iff_subset_ne.mpr
          ⟨Finset.subset_union_left, ?_⟩)
        intro heq
        rw [heq] at hplace
        exact hplace (Finset.mem_union_right _ (by simp))
    · have hne : k ≠ row.1 := by
        intro heq
        rw [← heq] at hnd
        exact hnd.1 (mem_map.mpr ⟨(k, v), htail, rfl⟩)
      obtain ⟨hup, hsub⟩ := Retry.merge_places cap join b row
      rw [ih (b.merge cap join row) hnd.2 htail, b.merge_lookup_ne hne]
      rcases hroom with hplace | hcard
      · exact .inl (hup hplace)
      · refine .inr (Nat.le_trans (Finset.card_le_card ?_) hcard)
        rw [map_cons, toFinset_cons, Finset.union_insert, ← Finset.insert_union]
        exact Finset.union_subset_union hsub (Finset.Subset.refl _)

end Retry

/-! ## What one key sees -/

section Trend

variable {V : Type}

/-- Whether the key is active in the window now open and in the one before, the reading that
waits for it and the last one delivered. -/
structure Trend (V : Type) where
  current : Bool
  previous : Bool
  pending : Option V
  last : Option V

/-- What happens to a key: it becomes active; a window in which it was active ends; one in which it
was not ends and a zero waits; what waits is delivered, with or without the buffer learning of it.
-/
inductive Trend.Move (zero : V → Prop) : Trend V → Trend V → Prop
  | activity (t : Trend V) : Move zero t { t with current := true }
  | window (t : Trend V) (pending : Option V) :
      Move zero t { t with current := false, previous := true, pending }
  | close (t : Trend V) (v : V) : t.current = false → zero v →
      Move zero t { t with previous := false, pending := some v }
  | send (t : Trend V) : Move zero t { t with last := t.pending.or t.last }
  | deliver (t : Trend V) : Move zero t { t with pending := none, last := t.pending.or t.last }

abbrev Trend.Moves (zero : V → Prop) : Trend V → Trend V → Prop :=
  Relation.ReflTransGen (Trend.Move zero)

structure Trend.Closes (zero : V → Prop) (t : Trend V) : Prop where
  pending : ∀ v, t.pending = some v → ¬zero v → t.previous = true
  last : ∀ v, t.last = some v → ¬zero v →
    t.previous = true ∨ ∃ w, t.pending = some w ∧ zero w

def Trend.Seen (t : Trend V) : Prop :=
  t.current = true ∨ t.previous = true ∨ t.pending.isSome = true ∨ t.last.isSome = true

variable {zero : V → Prop} {t t' : Trend V}

theorem Trend.Closes.of_none (hp : t.pending = none) (hl : t.last = none) : t.Closes zero := by
  constructor <;> simp [hp, hl]

theorem Trend.Closes.delivered (h : t.Closes zero) {v : V}
    (hv : t.pending.or t.last = some v) (hz : ¬zero v) : t.previous = true := by
  cases hp : t.pending with
  | some w =>
    rw [hp, some_or] at hv
    obtain rfl : w = v := some.inj hv
    exact h.pending w hp hz
  | none =>
    rw [hp, none_or] at hv
    rcases h.last v hv hz with hprev | ⟨w, hw, -⟩
    · exact hprev
    · rw [hp] at hw
      cases hw

theorem Trend.Closes.move (h : t.Closes zero) (hm : Trend.Move zero t t') : t'.Closes zero := by
  cases hm with
  | activity => exact ⟨h.pending, h.last⟩
  | window pending => exact ⟨fun _ _ _ => rfl, fun _ _ _ => .inl rfl⟩
  | close v hcur hv =>
    refine ⟨?_, fun _ _ _ => .inr ⟨v, rfl, hv⟩⟩
    intro w hw hz
    obtain rfl : v = w := some.inj hw
    exact absurd hv hz
  | send => exact ⟨h.pending, fun v hv hz => .inl (h.delivered hv hz)⟩
  | deliver =>
    refine ⟨?_, fun v hv hz => .inl (h.delivered hv hz)⟩
    intro v hv
    cases hv

theorem Trend.Closes.moves (h : t.Closes zero) (hm : Trend.Moves zero t t') : t'.Closes zero := by
  induction hm with
  | refl => exact h
  | tail _ hlast ih => exact ih.move hlast

theorem Trend.moves_activity {p q : Prop} [Decidable p] [Decidable q] {x : Prop}
    (h : q ↔ x ∨ p) (ht : t.current = decide p) :
    Trend.Moves zero t { t with current := decide q } := by
  by_cases hx : x
  · rw [decide_eq_true (h.mpr (.inl hx))]
    exact .single (.activity t)
  · rw [decide_eq_decide.mpr (h.trans (or_iff_right hx)), ← ht]

theorem Trend.Seen.move (h : t.Seen) (hm : Trend.Move zero t t') : t'.Seen := by
  cases hm with
  | activity => exact .inl rfl
  | window pending => exact .inr (.inl rfl)
  | close v hcur hv => exact .inr (.inr (.inl rfl))
  | send | deliver =>
    simp only [Trend.Seen, isSome_or, Bool.or_eq_true] at h ⊢
    tauto

theorem Trend.Seen.moves (h : t.Seen) (hm : Trend.Moves zero t t') : t'.Seen := by
  induction hm with
  | refl => exact h
  | tail _ hlast ih => exact ih.move hlast

theorem Trend.Seen.last_isSome (h : t.Seen) (hcur : t.current = false) (hprev : t.previous = false)
    (hpend : t.pending = none) : t.last.isSome = true := by
  simpa [Trend.Seen, hcur, hprev, hpend] using h

/-- Once nothing waits and no zero is to come, the last reading delivered is a zero. -/
theorem Trend.Closes.last_zero (h : t.Closes zero) (hprev : t.previous = false)
    (hpend : t.pending = none) {v : V} (hv : t.last = some v) : zero v := by
  by_contra hz
  rcases h.last v hv hz with hp | ⟨w, hw, -⟩
  · rw [hprev] at hp
    cases hp
  · rw [hpend] at hw
    cases hw

end Trend

section Window

variable {K V : Type} [DecidableEq K] {zero : V → Prop}

/-- A window ends: the keys active in it or in the one before are read. The key `k` makes a move if
its zero, when due, is joined with a zero and finds room. -/
theorem Retry.window_moves (cap : Nat) (join : Option V → V → V) (b : Retry K V)
    {order : List K} {cur prev : Finset K} (val : K → V)
    (hnd : order.Nodup) (horder : order.toFinset = cur ∪ prev) {k : K} {active : Bool}
    (hactive : active = true → k ∈ cur) (last : Option V)
    (hclose : k ∈ prev → k ∉ cur → zero (join (b.values.lookup k) (val k)) ∧
      (k ∈ b.places ∨ (b.places ∪ order.toFinset).card ≤ cap)) :
    Trend.Moves zero ⟨active, decide (k ∈ prev), b.values.lookup k, last⟩
      ⟨false, decide (k ∈ cur),
        (b.mergeAll cap join (order.map fun k => (k, val k))).values.lookup k, last⟩ := by
  have hkeys : (order.map fun k => (k, val k)).map Prod.fst = order := by
    rw [List.map_map]
    exact map_id order
  have hmem : k ∈ order ↔ k ∈ cur ∨ k ∈ prev := by
    rw [← List.mem_toFinset, horder, Finset.mem_union]
  by_cases hcur : k ∈ cur
  · rw [decide_eq_true hcur]
    exact .single (.window ⟨active, decide (k ∈ prev), b.values.lookup k, last⟩ _)
  · have hoff : active = false := Bool.eq_false_iff.mpr fun h => hcur (hactive h)
    subst hoff
    rw [decide_eq_false hcur]
    by_cases hprev : k ∈ prev
    · obtain ⟨hzero, hroom⟩ := hclose hprev hcur
      rw [Retry.mergeAll_lookup _ b (by rw [hkeys]; exact hnd)
        (mem_map.mpr ⟨k, hmem.mpr (.inr hprev), rfl⟩) (by rw [hkeys]; exact hroom)]
      exact .single (.close ⟨false, decide (k ∈ prev), b.values.lookup k, last⟩ _ rfl hzero)
    · have hout : k ∉ order := by
        rw [hmem]
        tauto
      rw [Retry.mergeAll_lookup_of_notMem _ b (by rw [hkeys]; exact hout), decide_eq_false hprev]

end Window

end Lib
