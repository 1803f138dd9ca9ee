import Mathlib.Data.List.Basic

/-!
# Recency lists

A bounded map whose least recently used entry is given up, its entries in the order of their last
use. Every operation hands on entries it found or the one it was given.
-/

namespace Lib

structure Lru (K V : Type) where
  capacity : Nat
  entries : List (K × V)

namespace Lru

variable {K V : Type} [DecidableEq K]

def empty (capacity : Nat) : Lru K V := ⟨capacity, []⟩

def get? (c : Lru K V) (k : K) : Option V := (c.entries.find? fun e => e.1 = k).map Prod.snd

def remove (c : Lru K V) (k : K) : Lru K V :=
  { c with entries := c.entries.filter fun e => e.1 ≠ k }

/-- Assign a value and make it the latest; beyond the capacity the oldest entry goes. -/
def put (c : Lru K V) (k : K) (v : V) : Lru K V :=
  { c with entries := ((k, v) :: (c.remove k).entries).take c.capacity }

def All (P : K → V → Prop) (c : Lru K V) : Prop := ∀ e ∈ c.entries, P e.1 e.2

variable {P : K → V → Prop} {c : Lru K V}

omit [DecidableEq K] in
theorem All.empty (capacity : Nat) : All P (Lru.empty capacity) := nofun

theorem All.get? (h : All P c) {k : K} {v : V} (hget : c.get? k = some v) : P k v := by
  obtain ⟨e, he, rfl⟩ := Option.map_eq_some_iff.mp hget
  have hk : e.1 = k := by simpa using List.find?_some he
  rw [← hk]
  exact h e (List.mem_of_find?_eq_some he)

theorem All.remove (h : All P c) (k : K) : All P (c.remove k) :=
  fun e he => h e (List.mem_of_mem_filter he)

theorem All.put (h : All P c) {k : K} {v : V} (hv : P k v) : All P (c.put k v) := by
  intro e he
  rcases List.mem_cons.mp (List.mem_of_mem_take he) with rfl | he
  · exact hv
  · exact h.remove k e he

end Lru

end Lib
