import Mathlib.Data.List.Basic

/-!
# Threads and the counter of a region

A list of program counters, one per thread, and a shared counter that a thread raises when it enters
a region and lowers when it leaves. `Counts` says that the counter is the number of threads inside.
-/

namespace Lib

open List

variable {P : Type}

theorem countP_set {q : P → Bool} {ts : List P} {i : Nat} {old : P} (h : ts[i]? = some old)
    (new : P) : (ts.set i new).countP q + (q old).toNat = ts.countP q + (q new).toNat := by
  obtain ⟨hi, hget⟩ := List.getElem?_eq_some_iff.mp h
  obtain ⟨pre, post, hts, -, hset⟩ : ∃ pre post, ts = pre ++ ts[i] :: post ∧ pre.length = i ∧
      ts.set i new = pre ++ new :: post := exists_of_set hi
  rw [hset, hts, hget]
  simp only [countP_append, countP_cons]
  cases q old <;> cases q new <;> simp <;> omega

theorem mem_set_of_mem {ts : List P} {i : Nat} {old t : P} (h : ts[i]? = some old) (new : P)
    (ht : t ∈ ts) : t = old ∨ t ∈ ts.set i new := by
  obtain ⟨j, hj⟩ := mem_iff_getElem?.mp ht
  by_cases hij : i = j
  · subst hij
    rw [h] at hj
    exact Or.inl (Option.some.inj hj).symm
  · right
    refine mem_iff_getElem?.mpr ⟨j, ?_⟩
    rw [getElem?_set_ne hij, hj]

theorem mem_set_self {ts : List P} {i : Nat} {old : P} (h : ts[i]? = some old) (new : P) :
    new ∈ ts.set i new :=
  mem_set (List.getElem?_eq_some_iff.mp h).1 new

theorem getElem?_set_of_some {ts : List P} {i : Nat} {old : P} (h : ts[i]? = some old) (new : P) :
    (ts.set i new)[i]? = some new :=
  getElem?_set_self (List.getElem?_eq_some_iff.mp h).1

theorem getElem?_set_cases {ts : List P} {i j : Nat} {new t : P} (h : (ts.set i new)[j]? = some t) :
    j = i ∧ t = new ∨ j ≠ i ∧ ts[j]? = some t := by
  rw [getElem?_set] at h
  split at h
  next hij =>
    split at h <;> cases h
    exact .inl ⟨hij.symm, rfl⟩
  next hij => exact .inr ⟨Ne.symm hij, h⟩

def Counts (inside : P → Bool) (ts : List P) (n : Int) : Prop := n = ts.countP inside

variable {inside : P → Bool} {ts : List P} {n : Int} {i : Nat} {old new : P}

theorem Counts.spawn (h : Counts inside ts n) (hnew : inside new = false) :
    Counts inside (ts ++ [new]) n := by
  unfold Counts at h ⊢
  rw [h, countP_append]
  simp [hnew]

section

variable (h : Counts inside ts n) (hi : ts[i]? = some old)

include h hi

theorem Counts.move (new : P) :
    Counts inside (ts.set i new) (n + (inside new).toNat - (inside old).toNat) := by
  have hmove := countP_set (q := inside) hi new
  unfold Counts at h ⊢
  omega

theorem Counts.enter (hold : inside old = false)
    (hnew : inside new = true) : Counts inside (ts.set i new) (n + 1) := by
  simpa [hold, hnew] using h.move hi new

theorem Counts.leave (hold : inside old = true)
    (hnew : inside new = false) : Counts inside (ts.set i new) (n - 1) := by
  simpa [hold, hnew] using h.move hi new

theorem Counts.stay (hsame : inside old = inside new) : Counts inside (ts.set i new) n := by
  simpa [hsame] using h.move hi new

end

theorem Counts.none_inside (h : Counts inside ts 0) : ∀ t ∈ ts, inside t = false := by
  intro t ht
  have hzero : ts.countP inside = 0 := by unfold Counts at h; omega
  simpa using countP_eq_zero.mp hzero t ht

/-- With room for one thread inside, a thread inside keeps all others out, wherever it
moves to. -/
theorem Counts.others_outside (h : Counts inside ts n) (hn : n ≤ 1) (hi : ts[i]? = some old)
    (hold : inside old = true) (new : P) : ∀ t ∈ ts.set i new, t = new ∨ inside t = false := by
  obtain ⟨hlt, hget⟩ := List.getElem?_eq_some_iff.mp hi
  obtain ⟨pre, post, hts, -, hset⟩ : ∃ pre post, ts = pre ++ ts[i] :: post ∧ pre.length = i ∧
      ts.set i new = pre ++ new :: post := exists_of_set hlt
  unfold Counts at h
  rw [hts, countP_append, countP_cons, hget, hold] at h
  simp only [if_true] at h
  have hpre : pre.countP inside = 0 := by omega
  have hpost : post.countP inside = 0 := by omega
  intro t ht
  rw [hset, mem_append, mem_cons] at ht
  rcases ht with ht | ht | ht
  · exact Or.inr (by simpa using countP_eq_zero.mp hpre t ht)
  · exact Or.inl ht
  · exact Or.inr (by simpa using countP_eq_zero.mp hpost t ht)

/-! ## Locks

A flag that is up exactly while a thread is inside: the counter of a region with room for
one. -/

variable {lock : Bool}

section

variable (h : Counts inside ts lock.toNat)

include h

theorem Counts.lock_free (hfree : lock = false) : ∀ t ∈ ts, inside t = false := by
  rw [hfree] at h
  exact h.none_inside

theorem Counts.lock_taken (hi : ts[i]? = some old) (hold : inside old = true) : lock = true := by
  by_contra hno
  have hout := h.lock_free (Bool.eq_false_iff.mpr hno) old (mem_of_getElem? hi)
  rw [hold] at hout
  cases hout

theorem Counts.lock_others (hi : ts[i]? = some old)
    (hold : inside old = true) (new : P) : ∀ t ∈ ts.set i new, t = new ∨ inside t = false := by
  have hone : (lock.toNat : Int) ≤ 1 := by cases lock <;> simp
  exact h.others_outside hone hi hold new

theorem Counts.lock_acquire (hfree : lock = false)
    (hi : ts[i]? = some old) (hold : inside old = false) (hnew : inside new = true) :
    Counts inside (ts.set i new) true.toNat := by
  have henter := h.enter hi hold hnew
  rw [hfree] at henter
  exact henter

theorem Counts.lock_release (hi : ts[i]? = some old)
    (hold : inside old = true) (hnew : inside new = false) :
    Counts inside (ts.set i new) false.toNat := by
  have hleave := h.leave hi hold hnew
  rw [h.lock_taken hi hold] at hleave
  exact hleave

end

end Lib
