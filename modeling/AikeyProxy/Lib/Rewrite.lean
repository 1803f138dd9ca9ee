import Mathlib.Data.List.Find

/-!
# Rewriting a text from the left

`rewrite tok` replaces the leftmost matches of a text that do not overlap: `tok s` is the match at
the head of `s`, as its length and its replacement.
-/

namespace Lib

open List

variable {α : Type}

/-- Rewrite the matches of `tok` from the left, the first `skip` characters having been
matched already. -/
def rewrite (tok : List α → Option (Nat × List α)) : Nat → List α → List α
  | _, [] => []
  | skip + 1, _ :: s => rewrite tok skip s
  | 0, c :: s =>
    match tok (c :: s) with
    | some (n, new) => new ++ rewrite tok (n - 1) s
    | none => c :: rewrite tok 0 s

theorem rewrite_skip (tok : List α → Option (Nat × List α)) (a s : List α) :
    rewrite tok a.length (a ++ s) = rewrite tok 0 s := by
  induction a with
  | nil => rfl
  | cons c a ih => exact ih

variable {tok : List α → Option (Nat × List α)}

theorem rewrite_match {a s new : List α} (ha : a ≠ []) (h : tok (a ++ s) = some (a.length, new)) :
    rewrite tok 0 (a ++ s) = new ++ rewrite tok 0 s := by
  cases a with
  | nil => exact absurd rfl ha
  | cons c a =>
    rw [cons_append] at h ⊢
    rw [rewrite, h]
    exact congrArg (new ++ ·) (rewrite_skip tok a s)

theorem rewrite_plain {a : List α} (h : ∀ c ∈ a, ∀ s, tok (c :: s) = none) (s : List α) :
    rewrite tok 0 (a ++ s) = a ++ rewrite tok 0 s := by
  induction a with
  | nil => rfl
  | cons c a ih =>
    rw [cons_append, rewrite, h c mem_cons_self]
    exact congrArg (c :: ·) (ih fun d hd => h d (mem_cons_of_mem _ hd))

theorem rewrite_self {s : List α} (h : ∀ u, u <:+ s → tok u = none) : rewrite tok 0 s = s := by
  induction s with
  | nil => rfl
  | cons c s ih =>
    rw [rewrite, h _ ( suffix_refl _)]
    exact congrArg (c :: ·) (ih fun u hu => h u (hu.trans ( suffix_cons c s)))

/-- The match of the first pair, in the order given, whose old text is at the head of `s`. -/
def pairTok [BEq α] (pairs : List (List α × List α)) (s : List α) : Option (Nat × List α) :=
  (pairs.find? fun p => !p.1.isEmpty && p.1.isPrefixOf s).map fun p => (p.1.length, p.2)

end Lib
