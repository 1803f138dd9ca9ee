import Mathlib.Data.List.Forall2
import Mathlib.Data.List.TakeDrop
import Mathlib.Data.List.TakeWhile

/-!
# Sequences of greedy repetitions

A pattern is a list of items `cls{lo,hi}`. `matchSeq` matches one at the head of a text as a
backtracking engine does: every item takes all it can and gives characters back one by one while the
items after it fail.
-/

namespace Lib

open List

variable {α β : Type}

/-- One item of a pattern; no `hi` is no upper bound. -/
structure Rep (α : Type) where
  cls : α → Bool
  lo : Nat
  hi : Option Nat

namespace Rep

variable (cls : α → Bool)

def one : Rep α := ⟨cls, 1, some 1⟩

def opt : Rep α := ⟨cls, 0, some 1⟩

def many : Rep α := ⟨cls, 0, none⟩

def within (lo hi : Nat) : Rep α := ⟨cls, lo, some hi⟩

/-- Whether an item that has read `n` characters may read another one. -/
def room (e : Rep α) (n : Nat) : Bool :=
  match e.hi with
  | none => true
  | some h => n < h

/-- The most characters the item can read at the head of `s`. -/
def span (e : Rep α) (s : List α) : Nat :=
  match e.hi with
  | none => (s.takeWhile e.cls).length
  | some h => min (s.takeWhile e.cls).length h

theorem span_le_length (e : Rep α) (s : List α) : e.span s ≤ s.length := by
  have hle : (s.takeWhile e.cls).length ≤ s.length := ( takeWhile_prefix _).length_le
  unfold span
  cases e.hi with
  | none => exact hle
  | some h => exact Nat.le_trans (Nat.min_le_left _ _) hle

end Rep

def firstDown (f : Nat → Option β) (lo : Nat) : Nat → Option β
  | 0 => if lo = 0 then f 0 else none
  | n + 1 =>
    if lo ≤ n + 1 then
      match f (n + 1) with
      | some r => some r
      | none => firstDown f lo n
    else none

variable {lo : Nat} {f : Nat → Option β}

theorem firstDown_top {n : Nat} {r : β} (hlo : lo ≤ n) (h : f n = some r) :
    firstDown f lo n = some r := by
  cases n with
  | zero => rw [firstDown, if_pos (Nat.le_zero.mp hlo), h]
  | succ n => rw [firstDown, if_pos hlo, h]

theorem exists_of_firstDown {r : β} {n : Nat} (h : firstDown f lo n = some r) :
    ∃ k, lo ≤ k ∧ k ≤ n ∧ f k = some r := by
  fun_induction firstDown f lo n with
  | case1 hlo => exact ⟨0, Nat.le_of_eq hlo, Nat.le_refl 0, h⟩
  | case2 | case5 => cases h
  | case3 n hlo r' hf =>
    cases h
    exact ⟨n + 1, hlo, Nat.le_refl _, hf⟩
  | case4 n hlo hf ih =>
    obtain ⟨k, hk, hkn, hfk⟩ := ih h
    exact ⟨k, hk, Nat.le_succ_of_le hkn, hfk⟩

/-- Match the items in order at the head of `s` and then `fin` on what is left: the characters
of each item, and the rest. -/
def matchSeq (fin : List α → Bool) : List (Rep α) → List α → Option (List (List α) × List α)
  | [], s => if fin s then some ([], s) else none
  | e :: es, s =>
    firstDown (fun k => (matchSeq fin es (s.drop k)).map fun m => (s.take k :: m.1, m.2))
      e.lo (e.span s)

section Matching

variable {fin : List α → Bool} {e : Rep α} {es : List (Rep α)}

section

variable {es : List (Rep α)} {s : List α} {pieces : List (List α)} {rest : List α}

theorem matchSeq_flatten
    (h : matchSeq fin es s = some (pieces, rest)) : pieces.flatten ++ rest = s := by
  fun_induction matchSeq fin es s generalizing pieces rest with
  | case1 => cases h; rfl
  | case2 => cases h
  | case3 e es s ih =>
    obtain ⟨k, -, -, hk⟩ := exists_of_firstDown h
    obtain ⟨⟨ps, r⟩, hm, heq⟩ := Option.map_eq_some_iff.mp hk
    cases heq
    rw [flatten_cons, append_assoc, ih k hm, take_append_drop]

theorem matchSeq_sound (h : matchSeq fin es s = some (pieces, rest)) :
    List.Forall₂ (fun e p => e.lo ≤ p.length ∧ ∀ c ∈ p, e.cls c = true) es pieces ∧
      fin rest = true := by
  fun_induction matchSeq fin es s generalizing pieces rest with
  | case1 s hf =>
    cases h
    exact ⟨.nil, hf⟩
  | case2 => cases h
  | case3 e es s ih =>
    obtain ⟨k, hlo, hspan, hk⟩ := exists_of_firstDown h
    obtain ⟨⟨ps, r⟩, hm, heq⟩ := Option.map_eq_some_iff.mp hk
    cases heq
    obtain ⟨hps, hfin⟩ := ih k hm
    refine ⟨.cons ⟨?_, fun c hc => ?_⟩ hps, hfin⟩
    · rw [length_take, Nat.min_eq_left (hspan.trans (e.span_le_length s))]
      exact hlo
    · have hle : k ≤ (s.takeWhile e.cls).length := by
        unfold Rep.span at hspan
        split at hspan <;> omega
      have hpre : s.take k <+: s.takeWhile e.cls := by
        refine prefix_of_prefix_length_le ( take_prefix k s) ( takeWhile_prefix _) ?_
        rw [length_take]
        omega
      exact mem_takeWhile_imp (hpre.subset hc)

end

variable {rest s : List α} {pieces : List (List α)} {c : α} {cls : α → Bool}

theorem span_append {a : List α} (hcls : ∀ c ∈ a, e.cls c = true)
    (hstop : e.hi = some a.length ∨ (e.room a.length = true ∧ ∀ c ∈ s.head?, e.cls c = false)) :
    e.span (a ++ s) = a.length := by
  have htake : (a ++ s).takeWhile e.cls = a ++ s.takeWhile e.cls := by
    rw [takeWhile_append_of_pos hcls]
  rcases hstop with hhi | ⟨hroom, hhead⟩
  · simp only [Rep.span, hhi, htake, length_append]
    omega
  · have hnil : s.takeWhile e.cls = [] := by
      cases s with
      | nil => rfl
      | cons c s => exact takeWhile_cons_of_neg (by simp [hhead c rfl])
    unfold Rep.span
    unfold Rep.room at hroom
    cases hhi : e.hi with
    | none => simp only [htake, hnil, append_nil]
    | some h =>
      simp only [hhi, decide_eq_true_eq] at hroom
      simp only [htake, hnil, append_nil]
      omega

/-- **Greedy success.** When the items after `e` match what follows the longest reading of `e`,
that reading is the match. -/
theorem matchSeq_cons {a : List α} (hcls : ∀ c ∈ a, e.cls c = true) (hlo : e.lo ≤ a.length)
    (hstop : e.hi = some a.length ∨ (e.room a.length = true ∧ ∀ c ∈ s.head?, e.cls c = false))
    (h : matchSeq fin es s = some (pieces, rest)) :
    matchSeq fin (e :: es) (a ++ s) = some (a :: pieces, rest) := by
  rw [matchSeq, span_append hcls hstop]
  refine firstDown_top hlo ?_
  rw [drop_left, take_left, h]
  rfl

theorem matchSeq_one (hc : cls c = true) (h : matchSeq fin es s = some (pieces, rest)) :
    matchSeq fin (.one cls :: es) (c :: s) = some ([c] :: pieces, rest) :=
  matchSeq_cons (a := [c]) (by simpa [Rep.one] using hc) (Nat.le_refl 1) (.inl rfl) h

theorem matchSeq_opt_take (hc : cls c = true) (h : matchSeq fin es s = some (pieces, rest)) :
    matchSeq fin (.opt cls :: es) (c :: s) = some ([c] :: pieces, rest) :=
  matchSeq_cons (a := [c]) (by simpa [Rep.opt] using hc) (Nat.zero_le _) (.inl rfl) h

theorem matchSeq_opt_skip (hc : cls c = false)
    (h : matchSeq fin es (c :: s) = some (pieces, rest)) :
    matchSeq fin (.opt cls :: es) (c :: s) = some ([] :: pieces, rest) :=
  matchSeq_cons (a := []) (by simp) (Nat.zero_le _)
    (.inr ⟨rfl, by simpa [Rep.opt] using hc⟩) h

theorem matchSeq_eq_none (hlo : 0 < e.lo) (hc : e.cls c = false) :
    matchSeq fin (e :: es) (c :: s) = none := by
  have hspan : e.span (c :: s) = 0 := by
    unfold Rep.span
    rw [takeWhile_cons_of_neg (by simp [hc])]
    cases e.hi <;> simp
  rw [matchSeq, hspan, firstDown, if_neg (by omega)]

/-- An item that has to read something finds it in the text. -/
theorem exists_mem_of_matchSeq (he : e ∈ es) (hlo : 0 < e.lo)
    (h : matchSeq fin es s = some (pieces, rest)) : ∃ c ∈ s, e.cls c = true := by
  obtain ⟨hlen, hget⟩ := forall₂_iff_get.mp (matchSeq_sound h).1
  obtain ⟨i, hi, rfl⟩ := getElem_of_mem he
  obtain ⟨hread, hcls⟩ := hget i hi (hlen ▸ hi)
  obtain ⟨c, hc⟩ := exists_mem_of_length_pos (Nat.lt_of_lt_of_le hlo hread)
  refine ⟨c, ?_, hcls c hc⟩
  rw [← matchSeq_flatten h]
  exact mem_append_left _ (mem_flatten.mpr ⟨_, get_mem _ _, hc⟩)

end Matching

end Lib
