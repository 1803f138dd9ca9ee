import Mathlib.Data.List.Nodup

/-!
# Numbers handed out in order

One owner that only moves on hands its numbers out in order; several streams of such numbers, told
apart by their keys, never repeat a pair.
-/

namespace Lib

/-- The numbers came out in order, and all of them are below `next`. -/
structure InOrder (issued : List Int) (next : Int) : Prop where
  increasing : issued.Pairwise (· < ·)
  below : ∀ n ∈ issued, n < next

theorem InOrder.nil (next : Int) : InOrder [] next := ⟨.nil, nofun⟩

variable {issued : List Int}

theorem InOrder.mono {next next' : Int} (h : InOrder issued next) (hle : next ≤ next') :
    InOrder issued next' :=
  ⟨h.increasing, fun n hn => Int.lt_of_lt_of_le (h.below n hn) hle⟩

theorem InOrder.snoc {next : Int} (h : InOrder issued next) :
    InOrder (issued ++ [next]) (next + 1) where
  increasing := by
    rw [List.pairwise_append]
    refine ⟨h.increasing, List.pairwise_singleton _ _, fun n hn m hm => ?_⟩
    rw [List.mem_singleton.mp hm]
    exact h.below n hn
  below := by
    intro n hn
    rcases List.mem_append.mp hn with hold | hnew
    · have := h.below n hold
      omega
    · rw [List.mem_singleton.mp hnew]
      omega

theorem nodup_of_keys {K V : Type} [DecidableEq K] {l : List (K × V)}
    (h : ∀ k, ((l.filter fun p => decide (p.1 = k)).map Prod.snd).Nodup) : l.Nodup := by
  induction l with
  | nil => exact .nil
  | cons p l ih =>
    refine List.nodup_cons.mpr ⟨fun hin => ?_, ih fun k => ?_⟩
    · have hp := h p.1
      simp only [List.filter_cons, decide_true, if_true, List.map_cons, List.nodup_cons] at hp
      exact hp.1 (List.mem_map_of_mem (List.mem_filter.mpr ⟨hin, decide_eq_true rfl⟩))
    · have hk := h k
      rw [List.filter_cons] at hk
      split at hk
      · exact (List.nodup_cons.mp hk).2
      · exact hk

end Lib
