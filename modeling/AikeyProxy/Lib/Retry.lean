/-!
# Loops that retry until they are done

A loop body goes round again with a new state or ends with a result. If going round lowers a
measure, the loop is a total function, and what holds in every state it visits and follows from its
last step holds of its result.
-/

namespace Lib

variable {S B : Type}

/-- The loop for a bound on the measure. It recurses on the bound, so that it computes. -/
def retryWithin (step : S → S ⊕ B) (size : S → Nat)
    (shrinks : ∀ s s', step s = .inl s' → size s' < size s) :
    (bound : Nat) → (s : S) → size s < bound → B
  | 0, _, h => absurd h (Nat.not_lt_zero _)
  | bound + 1, s, h =>
    match hs : step s with
    | .inr b => b
    | .inl s' => retryWithin step size shrinks bound s'
        (Nat.lt_of_lt_of_le (shrinks s s' hs) (Nat.le_of_lt_succ h))

/-- `for { … }` with a body that shrinks its state whenever it goes round. -/
def retry (step : S → S ⊕ B) (size : S → Nat)
    (shrinks : ∀ s s', step s = .inl s' → size s' < size s) (s : S) : B :=
  retryWithin step size shrinks (size s + 1) s (Nat.lt_succ_self _)

/-- The states the loop is in at the head of its body. -/
inductive Visits (step : S → S ⊕ B) (s : S) : S → Prop
  | start : Visits step s s
  | again {t t' : S} : Visits step s t → step t = .inl t' → Visits step s t'

variable {step : S → S ⊕ B} {size : S → Nat}
  {shrinks : ∀ s s', step s = .inl s' → size s' < size s}

variable {s t : S} {b : B}

/-- **The invariant rule.** -/
theorem Visits.invariant {I : S → Prop} (hstep : ∀ t t', I t → step t = .inl t' → I t')
    (h : Visits step s t) (hs : I s) : I t := by
  induction h with
  | start => exact hs
  | again _ ht ih => exact hstep _ _ ih ht

theorem Visits.ahead {s' : S} (hs : step s = .inl s') (h : Visits step s' t) : Visits step s t := by
  induction h with
  | start => exact .again .start hs
  | again _ ht ih => exact .again ih ht

theorem Visits.head (h : Visits step s t) : t = s ∨ ∃ s', step s = .inl s' ∧ Visits step s' t := by
  induction h with
  | start => exact .inl rfl
  | again _ ht ih =>
    rcases ih with rfl | ⟨s', hs, hvisit⟩
    · exact .inr ⟨_, ht, .start⟩
    · exact .inr ⟨s', hs, .again hvisit ht⟩

theorem Visits.comparable {t' : S} (h : Visits step s t) (h' : Visits step s t') :
    Visits step t t' ∨ Visits step t' t := by
  induction h' with
  | start => exact .inr h
  | again _ hu ih =>
    rcases ih with hlater | hearlier
    · exact .inl (.again hlater hu)
    · rcases hearlier.head with rfl | ⟨u', hu', hvisit⟩
      · exact .inl (.again .start hu)
      · rw [hu] at hu'
        cases Sum.inl.inj hu'
        exact .inr hvisit

theorem Visits.last_unique {t' : S} {b' : B} (h : Visits step s t) (h' : Visits step s t')
    (ht : step t = .inr b) (ht' : step t' = .inr b') : b = b' := by
  have stays : ∀ {u v : S} {c : B}, step u = .inr c → Visits step u v → v = u := by
    intro u v c hu huv
    rcases huv.head with heq | ⟨u', hu', _⟩
    · exact heq
    · rw [hu] at hu'
      exact absurd hu' Sum.inr_ne_inl
  have heq : t' = t := by
    rcases h.comparable h' with hfrom | hfrom
    · exact stays ht hfrom
    · exact (stays ht' hfrom).symm
  rw [heq, ht] at ht'
  exact Sum.inr.inj ht'

theorem retryWithin_of_done {bound : Nat} (h : size s < bound) (hs : step s = .inr b) :
    retryWithin step size shrinks bound s h = b := by
  cases bound with
  | zero => exact absurd h (Nat.not_lt_zero _)
  | succ bound =>
    unfold retryWithin
    split
    next b' hb =>
      rw [hs] at hb
      exact (Sum.inr.inj hb).symm
    next s' hb =>
      rw [hs] at hb
      exact absurd hb Sum.inr_ne_inl

theorem retryWithin_of_again {bound : Nat} {s' : S} (h : size s < bound + 1) (hs : step s = .inl s')
    (h' : size s' < bound) :
    retryWithin step size shrinks (bound + 1) s h = retryWithin step size shrinks bound s' h' := by
  rw [retryWithin]
  split
  next b hb =>
    rw [hs] at hb
    exact absurd hb Sum.inl_ne_inr
  next t hb =>
    rw [hs] at hb
    cases Sum.inl.inj hb
    rfl

theorem retryWithin_last :
    ∀ (bound : Nat) (s : S) (h : size s < bound),
      ∃ t, Visits step s t ∧ step t = .inr (retryWithin step size shrinks bound s h)
  | 0, _, h => absurd h (Nat.not_lt_zero _)
  | bound + 1, s, h => by
    cases hs : step s with
    | inr b =>
      refine ⟨s, .start, ?_⟩
      rw [retryWithin_of_done h hs, hs]
    | inl s' =>
      have hlt : size s' < bound := Nat.lt_of_lt_of_le (shrinks s s' hs) (Nat.le_of_lt_succ h)
      obtain ⟨t, hvisit, hlast⟩ := retryWithin_last bound s' hlt
      refine ⟨t, hvisit.ahead hs, ?_⟩
      rw [retryWithin_of_again h hs hlt]
      exact hlast

/-- **Where a loop ends.** Its result is that of a last step, from a state it visited. -/
theorem retry_last (shrinks : ∀ s s', step s = .inl s' → size s' < size s) (s : S) :
    ∃ t, Visits step s t ∧ step t = .inr (retry step size shrinks s) :=
  retryWithin_last _ s _

theorem retry_eq_of_last (h : Visits step s t) (ht : step t = .inr b) :
    retry step size shrinks s = b := by
  obtain ⟨t', hvisit, hlast⟩ := retry_last shrinks s
  exact (Visits.last_unique h hvisit ht hlast).symm

end Lib
