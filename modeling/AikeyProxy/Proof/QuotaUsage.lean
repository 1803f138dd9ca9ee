import AikeyProxy.Proof.QuotaRestart

/-!
# Usage within a period

As long as nothing negative is added, no increment is ever negative, and a new baseline never takes
anything away: what it does not cover of the amount used so far stays in the increment.
-/

namespace AikeyProxy.Quota

open Lib Counter

variable {s s' : QuotaWorld} {op : QuotaOp} {x : Cell}

/-- The calls of one process on its counter, with amounts that are not negative. -/
def Accrues (_ : QuotaWorld) : QuotaOp → Prop
  | .add _ delta => 0 ≤ delta
  | .restart _ _ _ => False
  | _ => True

def QuotaWorld.Nonneg (s : QuotaWorld) : Prop := ∀ k, 0 ≤ s.counter.incrementAt k

/-- No amount used goes down, and a baseline leaves the larger of what was used and itself. -/
structure UsageGrows (s : QuotaWorld) (op : QuotaOp) (s' : QuotaWorld) : Prop where
  mono : ∀ k, s.counter.get k ≤ s'.counter.get k
  baseline : ∀ k b, op = .setBaseline k b → s'.counter.get k = max (s.counter.get k) b

theorem adopt_used (h : 0 ≤ x.increment) (b : ℚ) :
    (x.adopt b).baseline + (x.adopt b).increment = max (x.baseline + x.increment) b ∧
      0 ≤ (x.adopt b).increment := by
  unfold Cell.adopt
  split
  next heq =>
    subst heq
    exact ⟨(max_eq_left (by linarith)).symm, h⟩
  next =>
    dsimp only
    split
    next hle => exact ⟨by rw [max_eq_right hle, add_zero], le_refl 0⟩
    next hlt =>
      have hlt' := not_le.mp hlt
      exact ⟨by rw [max_eq_left hlt'.le, add_sub_cancel], by linarith⟩

theorem setCell_grows {c : Counter} {k : BucketKey} (hc : ∀ k, 0 ≤ c.incrementAt k)
    (hused : c.baselineAt k + c.incrementAt k ≤ x.baseline + x.increment)
    (hinc : 0 ≤ x.increment) (k' : BucketKey) :
    c.get k' ≤ (c.setCell k x).get k' ∧ 0 ≤ (c.setCell k x).incrementAt k' := by
  rw [get_eq, get_eq]
  by_cases hk : counterKey k' = counterKey k
  · rw [(amounts_congr (c := c) hk).1, (amounts_congr (c := c) hk).2]
    unfold baselineAt incrementAt at hused ⊢
    rw [cellAt_setCell hk]
    exact ⟨hused, hinc⟩
  · have hsame := cellAt_setCell_ne (c := c) (x := x) hk
    refine ⟨?_, ?_⟩
    · rw [baselineAt, incrementAt, baselineAt, incrementAt, hsame]
    · rw [incrementAt, hsame]
      exact hc k'

theorem accrue_step (h : s.Nonneg) (hok : Accrues s op) (hs : quotaStep s op = some s') :
    s'.Nonneg ∧ UsageGrows s op s' := by
  cases op with
  | add k delta =>
    cases hs
    have hdelta : 0 ≤ delta := hok
    have hk := h k
    have hgrows := setCell_grows (x := { s.counter.cellAt k with
      increment := (s.counter.cellAt k).increment + delta }) h
      (by unfold baselineAt incrementAt; simp only; linarith)
      (add_nonneg hk hdelta)
    exact ⟨fun k' => (hgrows k').2, fun k' => (hgrows k').1, nofun⟩
  | setBaseline k b =>
    cases hs
    obtain ⟨hused, hinc⟩ := adopt_used (h k) b
    have hgrows := setCell_grows h (hused.symm ▸ le_max_left _ _) hinc
    refine ⟨fun k' => (hgrows k').2, fun k' => (hgrows k').1, ?_⟩
    rintro _ _ ⟨⟩
    rw [get_eq, get_eq]
    unfold setBaseline baselineAt incrementAt
    rw [cellAt_setCell rfl]
    exact hused
  | flush =>
    cases hs
    exact ⟨h, fun _ => le_refl _, nofun⟩
  | restart => exact hok.elim

/-- **Usage is monotone within a period.** -/
theorem usage_monotone {s₀ : QuotaWorld} {ops : List QuotaOp} (hstart : s₀.Nonneg)
    (hrun : Guarded quotaStep Accrues s₀ ops s) (hok : Accrues s op)
    (hs : quotaStep s op = some s') : UsageGrows s op s' :=
  (accrue_step (hrun.invariant (fun _ _ _ h hok hs => (accrue_step h hok hs).1) hstart) hok hs).2

theorem lower_baseline_kept :
    ∃ s s', QuotaWorld.init.Nonneg ∧
      Guarded quotaStep Accrues .init [.setBaseline monthlyTokens 5, .add monthlyTokens 2] s ∧
      quotaStep s (.setBaseline monthlyTokens 4) = some s' ∧
      UsageGrows s (.setBaseline monthlyTokens 4) s' := by
  have hinit : QuotaWorld.init.Nonneg := fun k => le_refl 0
  have hrun : Guarded quotaStep Accrues .init
      [.setBaseline monthlyTokens 5, .add monthlyTokens 2] _ :=
    .cons trivial rfl (.cons (by norm_num [Accrues]) rfl (.nil _))
  exact ⟨_, _, hinit, hrun, rfl, usage_monotone hinit hrun trivial rfl⟩

end AikeyProxy.Quota
