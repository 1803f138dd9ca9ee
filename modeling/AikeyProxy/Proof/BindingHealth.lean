import AikeyProxy.Proxy.ManagedChain

/-!
# Reading the health of the bindings

The health endpoint lists the cooling bindings with the whole seconds they have left and drops an
entry whose number is zero. A binding in the last second of its cooldown is dropped with the expired
ones, so that reading its health ends the cooldown.
-/

namespace AikeyProxy.Proxy

open Lib List BindingCooldown AList

/-- A snapshot at `t₀` after some calls is not noticed by any later question, whatever is called in
between. -/
def SnapshotUnnoticed (calls : List HealthCall) (t₀ : Int) : Prop :=
  ∀ (later : List HealthCall) (bindingID : String) (t : Int), t₀ ≤ t →
    (afterCalls (calls ++ .snapshot t₀ :: later)).cooling bindingID t =
      (afterCalls (calls ++ later)).cooling bindingID t

def NoneInLastSecond (calls : List HealthCall) (t₀ : Int) : Prop :=
  ∀ bindingID deadline, bindingID ≠ "" →
    (afterCalls calls).lookup bindingID = some deadline → t₀ < deadline →
    t₀ + 1000 * millisecond ≤ deadline

/-! ## Two stores that differ in expired entries -/

/-- The second store has the entries of the first but for some that had expired at `t₀`. -/
def ExpiredApart (t₀ : Int) (s s' : BindingCooldown) : Prop :=
  ∀ bindingID ≠ "", s'.lookup bindingID = s.lookup bindingID ∨
    s'.lookup bindingID = none ∧ ∃ deadline ≤ t₀, s.lookup bindingID = some deadline

variable {t₀ t deadline now : Int} {s s' : BindingCooldown} {bindingID : String}

theorem remainingSeconds_pos : 0 < remainingSeconds deadline now ↔
    now + 1000 * millisecond ≤ deadline := by
  unfold remainingSeconds millisecond
  rcases Int.le_total 0 (deadline - now) with hle | hle
  · rw [Int.tdiv_eq_ediv_of_nonneg hle]
    omega
  · rw [← Int.neg_neg (deadline - now), Int.neg_tdiv, Int.tdiv_eq_ediv_of_nonneg (by omega)]
    omega

theorem lookup_snapshot (s : BindingCooldown) (now : Int) (bindingID : String) :
    (s.snapshot now).2.lookup bindingID =
      (s.lookup bindingID).bind fun deadline =>
        if remainingSeconds deadline now ≤ 0 then none else some deadline :=
  lookup_collect _ s bindingID

theorem ExpiredApart.call (h : ExpiredApart t₀ s s') (c : HealthCall) :
    ExpiredApart t₀ (s.call c) (s'.call c) := by
  intro id hid
  cases c with
  | note bindingID head cfg now =>
    simp only [BindingCooldown.call, BindingCooldown.note]
    split
    · exact h id hid
    · by_cases heq : id = bindingID
      · rw [heq, lookup_insert, lookup_insert]
        exact .inl rfl
      · rw [lookup_insert_ne heq, lookup_insert_ne heq]
        exact h id hid
  | noteSuccess bindingID =>
    simp only [BindingCooldown.call, BindingCooldown.noteSuccess]
    split
    · exact h id hid
    · by_cases heq : id = bindingID
      · rw [heq, lookup_erase, lookup_erase]
        exact .inl rfl
      · rw [lookup_erase_ne heq, lookup_erase_ne heq]
        exact h id hid
  | snapshot now =>
    simp only [BindingCooldown.call, lookup_snapshot]
    rcases h id hid with heq | ⟨hnone, deadline, hle, hsome⟩
    · rw [heq]
      exact .inl rfl
    · rw [hnone, hsome, Option.bind_some]
      split
      · exact .inl rfl
      · exact .inr ⟨rfl, deadline, hle, rfl⟩

theorem ExpiredApart.calls (h : ExpiredApart t₀ s s') (later : List HealthCall) :
    ExpiredApart t₀ (later.foldl BindingCooldown.call s)
      (later.foldl BindingCooldown.call s') := by
  induction later generalizing s s' with
  | nil => exact h
  | cons c later ih => exact ih (h.call c)

theorem ExpiredApart.cooling_eq (h : ExpiredApart t₀ s s') (ht : t₀ ≤ t) (bindingID : String) :
    s'.cooling bindingID t = s.cooling bindingID t := by
  by_cases hid : bindingID = ""
  · simp [cooling, hid]
  · rcases h bindingID hid with heq | ⟨hnone, deadline, hle, hsome⟩
    · rw [cooling, cooling, heq]
    · have hpast : ¬ t < deadline := by omega
      simp [cooling, hnone, hsome, hpast]

theorem snapshot_unnoticed_iff (calls : List HealthCall) (t₀ : Int) :
    SnapshotUnnoticed calls t₀ ↔ NoneInLastSecond calls t₀ := by
  constructor
  · intro h id deadline hid hsome hcool
    have hsame := h [] id t₀ (Int.le_refl t₀)
    simp only [afterCalls, foldl_append, foldl_nil, foldl_cons] at hsame hsome
    by_contra hlast
    have hzero : remainingSeconds deadline t₀ ≤ 0 := by
      have := mt remainingSeconds_pos.mp hlast
      omega
    -- the store still has the cooldown, the snapshot dropped it
    simp [BindingCooldown.call, cooling, lookup_snapshot, hsome, hzero, hcool,
      hid] at hsame
  · intro h later id t ht
    have hapart : ExpiredApart t₀ (afterCalls calls) ((afterCalls calls).snapshot t₀).2 := by
      intro id hid
      rw [lookup_snapshot]
      cases hsome : (afterCalls calls).lookup id with
      | none => exact .inl rfl
      | some deadline =>
        rw [Option.bind_some]
        split
        · rename_i hzero
          refine .inr ⟨rfl, deadline, ?_, rfl⟩
          by_contra hcool
          have := remainingSeconds_pos.mpr (h id deadline hid hsome (by omega))
          omega
        · exact .inl rfl
    simp only [afterCalls, foldl_append, foldl_cons]
    exact (hapart.calls later).cooling_eq ht id

/-- A binding that failed is cooling for a minute; its health is read half a second before the end
of it. -/
theorem cooldown_ended_by_snapshot :
    ¬ ∀ (calls : List HealthCall) (t₀ : Int), SnapshotUnnoticed calls t₀ := by
  intro hall
  have h := hall [.note "b" { status := 529 } 60000 0] (59500 * millisecond) [] "b"
    (59500 * millisecond) (Int.le_refl _)
  revert h
  decide

end AikeyProxy.Proxy
