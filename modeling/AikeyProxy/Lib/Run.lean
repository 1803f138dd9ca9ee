/-!
# Runs of a step function

A system here is a partial step function: `step s a` is the state after action `a`, or `none` when
`a` is not enabled in `s`. In a *guarded* run every step also meets a condition read off the state
it starts from. Everything about whole runs in this development goes through `Guarded.invariant`.
-/

namespace Lib

variable {S A : Type}

/-- Perform the actions in order; an action that is not enabled stops the run. -/
def exec (step : S → A → Option S) : S → List A → Option S
  | s, [] => some s
  | s, a :: as =>
    match step s a with
    | none => none
    | some s' => exec step s' as

/-- The states a run passes through, every one of its steps meeting `ok`. -/
inductive Guarded (step : S → A → Option S) (ok : S → A → Prop) : S → List A → S → Prop
  | nil (s : S) : Guarded step ok s [] s
  | cons {s s' s'' : S} {a : A} {as : List A} :
      ok s a → step s a = some s' → Guarded step ok s' as s'' →
      Guarded step ok s (a :: as) s''

variable {step : S → A → Option S} {ok : S → A → Prop}

variable {s s' : S}

/-- **The invariant rule.** What every guarded step preserves, a guarded run preserves. -/
theorem Guarded.invariant {I : S → Prop}
    (hstep : ∀ s a s', I s → ok s a → step s a = some s' → I s') {as : List A}
    (h : Guarded step ok s as s') (hi : I s) : I s' := by
  induction h with
  | nil s => exact hi
  | cons hok hs _ ih => exact ih (hstep _ _ _ hi hok hs)

/-- **The levels rule.** Steps keep the level a run has reached, and the chosen ones raise it. -/
theorem Guarded.climb (level : Nat → S → Prop) {raises : A → Bool} {as : List A}
    (h : Guarded step ok s as s')
    (hkeep : ∀ n s a s', level n s → ok s a → step s a = some s' → level n s')
    (hraise : ∀ n s a s', raises a = true → level n s → ok s a → step s a = some s' →
      level (n + 1) s') :
    ∀ {n : Nat}, level n s → level (n + as.countP raises) s' := by
  induction h with
  | nil s => intro n hn; exact hn
  | @cons s t s' a as hok hs _ ih =>
    intro n hn
    rw [List.countP_cons]
    by_cases ha : raises a = true
    · have hup := ih (hraise _ _ _ _ ha hn hok hs)
      rw [if_pos ha, Nat.add_comm (as.countP raises) 1, ← Nat.add_assoc]
      exact hup
    · rw [if_neg ha]
      exact ih (hkeep _ _ _ _ hn hok hs)

theorem exec_cons {a : A} {as : List A} {s : S} (h : exec step s (a :: as) = some s') :
    ∃ t, step s a = some t ∧ exec step t as = some s' := by
  rw [exec] at h
  cases hs : step s a with
  | none => rw [hs] at h; cases h
  | some t => exact ⟨t, rfl, by rwa [hs] at h⟩

theorem Guarded.of_exec :
    ∀ {as : List A} {s s' : S}, (∀ a ∈ as, ∀ t, ok t a) → exec step s as = some s' →
      Guarded step ok s as s' := by
  intro as
  induction as with
  | nil => intro s s' _ h; cases h; exact .nil s
  | cons a as ih =>
    intro s s' hok h
    obtain ⟨t, hs, h⟩ := exec_cons h
    exact .cons (hok a List.mem_cons_self s) hs
      (ih (fun b hb => hok b (List.mem_cons_of_mem _ hb)) h)

theorem exec_invariant {I : S → Prop} (hstep : ∀ s a s', I s → step s a = some s' → I s')
    {as : List A} {s s' : S} (h : exec step s as = some s') (hi : I s) : I s' := by
  have hrun : Guarded step (fun _ _ => True) s as s' := .of_exec (fun _ _ _ => trivial) h
  exact hrun.invariant (fun s a s' hi _ hs => hstep s a s' hi hs) hi

/-- **The countdown rule.** An invariant may speak of the number of actions that are left. -/
theorem exec_countdown {I : Nat → S → Prop} {as : List A} {s : S}
    (hstep : ∀ n s, ∀ a ∈ as, ∀ s', I (n + 1) s → step s a = some s' → I n s')
    (h : exec step s as = some s') (hi : I as.length s) : I 0 s' := by
  induction as generalizing s with
  | nil =>
    cases h
    exact hi
  | cons a as ih =>
    obtain ⟨t, hs, h⟩ := exec_cons h
    refine ih (fun n u b hb => hstep n u b (List.mem_cons_of_mem _ hb)) h ?_
    exact hstep _ s a List.mem_cons_self t hi hs

/-- **The loss rule.** When a step that meets the condition keeps what is observed and any other
step lowers its weight, a run keeps it exactly when all its steps meet the condition. -/
theorem exec_keeps_iff {C : Type} {seen : S → C} {weight : C → Nat}
    (hkeep : ∀ s a s', ok s a → step s a = some s' → seen s' = seen s)
    (hlose : ∀ s a s', ¬ ok s a → step s a = some s' → weight (seen s') < weight (seen s)) :
    ∀ {as : List A} {s s' : S}, exec step s as = some s' →
      (seen s' = seen s ↔ Guarded step ok s as s') := by
  have hle : ∀ {as : List A} {s s' : S}, exec step s as = some s' →
      weight (seen s') ≤ weight (seen s) := by
    intro as s s' h
    refine exec_invariant (I := fun t => weight (seen t) ≤ weight (seen s)) ?_ h (Nat.le_refl _)
    intro t a t' ht hs
    by_cases hok : ok t a
    · rw [hkeep t a t' hok hs]
      exact ht
    · exact Nat.le_trans (Nat.le_of_lt (hlose t a t' hok hs)) ht
  intro as
  induction as with
  | nil =>
    intro s s' h
    cases h
    exact ⟨fun _ => .nil s, fun _ => rfl⟩
  | cons a as ih =>
    intro s s' h
    obtain ⟨t, hs, h⟩ := exec_cons h
    constructor
    · intro heq
      -- A step that breaks the condition lowers the weight for good.
      have hok : ok s a := by
        refine Classical.byContradiction fun hno => ?_
        have hlt := hlose s a t hno hs
        have htail := hle h
        rw [heq] at htail
        omega
      have hst := hkeep s a t hok hs
      exact .cons hok hs ((ih h).mp (heq.trans hst.symm))
    · intro hg
      cases hg with
      | cons hok hs' hrest =>
        cases hs.symm.trans hs'
        exact ((ih h).mpr hrest).trans (hkeep s a t hok hs)

theorem exec_append_eq {bs : List A} : ∀ (as : List A) (s : S),
    exec step s (as ++ bs) = (exec step s as).bind (exec step · bs)
  | [], _ => rfl
  | a :: as, s => by
    rw [List.cons_append, exec, exec]
    cases step s a with
    | none => rfl
    | some t => exact exec_append_eq as t

theorem exec_trans {as bs : List A} {s : S} (h : exec step s as = some s') :
    exec step s (as ++ bs) = exec step s' bs := by
  rw [exec_append_eq, h, Option.bind_some]

/-- Perform the actions in order, checking the condition before each of them. -/
def guardedExec (step : S → A → Option S) (ok : S → A → Prop) [∀ s a, Decidable (ok s a)] :
    S → List A → Option S
  | s, [] => some s
  | s, a :: as =>
    if ok s a then
      match step s a with
      | none => none
      | some s' => guardedExec step ok s' as
    else none

theorem Guarded.of_guardedExec [∀ s a, Decidable (ok s a)] {as : List A} {s s' : S}
    (h : guardedExec step ok s as = some s') : Guarded step ok s as s' := by
  fun_induction guardedExec step ok s as with
  | case1 => cases h; exact .nil _
  | case2 | case4 => cases h
  | case3 s a as hok t hs ih => exact .cons hok hs (ih h)

end Lib
