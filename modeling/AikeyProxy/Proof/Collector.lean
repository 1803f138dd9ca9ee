import AikeyProxy.Events.Collector
import Mathlib.Algebra.Order.Group.Multiset
import Mathlib.Tactic.Abel

/-!
# Where a recorded event is

A recorded event is a row, in the batch, in the channel, or dropped. It leaves these places with a
batch whose insert fails, or in a channel that nobody will read any more. Without those, once `run`
has returned the recorded events are the rows and the dropped ones, each once.
-/

namespace AikeyProxy.Events

open Lib

variable {E : Type}

/-! ## The property and its condition -/

/-- The condition on a step: an insert succeeds, and `Record` does not send to the channel once
the drain has found it empty. -/
def CollectorStepOk (s : CollectorWorld E) : CollectorAct E → Prop
  | .record _ => s.ch.length < collectorBufferSize → s.pc ≠ .lastFlush ∧ s.pc ≠ .returned
  | .insert outcome => outcome = .done
  | _ => True

instance (s : CollectorWorld E) : ∀ a, Decidable (CollectorStepOk s a)
  | .record _ => inferInstanceAs (Decidable (_ → _ ∧ _))
  | .insert _ => inferInstanceAs (Decidable (_ = _))
  | .count | .receive | .tick | .close | .seeDone | .empty => isTrue trivial

def CollectorAct.ends : CollectorAct E → Bool
  | .receive | .insert _ | .seeDone | .empty => true
  | _ => false

def CollectorAct.records : CollectorAct E → Bool
  | .record _ => true
  | _ => false

def CollectorWorld.left (s : CollectorWorld E) : Nat :=
  3 * s.ch.length +
    match s.pc with
    | .loop => 3 + if s.batch = [] then 0 else 2
    | .flush => 4
    | .drain => 2
    | .lastFlush => 1
    | .returned => 0

/-- After `Close`, `run` can always go on until it returns; its steps leave it less to do, and
only a `Record` gives it more. -/
def CollectorProceeds (batchSize : Int) (s : CollectorWorld E) : Prop :=
  s.done = true → s.pc ≠ .returned →
    (∃ a : CollectorAct E, a.ends = true ∧ (collectorStep batchSize s a).isSome = true) ∧
    ∀ a s', collectorStep batchSize s a = some s' → a.records = false →
      s'.left ≤ s.left ∧ (a.ends = true → s'.left < s.left)

/-- In the end every event recorded was inserted once or counted as dropped, and the end
comes. -/
structure EventsAccounted (batchSize : Int) (s : CollectorWorld E) : Prop where
  counted : s.dropped = s.droppedEvents.length
  settled : s.pc = .returned → s.dropping = [] →
    (s.recorded : Multiset E) = s.rows + s.droppedEvents
  proceeds : CollectorProceeds batchSize s

/-! ## The invariant -/

structure CollectorInv (s : CollectorWorld E) : Prop where
  conserved : (s.recorded : Multiset E) =
    s.rows + s.batch + s.ch + s.dropping + s.droppedEvents
  counted : s.dropped = s.droppedEvents.length
  drained : s.pc = .lastFlush ∨ s.pc = .returned → s.ch = []
  flushed : s.pc = .returned → s.batch = []

theorem CollectorInv.init : CollectorInv (CollectorWorld.init : CollectorWorld E) where
  conserved := rfl
  counted := rfl
  drained _ := rfl
  flushed _ := rfl

variable {s s' : CollectorWorld E} {batchSize : Int}

theorem CollectorInv.take (h : CollectorInv s) (hs : s.take batchSize = some s') :
    CollectorInv s' := by
  have hc := h.conserved
  revert hs
  fun_cases CollectorWorld.take batchSize s <;> intro hs <;> cases hs <;>
    rename_i hch batch hpc <;> rw [hch, ← List.singleton_append, ← Multiset.coe_add] at hc <;>
    refine ⟨?_, h.counted, by grind -linarith, by grind -linarith⟩ <;>
    simp only [batch, ← Multiset.coe_add, hc] <;> abel

theorem CollectorInv.moves (h : CollectorInv s) {pc : CollectorPc} {done : Bool}
    (hdrained : pc = .lastFlush ∨ pc = .returned → s.ch = [])
    (hflushed : pc = .returned → s.batch = []) : CollectorInv { s with pc, done } :=
  ⟨h.conserved, h.counted, hdrained, hflushed⟩

variable {a : CollectorAct E}

theorem CollectorInv.step (h : CollectorInv s) (hok : CollectorStepOk s a)
    (hs : collectorStep batchSize s a = some s') : CollectorInv s' := by
  have hc := h.conserved
  revert hs
  fun_cases collectorStep batchSize s a <;> intro hs
  case case5 => exact h.take hs
  all_goals cases hs
  next s₁ hroom =>
    refine ⟨?_, h.counted, fun hpc => absurd hpc (not_or.mpr (hok hroom)), h.flushed⟩
    simp only [s₁, ← Multiset.coe_add, hc]
    abel
  next s₁ _ =>
    refine ⟨?_, h.counted, h.drained, h.flushed⟩
    simp only [s₁, ← Multiset.coe_add, hc]
    abel
  next e rest hdropping =>
    rw [hdropping, ← List.singleton_append, ← Multiset.coe_add] at hc
    refine ⟨?_, by simp [h.counted], h.drained, h.flushed⟩
    simp only [← Multiset.coe_add, hc]
    abel
  next => exact h.moves (by grind -linarith) (by grind -linarith)
  next outcome hpc =>
    obtain rfl : outcome = .done := hok
    refine ⟨?_, h.counted, by simp, by simp⟩
    simp only [insertRows, ← Multiset.coe_add, hc, Multiset.coe_nil, add_zero]
  next outcome hpc =>
    obtain rfl : outcome = .done := hok
    refine ⟨?_, h.counted, fun _ => h.drained (.inl hpc), fun _ => rfl⟩
    simp only [insertRows, ← Multiset.coe_add, hc, Multiset.coe_nil, add_zero]
  next => exact h.moves h.drained h.flushed
  next => exact h.moves (by simp) (by simp)
  next hpc => exact h.moves (fun _ => hpc.2) (by grind -linarith)

/-! ## The end comes -/

theorem collector_enabled (hdone : s.done = true) (hpc : s.pc ≠ .returned) :
    ∃ a : CollectorAct E, a.ends = true ∧ (collectorStep batchSize s a).isSome = true := by
  cases hat : s.pc with
  | loop => exact ⟨.seeDone, rfl, by simp [collectorStep, hat, hdone]⟩
  | flush => exact ⟨.insert .done, rfl, by simp [collectorStep, hat]⟩
  | drain =>
    cases hch : s.ch with
    | nil => exact ⟨.empty, rfl, by simp [collectorStep, hat, hch]⟩
    | cons e rest =>
      exact ⟨.receive, rfl, by simp [collectorStep, CollectorWorld.take, hat, hch]⟩
  | lastFlush => exact ⟨.insert .done, rfl, by simp [collectorStep, hat]⟩
  | returned => exact absurd hat hpc

theorem left_step (hs : collectorStep batchSize s a = some s') (ha : a.records = false) :
    s'.left ≤ s.left ∧ (a.ends = true → s'.left < s.left) := by
  revert hs
  fun_cases collectorStep batchSize s a <;> intro hs
  case case5 =>
    revert hs
    fun_cases CollectorWorld.take batchSize s <;> intro hs <;> cases hs <;>
      grind -linarith [CollectorWorld.left]
  all_goals
    cases hs <;> grind -linarith [CollectorWorld.left, CollectorAct.ends, CollectorAct.records]

/-- **No usage event disappears uncounted** in a run whose steps meet `CollectorStepOk`. -/
theorem usage_events_accounted (batchSize : Int) (acts : List (CollectorAct E))
    (s : CollectorWorld E)
    (hrun : Guarded (collectorStep batchSize) CollectorStepOk CollectorWorld.init acts s) :
    EventsAccounted batchSize s := by
  have h : CollectorInv s :=
    hrun.invariant (fun _ _ _ hinv hok hs => hinv.step hok hs) CollectorInv.init
  refine ⟨h.counted, ?_, ?_⟩
  · intro hret hdropping
    have hc := h.conserved
    rw [h.drained (.inr hret), h.flushed hret, hdropping] at hc
    simpa using hc
  · intro hdone hpc
    exact ⟨collector_enabled hdone hpc, fun a s' hs ha => left_step hs ha⟩

/-- One event is recorded before `Close` and one while the drain runs. -/
theorem closing_collector_accounts :
    ∃ s, Guarded (collectorStep 10) CollectorStepOk CollectorWorld.init
        [.record 1, .receive, .close, .seeDone, .record 2, .receive, .empty, .insert .done] s ∧
      s.pc = .returned ∧ s.rows = [1, 2] ∧ EventsAccounted 10 s := by
  have hexec : guardedExec (collectorStep 10) CollectorStepOk CollectorWorld.init
      [.record 1, .receive, .close, .seeDone, .record 2, .receive, .empty, .insert .done] =
      some ⟨[], [], .returned, true, [1, 2], 0, [1, 2], [], []⟩ := by
    decide
  have hrun := Guarded.of_guardedExec hexec
  exact ⟨_, hrun, rfl, rfl, usage_events_accounted 10 _ _ hrun⟩

/-- One event is recorded; the ticker fires and the commit of its batch fails. -/
theorem failed_insert_uncounted :
    ¬ ∀ (E : Type) (batchSize : Int) (acts : List (CollectorAct E)) (s : CollectorWorld E),
      exec (collectorStep batchSize) CollectorWorld.init acts = some s →
      EventsAccounted batchSize s := by
  intro hall
  have hexec : exec (collectorStep 10) CollectorWorld.init
      [.record 1, .receive, .tick, .insert .commitFails, .close, .seeDone, .empty] =
      some ⟨[], [], .returned, true, [], 0, [1], [], []⟩ := by
    decide
  have hlost := (hall Nat 10 _ _ hexec).settled rfl rfl
  exact absurd hlost (by decide)

end AikeyProxy.Events
