import AikeyProxy.Lib.Region
import AikeyProxy.Lib.Run
import AikeyProxy.Supervisor.Drain

/-!
# A generation is drained once and closed when idle

Two races have to be kept out: a request may have loaded the generation without having entered it
when the count is read as zero, and two threads may both find `drained` open before either closes
it. `DrainStepOk` states both at the steps where they happen.
-/

namespace AikeyProxy.Supervisor

open Lib List DrainWorld ReqPc

def ReqPc.unfinished (g : Nat) : ReqPc → Bool
  | .loaded g' => g' = g
  | .serving g' => g' = g
  | _ => false

def DrainWorld.closers (s : DrainWorld) (g : Nat) : Nat :=
  s.requests.countP (fun pc => decide (pc = .closing g)) +
    if (s.gens g).drain = .closing then 1 else 0

/-- No request is still to enter `g`, or has entered it, when one that had brought the
count to zero reads `draining`. -/
def ReadOk (s : DrainWorld) : ReqPc → Prop
  | .zeroed g =>
    (s.gens g).draining = true → (s.gens g).inflight = 0 ∧ ReqPc.loaded g ∉ s.requests
  | _ => True

/-- Nobody else is about to close `drained` of `g` when it is found open. -/
def SelectOk (s : DrainWorld) : ReqPc → Prop
  | .selecting g => (s.gens g).closes = 0 → s.closers g = 0
  | _ => True

def DrainStepOk (s : DrainWorld) : DrainAct → Prop
  | .readDraining i => ∀ pc ∈ s.requests[i]?, ReadOk s pc
  | .drainRead g => (s.gens g).inflight = 0 → ReqPc.loaded g ∉ s.requests
  | .select i => ∀ pc ∈ s.requests[i]?, SelectOk s pc
  | .drainSelect g => (s.gens g).closes = 0 → s.closers g = 0
  | _ => True

instance (s : DrainWorld) : ∀ pc, Decidable (ReadOk s pc)
  | .zeroed _ => inferInstanceAs (Decidable (_ → _))
  | .loaded _ | .serving _ | .selecting _ | .closing _ | .done => isTrue trivial

instance (s : DrainWorld) : ∀ pc, Decidable (SelectOk s pc)
  | .selecting g => inferInstanceAs (Decidable ((s.gens g).closes = 0 → s.closers g = 0))
  | .loaded _ | .serving _ | .zeroed _ | .closing _ | .done => inferInstanceAs (Decidable True)

instance (s : DrainWorld) : ∀ a, Decidable (DrainStepOk s a)
  | .readDraining _ | .select _ => inferInstanceAs (Decidable (∀ _ ∈ _, _))
  | .drainRead _ | .drainSelect _ => inferInstanceAs (Decidable (_ → _))
  | .load | .enter _ | .leave _ | .closeDrained _ | .swap | .drainFlag _ | .drainClose _
  | .drainDone _ => isTrue trivial

/-- The effects of the steps, guards included. -/
inductive DrainEffect (s : DrainWorld) : DrainAct → DrainWorld → Prop
  | load : DrainEffect s .load { s with requests := s.requests ++ [.loaded s.active] }
  | enter {i g : Nat} : s.requests[i]? = some (.loaded g) →
      DrainEffect s (.enter i) ((s.update g (.add 1)).move i (.serving g))
  | leave {i g : Nat} : s.requests[i]? = some (.serving g) →
      DrainEffect s (.leave i) ((s.update g (.add (-1))).move i
        (if (s.gens g).inflight + -1 = 0 then .zeroed g else .done))
  | readDraining {i g : Nat} : s.requests[i]? = some (.zeroed g) →
      DrainEffect s (.readDraining i)
        (s.move i (if (s.gens g).draining then .selecting g else .done))
  | select {i g : Nat} : s.requests[i]? = some (.selecting g) →
      DrainEffect s (.select i) (s.move i (if (s.gens g).closes = 0 then .closing g else .done))
  | closeDrained {i g : Nat} : s.requests[i]? = some (.closing g) →
      DrainEffect s (.closeDrained i) ((s.update g .closeDrained).move i .done)
  | swap :
      DrainEffect s .swap ({ s with active := s.active + 1 }.update s.active (.goto .requested))
  | drainFlag {g : Nat} : (s.gens g).drain = .requested →
      DrainEffect s (.drainFlag g)
        (s.update g fun gen => { gen with draining := true, drain := .flagged })
  | drainRead {g : Nat} : (s.gens g).drain = .flagged →
      DrainEffect s (.drainRead g)
        (s.update g (.goto (if (s.gens g).inflight = 0 then .selecting else .waiting)))
  | drainSelect {g : Nat} : (s.gens g).drain = .selecting →
      DrainEffect s (.drainSelect g)
        (s.update g (.goto (if (s.gens g).closes = 0 then .closing else .waiting)))
  | drainClose {g : Nat} : (s.gens g).drain = .closing →
      DrainEffect s (.drainClose g) (s.update g fun gen => gen.closeDrained.goto .waiting)
  | drainDone {g : Nat} : (s.gens g).drain = .waiting → 0 < (s.gens g).closes →
      DrainEffect s (.drainDone g) (s.update g (.goto .closed))

variable {a : DrainAct} {s s' : DrainWorld} {g g' i : Nat} {f : DrainGen → DrainGen}
  {old new : ReqPc}

theorem drainStep_effect (hs : drainStep s a = some s') : DrainEffect s a s' := by
  revert hs
  fun_cases drainStep s a <;> intro hs <;> cases hs
  -- a request moves from one place only
  any_goals constructor <;> assumption
  next hpc => exact .drainDone hpc.1 hpc.2

attribute [local grind =] update DrainWorld.move DrainGen.add DrainGen.goto
  DrainGen.closeDrained unfinished Function.update_apply

/-! ## Idle for good -/

/-- The generation is no longer active and has no unfinished request. -/
def Quiet (s : DrainWorld) (g : Nat) : Prop :=
  g < s.active ∧ ∀ pc ∈ s.requests, pc.unfinished g = false

/-- **An idle retired generation stays idle**: a request loads the active generation
only, and enters only what it has loaded. -/
theorem quiet_step (h : Quiet s g) (hs : drainStep s a = some s') : Quiet s' g := by
  obtain ⟨hold, hidle⟩ := h
  cases drainStep_effect hs with
  | enter hi =>
    have hloaded := hidle _ (mem_of_getElem? hi)
    exact ⟨hold, by grind -linarith [mem_or_eq_of_mem_set]⟩
  | swap => exact ⟨Nat.lt_succ_of_lt hold, hidle⟩
  | _ => exact ⟨hold, by grind -linarith [mem_or_eq_of_mem_set]⟩

/-! ## Decided drains -/

/-- The request is about to close `drained` of `g`, or to check whether it should. -/
def ReqPc.deciding (g : Nat) : ReqPc → Bool
  | .selecting g' => g' = g
  | .closing g' => g' = g
  | _ => false

def DrainPc.deciding : DrainPc → Bool
  | .selecting => true
  | .closing => true
  | _ => false

def Decided (s : DrainWorld) (g : Nat) : Prop :=
  0 < (s.gens g).closes ∨ (s.gens g).drain.deciding = true ∨
    ∃ pc ∈ s.requests, pc.deciding g = true

/-- The two steps that decide: a request that had brought the count to zero sees
`draining`, and the drain reads a count of zero. -/
def DecidesNow (s : DrainWorld) (g : Nat) : DrainAct → Prop
  | .readDraining i => s.requests[i]? = some (.zeroed g) ∧ (s.gens g).draining = true
  | .drainRead g' => g' = g ∧ (s.gens g).drain = .flagged ∧ (s.gens g).inflight = 0
  | _ => False

/-- **Only the two deciding steps decide a drain.** -/
theorem decided_step (hs : drainStep s a = some s') (h : Decided s' g) :
    Decided s g ∨ DecidesNow s g a := by
  unfold Decided at *
  cases drainStep_effect hs with
  | select hi | closeDrained hi =>
    -- it was deciding already, at the check
    have hmem := mem_of_getElem? hi
    simp only [DrainWorld.move, update] at h
    grind -linarith [mem_or_eq_of_mem_set, deciding, DrainPc.deciding]
  | load => grind -linarith [deciding]
  | _ =>
    simp only [DrainWorld.move, update] at h
    grind -linarith [mem_or_eq_of_mem_set, deciding, DrainPc.deciding, DecidesNow]

/-! ## At most one close -/

def DrainWorld.closeBudget (s : DrainWorld) (g : Nat) : Nat := s.closers g + (s.gens g).closes

/-- **No step closes `drained` a second time**, as long as nobody finds it open while
somebody else is about to close it. -/
theorem budget_step (h : s.closeBudget g ≤ 1) (hactive : (s.gens s.active).drain = .none)
    (hok : DrainStepOk s a) (hs : drainStep s a = some s') : s'.closeBudget g ≤ 1 := by
  cases drainStep_effect hs with
  | load => simpa [closeBudget, closers, countP_append] using h
  | enter hi | leave hi | readDraining hi | closeDrained hi =>
    have hmoved := fun new => countP_set (q := fun pc => decide (pc = ReqPc.closing g)) hi new
    simp only [closeBudget, closers, update, DrainWorld.move] at *
    grind -linarith
  | select hi =>
    have hmoved := fun new => countP_set (q := fun pc => decide (pc = ReqPc.closing g)) hi new
    have hnone := hok _ hi
    simp only [closeBudget, closers, DrainWorld.move, SelectOk] at *
    grind -linarith
  | _ =>
    simp only [closeBudget, closers, update, DrainStepOk] at *
    grind -linarith

/-! ## The count -/

def ReqPc.inside (g : Nat) (pc : ReqPc) : Bool := decide (pc = .serving g)

def InflightCounts (s : DrainWorld) (g : Nat) : Prop :=
  Counts (ReqPc.inside g) s.requests (s.gens g).inflight

theorem inflightCounts_step (h : InflightCounts s g) (hs : drainStep s a = some s') :
    InflightCounts s' g := by
  cases drainStep_effect hs with
  | load => exact Counts.spawn h (by simp [inside])
  | enter hi | leave hi | readDraining hi | select hi | closeDrained hi =>
    have hmoved := fun new => countP_set (q := inside g) hi new
    simp only [InflightCounts, Counts, update, DrainWorld.move] at *
    grind -linarith [inside]
  | _ =>
    simp only [InflightCounts, Counts, update] at *
    grind -linarith

/-! ## Whole runs -/

/-- A generation is only drained after it was swapped out, and its resources are only
closed after `drained` was. -/
structure Retired (active g : Nat) (gen : DrainGen) : Prop where
  drained : gen.drain ≠ .none → g < active
  flagged : gen.draining = true → g < active
  closed : gen.drain = .closed → 0 < gen.closes

theorem retired_step (h : Retired s.active g (s.gens g)) (hs : drainStep s a = some s') :
    Retired s'.active g (s'.gens g) := by
  obtain ⟨hdrained, hflagged, hclosed⟩ := h
  cases drainStep_effect hs <;> constructor <;>
    simp only [DrainWorld.move, update] <;> grind -linarith

structure DrainInv (s : DrainWorld) : Prop where
  counts : ∀ g, InflightCounts s g
  retired : ∀ g, Retired s.active g (s.gens g)
  /-- A drain is decided only once the generation is idle for good. -/
  decided : ∀ g, Decided s g → Quiet s g
  once : ∀ g, s.closeBudget g ≤ 1

theorem drainInv_init : DrainInv {} where
  counts := fun _ => rfl
  retired := fun _ => ⟨fun h => absurd rfl h, nofun, nofun⟩
  decided := fun g h => by
    rcases h with hcloses | hdrain | ⟨pc, hpc, -⟩
    · cases hcloses
    · cases hdrain
    · cases hpc
  once := fun _ => by simp [closeBudget, closers]

theorem quiet_of_zero (hcount : InflightCounts s g) (hzero : (s.gens g).inflight = 0)
    (hloaded : ReqPc.loaded g ∉ s.requests) (hold : g < s.active) : Quiet s g := by
  unfold InflightCounts at hcount
  rw [hzero] at hcount
  refine ⟨hold, ?_⟩
  intro pc hpc
  have hinside := hcount.none_inside pc hpc
  cases pc with
  | loaded g' =>
    simp only [unfinished, decide_eq_false_iff_not]
    intro hg
    subst hg
    exact hloaded hpc
  | serving g' =>
    simp only [inside, decide_eq_false_iff_not, ReqPc.serving.injEq] at hinside
    simpa [unfinished] using hinside
  | zeroed g' | selecting g' | closing g' | done => rfl

theorem drainInv_step (h : DrainInv s) (hok : DrainStepOk s a) (hs : drainStep s a = some s') :
    DrainInv s' where
  counts := fun g => inflightCounts_step (h.counts g) hs
  retired := fun g => retired_step (h.retired g) hs
  decided := by
    intro g hdec
    refine quiet_step (a := a) ?_ hs
    rcases decided_step hs hdec with hold | hnow
    · exact h.decided g hold
    · cases a with
      | readDraining i =>
        obtain ⟨hi, hdraining⟩ := hnow
        obtain ⟨hzero, hloaded⟩ := hok _ hi hdraining
        exact quiet_of_zero (h.counts g) hzero hloaded ((h.retired g).flagged hdraining)
      | drainRead g' =>
        obtain ⟨rfl, hflagged, hzero⟩ := hnow
        exact quiet_of_zero (h.counts g') hzero (hok hzero)
          ((h.retired g').drained (by simp [hflagged]))
      | _ => exact hnow.elim
  once := by
    intro g
    refine budget_step (h.once g) ?_ hok hs
    by_contra hstarted
    exact absurd ((h.retired s.active).drained hstarted) (Nat.lt_irrefl _)

/-- **A generation is drained once and closed only when idle** in every interleaving whose steps
meet `DrainStepOk`. -/
theorem drained_once_closed_idle {acts : List DrainAct} {s : DrainWorld}
    (hrun : Guarded drainStep DrainStepOk {} acts s) (g : Nat) :
    (s.gens g).closes ≤ 1 ∧
      ((s.gens g).drain = .closed → ∀ pc ∈ s.requests, pc.unfinished g = false) := by
  have hinv : DrainInv s :=
    hrun.invariant (fun _ _ _ hi ho hs => drainInv_step hi ho hs) drainInv_init
  constructor
  · have honce := hinv.once g
    unfold closeBudget at honce
    omega
  · intro hclosed
    exact (hinv.decided g (Or.inl ((hinv.retired g).closed hclosed))).2

/-! ## The two races -/

/-- The last request leaves before the drain sets its flag and reads the flag after;
both then find `drained` open. -/
def doubleClose : List DrainAct :=
  [.load, .enter 0, .swap, .leave 0, .drainFlag 0, .drainRead 0, .readDraining 0, .select 0,
    .drainSelect 0, .closeDrained 0, .drainClose 0]

theorem drained_closed_twice :
    ¬ ∀ (acts : List DrainAct) (s : DrainWorld), exec drainStep {} acts = some s → ∀ g,
      (s.gens g).closes ≤ 1 ∧
        ((s.gens g).drain = .closed → ∀ pc ∈ s.requests, pc.unfinished g = false) := by
  intro h
  have honce := (h doubleClose _ rfl 0).1
  exact absurd honce (by decide)

/-- A request in flight during the reload leaves after the drain started to wait. -/
def drainedByRequest : List DrainAct :=
  [.load, .enter 0, .swap, .load, .drainFlag 0, .drainRead 0, .enter 1, .leave 0, .readDraining 0,
    .select 0, .closeDrained 0, .drainDone 0]

/-- The old generation is closed once, with its request finished and the next
generation serving. -/
theorem drained_by_last_request :
    ∃ s, guardedExec drainStep DrainStepOk {} drainedByRequest = some s ∧
      (s.gens 0).closes ≤ 1 ∧ ∀ pc ∈ s.requests, pc.unfinished 0 = false := by
  have hsafe := drained_once_closed_idle (Guarded.of_guardedExec
    (show guardedExec _ _ _ drainedByRequest = some _ from rfl)) 0
  exact ⟨_, rfl, hsafe.1, hsafe.2 (by decide)⟩

end AikeyProxy.Supervisor
