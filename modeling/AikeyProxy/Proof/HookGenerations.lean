import AikeyProxy.Proof.ChildHook

/-!
# Events of an older child generation

A call keeps the session it has loaded and a reader its generation, but the flag they set when they
fail, and the status they store after it, are those of the hook. So a failure that is noticed late
marks the child of a newer generation, and a restart that was asked for earlier kills it. Here every
mark is traced to the generation of its event.
-/

namespace AikeyProxy.AppHook

open Lib List HookWorld Option

/-- A hook with the history of its marks: the generation of each goroutine's event, the generations
that the flag was last set and cleared for, the one that an unhealthy status was last stored for,
and the one last published. -/
structure TracedHook where
  hook : HookWorld
  origin : Nat → Nat
  blame : Nat
  fresh : Nat
  told : Nat
  published : Nat

def TracedHook.init (now : Int) : TracedHook := ⟨.init now, fun _ => 0, 0, 0, 0, 0⟩

/-- The generation that a goroutine's later mark belongs to: that of the session a call loads, that
of a reader, and otherwise the present one. -/
def originAfter (s : HookWorld) (before : Nat) : HookPc → Nat
  | .loadSession _ => s.session.getD s.gen
  | .readFailed g _ => g
  | .spawn | .awaitReady _ | .forget => s.gen
  | _ => before

def HookPc.setsFlag : HookPc → Bool
  | .mark _ _ => true
  | _ => false

def TracedHook.trace (w : TracedHook) (hook : HookWorld) : HookAct → TracedHook
  | .thread i _ =>
    match w.hook.threads[i]? with
    | some pc =>
      { hook
        origin := Function.update w.origin i (originAfter w.hook (w.origin i) pc)
        blame := if pc.setsFlag then w.origin i else w.blame
        fresh := if pc = .clearFlag then w.hook.gen else w.fresh
        told :=
          match pc with
          | .markStatus _ _ => w.origin i
          | .restarting => w.hook.gen
          | _ => w.told
        published := if pc = .publish then w.fresh else w.published }
    | none => { w with hook }
  | _ => { w with hook }

def tracedStep (w : TracedHook) (a : HookAct) : Option TracedHook :=
  (hookStep w.hook a).map fun hook => w.trace hook a

/-- The goroutine is about to set the flag or to store an unhealthy status, now or after what it is
doing. -/
def HookPc.marks : HookPc → Bool
  | .mark _ _ | .markStatus _ _ => true
  | .nudge next | .nudgeDue next => next.marks
  | _ => false

/-- A call fails only on the generation that is live, the flag is cleared for a fresh child only
while no goroutine is about to mark the hook, and a restart takes the mutex only while it is set. -/
def handoverOk (w : TracedHook) : HookAct → Bool
  | .thread i ev =>
    match w.hook.threads[i]? with
    | some (.writing _) => ev = .wrote ∨ w.fresh ≤ w.origin i
    | some (.failed .listPacks _ false) => w.fresh ≤ w.origin i
    | some .clearFlag => w.hook.threads.all fun t => !t.marks
    | some .restartLock => w.hook.degraded
    | _ => true
  | _ => true

/-! ## What a step does -/

variable {s s' : HookWorld} {i : Nat} {pc new : HookPc} {ev : HookEvent}

@[simp] theorem degradedResult_marks (c : HookCall) : c.degradedResult.marks = false := by
  cases c <;> rfl

@[simp] theorem failedResult_marks (err : String) (c : HookCall) :
    (c.failedResult err).marks = false := by
  cases c <;> rfl

@[simp] theorem answeredResult_marks (empty : Bool) (c : HookCall) :
    (c.answeredResult empty).marks = false := by
  cases c <;> rfl

def MarkSource (s : HookWorld) (ev : HookEvent) : HookPc → Prop
  | .loadSession _ => s.session = none
  | .writing _ => ev ≠ .wrote
  | .failed c _ timeout => c = .listPacks ∧ timeout = false
  | .readFailed g _ => g = s.gen
  | .spawn | .awaitReady _ | .forget => True
  | _ => False

structure HookMove (s : HookWorld) (i : Nat) (pc : HookPc) (ev : HookEvent) (s' : HookWorld) :
    Prop where
  shape : ∃ new extra, s'.threads = s.threads.set i new ++ extra ∧
    (∀ t ∈ extra, t.role = .outside ∧ t.marks = false) ∧
    (new.marks = true → pc.marks = true ∨ MarkSource s ev pc) ∧
    (new.role = .restarting → pc.role = .restarting ∨ pc = .restartLock) ∧
    ((new.role.inside = pc.role.inside ∧ s'.mu = s.mu) ∨
      (pc.role = .outside ∧ new.role.inside = true ∧ s.mu = false ∧ s'.mu = true) ∨
      (pc.role.inside = true ∧ new.role = .outside ∧ s'.mu = false))
  flag : (pc = .clearFlag → s'.degraded = false) ∧
    (pc ≠ .clearFlag → s.degraded = true → s'.degraded = true) ∧
    (s'.degraded = true → s.degraded = true ∨ ∃ r next, pc = .mark r next)
  status : s'.eligibleForDispatch = false → pc ≠ .publish ∧
    (s.eligibleForDispatch = false ∨ (∃ r next, pc = .markStatus r next) ∨ pc = .restarting)
  gen : s.gen ≤ s'.gen

theorem threadStep_move (hs : s.threadStep i pc ev = some s') : HookMove s i pc ev s' := by
  rcases threadStep_cases hs with hs | hs | hs | hs <;> revert hs
  case' inl => fun_cases callStep s i pc ev
  case' inr.inl => fun_cases recoverStep s i pc ev
  case' inr.inr.inl => fun_cases spawnStep s i pc ev
  case' inr.inr.inr => fun_cases shutdownStep s i pc ev
  case inl.case10 => -- a nudge that is due starts a self-heal
    rintro ⟨⟩
    exact ⟨⟨_, [.recover], rfl, by simp [HookPc.role, HookPc.marks], .inl, .inl,
      .inl ⟨rfl, rfl⟩⟩, by simp [setThread, HookWorld.fork], fun h => ⟨by rintro ⟨⟩, .inl h⟩,
      Nat.le_refl _⟩
  case inr.inr.inl.case11 => -- a new child gets its reader
    rintro ⟨⟩
    refine ⟨⟨.unlock, _, rfl, ?_, by simp [HookPc.marks], by simp [HookPc.role],
      .inl ⟨rfl, rfl⟩⟩, by simp [setThread, HookWorld.fork], by rintro ⟨⟩, Nat.le_refl _⟩
    split <;> simp [HookPc.role, HookPc.marks]
  all_goals
    intro hs
    cases hs <;> refine ⟨⟨_, [], (append_nil _).symm, by simp, ?_, ?_, ?_⟩, ?_, ?_, ?_⟩ <;>
      simp_all [HookPc.role, HookPc.marks, MarkSource, HookRole.inside, setThread,
        HookWorld.reap, eligibleForDispatch]

/-! ## Whole runs -/

variable {w w' : TracedHook} {a : HookAct}

structure TraceInv (w : TracedHook) : Prop where
  lock : Counts (fun t => t.role.inside) w.hook.threads w.hook.mu.toNat
  gen : w.fresh ≤ w.hook.gen
  marks : ∀ (i : Nat) (pc : HookPc), w.hook.threads[i]? = some pc → pc.marks = true →
    w.fresh ≤ w.origin i
  flag : w.hook.degraded = true → w.fresh ≤ w.blame
  kill : ∀ t ∈ w.hook.threads, t.role = .restarting → w.hook.degraded = true
  published : w.published ≤ w.fresh
  status : w.hook.eligibleForDispatch = false → w.published ≤ w.told

theorem TraceInv.init (now : Int) : TraceInv (.init now) where
  lock := rfl
  gen := Nat.le_refl _
  marks _ _ _ _ := Nat.zero_le _
  flag _ := Nat.le_refl _
  kill := by simp [TracedHook.init, HookWorld.init]
  published := Nat.le_refl _
  status _ := Nat.le_refl _

theorem HookMove.lock (h : HookMove s i pc ev s')
    (hlock : Counts (fun t => t.role.inside) s.threads s.mu.toNat) (hi : s.threads[i]? = some pc) :
    Counts (fun t => t.role.inside) s'.threads s'.mu.toNat := by
  obtain ⟨new, extra, hthreads, hextra, -, -, hmu⟩ := h.shape
  rw [hthreads]
  refine counts_fork ?_ fun t ht => (hextra t ht).1
  rcases hmu with ⟨hrole, hmu⟩ | ⟨hold, hnew, hfree, hmu⟩ | ⟨hold, hnew, hmu⟩
  · rw [hmu]
    exact hlock.stay hi hrole.symm
  · rw [hmu]
    exact hlock.lock_acquire hfree hi (by rw [hold]; rfl) hnew
  · rw [hmu]
    exact hlock.lock_release hi hold (by rw [hnew]; rfl)

/-- A goroutine that is about to mark after its step has an event of the live generation. -/
theorem TraceInv.origin (h : TraceInv w) (hi : w.hook.threads[i]? = some pc)
    (hok : handoverOk w (.thread i ev) = true) (hmark : pc.marks = true ∨ MarkSource w.hook ev pc) :
    w.fresh ≤ originAfter w.hook (w.origin i) pc := by
  have hgen := h.gen
  simp only [handoverOk, hi] at hok
  rcases hmark with hmark | hsource
  · have hold := h.marks i pc hi hmark
    cases pc with
    | mark | nudge | nudgeDue | markStatus => exact hold
    | _ => cases hmark
  · cases pc with
    | loadSession c =>
      rw [originAfter, show w.hook.session = none from hsource]
      exact hgen
    | writing c => exact (of_decide_eq_true hok).resolve_left hsource
    | failed c err timeout =>
      obtain ⟨rfl, rfl⟩ := hsource
      exact of_decide_eq_true hok
    | readFailed g err =>
      obtain rfl : g = w.hook.gen := hsource
      exact hgen
    | spawn | awaitReady | forget => exact hgen
    | _ => exact hsource.elim

/-- An unhealthy status belongs to the published generation or to a later one. -/
theorem TraceInv.status_thread (h : TraceInv w) (hi : w.hook.threads[i]? = some pc)
    (hs : w.hook.threadStep i pc ev = some s') (hun : s'.eligibleForDispatch = false) :
    (w.trace s' (.thread i ev)).published ≤ (w.trace s' (.thread i ev)).told := by
  obtain ⟨hpc, hkind⟩ := (threadStep_move hs).status hun
  simp only [TracedHook.trace, hi]
  rw [if_neg hpc]
  rcases hkind with hold | ⟨r, next, rfl⟩ | rfl
  · split
    · exact Nat.le_trans h.published (h.marks i _ hi rfl)
    · exact Nat.le_trans h.published h.gen
    · exact h.status hold
  · exact Nat.le_trans h.published (h.marks i _ hi rfl)
  · exact Nat.le_trans h.published h.gen

theorem TraceInv.thread (h : TraceInv w) (hi : w.hook.threads[i]? = some pc)
    (hok : handoverOk w (.thread i ev) = true) (hs : w.hook.threadStep i pc ev = some s') :
    TraceInv (w.trace s' (.thread i ev)) := by
  have hmove := threadStep_move hs
  have horigin := fun hmark => h.origin hi hok hmark
  have hlock := hmove.lock h.lock hi
  have hstatus := h.status_thread hi hs
  obtain ⟨new, extra, hthreads, hextra, hmarks, hrest, -⟩ := hmove.shape
  obtain ⟨hclear, hkept, hraised⟩ := hmove.flag
  have hgen := Nat.le_trans h.gen hmove.gen
  have hget : ∀ (j : Nat) (t : HookPc), s'.threads[j]? = some t → t.marks = true →
      (j = i ∧ t = new) ∨ (j ≠ i ∧ w.hook.threads[j]? = some t) := by
    grind -linarith
  have hset : ∀ t ∈ s'.threads, t.role = .restarting → t ∈ w.hook.threads.set i new := by
    intro t ht hr
    refine (mem_moved hthreads ht).resolve_right fun hex => ?_
    rw [(hextra t hex).1] at hr
    cases hr
  simp only [handoverOk, hi] at hok
  simp only [TracedHook.trace, hi] at hstatus ⊢
  by_cases hpc : pc = .clearFlag
  · -- Nobody is about to mark, and nobody else has the mutex.
    subst hpc
    have hnone : ∀ t ∈ w.hook.threads, t.marks = false := by simpa using hok
    rw [if_pos rfl]
    refine ⟨hlock, hmove.gen, fun j t ht hm => ?_, fun hd => ?_, fun t ht hr => ?_,
      Nat.le_trans h.published h.gen, hstatus⟩
    · exfalso
      rcases hget j t ht hm with ⟨-, rfl⟩ | ⟨-, hold⟩
      · rcases hmarks hm with hm | hm <;> cases hm
      · rw [hnone t (mem_of_getElem? hold)] at hm
        cases hm
    · rw [hclear rfl] at hd
      cases hd
    · exfalso
      rcases h.lock.lock_others hi rfl new t (hset t ht hr) with rfl | hout
      · rcases hrest hr with hr | hr <;> cases hr
      · rw [hr] at hout
        cases hout
  · rw [if_neg hpc]
    refine ⟨hlock, hgen, fun j t ht hm => ?_, fun hd => ?_, fun t ht hr => ?_, ?_, hstatus⟩
    · rcases hget j t ht hm with ⟨rfl, rfl⟩ | ⟨hne, hold⟩
      · show w.fresh ≤ Function.update w.origin j _ j
        rw [Function.update_self]
        exact horigin (hmarks hm)
      · show w.fresh ≤ Function.update w.origin i _ j
        rw [Function.update_of_ne hne]
        exact h.marks j t hold hm
    · show w.fresh ≤ if pc.setsFlag then w.origin i else w.blame
      split
      · next hset => exact h.marks i pc hi (by cases pc <;> first | rfl | cases hset)
      · next hset =>
        rcases hraised hd with hd | ⟨r, next, rfl⟩
        · exact h.flag hd
        · exact absurd rfl hset
    · refine hkept hpc ?_
      rcases mem_or_eq_of_mem_set (hset t ht hr) with hold | rfl
      · exact h.kill t hold hr
      · rcases hrest hr with hr | rfl
        · exact h.kill pc (mem_of_getElem? hi) hr
        · exact hok
    · show (if pc = .publish then w.fresh else w.published) ≤ w.fresh
      split
      · exact Nat.le_refl _
      · exact h.published

theorem TraceInv.step (h : TraceInv w) (hok : handoverOk w a = true)
    (hs : tracedStep w a = some w') :
    TraceInv w' := by
  obtain ⟨hook, hstep, rfl⟩ := map_eq_some_iff.mp hs
  have hfork : ∀ pc : HookPc, pc.role = .outside → pc.marks = false →
      TraceInv { w with hook := w.hook.fork [pc] } := fun pc hrole hmarks => by
    refine ⟨counts_fork h.lock (by simpa using hrole), h.gen, fun i t ht hm => ?_, h.flag, ?_,
      h.published, h.status⟩
    · exact h.marks i t (by grind -linarith [HookWorld.fork]) hm
    · intro t ht hr
      rcases mem_append.mp ht with hold | hlast
      · exact h.kill t hold hr
      · rw [List.mem_singleton.mp hlast, hrole] at hr
        cases hr
  cases a with
  | call c | shutdown => cases hstep; exact hfork _ rfl rfl
  | exit p | advance d => cases hstep; exact { h with }
  | thread i ev =>
    simp only [hookStep] at hstep
    split at hstep
    · next pc hi => exact h.thread hi hok hstep
    · cases hstep

/-- **An old child generation does not harm a new one** in every run whose steps meet `handoverOk`:
the flag is set for no older generation than the live one, no restart is about to kill the child
while the flag is clear, and once a generation is published no unhealthy status is stored for an
older one. -/
theorem old_generation_harmless (now : Int) (acts : List HookAct) (w : TracedHook)
    (hrun : Guarded tracedStep (fun w a => handoverOk w a = true) (.init now) acts w) :
    (w.hook.degraded = true → w.fresh ≤ w.blame) ∧
      (HookPc.retire ∈ w.hook.threads → w.hook.degraded = true ∧ w.fresh ≤ w.blame) ∧
      (w.hook.eligibleForDispatch = false → w.published ≤ w.told) := by
  have h := hrun.invariant (fun _ _ _ hinv hok hs => hinv.step hok hs) (TraceInv.init now)
  exact ⟨h.flag, fun hret => ⟨h.kill _ hret rfl, h.flag (h.kill _ hret rfl)⟩, h.status⟩

/-! ### Two runs

The child is started and a call loads its session; the child dies, a second call finds the flag
set, and its self-heal installs a fresh child. -/

def startedHook : List HookAct :=
  [.thread 0 .started, .thread 0 .ready] ++ List.replicate 5 (.thread 0 .go)

/-- Goroutine 1 is the reader, 2 the poll, 3 the first call, 4 the second one and 5 its restart. -/
def replacedChild : List HookAct :=
  startedHook ++ [.call .detect, .thread 3 .go, .thread 3 .go, .thread 1 (.readError "EOF")] ++
    List.replicate 3 (.thread 1 .go) ++ [.call .detect] ++ List.replicate 3 (.thread 4 .go) ++
    List.replicate 7 (.thread 5 .go) ++ [.thread 5 .started, .thread 5 .ready] ++
    List.replicate 5 (.thread 5 .go)

theorem finished_call_leaves_fresh_child :
    ∃ w, Guarded tracedStep (fun w a => handoverOk w a = true) (.init recoverCooldown)
        (replacedChild ++ [.thread 3 .wrote]) w ∧
      w.fresh = 2 ∧ w.published = 2 ∧ (w.hook.degraded = true → w.fresh ≤ w.blame) ∧
      (w.hook.eligibleForDispatch = false → w.published ≤ w.told) := by
  have hexec : (guardedExec tracedStep (fun w a => handoverOk w a = true) (.init recoverCooldown)
      (replacedChild ++ [.thread 3 .wrote])).map (fun w => (w.fresh, w.published)) = some (2, 2) := by
    decide +kernel
  obtain ⟨w, hw, hval⟩ := map_eq_some_iff.mp hexec
  obtain ⟨hfresh, hpublished⟩ := Prod.mk.injEq .. ▸ hval
  have hrun := Guarded.of_guardedExec hw
  obtain ⟨hflag, -, hstatus⟩ := old_generation_harmless _ _ w hrun
  exact ⟨w, hrun, hfresh, hpublished, hflag, hstatus⟩

/-- The write of the first call times out on the old pipe, and the fresh child is marked. -/
theorem stale_timeout_marks_fresh_child :
    ¬ ∀ (now : Int) (acts : List HookAct) (w : TracedHook),
      exec tracedStep (.init now) acts = some w → w.hook.degraded = true → w.fresh ≤ w.blame := by
  intro hall
  have hexec : (exec tracedStep (.init recoverCooldown)
      (replacedChild ++ [.thread 3 .writeTimedOut, .thread 3 .go])).map
      (fun w => (w.hook.degraded, w.fresh, w.blame)) = some (true, 2, 1) := by
    decide +kernel
  obtain ⟨w, hw, hval⟩ := map_eq_some_iff.mp hexec
  simp only [Prod.mk.injEq] at hval
  have hle := hall _ _ w hw hval.1
  omega

end AikeyProxy.AppHook
