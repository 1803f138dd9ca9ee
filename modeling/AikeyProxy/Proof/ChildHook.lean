import AikeyProxy.AppHook.ChildHook

/-!
# When a shutdown is final

Processes are started and stopped under the hook's mutex, so each running one is the hook's current
one or the one the holder has just started. A `Shutdown` that returns without error leaves neither.
It also leaves a set flag, and a set flag starts the self-heal; nothing in a restart looks whether
the hook was shut down.
-/

namespace AikeyProxy.AppHook

open Lib List HookWorld

/-- No process runs once a `Shutdown` has returned without error. -/
def ShutdownFinal (s : HookWorld) : Prop := s.down = true → s.running = []

/-- The condition on a step: a restart takes the mutex only while no `Shutdown` has returned
without error. -/
def HookStepOk (s : HookWorld) : HookAct → Prop
  | .thread i _ => s.threads[i]? = some .restartLock → s.down = false
  | _ => True

instance (s : HookWorld) : ∀ a, Decidable (HookStepOk s a)
  | .thread i _ =>
    inferInstanceAs (Decidable (s.threads[i]? = some .restartLock → s.down = false))
  | .call _ | .shutdown | .exit _ | .advance _ => inferInstanceAs (Decidable True)

/-! ## What a goroutine is about -/

/-- What the holder of the mutex is about to do with processes. -/
inductive HookRole where
  | outside
  | locked
  | restarting
  | spawning
  | child (p : Nat)
  | installed
  | ended
  | closed

def HookRole.inside : HookRole → Bool
  | .outside => false
  | _ => true

def HookPc.role : HookPc → HookRole
  | .nudge next | .nudgeDue next | .mark _ next | .markStatus _ next => next.role
  | .retire => .restarting
  | .dropSession | .restarting | .spawn => .spawning
  | .awaitReady p | .install p => .child p
  | .openSession | .clearFlag | .publish => .installed
  | .unlock | .closing | .closeSession | .awaitExit => .locked
  | .forget => .ended
  | .shutdownReturn => .closed
  | _ => .outside

@[simp] theorem degradedResult_role (c : HookCall) : c.degradedResult.role = .outside := by
  cases c <;> rfl

@[simp] theorem failedResult_role (err : String) (c : HookCall) :
    (c.failedResult err).role = .outside := by
  cases c <;> rfl

@[simp] theorem answeredResult_role (empty : Bool) (c : HookCall) :
    (c.answeredResult empty).role = .outside := by
  cases c <;> rfl

def RoleOk (s : HookWorld) : HookRole → Prop
  | .outside | .locked => True
  | .restarting | .installed => s.down = false
  | .spawning | .child _ => s.down = false ∧ s.cmd = none
  | .ended => ∀ p, s.cmd = some p → p ∉ s.running
  | .closed => s.cmd = none

structure HookInv (s : HookWorld) : Prop where
  lock : Counts (fun t => t.role.inside) s.threads s.mu.toNat
  roles : ∀ t ∈ s.threads, RoleOk s t.role
  owned : ∀ p ∈ s.running, s.cmd = some p ∨ ∃ t ∈ s.threads, t.role = .child p
  down : s.down = true → s.cmd = none

theorem hookInv_init (now : Int) : HookInv (.init now) where
  lock := rfl
  roles := by
    intro t ht
    obtain rfl := mem_singleton.mp ht
    exact ⟨rfl, rfl⟩
  owned := nofun
  down := fun _ => rfl

theorem HookInv.final {s : HookWorld} (h : HookInv s) : ShutdownFinal s := by
  intro hdown
  refine eq_nil_iff_forall_not_mem.mpr fun p hp => ?_
  rcases h.owned p hp with hcmd | ⟨t, ht, hrole⟩
  · cases (h.down hdown).symm.trans hcmd
  · have hok := h.roles t ht
    grind -linarith [RoleOk]

/-! ## Moves -/

variable {s s' : HookWorld} {i : Nat} {old new : HookPc} {extra : List HookPc}

theorem mem_moved {t : HookPc} (hthreads : s'.threads = s.threads.set i new ++ extra)
    (ht : t ∈ s'.threads) : t ∈ s.threads.set i new ∨ t ∈ extra := by
  rw [hthreads] at ht
  exact mem_append.mp ht

theorem counts_fork {n : Int} {ts : List HookPc}
    (h : Counts (fun t : HookPc => t.role.inside) ts n) (hextra : ∀ t ∈ extra, t.role = .outside) :
    Counts (fun t : HookPc => t.role.inside) (ts ++ extra) n := by
  have hzero : extra.countP (fun t => t.role.inside) = 0 := by
    refine countP_eq_zero.mpr fun t ht => ?_
    simp [hextra t ht, HookRole.inside]
  unfold Counts at h ⊢
  rw [countP_append, hzero]
  exact h

theorem HookInv.same (h : HookInv s) (hi : s.threads[i]? = some old)
    (hthreads : s'.threads = s.threads.set i new ++ extra) (hrole : new.role = old.role)
    (hextra : ∀ t ∈ extra, t.role = .outside) (hcmd : s'.cmd = s.cmd) (hdown : s'.down = s.down)
    (hmu : s'.mu = s.mu) (hrun : ∀ p ∈ s'.running, p ∈ s.running) : HookInv s' := by
  have hold : old ∈ s.threads := mem_of_getElem? hi
  have hset := fun (t : HookPc) (ht : t ∈ s.threads) => mem_set_of_mem hi new ht
  have hself := mem_set_self hi new
  -- the same cases hold with fewer processes
  have hok : ∀ r, RoleOk s r → RoleOk s' r := by
    intro r hr
    cases r <;> grind -linarith [RoleOk]
  obtain ⟨hlock, hroles, howned, hnone⟩ := h
  refine ⟨?_, ?_, by grind -linarith, by grind -linarith⟩
  · rw [hthreads, hmu]
    exact counts_fork (hlock.stay hi (by rw [hrole])) hextra
  · intro t ht
    rcases mem_moved hthreads ht with hin | hex
    · grind -linarith [mem_or_eq_of_mem_set]
    · rw [hextra t hex]
      trivial

theorem HookRole.eq_outside {r : HookRole} (h : r.inside = false) : r = .outside := by
  cases r with
  | outside => rfl
  | _ => cases h

theorem HookInv.others (h : HookInv s) (hi : s.threads[i]? = some old)
    (hold : old.role.inside = true) {t : HookPc} (ht : t ∈ s.threads.set i new) :
    t = new ∨ t.role = .outside := by
  rcases h.lock.lock_others hi hold new t ht with hnew | hout
  · exact Or.inl hnew
  · exact Or.inr (HookRole.eq_outside hout)

variable {p : Nat} {ev : HookEvent} {pc : HookPc}

theorem HookInv.owned_by (h : HookInv s) (hi : s.threads[i]? = some old)
    (hold : old.role.inside = true) (hp : p ∈ s.running) :
    s.cmd = some p ∨ old.role = .child p := by
  rcases h.owned p hp with hcmd | ⟨t, ht, hchild⟩
  · exact Or.inl hcmd
  · have hother : t ∈ s.threads.set i old → t = old ∨ t.role = .outside := h.others hi hold
    grind -linarith [mem_set_of_mem hi old ht]

def HookRole.starting : HookRole → Bool
  | .child _ => true
  | _ => false

theorem HookInv.current (h : HookInv s) (hi : s.threads[i]? = some old)
    (hold : old.role.inside = true) (hstart : old.role.starting = false) (hp : p ∈ s.running) :
    s.cmd = some p := by
  grind -linarith [h.owned_by hi hold hp, HookRole.starting]

theorem HookInv.hold (h : HookInv s) (hi : s.threads[i]? = some old) (hold : old.role.inside = true)
    (hthreads : s'.threads = s.threads.set i new ++ extra) (hextra : ∀ t ∈ extra, t.role = .outside)
    (hlock : Counts (fun t => t.role.inside) s'.threads s'.mu.toNat) (hok : RoleOk s' new.role)
    (howned : ∀ p ∈ s'.running, s'.cmd = some p ∨ new.role = .child p)
    (hdown : s'.down = true → s'.cmd = none) : HookInv s' := by
  have hself := mem_set_self hi new
  refine ⟨hlock, fun t ht => ?_, by grind -linarith, hdown⟩
  rcases mem_moved hthreads ht with hset | hex
  · rcases h.others hi hold hset with rfl | hout
    · exact hok
    · rw [hout]; trivial
  · rw [hextra t hex]; trivial

theorem HookInv.keep (h : HookInv s) (new : HookPc) (hi : s.threads[i]? = some old)
    (hold : old.role.inside = true) (hnew : new.role.inside = true)
    (hthreads : s'.threads = s.threads.set i new ++ extra)
    (hextra : ∀ t ∈ extra, t.role = .outside) (hmu : s'.mu = s.mu) (hok : RoleOk s' new.role)
    (howned : ∀ p ∈ s'.running, s'.cmd = some p ∨ new.role = .child p)
    (hdown : s'.down = true → s'.cmd = none) : HookInv s' := by
  refine h.hold hi hold hthreads hextra ?_ hok howned hdown
  rw [hthreads, hmu]
  exact counts_fork (h.lock.stay hi (by rw [hold, hnew])) hextra

theorem HookInv.leave (h : HookInv s) (hi : s.threads[i]? = some old)
    (hold : old.role.inside = true) (hnew : new.role = .outside)
    (hthreads : s'.threads = s.threads.set i new) (hmu : s'.mu = false)
    (howned : ∀ p ∈ s'.running, s'.cmd = some p)
    (hdown : s'.down = true → s'.cmd = none) : HookInv s' := by
  have hnew' : new.role.inside = false := by rw [hnew]; rfl
  refine h.hold hi hold (hthreads.trans (append_nil _).symm) (by simp) ?_ ?_ ?_ hdown
  · rw [hthreads, hmu]
    exact h.lock.lock_release hi hold hnew'
  · rw [hnew]; trivial
  · exact fun p hp => Or.inl (howned p hp)

theorem HookInv.acquire (h : HookInv s) (hi : s.threads[i]? = some old)
    (hold : old.role = .outside) (hnew : new.role.inside = true) (hfree : s.mu = false)
    (hok : RoleOk { s.setThread i new with mu := true } new.role) :
    HookInv { s.setThread i new with mu := true } := by
  have hout : ∀ t ∈ s.threads, t.role = .outside := fun t ht =>
    HookRole.eq_outside (h.lock.lock_free hfree t ht)
  have hold' : old.role.inside = false := by rw [hold]; rfl
  have howned := h.owned
  refine ⟨h.lock.lock_acquire hfree hi hold' hnew, fun t ht => ?_, ?_, h.down⟩
  · rcases mem_or_eq_of_mem_set ht with hin | rfl
    · rw [hout t hin]; trivial
    · exact hok
  · grind -linarith [setThread]

/-! ## Calls -/

/-- A step of a call or of the reader changes the flag, the status and its own place, and
may start a self-heal. -/
theorem callStep_effect (hs : s.callStep i pc ev = some s') :
    ∃ new extra, s'.threads = s.threads.set i new ++ extra ∧ new.role = pc.role ∧
      (∀ t ∈ extra, t.role = .outside) ∧ s'.cmd = s.cmd ∧ s'.running = s.running ∧
      s'.down = s.down ∧ s'.mu = s.mu := by
  revert hs
  fun_cases callStep s i pc ev <;> intro hs <;> cases hs
  case case10 => exact ⟨_, [.recover], rfl, rfl, by simp [HookPc.role], rfl, rfl, rfl, rfl⟩
  all_goals
    refine ⟨_, [], (append_nil _).symm, ?_, by simp, rfl, rfl, rfl, rfl⟩
    simp [HookPc.role]

theorem hookInv_call (h : HookInv s) (hi : s.threads[i]? = some pc)
    (hs : s.callStep i pc ev = some s') : HookInv s' := by
  obtain ⟨new, extra, hthreads, hrole, hextra, hcmd, hrun, hdown, hmu⟩ := callStep_effect hs
  exact h.same hi hthreads hrole hextra hcmd hdown hmu fun p hp => hrun ▸ hp

/-! ## Restarts -/

theorem mem_reap {q : Nat} : q ∈ (s.reap p).running ↔ q ∈ s.running ∧ q ≠ p := by
  simp [HookWorld.reap]

theorem HookInv.outside (h : HookInv s) (hi : s.threads[i]? = some old)
    (hthreads : s'.threads = s.threads.set i new) (hrole : new.role = old.role)
    (hcmd : s'.cmd = s.cmd) (hdown : s'.down = s.down) (hmu : s'.mu = s.mu)
    (hrun : s'.running = s.running) : HookInv s' :=
  h.same hi (hthreads.trans (append_nil _).symm) hrole (by simp) hcmd hdown hmu
    fun p hp => hrun ▸ hp

theorem hookInv_recover (h : HookInv s) (hi : s.threads[i]? = some pc)
    (hok : pc = .restartLock → s.down = false) (hs : s.recoverStep i pc ev = some s') :
    HookInv s' := by
  revert hs
  fun_cases recoverStep s i pc ev <;> intro hs <;> cases hs
  case case7 hfree => exact h.acquire hi rfl rfl (by simpa using hfree) (hok rfl)
  case case8 | case9 =>
    -- the old process is killed
    have hup : s.down = false := h.roles _ (mem_of_getElem? hi)
    have hcurrent : ∀ q ∈ s.running, s.cmd = some q := fun q hq => h.current hi rfl rfl hq
    refine h.keep .dropSession hi rfl rfl (append_nil _).symm (by simp) rfl ⟨hup, ?_⟩ ?_ ?_ <;>
      grind -linarith [setThread, mem_reap]
  all_goals exact h.outside hi rfl rfl rfl rfl rfl rfl

theorem hookInv_spawnFailed {reason : String} (h : HookInv s) (hi : s.threads[i]? = some old)
    (hthreads : s'.threads = s.threads.set i (.mark reason .unlock))
    (hold : old.role = .spawning ∨ ∃ p, old.role = .child p ∧ p ∉ s'.running)
    (hcmd : s'.cmd = s.cmd) (hdown : s'.down = s.down) (hmu : s'.mu = s.mu)
    (hrun : ∀ p ∈ s'.running, p ∈ s.running) : HookInv s' := by
  have hin : old.role.inside = true := by
    rcases hold with hr | ⟨p, hr, -⟩ <;> rw [hr] <;> rfl
  have hdown' := h.down
  refine h.keep (.mark reason .unlock) hi hin rfl (hthreads.trans (append_nil _).symm)
    (by simp) hmu trivial (fun q hq => ?_) (by grind -linarith)
  have hby := h.owned_by hi hin (hrun q hq)
  grind -linarith

theorem hookInv_spawn (h : HookInv s) (hi : s.threads[i]? = some pc)
    (hs : s.spawnStep i pc ev = some s') : HookInv s' := by
  have hrole := h.roles _ (mem_of_getElem? hi)
  have hgone : ∀ p, p ∉ (s.reap p).running := fun p hp => (mem_reap.mp hp).2 rfl
  revert hs
  fun_cases spawnStep s i pc ev <;> intro hs <;> cases hs
  case case1 | case2 | case3 =>
    exact hookInv_spawnFailed h hi rfl (Or.inl rfl) rfl rfl rfl fun _ hp => hp
  case case4 => -- the process starts
    refine h.keep (.awaitReady s.nextProc) hi rfl rfl (append_nil _).symm (by simp) rfl
      hrole (fun q hq => ?_) (fun _ => hrole.2)
    rcases mem_cons.mp hq with rfl | hq
    · exact Or.inr rfl
    · exact Or.inl (h.current hi rfl rfl hq)
  case case6 | case7 =>
    exact hookInv_spawnFailed h hi rfl (Or.inr ⟨_, rfl, hgone _⟩) rfl rfl rfl
      fun _ hp => (mem_reap.mp hp).1
  case case8 p => -- the process becomes the current one
    refine h.keep .openSession hi rfl rfl (append_nil _).symm (by simp) rfl hrole.1
      (fun q hq => ?_) fun hd => by cases hrole.1.symm.trans hd
    rcases h.owned_by hi rfl hq with hc | hc
    · cases hrole.2.symm.trans hc
    · exact Or.inl (congrArg some (HookRole.child.inj hc))
  case case11 =>
    refine h.keep .unlock hi rfl rfl rfl (fun t ht => ?_) rfl trivial
      (fun q hq => Or.inl (h.current hi rfl rfl hq)) h.down
    grind -linarith [HookPc.role]
  case case12 => exact h.leave hi rfl rfl rfl rfl (fun q hq => h.current hi rfl rfl hq) h.down
  all_goals exact h.outside hi rfl rfl rfl rfl rfl rfl

/-! ## Shutdown -/

theorem hookInv_closing (h : HookInv s) (hi : s.threads[i]? = some old) (hold : old.role = .locked)
    (hthreads : s'.threads = s.threads.set i new) (hnew : new.role.inside = true)
    (hok : RoleOk s' new.role) (hcmd : s'.cmd = s.cmd) (hdown : s'.down = s.down)
    (hmu : s'.mu = s.mu) (hrun : ∀ p ∈ s'.running, p ∈ s.running) : HookInv s' := by
  have hin : old.role.inside = true := by rw [hold]; rfl
  have hstart : old.role.starting = false := by rw [hold]; rfl
  refine h.keep new hi hin hnew (hthreads.trans (append_nil _).symm) (by simp) hmu hok ?_ ?_
  · intro q hq
    exact Or.inl (hcmd.trans (h.current hi hin hstart (hrun q hq)))
  · intro hd
    rw [hcmd]
    exact h.down (hdown ▸ hd)

theorem hookInv_shutdown (h : HookInv s) (hi : s.threads[i]? = some pc)
    (hs : s.shutdownStep i pc ev = some s') : HookInv s' := by
  have hrole := h.roles _ (mem_of_getElem? hi)
  revert hs
  fun_cases shutdownStep s i pc ev <;> intro hs <;> cases hs
  case case3 hfree => exact h.acquire hi rfl rfl (by simpa using hfree) trivial
  case case4 hcmd => exact hookInv_closing h hi rfl rfl rfl hcmd rfl rfl rfl fun _ hp => hp
  case case9 p hcmd hgone => -- the process has ended
    refine hookInv_closing h hi rfl rfl rfl ?_ rfl rfl rfl fun _ hp => hp
    exact fun q hq => Option.some.inj (hcmd.symm.trans hq) ▸ hgone
  case case11 p hcmd => -- it is killed after the timeout
    refine hookInv_closing h hi rfl rfl rfl ?_ rfl rfl rfl fun _ hp => (mem_reap.mp hp).1
    exact fun q hq hin => (mem_reap.mp hin).2 (Option.some.inj (hq.symm.trans hcmd))
  case case13 => -- it is killed because the context ended: `Shutdown` returns an error
    exact hookInv_closing h hi rfl rfl rfl trivial rfl rfl rfl fun _ hp => (mem_reap.mp hp).1
  case case14 =>
    exact h.keep (.mark "shutdown" .shutdownReturn) hi rfl rfl (append_nil _).symm
      (by simp) rfl rfl (fun q hq => absurd hq (hrole q (h.current hi rfl rfl hq))) (fun _ => rfl)
  case case15 => -- without error: there is no current process and nobody is starting one
    exact h.leave hi rfl rfl rfl rfl (fun q hq => h.current hi rfl rfl hq) (fun _ => hrole)
  all_goals exact h.outside hi rfl rfl rfl rfl rfl rfl

/-! ## Every run -/

theorem hookInv_fork (h : HookInv s) (hextra : ∀ t ∈ extra, t.role = .outside) :
    HookInv (s.fork extra) := by
  have howned := h.owned
  refine ⟨counts_fork h.lock hextra, fun t ht => ?_, by grind -linarith [HookWorld.fork], h.down⟩
  rcases mem_append.mp ht with hin | hex
  · exact h.roles t hin
  · rw [hextra t hex]; trivial

theorem hookInv_exit (h : HookInv s) (p : Nat) : HookInv (s.reap p) := by
  refine ⟨h.lock, fun t ht => ?_, fun q hq => h.owned q (mem_reap.mp hq).1, h.down⟩
  have hok := h.roles t ht
  cases hr : t.role <;> rw [hr] at hok <;> first | exact hok | grind -linarith [RoleOk, mem_reap, HookWorld.reap]

theorem threadStep_cases (hs : s.threadStep i pc ev = some s') :
    s.callStep i pc ev = some s' ∨ s.recoverStep i pc ev = some s' ∨
      s.spawnStep i pc ev = some s' ∨ s.shutdownStep i pc ev = some s' := by
  unfold threadStep at hs
  grind -linarith

theorem hookInv_step {a : HookAct} (h : HookInv s) (hok : HookStepOk s a)
    (hs : hookStep s a = some s') : HookInv s' := by
  cases a with
  | call c | shutdown => cases hs; exact hookInv_fork h (by simp [HookPc.role])
  | thread i ev =>
    simp only [hookStep] at hs
    split at hs
    next pc hi =>
      rcases threadStep_cases hs with hc | hc | hc | hc
      · exact hookInv_call h hi hc
      · exact hookInv_recover h hi (fun heq => hok (heq ▸ hi)) hc
      · exact hookInv_spawn h hi hc
      · exact hookInv_shutdown h hi hc
    · cases hs
  | exit p => cases hs; exact hookInv_exit h p
  | advance d => cases hs; exact ⟨h.lock, h.roles, h.owned, h.down⟩

/-- **A shutdown is final as long as no restart comes after it.** -/
theorem shutdown_final {now : Int} {acts : List HookAct} {s : HookWorld}
    (hrun : Guarded hookStep HookStepOk (.init now) acts s) : ShutdownFinal s :=
  (hrun.invariant (fun _ _ _ h hok hs => hookInv_step h hok hs) (hookInv_init now)).final

/-- The child answers a detection; a restart is waiting for the mutex when `Shutdown` is called, and
gets it first. -/
def restartBeforeShutdown : List HookAct :=
  [.thread 0 .started, .thread 0 .ready, .thread 0 .go, .thread 0 .go, .thread 0 .go, .thread 0 .go,
    .thread 0 .go,
    .thread 1 (.readError "EOF"), .thread 1 .go, .thread 1 .go, .thread 1 .go,
    .call .detect, .thread 3 .go, .thread 3 .go, .thread 3 .go,
    .thread 4 .go, .thread 4 .go, .thread 4 .go,
    .shutdown, .thread 5 .go,
    .thread 4 .go, .thread 4 .go, .thread 4 .go, .thread 4 .go, .thread 4 .started, .thread 4 .ready,
    .thread 4 .go, .thread 4 .go, .thread 4 .go, .thread 4 .go, .thread 4 .go,
    .thread 5 .go, .thread 5 .go, .thread 5 .go, .thread 5 .killTimeout, .thread 5 .go,
    .thread 5 .go, .thread 5 .go, .thread 5 .go]

theorem restart_before_shutdown_final : ∃ s,
    Guarded hookStep HookStepOk (.init recoverCooldown) restartBeforeShutdown s ∧
      s.down = true ∧ s.nextProc = 2 ∧ ShutdownFinal s := by
  have hrun := Guarded.of_guardedExec (show guardedExec hookStep HookStepOk (.init recoverCooldown)
    restartBeforeShutdown = some _ from rfl)
  exact ⟨_, hrun, rfl, rfl, shutdown_final hrun⟩

/-- The child starts, `Shutdown` returns without error, and one more detection comes in. -/
def detectionAfterShutdown : List HookAct :=
  [.thread 0 .started, .thread 0 .ready, .thread 0 .go, .thread 0 .go, .thread 0 .go, .thread 0 .go,
    .thread 0 .go,
    .shutdown, .thread 3 .go, .thread 3 .go, .thread 3 .go, .thread 3 .go, .exit 0, .thread 3 .exited,
    .thread 3 .go, .thread 3 .go, .thread 3 .go, .thread 3 .go,
    .call .detect, .thread 4 .go, .thread 4 .go, .thread 4 .go,
    .thread 5 .go, .thread 5 .go, .thread 5 .go, .thread 5 .go, .thread 5 .go, .thread 5 .go,
    .thread 5 .go, .thread 5 .started]

theorem shutdown_not_final :
    ¬ ∀ (now : Int) (acts : List HookAct) (s : HookWorld),
      exec hookStep (.init now) acts = some s → ShutdownFinal s := by
  intro hall
  have hnone := hall recoverCooldown detectionAfterShutdown _ rfl rfl
  exact absurd hnone (by decide)

end AikeyProxy.AppHook
