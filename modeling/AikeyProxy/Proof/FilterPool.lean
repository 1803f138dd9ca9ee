import AikeyProxy.AppHook.FilterPool

/-!
# Which worker a pick chooses

The scan trusts the health bit, the chosen worker looks at the flag. As long as the two agree
wherever a scan looks, a scan that comes to its end has found every worker degraded, and one that
stops early has found a fit one. Picks with consecutive numbers begin at consecutive workers, so
among as many as there are workers one begins at any given worker, and nudges it if it is unfit.
-/

namespace AikeyProxy.AppHook

open Lib List PoolWorld Option PickPc

/-! ## The property and its condition -/

section

variable (s : PoolWorld)

/-- The condition on a step of a pick. The health bit of the worker it looks at is the
opposite of the flag; and the cursor does not wrap around within the scan. -/
def PickOk : PickPc → Prop
  | .start => s.next + s.workers.length < cursorSize
  | .scan number off _ => s.eligibleAt (s.index number off) = !s.degradedAt (s.index number off)
  | _ => True

instance (s : PoolWorld) : ∀ pc, Decidable (PickOk s pc)
  | .start => inferInstanceAs (Decidable (_ < _))
  | .scan .. => inferInstanceAs (Decidable (_ = _))
  | .nudge .. | .nudgeDue .. | .returned => isTrue trivial

def PoolStepOk : PoolAct → Prop
  | .pick k => ∀ p ∈ s.picks[k]?, PickOk s p.pc
  | _ => True

instance (s : PoolWorld) : ∀ a, Decidable (PoolStepOk s a)
  | .pick k => inferInstanceAs (Decidable (∀ p ∈ s.picks[k]?, PickOk s p.pc))
  | .detect | .hook .. => inferInstanceAs (Decidable True)

/-- Content is handed to a worker with its flag set only if every worker was degraded at
some moment during the pick. -/
def InspectsIfPossible : Prop :=
  ∀ h ∈ s.handed, h.flagged = true → ∀ w < s.workers.length, w ∈ h.seen

/-- The picks that take the next numbers of the cursor, as many as there are workers. -/
def NextPicks (number : Nat) : Prop :=
  s.next < number ∧ number ≤ s.next + s.workers.length

/-- From here on, a worker that stays degraded until the next picks are over has been nudged
by one of them. -/
def NudgesUnfit : Prop :=
  ∀ w < s.workers.length, ∀ acts s',
    Guarded poolStep (fun t a => PoolStepOk t a ∧ t.degradedAt w = true) s acts s' →
    (∀ number, NextPicks s number → ∃ h ∈ s'.handed, h.number = number) →
    ∃ number, NextPicks s number ∧ (number, w) ∈ s'.nudged

end

/-! ## Round robin -/

theorem exists_mod_eq {n w : Nat} (hw : w < n) (start : Nat) : ∃ k < n, (start + k) % n = w := by
  have hlt := Nat.mod_lt start (by omega : 0 < n)
  rcases Nat.lt_or_ge w (start % n) with hgt | hle
  · -- the worker comes after the end of the row
    have hk : w + n - start % n < n := by omega
    refine ⟨w + n - start % n, hk, ?_⟩
    rw [Nat.add_mod, Nat.mod_eq_of_lt hk, show start % n + (w + n - start % n) = w + n by omega,
      Nat.add_mod_right, Nat.mod_eq_of_lt hw]
  · have hk : w - start % n < n := by omega
    refine ⟨w - start % n, hk, ?_⟩
    rw [Nat.add_mod, Nat.mod_eq_of_lt hk, show start % n + (w - start % n) = w by omega,
      Nat.mod_eq_of_lt hw]

variable {s s' : PoolWorld} {n : Nat}

theorem index_eq (hsize : s.workers.length = n) {number off : Nat}
    (hbound : number + n ≤ cursorSize) (hoff : off < n) :
    s.index number off = (number + off) % n := by
  rw [index, hsize, Nat.mod_eq_of_lt (by omega : number + off < cursorSize)]

/-! ## The invariant -/

def ScanInv (n next : Nat) (p : Pick) : Prop :=
  match p.pc with
  | .scan number off fallback =>
    number ≤ next ∧ number + n ≤ cursorSize ∧ (0 < off → fallback.isSome) ∧
      ∀ k < off, (number + k) % n ∈ p.seen
  | .nudge number off fallback | .nudgeDue number off fallback =>
    number ≤ next ∧ number + n ≤ cursorSize ∧ off < n ∧ fallback.isSome ∧
      ∀ k ≤ off, (number + k) % n ∈ p.seen
  | _ => True

variable {p : Pick} {k : Nat} {a : PoolAct}

theorem ScanInv.mono {next next' : Nat} {p' : Pick} (h : ScanInv n next p) (hpc : p'.pc = p.pc)
    (hnext : next ≤ next') (hseen : ∀ w ∈ p.seen, w ∈ p'.seen) : ScanInv n next' p' := by
  unfold ScanInv at h ⊢
  rw [hpc]
  grind -linarith

structure PoolInv (n : Nat) (s : PoolWorld) : Prop where
  size : s.workers.length = n
  scans : ∀ p ∈ s.picks, ScanInv n s.next p
  handed : ∀ h ∈ s.handed, h.number ≤ s.next ∧ (h.flagged = true → ∀ w < n, w ∈ h.seen)

def Observed (s : PoolWorld) : Prop :=
  ∀ p ∈ s.picks, p.pc ≠ .returned → ∀ w, s.degradedAt w = true → w ∈ p.seen

theorem mem_observe (hp : p ∈ s.observe.picks) :
    ∃ q ∈ s.picks, p.pc = q.pc ∧ (∀ w ∈ q.seen, w ∈ p.seen) ∧
      (p.pc ≠ .returned → ∀ w, s.degradedAt w = true → w ∈ p.seen) := by
  obtain ⟨q, hq, rfl⟩ := mem_map.mp hp
  refine ⟨q, hq, ?_⟩
  grind -linarith [degradedAt]

theorem poolInv_observe (h : PoolInv n s) : PoolInv n s.observe ∧ Observed s.observe := by
  refine ⟨⟨h.size, ?_, h.handed⟩, ?_⟩
  · intro p hp
    obtain ⟨q, hq, hpc, hseen, -⟩ := mem_observe hp
    exact (h.scans q hq).mono hpc (Nat.le_refl _) hseen
  · intro p hp hne
    obtain ⟨q, -, -, -, hall⟩ := mem_observe hp
    exact hall hne

/-! ## One step of a pick -/

theorem PoolInv.setPick (h : PoolInv n s) (hp : ScanInv n s.next p) (k : Nat) :
    PoolInv n (s.setPick k p) := by
  refine { h with scans := fun q hq => ?_ }
  obtain hq | rfl := mem_or_eq_of_mem_set hq
  · exact h.scans q hq
  · exact hp

theorem PoolInv.advance (h : PoolInv n s) {number off : Nat} {fallback : Option Nat}
    (hp : ScanInv n s.next { p with pc := .nudgeDue number off fallback }) (k : Nat) :
    PoolInv n (s.setPick k { p with pc := .scan number (off + 1) fallback }) := by
  obtain ⟨hle, hbound, -, hfb, hall⟩ := hp
  exact h.setPick (p := { p with pc := .scan number (off + 1) fallback })
    ⟨hle, hbound, fun _ => hfb, fun j hj => hall j (Nat.le_of_lt_succ hj)⟩ k

theorem PoolInv.hand (h : PoolInv n s) {number w : Nat} (hle : number ≤ s.next)
    (hflag : s.degradedAt w = true → ∀ w' < n, w' ∈ p.seen) : PoolInv n (s.hand k p number w) := by
  refine ⟨(length_modify ..).trans h.size,
    (h.setPick (p := { p with pc := .returned }) trivial k).scans, fun o ho => ?_⟩
  obtain ho | ho := mem_append.mp ho
  · exact h.handed o ho
  · obtain rfl := mem_singleton.mp ho
    exact ⟨hle, hflag⟩

theorem poolInv_pick (hn : 2 ≤ n) (h : PoolInv n s) (hobs : Observed s) (hk : s.picks[k]? = some p)
    (hok : PickOk s p.pc) (hs : s.pickStep k p = some s') : PoolInv n s' := by
  have hmem : p ∈ s.picks := mem_of_getElem? hk
  have hseen := hobs p hmem
  have hscan := h.scans p hmem
  have hsize := h.size
  unfold pickStep at hs
  unfold ScanInv at hscan
  cases hpc : p.pc with
  | start =>
    rw [hpc] at hs hok
    have hroom : s.next + s.workers.length < cursorSize := hok
    simp only [if_neg (by omega : s.workers.length ≠ 1),
      Nat.mod_eq_of_lt (by omega : s.next + 1 < cursorSize)] at hs
    cases hs
    have hold : PoolInv n { s with next := s.next + 1 } :=
      ⟨hsize, fun q hq => (h.scans q hq).mono rfl (Nat.le_succ _) fun _ => id,
        fun o ho => (h.handed o ho).imp_left Nat.le_succ_of_le⟩
    exact hold.setPick (p := { p with pc := .scan (s.next + 1) 0 none })
      ⟨Nat.le_refl _, by omega, nofun, nofun⟩ k
  | scan number off fallback =>
    rw [hpc] at hs hok hscan hseen
    obtain ⟨hle, hbound, hfb, hall⟩ := hscan
    simp only at hs
    split at hs
    next hoff =>
      have hindex := index_eq hsize hbound (hsize ▸ hoff)
      have hagree : s.eligibleAt (s.index number off) = !s.degradedAt (s.index number off) := hok
      rw [hagree] at hs
      split at hs <;> cases hs
      next hfit => exact h.hand hle fun hflag => by rw [hflag] at hfit; cases hfit
      next hunfit =>
        -- degraded right now
        have hfb : (fallback.or (some (s.index number off))).isSome := by cases fallback <;> rfl
        refine h.setPick (p := { p with pc := .nudge number off _ })
          ⟨hle, hbound, hsize ▸ hoff, hfb, fun j hj => ?_⟩ k
        obtain hj | rfl := Nat.lt_or_eq_of_le hj
        · exact hall j hj
        · exact hindex ▸ hseen nofun _ (by simpa using hunfit)
    · -- the scan is over: every worker was degraded when it was looked at
      split at hs <;> cases hs
      refine h.hand hle fun _ w' hw' => ?_
      obtain ⟨j, hj, hmod⟩ := exists_mod_eq hw' number
      exact hmod ▸ hall j (by omega)
  | nudge number off fallback =>
    rw [hpc] at hs hscan
    simp only at hs
    split at hs <;> cases hs
    · exact { h.setPick (p := { p with pc := .nudgeDue number off fallback }) hscan k with }
    · exact h.advance hscan k
  | nudgeDue number off fallback =>
    rw [hpc] at hs hscan
    simp only at hs
    split at hs <;> cases hs
    · exact { h.advance hscan k with size := (length_modify ..).trans hsize }
    · exact h.advance hscan k
  | returned => rw [hpc] at hs; cases hs

theorem poolInv_act (hn : 2 ≤ n) (h : PoolInv n s) (hobs : Observed s) (hok : PoolStepOk s a)
    (hs : s.act a = some s') : PoolInv n s' := by
  obtain ⟨hsize, hscans, hhanded⟩ := id h
  revert hs
  fun_cases PoolWorld.act s a <;> intro hs
  case case1 =>
    cases hs
    exact ⟨hsize, by grind -linarith [ScanInv], hhanded⟩
  case case2 p hk => exact poolInv_pick hn h hobs hk (hok p hk) hs
  case case4 =>
    obtain ⟨hook, -, rfl⟩ := map_eq_some_iff.mp hs
    exact ⟨(length_set ..).trans hsize, hscans, hhanded⟩
  all_goals cases hs

theorem poolInv_step (hn : 2 ≤ n) (h : PoolInv n s ∧ Observed s) (hok : PoolStepOk s a)
    (hs : poolStep s a = some s') : PoolInv n s' ∧ Observed s' := by
  obtain ⟨t, ht, rfl⟩ := map_eq_some_iff.mp hs
  exact poolInv_observe (poolInv_act hn h.1 h.2 hok ht)

theorem poolInv_init (n : Nat) (now : Int) : PoolInv n (.init n now) ∧ Observed (.init n now) := by
  refine ⟨⟨length_replicate .., ?_, ?_⟩, ?_⟩ <;> simp [PoolWorld.init, Observed]

/-! ## Nudges -/

def PickPc.pastFirst (number : Nat) : PickPc → Prop
  | .scan m off _ | .nudge m off _ => m = number ∧ 0 < off
  | .nudgeDue m _ _ => m = number
  | _ => False

/-- Once it has, it has nudged that worker. -/
structure Chased (number w : Nat) (s : PoolWorld) : Prop where
  picks : ∀ p ∈ s.picks, p.pc.pastFirst number → (number, w) ∈ s.nudged
  handed : ∀ h ∈ s.handed, h.number = number → (number, w) ∈ s.nudged

variable {number w : Nat}

attribute [local grind =] PoolWorld.hand setPick forkAt

theorem chased_pick (hn : 2 ≤ n) (h : Chased number w s) (hinv : PoolInv n s) (hw : number % n = w)
    (hunfit : s.degradedAt w = true) (hk : s.picks[k]? = some p) (hok : PickOk s p.pc)
    (hs : s.pickStep k p = some s') : Chased number w s' := by
  have hmem : p ∈ s.picks := mem_of_getElem? hk
  have hsize := hinv.size
  have hscan := hinv.scans p hmem
  obtain ⟨hpicks, hhanded⟩ := h
  have hpast := hpicks p hmem
  -- where the pick with this number begins
  have hfirst : number + n ≤ cursorSize → s.index number 0 = w := fun hbound => by
    rw [index_eq hsize hbound (by omega), Nat.add_zero, hw]
  unfold pickStep at hs
  unfold ScanInv at hscan
  cases hpc : p.pc <;> rw [hpc] at hs hok hscan hpast <;>
    constructor <;> grind -linarith [pastFirst, PickOk]

theorem chased_step (hn : 2 ≤ n) (h : Chased number w s) (hinv : PoolInv n s) (hw : number % n = w)
    (hunfit : s.degradedAt w = true) (hok : PoolStepOk s a) (hs : poolStep s a = some s') :
    Chased number w s' := by
  obtain ⟨t, ht, rfl⟩ := map_eq_some_iff.mp hs
  have hact : Chased number w t := by
    revert ht
    fun_cases PoolWorld.act s a <;> intro ht
    case case1 =>
      cases ht
      obtain ⟨hpicks, hhanded⟩ := h
      exact ⟨by grind -linarith [pastFirst], hhanded⟩
    case case2 p hk => exact chased_pick hn h hinv hw hunfit hk (hok p hk) ht
    case case4 =>
      obtain ⟨hook, -, rfl⟩ := map_eq_some_iff.mp ht
      exact ⟨h.picks, h.handed⟩
    all_goals cases ht
  refine ⟨fun p hp hpast => ?_, hact.handed⟩
  obtain ⟨q, hq, hpc, -⟩ := mem_observe hp
  exact hact.picks q hq (hpc ▸ hpast)

theorem chased_of_next (hinv : PoolInv n s) (hnumber : s.next < number) : Chased number w s := by
  obtain ⟨-, hscans, hhanded⟩ := hinv
  refine ⟨fun p hp hpast => ?_, by grind -linarith⟩
  have hscan := hscans p hp
  unfold ScanInv at hscan
  cases hpc : p.pc <;> grind -linarith [pastFirst]

theorem nudges_unfit (hn : 2 ≤ n) (h : PoolInv n s ∧ Observed s) : NudgesUnfit s := by
  intro w hw acts s' hrun hdone
  rw [h.1.size] at hw
  -- the pick of this round that begins at the worker
  obtain ⟨j, hj, hmod⟩ := exists_mod_eq hw (s.next + 1)
  have hnext : NextPicks s (s.next + 1 + j) := by
    have hsize := h.1.size
    unfold NextPicks
    omega
  have hrunInv := hrun.invariant
    (I := fun t => (PoolInv n t ∧ Observed t) ∧ Chased (s.next + 1 + j) w t)
    (fun t a t' ht hok hs => ⟨poolInv_step hn ht.1 hok.1 hs,
      chased_step hn ht.2 ht.1.1 hmod hok.2 hok.1 hs⟩)
    ⟨h, chased_of_next h.1 (by omega)⟩
  obtain ⟨o, ho, hnumber⟩ := hdone _ hnext
  exact ⟨_, hnext, hrunInv.2.handed o ho hnumber⟩

/-- **Content is inspected whenever some worker can inspect it**, in every run of two or more
workers whose steps meet `PoolStepOk`; and a worker that stays degraded is nudged within as many
picks as there are workers. -/
theorem pick_inspects_and_nudges (hn : 2 ≤ n) {now : Int} {acts : List PoolAct} {s : PoolWorld}
    (hrun : Guarded poolStep PoolStepOk (.init n now) acts s) :
    InspectsIfPossible s ∧ NudgesUnfit s := by
  have hinv := hrun.invariant (fun _ _ _ h hok hs => poolInv_step hn h hok hs) (poolInv_init n now)
  refine ⟨?_, nudges_unfit hn hinv⟩
  intro h hh hflag w hw
  rw [hinv.1.size] at hw
  exact (hinv.1.handed h hh).2 hflag w hw

/-! ## Two workers -/

def startWorker (w : Nat) : List PoolAct :=
  [HookEvent.started, .ready, .go, .go, .go, .go, .go].map fun ev => .hook w (.thread 0 ev)

/-- The first worker starts and the second one's binary is missing. -/
def oneWorkerMissing : List PoolAct :=
  startWorker 0 ++ [.hook 1 (.thread 0 (.notInstalled "no such file")), .hook 1 (.thread 0 .go),
    .hook 1 (.thread 0 .go), .hook 1 (.thread 0 .go)]

def twoDetections : List PoolAct :=
  [.detect, .detect, .pick 0, .pick 1, .pick 0, .pick 0, .pick 0, .pick 0, .pick 1]

theorem oneWorkerMissing_guarded : ∃ s s',
    guardedExec poolStep PoolStepOk (.init 2 recoverCooldown) oneWorkerMissing = some s ∧
      guardedExec poolStep (fun t a => PoolStepOk t a ∧ t.degradedAt 1 = true) s twoDetections =
        some s' ∧
      guardedExec poolStep PoolStepOk (.init 2 recoverCooldown)
        (oneWorkerMissing ++ twoDetections) = some s' ∧
      s.next = 0 ∧ s.workers.length = 2 ∧ s'.handed.map Handover.number = [1, 2] ∧
      s'.handed.map Handover.worker = [0, 0] :=
  ⟨_, _, rfl, rfl, rfl, by decide⟩

theorem missing_worker_nudged : ∃ s s' : PoolWorld,
    Guarded poolStep PoolStepOk (.init 2 recoverCooldown) oneWorkerMissing s ∧
      Guarded poolStep (fun t a => PoolStepOk t a ∧ t.degradedAt 1 = true) s twoDetections s' ∧
      InspectsIfPossible s' ∧ s'.handed.map Handover.worker = [0, 0] ∧
      ∃ number, NextPicks s number ∧ (number, 1) ∈ s'.nudged := by
  obtain ⟨s, s', hexec, hexec', hwhole, hnext, hsize, hnumbers, hworkers⟩ :=
    oneWorkerMissing_guarded
  have hrun := Guarded.of_guardedExec hexec
  have hrun' := Guarded.of_guardedExec hexec'
  have hinspects := (pick_inspects_and_nudges (by omega) (.of_guardedExec hwhole)).1
  refine ⟨s, s', hrun, hrun', hinspects, hworkers, ?_⟩
  refine (pick_inspects_and_nudges (by omega) hrun).2 1 (by omega) _ s' hrun' ?_
  intro number hnumber
  have hmem : number ∈ s'.handed.map Handover.number := by
    unfold NextPicks at hnumber
    rw [hnumbers, mem_cons, mem_singleton]
    omega
  obtain ⟨h, hh, heq⟩ := mem_map.mp hmem
  exact ⟨h, hh, heq⟩

/-- The first worker is about to be published healthy when another write to it times out; then it
is. -/
def lateHealthy : List PoolAct :=
  startWorker 0 ++ startWorker 1 ++ [.detect, .pick 0, .pick 0] ++
    [HookAct.call .detect, .call .detect, .thread 3 .go, .thread 3 .go, .thread 3 .wrote,
      .thread 3 (.answer false), .thread 4 .go, .thread 4 .go, .thread 4 .writeTimedOut, .thread 4 .go,
      .thread 4 .go, .thread 3 .go].map (.hook 0) ++
    [.detect, .pick 1, .pick 1]

/-- The content goes to the flagged worker although the other one is fit all the time. -/
theorem fit_worker_passed_over :
    ¬ ∀ (n : Nat) (now : Int) (acts : List PoolAct) (s : PoolWorld), 2 ≤ n →
      exec poolStep (.init n now) acts = some s → InspectsIfPossible s := by
  intro hall
  have hnone := hall 2 recoverCooldown lateHealthy _ (by omega) rfl
  unfold InspectsIfPossible at hnone
  exact absurd hnone (by decide)

end AikeyProxy.AppHook
