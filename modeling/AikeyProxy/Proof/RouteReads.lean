import AikeyProxy.Proxy.RouteReads

/-!
# Which versions a request's loads come from

An update stores the assignments first and the tombstones last; a request loads them in the opposite
order. So what it loads comes from versions that only get newer, and every such choice of versions
happens in some interleaving. Whether a request always sees one version is then a question about the
history of updates.
-/

namespace AikeyProxy.Proxy

open Lib Supervisor List

variable {start : RoutingOverrideCache} {us : List RouteUpdate} {seatID groupID : String}

/-- In every interleaving with these updates, what the request has loaded is what one of
the versions begun so far says. -/
def SeesOneVersion (start : RoutingOverrideCache) (us : List RouteUpdate)
    (seatID groupID : String) : Prop :=
  ∀ acts w, exec (routeStep seatID groupID) (RouteWorld.init start us) acts = some w →
    ∃ k ≤ w.begun, w.seen.Agrees (answerAt start us seatID groupID k)

/-- The condition on a history of answers: what a request that was let through by older versions
finds in a newer one is what a single version says. -/
structure Blends (A : Nat → RouteAnswer) (n : Nat) : Prop where
  served : ∀ i j k, i ≤ j → j ≤ k → k ≤ n → (A i).removed = false → (A j).blocked = false →
    ∃ l ≤ k, A l = ⟨(A k).assignment, false, false⟩
  refused : ∀ i j, i ≤ j → j ≤ n → (A i).removed = false → (A j).blocked = true →
    ∃ l ≤ j, (A l).removed = false ∧ (A l).blocked = true

/-! ## What was loaded, and from which versions -/

/-- What was loaded came from versions in this order, none newer than the cells': `r` for the
tombstones, `b` for the blocked seats, `m` for the assignments. -/
inductive SeenFrom (A : Nat → RouteAnswer) (r b m : Nat) : RouteSeen → Prop
  | nothing : SeenFrom A r b m .nothing
  | removed {i : Nat} (hi : i ≤ r) : SeenFrom A r b m ⟨some (A i).removed, none, none⟩
  | blocked {i j : Nat} (hij : i ≤ j) (hj : j ≤ b) (hrem : (A i).removed = false) :
      SeenFrom A r b m ⟨some false, some (A j).blocked, none⟩
  | override {i j k : Nat} (hij : i ≤ j) (hjk : j ≤ k) (hk : k ≤ m)
      (hrem : (A i).removed = false) (hblk : (A j).blocked = false) :
      SeenFrom A r b m ⟨some false, some false, some (A k).assignment⟩

variable {r b m k d : Nat} {w : RouteWorld}

variable {s : RouteSeen} {A : Nat → RouteAnswer}

theorem SeenFrom.mono {r' b' m' : Nat} (h : SeenFrom A r b m s) (hr : r ≤ r') (hb : b ≤ b')
    (hm : m ≤ m') : SeenFrom A r' b' m' s := by
  cases h with
  | nothing => exact .nothing
  | removed hi => exact .removed (hi.trans hr)
  | blocked hij hj hrem => exact .blocked hij (hj.trans hb) hrem
  | override hij hjk hk hrem hblk => exact .override hij hjk (hk.trans hm) hrem hblk

theorem SeenFrom.agrees {n : Nat} (h : SeenFrom A r b m s) (hA : Blends A n) (hrb : r ≤ b)
    (hbm : b ≤ m) (hmn : m ≤ n) : ∃ l ≤ m, s.Agrees (A l) := by
  cases h with
  | nothing => exact ⟨0, Nat.zero_le _, .inl rfl, .inl rfl, .inl rfl⟩
  | @removed i hi => exact ⟨i, by omega, .inr rfl, .inl rfl, .inl rfl⟩
  | @blocked i j hij hj hrem =>
    cases hblk : (A j).blocked with
    | true =>
      obtain ⟨l, hl, hlrem, hlblk⟩ := hA.refused i j hij (by omega) hrem hblk
      exact ⟨l, by omega, .inr (congrArg some hlrem.symm), .inr (congrArg some hlblk.symm), .inl rfl⟩
    | false =>
      obtain ⟨l, hl, heq⟩ := hA.served i j j hij (Nat.le_refl j) (by omega) hrem hblk
      exact ⟨l, by omega, by rw [heq]; exact ⟨.inr rfl, .inr rfl, .inl rfl⟩⟩
  | @override i j k hij hjk hk hrem hblk =>
    obtain ⟨l, hl, heq⟩ := hA.served i j k hij hjk (by omega) hrem hblk
    exact ⟨l, by omega, by rw [heq]; exact ⟨.inr rfl, .inr rfl, .inr rfl⟩⟩

/-! ## Whole updates -/

theorem versionAt_succ (u : RouteUpdate) (hu : us[k]? = some u) :
    versionAt start us (k + 1) = u.cache := by
  simp [versionAt, List.getD, List.getElem?_map, hu]

/-- The world between two updates, `k` of them made. -/
def settled (start : RoutingOverrideCache) (us : List RouteUpdate) (k : Nat) (seen : RouteSeen) :
    RouteWorld :=
  ⟨versionAt start us k, [], us.drop k, k, seen⟩

theorem init_eq_settled : RouteWorld.init start us = settled start us 0 .nothing := rfl

def updateActs : List RouteAct := [.begin, .store, .store, .store, .store, .store]

theorem exec_update (hk : k < us.length) (seen : RouteSeen) :
    exec (routeStep seatID groupID) (settled start us k seen) updateActs =
      some (settled start us (k + 1) seen) := by
  have hdrop : us.drop k = us[k] :: us.drop (k + 1) := drop_eq_getElem_cons hk
  have hver : versionAt start us (k + 1) = us[k].cache :=
    versionAt_succ _ (List.getElem?_eq_getElem hk)
  unfold settled
  rw [hdrop, hver]
  rfl

theorem exec_updates (seen : RouteSeen) :
    ∀ n, k + n ≤ us.length →
      exec (routeStep seatID groupID) (settled start us k seen) (List.replicate n updateActs).flatten =
        some (settled start us (k + n) seen) := by
  intro n
  induction n generalizing k with
  | zero => intro _; rfl
  | succ n ih =>
    intro hlen
    rw [replicate_succ, flatten_cons, exec_trans (exec_update (by omega) seen),
      ih (by omega), Nat.succ_add_eq_add_succ]

/-! ## The run invariant -/

/-- How far the updates have got: `d` of the five stores of the last one are made, and the
cells hold versions `r`, `b` and `m`. -/
structure CellsAt (start : RoutingOverrideCache) (us : List RouteUpdate) (w : RouteWorld)
    (d r b m : Nat) : Prop where
  updates : w.updates = us.drop w.begun
  begun : w.begun ≤ us.length
  pending : w.pending = (storeAllWithRemoved (versionAt start us w.begun).version
    (versionAt start us w.begun).assignments (versionAt start us w.begun).blocked
    (versionAt start us w.begun).removed).drop d
  assignments : w.cache.assignments = (versionAt start us m).assignments
  blocked : w.cache.blocked = (versionAt start us b).blocked
  removed : w.cache.removed = (versionAt start us r).removed
  removed_le : r ≤ b
  blocked_le : b ≤ m
  assignments_le : m ≤ w.begun
  assignments_new : 1 ≤ d → m = w.begun
  blocked_new : 2 ≤ d → b = w.begun
  removed_new : 3 ≤ d → r = w.begun

theorem CellsAt.answer (h : CellsAt start us w d r b m) :
    (w.cache.answer seatID groupID).removed = (answerAt start us seatID groupID r).removed ∧
    (w.cache.answer seatID groupID).blocked = (answerAt start us seatID groupID b).blocked ∧
    (w.cache.answer seatID groupID).assignment =
      (answerAt start us seatID groupID m).assignment := by
  unfold answerAt RoutingOverrideCache.answer
  rw [h.removed, h.blocked, h.assignments]
  split <;> exact ⟨rfl, rfl, rfl⟩

theorem cellsAt_init : CellsAt start us (RouteWorld.init start us) 5 0 0 0 where
  updates := rfl
  begun := Nat.zero_le _
  pending := rfl
  assignments := rfl
  blocked := rfl
  removed := rfl
  removed_le := Nat.le_refl _
  blocked_le := Nat.le_refl _
  assignments_le := Nat.le_refl _
  assignments_new _ := rfl
  blocked_new _ := rfl
  removed_new _ := rfl

theorem CellsAt.begin (h : CellsAt start us w d r b m) {u : RouteUpdate} {rest : List RouteUpdate}
    (hnext : w.updates = u :: rest) :
    CellsAt start us { w with pending := u.stores, updates := rest, begun := w.begun + 1 } 0 r b m := by
  have hdrop : us.drop w.begun = u :: rest := h.updates.symm.trans hnext
  have hu : us[w.begun]? = some u := by
    rw [← List.head?_drop, hdrop]
    rfl
  have hver : versionAt start us (w.begun + 1) = u.cache := versionAt_succ u hu
  have hlt : w.begun < us.length := (List.getElem?_eq_some_iff.mp hu).1
  refine ⟨?_, hlt, ?_, h.assignments, h.blocked, h.removed, h.removed_le, h.blocked_le,
    h.assignments_le.trans (Nat.le_succ _), by omega, by omega, by omega⟩
  · rw [← tail_drop, hdrop]
    rfl
  · simp only [hver]
    rfl

theorem CellsAt.store (h : CellsAt start us w d r b m) {s : CellStore} {rest : List CellStore}
    (hnext : w.pending = s :: rest) :
    ∃ r' b' m', r ≤ r' ∧ b ≤ b' ∧ m ≤ m' ∧
      CellsAt start us { w with cache := s.apply w.cache, pending := rest } (d + 1) r' b' m' := by
  have hpend := h.pending.symm.trans hnext
  have hm := h.assignments_new
  have hb := h.blocked_new
  have hr := h.removed_new
  have hrb := h.removed_le
  have hbm := h.blocked_le
  have hmn := h.assignments_le
  -- by the number of stores made so far: the first three write the cells a request looks at,
  -- the version and the mark come after them
  match d with
  | 0 =>
    obtain ⟨rfl, rfl⟩ := List.cons.inj hpend
    exact ⟨r, b, w.begun, le_rfl, le_rfl, hmn, h.updates, h.begun, rfl, rfl, h.blocked, h.removed,
      hrb, hbm.trans hmn, le_rfl, by simp, by omega, by omega⟩
  | 1 =>
    obtain ⟨rfl, rfl⟩ := List.cons.inj hpend
    exact ⟨r, w.begun, m, le_rfl, hbm.trans hmn, le_rfl, h.updates, h.begun, rfl, h.assignments, rfl,
      h.removed, hrb.trans (hbm.trans hmn), by simp [hm], hmn, by simp [hm], by simp, by omega⟩
  | 2 =>
    obtain ⟨rfl, rfl⟩ := List.cons.inj hpend
    exact ⟨w.begun, b, m, hrb.trans (hbm.trans hmn), le_rfl, le_rfl, h.updates, h.begun, rfl,
      h.assignments, h.blocked, rfl, by simp [hb], hbm, hmn, by simp [hm], by simp [hb], by simp⟩
  | 3 | 4 =>
    obtain ⟨rfl, rfl⟩ := List.cons.inj hpend
    exact ⟨r, b, m, le_rfl, le_rfl, le_rfl, h.updates, h.begun, rfl, h.assignments, h.blocked,
      h.removed, hrb, hbm, hmn, by simp [hm], by simp [hb], by simp [hr]⟩
  | d + 5 => simp [storeAllWithRemoved] at hpend

/-- The run invariant: the cells were written in order, and what was loaded came from
versions in order. -/
def RouteInv (start : RoutingOverrideCache) (us : List RouteUpdate) (seatID groupID : String)
    (w : RouteWorld) : Prop :=
  ∃ d r b m, CellsAt start us w d r b m ∧ SeenFrom (answerAt start us seatID groupID) r b m w.seen

theorem RouteInv.init : RouteInv start us seatID groupID (RouteWorld.init start us) :=
  ⟨5, 0, 0, 0, cellsAt_init, .nothing⟩

theorem RouteInv.step {w' : RouteWorld} {a : RouteAct} (h : RouteInv start us seatID groupID w)
    (hs : routeStep seatID groupID w a = some w') : RouteInv start us seatID groupID w' := by
  obtain ⟨d, r, b, m, hw, hseen⟩ := h
  revert hs
  fun_cases routeStep seatID groupID w a <;> intro hs <;> cases hs
  case case1 hnext _ => exact ⟨0, r, b, m, hw.begin hnext, hseen⟩
  case case3 hnext =>
    obtain ⟨r', b', m', hr, hb, hm, hw'⟩ := hw.store hnext
    exact ⟨d + 1, r', b', m', hw', hseen.mono hr hb hm⟩
  all_goals
    refine ⟨d, r, b, m, by cases hw; constructor <;> assumption, ?_⟩
    dsimp only
    generalize hq : w.seen = seen at *
  case case5 hnone => -- nothing was loaded before the tombstones
    cases hseen with
    | nothing => rw [hw.answer.1]; exact .removed le_rfl
    | removed | blocked | override => cases hnone
  case case7 hcond =>
    cases hseen with
    | nothing => cases hcond.1
    | @removed i hi =>
      rw [hw.answer.2.1, hcond.1]
      exact .blocked (hi.trans hw.removed_le) le_rfl (Option.some.inj hcond.1)
    | blocked | override => cases hcond.2
  case case9 hcond =>
    cases hseen with
    | nothing | removed => cases hcond.1
    | @blocked i j hij hj hrem =>
      rw [hw.answer.2.2, hcond.1]
      exact .override hij (hj.trans hw.blocked_le) le_rfl hrem (Option.some.inj hcond.1)
    | override => cases hcond.2

/-! ## Every ordered choice of versions happens -/

def blockedAt (i j : Nat) : List RouteAct :=
  (List.replicate i updateActs).flatten ++
    (.loadRemoved :: ((List.replicate (j - i) updateActs).flatten ++ [.loadBlocked]))

theorem exec_blockedAt {i j : Nat} (hij : i ≤ j) (hj : j ≤ us.length)
    (hrem : (answerAt start us seatID groupID i).removed = false) :
    exec (routeStep seatID groupID) (RouteWorld.init start us) (blockedAt i j) =
      some (settled start us j
        ⟨some false, some (answerAt start us seatID groupID j).blocked, none⟩) := by
  rw [init_eq_settled, blockedAt, exec_trans (exec_updates _ i (by omega)), Nat.zero_add]
  have hload : routeStep seatID groupID (settled start us i .nothing) .loadRemoved =
      some (settled start us i ⟨some false, none, none⟩) := by
    rw [← hrem]
    rfl
  rw [exec, hload]
  dsimp only
  rw [exec_trans (exec_updates _ (j - i) (by omega)), Nat.add_sub_cancel' hij]
  rfl

theorem exec_loadsAt {i j : Nat} (hij : i ≤ j) (hjk : j ≤ k) (hk : k ≤ us.length)
    (hrem : (answerAt start us seatID groupID i).removed = false)
    (hblk : (answerAt start us seatID groupID j).blocked = false) :
    exec (routeStep seatID groupID) (RouteWorld.init start us)
      (blockedAt i j ++ ((List.replicate (k - j) updateActs).flatten ++ [.loadOverride])) =
      some (settled start us k
        ⟨some false, some false, some (answerAt start us seatID groupID k).assignment⟩) := by
  rw [exec_trans (exec_blockedAt hij (by omega) hrem), hblk,
    exec_trans (exec_updates _ (k - j) (by omega)), Nat.add_sub_cancel' hjk]
  rfl

/-- A request sees one version in every interleaving exactly when the history blends. -/
theorem request_sees_one_version_iff (start : RoutingOverrideCache) (us : List RouteUpdate)
    (seatID groupID : String) :
    SeesOneVersion start us seatID groupID ↔ Blends (answerAt start us seatID groupID) us.length := by
  constructor
  · intro hsees
    constructor
    · intro i j k hij hjk hk hrem hblk
      obtain ⟨l, hl, h1, h2, h3⟩ := hsees _ _ (exec_loadsAt hij hjk hk hrem hblk)
      refine ⟨l, hl, ?_⟩
      simp only [settled, reduceCtorEq, false_or, Option.some.injEq] at h1 h2 h3
      calc answerAt start us seatID groupID l
          = ⟨(answerAt start us seatID groupID l).assignment,
              (answerAt start us seatID groupID l).blocked,
              (answerAt start us seatID groupID l).removed⟩ := rfl
        _ = _ := by rw [← h1, ← h2, ← h3]
    · intro i j hij hj hrem hblk
      obtain ⟨l, hl, h1, h2, -⟩ := hsees _ _ (exec_blockedAt hij hj hrem)
      simp only [settled, reduceCtorEq, false_or, Option.some.injEq, hblk] at h1 h2
      exact ⟨l, hl, h1.symm, h2.symm⟩
  · intro hblends acts w hexec
    obtain ⟨d, r, b, m, hw, hseen⟩ :=
      exec_invariant (I := RouteInv start us seatID groupID) (fun _ _ _ => RouteInv.step) hexec
        RouteInv.init
    obtain ⟨l, hl, hag⟩ := hseen.agrees hblends hw.removed_le hw.blocked_le
      (hw.assignments_le.trans hw.begun)
    exact ⟨l, hl.trans hw.assignments_le, hag⟩

/-- The seat has no account in the version in force, and its group is being deleted. -/
def blockedThenRemoved : RouteUpdate × RouteUpdate :=
  let seat : RouteID := ⟨"seat", by decide⟩
  let group : RouteID := ⟨"group", by decide⟩
  (⟨1, [⟨seat, group, "", true, false⟩]⟩, ⟨2, [⟨seat, group, "", false, true⟩]⟩)

/-- The tombstones are loaded before the update and the blocked seats after it: the request gets a
local pick, which neither version allows. -/
theorem request_mixes_versions :
    ¬ ∀ (start : RoutingOverrideCache) (us : List RouteUpdate) (seatID groupID : String),
      SeesOneVersion start us seatID groupID := by
  intro hall
  have hmix := hall blockedThenRemoved.1.cache [blockedThenRemoved.2] "seat" "group"
  obtain ⟨k, hk, hag⟩ := hmix _ _ (exec_loadsAt (i := 0) (j := 1) (k := 1) (by decide) (by decide)
    (by decide) (by decide) (by decide))
  match k with
  | 0 | 1 => exact absurd hag (by decide)
  | k + 2 => simp [settled] at hk

end AikeyProxy.Proxy
