import AikeyProxy.Proof.ManagedChain

/-!
# Staying on a fallback

After a fallback has served, the next request of the conversation tries it first. The serving loop
takes a hop that serves at the first place for the primary and forgets it, so the request after that
one starts at the first hop that is not cooling.
-/

namespace AikeyProxy.Proxy

open Lib Supervisor ChainActivity List

variable {policy : FallbackPolicy} {chain : CandidateChain} {primary : RouteBinding}

/-! ## The first hop of the try order -/

theorem head?_orderCandidates (candidates : List RouteBinding) (stickTo : String)
    (cooldown : BindingCooldown) (now : Int) :
    (orderCandidates candidates stickTo cooldown now).head? =
      ((candidates.find? fun c => decide (hopBand stickTo cooldown now c = 0)).or
        (candidates.find? fun c => decide (hopBand stickTo cooldown now c = 1))).or
        (candidates.find? fun c => decide (hopBand stickTo cooldown now c = 2)) := by
  rw [orderCandidates_eq, head?_append, head?_append, head?_filter,
    head?_filter, head?_filter]

variable {now : Int} {cooldown : BindingCooldown} {hop : RouteBinding} {key : String}
  {rest : List RouteBinding} {i : Nat} {s : ChainState}

variable {c : RouteBinding} {candidates : List RouteBinding} {req : ChainRequest}
  {reqs : List ChainRequest}

theorem hopBand_sticky {stickTo : String} (hstick : stickTo ≠ "") :
    hopBand stickTo cooldown now c = 0 ↔ hopKey c = stickTo := by
  unfold hopBand
  split
  next h =>
    simp [h.2]
  next h =>
    have hne : hopKey c ≠ stickTo := fun heq => h ⟨hstick, heq⟩
    split <;> simp [hne]

theorem hopBand_free :
    hopBand "" cooldown now c = if cooldown.cooling (hopKey c) now then 2 else 1 := by
  simp [hopBand]

theorem head?_sticky (hmem : hop ∈ candidates) (hkey : hopKey hop ≠ "") :
    (orderCandidates candidates (hopKey hop) cooldown now).head?.map hopKey = some (hopKey hop) := by
  rw [head?_orderCandidates]
  cases hfind : candidates.find? fun c => decide (hopBand (hopKey hop) cooldown now c = 0) with
  | none =>
    have hno := find?_eq_none.mp hfind hop hmem
    simp [hopBand_sticky hkey] at hno
  | some c =>
    have hc := find?_some hfind
    rw [decide_eq_true_eq, hopBand_sticky hkey] at hc
    simp [hc]

def hopsAhead (candidates : List RouteBinding) (key : String) : List RouteBinding :=
  candidates.takeWhile fun c => decide (hopKey c ≠ key)

theorem find?_available (hfree : cooldown.cooling key now = false) :
    ∀ {candidates : List RouteBinding}, (∃ hop ∈ candidates, hopKey hop = key) →
      ((candidates.find? fun c => !cooldown.cooling (hopKey c) now).map hopKey = some key ↔
        ∀ c ∈ hopsAhead candidates key, cooldown.cooling (hopKey c) now = true) := by
  intro candidates
  induction candidates with
  | nil => rintro ⟨hop, hmem, -⟩; cases hmem
  | cons c candidates ih =>
    rintro ⟨hop, hmem, hkey⟩
    by_cases hc : hopKey c = key
    · -- this is the hop itself: nothing is ahead of it
      simp [hopsAhead, hc, hfree]
    · have hrest : hop ∈ candidates := by
        rcases mem_cons.mp hmem with rfl | h
        · exact absurd hkey hc
        · exact h
      cases hcool : cooldown.cooling (hopKey c) now with
      -- an available hop ahead takes the first place
      | false => simp [hopsAhead, hc, hcool]
      | true =>
        rw [find?_cons_of_neg (by simp [hcool]), ih ⟨hop, hrest, hkey⟩]
        simp [hopsAhead, hc, hcool]

theorem head?_free (hmem : hop ∈ candidates) (hfree : cooldown.cooling (hopKey hop) now = false) :
    (orderCandidates candidates "" cooldown now).head?.map hopKey = some (hopKey hop) ↔
      ∀ c ∈ hopsAhead candidates (hopKey hop), cooldown.cooling (hopKey c) now = true := by
  rw [← find?_available hfree ⟨hop, hmem, rfl⟩, head?_orderCandidates]
  have hnone : (candidates.find? fun c => decide (hopBand "" cooldown now c = 0)) = none := by
    rw [find?_eq_none]
    intro c _
    rw [hopBand_free]
    split <;> simp
  have havail : ∀ c, decide (hopBand "" cooldown now c = 1) = !cooldown.cooling (hopKey c) now := by
    intro c
    rw [hopBand_free]
    cases cooldown.cooling (hopKey c) now <;> simp
  simp only [hnone, Option.none_or, havail]
  cases hfind : candidates.find? fun c => !cooldown.cooling (hopKey c) now with
  | none =>
    have hno := find?_eq_none.mp hfind hop hmem
    simp [hfree] at hno
  | some c => simp

/-! ## What a request leaves behind -/

def ChainState.remembered (s : ChainState) (primary : RouteBinding) : Option String :=
  (s.activity.lookup (activityKey primary)).map ChainActivityEntry.currentBindingID

theorem served_mem_order {deadline : Option Int} {env : Nat → HopEnv} {answer : HopAnswer}
    {fallback : Option (String × String × Nat)} {order : List RouteBinding} {k : Nat}
    {l : ChainLoop}
    (h : (chainLoop policy deadline env k order l).2 = .served i hop answer fallback) :
    hop ∈ order := by
  fun_induction chainLoop policy deadline env k order l with
  | case1 | case2 | case4 => cases h
  | case3 k x order l hin hskip ih | case5 k x order l hin huse l' hcap hwhole ih =>
    exact mem_cons_of_mem x (ih h)
  | case6 =>
    cases h
    exact mem_cons_self

theorem mem_and_remembered_of_served (hchain : chain.candidates = primary :: rest)
    (hserved : (serveManagedChain policy chain s req).2.served = some (i, hop)) :
    hop ∈ chain.candidates ∧ (serveManagedChain policy chain s req).1.remembered primary =
      some (if hopKey hop = hopKey primary ∨ i = 0 then "" else hopKey hop) := by
  unfold serveManagedChain at hserved ⊢
  rw [hchain] at hserved ⊢
  dsimp only at hserved ⊢
  split at hserved
  · cases hserved
  next hbody =>
    rw [if_neg hbody]
    dsimp only
    unfold ChainTrace.served at hserved
    dsimp only at hserved
    split at hserved
    next place hop' answer fallback hend =>
      split at hserved
      · cases hserved
      next hwhole =>
        cases hserved
        rw [Option.some.inj hend]
        refine ⟨mem_sortBy.mp (served_mem_order (Option.some.inj hend)), ?_⟩
        simp [ChainState.learn, hwhole, ChainState.remembered, noteServed]
    · cases hserved

/-! ## The property and its condition -/

abbrev ChainStep := ChainState × ChainRequest × ChainTrace

/-- The request is close enough to the one before and to the last try of the primary. -/
def InWindow (policy : FallbackPolicy) (primary : RouteBinding) (st : ChainStep) : Prop :=
  ∀ entry ∈ st.1.activity.lookup (activityKey primary),
    st.2.1.now - entry.lastRequestAt < policy.idleGap * millisecond ∧
    (0 < policy.maxStickiness * millisecond →
      st.2.1.now - entry.lastProbeAt < policy.maxStickiness * millisecond)

def ServedBy (key : String) (st : ChainStep) : Prop :=
  ∃ i hop, st.2.2.served = some (i, hop) ∧ hopKey hop = key

/-- Request `q` comes after request `p`, which a fallback served and which it has served since; all
are in the window, and the fallback is not cooling. -/
structure Follows (policy : FallbackPolicy) (primary : RouteBinding) (run : List ChainStep)
    (p q : Nat) (key : String) (st : ChainStep) : Prop where
  later : p < q
  step : run[q]? = some st
  body : st.2.1.bodyOk = true
  fallback : key ≠ hopKey primary
  served : ∀ j, p ≤ j → j < q → ∀ st' ∈ run[j]?, ServedBy key st'
  window : ∀ j, p < j → j ≤ q → ∀ st' ∈ run[j]?, InWindow policy primary st'
  free : ∀ j, p < j → j ≤ q → ∀ st' ∈ run[j]?, st'.1.cooldown.cooling key st'.2.1.now = false

/-- Once a fallback has served, the later requests try it first for as long as it serves and is
not cooling. -/
def StaysOnFallback (policy : FallbackPolicy) (primary : RouteBinding) (run : List ChainStep) : Prop :=
  ∀ p q key st, Follows policy primary run p q key st →
    st.2.2.order.head?.map hopKey = some key

/-- The hop that served the request was not the first one it tried. -/
def FellBack (st : ChainStep) : Prop := ∃ i hop, st.2.2.served = some (i, hop) ∧ i ≠ 0

/-- The condition on a request: the fallback has an identity and did not stand first when it served
the request before, or every hop of the chain ahead of it is cooling. -/
def FallbackKept (policy : FallbackPolicy) (chain : CandidateChain) (primary : RouteBinding)
    (run : List ChainStep) : Prop :=
  ∀ p q key st, Follows policy primary run p q key st →
    (key ≠ "" ∧ ∀ prev ∈ run[q - 1]?, FellBack prev) ∨
      ∀ c ∈ hopsAhead chain.candidates key, st.1.cooldown.cooling (hopKey c) st.2.1.now = true

/-! ## Whole runs -/

variable {st : ChainStep}

theorem serveAll_step :
    ∀ {s : ChainState} {j : Nat} {st : ChainStep}, (serveAll policy chain s reqs)[j]? = some st →
      st.2.2 = (serveManagedChain policy chain st.1 st.2.1).2 ∧
      ∀ st', (serveAll policy chain s reqs)[j + 1]? = some st' →
        st'.1 = (serveManagedChain policy chain st.1 st.2.1).1 := by
  induction reqs with
  | nil => intro s j st h; cases h
  | cons req reqs ih =>
    intro s j st h
    cases j with
    | zero =>
      cases h
      refine ⟨rfl, fun st' h' => ?_⟩
      cases reqs with
      | nil => cases h'
      | cons req' reqs => cases h'; rfl
    | succ j => exact ih h

theorem stickTo_of_window (hchain : chain.candidates = primary :: rest)
    (hbody : st.2.1.bodyOk = true) (hwindow : InWindow policy primary st)
    (hrem : st.1.remembered primary = some key) :
    (serveManagedChain policy chain st.1 st.2.1).2.order =
      orderCandidates chain.candidates key st.1.cooldown st.2.1.now := by
  have hne : chain.candidates ≠ [] := by
    rw [hchain]
    exact cons_ne_nil primary rest
  rw [(serveManagedChain_loop policy hne hbody).1]
  unfold tryOrder
  rw [hchain]
  dsimp only
  -- neither the idle gap nor the maximum stickiness has passed, so what is remembered is kept
  obtain ⟨entry, hentry, rfl⟩ := Option.map_eq_some_iff.mp hrem
  obtain ⟨hgap, hmax⟩ := hwindow entry hentry
  have hdue : (decide (0 < policy.maxStickiness * millisecond) &&
      decide (policy.maxStickiness * millisecond ≤ st.2.1.now - entry.lastProbeAt)) = false := by
    rw [Bool.and_eq_false_iff, decide_eq_false_iff_not, decide_eq_false_iff_not]
    by_cases h0 : 0 < policy.maxStickiness * millisecond
    · exact .inr (not_le.mpr (hmax h0))
    · exact .inl h0
  have hstick : (st.1.activity.observe (activityKey primary) (policy.idleGap * millisecond)
      (policy.maxStickiness * millisecond) st.2.1.now).2.stickTo = entry.currentBindingID := by
    unfold observe
    rw [hentry]
    dsimp only
    split
    · rfl
    next hno =>
      simp only [ChainActivityEntry.sticks, hdue, hgap, decide_true, Bool.and_true, Bool.not_false,
        bne_iff_ne, ne_eq, not_not] at hno
      exact hno.symm
  rw [hstick]

/-- Under `Follows`, the request tries the fallback first exactly when the one before fell back to
it or everything ahead of it cools. -/
theorem Follows.tries_first_iff {p q : Nat} (hchain : chain.candidates = primary :: rest)
    (h : Follows policy primary (serveAll policy chain s reqs) p q key st) :
    st.2.2.order.head?.map hopKey = some key ↔
      (key ≠ "" ∧ ∀ prev ∈ (serveAll policy chain s reqs)[q - 1]?, FellBack prev) ∨
        ∀ c ∈ hopsAhead chain.candidates key, st.1.cooldown.cooling (hopKey c) st.2.1.now = true := by
  obtain ⟨q', rfl⟩ : ∃ q', q = q' + 1 := ⟨q - 1, by have := h.later; omega⟩
  have hlater := h.later
  -- the request before was served by the fallback
  obtain ⟨prev, hprev⟩ : ∃ prev, (serveAll policy chain s reqs)[q']? = some prev := by
    have hlen := (List.getElem?_eq_some_iff.mp h.step).1
    exact ⟨_, List.getElem?_eq_getElem (by omega)⟩
  obtain ⟨htrace, hnext⟩ := serveAll_step hprev
  obtain ⟨i, hop, hserved, hkey⟩ := h.served q' (by omega) (by omega) prev hprev
  have hfell : (∀ prev ∈ (serveAll policy chain s reqs)[q' + 1 - 1]?, FellBack prev) ↔ i ≠ 0 := by
    simp [FellBack, hprev, hserved]
  rw [hfell]
  rw [htrace] at hserved
  obtain ⟨hmem, hrem⟩ := mem_and_remembered_of_served hchain hserved
  rw [← hnext st h.step, hkey] at hrem
  have hwindow := h.window (q' + 1) (by omega) le_rfl st h.step
  have hfree := h.free (q' + 1) (by omega) le_rfl st h.step
  rw [(serveAll_step h.step).1, stickTo_of_window hchain h.body hwindow hrem]
  by_cases hfirst : i = 0
  · -- the fallback was taken for the primary and forgotten
    rw [if_pos (.inr hfirst)]
    subst hkey
    rw [head?_free hmem hfree]
    simp [hfirst]
  · rw [if_neg (by simp [h.fallback, hfirst])]
    subst hkey
    by_cases hne : hopKey hop = ""
    · -- a hop without identity cannot be remembered
      rw [hne] at hfree ⊢
      have hfree' : st.1.cooldown.cooling (hopKey hop) st.2.1.now = false := by rw [hne]; exact hfree
      have hiff := head?_free hmem hfree'
      rw [hne] at hiff
      rw [hiff]
      simp
    · rw [head?_sticky hmem hne]
      simp [hne, hfirst]

/-- A conversation stays on its fallback exactly under `FallbackKept`. -/
theorem stays_on_fallback_iff (policy : FallbackPolicy) (chain : CandidateChain)
    (primary : RouteBinding) (rest : List RouteBinding)
    (hchain : chain.candidates = primary :: rest) (s : ChainState) (reqs : List ChainRequest) :
    StaysOnFallback policy primary (serveAll policy chain s reqs) ↔
      FallbackKept policy chain primary (serveAll policy chain s reqs) := by
  constructor
  · intro hstays p q key st h
    exact (h.tries_first_iff hchain).mp (hstays p q key st h)
  · intro hkept p q key st h
    exact (h.tries_first_iff hchain).mpr (hkept p q key st h)

/-- The primary cannot be reached and the fallback serves, wherever they stand. -/
def primaryDown (now : Int) (order : List Bool) : ChainRequest where
  bodyOk := true
  startTime := now
  now := now
  env := fun i =>
    ⟨now, true, true, "https://upstream",
      if order.getD i false then .unreachable else .upstream { status := 200 }, now⟩

def noCooldown : FallbackPolicy := ⟨300000, 0, 0, 0⟩

def twoTurns : List ChainStep :=
  serveAll noCooldown pairChain emptyState [primaryDown 0 [true], primaryDown 1000000000 []]

theorem second_turn_stays : StaysOnFallback noCooldown pairChain.candidates[0] twoTurns := by
  refine (stays_on_fallback_iff noCooldown pairChain pairChain.candidates[0] [pairChain.candidates[1]]
    rfl emptyState _).mpr ?_
  intro p q key st h
  -- the only later request is the second one, and the first was served by the fallback
  have hlen := (List.getElem?_eq_some_iff.mp h.step).1
  have hlater := h.later
  obtain rfl : p = 0 := by simp [serveAll] at hlen; omega
  obtain rfl : q = 1 := by simp [serveAll] at hlen; omega
  obtain ⟨i, hop, hserved, hkey⟩ := h.served 0 le_rfl (by omega) _ rfl
  cases hserved
  subst hkey
  refine .inl ⟨by decide, fun prev hprev => ?_⟩
  cases hprev
  exact ⟨_, _, rfl, by decide⟩

/-- A third request of the same conversation goes back to the primary. -/
theorem third_turn_leaves :
    ¬ ∀ (policy : FallbackPolicy) (chain : CandidateChain) (primary : RouteBinding)
      (rest : List RouteBinding), chain.candidates = primary :: rest →
      ∀ (s : ChainState) (reqs : List ChainRequest),
        StaysOnFallback policy primary (serveAll policy chain s reqs) := by
  intro hall
  have hstays := hall noCooldown pairChain pairChain.candidates[0] [pairChain.candidates[1]] rfl
    emptyState [primaryDown 0 [true], primaryDown 1000000000 [], primaryDown 2000000000 [true]]
  have hhead := hstays 0 2 "vk|c2" _
    { later := by decide
      step := rfl
      body := rfl
      fallback := by decide
      served := by
        intro j _ hj st hst
        obtain rfl | rfl : j = 0 ∨ j = 1 := by omega
        all_goals
          cases hst
          exact ⟨_, _, rfl, by decide⟩
      window := by
        intro j hj hj' st hst
        obtain rfl | rfl : j = 1 ∨ j = 2 := by omega
        all_goals
          cases hst
          intro entry hentry
          cases hentry
          exact ⟨by decide, fun h => absurd h (by decide)⟩
      free := by
        intro j hj hj' st hst
        obtain rfl | rfl : j = 1 ∨ j = 2 := by omega
        all_goals
          cases hst
          rfl }
  exact absurd hhead (by decide)

end AikeyProxy.Proxy
