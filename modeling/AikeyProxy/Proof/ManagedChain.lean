import AikeyProxy.Proxy.ManagedChain

/-!
# What one walk down a chain does

The loop attempts the hops in the try order, each at most once, and goes on only after a deferred
response (`Reaches`). A hop is cooled exactly when its attempt was deferred for a failure; the
deferral looks at the response alone, so a refusal of the proxy's own or a client that went away
cools the hop too.
-/

namespace AikeyProxy.Proxy

open Lib Supervisor List HopEnv ChainAttempt ChainLoop

variable {policy : FallbackPolicy} {deadline : Option Int} {env : Nat → HopEnv}

/-! ## The try order -/

theorem hopBand_lt (stickTo : String) (cooldown : BindingCooldown) (now : Int) (c : RouteBinding) :
    hopBand stickTo cooldown now c < 3 := by
  unfold hopBand
  split
  · omega
  · split <;> omega

theorem orderCandidates_eq (candidates : List RouteBinding) (stickTo : String)
    (cooldown : BindingCooldown) (now : Int) :
    orderCandidates candidates stickTo cooldown now =
      (candidates.filter fun c => decide (hopBand stickTo cooldown now c = 0)) ++
      (candidates.filter fun c => decide (hopBand stickTo cooldown now c = 1)) ++
      (candidates.filter fun c => decide (hopBand stickTo cooldown now c = 2)) := by
  rw [orderCandidates, sortBy_eq_bands fun c _ => hopBand_lt stickTo cooldown now c]
  simp [bands, range'_succ, append_assoc]

/-! ## Which places are attempted -/

/-- The loop goes on after a hop that cannot be used or whose response was deferred. -/
def HopEnv.goesOn (e : HopEnv) : Bool := !e.usable || (e.captured && !e.answer.isAborted)

/-- The loop that starts at place `k` gets to place `k + d`. -/
def Reaches (deadline : Option Int) (env : Nat → HopEnv) (k d : Nat) : Prop :=
  ∀ e < d, overBudget deadline (k + e) (env (k + e)) = false ∧ (env (k + e)).goesOn = true

structure Attempts (deadline : Option Int) (env : Nat → HopEnv) (k : Nat) (order : List RouteBinding)
    (d : Nat) (hop : RouteBinding) : Prop where
  reached : Reaches deadline env k d
  hop : order[d]? = some hop
  inBudget : overBudget deadline (k + d) (env (k + d)) = false
  usable : (env (k + d)).usable = true

variable {k : Nat} {hop : RouteBinding} {l : ChainLoop}

theorem reaches_succ {d : Nat} :
    Reaches deadline env k (d + 1) ↔
      (overBudget deadline k (env k) = false ∧ (env k).goesOn = true) ∧
        Reaches deadline env (k + 1) d := by
  have hplace : ∀ e, k + (e + 1) = k + 1 + e := fun e => by omega
  constructor
  · intro h
    exact ⟨h 0 (Nat.succ_pos d), fun e he => hplace e ▸ h (e + 1) (Nat.succ_lt_succ he)⟩
  · rintro ⟨h0, h⟩ e he
    cases e with
    | zero => exact h0
    | succ e => exact hplace e ▸ h e (Nat.lt_of_succ_lt_succ he)

theorem exists_attempts_cons {P : Nat → RouteBinding → Prop} {x : RouteBinding}
    {order : List RouteBinding} :
    (∃ d hop, Attempts deadline env k (x :: order) d hop ∧ P (k + d) hop) ↔
      overBudget deadline k (env k) = false ∧
        ((env k).usable = true ∧ P k x ∨
          (env k).goesOn = true ∧
            ∃ d hop, Attempts deadline env (k + 1) order d hop ∧ P (k + 1 + d) hop) := by
  have hplace : ∀ d, k + (d + 1) = k + 1 + d := fun d => by omega
  constructor
  · rintro ⟨d, hop, ⟨hreach, hhop, hbudget, husable⟩, hP⟩
    cases d with
    | zero =>
      cases hhop
      exact ⟨hbudget, .inl ⟨husable, hP⟩⟩
    | succ d =>
      obtain ⟨⟨hin, hgo⟩, hrest⟩ := reaches_succ.mp hreach
      exact ⟨hin, .inr ⟨hgo, d, hop, ⟨hrest, hhop, hplace d ▸ hbudget, hplace d ▸ husable⟩,
        hplace d ▸ hP⟩⟩
  · rintro ⟨hin, ⟨husable, hP⟩ | ⟨hgo, d, hop, ⟨hrest, hhop, hbudget, husable⟩, hP⟩⟩
    · exact ⟨0, x, ⟨fun _ he => absurd he (Nat.not_lt_zero _), rfl, hin, husable⟩, hP⟩
    · exact ⟨d + 1, hop, ⟨reaches_succ.mpr ⟨⟨hin, hgo⟩, hrest⟩, hhop, hplace d ▸ hbudget,
        hplace d ▸ husable⟩, hplace d ▸ hP⟩

theorem not_attempts_nil {d : Nat} :
    ¬ Attempts deadline env k [] d hop := fun h => by simpa using h.hop

/-! ## What the loop does at one place -/

def ChainLoop.attempt (l : ChainLoop) (k : Nat) (hop : RouteBinding) (answer : HopAnswer) :
    ChainLoop :=
  { l with attempts := l.attempts + 1, tried := l.tried ++ [⟨k, hop, answer⟩] }

theorem note_tried (l : ChainLoop) (hop : RouteBinding) (e : HopEnv) :
    (l.note policy hop e).tried = l.tried := by
  unfold ChainLoop.note
  dsimp only
  split <;> rfl

/-! ## The attempts and the end of the loop -/

theorem mem_tried {a : ChainAttempt} {order : List RouteBinding} :
    a ∈ (chainLoop policy deadline env k order l).1.tried ↔
      a ∈ l.tried ∨ ∃ d hop, Attempts deadline env k order d hop ∧
        a = ⟨k + d, hop, (env (k + d)).answer⟩ := by
  have hcons := @exists_attempts_cons deadline env (P := fun i hop => a = ⟨i, hop, (env i).answer⟩)
  fun_induction chainLoop policy deadline env k order l with
  | case1 => simp [not_attempts_nil]
  | case2 k x order l hover => simp [hcons, hover]
  | case3 k x order l hin hskip ih => simp_all [goesOn]
  | case4 k x order l hin huse l' hcap habort => simp_all [goesOn, l']
  | case5 k x order l hin huse l' hcap hwhole ih =>
    simp_all [goesOn, note_tried, l', or_assoc]
  | case6 k x order l hin huse l' hlet => simp_all [goesOn, l']

theorem ending_aborted {order : List RouteBinding} :
    (chainLoop policy deadline env k order l).2 = .aborted ↔
      ∃ d hop, Attempts deadline env k order d hop ∧
        (env (k + d)).captured = true ∧ (env (k + d)).answer.isAborted = true := by
  have hcons := @exists_attempts_cons deadline env
    (P := fun i _ => (env i).captured = true ∧ (env i).answer.isAborted = true)
  fun_induction chainLoop policy deadline env k order l with
  | case1 => simp [not_attempts_nil]
  | case2 k x order l hover => simp only [hcons, hover, reduceCtorEq, false_and]
  | case3 k x order l hin hskip ih => simp_all [goesOn]
  | case4 k x order l hin huse l' hcap habort => simp_all
  | case5 k x order l hin huse l' hcap hwhole ih | case6 k x order l hin huse l' hlet =>
    simp_all [goesOn]

/-! ## What the loop keeps -/

def ChainAttempt.captured (a : ChainAttempt) : Bool := chainAttemptEligible a.answer.head

def ChainAttempt.cools (policy : FallbackPolicy) (a : ChainAttempt) : Bool :=
  !a.answer.isAborted && failoverEligibleResponse a.answer.head &&
    (hopKey a.hop != "" && policy.bindingCooldown != 0)

theorem cooldownUntil_isSome (bindingID : String) (h : ResponseHead) (cfg now : Int) :
    (cooldownUntil bindingID h cfg now).isSome =
      (failoverEligibleResponse h && (bindingID != "" && cfg != 0)) := by
  unfold cooldownUntil
  by_cases hid : bindingID = ""
  · simp [hid]
  · cases helig : failoverEligibleResponse h with
    | false => simp [hid]
    | true =>
      by_cases hcfg : cfg = 0
      · simp [hid, hcfg]
      · cases hwait : h.waitUntil <;> simp [hid, hcfg]

theorem not_eligible_of_skip {h : ResponseHead} (hskip : chainSkipResponse h = true) :
    failoverEligibleResponse h = false := by
  simp only [chainSkipResponse, Bool.and_eq_true, beq_iff_eq] at hskip
  unfold failoverEligibleResponse
  simp [hskip.1]

/-- The attempts so far, in the order of their places, and the hops they cooled. -/
structure Walked (policy : FallbackPolicy) (l : ChainLoop) : Prop where
  places : (l.tried.map ChainAttempt.place).Pairwise (· < ·)
  cooled : l.cooled = (l.tried.filter (ChainAttempt.cools policy)).map fun a => hopKey a.hop

/-- What else holds before place `k`: every attempt was deferred. -/
structure WalkedTo (policy : FallbackPolicy) (k : Nat) (l : ChainLoop) : Prop
    extends Walked policy l where
  below : ∀ a ∈ l.tried, a.place < k
  captured : ∀ a ∈ l.tried, a.captured = true

theorem walkedTo_start (cooldown : BindingCooldown) : WalkedTo policy 0 (.start cooldown) where
  places := List.Pairwise.nil
  cooled := rfl
  below := by simp [start]
  captured := by simp [start]

theorem WalkedTo.attempt (h : WalkedTo policy k l) (hop : RouteBinding) (answer : HopAnswer) :
    ((l.attempt k hop answer).tried.map ChainAttempt.place).Pairwise (· < ·) := by
  simp only [ChainLoop.attempt, map_append, map_cons, map_nil]
  rw [pairwise_append]
  refine ⟨h.places, by simp, fun p hp q hq => ?_⟩
  obtain ⟨a, ha, rfl⟩ := mem_map.mp hp
  rw [mem_singleton.mp hq]
  exact h.below a ha

theorem WalkedTo.note (h : WalkedTo policy k l) {e : HopEnv} (hcap : e.captured = true)
    (hwhole : e.answer.isAborted = false) :
    WalkedTo policy (k + 1) ((l.attempt k hop e.answer).note policy hop e) where
  places := by
    rw [note_tried]
    exact h.attempt hop e.answer
  cooled := by
    rw [note_tried]
    have hcools : cools policy ⟨k, hop, e.answer⟩ =
        (failoverEligibleResponse e.answer.head &&
          (hopKey hop != "" && policy.bindingCooldown != 0)) := by
      simp [cools, hwhole]
    simp only [ChainLoop.attempt, filter_append, map_append]
    unfold ChainLoop.note
    dsimp only
    split
    · -- a hop that does not map the model is passed over and does not cool
      rename_i hskip
      simp [hcools, not_eligible_of_skip hskip, h.cooled]
    · simp only [cooldownUntil_isSome, h.cooled]
      rw [filter_cons, hcools]
      split <;> simp
  below := by
    rw [note_tried]
    intro a ha
    rcases mem_append.mp ha with hold | hnew
    · exact Nat.lt_succ_of_lt (h.below a hold)
    · rw [mem_singleton.mp hnew]
      exact Nat.lt_succ_self k
  captured := by
    rw [note_tried]
    intro a ha
    rcases mem_append.mp ha with hold | hnew
    · exact h.captured a hold
    · rw [mem_singleton.mp hnew]
      exact hcap

/-- When the loop ends, only the last attempt can have been let through. -/
structure WalkOver (policy : FallbackPolicy) (l : ChainLoop) : Prop extends Walked policy l where
  last : ∀ a ∈ l.tried, a.captured = false → l.tried.getLast? = some a

theorem WalkedTo.over (h : WalkedTo policy k l) : WalkOver policy l where
  toWalked := h.toWalked
  last a ha hlet := by rw [h.captured a ha] at hlet; cases hlet

theorem WalkedTo.over_attempt (h : WalkedTo policy k l) {answer : HopAnswer}
    (hkeep : ChainAttempt.cools policy ⟨k, hop, answer⟩ = false) :
    WalkOver policy (l.attempt k hop answer) where
  places := h.attempt hop answer
  cooled := by
    simp only [ChainLoop.attempt, filter_append, map_append]
    simp [hkeep, h.cooled]
  last a ha hlet := by
    rcases mem_append.mp ha with hold | hnew
    · rw [h.captured a hold] at hlet
      cases hlet
    · rw [mem_singleton.mp hnew]
      simp [ChainLoop.attempt]

theorem chainLoop_over {order : List RouteBinding} (h : WalkedTo policy k l) :
    WalkOver policy (chainLoop policy deadline env k order l).1 := by
  fun_induction chainLoop policy deadline env k order l with
  | case1 | case2 => exact h.over
  | case3 k x order l hin hskip ih =>
    exact ih ⟨h.toWalked, fun a ha => Nat.lt_succ_of_lt (h.below a ha), h.captured⟩
  | case4 k x order l hin huse l' hcap habort =>
    exact h.over_attempt (by simp [cools, habort])
  | case5 k x order l hin huse l' hcap hwhole ih =>
    exact ih (h.note hcap (Bool.not_eq_true _ ▸ hwhole))
  | case6 k x order l hin huse l' hlet =>
    refine h.over_attempt ?_
    have helig : failoverEligibleResponse (env k).answer.head = false := by
      simp only [HopEnv.captured, chainAttemptEligible, Bool.not_eq_true,
        Bool.or_eq_false_iff] at hlet
      exact hlet.1
    simp [cools, helig]

structure AnswersOnce (policy : FallbackPolicy) (chain : CandidateChain) (s : ChainState)
    (req : ChainRequest) (t : ChainTrace) : Prop where
  /-- The try order is the chain: the sticky hop, the available ones, the cooling ones. -/
  order : req.bodyOk = true →
    t.order.Perm chain.candidates ∧
    t.order =
      (chain.candidates.filter fun c => decide (hopBand t.stick.stickTo s.cooldown req.now c = 0)) ++
      (chain.candidates.filter fun c => decide (hopBand t.stick.stickTo s.cooldown req.now c = 1)) ++
      (chain.candidates.filter fun c => decide (hopBand t.stick.stickTo s.cooldown req.now c = 2))
  once : (t.loop.tried.map ChainAttempt.place).Pairwise (· < ·) ∧
    ∀ a ∈ t.loop.tried, t.order[a.place]? = some a.hop
  last : ∀ a ∈ t.loop.tried, a.captured = false → t.loop.tried.getLast? = some a
  reply : t.replies.length = 1
  /-- A binding is cooled by an attempt of its own that failed at its upstream. -/
  cooled : ∀ key ∈ t.loop.cooled, ∀ b ∈ chain.candidates, hopKey b = key →
    ∃ a ∈ t.loop.tried, a.hop = b ∧ a.answer.fromUpstream = true ∧
      failoverEligibleResponse a.answer.head = true

variable (policy : FallbackPolicy) (chain : CandidateChain) (s : ChainState) (req : ChainRequest)

def tryOrder : List RouteBinding :=
  match chain.candidates with
  | [] => []
  | primary :: _ =>
    orderCandidates chain.candidates
      (s.activity.observe (activityKey primary) (policy.idleGap * millisecond)
        (policy.maxStickiness * millisecond) req.now).2.stickTo s.cooldown req.now

/-- Of the hops that are attempted, none has a deferred response that breaks off; and where one
fails so that its key is cooled, every binding of the chain with that key is attempted and fails so
at its upstream: the response was not the proxy's own and the client did not go away. -/
structure FailsUpstream (policy : FallbackPolicy) (chain : CandidateChain) (s : ChainState)
    (req : ChainRequest) : Prop where
  whole : ∀ d hop, Attempts (chainDeadline policy req.startTime) req.env 0
      (tryOrder policy chain s req) d hop →
    (req.env d).captured = true → (req.env d).answer.isAborted = false
  own : ∀ d hop, Attempts (chainDeadline policy req.startTime) req.env 0
      (tryOrder policy chain s req) d hop →
    ChainAttempt.cools policy ⟨d, hop, (req.env d).answer⟩ = true →
    ∀ b ∈ chain.candidates, hopKey b = hopKey hop →
      ∃ d', Attempts (chainDeadline policy req.startTime) req.env 0
          (tryOrder policy chain s req) d' b ∧
        (req.env d').answer.fromUpstream = true ∧
        failoverEligibleResponse (req.env d').answer.head = true

/-! ## The result -/

section

variable (policy : FallbackPolicy) {chain : CandidateChain} {s : ChainState} {req : ChainRequest}

theorem serveManagedChain_loop (hne : chain.candidates ≠ []) (hbody : req.bodyOk = true) :
    (serveManagedChain policy chain s req).2.order = tryOrder policy chain s req ∧
    (serveManagedChain policy chain s req).2.loop =
      (chainLoop policy (chainDeadline policy req.startTime) req.env 0
        (tryOrder policy chain s req) (.start s.cooldown)).1 ∧
    (serveManagedChain policy chain s req).2.replies =
      chainReplies chain (serveManagedChain policy chain s req).2.loop
        (chainLoop policy (chainDeadline policy req.startTime) req.env 0
          (tryOrder policy chain s req) (.start s.cooldown)).2 ∧ tryOrder policy chain s req =
      orderCandidates chain.candidates (serveManagedChain policy chain s req).2.stick.stickTo
        s.cooldown req.now := by
  cases hc : chain.candidates with
  | nil => exact absurd hc hne
  | cons primary rest =>
    unfold serveManagedChain tryOrder
    rw [hc]
    simp [hbody]

theorem mem_served_tried (hne : chain.candidates ≠ []) (hbody : req.bodyOk = true)
    (a : ChainAttempt) : a ∈ (serveManagedChain policy chain s req).2.loop.tried ↔
      ∃ d hop, Attempts (chainDeadline policy req.startTime) req.env 0
        (tryOrder policy chain s req) d hop ∧ a = ⟨d, hop, (req.env d).answer⟩ := by
  rw [(serveManagedChain_loop policy hne hbody).2.1, mem_tried]
  simp [start]

end

theorem length_chainReplies (chain : CandidateChain) (l : ChainLoop) (e : ChainEnd) :
    (chainReplies chain l e).length = 1 ↔ e ≠ .aborted := by
  cases e <;> simp [chainReplies]

/-- Serving a chain that has a candidate answers once exactly under the condition. -/
theorem chain_answers_once_iff (hne : chain.candidates ≠ []) :
    AnswersOnce policy chain s req (serveManagedChain policy chain s req).2 ↔
      (req.bodyOk = true → FailsUpstream policy chain s req) := by
  cases hbody : req.bodyOk with
  | false =>
    -- nothing is attempted
    have htrace : (serveManagedChain policy chain s req).2 =
        ⟨[], ⟨"", 0, false⟩, .start s.cooldown, none, [.bodyUnreadable]⟩ := by
      unfold serveManagedChain
      cases hc : chain.candidates with
      | nil => exact absurd hc hne
      | cons primary rest => simp [hbody]
    rw [htrace]
    refine ⟨fun _ h => (Bool.false_ne_true h).elim, fun _ => ?_⟩
    refine ⟨fun h => ?_, ⟨List.Pairwise.nil, by simp [start]⟩, by simp [start],
      rfl, by simp [start]⟩
    rw [hbody] at h
    cases h
  | true =>
    obtain ⟨horder, hloop, hreplies, hsorted⟩ := serveManagedChain_loop policy (s := s) hne hbody
    have hover : WalkOver policy (serveManagedChain policy chain s req).2.loop := by
      rw [hloop]
      exact chainLoop_over (walkedTo_start s.cooldown)
    have htried := mem_served_tried policy (s := s) hne hbody
    have hreply : (serveManagedChain policy chain s req).2.replies.length = 1 ↔
        ∀ d hop, Attempts (chainDeadline policy req.startTime) req.env 0
          (tryOrder policy chain s req) d hop →
        (req.env d).captured = true → (req.env d).answer.isAborted = false := by
      rw [hreplies, length_chainReplies, Ne, ending_aborted]
      simp only [Nat.zero_add, not_exists, not_and, Bool.not_eq_true]
    refine ⟨fun h _ => ⟨hreply.mp h.reply, ?_⟩, fun h => ?_⟩
    · intro d hop hat hcools b hb hkey
      have hmem := (htried ⟨d, hop, (req.env d).answer⟩).mpr ⟨d, hop, hat, rfl⟩
      have hcooled : hopKey hop ∈ (serveManagedChain policy chain s req).2.loop.cooled := by
        rw [hover.cooled, mem_map]
        exact ⟨_, mem_filter.mpr ⟨hmem, hcools⟩, rfl⟩
      obtain ⟨a, ha, rfl, hup, helig⟩ := h.cooled _ hcooled b hb hkey
      obtain ⟨d', hop', hat', rfl⟩ := (htried a).mp ha
      exact ⟨d', hat', hup, helig⟩
    · have hfails := h rfl
      refine ⟨fun _ => ?_, ⟨hover.places, ?_⟩, hover.last, hreply.mpr hfails.whole, ?_⟩
      · rw [horder, hsorted]
        exact ⟨sortBy_perm _ _, orderCandidates_eq _ _ _ _⟩
      · intro a ha
        obtain ⟨d, hop, hat, rfl⟩ := (htried a).mp ha
        rw [horder]
        exact hat.hop
      · intro key hkey b hb hbkey
        rw [hover.cooled, mem_map] at hkey
        obtain ⟨a, ha, rfl⟩ := hkey
        obtain ⟨hmem, hcools⟩ := mem_filter.mp ha
        obtain ⟨d, hop, hat, rfl⟩ := (htried a).mp hmem
        obtain ⟨d', hat', hup, helig⟩ := hfails.own d hop hat hcools b hb hbkey
        exact ⟨_, (htried _).mpr ⟨d', b, hat', rfl⟩, rfl, hup, helig⟩

def pairChain : CandidateChain where
  candidates :=
    [{ virtualKeyID := "vk", routeSource := .team, providerCode := "anthropic",
       protocolType := "anthropic", credentialID := "c1", priority := 1, routeGroupID := "g" },
     { virtualKeyID := "vk", routeSource := .team, providerCode := "glm",
       protocolType := "anthropic", credentialID := "c2", priority := 2, routeGroupID := "g" }]
  pinned := false
  grouped := true
  groupID := "g"
  groupName := "main"

def emptyState : ChainState := ⟨∅, ∅⟩

def everyHop (answer : HopAnswer) : Nat → HopEnv := fun _ =>
  ⟨0, true, true, "https://upstream", answer, 0⟩

theorem served_chain_answers_once :
    AnswersOnce ⟨300000, 0, 0, 60000⟩ pairChain emptyState
      ⟨true, 0, 0, everyHop (.upstream { status := 200 })⟩
      (serveManagedChain ⟨300000, 0, 0, 60000⟩ pairChain emptyState
        ⟨true, 0, 0, everyHop (.upstream { status := 200 })⟩).2 :=
  (chain_answers_once_iff _ _ _ _ (by simp [pairChain])).mpr fun _ =>
    { whole := fun _ _ _ _ => rfl
      own := nofun }

/-- The proxy refuses the request at each hop, which looks like a rate limit: both bindings are
cooled, and neither was asked. -/
theorem quota_refusal_cools :
    ¬ ∀ (policy : FallbackPolicy) (chain : CandidateChain) (s : ChainState) (req : ChainRequest),
      chain.candidates ≠ [] →
      AnswersOnce policy chain s req (serveManagedChain policy chain s req).2 := by
  intro hall
  have honce := hall ⟨300000, 0, 0, 60000⟩ pairChain emptyState
    ⟨true, 0, 0, everyHop (.overQuota "QUOTA_EXCEEDED_TOKEN" "3600" (some 3600))⟩ (by simp [pairChain])
  obtain ⟨a, ha, -, hup, -⟩ := honce.cooled "vk|c1" (by decide) pairChain.candidates[0]
    (by simp [pairChain]) (by decide)
  obtain ⟨d, hop, -, rfl⟩ := (mem_served_tried _ (by simp [pairChain]) rfl a).mp ha
  cases hup

end AikeyProxy.Proxy
