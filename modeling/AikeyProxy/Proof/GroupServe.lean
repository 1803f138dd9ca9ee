import AikeyProxy.Proxy.GroupServe

/-!
# What one group request does

Attempted accounts are among the failed ones, which the resolver passes over, and failed paths are
looked up before a path is dialed. Both sets only grow, so no account is attempted twice and no
failed path is dialed again. A round that goes on spends a candidate, and an attempt past the third
switch is the last. Every way out answers once, except that a deferred response whose body breaks
off aborts the handler before anything was written.
-/

namespace AikeyProxy.Proxy

open Lib Supervisor List GroupProxy Option

/-! ## What was done -/

def GroupEvent.account : GroupEvent → Option String
  | .attempted account _ _ => some account
  | .pathBlocked .. | .passedOver .. => none

def GroupEvent.dialedPath : GroupEvent → Option String
  | .attempted _ pathKey _ => some pathKey
  | .pathBlocked .. | .passedOver .. => none

def GroupEvent.failedPath : GroupEvent → Option String
  | .attempted _ pathKey answer => if answer.failsPath then some pathKey else none
  | .pathBlocked _ pathKey => some pathKey
  | .passedOver .. => none

def attemptedAccounts (events : List GroupEvent) : List String :=
  events.filterMap GroupEvent.account

def AvoidsFailedPaths (events : List GroupEvent) : Prop :=
  events.Pairwise fun e e' => ∀ k, e.failedPath = some k → e'.dialedPath ≠ some k

/-- At most four attempts, each on another account, none on a path that failed before; and the
skip maps lent to the resolver are as they were. -/
structure GroupRun.Bounded (run : GroupRun) : Prop where
  attempts : (attemptedAccounts run.events).length ≤ 4
  accounts : (attemptedAccounts run.events).Nodup
  paths : AvoidsFailedPaths run.events
  skips : ∀ m ∈ run.skips, m.2 = m.1

structure GroupRun.Sound (run : GroupRun) : Prop extends GroupRun.Bounded run where
  once : run.replies.length = 1

/-! ## The events and the two sets -/

/-- The sets know of every account attempted and of every path that failed. -/
structure Tracked (failed failedPaths : Finset String) (events : List GroupEvent) : Prop where
  accounts : (attemptedAccounts events).Nodup
  paths : AvoidsFailedPaths events
  failed : ∀ id ∈ attemptedAccounts events, id ∈ failed
  failedPaths : ∀ e ∈ events, ∀ k, e.failedPath = some k → k ∈ failedPaths

structure Clear (failed failedPaths : Finset String) (e : GroupEvent) : Prop where
  account : ∀ id, e.account = some id → id ∉ failed
  path : ∀ k, e.dialedPath = some k → k ∉ failedPaths

theorem attemptedAccounts_append (events : List GroupEvent) (e : GroupEvent) :
    attemptedAccounts (events ++ [e]) = attemptedAccounts events ++ e.account.toList := by
  rw [attemptedAccounts, filterMap_append]
  cases h : e.account <;> simp [attemptedAccounts, h]

variable {e : GroupEvent} {events : List GroupEvent} {failed failedPaths : Finset String}

theorem Tracked.nodup_append (h : Tracked failed failedPaths events)
    (he : Clear failed failedPaths e) : (attemptedAccounts (events ++ [e])).Nodup := by
  rw [attemptedAccounts_append, List.nodup_append]
  refine ⟨h.accounts, toList_nodup _, ?_⟩
  rintro id hid id' hid' rfl
  exact he.account id (mem_toList.mp hid') (h.failed id hid)

theorem Tracked.avoids_append (h : Tracked failed failedPaths events)
    (he : Clear failed failedPaths e) : AvoidsFailedPaths (events ++ [e]) := by
  refine pairwise_append.mpr ⟨h.paths, pairwise_singleton _ _, ?_⟩
  intro e' he' e'' he'' k hk hdial
  rw [mem_singleton.mp he''] at hdial
  exact he.path k hdial (h.failedPaths e' he' k hk)

theorem Tracked.append {failed' failedPaths' : Finset String}
    (h : Tracked failed failedPaths events) (he : Clear failed failedPaths e)
    (hfailed : failed ⊆ failed') (hpaths : failedPaths ⊆ failedPaths')
    (haccount : ∀ id, e.account = some id → id ∈ failed')
    (hpath : ∀ k, e.failedPath = some k → k ∈ failedPaths') :
    Tracked failed' failedPaths' (events ++ [e]) where
  accounts := h.nodup_append he
  paths := h.avoids_append he
  failed := by
    intro id hid
    rw [attemptedAccounts_append, mem_append] at hid
    rcases hid with hid | hid
    · exact hfailed (h.failed id hid)
    · exact haccount id (mem_toList.mp hid)
  failedPaths := by
    intro e' he' k hk
    rcases mem_append.mp he' with he' | he'
    · exact hpaths (h.failedPaths e' he' k hk)
    · rw [mem_singleton.mp he'] at hk
      exact hpath k hk

section

variable (p : GroupProxy) (route : RouteBinding) (req : GroupRequest)

/-! ## One round -/

theorem resolve_skip (reads : GroupReads) (skip : Finset String) :
    (p.resolve route req reads skip).2 = skip :=
  resolveGroupCredential_skip p.toGroupSources route reads.nowUnix skip req.override

variable {s : GroupLoop}

variable {res : GroupResolution} {path : ProviderPath}

theorem decide_forward (h : p.decide route req s = .forward res path) :
    res.accountID ∉ s.failed ∧ path.key ∉ s.failedPaths := by
  refine ⟨(p.decide_target route req (by rw [h]; rfl)).2, ?_⟩
  revert h
  fun_cases GroupProxy.decide p route req s <;> intro h
  · cases h
  next reads res' _ =>
    revert h
    fun_cases assess p route req s reads res' <;> intro h
    case case5 hpath _ _ _ => exact (GroupDecision.forward.inj h).2 ▸ hpath
    all_goals cases h

theorem clear_attempted (h : p.decide route req s = .forward res path) (answer : GroupAnswer) :
    Clear s.failed s.failedPaths (.attempted res.accountID path.key answer) := by
  obtain ⟨haccount, hpath⟩ := decide_forward p route req h
  constructor
  · rintro id ⟨⟩
    exact haccount
  · rintro k ⟨⟩
    exact hpath

section

variable (s : GroupLoop) (reads : GroupReads)

theorem loginActionable_skips (e : GroupResolveError) :
    ∀ m ∈ (p.loginActionable route req s reads e).2, m.2 = m.1 := by
  unfold loginActionable
  split
  · exact nofun
  · intro m hm
    rw [mem_singleton.mp hm]
    exact resolve_skip p route req reads reads.baseSkip

theorem revokedAccount_skips : ∀ m ∈ (p.revokedAccount route req s reads).2, m.2 = m.1 := by
  unfold revokedAccount
  split
  · intro m hm
    rw [mem_singleton.mp hm]
    exact resolve_skip p route req reads reads.timedSkip
  · intro m hm
    exact absurd hm not_mem_nil

theorem errorReply_skips (e : GroupResolveError) :
    ∀ m ∈ (p.errorReply route req s reads e).2, m.2 = m.1 := by
  unfold errorReply
  split
  · exact loginActionable_skips p route req s reads e
  · split
    · exact nofun
    · exact revokedAccount_skips p route req s reads
  all_goals exact nofun

end

theorem decide_answer {reply : GroupReply} {asked : List (Finset String × Finset String)}
    (h : p.decide route req s = .answer reply asked) : ∀ m ∈ asked, m.2 = m.1 := by
  revert h
  fun_cases GroupProxy.decide p route req s <;> intro h
  next reads e _ _ _ hreply =>
    cases h
    have hskips := errorReply_skips p route req s reads e
    rwa [hreply] at hskips
  next reads res' _ =>
    revert h
    fun_cases assess p route req s reads res' <;> rintro ⟨⟩ _ hm <;> cases hm

theorem lend_skips (h : ∀ m ∈ s.skips, m.2 = m.1) :
    ∀ m ∈ (p.lend route req s).skips, m.2 = m.1 := by
  intro m hm
  rcases mem_append.mp hm with hm | hm
  · exact h m hm
  · rw [mem_singleton.mp hm]
    exact resolve_skip p route req _ _

/-- What a round that goes on does: one event, kept in the sets. -/
structure GoesOn (s s' : GroupLoop) (e : GroupEvent) : Prop where
  events : s'.events = s.events ++ [e]
  clear : Clear s.failed s.failedPaths e
  failed : s.failed ⊆ s'.failed
  failedPaths : s.failedPaths ⊆ s'.failedPaths
  account : ∀ id, e.account = some id → id ∈ s'.failed
  path : ∀ k, e.failedPath = some k → k ∈ s'.failedPaths
  attempts : s'.upstreamAttempts = s.upstreamAttempts + e.account.toList.length
  switches : e.account.isSome → s.upstreamAttempts < groupFailoverMaxSwitches
  skips : s'.skips = (p.lend route req s).skips

variable {s' : GroupLoop} {run : GroupRun}

theorem step_goesOn (h : p.step route req s = .inl s') : ∃ e, GoesOn p route req s s' e := by
  have hnone {P : String → Prop} : ∀ id, none = some id → P id := nofun
  revert h
  fun_cases GroupProxy.step p route req s <;> intro h <;> cases h
  case case2 res path _ => -- passed over: nothing was dialed, and no path is newly known to fail
    exact ⟨.passedOver res.accountID path.key,
      { events := rfl, clear := ⟨hnone, hnone⟩, failed := Finset.subset_insert _ _
        failedPaths := Finset.Subset.refl _, account := hnone, path := hnone, attempts := rfl
        switches := fun heq => (by cases heq), skips := rfl }⟩
  case case3 res path _ _ => -- the breaker refused
    exact ⟨.pathBlocked res.accountID path.key,
      { events := rfl, clear := ⟨hnone, hnone⟩, failed := Finset.subset_insert _ _
        failedPaths := Finset.subset_insert _ _, account := hnone
        path := fun k hk => Finset.mem_insert.mpr (.inl (some.inj hk).symm)
        attempts := rfl, switches := fun heq => (by cases heq), skips := rfl }⟩
  case case7 res path hdecide answer _ _ _ _ hswitches =>
    refine ⟨.attempted res.accountID path.key answer,
      { events := rfl, clear := clear_attempted p route req hdecide answer
        failed := Finset.subset_insert _ _, failedPaths := ?_
        account := ?_, path := ?_, attempts := rfl, switches := fun _ => Nat.not_le.mp hswitches
        skips := rfl }⟩
    · dsimp only [GroupLoop.noteCaptured]
      split
      · exact Finset.subset_insert _ _
      · exact Finset.Subset.refl _
    · rintro id ⟨⟩
      exact Finset.mem_insert_self _ _
    · intro k hk
      dsimp only [GroupLoop.noteCaptured, GroupEvent.failedPath] at hk ⊢
      split at hk <;> cases hk
      next hfails =>
        rw [if_pos hfails]
        exact Finset.mem_insert_self _ _

/-- The account of the round is forwarded to, and its response is deferred and breaks off. -/
def BreaksOff (s : GroupLoop) : Prop :=
  ∃ res path, p.decide route req s = .forward res path ∧
    (req.answer s.upstreamAttempts).captured = true ∧
    (req.answer s.upstreamAttempts).isAborted = true

structure Ends (s : GroupLoop) (run : GroupRun) : Prop where
  events : run.events = s.events ∨
    ∃ e, Clear s.failed s.failedPaths e ∧ run.events = s.events ++ [e]
  skips : ∀ m ∈ run.skips, m ∈ (p.lend route req s).skips ∨ m.2 = m.1
  once : run.replies.length = 1 ↔ ¬ BreaksOff p route req s

theorem step_ends (h : p.step route req s = .inr run) : Ends p route req s run := by
  revert h
  fun_cases GroupProxy.step p route req s <;> intro h <;> cases h
  case case1 hdecide =>
    refine ⟨.inl rfl, fun m hm => ?_, iff_of_true rfl ?_⟩
    · exact (mem_append.mp hm).imp_right (decide_answer p route req hdecide m)
    · rintro ⟨res, path, hforward, -⟩
      cases hdecide.symm.trans hforward
  case case4 hdecide answer _ hcaptured => -- the response was let through
    refine ⟨.inr ⟨_, clear_attempted p route req hdecide answer, rfl⟩, fun m hm => .inl hm,
      iff_of_true rfl ?_⟩
    rintro ⟨-, -, -, hcap, -⟩
    simp [answer, hcap] at hcaptured
  case case5 res path hdecide answer _ hcaptured haborted =>
    -- it was held back and the handler unwinds before it is flushed
    refine ⟨.inr ⟨_, clear_attempted p route req hdecide answer, rfl⟩, fun m hm => .inl hm,
      iff_of_false (by rintro ⟨⟩) ?_⟩
    rw [Bool.not_eq_true', Bool.not_eq_false] at hcaptured
    exact not_not_intro ⟨res, path, hdecide, hcaptured, haborted⟩
  case case6 hdecide answer _ _ haborted _ _ =>
    -- it was held back and there is no switch left: it is flushed
    refine ⟨.inr ⟨_, clear_attempted p route req hdecide answer, rfl⟩, fun m hm => .inl hm,
      iff_of_true rfl ?_⟩
    rintro ⟨-, -, -, -, hab⟩
    exact haborted hab

/-! ## The whole request -/

structure GroupLoop.Inv (s : GroupLoop) : Prop where
  tracked : Tracked s.failed s.failedPaths s.events
  count : (attemptedAccounts s.events).length = s.upstreamAttempts
  bound : s.upstreamAttempts ≤ groupFailoverMaxSwitches
  skips : ∀ m ∈ s.skips, m.2 = m.1

theorem inv_start : GroupLoop.Inv {} where
  tracked := ⟨nodup_nil, List.Pairwise.nil, nofun, nofun⟩
  count := rfl
  bound := Nat.zero_le _
  skips := nofun

/-- **A round that goes on keeps the invariant.** -/
theorem inv_step (h : s.Inv) (hs : p.step route req s = .inl s') : s'.Inv := by
  obtain ⟨e, he⟩ := step_goesOn p route req hs
  refine ⟨?_, ?_, ?_, ?_⟩
  · rw [he.events]
    exact h.tracked.append he.clear he.failed he.failedPaths he.account he.path
  · rw [he.events, attemptedAccounts_append, length_append, h.count, he.attempts]
  · -- only an attempt counts, and one that goes on was made below the limit
    have hb := h.bound
    have hswitches := he.switches
    rw [he.attempts]
    cases hacc : e.account with
    | none =>
      rw [toList_none, length_nil]
      omega
    | some id =>
      rw [hacc] at hswitches
      have hlt := hswitches rfl
      rw [toList_some, length_singleton]
      omega
  · rw [he.skips]
    exact lend_skips p route req h.skips

theorem ends_bounded (h : s.Inv) (hend : Ends p route req s run) : run.Bounded := by
  have hswitches : groupFailoverMaxSwitches = 3 := rfl
  have hcount := h.count
  have hbound := h.bound
  have hskips : ∀ m ∈ run.skips, m.2 = m.1 := by
    intro m hm
    rcases hend.skips m hm with hlent | heq
    · exact lend_skips p route req h.skips m hlent
    · exact heq
  rcases hend.events with hevents | ⟨e, hclear, hevents⟩
  · refine ⟨?_, ?_, ?_, hskips⟩
    · rw [hevents]
      omega
    · rw [hevents]
      exact h.tracked.accounts
    · rw [hevents]
      exact h.tracked.paths
  · refine ⟨?_, ?_, ?_, hskips⟩
    · have hone : e.account.toList.length ≤ 1 := by cases e.account <;> simp
      rw [hevents, attemptedAccounts_append, length_append]
      omega
    · rw [hevents]
      exact h.tracked.nodup_append hclear
    · rw [hevents]
      exact h.tracked.avoids_append hclear

theorem visits_inv (h : Visits (p.step route req) {} s) : s.Inv :=
  h.invariant (fun _ _ hinv hs => inv_step p route req hinv hs) inv_start

def GroupRequest.entersLoop (req : GroupRequest) : Bool :=
  req.hasKey && !req.removed && !req.blocked && req.body.isOk

/-- No round of the request meets a deferred response that breaks off. -/
def Unbroken : Prop :=
  req.entersLoop = true → ∀ s, Visits (p.step route req) {} s → ¬ BreaksOff p route req s

theorem loop_bounded : (p.loop route req).Bounded := by
  obtain ⟨s, hvisit, hlast⟩ := retry_last (p.step_shrinks route req) {}
  exact ends_bounded p route req (visits_inv p route req hvisit) (step_ends p route req hlast)

theorem step_of_breaksOff (h : BreaksOff p route req s) : ∃ run, p.step route req s = .inr run := by
  obtain ⟨res, path, hdecide, hcaptured, haborted⟩ := h
  unfold GroupProxy.step
  rw [hdecide]
  dsimp only
  rw [hcaptured, haborted]
  exact ⟨_, rfl⟩

theorem loop_once_iff :
    (p.loop route req).replies.length = 1 ↔
      ∀ s, Visits (p.step route req) {} s → ¬ BreaksOff p route req s := by
  constructor
  · -- the state that breaks off is the last one, so its run is the result
    intro honce s hvisit hbreaks
    obtain ⟨run, hrun⟩ := step_of_breaksOff p route req hbreaks
    have hresult : p.loop route req = run := retry_eq_of_last hvisit hrun
    rw [hresult] at honce
    exact (step_ends p route req hrun).once.mp honce hbreaks
  · intro hunbroken
    obtain ⟨s, hvisit, hlast⟩ := retry_last (p.step_shrinks route req) {}
    exact (step_ends p route req hlast).once.mpr (hunbroken s hvisit)

theorem sound_of_single (reply : GroupReply) : GroupRun.Sound ⟨[], [], [reply]⟩ :=
  ⟨⟨Nat.zero_le _, nodup_nil, List.Pairwise.nil, nofun⟩, rfl⟩

theorem handle_cases :
    (req.entersLoop = false ∧ ∃ reply, p.handleOauthGroupRoute route req = ⟨[], [], [reply]⟩) ∨
      (req.entersLoop = true ∧ p.handleOauthGroupRoute route req = p.loop route req) := by
  unfold handleOauthGroupRoute GroupRequest.entersLoop
  split_ifs with hkey hremoved hblocked
  · exact .inl ⟨by simp_all, _, rfl⟩
  · exact .inl ⟨by simp_all, _, rfl⟩
  · exact .inl ⟨by simp_all, _, rfl⟩
  · cases hbody : req.body with
    | error e => exact .inl ⟨by simp [Except.isOk, Except.toBool], _, rfl⟩
    | ok u => exact .inr ⟨by simp_all [Except.isOk, Except.toBool], rfl⟩

/-- **A group request is bounded**, whatever it meets. -/
theorem handle_bounded : (p.handleOauthGroupRoute route req).Bounded := by
  rcases handle_cases p route req with ⟨-, reply, hrun⟩ | ⟨-, hrun⟩
  · rw [hrun]
    exact (sound_of_single reply).toBounded
  · rw [hrun]
    exact loop_bounded p route req

/-- **A group request is bounded and answered once** exactly when none of its deferred responses
breaks off. -/
theorem group_request_sound_iff :
    (p.handleOauthGroupRoute route req).Sound ↔ Unbroken p route req := by
  rcases handle_cases p route req with ⟨houtside, reply, hrun⟩ | ⟨henters, hrun⟩
  · rw [hrun]
    refine iff_of_true (sound_of_single reply) fun henters => ?_
    rw [houtside] at henters
    cases henters
  · have hbounded := handle_bounded p route req
    rw [hrun] at hbounded ⊢
    constructor
    · intro hsound _
      exact (loop_once_iff p route req).mp hsound.once
    · intro hunbroken
      exact ⟨hbounded, (loop_once_iff p route req).mpr (hunbroken henters)⟩

end

def loneAccountProxy : GroupProxy where
  refs _ := []
  material _ := some (buildGroupRuntimeMap (fun _ => 0)
    [{ accountID := "a", credentialType := "api_key", credentialID := "c", identity := ""
       providerCode := "openai", protocolType := "openai", baseURL := "https://up", priority := 0
       util5h := none, util7d := none, utilObservedAt := none, windowMaxUtilPct := none
       windowStatus := "", windowResetAt := none, window7dMaxUtilPct := none, window7dStatus := ""
       window7dResetAt := none, needsLogin := false, accessToken := "", expiresAt := 0
       externalID := "", egressProxyURL := "", key := "k", revision := "" }])
  rank _ accounts := accounts.map Prod.fst
  decrypt mat := mat.secret.map Sealed.plaintext
  canonicalCode := id
  canonicalProtocol := id
  resolveOAuthUpstream _ _ base := base
  hasAdapter _ := true
  normalizedOrigin := id
  isFragment _ := false
  loadtestUpstreamAllowed _ := true
  hashString s := "#" ++ s
  hash_ne s := by simp

def quietReads : GroupReads where
  timedSkip := ∅
  authSkip := ∅
  nowUnix := 0
  tierUntil := none
  overrideOn := false
  health := newProviderPathHealthManager
  now := 0
  cooldownCode := ""
  hasAdvice := false

def brokenOffRequest : GroupRequest where
  hasKey := true
  removed := false
  blocked := false
  body := .ok ()
  override := ""
  urlPath := "/v1/responses"
  nonStreaming := false
  loadtest := false
  reads _ := quietReads
  answer _ := .aborted { status := 502 }
  revoked _ := false

def groupRoute : RouteBinding :=
  { virtualKeyID := "vk", routeSource := .team, oauthGroupID := "g", groupRuntime := "delivered" }

theorem broken_off_unanswered :
    ¬ (loneAccountProxy.handleOauthGroupRoute groupRoute brokenOffRequest).Sound := by
  intro h
  have hreplies :
      (loneAccountProxy.handleOauthGroupRoute groupRoute brokenOffRequest).replies = [] := rfl
  have honce := h.once
  rw [hreplies] at honce
  cases honce

end AikeyProxy.Proxy
