import AikeyProxy.Proxy.GroupResolve
import AikeyProxy.Proxy.ManagedChain
import AikeyProxy.Proxy.PathHealth

/-!
# Serving a group request

`handleOauthGroupRoute` resolves an account, forwards the request and, if the response is worth
trying elsewhere, resolves again without that account. It also keeps the egress paths that failed,
so that another account behind one is passed over. Cooldowns and path health are shared with other
requests; what a round reads of them is given with the request.
-/

namespace AikeyProxy.Proxy

open Lib Supervisor

/-! ## Paths -/

structure GroupProxy extends GroupSources where
  canonicalCode : String → String
  canonicalProtocol : String → String
  /-- The address that serves the OAuth accounts of a provider and protocol, given a base URL. -/
  resolveOAuthUpstream : String → String → String → String
  hasAdapter : String → Bool
  normalizedOrigin : String → String
  isFragment : String → Bool
  loadtestUpstreamAllowed : String → Bool
  hashString : String → String
  hash_ne : ∀ s, hashString s ≠ ""

def GroupProxy.shortHash (p : GroupProxy) (s : String) : String :=
  String.ofList ((p.hashString s).toList.take 12)

def trimmed (s : String) : String := String.ofList (trimSpace s.toList)

/-- Whether an account's egress applies, the engine it takes and its fingerprint. -/
def GroupProxy.egressAttribution (p : GroupProxy) (spec : String) (overrideOn : Bool) :
    Bool × String × String :=
  let s := trimmed spec
  if s = "" then (false, "none", "")
  else
    (!overrideOn,
      if p.isFragment s then "mihomo"
      else if ',' ∈ s.toList then "socks5-chain"
      else "single-url",
      p.shortHash s)

/-- `providerPathForRoute`, for a route and the egress of its account. -/
def GroupProxy.providerPathForRoute (p : GroupProxy) (route : RouteBinding)
    (egressProxyURL : String) (overrideOn : Bool) : ProviderPath :=
  let providerCode := orElse (p.canonicalCode route.providerCode) (p.canonicalCode route.provider)
  let protocol := orElse (trimmed route.protocolType) (trimmed route.provider)
  let origin := p.normalizedOrigin route.baseURL
  let (applied, engine, fingerprint) := p.egressAttribution egressProxyURL overrideOn
  let transport := if applied then engine else "node"
  let egressFingerprint := if applied then fingerprint else ""
  { key := p.hashString
      ("|".intercalate [providerCode, protocol, origin, transport, egressFingerprint])
    provider := providerCode
    protocol := protocol
    transport := transport
    originFingerprint := p.shortHash origin
    egressFingerprint := egressFingerprint }

/-! ## Answers -/

inductive TripFailure where
  | egressDial
  | nodeEgress
  | privateDestination
  | other

inductive GroupAnswer where
  | upstream (head : ResponseHead)
  /-- The upstream answered and its body broke off: the reverse proxy aborts the handler. -/
  | aborted (head : ResponseHead)
  /-- There was no response; `canceled` if because the request's context was. -/
  | failed (failure : TripFailure) (canceled : Bool)
  /-- The proxy answered before it dialed: quota, filter, model map, no base URL, or an egress
  that could not be built. -/
  | refused (head : ResponseHead)

def errCodeAccountEgressEngine : String := "ACCOUNT_EGRESS_ENGINE_UNAVAILABLE"

/-- The head of the response that was written; that of a failed trip is the error handler's. -/
def GroupAnswer.head : GroupAnswer → ResponseHead
  | .upstream head | .aborted head | .refused head => head
  | .failed .egressDial _ => { status := 503, errorSource := "ACCOUNT_EGRESS_PROXY_UNAVAILABLE" }
  | .failed .nodeEgress _ => { status := 503, errorSource := errCodeNodeEgressEngine }
  | .failed .privateDestination _ => { status := 502, errorSource := "UPSTREAM_PRIVATE_VIA_EGRESS" }
  | .failed .other _ => { status := 503, errorSource := "GROUP_UPSTREAM_UNAVAILABLE" }

def GroupAnswer.captured (a : GroupAnswer) : Bool := failoverEligibleResponse a.head

def GroupAnswer.isAborted : GroupAnswer → Bool
  | .aborted _ => true
  | _ => false

/-- The path is blamed: the error handler marks it, or the egress engine did not start. -/
def GroupAnswer.failsPath : GroupAnswer → Bool
  | .failed _ canceled => !canceled
  | a => a.head.errorSource == errCodeAccountEgressEngine

inductive GroupReply where
  | degraded (code : String)
  | degradedWithRetry (code : String)
  | poolFull
  | bodyRejected (code : String)
  | loginRequired (account : String)
  | refused (code : String)
  | relayed (head : ResponseHead)
  | flushed (head : ResponseHead)
  | pathUnavailable (health : ProviderPathHealth)
  | modelTierExhausted (tierUntil : Int)

/-! ## The request -/

structure GroupReads where
  timedSkip : Finset String
  authSkip : Finset String
  nowUnix : Int
  /-- The end of the cooldown of the model's tier, if it has a tier and that is cooled. -/
  tierUntil : Option Int
  overrideOn : Bool
  health : ProviderPathHealthManager
  now : Int
  cooldownCode : String
  hasAdvice : Bool

inductive ReplayBodyError where
  | tooLarge
  | capacity
  | unreadable

def ReplayBodyError.code : ReplayBodyError → String
  | .tooLarge => "GROUP_REQUEST_BODY_TOO_LARGE"
  | .capacity => "GROUP_REPLAY_CAPACITY_EXCEEDED"
  | .unreadable => "GROUP_REQUEST_BODY_READ_FAILED"

structure GroupRequest where
  hasKey : Bool
  removed : Bool
  /-- The allocation engine left the seat without an account. -/
  blocked : Bool
  body : Except ReplayBodyError Unit
  override : String
  urlPath : String
  /-- A POST whose body is a JSON object that does not ask for a stream. -/
  nonStreaming : Bool
  loadtest : Bool
  reads : Nat → GroupReads
  answer : Nat → GroupAnswer
  /-- Whether the attempt's response proves that its token was revoked, `isHardRevoked`. -/
  revoked : Nat → Bool

/-! ## One candidate -/

def isResponsesPath (urlPath : String) : Bool :=
  let path := urlPath.toList
  let path := if path.getLast? = some '/' then path.dropLast else path
  "/responses".toList.isSuffixOf path

section

variable (p : GroupProxy) (route : RouteBinding) (req : GroupRequest)

/-- The provider whose persona an OAuth account takes. -/
def GroupProxy.oauthInjectionProvider (providerCode protocolType : String) : Option String :=
  let canonical := p.canonicalCode providerCode
  if canonical ≠ "mock" then if canonical = "" then none else some canonical
  else if p.canonicalProtocol protocolType = "anthropic" then some "anthropic"
  else if p.canonicalProtocol protocolType = "openai_compatible" then some "openai"
  else none

/-- The provider, in its canonical form, and the protocol of a resolved account. -/
def GroupProxy.axes (res : GroupResolution) : String × String :=
  (p.canonicalCode (orElse res.providerCode route.providerCode),
    orElse res.protocolType route.protocolType)

def GroupProxy.oauthRefusal (res : GroupResolution) : Option GroupReply :=
  let (canonical, protocolType) := p.axes route res
  match p.oauthInjectionProvider canonical protocolType with
  | none => some (.refused "PROVIDER_ERROR")
  | some oauthCode =>
    if oauthCode = "openai" ∧ isResponsesPath req.urlPath = false then
      some (.refused "OAUTH_RESPONSES_ONLY")
    else if oauthCode = "openai" ∧ req.nonStreaming then
      some (.refused "OAUTH_CODEX_SHAPE_UNSUPPORTED")
    else if oauthCode = "anthropic" ∧ res.oauth.any (·.externalID == "") then
      some (.loginRequired res.accountID)
    else if canonical = "mock" ∧ trimmed res.baseURL = "" then
      some (.refused "PROVIDER_ERROR")
    else none

def GroupProxy.attemptRoute (res : GroupResolution) : RouteBinding :=
  let (canonical, protocolType) := p.axes route res
  { route with
    accountID := res.accountID
    credentialID := res.credentialID
    oauthIdentity := res.identity
    protocolType := protocolType
    providerCode := canonical
    baseURL :=
      if res.credentialType = credTypeKey then orElse res.baseURL route.baseURL
      else
        p.resolveOAuthUpstream canonical protocolType
          (if trimmed res.baseURL = "" then route.baseURL else res.baseURL) }

/-- The answer of a gate in front of the path, if one refuses. -/
def GroupProxy.localRefusal (res : GroupResolution) : Option GroupReply :=
  let gate := if res.credentialType = credTypeKey then none else p.oauthRefusal route req res
  gate.or <|
    let rc := p.attemptRoute route res
    if p.hasAdapter (orElse rc.protocolType rc.provider) then none
    else some (.refused "PROVIDER_ERROR")

/-! ## The loop -/

inductive GroupEvent where
  | attempted (account pathKey : String) (answer : GroupAnswer)
  | pathBlocked (account pathKey : String)
  | passedOver (account pathKey : String)

/-- The rounds so far, what was done in them and the skip maps passed to the resolver, before and
after. -/
structure GroupLoop where
  round : Nat := 0
  failed : Finset String := ∅
  failedPaths : Finset String := ∅
  lastCaptured : Option ResponseHead := none
  lastAuthFailedAccount : String := ""
  lastBlockedPath : Option ProviderPathHealth := none
  upstreamAttempts : Nat := 0
  events : List GroupEvent := []
  skips : List (Finset String × Finset String) := []

structure GroupRun where
  events : List GroupEvent
  skips : List (Finset String × Finset String)
  replies : List GroupReply

section

variable (s : GroupLoop)

def GroupLoop.finish (replies : List GroupReply) : GroupRun :=
  ⟨s.events, s.skips, replies⟩

def groupFailoverMaxSwitches : Nat := 3

section

variable (reads : GroupReads)

def GroupReads.baseSkip : Finset String := reads.timedSkip ∪ reads.authSkip

def GroupProxy.resolve (skip : Finset String) :
    Except GroupResolveError GroupResolution × Finset String :=
  resolveGroupCredential p.toGroupSources route reads.nowUnix skip req.override

/-- The answer that the request's own failures leave: a login, the last response, a path. -/
def GroupLoop.failureReply : Option GroupReply :=
  if s.lastAuthFailedAccount ≠ "" then some (.loginRequired s.lastAuthFailedAccount)
  else
    match s.lastCaptured with
    | some head => some (.flushed head)
    | none => s.lastBlockedPath.map .pathUnavailable

/-- A login target is shown if nothing failed before it, or if it is the target without this
request's failures too; the second part is the resolver's skip map. -/
def GroupProxy.loginActionable (e : GroupResolveError) :
    Bool × List (Finset String × Finset String) :=
  if s.lastCaptured.isNone && s.lastBlockedPath.isNone then (true, [])
  else
    let (result, after) := p.resolve route req reads reads.baseSkip
    (match result with
      | .error base => base.code == .loginRequired && base.account == e.account
      | .ok _ => false, [(reads.baseSkip, after)])

/-- The account behind a token that is known to be revoked, found without that knowledge. -/
def GroupProxy.revokedAccount : Option String × List (Finset String × Finset String) :=
  if s.lastCaptured.isNone && decide (reads.authSkip ≠ ∅) then
    let (result, after) := p.resolve route req reads reads.timedSkip
    (match result with
      | .ok blocked => if blocked.accountID ∈ reads.authSkip then some blocked.accountID else none
      | .error _ => none, [(reads.timedSkip, after)])
  else (none, [])

/-- The answer when every candidate is unusable and none of them was tried. -/
def GroupReads.unusableReply : GroupReply :=
  if reads.cooldownCode ≠ "" then .degraded reads.cooldownCode
  else if reads.hasAdvice then .degradedWithRetry GroupErrCode.allUnusable.text
  else .degraded GroupErrCode.allUnusable.text

def GroupProxy.errorReply (e : GroupResolveError) :
    GroupReply × List (Finset String × Finset String) :=
  match e.code with
  | .loginRequired =>
    let (actionable, asked) := p.loginActionable route req s reads e
    (if actionable then .loginRequired e.account
      else s.failureReply.getD (.degraded e.code.text), asked)
  | .allUnusable =>
    match reads.tierUntil with
    | some t => (.modelTierExhausted t, [])
    | none =>
      let (account, asked) := p.revokedAccount route req s reads
      (match account with
        | some id => .loginRequired id
        | none => s.failureReply.getD reads.unusableReply, asked)
  | .noCandidates | .noMaterial => (s.failureReply.getD (.degraded e.code.text), [])

inductive GroupDecision where
  | answer (reply : GroupReply) (asked : List (Finset String × Finset String))
  | passOver (res : GroupResolution) (path : ProviderPath)
  | pathBlocked (res : GroupResolution) (path : ProviderPath) (health : Option ProviderPathHealth)
  | forward (res : GroupResolution) (path : ProviderPath)

def GroupDecision.target : GroupDecision → Option GroupResolution
  | .answer .. => none
  | .passOver res _ | .pathBlocked res _ _ | .forward res _ => some res

/-- `serveGroupAttempt` up to the point where it forwards. -/
def GroupProxy.assess (res : GroupResolution) : GroupDecision :=
  match p.localRefusal route req res with
  | some reply => .answer reply []
  | none =>
    let rc := p.attemptRoute route res
    let path := p.providerPathForRoute rc res.egressProxyURL reads.overrideOn
    if path.key ∈ s.failedPaths then .passOver res path
    else
      let permit := (reads.health.permit p.shortHash reads.now path).2
      if !permit.allowed then .pathBlocked res path permit.health
      else if req.loadtest && !p.loadtestUpstreamAllowed rc.baseURL then
        .answer (.refused "AIKEY_LOADTEST_EGRESS_BLOCKED") []
      else .forward res path

def GroupLoop.skip : Finset String :=
  reads.baseSkip ∪ s.failed

end

def GroupProxy.decide : GroupDecision :=
  let reads := req.reads s.round
  match (p.resolve route req reads (s.skip reads)).1 with
  | .error e =>
    let (reply, asked) := p.errorReply route req s reads e
    .answer reply asked
  | .ok res => p.assess route req s reads res

/-- The round was counted and its skip map was lent to the resolver. -/
def GroupProxy.lend : GroupLoop :=
  let reads := req.reads s.round
  { s with
    round := s.round + 1
    skips := s.skips ++ [(s.skip reads, (p.resolve route req reads (s.skip reads)).2)] }

/-- A deferred response, whole, after which another account is tried. -/
def GroupLoop.noteCaptured (res : GroupResolution) (path : ProviderPath)
    (answer : GroupAnswer) (hardRevoked : Bool) : GroupLoop :=
  { s with
    failed := insert res.accountID s.failed
    failedPaths := if answer.failsPath then insert path.key s.failedPaths else s.failedPaths
    lastCaptured := some answer.head
    lastAuthFailedAccount := if hardRevoked then res.accountID else ""
    upstreamAttempts := s.upstreamAttempts + 1 }

/-- The answer to a deferred response that no other account is tried for. -/
def lastAttemptReply (account : String) (head : ResponseHead) (hardRevoked : Bool) : GroupReply :=
  if hardRevoked then .loginRequired account else .flushed head

def GroupProxy.step : GroupLoop ⊕ GroupRun :=
  let l := p.lend route req s
  match p.decide route req s with
  | .answer reply asked => .inr { l.finish [reply] with skips := l.skips ++ asked }
  | .passOver res path =>
    .inl { l with
      failed := insert res.accountID l.failed
      events := l.events ++ [.passedOver res.accountID path.key] }
  | .pathBlocked res path health =>
    .inl { l with
      failed := insert res.accountID l.failed
      failedPaths := insert path.key l.failedPaths
      lastBlockedPath := health
      events := l.events ++ [.pathBlocked res.accountID path.key] }
  | .forward res path =>
    let answer := req.answer s.upstreamAttempts
    let l : GroupLoop :=
      { l with events := l.events ++ [.attempted res.accountID path.key answer] }
    if !answer.captured then .inr (l.finish [.relayed answer.head])
    -- the panic unwinds past everything that would have answered
    else if answer.isAborted then .inr (l.finish [])
    else
      let hardRevoked := res.credentialType == credTypeOAuth && res.oauth.isSome &&
        req.revoked s.upstreamAttempts
      if groupFailoverMaxSwitches ≤ s.upstreamAttempts then
        .inr (l.finish [lastAttemptReply res.accountID answer.head hardRevoked])
      else .inl (l.noteCaptured res path answer hardRevoked)

end

/-! ## Termination -/

variable {s : GroupLoop}

theorem GroupProxy.assess_target {reads : GroupReads} {res res' : GroupResolution}
    (h : (p.assess route req s reads res).target = some res') : res' = res := by
  revert h
  fun_cases GroupProxy.assess p route req s reads res <;> rintro ⟨⟩ <;> rfl

theorem GroupProxy.decide_target {res : GroupResolution}
    (h : (p.decide route req s).target = some res) :
    res.accountID ∈ candidateIDs p.toGroupSources route ∧ res.accountID ∉ s.failed := by
  revert h
  fun_cases GroupProxy.decide p route req s <;> intro h
  · cases h
  next hok =>
    cases p.assess_target route req h
    obtain ⟨hmem, hskip⟩ := resolveGroupCredential_ok p.toGroupSources hok
    exact ⟨hmem, fun hfailed => hskip (Finset.mem_union_right _ hfailed)⟩

theorem GroupProxy.step_failed {s' : GroupLoop} (h : p.step route req s = .inl s') :
    ∃ res, (p.decide route req s).target = some res ∧
      s'.failed = insert res.accountID s.failed := by
  revert h
  fun_cases GroupProxy.step p route req s <;> intro h <;> cases h
  case case2 res _ hdecide | case3 res _ _ hdecide | case7 res _ hdecide _ _ _ _ _ _ =>
    exact ⟨res, by rw [hdecide]; rfl, rfl⟩

def GroupProxy.remaining (s : GroupLoop) : Nat :=
  (candidateIDs p.toGroupSources route \ s.failed).card

theorem GroupProxy.step_shrinks (s s' : GroupLoop) (h : p.step route req s = .inl s') :
    p.remaining route s' < p.remaining route s := by
  obtain ⟨res, htarget, hfailed⟩ := p.step_failed route req h
  obtain ⟨hmem, hnot⟩ := p.decide_target route req htarget
  unfold GroupProxy.remaining
  rw [hfailed]
  exact card_sdiff_insert_lt hmem hnot

def GroupProxy.loop : GroupRun :=
  retry (p.step route req) (p.remaining route) (p.step_shrinks route req) {}

def GroupProxy.handleOauthGroupRoute : GroupRun :=
  if !req.hasKey then ⟨[], [], [.degraded "GROUP_KEY_UNAVAILABLE"]⟩
  else if req.removed then ⟨[], [], [.degraded GroupErrCode.noCandidates.text]⟩
  else if req.blocked then ⟨[], [], [.poolFull]⟩
  else
    match req.body with
    | .error e => ⟨[], [], [.bodyRejected e.code]⟩
    | .ok () => p.loop route req

end

end AikeyProxy.Proxy
