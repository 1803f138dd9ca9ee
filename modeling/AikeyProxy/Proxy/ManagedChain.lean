import AikeyProxy.Proxy.CandidateChain

/-!
# Serving a request down its chain

`serveManagedChain` walks the candidates of a chain until one serves the client. Two shared stores
decide the order: the activity of the chain keeps a conversation on the fallback that is serving it,
and the cooldown of the bindings moves a failed upstream to the back. A response worth trying
elsewhere is deferred, any other relayed. Times are nanoseconds; the policy's values are
milliseconds.
-/

namespace AikeyProxy.Proxy

open Lib Supervisor

def millisecond : Int := 1000000

def hopKey (r : RouteBinding) : String :=
  if r.bindingID ≠ "" then r.bindingID
  else if r.credentialID = "" ∧ r.virtualKeyID = "" then ""
  else r.virtualKeyID ++ "|" ++ r.credentialID

/-! ## Responses -/

structure ResponseHead where
  status : Nat
  errorSource : String := ""
  retryAfter : String := ""
  /-- Whether there is an `x-codex-` header. -/
  codexHeaders : Bool := false
  exhausted : Bool := false
  /-- The time until which the headers ask to wait, from `cooldownDecisionWithTemporaryFallback`. -/
  waitUntil : Option Int := none

def hasRateLimitSignal (h : ResponseHead) : Bool :=
  h.retryAfter != "" || h.codexHeaders || h.exhausted

def errCodeNodeEgressEngine : String := "NODE_EGRESS_ENGINE_UNAVAILABLE"

def failoverEligibleResponse (h : ResponseHead) : Bool :=
  if h.errorSource = errCodeNodeEgressEngine then false
  else if h.status = 401 then true
  else if h.status = 429 then hasRateLimitSignal h
  else decide (500 ≤ h.status)

def chainSkipResponse (h : ResponseHead) : Bool :=
  h.status == 400 && h.errorSource == "MODEL_MAPPING_NOT_FOUND"

def chainAttemptEligible (h : ResponseHead) : Bool :=
  failoverEligibleResponse h || chainSkipResponse h

/-- The hop's upstream answered, it could not be reached, or the request did not get that far. -/
inductive HopAnswer where
  | upstream (head : ResponseHead)
  /-- The upstream answered, and copying its body failed on the way: the reverse proxy then
  aborts the handler. -/
  | aborted (head : ResponseHead)
  | unreachable
  | accountEgress
  /-- An intranet address was dialed through the node's egress. -/
  | privateEgress
  | nodeEgress
  | canceled
  /-- The seat's quota is used up; the header says when it resets, if that is known, and asks to
  wait until then. -/
  | overQuota (code retryAfter : String) (waitUntil : Option Int)
  | filterBlocked
  | modelNotMapped

/-- The head of the response that was written. Every response of the proxy's own names its
error in the source header. -/
def HopAnswer.head : HopAnswer → ResponseHead
  | .upstream head | .aborted head => head
  | .unreachable | .canceled => { status := 502, errorSource := "UPSTREAM_ERROR" }
  | .accountEgress => { status := 503, errorSource := "ACCOUNT_EGRESS_PROXY_UNAVAILABLE" }
  | .privateEgress => { status := 502, errorSource := "UPSTREAM_PRIVATE_VIA_EGRESS" }
  | .nodeEgress => { status := 503, errorSource := errCodeNodeEgressEngine }
  | .overQuota code retryAfter waitUntil => { status := 429, errorSource := code, retryAfter, waitUntil }
  | .filterBlocked => { status := 403, errorSource := "COMPLIANCE_BLOCKED" }
  | .modelNotMapped => { status := 400, errorSource := "MODEL_MAPPING_NOT_FOUND" }

def HopAnswer.fromUpstream : HopAnswer → Bool
  | .upstream _ | .aborted _ | .unreachable | .accountEgress | .privateEgress => true
  | .nodeEgress | .canceled | .overQuota .. | .filterBlocked | .modelNotMapped => false

def HopAnswer.isAborted : HopAnswer → Bool
  | .aborted _ => true
  | _ => false

/-! ## The activity of a chain -/

structure FallbackPolicy where
  idleGap : Int
  maxStickiness : Int
  chainTotalBudget : Int
  bindingCooldown : Int

structure ChainActivityKey where
  virtualKeyID : String
  protocolType : String
  deriving DecidableEq

structure ChainActivityEntry where
  lastRequestAt : Int
  lastProbeAt : Int
  currentBindingID : String

abbrev ChainActivity := Table ChainActivityKey ChainActivityEntry

structure StickDecision where
  stickTo : String
  gap : Int
  firstEver : Bool

/-- A conversation is in progress on the hop the entry remembers. -/
def ChainActivityEntry.sticks (entry : ChainActivityEntry) (idleGap maxStickiness now : Int) : Bool :=
  entry.currentBindingID != "" && decide (now - entry.lastRequestAt < idleGap) &&
    !(decide (0 < maxStickiness) && decide (maxStickiness ≤ now - entry.lastProbeAt))

def ChainActivity.observe (s : ChainActivity) (key : ChainActivityKey)
    (idleGap maxStickiness now : Int) : ChainActivity × StickDecision :=
  match s.lookup key with
  | none => (s.insert key ⟨now, now, ""⟩, ⟨"", 0, true⟩)
  | some entry =>
    let gap := now - entry.lastRequestAt
    if entry.sticks idleGap maxStickiness now then
      (s.insert key { entry with lastRequestAt := now }, ⟨entry.currentBindingID, gap, false⟩)
    else
      -- Nothing to stick to, or the primary is due for a try.
      (s.insert key { entry with lastRequestAt := now, lastProbeAt := now }, ⟨"", gap, false⟩)

def ChainActivity.noteServed (s : ChainActivity) (key : ChainActivityKey) (bindingID : String)
    (isPrimary : Bool) (now : Int) : ChainActivity :=
  let entry := (s.lookup key).getD ⟨0, 0, ""⟩
  s.insert key
    { entry with
      lastRequestAt := now
      currentBindingID := if isPrimary then "" else bindingID }

/-! ## The cooldown of the bindings -/

abbrev BindingCooldown := Table String Int

/-- `note`: whether the failure cools the binding, and until when. -/
def cooldownUntil (bindingID : String) (h : ResponseHead) (cfg now : Int) : Option Int :=
  if bindingID = "" then none
  else if !failoverEligibleResponse h then none
  else if cfg = 0 then none
  else
    let maxCool := cfg * millisecond
    match h.waitUntil with
    | some t => some (now + if 0 < t - now ∧ t - now < maxCool then t - now else maxCool)
    | none => some (now + maxCool)

def BindingCooldown.note (s : BindingCooldown) (bindingID : String) (h : ResponseHead)
    (cfg now : Int) : BindingCooldown :=
  match cooldownUntil bindingID h cfg now with
  | none => s
  | some t => s.insert bindingID t

def BindingCooldown.noteSuccess (s : BindingCooldown) (bindingID : String) : BindingCooldown :=
  if bindingID = "" then s else s.erase bindingID

def BindingCooldown.cooling (s : BindingCooldown) (bindingID : String) (now : Int) : Bool :=
  bindingID != "" && (s.lookup bindingID).any fun t => decide (now < t)

/-- `int(until.Sub(now).Seconds())`, in a store that counts nanoseconds. -/
def remainingSeconds (deadline now : Int) : Int := (deadline - now).tdiv (1000 * millisecond)

/-- `snapshot`: what it returns and what it leaves. -/
def BindingCooldown.snapshot (s : BindingCooldown) (now : Int) :
    Table String Int × BindingCooldown :=
  (collect (fun _ deadline =>
      if remainingSeconds deadline now ≤ 0 then none else some (remainingSeconds deadline now)) s,
    collect (fun _ deadline =>
      if remainingSeconds deadline now ≤ 0 then none else some deadline) s)

inductive HealthCall where
  | note (bindingID : String) (head : ResponseHead) (cfg now : Int)
  | noteSuccess (bindingID : String)
  | snapshot (now : Int)

def BindingCooldown.call (s : BindingCooldown) : HealthCall → BindingCooldown
  | .note bindingID head cfg now => s.note bindingID head cfg now
  | .noteSuccess bindingID => s.noteSuccess bindingID
  | .snapshot now => (s.snapshot now).2

def afterCalls (calls : List HealthCall) : BindingCooldown :=
  calls.foldl BindingCooldown.call ∅

/-! ## The try order -/

def hopBand (stickTo : String) (cooldown : BindingCooldown) (now : Int) (c : RouteBinding) : Nat :=
  if stickTo ≠ "" ∧ hopKey c = stickTo then 0
  else if cooldown.cooling (hopKey c) now then 2
  else 1

/-- `orderCandidates`. Ties are broken by the place in the chain, as a stable sort does. -/
def orderCandidates (candidates : List RouteBinding) (stickTo : String)
    (cooldown : BindingCooldown) (now : Int) : List RouteBinding :=
  sortBy (hopBand stickTo cooldown now) candidates

/-! ## The loop -/

structure HopEnv where
  now : Int
  credential : Bool
  adapter : Bool
  baseURL : String
  answer : HopAnswer
  doneAt : Int

def HopEnv.usable (e : HopEnv) : Bool := e.credential && e.adapter && e.baseURL != ""

def HopEnv.captured (e : HopEnv) : Bool := chainAttemptEligible e.answer.head

/-- What the client is sent. The second part of a relayed response is the fallback header:
the provider, the reason and the number of the attempt. -/
inductive ChainReply where
  | bodyUnreadable
  | relayed (head : ResponseHead) (fallback : Option (String × String × Nat))
  | budgetExceeded (attempts : Nat)
  | spent (code : ExhaustedCode) (status attempts : Nat) (lastProvider : String)

/-- An attempt: the place in the try order, the hop and what came of it. -/
structure ChainAttempt where
  place : Nat
  hop : RouteBinding
  answer : HopAnswer

/-- The variables of the loop, with the attempts made and the hops that were cooled. -/
structure ChainLoop where
  cooldown : BindingCooldown
  lastCaptured : Option ResponseHead
  attempts : Nat
  lastReason : String
  lastProvider : String
  tried : List ChainAttempt
  cooled : List String

def ChainLoop.start (cooldown : BindingCooldown) : ChainLoop := ⟨cooldown, none, 0, "", "", [], []⟩

/-- How the loop ends. A handler aborted during a deferred response leaves without a word. -/
inductive ChainEnd where
  | served (place : Nat) (hop : RouteBinding) (answer : HopAnswer)
      (fallback : Option (String × String × Nat))
  | aborted
  | budget
  | spent

def httpStatusReason (status : Nat) : String :=
  if status = 401 then "UPSTREAM_UNAUTHORIZED"
  else if status = 429 then "UPSTREAM_RATE_LIMITED"
  else if 500 ≤ status then "UPSTREAM_SERVER_ERROR"
  else "UPSTREAM_ERROR"

/-- A deferred response: a hop that does not have the model is passed over, any other one is
cooled and remembered as the last failure. -/
def ChainLoop.note (l : ChainLoop) (policy : FallbackPolicy) (hop : RouteBinding) (e : HopEnv) :
    ChainLoop :=
  let head := e.answer.head
  if chainSkipResponse head then { l with lastProvider := hop.providerCode }
  else
    { l with
      cooldown := l.cooldown.note (hopKey hop) head policy.bindingCooldown e.doneAt
      cooled := l.cooled ++
        if (cooldownUntil (hopKey hop) head policy.bindingCooldown e.doneAt).isSome then
          [hopKey hop] else []
      lastCaptured := some head
      lastReason := if head.errorSource = "" then httpStatusReason head.status else head.errorSource
      lastProvider := hop.providerCode }

def overBudget (deadline : Option Int) (i : Nat) (e : HopEnv) : Bool :=
  decide (0 < i) && deadline.any fun d => decide (d < e.now)

/-- The loop over the try order from place `i` on. -/
def chainLoop (policy : FallbackPolicy) (deadline : Option Int) (env : Nat → HopEnv) :
    Nat → List RouteBinding → ChainLoop → ChainLoop × ChainEnd
  | _, [], l => (l, .spent)
  | i, hop :: rest, l =>
    if overBudget deadline i (env i) then (l, .budget)
    else if !(env i).usable then chainLoop policy deadline env (i + 1) rest l
    else
      let l' := { l with
        attempts := l.attempts + 1
        tried := l.tried ++ [⟨i, hop, (env i).answer⟩] }
      if (env i).captured then
        if (env i).answer.isAborted then (l', .aborted)
        else chainLoop policy deadline env (i + 1) rest (l'.note policy hop (env i))
      else
        (l', .served i hop (env i).answer
          (if i = 0 then none else some (hop.providerCode, l.lastReason, i + 1)))

/-! ## One request -/

structure ChainState where
  activity : ChainActivity
  cooldown : BindingCooldown

structure ChainRequest where
  bodyOk : Bool
  startTime : Int
  now : Int
  env : Nat → HopEnv

structure ChainTrace where
  /-- Empty if the request ended before its chain was ordered. -/
  order : List RouteBinding
  stick : StickDecision
  loop : ChainLoop
  ending : Option ChainEnd
  replies : List ChainReply

/-- The hop that served the client, to the end, and its place in the try order. -/
def ChainTrace.served (t : ChainTrace) : Option (Nat × RouteBinding) :=
  match t.ending with
  | some (.served i hop answer _) => if answer.isAborted then none else some (i, hop)
  | _ => none

def activityKey (primary : RouteBinding) : ChainActivityKey :=
  ⟨primary.virtualKeyID, primary.protocolType⟩

def chainDeadline (policy : FallbackPolicy) (startTime : Int) : Option Int :=
  if 0 < policy.chainTotalBudget then some (startTime + policy.chainTotalBudget * millisecond)
  else none

def chainReplies (chain : CandidateChain) (l : ChainLoop) : ChainEnd → List ChainReply
  | .served _ _ answer fallback => [.relayed answer.head fallback]
  | .aborted => []
  | .budget => [.budgetExceeded l.attempts]
  | .spent =>
    [.spent chain.exhaustedCode ((l.lastCaptured.map ResponseHead.status).getD 502) l.attempts
      l.lastProvider]

/-- What the stores learn from a hop that served. An aborted relay unwinds past this. -/
def ChainState.learn (s : ChainState) (primary : RouteBinding) (env : Nat → HopEnv) :
    ChainEnd → ChainState
  | .served i hop answer _ =>
    if answer.isAborted then s
    else
      { activity := s.activity.noteServed (activityKey primary) (hopKey hop)
          (hopKey hop == hopKey primary || i == 0) (env i).doneAt
        cooldown := s.cooldown.noteSuccess (hopKey hop) }
  | .aborted | .budget | .spent => s

/-- `serveManagedChain`. The first candidate is the primary; a chain always has one. -/
def serveManagedChain (policy : FallbackPolicy) (chain : CandidateChain) (s : ChainState)
    (req : ChainRequest) : ChainState × ChainTrace :=
  match chain.candidates with
  | [] => (s, ⟨[], ⟨"", 0, false⟩, .start s.cooldown, none, []⟩)
  | primary :: _ =>
    if !req.bodyOk then (s, ⟨[], ⟨"", 0, false⟩, .start s.cooldown, none, [.bodyUnreadable]⟩)
    else
      let (activity, stick) := s.activity.observe (activityKey primary)
        (policy.idleGap * millisecond) (policy.maxStickiness * millisecond) req.now
      let order := orderCandidates chain.candidates stick.stickTo s.cooldown req.now
      let (l, ending) := chainLoop policy (chainDeadline policy req.startTime) req.env 0 order
        (.start s.cooldown)
      (ChainState.learn ⟨activity, l.cooldown⟩ primary req.env ending,
        ⟨order, stick, l, some ending, chainReplies chain l ending⟩)

/-- The requests of a chain, one after another: for each of them the state it found and what it
did. -/
def serveAll (policy : FallbackPolicy) (chain : CandidateChain) (s : ChainState) :
    List ChainRequest → List (ChainState × ChainRequest × ChainTrace)
  | [] => []
  | req :: rest =>
    let (s', trace) := serveManagedChain policy chain s req
    (s, req, trace) :: serveAll policy chain s' rest

end AikeyProxy.Proxy
