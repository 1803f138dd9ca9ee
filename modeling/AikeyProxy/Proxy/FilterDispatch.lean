import AikeyProxy.Lib.Lru
import AikeyProxy.Proxy.FilterContent
import AikeyProxy.Proxy.MaskRestore

/-!
# The inbound filter

`applyInboundFilter` takes the pieces of a request in turn. The verdict on a piece comes from the
cache or else from the detector, is lowered to the piece's ceiling and carried out: a refusal ends
the request, a masked text is written back into the body. For a team route the events of the
detector are collected for upload.

A content hash stands for the head it was taken of, through a function that is given.
-/

namespace AikeyProxy.Proxy

open Lib AppHook

/-! ## Verdicts -/

inductive RouteClass where
  | personal
  | team
  deriving DecidableEq

/-- `apphook.Response`. The event is a JSON text, empty if there is none. -/
structure FilterResponse where
  action : Action
  mutatedPayload : Text := []
  reason : String := ""
  restorables : List RestorableMask := []
  event : String := ""
  degraded : Bool := false

structure CachedVerdict where
  action : Action
  maskedHead : Text
  reason : String
  restorables : List RestorableMask
  event : String

def FilterResponse.verdict (r : FilterResponse) : CachedVerdict :=
  ⟨r.action, r.mutatedPayload, r.reason, r.restorables, r.event⟩

def CachedVerdict.response (v : CachedVerdict) : FilterResponse :=
  { action := v.action, mutatedPayload := v.maskedHead, reason := v.reason
    restorables := v.restorables, event := v.event }

/-! ## The cache -/

structure CacheEntry where
  expiry : Int
  verdict : CachedVerdict

abbrev LruMaskCache := Lru String CacheEntry

/-- A hit renews the entry, an entry that is over goes. -/
def LruMaskCache.get (c : LruMaskCache) (ttl : Int) (key : String) (now : Int) :
    Option CachedVerdict × LruMaskCache :=
  match c.get? key with
  | none => (none, c)
  | some e =>
    if e.expiry < now then (none, c.remove key)
    else (some e.verdict, c.put key { e with expiry := now + ttl })

/-- `sessionMaskCache`: a cache of verdicts for every scope. -/
structure SessionMaskCache where
  sessions : Lru String LruMaskCache
  window : Nat
  ttl : Int

def newSessionMaskCache (maxSessions window : Nat) (ttl : Int) : SessionMaskCache :=
  ⟨.empty (max maxSessions 1), max window 1, ttl⟩

def SessionMaskCache.get (c : SessionMaskCache) (scope key : String) (now : Int) :
    Option CachedVerdict × SessionMaskCache :=
  match c.sessions.get? scope with
  | none => (none, c)
  | some bucket =>
    let (v, bucket) := bucket.get c.ttl key now
    (v, { c with sessions := c.sessions.put scope bucket })

def SessionMaskCache.put (c : SessionMaskCache) (scope key : String) (v : CachedVerdict)
    (now : Int) : SessionMaskCache :=
  let bucket := (c.sessions.get? scope).getD (.empty c.window)
  { c with sessions := c.sessions.put scope (bucket.put key ⟨now + c.ttl, v⟩) }

/-! ## The request -/

structure InboundRequest where
  body : List Char
  /-- There is nothing to filter: no hook, no body, a probe, or a body that cannot be read. -/
  exempt : Bool := false
  routeClass : RouteClass
  targetModel : String := ""
  orgID : String := ""
  virtualKeyID : String := ""
  seatID : String := ""
  sessionID : String := ""
  traceID : String := ""
  detectorVer : String := ""
  contentVer : String := ""
  /-- The hook can name its rules, `CacheEpoch`. -/
  cacheable : Bool := true
  /-- The clock when the cache is asked and filled for a piece. -/
  now : Nat → Int := fun _ => 0

structure FilterConfig where
  mode : ToolBlockScanMode := .audit
  roles : ScanRoleSet := none
  number : List Char → Option (List Char) := some
  hashHead : Text → String

/-- `cacheScope`, of the members of the parsed body. -/
def cacheScope (req : InboundRequest) (members : Json.Members) : String :=
  if req.sessionID ≠ "" then "s:" ++ req.sessionID
  else
    let userID :=
      match Json.memberAt "metadata" members with
      | some (.obj md) => asString (Json.memberAt "user_id" md)
      | _ => ""
    if userID ≠ "" then "u:" ++ userID
    else if req.virtualKeyID ≠ "" then "vk:" ++ req.virtualKeyID
    else "global"

def cacheKey (cfg : FilterConfig) (req : InboundRequest) (head : Text) : String :=
  req.detectorVer ++ "|" ++ req.contentVer ++ "|" ++ cfg.hashHead head

/-- A team event: what the detector handed back and what the proxy stamps on it. The audit unit's id
is a hash of the scope and the content. -/
structure TeamEvent where
  event : String
  tenantID : String
  virtualKeyID : String
  seatID : String
  sessionID : String
  traceID : String
  unitScope : String
  unitHash : String
  actionTaken : Option ActionCeiling
  wireLabels : List ((Nat × Nat) × Text)

def pipeInputCap : Nat := 16 * 1024

/-- The longest beginning of a text that takes no more than `limit` bytes, and the rest. -/
def cutAt : Nat → Text → Text × Text
  | _, [] => ([], [])
  | limit, c :: s =>
    if c.utf8Size ≤ limit then
      let (head, tail) := cutAt (limit - c.utf8Size) s
      (c :: head, tail)
    else ([], c :: s)

def ContentPiece.head (p : ContentPiece) : Text := (cutAt pipeInputCap p.text.toList).1

def ContentPiece.tail (p : ContentPiece) : Text := (cutAt pipeInputCap p.text.toList).2

/-! ## The loop -/

/-- The variables of the loop, with the verdicts so far. -/
structure FilterLoop where
  tree : Json
  maskedCount : Nat := 0
  events : List TeamEvent := []
  restore : MaskRestore := newMaskRestore
  cache : Option SessionMaskCache
  verdicts : List (ContentPiece × FilterResponse) := []

section

variable (cfg : FilterConfig) (req : InboundRequest) (scope : String)
  (detect : Nat → Text → Option FilterResponse)

def cachedResponse (c : SessionMaskCache) (i : Nat) (head : Text) :
    Option FilterResponse × SessionMaskCache :=
  let (v, c) := c.get scope (cacheKey cfg req head) (req.now i)
  ((v.filter fun v => v.action ≠ .block).map CachedVerdict.response, c)

/-- A verdict is kept unless the scan failed or it is a refusal. -/
def keepResponse (c : SessionMaskCache) (i : Nat) (head : Text) (resp : Option FilterResponse) :
    SessionMaskCache :=
  match resp with
  | some r =>
    if r.degraded = false ∧ r.action ≠ .block then
      c.put scope (cacheKey cfg req head) r.verdict (req.now i)
    else c
  | none => c

def responseFor (cache : Option SessionMaskCache) (i : Nat) (head : Text) :
    Option FilterResponse × Option SessionMaskCache :=
  match cache with
  | none => (detect i head, none)
  | some c =>
    match cachedResponse cfg req scope c i head with
    | (some r, c) => (some r, some c)
    | (none, c) =>
      let resp := detect i head
      (resp, some (keepResponse cfg req scope c i head resp))

def teamEvent (piece : ContentPiece) (r : FilterResponse) (capped : Bool) : List TeamEvent :=
  if req.routeClass = .team ∧ r.event ≠ "" then
    [{ event := r.event, tenantID := req.orgID, virtualKeyID := req.virtualKeyID
       seatID := req.seatID, sessionID := req.sessionID, traceID := req.traceID
       unitScope := scope, unitHash := cfg.hashHead piece.head
       actionTaken := if capped then some piece.ceiling else none
       wireLabels := [] }]
  else []

/-- The text a mask verdict puts in the place of a piece, the labels it used and the table. -/
def maskedText (piece : ContentPiece) (r : FilterResponse) (st : MaskRestore) :
    Text × List ((Nat × Nat) × Text) × MaskRestore :=
  if r.restorables = [] then (r.mutatedPayload ++ piece.tail, [], st)
  else
    let (masked, labels, st) := renumberRestorables piece.head r.mutatedPayload r.restorables st
    (masked ++ piece.tail, labels.entries.map fun e => (e.1, e.2), st)

/-- Carry out a mask verdict. A piece that cannot be written back, or a verdict without a text,
changes nothing. -/
def applyMask (l : FilterLoop) (piece : ContentPiece) (r : FilterResponse)
    (event : List TeamEvent) : FilterLoop :=
  if piece.writable = false ∨ r.mutatedPayload = [] then { l with events := l.events ++ event }
  else
    let (text, labels, st) := maskedText piece r l.restore
    -- the piece was read at its path, so there is something to write over
    { l with
      tree := (Json.setAt piece.path (.str (String.ofList text)) l.tree).getD l.tree
      maskedCount := l.maskedCount + 1
      restore := st
      events := l.events ++
        event.map fun e => if labels = [] then e else { e with wireLabels := labels } }

def blockedMessage (reason : String) : String :=
  if reason = "" then "request blocked by compliance policy" else reason

/-- Apply the verdict on one piece: the loop goes on, or the request is refused with a
message. -/
def applyVerdict (l : FilterLoop) (piece : ContentPiece) (r : FilterResponse) :
    FilterLoop × Option String :=
  let (action, capped) := piece.ceiling.clamp r.action
  let event := teamEvent cfg req scope piece r capped
  match action with
  | .block => ({ l with events := l.events ++ event }, some (blockedMessage r.reason))
  | .mask => (applyMask l piece r event, none)
  -- a warning, an unknown verdict and a scan that failed all let the piece pass
  | .warn | .allow | .unknown _ => ({ l with events := l.events ++ event }, none)

def filterPiece (i : Nat) (piece : ContentPiece) (l : FilterLoop) : FilterLoop × Option String :=
  let (resp, cache) := responseFor cfg req scope detect l.cache i piece.head
  let l := { l with cache := cache }
  match resp with
  | none => (l, none)
  | some r => applyVerdict cfg req scope { l with verdicts := l.verdicts ++ [(piece, r)] } piece r

def filterPieces : Nat → List ContentPiece → FilterLoop → FilterLoop × Option String
  | _, [], l => (l, none)
  | i, piece :: rest, l =>
    match filterPiece cfg req scope detect i piece l with
    | (l, some message) => (l, some message)
    | (l, none) => filterPieces (i + 1) rest l

end

/-! ## The filter -/

/-- The body that goes upstream: the bytes that came in, or the parsed body written again. -/
inductive ForwardedBody where
  | verbatim (body : List Char)
  | marshalled (tree : Json)

inductive FilterOutcome where
  | forwarded (body : ForwardedBody)
  | blocked (message : String)

structure FilterResult where
  outcome : FilterOutcome
  events : List TeamEvent
  /-- The table for the response, if a label was issued. -/
  restore : Option MaskRestore
  verdicts : List (ContentPiece × FilterResponse)

def filterResult (req : InboundRequest) (l : FilterLoop) : Option String → FilterResult
  | some message => ⟨.blocked message, l.events, none, l.verdicts⟩
  | none =>
    ⟨.forwarded (if l.maskedCount = 0 then .verbatim req.body else .marshalled l.tree), l.events,
      if l.restore.keys = [] then none else some l.restore, l.verdicts⟩

def scannedPieces (cfg : FilterConfig) (req : InboundRequest) :
    Option (Json.Members × List ContentPiece) :=
  if req.exempt then none
  else
    match unmarshalObject cfg.number req.body with
    | none => none
    | some members =>
      match extractUserContent cfg.mode cfg.roles members with
      | none => none
      | some pieces => if pieces.isEmpty then none else some (members, pieces)

/-- `applyInboundFilter`, with the cache before and after. A cache that cannot be used is left
alone. -/
def applyInboundFilter (cfg : FilterConfig) (detect : Nat → Text → Option FilterResponse)
    (cache : Option SessionMaskCache) (req : InboundRequest) :
    FilterResult × Option SessionMaskCache :=
  match scannedPieces cfg req with
  | none => (⟨.forwarded (.verbatim req.body), [], none, []⟩, cache)
  | some (members, pieces) =>
    let used := if req.cacheable then cache else none
    let (l, message) := filterPieces cfg req (cacheScope req members) detect 0 pieces
      { tree := .obj members, cache := used }
    (filterResult req l message, if req.cacheable then l.cache else cache)

end AikeyProxy.Proxy
