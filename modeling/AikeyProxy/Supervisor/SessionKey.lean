import AikeyProxy.Lib.KeyLock
import AikeyProxy.Lib.Run
import AikeyProxy.Supervisor.Routes

/-!
# Signing in with a session key

A request exchanges a session key for a token and keeps the result under its operation id; a later
request confirms it, and the token is written back, or cancels it. A result that was not confirmed
in time is erased: by its timer, by a request of its own operation, and by the sweep that every
request runs over all operations. The first two hold the mutex of the operation, the sweep only that
of its own request.

Every read of a field that can be erased, every erasure and every look at the clock is a step.
-/

namespace AikeyProxy.Supervisor

open Lib

def poolSessionTTL : Nat := 15 * 60 * 1000000000

def unixSeconds (t : Nat) : Int := t / 1000000000

/-! ## Requests, tokens and what is kept of them -/

structure SessionKeyRequest where
  credentialID : String
  sessionKey : String
  operationID : String
  confirm : Bool
  cancel : Bool
  identityMismatchConfirmed : Bool

structure PoolLoginContext where
  credentialID : String
  oauthGroupID : String
  accountID : String
  providerCode : String
  protocolType : String
  expectedIdentity : String
  externalID : String
  deriving DecidableEq

def PoolLoginContext.completeFor (c : PoolLoginContext) (credentialID : String) : Bool :=
  c.credentialID = credentialID && c.providerCode ≠ "" && c.oauthGroupID ≠ "" && c.accountID ≠ ""

structure IdentityInfo where
  email : String
  externalID : String
  deriving DecidableEq

structure SessionKeyToken where
  accessToken : String
  refreshToken : String
  expiresIn : Int
  identity : IdentityInfo
  /-- `none` for the zero time -/
  sessionExpiresAt : Option Int
  deriving DecidableEq

structure PoolSessionKeyPending where
  loginCtx : PoolLoginContext
  token : SessionKeyToken
  identityMismatch : Bool
  createdAt : Nat
  expiresAt : Int
  sessionKey : String
  sessionExpiresAt : Int

structure MemberTokenWriteback where
  credentialID : String
  accessToken : String
  refreshToken : String
  expiresAt : Int
  renewalCredential : String
  renewalExpiresAt : Int
  externalID : String
  providerCode : String
  protocolType : String
  oauthGroupID : String
  accountID : String
  identity : String
  identityMismatch : Bool
  deriving DecidableEq

def validPoolOperationID (value : String) : Bool :=
  16 ≤ value.utf8ByteSize && value.utf8ByteSize ≤ 64 &&
    value.toList.all fun c =>
      ('a' ≤ c && c ≤ 'z') || ('A' ≤ c && c ≤ 'Z') || ('0' ≤ c && c ≤ '9') || c = '-' || c = '_'

section Exchange

-- `strings.EqualFold`; nothing here depends on how it folds
variable (equalFold : String → String → Bool)

def sessionKeyIdentityMatches (loginCtx : PoolLoginContext) (identity : IdentityInfo) : Bool :=
  let expectedExternalID := trimSpace loginCtx.externalID.toList
  if expectedExternalID ≠ [] then expectedExternalID = trimSpace identity.externalID.toList
  else
    let expectedEmail := trimSpace loginCtx.expectedIdentity.toList
    if expectedEmail = [] then true
    else
      let actualEmail := trimSpace identity.email.toList
      actualEmail ≠ [] && equalFold (String.ofList expectedEmail) (String.ofList actualEmail)

structure SessionKeyExchange where
  operationID : String
  sessionKey : String
  loginCtx : PoolLoginContext
  token : SessionKeyToken
  exchangedAt : Nat

def SessionKeyExchange.retainsKey (x : SessionKeyExchange) : Bool :=
  equalFold x.loginCtx.protocolType "openai_compatible"

def SessionKeyExchange.pending (x : SessionKeyExchange) : PoolSessionKeyPending where
  loginCtx := x.loginCtx
  token := x.token
  identityMismatch := !sessionKeyIdentityMatches equalFold x.loginCtx x.token.identity
  createdAt := x.exchangedAt
  expiresAt := unixSeconds x.exchangedAt + x.token.expiresIn
  sessionKey := if x.retainsKey equalFold then x.sessionKey else ""
  sessionExpiresAt := if x.retainsKey equalFold then x.token.sessionExpiresAt.getD 0 else 0

end Exchange

/-- The body of a write-back, from the fields that were read one by one and those that never
change. -/
def PoolSessionKeyPending.writeback (q : PoolSessionKeyPending)
    (accessToken refreshToken renewalCredential : String) : MemberTokenWriteback where
  credentialID := q.loginCtx.credentialID
  accessToken := accessToken
  refreshToken := refreshToken
  expiresAt := q.expiresAt
  renewalCredential := renewalCredential
  renewalExpiresAt := q.sessionExpiresAt
  externalID := q.token.identity.externalID
  providerCode := q.loginCtx.providerCode
  protocolType := q.loginCtx.protocolType
  oauthGroupID := q.loginCtx.oauthGroupID
  accountID := q.loginCtx.accountID
  identity := q.token.identity.email
  identityMismatch := q.identityMismatch

/-! ## Replies -/

inductive SessionKeyError where
  | missingCredentialID
  | invalidOperationID
  | sessionExpired
  | unknownOperation
  /-- the login context, the egress proxy or the exchange itself -/
  | exchange (status : Nat) (code : String)
  | identityMismatch
  | noTeamCredential
  | noMasterURL
  | writebackFailed
  deriving DecidableEq

def SessionKeyError.status : SessionKeyError → Nat
  | .missingCredentialID | .invalidOperationID | .sessionExpired | .unknownOperation => 400
  | .exchange status _ => status
  | .identityMismatch => 409
  | .noTeamCredential => 401
  | .noMasterURL => 503
  | .writebackFailed => 502

inductive SessionKeyReply where
  | error (e : SessionKeyError)
  | pending (identity expectedIdentity providerCode : String) (identityMismatch : Bool)
  | canceled
  | ok (identity : String) (identityMismatch synced : Bool)
  | silent
  deriving DecidableEq

/-! ## The handler -/

/-- `exchanges` are the exchanges made, by their result, `latest` the last one of an operation. -/
structure SessionKeyStore where
  now : Nat
  heap : Nat → Option PoolSessionKeyPending
  made : Nat
  pending : Table String Nat
  exchanges : Nat → Option SessionKeyExchange
  latest : Table String Nat

inductive EraseStage where
  | accessToken
  | refreshToken
  | sessionKey
  | delete
  deriving DecidableEq

def PoolSessionKeyPending.erase (q : PoolSessionKeyPending) : EraseStage → PoolSessionKeyPending
  | .accessToken => { q with token.accessToken := "" }
  | .refreshToken => { q with token.refreshToken := "" }
  | .sessionKey => { q with sessionKey := "" }
  | .delete => q

def EraseStage.next : EraseStage → Option EraseStage
  | .accessToken => some .refreshToken
  | .refreshToken => some .sessionKey
  | .sessionKey => some .delete
  | .delete => none

/-- What a thread does while it holds the mutex of its operation. -/
inductive SessionKeyWork where
  | sweepStart
  | sweep (cutoff : Int) (todo : List String)
  | sweepErase (cutoff : Int) (todo : List String) (key : String) (p : Nat) (stage : EraseStage)
  | sweepOp (cutoff : Int) (todo : List String) (key : String)
  | load
  | check (p : Nat)
  | exchange
  | store (p : Nat)
  | schedule (p : Nat)
  | review (p : Nat)
  | bearer (p : Nat)
  | readAccess (p : Nat)
  | readRefresh (p : Nat) (accessToken : String)
  | readKey (p : Nat) (accessToken refreshToken : String)
  | post (p : Nat) (body : MemberTokenWriteback)
  | sync (p : Nat)
  | timerLoad
  | timerCheck (p : Nat)
  | forget (p : Nat) (stage : EraseStage) (reply : SessionKeyReply)
  | unlock (reply : SessionKeyReply)
  deriving DecidableEq

inductive SessionKeyPc where
  | armed
  | acquire
  | lock (o : Nat)
  | inside (o : Nat) (work : SessionKeyWork)
  | unref (o : Nat) (reply : SessionKeyReply)
  | done (reply : SessionKeyReply)

inductive SessionKeyCaller where
  | request (req : SessionKeyRequest)
  | timer (operationID : String) (p : Nat)

structure SessionKeyThread where
  caller : SessionKeyCaller
  pc : SessionKeyPc

def SessionKeyThread.key (t : SessionKeyThread) : String :=
  match t.caller with
  | .request req => req.operationID
  | .timer operationID _ => operationID

def SessionKeyThread.grip (t : SessionKeyThread) : Grip :=
  match t.pc with
  | .armed | .acquire | .done _ => .out
  | .lock o => .waits o
  | .inside o _ => .inside o
  | .unref o _ => .leaves o

/-- A write-back that was sent: the request, the result it read, the last exchange of the operation
at that time, and the body. -/
structure SentWriteback where
  req : SessionKeyRequest
  exchange : Nat
  latest : Option Nat
  body : MemberTokenWriteback

structure SessionKeyWorld where
  ops : KeyLocks String
  store : SessionKeyStore
  threads : List SessionKeyThread
  writebacks : List SentWriteback

def SessionKeyWorld.init : SessionKeyWorld where
  ops := KeyLocks.init
  store :=
    { now := 0, heap := fun _ => none, made := 0, pending := ∅, exchanges := fun _ => none,
      latest := ∅ }
  threads := []
  writebacks := []

/-! ## Steps -/

inductive BearerOutcome where
  | ok
  | noCredential
  | noMasterURL
  deriving DecidableEq

/-- What the environment decides: the order in which a map is iterated, and how calls to other
services end. -/
inductive SessionKeyChoice where
  | go
  | order (keys : List String)
  | exchangeFails (status : Nat) (code : String)
  | exchanged (loginCtx : PoolLoginContext) (token : SessionKeyToken)
  | bearer (outcome : BearerOutcome)
  | posted (ok : Bool)
  | synced (ok : Bool)
  deriving DecidableEq

inductive SessionKeyEffect where
  | none
  | prune (key : String)
  | schedule (operationID : String) (p : Nat)
  | post (w : SentWriteback)

abbrev WorkResult := SessionKeyStore × SessionKeyWork × SessionKeyEffect

/-- One erasure of the result `p` of operation `key`. -/
def SessionKeyStore.eraseStep (s : SessionKeyStore) (key : String) (p : Nat)
    (stage : EraseStage) : SessionKeyStore :=
  match stage with
  | .delete => { s with pending := s.pending.erase key }
  | _ => { s with heap := Function.update s.heap p ((s.heap p).map (·.erase stage)) }

/-- The result of `p`, if it has outlived its time. -/
def PoolSessionKeyPending.expired (q : PoolSessionKeyPending) (now : Nat) : Bool :=
  q.createdAt + poolSessionTTL < now

def SessionKeyStore.sweepStep (s : SessionKeyStore) (cutoff : Int) :
    List String → Option SessionKeyWork
  | [] => some .load
  | key :: todo =>
    match s.pending.lookup key with
    | none => some (.sweep cutoff todo)
    | some p =>
      match s.heap p with
      | none => none
      | some q =>
        if (q.createdAt : Int) < cutoff then some (.sweepErase cutoff todo key p .accessToken)
        else some (.sweep cutoff todo)

section Step

variable (equalFold : String → String → Bool)

/-- The exchange of a request that found no result, up to the result in memory. -/
def SessionKeyStore.exchangeStep (s : SessionKeyStore) (req : SessionKeyRequest)
    (loginCtx : PoolLoginContext) (token : SessionKeyToken) : SessionKeyStore :=
  let x : SessionKeyExchange :=
    { operationID := req.operationID, sessionKey := req.sessionKey, loginCtx, token,
      exchangedAt := s.now }
  { s with
    heap := Function.update s.heap s.made (some (x.pending equalFold))
    exchanges := Function.update s.exchanges s.made (some x)
    latest := s.latest.insert req.operationID s.made
    made := s.made + 1 }

/-- `sessionKey` after the lookup, for a result that is there and not expired. -/
def reviewStep (req : SessionKeyRequest) (p : Nat) (q : PoolSessionKeyPending) : SessionKeyWork :=
  if req.cancel then .forget p .accessToken .canceled
  else if !req.confirm then
    .unlock (.pending q.token.identity.email q.loginCtx.expectedIdentity q.loginCtx.providerCode
      q.identityMismatch)
  else if q.identityMismatch && !req.identityMismatchConfirmed then
    .unlock (.error .identityMismatch)
  else .bearer p

def requestStep (s : SessionKeyStore) (req : SessionKeyRequest) :
    SessionKeyWork → SessionKeyChoice → Option WorkResult
  | .sweepStart, .order keys =>
    if keys.Nodup ∧ keys.toFinset = s.pending.keys.toFinset then
      some (s, .sweep (s.now - poolSessionTTL) keys, .none)
    else none
  | .sweep cutoff todo, .go => (s.sweepStep cutoff todo).map fun w => (s, w, .none)
  | .sweepErase cutoff todo key p stage, .go =>
    let next := match stage.next with
      | some stage => .sweepErase cutoff todo key p stage
      | none => .sweepOp cutoff todo key
    some (s.eraseStep key p stage, next, .none)
  | .sweepOp cutoff todo key, .go => some (s, .sweep cutoff todo, .prune key)
  | .load, .go =>
    match s.pending.lookup req.operationID with
    | some p => some (s, .check p, .none)
    | none =>
      if req.confirm || req.cancel then some (s, .unlock (.error .unknownOperation), .none)
      else some (s, .exchange, .none)
  | .check p, .go =>
    (s.heap p).map fun q =>
      if q.loginCtx.credentialID ≠ req.credentialID || q.expired s.now then
        (s, .forget p .accessToken (.error .sessionExpired), .none)
      else (s, .review p, .none)
  | .exchange, .exchangeFails status code =>
    some (s, .unlock (.error (.exchange status code)), .none)
  | .exchange, .exchanged loginCtx token =>
    if loginCtx.completeFor req.credentialID then
      some (s.exchangeStep equalFold req loginCtx token, .store s.made, .none)
    else none
  | .store p, .go =>
    some ({ s with pending := s.pending.insert req.operationID p }, .schedule p, .none)
  | .schedule p, .go => some (s, .review p, .schedule req.operationID p)
  | .review p, .go => (s.heap p).map fun q => (s, reviewStep req p q, .none)
  | .bearer p, .bearer outcome =>
    match outcome with
    | .noCredential => some (s, .unlock (.error .noTeamCredential), .none)
    | .noMasterURL => some (s, .unlock (.error .noMasterURL), .none)
    | .ok => some (s, .readAccess p, .none)
  | .readAccess p, .go => (s.heap p).map fun q => (s, .readRefresh p q.token.accessToken, .none)
  | .readRefresh p accessToken, .go =>
    (s.heap p).map fun q => (s, .readKey p accessToken q.token.refreshToken, .none)
  | .readKey p accessToken refreshToken, .go =>
    (s.heap p).map fun q =>
      (s, .post p (q.writeback accessToken refreshToken q.sessionKey), .none)
  | .post p body, .posted ok =>
    let next := if ok then .sync p else .unlock (.error .writebackFailed)
    some (s, next, .post ⟨req, p, s.latest.lookup req.operationID, body⟩)
  | .sync p, .synced ok =>
    (s.heap p).map fun q =>
      (s, .forget p .accessToken (.ok q.token.identity.email q.identityMismatch ok), .none)
  | .forget p stage reply, .go =>
    let next := match stage.next with
      | some stage => .forget p stage reply
      | none => .unlock reply
    some (s.eraseStep req.operationID p stage, next, .none)
  | _, _ => none

def timerStep (s : SessionKeyStore) (operationID : String) (mine : Nat) :
    SessionKeyWork → SessionKeyChoice → Option WorkResult
  | .timerLoad, .go =>
    let next := if s.pending.lookup operationID = some mine then .timerCheck mine
      else .unlock .silent
    some (s, next, .none)
  | .timerCheck p, .go =>
    (s.heap p).map fun q =>
      if s.now < q.createdAt + poolSessionTTL then (s, .unlock .silent, .none)
      else (s, .forget p .accessToken .silent, .none)
  | .forget p stage reply, .go =>
    let next := match stage.next with
      | some stage => .forget p stage reply
      | none => .unlock reply
    some (s.eraseStep operationID p stage, next, .none)
  | _, _ => none

def workStep (s : SessionKeyStore) (caller : SessionKeyCaller) (work : SessionKeyWork)
    (choice : SessionKeyChoice) : Option WorkResult :=
  match caller with
  | .request req => requestStep equalFold s req work choice
  | .timer operationID p => timerStep s operationID p work choice

def SessionKeyCaller.begins : SessionKeyCaller → SessionKeyWork
  | .request _ => .sweepStart
  | .timer _ _ => .timerLoad

def SessionKeyStore.due (s : SessionKeyStore) : SessionKeyCaller → Bool
  | .request _ => false
  | .timer _ p =>
    match s.heap p with
    | some q => q.createdAt + poolSessionTTL ≤ s.now
    | none => false

def SessionKeyWorld.setPc (w : SessionKeyWorld) (i : Nat) (t : SessionKeyThread)
    (pc : SessionKeyPc) : SessionKeyWorld :=
  { w with threads := w.threads.set i { t with pc } }

def SessionKeyWorld.apply (w : SessionKeyWorld) : SessionKeyEffect → SessionKeyWorld
  | .none => w
  | .prune key => { w with ops := w.ops.prune key }
  | .schedule operationID p =>
    { w with threads := w.threads ++ [⟨.timer operationID p, .armed⟩] }
  | .post sent => { w with writebacks := sent :: w.writebacks }

def threadStep (w : SessionKeyWorld) (i : Nat) (t : SessionKeyThread)
    (choice : SessionKeyChoice) : Option SessionKeyWorld :=
  match t.pc with
  | .armed => if w.store.due t.caller then some (w.setPc i t .acquire) else none
  | .acquire =>
    let (ops, o) := w.ops.acquire t.key
    some ({ w with ops }.setPc i t (.lock o))
  | .lock o =>
    (w.ops.lock o).map fun ops => { w with ops }.setPc i t (.inside o t.caller.begins)
  | .inside o (.unlock reply) =>
    some ({ w with ops := w.ops.unlock o }.setPc i t (.unref o reply))
  | .inside o work =>
    (workStep equalFold w.store t.caller work choice).map fun (store, work, effect) =>
      ({ w with store }.setPc i t (.inside o work)).apply effect
  | .unref o reply =>
    let idle := (w.store.pending.lookup t.key).isNone
    some ({ w with ops := w.ops.unref t.key o idle }.setPc i t (.done reply))
  | .done _ => none

inductive SessionKeyAct where
  | request (req : SessionKeyRequest)
  | pass (duration : Nat)
  | thread (i : Nat) (choice : SessionKeyChoice)

def SessionKeyRequest.start (req : SessionKeyRequest) : SessionKeyPc :=
  if req.credentialID = "" then .done (.error .missingCredentialID)
  else if !validPoolOperationID req.operationID then .done (.error .invalidOperationID)
  else .acquire

def sessionKeyStep (w : SessionKeyWorld) : SessionKeyAct → Option SessionKeyWorld
  | .request req => some { w with threads := w.threads ++ [⟨.request req, req.start⟩] }
  | .pass duration => some { w with store.now := w.store.now + duration }
  | .thread i choice =>
    match w.threads[i]? with
    | none => none
    | some t => threadStep equalFold w i t choice

end Step

end AikeyProxy.Supervisor
