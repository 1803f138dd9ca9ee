import Mathlib.Data.List.Infix
import Mathlib.Data.Prod.Lex
import Mathlib.Data.String.Basic
import AikeyProxy.Lib.Deadlines
import AikeyProxy.Lib.StableSort

/-!
# Cooldowns of pool accounts

The accounts that requests avoid, with the time until which they do. Marks and server errors put a
deadline off; the reads tell which accounts are cooling, and drop lapsed entries. Every call is one
critical section at one reading of the clock, apart from the skip set for a model, which is two.
Times are nanoseconds since the epoch of Unix; a Go map filled by a loop is a table, a nil map an
empty one.
-/

namespace AikeyProxy.Proxy

open Lib

def nanosPerSecond : Int := 1000000000

def unix (t : Int) : Int := t / nanosPerSecond

/-- The zero `Time`, the first of January of the year 1. -/
def zeroTime : Int := -62135596800 * nanosPerSecond

def serverErrStreakThreshold : Nat := 3

def serverErrCooldown : Int := 60 * nanosPerSecond

def poolRouteUpstreamUnavailable : String := "upstream_unavailable"

/-- Why an account is skipped, and until when (unix seconds). -/
structure PoolAccountRouteState where
  status : String
  retryAt : Int
  errorCode : String
deriving DecidableEq

structure WindowStatusSample where
  credentialID : String
  windowStatus : String
  windowResetAt : Int
  window7dStatus : String
  window7dResetAt : Int
deriving DecidableEq

structure PoolCooldownStore where
  persistRevision : Nat
  m : Table String Int
  routeMeta : Table String PoolAccountRouteState
  windowStatuses : Table String WindowStatusSample
  serverErrStreak : Table String Nat
  /-- The accounts that are avoided for one tier of models, under `tierCooldownKey`. -/
  tierM : Table String Int
  lapsed : Table String Unit
  authFailedTokens : Table String String

def PoolCooldownStore.empty : PoolCooldownStore := ⟨0, ∅, ∅, ∅, ∅, ∅, ∅, ∅⟩

def tierCooldownKey (accountID tierKey : String) : String := accountID ++ "|" ++ tierKey

def authFailureRouteKey (oauthGroupID seatID accountID : String) : String :=
  oauthGroupID ++ "|" ++ seatID ++ "|" ++ accountID

namespace PoolCooldownStore

def persistLocked (s : PoolCooldownStore) : PoolCooldownStore :=
  { s with persistRevision := s.persistRevision + 1 }

/-- A call that schedules a write only if it has changed something. -/
def persistIf (changed : Bool) (s : PoolCooldownStore) : PoolCooldownStore :=
  if changed then s.persistLocked else s

end PoolCooldownStore

/-! ## Windows -/

def activeWindowStatusSample (sample : WindowStatusSample) (now : Int) : WindowStatusSample :=
  let sample :=
    if sample.windowResetAt ≤ unix now then
      { sample with windowStatus := "", windowResetAt := 0 }
    else sample
  if sample.window7dResetAt ≤ unix now then
    { sample with window7dStatus := "", window7dResetAt := 0 }
  else sample

def WindowStatusSample.speaks (sample : WindowStatusSample) : Bool :=
  sample.windowStatus != "" || sample.window7dStatus != ""

def mergeWindowStatusSample (current incoming : WindowStatusSample) : WindowStatusSample :=
  let current :=
    if current.credentialID = "" ∨ current.credentialID ≠ incoming.credentialID then
      ⟨incoming.credentialID, "", 0, "", 0⟩
    else current
  let current :=
    if incoming.windowStatus ≠ "" ∧ current.windowResetAt ≤ incoming.windowResetAt then
      { current with
        windowStatus := incoming.windowStatus, windowResetAt := incoming.windowResetAt }
    else current
  if incoming.window7dStatus ≠ "" ∧ current.window7dResetAt ≤ incoming.window7dResetAt then
    { current with
      window7dStatus := incoming.window7dStatus, window7dResetAt := incoming.window7dResetAt }
  else current

namespace PoolCooldownStore

/-! ## Marks -/

variable (s : PoolCooldownStore)

/-- The part of `markWithStateAndWindows` that records the cause. -/
def noteCause (accountID : String) (state : PoolAccountRouteState) :
    Table String PoolAccountRouteState :=
  if state.status ≠ "" ∧ s.routeMeta.lookup accountID ≠ some state then
    s.routeMeta.insert accountID state
  else s.routeMeta

def noteWindows (now : Int) (accountID : String)
    (windows : WindowStatusSample) : Option WindowStatusSample :=
  let active := activeWindowStatusSample windows now
  if windows.credentialID ≠ "" ∧ active.speaks then
    let merged := mergeWindowStatusSample
      ((s.windowStatuses.lookup accountID).getD ⟨"", "", 0, "", 0⟩) active
    if s.windowStatuses.lookup accountID ≠ some merged then some merged else none
  else none

/-- `markWithStateAndWindows`; `mark` and `markWithState` are calls with empty values. -/
def markWithStateAndWindows (now : Int) (accountID : String)
    (avoidUntil : Int) (state : PoolAccountRouteState) (windows : WindowStatusSample) : PoolCooldownStore :=
  if accountID = "" then s
  else if ¬ now < avoidUntil then s
  else
    let later := accepts s.m accountID avoidUntil
    let metaChanged :=
      decide (state.status ≠ "" ∧ s.routeMeta.lookup accountID ≠ some state)
    let merged := s.noteWindows now accountID windows
    persistIf (later || metaChanged || merged.isSome) { s with
      m := putOff s.m accountID avoidUntil
      routeMeta := s.noteCause accountID state
      windowStatuses :=
        match merged with
        | some sample => s.windowStatuses.insert accountID sample
        | none => s.windowStatuses }

def noteServerErrorWithState (now : Int) (accountID : String)
    (state : PoolAccountRouteState) : Option Int × PoolCooldownStore :=
  if accountID = "" then (none, s)
  else
    let streak := (s.serverErrStreak.lookup accountID).getD 0 + 1
    if streak < serverErrStreakThreshold then
      (none, { s with serverErrStreak := s.serverErrStreak.insert accountID streak })
    else
      let avoidUntil := now + serverErrCooldown
      let later := accepts s.m accountID avoidUntil
      let state := { state with
        status := if state.status = "" then poolRouteUpstreamUnavailable else state.status
        retryAt := unix avoidUntil }
      (some avoidUntil, persistIf later { s with
        serverErrStreak := s.serverErrStreak.erase accountID
        m := putOff s.m accountID avoidUntil
        routeMeta := if later then s.routeMeta.insert accountID state else s.routeMeta })

def noteSuccess (accountID : String) : PoolCooldownStore :=
  if accountID = "" then s
  else { s with serverErrStreak := s.serverErrStreak.erase accountID }

def markTier (accountID tierKey : String) (avoidUntil : Int) : PoolCooldownStore :=
  if accountID = "" ∨ tierKey = "" then s
  else
    let key := tierCooldownKey accountID tierKey
    persistIf (accepts s.tierM key avoidUntil) { s with tierM := putOff s.tierM key avoidUntil }

def markAuthFailedToken (oauthGroupID seatID accountID fingerprint : String) : PoolCooldownStore :=
  if oauthGroupID = "" ∨ seatID = "" ∨ accountID = "" ∨ fingerprint = "" then s
  else
    let routeKey := authFailureRouteKey oauthGroupID seatID accountID
    persistIf ((s.authFailedTokens.lookup routeKey).getD "" != fingerprint)
      { s with authFailedTokens := s.authFailedTokens.insert routeKey fingerprint }

/-! ## Reads -/

/-- The part that `skipSet` and `snapshot` share: lapsed accounts are dropped, and noted. -/
def pruneAccounts (now : Int) : PoolCooldownStore :=
  let gone := Lib.lapsed now s.m
  { s with
    m := dropKeys gone s.m
    routeMeta := dropKeys gone s.routeMeta
    windowStatuses := dropKeys gone s.windowStatuses
    lapsed :=
      collect (fun _ avoidUntil => if now < avoidUntil then none else some ()) s.m ∪ s.lapsed }

def skipSet (now : Int) : Table String Bool × PoolCooldownStore :=
  (collect (fun _ avoidUntil => if now < avoidUntil then some true else none) s.m,
    s.pruneAccounts now)

/-- `snapshot`: the whole seconds that are left. -/
def snapshot (now : Int) : Table String Int × PoolCooldownStore :=
  (collect (fun _ avoidUntil =>
      if now < avoidUntil then some ((avoidUntil - now) / nanosPerSecond) else none) s.m,
    s.pruneAccounts now)

/-- Goes by the causes that are shown, so it drops nothing of an account without one. -/
def routeStateSnapshot (now : Int) : Table String PoolAccountRouteState × PoolCooldownStore :=
  let gone id := (s.routeMeta.lookup id).isSome && (ahead now s.m id).isNone
  (dropKeys gone s.routeMeta,
    { s with
      m := dropKeys gone s.m
      routeMeta := dropKeys gone s.routeMeta
      windowStatuses := dropKeys gone s.windowStatuses })

/-- The loop of `earliestRetryAdvice` over the accounts of the route. -/
def earliestAhead (s : PoolCooldownStore) (now : Int) (skip : Table String Bool) :
    List String → Int × String → Int × String
  | [], best => best
  | id :: ids, best =>
    if (skip.lookup id).getD false then
      match ahead now s.m id with
      | none => earliestAhead s now skip ids best
      | some avoidUntil =>
        if best.1 = zeroTime ∨ avoidUntil < best.1 then
          earliestAhead s now skip ids (avoidUntil, id)
        else earliestAhead s now skip ids best
    else earliestAhead s now skip ids best

structure RetryAdvice where
  seconds : Int
  retryAt : Int
  reason : String
deriving DecidableEq

def earliestRetryAdvice (now : Int) (routeIDs : List String)
    (skip : Table String Bool) : Option RetryAdvice :=
  let best := s.earliestAhead now skip routeIDs (zeroTime, "")
  if best.1 = zeroTime then none
  else
    let seconds := (best.1 - now + nanosPerSecond - 1) / nanosPerSecond
    some {
      seconds := if seconds < 1 then 1 else seconds
      retryAt := unix best.1
      reason := ((s.routeMeta.lookup best.2).map PoolAccountRouteState.status).getD "" }

def windowStatusSnapshot (now : Int) : List WindowStatusSample × PoolCooldownStore :=
  let active := collect (fun _ sample =>
    let active := activeWindowStatusSample sample now
    if active.speaks then some active else none) s.windowStatuses
  let changed := s.windowStatuses.entries.any fun e => active.lookup e.1 != some e.2
  (sortBy WindowStatusSample.credentialID (active.entries.map Sigma.snd),
    persistIf changed { s with windowStatuses := active })

end PoolCooldownStore

/-! ## Tiers of models -/

/-- A family of models with a window of its own. -/
structure ModelTier where
  key : String
  family : String
deriving DecidableEq

def modelTiers : List ModelTier := [⟨"fable", "fable"⟩]

/-- Small letters; no letter of a family comes from a character outside ASCII. -/
def ModelTier.matches (tier : ModelTier) (model : String) : Bool :=
  tier.family.toList <:+: model.toList.map Char.toLower

def tierForModel (model : String) : Option ModelTier :=
  if model = "" then none else modelTiers.find? fun tier => tier.matches model

/-- `strings.TrimSuffix`, of a text that has the suffix. -/
def trimSuffix? (key suffix : String) : Option String :=
  if suffix.toList <:+ key.toList then
    some (String.ofList (key.toList.take (key.toList.length - suffix.toList.length)))
  else none

def beforeBar (key : String) : String := String.ofList (key.toList.takeWhile (· != '|'))

namespace PoolCooldownStore

def pruneTiers (s : PoolCooldownStore) (now : Int) : PoolCooldownStore :=
  let gone := Lib.lapsed now s.tierM
  { s with
    tierM := dropKeys gone s.tierM
    lapsed := assignAll s.lapsed
      ((s.tierM.entries.filter fun e => gone e.1).map fun e => (beforeBar e.1, ())) }

/-- The second critical section of `skipSetFor`. -/
def addTierSkips (s : PoolCooldownStore) (now : Int) (tierKey : String) (out : Table String Bool) :
    Table String Bool × PoolCooldownStore :=
  (assignAll out (s.tierM.entries.filterMap fun e =>
      if now < e.2 then (trimSuffix? e.1 ("|" ++ tierKey)).map fun id => (id, true) else none),
    s.pruneTiers now)

/-- `skipSetFor`, with its two readings of the clock. -/
def skipSetFor (s : PoolCooldownStore) (now later : Int) (model : String) :
    Table String Bool × PoolCooldownStore :=
  let (out, s) := s.skipSet now
  match tierForModel model with
  | none => (out, s)
  | some tier => s.addTierSkips later tier.key out

/-- The latest time until which an account is avoided for a tier. -/
def tierCooldownUntil (s : PoolCooldownStore) (now : Int) (tierKey : String) :
    Option Int × PoolCooldownStore :=
  let latest := s.tierM.entries.foldl (fun latest e =>
    if now < e.2 ∧ (trimSuffix? e.1 ("|" ++ tierKey)).isSome ∧ latest < e.2 then e.2 else latest)
    zeroTime
  (if latest = zeroTime then none else some latest, s.pruneTiers now)

def consumeLapsed (s : PoolCooldownStore) (accountID : String) : Bool × PoolCooldownStore :=
  if (s.lapsed.lookup accountID).isSome then
    (true, { s with lapsed := s.lapsed.erase accountID })
  else (false, s)

end PoolCooldownStore

/-! ## Rejected tokens -/

structure PoolAuthFailureState where
  oauthGroupID : String
  seatID : String
  accountID : String
deriving DecidableEq

/-- `strings.SplitN(key, "|", 3)`, when there are three parts. -/
def splitBars (key : List Char) : Option (List Char × List Char × List Char) :=
  match key.dropWhile (· != '|') with
  | [] => none
  | _ :: rest =>
    match rest.dropWhile (· != '|') with
    | [] => none
    | _ :: last => some (key.takeWhile (· != '|'), rest.takeWhile (· != '|'), last)

def parseAuthFailureRouteKey (key : String) : Option PoolAuthFailureState :=
  match splitBars key.toList with
  | none => none
  | some (group, seat, account) =>
    if group = [] ∨ seat = [] ∨ account = [] then none
    else some ⟨String.ofList group, String.ofList seat, String.ofList account⟩

namespace PoolCooldownStore

/-- What the loop of `authFailureSkipSet` finds about one rejected token: nothing, or its account
and whether the account still has this token. -/
def tokenVerdict (oauthGroupID seatID : String) (fingerprints : String → Option String)
    (routeKey rejectedFingerprint : String) : Option (String × Bool) :=
  if (oauthGroupID ++ "|" ++ seatID ++ "|").toList <+: routeKey.toList then
    (parseAuthFailureRouteKey routeKey).bind fun route =>
      (fingerprints route.accountID).map fun current =>
        (route.accountID, current == rejectedFingerprint)
  else none

def tokenReplaced (oauthGroupID seatID : String) (fingerprints : String → Option String)
    (routeKey rejectedFingerprint : String) : Bool :=
  (tokenVerdict oauthGroupID seatID fingerprints routeKey rejectedFingerprint).any (! ·.2)

/-- `authFailureSkipSet`. The material is given as the fingerprint of each account's token, for the
accounts that have one and need no login. -/
def authFailureSkipSet (s : PoolCooldownStore) (oauthGroupID seatID : String)
    (fingerprints : String → Option String) : Table String Bool × PoolCooldownStore :=
  let known := s.authFailedTokens.entries.filterMap fun e =>
    tokenVerdict oauthGroupID seatID fingerprints e.1 e.2
  let cleared := s.authFailedTokens.entries.filter fun e =>
    tokenReplaced oauthGroupID seatID fingerprints e.1 e.2
  (assignAll ∅ (known.filter (·.2)),
    { s with
      authFailedTokens := collect (fun routeKey fingerprint =>
        if tokenReplaced oauthGroupID seatID fingerprints routeKey fingerprint then none
        else some fingerprint) s.authFailedTokens
      persistRevision := s.persistRevision + cleared.length })

def authFailureSnapshot (s : PoolCooldownStore) : List PoolAuthFailureState :=
  sortBy (fun state => toLex (state.oauthGroupID, toLex (state.seatID, state.accountID)))
    (s.authFailedTokens.entries.filterMap fun e => parseAuthFailureRouteKey e.1)

end PoolCooldownStore

/-! ## Runs -/

inductive CooldownWrite where
  | mark (accountID : String) (avoidUntil : Int) (state : PoolAccountRouteState)
      (windows : WindowStatusSample)
  | noteServerError (accountID : String) (state : PoolAccountRouteState)
  | noteSuccess (accountID : String)
  | markTier (accountID tierKey : String) (avoidUntil : Int)
  | markAuthFailedToken (oauthGroupID seatID accountID fingerprint : String)

inductive CooldownRead where
  | skipSet
  | addTierSkips (tierKey : String) (out : Table String Bool)
  | snapshot
  | routeStateSnapshot
  | earliestRetryAdvice (routeIDs : List String) (skip : Table String Bool)
  | windowStatusSnapshot
  | tierCooldownUntil (tierKey : String)
  | consumeLapsed (accountID : String)
  | authFailureSkipSet (oauthGroupID seatID : String) (fingerprints : String → Option String)
  | authFailureSnapshot

inductive CooldownCall where
  | write (w : CooldownWrite)
  | read (r : CooldownRead)

namespace PoolCooldownStore

def afterWrite (s : PoolCooldownStore) (now : Int) : CooldownWrite → PoolCooldownStore
  | .mark id avoidUntil state windows => s.markWithStateAndWindows now id avoidUntil state windows
  | .noteServerError id state => (s.noteServerErrorWithState now id state).2
  | .noteSuccess id => s.noteSuccess id
  | .markTier id tierKey avoidUntil => s.markTier id tierKey avoidUntil
  | .markAuthFailedToken group seat account fingerprint =>
    s.markAuthFailedToken group seat account fingerprint

def afterRead (s : PoolCooldownStore) (now : Int) : CooldownRead → PoolCooldownStore
  | .skipSet => (s.skipSet now).2
  | .addTierSkips tierKey out => (s.addTierSkips now tierKey out).2
  | .snapshot => (s.snapshot now).2
  | .routeStateSnapshot => (s.routeStateSnapshot now).2
  | .earliestRetryAdvice _ _ => s
  | .windowStatusSnapshot => (s.windowStatusSnapshot now).2
  | .tierCooldownUntil tierKey => (s.tierCooldownUntil now tierKey).2
  | .consumeLapsed id => (s.consumeLapsed id).2
  | .authFailureSkipSet group seat fingerprints => (s.authFailureSkipSet group seat fingerprints).2
  | .authFailureSnapshot => s

def call (s : PoolCooldownStore) : Int × CooldownCall → PoolCooldownStore
  | (now, .write w) => s.afterWrite now w
  | (now, .read r) => s.afterRead now r

def calls (s : PoolCooldownStore) (cs : List (Int × CooldownCall)) : PoolCooldownStore :=
  cs.foldl call s

end PoolCooldownStore

end AikeyProxy.Proxy
