import AikeyProxy.Proxy.PoolCooldown

/-!
# The state file of the cooldown store

A snapshot holds what has not lapsed, with deadlines in whole seconds; a snapshot with nothing in
it removes the file. A new store reads the file once, and takes what still counts.
-/

namespace AikeyProxy.Proxy

open Lib

structure PoolCooldownFileBody where
  accounts : Table String Int
  accountStates : Table String PoolAccountRouteState
  windowStatuses : Table String WindowStatusSample
  tierAccounts : Table String Int
  authFailedTokens : Table String String

namespace PoolCooldownStore

/-- The deadlines that are ahead, as `Time.Unix` writes them. -/
def unixAhead (now : Int) (t : Table String Int) : Table String Int :=
  collect (fun _ avoidUntil => if now < avoidUntil then some (unix avoidUntil) else none) t

def persistenceSnapshotLocked (s : PoolCooldownStore) (now : Int) : PoolCooldownFileBody :=
  let accounts := unixAhead now s.m
  { accounts
    accountStates := collect (fun id state =>
      if (accounts.lookup id).isSome ∧ state.status ≠ "" then some state else none) s.routeMeta
    windowStatuses := collect (fun id sample =>
      let active := activeWindowStatusSample sample now
      if (accounts.lookup id).isSome ∧ active.speaks then some active else none) s.windowStatuses
    tierAccounts := unixAhead now s.tierM
    authFailedTokens := s.authFailedTokens }

end PoolCooldownStore

/-- What `writePersistenceSnapshot` leaves at the path, if it writes: no file when there is nothing
to keep. -/
def PoolCooldownFileBody.written (body : PoolCooldownFileBody) : Option PoolCooldownFileBody :=
  if body.accounts = ∅ ∧ body.tierAccounts = ∅ ∧ body.authFailedTokens = ∅ ∧ body.windowStatuses = ∅
  then none else some body

def deadlinesAhead (now : Int) (t : Table String Int) : Table String Int :=
  collect (fun id seconds =>
    if id ≠ "" ∧ now < seconds * nanosPerSecond then some (seconds * nanosPerSecond) else none) t

def PoolCooldownFileBody.hydrate (body : PoolCooldownFileBody) (now : Int) : PoolCooldownStore :=
  let m := deadlinesAhead now body.accounts
  { PoolCooldownStore.empty with
    m
    routeMeta := collect (fun id state =>
      if (m.lookup id).isSome ∧ state.status ≠ "" then some state else none) body.accountStates
    windowStatuses := collect (fun id sample =>
      let active := activeWindowStatusSample sample now
      if (m.lookup id).isSome ∧ sample.credentialID ≠ "" ∧ active.speaks then some active else none)
      body.windowStatuses
    tierM := deadlinesAhead now body.tierAccounts
    authFailedTokens := collect (fun routeKey fingerprint =>
      if (parseAuthFailureRouteKey routeKey).isSome ∧ fingerprint ≠ "" then some fingerprint
      else none) body.authFailedTokens }

/-- `hydrateFromFile`, of a new store; a file that is missing, unreadable or corrupt leaves it
empty. -/
def hydrateFromFile (file : Option PoolCooldownFileBody) (now : Int) : PoolCooldownStore :=
  match file with
  | none => PoolCooldownStore.empty
  | some body => body.hydrate now

end AikeyProxy.Proxy
