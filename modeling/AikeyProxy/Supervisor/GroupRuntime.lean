import AikeyProxy.Lib.Run
import AikeyProxy.Lib.Table
import Mathlib.Data.List.Sort
import Mathlib.Data.Rat.Defs

/-!
# Group runtime: pulled account material and its projection

Every sync cycle pulls the account material of all groups. If it differs from what was last
committed, the column of each local group key is rewritten, one write per key, and the proxy reloads
so that the active generation takes the columns over; the signature is committed after the reload. A
cycle whose signature is the committed one is skipped.
-/

namespace AikeyProxy.Supervisor

open Lib

/-! ## Accounts -/

/-- What every kind of account carries: who it is and how much of it was used. -/
structure AccountMeta where
  credentialType : String
  credentialID : String
  identity : String
  providerCode : String
  protocolType : String
  baseURL : String
  priority : Int
  util5h : Option ℚ
  util7d : Option ℚ
  utilObservedAt : Option Int
  deriving DecidableEq

structure AccountWindows where
  windowMaxUtilPct : Option Int
  windowStatus : String
  windowResetAt : Option Int
  window7dMaxUtilPct : Option Int
  window7dStatus : String
  window7dResetAt : Option Int
  deriving DecidableEq

def noWindows : AccountWindows := ⟨none, "", none, none, "", none⟩

/-- An account as the control plane sends it, its secrets in the clear. -/
structure GrAccount extends AccountMeta, AccountWindows where
  accountID : String
  needsLogin : Bool
  accessToken : String
  expiresAt : Int
  externalID : String
  egressProxyURL : String
  key : String
  revision : String

structure GrGroup where
  oauthGroupID : String
  accounts : List GrAccount

structure AccountRuntime (Secret : Type) extends AccountMeta, AccountWindows where
  needsLogin : Bool
  secret : Option Secret
  expiresAt : Int
  externalID : String
  egressProxyURL : String
  revision : String
  deriving DecidableEq

def AccountRuntime.mapSecret {S T : Type} (f : S → T) (r : AccountRuntime S) : AccountRuntime T :=
  { r with secret := r.secret.map f }

/-- A secret under AES-GCM, taken as ideal: it opens to what was sealed. -/
structure Sealed where
  nonce : Nat
  plaintext : String

/-- An entry of the column: the account with its secret sealed, and two display stamps of
the local proxy. -/
structure GroupRuntimeAccount extends AccountRuntime Sealed where
  isCurrentRouted : Bool
  routeStatus : String
  routeRetryAt : Option Int

/-- The account material of an entry: everything but the stamps, the secret opened. -/
def GroupRuntimeAccount.material (a : GroupRuntimeAccount) : AccountRuntime String :=
  a.toAccountRuntime.mapSecret Sealed.plaintext

def GrAccount.material (a : GrAccount) : AccountRuntime String :=
  if a.needsLogin then
    -- a login marker has no secret
    { a.toAccountMeta, noWindows with
      needsLogin := true, secret := none, expiresAt := 0, externalID := a.externalID
      egressProxyURL := a.egressProxyURL, revision := "" }
  else if a.credentialType = "api_key" then
    { a.toAccountMeta, noWindows with
      needsLogin := false, secret := some a.key, expiresAt := 0, externalID := ""
      egressProxyURL := "", revision := a.revision }
  else
    { a.toAccountMeta, a.toAccountWindows with
      needsLogin := false, secret := some a.accessToken, expiresAt := a.expiresAt
      externalID := a.externalID, egressProxyURL := a.egressProxyURL, revision := "" }

/-! ## One column -/

abbrev RuntimeColumn := Table String GroupRuntimeAccount

/-- The entry `buildGroupRuntimeMap` makes of an account. -/
def GrAccount.stored (a : GrAccount) (nonce : Nat) : GroupRuntimeAccount :=
  { a.material.mapSecret (Sealed.mk nonce) with
    isCurrentRouted := false, routeStatus := "", routeRetryAt := none }

def buildGroupRuntimeMap (nonce : String → Nat) (accounts : List GrAccount) : RuntimeColumn :=
  assignAll ∅ (accounts.map fun a => (a.accountID, a.stored (nonce a.accountID)))

structure PoolAccountRouteState where
  status : String
  retryAt : Int

def applyRouteState (routeStates : String → Option PoolAccountRouteState) (id : String)
    (acc : GroupRuntimeAccount) : GroupRuntimeAccount :=
  match routeStates id with
  | none => { acc with routeStatus := "", routeRetryAt := none }
  | some state =>
    if state.status = "" then { acc with routeStatus := "", routeRetryAt := none }
    else { acc with routeStatus := state.status, routeRetryAt := some state.retryAt }

def applyPoolRouteStates (routeStates : String → Option PoolAccountRouteState)
    (material : RuntimeColumn) : RuntimeColumn :=
  mapEntries (applyRouteState routeStates) material

/-- `marshalGroupRuntime`: the column is kept as the map that its JSON text holds. -/
def marshalGroupRuntime (base : RuntimeColumn) (routedAccountID : String) : RuntimeColumn :=
  mapEntries (fun id acc => { acc with isCurrentRouted := decide (id = routedAccountID) }) base

/-! ## One cycle -/

/-- A managed key of the vault; the group is empty for a key that is in none. -/
structure GroupVK where
  virtualKeyID : String
  seatID : String
  oauthGroupID : String
  deriving DecidableEq

def GroupVK.inGroup (mk : GroupVK) : Bool := mk.oauthGroupID ≠ ""

/-- The active managed keys. A key has a row for each of its bindings, and a key of a group one. -/
structure LocalKeys where
  keys : List GroupVK
  nodup : ((keys.filter GroupVK.inGroup).map GroupVK.virtualKeyID).Nodup

def LocalKeys.groupKeys (ks : LocalKeys) : List GroupVK := ks.keys.filter GroupVK.inGroup

/-- Which account a column is stamped with and the cooldowns shown are left to the environment: they
are not account material. -/
structure CycleEnv where
  /-- `GetActiveManagedKeys`, `none` when it fails. -/
  local? : Option LocalKeys
  /-- The body of the response, `none` when it cannot be had. -/
  fetched : Option String
  nonce : String → String → Nat
  routed : GroupVK → String
  routeStates : String → Option PoolAccountRouteState
  order : List GroupVK → List GroupVK
  order_perm : ∀ ks, (order ks).Perm ks
  failAt : Option Nat
  reloadOk : Bool

def CycleEnv.groupColumn (env : CycleEnv) (g : GrGroup) (mk : GroupVK) : RuntimeColumn :=
  marshalGroupRuntime
    (applyPoolRouteStates env.routeStates (buildGroupRuntimeMap (env.nonce g.oauthGroupID) g.accounts))
    (env.routed mk)

/-- `writeGroupRuntimeForGroupsWithRouteState`: the delivered groups in the order of the response,
then an empty column for every key of another group. -/
def CycleEnv.snapshotRows (env : CycleEnv) (ks : LocalKeys) (groups : List GrGroup) :
    List (String × RuntimeColumn) :=
  (groups.flatMap fun g =>
    (ks.groupKeys.filter fun mk => decide (mk.oauthGroupID = g.oauthGroupID)).map fun mk =>
      (mk.virtualKeyID, env.groupColumn g mk)) ++
  (env.order (ks.groupKeys.filter fun mk =>
    decide (mk.oauthGroupID ∉ groups.map GrGroup.oauthGroupID))).map fun mk =>
      (mk.virtualKeyID, ∅)

/-- The writes that are made: those before the first failure. -/
def CycleEnv.written (env : CycleEnv) (rows : List (String × RuntimeColumn)) :
    List (String × RuntimeColumn) :=
  match env.failAt with
  | none => rows
  | some k => rows.take k

abbrev Topology := List (String × String × String)

/-- The comparison of `sort.Slice`, axis by axis. -/
def topologyLe (a b : String × String × String) : Prop :=
  if a.1 ≠ b.1 then a.1 < b.1
  else if a.2.1 ≠ b.2.1 then a.2.1 < b.2.1
  else a.2.2 ≤ b.2.2

instance : DecidableRel topologyLe := fun a b =>
  inferInstanceAs (Decidable (if a.1 ≠ b.1 then _ else if a.2.1 ≠ b.2.1 then _ else _))

/-- `groupRuntimeSyncSignature`: a hash of the response and of the keys it goes to, kept
as the pair that is hashed. -/
def groupRuntimeSyncSignature (remoteMaterial : String) (ks : LocalKeys) : String × Topology :=
  (remoteMaterial,
    (ks.groupKeys.map fun mk => (mk.virtualKeyID, mk.seatID, mk.oauthGroupID)).insertionSort
      topologyLe)

/-! ## The system -/

/-- `sinceCommit` records the writes since the signature was committed, `reported` the last cycle if
it reported success. -/
structure GroupRuntimeWorld where
  columns : Table String RuntimeColumn
  active : Table String RuntimeColumn
  lastSig : Option (String × Topology)
  sinceCommit : List (String × RuntimeColumn)
  reported : Option (LocalKeys × List GrGroup)

/-- A proxy that has just started: nothing is committed, the columns are what they are. -/
def GroupRuntimeWorld.init (columns : Table String RuntimeColumn) : GroupRuntimeWorld :=
  ⟨columns, columns, none, [], none⟩

/-- The part of a cycle after the skip: write, reload, commit. -/
def GroupRuntimeWorld.project (s : GroupRuntimeWorld) (env : CycleEnv) (ks : LocalKeys)
    (raw : String) (groups : List GrGroup) : GroupRuntimeWorld :=
  let rows := env.snapshotRows ks groups
  let done := env.written rows
  let columns := assignAll s.columns done
  if done.length < rows.length ∨ env.reloadOk = false then
    { s with columns := columns, sinceCommit := s.sinceCommit ++ done, reported := none }
  else
    { columns := columns
      active := columns
      lastSig := some (groupRuntimeSyncSignature raw ks)
      sinceCommit := []
      reported := some (ks, groups) }

def GroupRuntimeWorld.syncGroupRuntime (decode : String → Option (List GrGroup))
    (s : GroupRuntimeWorld) (env : CycleEnv) : GroupRuntimeWorld :=
  match env.local?, env.fetched with
  | some ks, some raw =>
    match decode raw with
    | none => { s with reported := none }
    | some groups =>
      if s.lastSig = some (groupRuntimeSyncSignature raw ks) then
        { s with reported := some (ks, groups) }
      else s.project env ks raw groups
  | _, _ => { s with reported := none }

inductive GroupRuntimeAct where
  | cycle (env : CycleEnv)
  | reload (ok : Bool)

def groupRuntimeStep (decode : String → Option (List GrGroup)) (s : GroupRuntimeWorld) :
    GroupRuntimeAct → Option GroupRuntimeWorld
  | .cycle env => some (s.syncGroupRuntime decode env)
  | .reload ok => some (if ok then { s with active := s.columns } else s)

end AikeyProxy.Supervisor
