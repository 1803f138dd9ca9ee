import AikeyProxy.Lib.Table
import Mathlib.Data.Finset.Basic

/-!
# Routing overrides: cache, persisted rows and pulls

The allocation engine's route list is pulled and kept in a cache together with its version. A pull
whose version is the cached one is skipped. Every applied pull is mirrored into a column of each
local group key, one write per key, and a restart fills the cache from those columns before the
first pull.
-/

namespace AikeyProxy.Supervisor

open Lib

/-! ## The cache -/

/-- A seat or group id as the control plane issues them: a UUID, or empty. It never
has the separator that `routeKey` puts between the two. -/
structure RouteID where
  text : String
  noBar : '|' ∉ text.toList
  deriving DecidableEq

structure RouteEntry where
  seatID : RouteID
  groupID : RouteID
  accountID : String
  blocked : Bool
  removed : Bool
  deriving DecidableEq

def routeKey (seatID groupID : String) : String := seatID ++ "|" ++ groupID

def RouteEntry.key (r : RouteEntry) : String := routeKey r.seatID.text r.groupID.text

structure RoutingOverrideCache where
  assignments : Table String String
  blocked : Finset String
  removed : Finset String
  version : Int
  /-- Set by the first store; a version of 0 alone does not mean that one was pulled. -/
  stored : Bool

def newRoutingOverrideCache : RoutingOverrideCache := ⟨∅, ∅, ∅, 0, false⟩

variable (c : RoutingOverrideCache)

/-- One turn of the loop of `StoreRoutes`: a tombstone goes before a block, and both
before an assignment. -/
def RoutingOverrideCache.addRoute (r : RouteEntry) : RoutingOverrideCache :=
  if r.removed then { c with removed := insert r.key c.removed }
  else if r.blocked then { c with blocked := insert r.key c.blocked }
  else if r.accountID ≠ "" then { c with assignments := c.assignments.insert r.key r.accountID }
  else c

/-- `StoreRoutes`: fresh maps replace all of the cache. -/
def storeRoutes (version : Int) (routes : List RouteEntry) : RoutingOverrideCache :=
  { routes.foldl RoutingOverrideCache.addRoute newRoutingOverrideCache with
    version := version, stored := true }

/-- The assigned account, if any; whether the engine left the seat unbound; whether access was
retired. -/
structure RouteAnswer where
  assignment : String
  blocked : Bool
  removed : Bool
  deriving DecidableEq

/-- `Assignment`, `Blocked` and `Removed` of one pair. -/
def RoutingOverrideCache.answer (seatID groupID : String) : RouteAnswer :=
  if seatID = "" ∨ groupID = "" then ⟨"", false, false⟩
  else
    ⟨(c.assignments.lookup (routeKey seatID groupID)).getD "",
      decide (routeKey seatID groupID ∈ c.blocked), decide (routeKey seatID groupID ∈ c.removed)⟩

/-! ## Persisted rows -/

structure PersistedAssignment where
  accountID : String
  blocked : Bool
  removed : Bool
  routingVersion : Int
  deriving DecidableEq

/-- The `my_assignment_override` column without its time stamp, which nothing reads. -/
inductive Column where
  | empty
  | corrupt
  | payload (pa : PersistedAssignment)

/-- A row of the managed-keys table. Only active rows are returned to the proxy. -/
structure KeyRow where
  virtualKeyID : String
  seatID : RouteID
  groupID : RouteID
  active : Bool
  column : Column

structure Persisted where
  version : Int
  entries : List RouteEntry
  corrupt : Nat

def Persisted.addRow (p : Persisted) (mk : KeyRow) : Persisted :=
  if mk.groupID.text = "" ∨ mk.seatID.text = "" then p
  else
    match mk.column with
    | .empty => p
    | .corrupt => { p with corrupt := p.corrupt + 1 }
    | .payload pa =>
      if !pa.blocked && !pa.removed && pa.accountID = "" then p
      else
        { p with
          entries := p.entries ++ [⟨mk.seatID, mk.groupID, pa.accountID, pa.blocked, pa.removed⟩]
          version := if pa.routingVersion > p.version then pa.routingVersion else p.version }

def persistedRoutingEntries (mks : List KeyRow) : Persisted := mks.foldl Persisted.addRow ⟨0, [], 0⟩

def hydrate (mks : List KeyRow) : RoutingOverrideCache :=
  if c.stored then c
  else if (persistedRoutingEntries mks).entries = [] then c
  else storeRoutes (persistedRoutingEntries mks).version (persistedRoutingEntries mks).entries

def desiredColumn (version : Int) (mk : KeyRow) : Column :=
  let a := c.answer mk.seatID.text mk.groupID.text
  if a.assignment ≠ "" ∨ a.blocked = true ∨ a.removed = true then
    .payload ⟨a.assignment, a.blocked, a.removed, version⟩
  else .empty

def sameAssignmentPayload : Column → Column → Bool
  | .empty, .empty => true
  | .payload a, .payload b => a = b
  | _, _ => false

def writeAssignmentOverride (rows : List KeyRow) (virtualKeyID : String) (column : Column) :
    List KeyRow :=
  rows.map fun row => if row.virtualKeyID = virtualKeyID then { row with column := column } else row

/-- `persistAssignmentOverrides`: the keys are read once, then written one by one, each
write on its own able to fail. -/
def persistAssignmentOverrides (version : Int) (writeOk : Nat → Bool)
    (rows : List KeyRow) : List KeyRow :=
  (rows.filter KeyRow.active).zipIdx.foldl (fun rows (mk, i) =>
    if mk.groupID.text = "" ∨ mk.seatID.text = "" then rows
    else if sameAssignmentPayload mk.column (desiredColumn c version mk) then rows
    else if writeOk i then
      writeAssignmentOverride rows mk.virtualKeyID (desiredColumn c version mk)
    else rows) rows

/-! ## Histories -/

inductive Filled where
  | pulled (version : Int)
  | hydrated (mks : List KeyRow)

structure OverrideWorld where
  cache : RoutingOverrideCache
  rows : List KeyRow
  filled : Option Filled

def OverrideWorld.init : OverrideWorld := ⟨newRoutingOverrideCache, [], none⟩

structure PullEnv where
  readOk : Bool
  writeOk : Nat → Bool

inductive OverrideAct where
  | pull (answer : Option Int) (env : PullEnv)
  | addKey (virtualKeyID : String) (seatID groupID : RouteID)
  | removeKey (virtualKeyID : String)
  | setActive (virtualKeyID : String) (active : Bool)
  | corruptRow (virtualKeyID : String)
  | restart (readOk : Bool)

section

-- The control plane's route list of every version: a version is never reused for a
-- different list.
variable (server : Int → List RouteEntry)

/-- `syncRoutingOverrides` after a pull that returned `version` and its list. -/
def OverrideWorld.syncRoutingOverrides (w : OverrideWorld) (version : Int) (env : PullEnv) :
    OverrideWorld :=
  if w.cache.stored ∧ w.cache.version = version then w
  else
    { cache := storeRoutes version (server version)
      rows :=
        if env.readOk then
          persistAssignmentOverrides (storeRoutes version (server version)) version env.writeOk w.rows
        else w.rows
      filled := some (.pulled version) }

/-- The cache is new; it is filled from the active rows if there is anything in them. -/
def OverrideWorld.restart (w : OverrideWorld) (readOk : Bool) : OverrideWorld :=
  let mks := w.rows.filter KeyRow.active
  if readOk ∧ (persistedRoutingEntries mks).entries ≠ [] then
    { w with cache := hydrate newRoutingOverrideCache mks, filled := some (.hydrated mks) }
  else { w with cache := newRoutingOverrideCache, filled := none }

def overrideStep (w : OverrideWorld) : OverrideAct → Option OverrideWorld
  | .pull none _ => some w
  | .pull (some version) env => some (w.syncRoutingOverrides server version env)
  | .addKey vk seatID groupID =>
    some { w with rows := w.rows ++ [⟨vk, seatID, groupID, true, .empty⟩] }
  | .removeKey vk => some { w with rows := w.rows.filter fun row => row.virtualKeyID ≠ vk }
  | .setActive vk active =>
    some { w with rows := w.rows.map fun row =>
      if row.virtualKeyID = vk then { row with active := active } else row }
  | .corruptRow vk => some { w with rows := writeAssignmentOverride w.rows vk .corrupt }
  | .restart readOk => some (w.restart readOk)

end

end AikeyProxy.Supervisor
