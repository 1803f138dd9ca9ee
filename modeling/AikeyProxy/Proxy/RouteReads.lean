import AikeyProxy.Supervisor.RoutingOverride
import AikeyProxy.Lib.Run

/-!
# A request's reads of the routing overrides

The override cache is five atomics. An update replaces them one after another, and a request for a
group key loads three of them: the access tombstones, the blocked seats, and, once its body has been
captured, the assignments. A tombstone or a block ends the request.
-/

namespace AikeyProxy.Proxy

open Lib Supervisor

/-! ## Updates -/

inductive CellStore where
  | assignments (m : Table String String)
  | blocked (s : Finset String)
  | removed (s : Finset String)
  | version (v : Int)
  | stored

def CellStore.apply (c : RoutingOverrideCache) : CellStore → RoutingOverrideCache
  | .assignments m => { c with assignments := m }
  | .blocked s => { c with blocked := s }
  | .removed s => { c with removed := s }
  | .version v => { c with version := v }
  | .stored => { c with stored := true }

/-- The stores of `storeAllWithRemoved`, in order. -/
def storeAllWithRemoved (version : Int) (assignments : Table String String)
    (blocked removed : Finset String) : List CellStore :=
  [.assignments assignments, .blocked blocked, .removed removed, .version version, .stored]

structure RouteUpdate where
  version : Int
  routes : List RouteEntry

def RouteUpdate.cache (u : RouteUpdate) : RoutingOverrideCache := storeRoutes u.version u.routes

def RouteUpdate.stores (u : RouteUpdate) : List CellStore :=
  storeAllWithRemoved u.version u.cache.assignments u.cache.blocked u.cache.removed

/-! ## Reads -/

structure RouteSeen where
  removed : Option Bool
  blocked : Option Bool
  override : Option String

def RouteSeen.nothing : RouteSeen := ⟨none, none, none⟩

def RouteSeen.Agrees (s : RouteSeen) (a : RouteAnswer) : Prop :=
  (s.removed = none ∨ s.removed = some a.removed) ∧
  (s.blocked = none ∨ s.blocked = some a.blocked) ∧
  (s.override = none ∨ s.override = some a.assignment)
  deriving Decidable

/-! ## Interleavings -/

structure RouteWorld where
  cache : RoutingOverrideCache
  /-- The stores left of the update in progress. -/
  pending : List CellStore
  updates : List RouteUpdate
  begun : Nat
  seen : RouteSeen

/-- A request arrives while `start` is in force: a stored version, or the cache of a process
that has not stored any. -/
def RouteWorld.init (start : RoutingOverrideCache) (us : List RouteUpdate) : RouteWorld :=
  ⟨start, [], us, 0, .nothing⟩

inductive RouteAct where
  /-- The poll calls `StoreRoutes` with the next list. -/
  | begin
  | store
  | loadRemoved
  | loadBlocked
  | loadOverride

/-- One atomic step of the poll or of the request. The poll runs one update at a time;
the request is `handleOauthGroupRoute` for this seat and group. -/
def routeStep (seatID groupID : String) (w : RouteWorld) : RouteAct → Option RouteWorld
  | .begin =>
    match w.pending, w.updates with
    | [], u :: us => some { w with pending := u.stores, updates := us, begun := w.begun + 1 }
    | _, _ => none
  | .store =>
    match w.pending with
    | s :: rest => some { w with cache := s.apply w.cache, pending := rest }
    | [] => none
  | .loadRemoved =>
    if w.seen.removed = none then
      some { w with seen.removed := some (w.cache.answer seatID groupID).removed }
    else none
  | .loadBlocked =>
    -- A tombstone has already ended the request.
    if w.seen.removed = some false ∧ w.seen.blocked = none then
      some { w with seen.blocked := some (w.cache.answer seatID groupID).blocked }
    else none
  | .loadOverride =>
    -- So has a block. The body is captured in between; a request that fails there loads
    -- nothing more.
    if w.seen.blocked = some false ∧ w.seen.override = none then
      some { w with seen.override := some (w.cache.answer seatID groupID).assignment }
    else none

/-- Version `k` of a history: the one in force at the start, then what each update wrote. -/
def versionAt (start : RoutingOverrideCache) (us : List RouteUpdate) (k : Nat) :
    RoutingOverrideCache :=
  (start :: us.map RouteUpdate.cache).getD k start

/-- What version `k` says about a seat and group. -/
def answerAt (start : RoutingOverrideCache) (us : List RouteUpdate) (seatID groupID : String)
    (k : Nat) : RouteAnswer :=
  (versionAt start us k).answer seatID groupID

end AikeyProxy.Proxy
