import Mathlib.Logic.Function.Basic

/-!
# The per-account egress cache

`accountEgressTransport`, `evictEgress` and `sweepIdleEgress` (`egress_engine.go`) on a `sync.Map`
from specs to entries. An entry is known by its address, a number here. A step is one operation on
the map, one atomic load or store, one build or one `Close`.
-/

namespace AikeyProxy.Proxy

/-- What `buildEgressTransport` made of a spec. Only a group's dialer has a closer. -/
inductive BuiltEgress
  | failed | plain | group
deriving DecidableEq

structure AccountEgressEntry where
  built : BuiltEgress
  lastUsedUnix : Int
  closes : Nat

inductive EgressPc
  | idle
  | missed (spec : String)
  | built (spec : String) (id : Nat)
  | found (id : Nat)
  | returning (id : Nat)
  | sweeping (cutoff : Int)
  | visiting (cutoff : Int) (spec : String) (id : Nat)
  | judged (cutoff : Int) (spec : String) (id : Nat)
  /-- The call has taken `id` out of circulation and is to close it. -/
  | closing (id : Nat) (next : EgressPc)
deriving DecidableEq

structure EgressCache where
  transports : String → Option Nat
  entries : Nat → AccountEgressEntry
  next : Nat
  calls : Nat → EgressPc

inductive EgressAct
  | lookup (t : Nat) (spec : String)
  | build (t : Nat) (result : BuiltEgress) (now : Int)
  | loadOrStore (t : Nat)
  | touch (t : Nat) (now : Int)
  | return (t : Nat)
  | evict (t : Nat) (spec : String)
  | sweep (t : Nat) (cutoff : Int)
  | visit (t : Nat) (spec : String)
  | judge (t : Nat)
  | compareAndDelete (t : Nat)
  | sweepDone (t : Nat)
  | close (t : Nat)

namespace EgressCache

def setCall (c : EgressCache) (t : Nat) (pc : EgressPc) : EgressCache :=
  { c with calls := Function.update c.calls t pc }

def setEntry (c : EgressCache) (id : Nat) (e : AccountEgressEntry) : EgressCache :=
  { c with entries := Function.update c.entries id e }

def setTransport (c : EgressCache) (spec : String) (id : Option Nat) : EgressCache :=
  { c with transports := Function.update c.transports spec id }

end EgressCache

def AccountEgressEntry.close (e : AccountEgressEntry) : AccountEgressEntry :=
  if e.built = .group then { e with closes := e.closes + 1 } else e

def egressStep (c : EgressCache) : EgressAct → Option EgressCache
  | .lookup t spec =>
    if c.calls t = .idle then
      match c.transports spec with
      | some id => some (c.setCall t (.found id))
      | none => some (c.setCall t (.missed spec))
    else none
  | .build t result now =>
    match c.calls t with
    | .missed spec =>
      some { (c.setEntry c.next ⟨result, now, 0⟩).setCall t (.built spec c.next) with
        next := c.next + 1 }
    | _ => none
  | .loadOrStore t =>
    match c.calls t with
    | .built spec id =>
      match c.transports spec with
      | some other => some (c.setCall t (.closing id (.found other)))
      | none => some ((c.setTransport spec (some id)).setCall t (.found id))
    | _ => none
  | .touch t now =>
    match c.calls t with
    | .found id =>
      some ((c.setEntry id { c.entries id with lastUsedUnix := now }).setCall t (.returning id))
    | _ => none
  | .return t =>
    match c.calls t with
    | .returning _ => some (c.setCall t .idle)
    | _ => none
  | .evict t spec =>
    if c.calls t = .idle then
      match c.transports spec with
      | some id => some ((c.setTransport spec none).setCall t (.closing id .idle))
      | none => some c
    else none
  | .sweep t cutoff =>
    if c.calls t = .idle then some (c.setCall t (.sweeping cutoff)) else none
  | .visit t spec =>
    match c.calls t, c.transports spec with
    | .sweeping cutoff, some id => some (c.setCall t (.visiting cutoff spec id))
    | _, _ => none
  | .judge t =>
    match c.calls t with
    | .visiting cutoff spec id =>
      some (c.setCall t (if (c.entries id).lastUsedUnix ≤ cutoff then .judged cutoff spec id
        else .sweeping cutoff))
    | _ => none
  | .compareAndDelete t =>
    match c.calls t with
    | .judged cutoff spec id =>
      -- the entry is compared by its address alone
      if c.transports spec = some id then
        some ((c.setTransport spec none).setCall t (.closing id (.sweeping cutoff)))
      else some (c.setCall t (.sweeping cutoff))
    | _ => none
  | .sweepDone t =>
    match c.calls t with
    | .sweeping _ => some (c.setCall t .idle)
    | _ => none
  | .close t =>
    match c.calls t with
    | .closing id next => some ((c.setEntry id (c.entries id).close).setCall t next)
    | _ => none

def emptyEgress : EgressCache := ⟨fun _ => none, fun _ => ⟨.failed, 0, 0⟩, 0, fun _ => .idle⟩

end AikeyProxy.Proxy
