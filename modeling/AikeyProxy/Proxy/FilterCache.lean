import AikeyProxy.Lib.Run
import AikeyProxy.Lib.Table
import AikeyProxy.Lib.Region
import AikeyProxy.AppHook.ContentVersion

/-!
# Filtered requests and the verdict cache

`applyInboundFilter` asks the pool once for the epoch its verdicts may be memoised under and then
takes the pieces of the request in turn: a verdict kept under the epoch is used again, otherwise
some worker scans the piece. Requests run concurrently with each other and with whatever happens to
the workers.
-/

namespace AikeyProxy.Proxy

open Lib AppHook

/-- `cacheKey` together with the scope of the session; a content hash stands for the head it
was taken of. -/
structure CacheKey where
  scope : String
  detectorVersion : String
  contentVersion : List String
  head : String
  deriving DecidableEq

/-- Asking the workers from `worker` on, between two pieces, waiting for a verdict, or about to keep
it. Without an epoch the cache is not used. -/
inductive FilterPc where
  | collect (worker : Nat) (tokens : List String)
  | piece (epoch : Option (List String))
  | detect (epoch : Option (List String)) (head : String)
  | keep (epoch : List String) (head : String) (verdict : MaskVerdict)

def FilterPc.epoch? : FilterPc → Option (List String)
  | .collect .. => none
  | .piece epoch | .detect epoch _ => epoch
  | .keep epoch .. => some epoch

structure FilterRequest where
  scope : String
  detectorVer : String
  pc : FilterPc

/-- A verdict taken from the cache: whether every serving child had caught up at that moment, and
what their rules would have said. -/
structure CacheHit where
  verdict : MaskVerdict
  caughtUp : Bool
  present : List MaskVerdict

structure FilterWorld (R : Type) where
  children : List (FilterChild R)
  cache : Table CacheKey MaskVerdict
  requests : List FilterRequest
  hits : List CacheHit

variable {R : Type}

def FilterWorld.init (rules : List R) : FilterWorld R :=
  ⟨rules.map .init, ∅, [], []⟩

/-- The children whose verdicts reach a request. -/
def FilterWorld.serving (s : FilterWorld R) : List (FilterChild R) :=
  s.children.filter (fun c => !c.degraded)

/-- Every serving child has been polled since its last rule change or respawn. -/
def FilterWorld.CaughtUp (s : FilterWorld R) : Prop :=
  ∀ c ∈ s.serving, c.Fresh
  deriving Decidable

/-- What the present rules of the serving children say about a payload. -/
def FilterWorld.presentVerdicts (sem : RuleSemantics R) (s : FilterWorld R) (head : String) :
    List MaskVerdict :=
  s.serving.map (fun c => sem.verdict c.rules head)

/-- The key a request looks a piece up under, `cacheKey`. -/
def FilterRequest.cacheKey (q : FilterRequest) (epoch : List String) (head : String) : CacheKey :=
  ⟨q.scope, q.detectorVer, epoch, head⟩

/-- The verdict the cache has for a piece of the request; a kept refusal is passed over. -/
def FilterWorld.cached (s : FilterWorld R) (q : FilterRequest) (head : String) :
    Option (List String) → Option MaskVerdict
  | none => none
  | some epoch =>
    (s.cache.lookup (q.cacheKey epoch head)).filter (fun v => v.action ≠ .block)

inductive FilterAct (R : Type) where
  | child (i : Nat) (e : ChildEvent R)
  | request (scope detectorVer : String)
  | collect (j : Nat)
  | lookup (j : Nat) (head : String)
  | detect (j i : Nat)
  | degraded (j : Nat)
  | keep (j : Nat)
  | evict (key : CacheKey)

def FilterWorld.setPc (s : FilterWorld R) (j : Nat) (q : FilterRequest) (pc : FilterPc) :
    FilterWorld R :=
  { s with requests := s.requests.set j { q with pc } }

/-- What a request does after a worker's verdict: keep it, if there is an epoch to keep it
under and it is not a refusal. -/
def afterDetect (epoch : Option (List String)) (head : String) (v : MaskVerdict) : FilterPc :=
  match epoch with
  | some e => if v.action ≠ .block then .keep e head v else .piece epoch
  | none => .piece none

/-- One step of the pool, of a request, or of the cache giving up an entry. -/
def filterStep (sem : RuleSemantics R) (s : FilterWorld R) :
    FilterAct R → Option (FilterWorld R)
  | .child i e => do
    let c ← s.children[i]?
    let c' ← childStep sem c e
    some { s with children := s.children.set i c' }
  | .request scope detectorVer =>
    some { s with requests := s.requests ++ [⟨scope, detectorVer, .collect 0 []⟩] }
  | .collect j => do
    let q ← s.requests[j]?
    match q.pc with
    | .collect worker tokens =>
      match s.children[worker]? with
      | none => some (s.setPc j q (.piece (composite tokens)))
      | some w =>
        match collectToken tokens w with
        | none => some (s.setPc j q (.piece none))
        | some tokens' => some (s.setPc j q (.collect (worker + 1) tokens'))
    | _ => none
  | .lookup j head => do
    let q ← s.requests[j]?
    match q.pc with
    | .piece epoch =>
      match s.cached q head epoch with
      | some v =>
        let hit : CacheHit := ⟨v, decide s.CaughtUp, s.presentVerdicts sem head⟩
        some { s with hits := hit :: s.hits }
      | none => some (s.setPc j q (.detect epoch head))
    | _ => none
  | .detect j i => do
    let q ← s.requests[j]?
    let c ← s.children[i]?
    match q.pc with
    | .detect epoch head =>
      -- a degraded child fails open, which is the next action
      if c.degraded then none
      else some (s.setPc j q (afterDetect epoch head (sem.verdict c.rules head)))
    | _ => none
  | .degraded j => do
    let q ← s.requests[j]?
    match q.pc with
    | .detect epoch _ => some (s.setPc j q (.piece epoch))
    | _ => none
  | .keep j => do
    let q ← s.requests[j]?
    match q.pc with
    | .keep epoch head v =>
      some { s.setPc j q (.piece (some epoch)) with
        cache := s.cache.insert (q.cacheKey epoch head) v }
    | _ => none
  | .evict key => some { s with cache := s.cache.erase key }

end AikeyProxy.Proxy
