import AikeyProxy.AppHook.ChildHook
import Mathlib.Algebra.Group.Nat.Defs

/-!
# The pool of filter children

A pick of `FilterPool` takes the next number from a shared cursor and scans the workers from there:
the first one whose health bit is set gets the content, the others it comes across are nudged to
recover, and if none is fit the content goes to the worker the scan began at. Picks run concurrently
with each other and with the hooks.
-/

namespace AikeyProxy.AppHook

/-- Where a pick stands. The number is its value of the cursor, `off` the place in the scan. -/
inductive PickPc where
  | start
  | scan (number off : Nat) (fallback : Option Nat)
  | nudge (number off : Nat) (fallback : Option Nat)
  | nudgeDue (number off : Nat) (fallback : Option Nat)
  | returned
  deriving DecidableEq

/-- A pick; `seen` records the workers that were degraded at some moment since it began. -/
structure Pick where
  pc : PickPc
  seen : List Nat

/-- A piece of content handed to a worker, with the worker's flag at that moment. -/
structure Handover where
  number : Nat
  worker : Nat
  flagged : Bool
  seen : List Nat

/-- The pool. `handed` records what was handed over, `nudged` which pick nudged which
worker. -/
structure PoolWorld where
  workers : List HookWorld
  next : Nat
  picks : List Pick
  handed : List Handover
  nudged : List (Nat × Nat)

def PoolWorld.init (n : Nat) (now : Int) : PoolWorld :=
  ⟨List.replicate n (.init now), 0, [], [], []⟩

variable (s : PoolWorld)

def PoolWorld.degradedAt (w : Nat) : Bool :=
  match s.workers[w]? with
  | some h => h.degraded
  | none => false

def PoolWorld.eligibleAt (w : Nat) : Bool :=
  match s.workers[w]? with
  | some h => h.eligibleForDispatch
  | none => false

def PoolWorld.recoverDueAt (w : Nat) : Bool :=
  match s.workers[w]? with
  | some h => h.recoverDue
  | none => false

def cursorSize : Nat := 2 ^ 64

def PoolWorld.index (number off : Nat) : Nat :=
  (number + off) % cursorSize % s.workers.length

def PoolWorld.forkAt (w : Nat) (pcs : List HookPc) : PoolWorld :=
  { s with workers := s.workers.modify w fun h => h.fork pcs }

def PoolWorld.setPick (k : Nat) (p : Pick) : PoolWorld :=
  { s with picks := s.picks.set k p }

/-- `pick` returns and `Detect` begins on the worker. -/
def PoolWorld.hand (k : Nat) (p : Pick) (number w : Nat) : PoolWorld :=
  { (s.setPick k { p with pc := .returned }).forkAt w [.enter .detect] with
    handed := s.handed ++ [⟨number, w, s.degradedAt w, p.seen⟩] }

/-- One step of `pick`; `nudgeRecover` is two looks at the worker. -/
def PoolWorld.pickStep (k : Nat) (p : Pick) : Option PoolWorld :=
  match p.pc with
  | .start =>
    if s.workers.length = 1 then some (s.hand k p s.next 0)
    else
      let number := (s.next + 1) % cursorSize
      some { s.setPick k { p with pc := .scan number 0 none } with next := number }
  | .scan number off fallback =>
    if off < s.workers.length then
      let w := s.index number off
      if s.eligibleAt w then some (s.hand k p number w)
      else some (s.setPick k { p with pc := .nudge number off (fallback.or (some w)) })
    else
      match fallback with
      | some w => some (s.hand k p number w)
      | none => none
  | .nudge number off fallback =>
    let w := s.index number off
    if s.degradedAt w then
      some { s.setPick k { p with pc := .nudgeDue number off fallback } with
        nudged := s.nudged ++ [(number, w)] }
    else some (s.setPick k { p with pc := .scan number (off + 1) fallback })
  | .nudgeDue number off fallback =>
    let w := s.index number off
    let s' := s.setPick k { p with pc := .scan number (off + 1) fallback }
    if s.recoverDueAt w then some (s'.forkAt w [.recover]) else some s'
  | .returned => none

inductive PoolAct where
  | detect
  | pick (k : Nat)
  | hook (w : Nat) (a : HookAct)

/-- Note for every pick under way which workers are degraded now. -/
def PoolWorld.observe : PoolWorld :=
  { s with
    picks := s.picks.map fun p =>
      if p.pc = .returned then p
      else { p with seen := p.seen ++ (List.range s.workers.length).filter s.degradedAt } }

def PoolWorld.act : PoolAct → Option PoolWorld
  | .detect => some { s with picks := s.picks ++ [⟨.start, []⟩] }
  | .pick k =>
    match s.picks[k]? with
    | some p => s.pickStep k p
    | none => none
  | .hook w a =>
    match s.workers[w]? with
    | some h => (hookStep h a).map fun h' => { s with workers := s.workers.set w h' }
    | none => none

def poolStep (a : PoolAct) : Option PoolWorld := (s.act a).map PoolWorld.observe

end AikeyProxy.AppHook
