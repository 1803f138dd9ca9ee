import Mathlib.Logic.Function.Basic

/-!
# Draining a generation

A request loads the active generation, enters it by raising `inflight`, and leaves by lowering it. A
reload swaps the active generation and drains the old one: it sets `draining` and waits for
`drained`, which is closed by the drain itself if nothing is in flight, and otherwise by the request
that brings the count to zero. Then the generation's resources are closed.

Every atomic access is a step of its own. There is no step for a drain timeout.
-/

namespace AikeyProxy.Supervisor

inductive ReqPc where
  /-- It has loaded the generation and is about to raise the count. -/
  | loaded (g : Nat)
  | serving (g : Nat)
  /-- Its decrement returned zero; it is about to read `draining`. -/
  | zeroed (g : Nat)
  /-- It saw `draining` and is about to check `drained`. -/
  | selecting (g : Nat)
  /-- It found `drained` open and is about to close it. -/
  | closing (g : Nat)
  | done
  deriving DecidableEq

inductive DrainPc where
  | none
  | requested
  /-- `draining` is set; the count is about to be read. -/
  | flagged
  | selecting
  | closing
  | waiting
  /-- `close` has released the generation's resources. -/
  | closed
  deriving DecidableEq

structure DrainGen where
  inflight : Int := 0
  draining : Bool := false
  /-- How often the channel `drained` was closed; a second time panics. -/
  closes : Nat := 0
  drain : DrainPc := .none

structure DrainWorld where
  active : Nat := 0
  gens : Nat → DrainGen := fun _ => {}
  requests : List ReqPc := []

def DrainWorld.update (s : DrainWorld) (g : Nat) (f : DrainGen → DrainGen) : DrainWorld :=
  { s with gens := Function.update s.gens g (f (s.gens g)) }

def DrainWorld.move (s : DrainWorld) (i : Nat) (pc : ReqPc) : DrainWorld :=
  { s with requests := s.requests.set i pc }

def DrainGen.add (n : Int) (gen : DrainGen) : DrainGen := { gen with inflight := gen.inflight + n }

def DrainGen.closeDrained (gen : DrainGen) : DrainGen := { gen with closes := gen.closes + 1 }

def DrainGen.goto (pc : DrainPc) (gen : DrainGen) : DrainGen := { gen with drain := pc }

inductive DrainAct where
  | load
  | enter (i : Nat)
  | leave (i : Nat)
  | readDraining (i : Nat)
  | select (i : Nat)
  | closeDrained (i : Nat)
  | swap
  | drainFlag (g : Nat)
  | drainRead (g : Nat)
  | drainSelect (g : Nat)
  | drainClose (g : Nat)
  /-- The drain sees `drained` closed and closes the resources. -/
  | drainDone (g : Nat)

def drainStep (s : DrainWorld) : DrainAct → Option DrainWorld
  | .load => some { s with requests := s.requests ++ [.loaded s.active] }
  | .enter i =>
    match s.requests[i]? with
    | some (.loaded g) => some ((s.update g (.add 1)).move i (.serving g))
    | _ => none
  | .leave i =>
    match s.requests[i]? with
    | some (.serving g) =>
      some ((s.update g (.add (-1))).move i
        (if (s.gens g).inflight + -1 = 0 then .zeroed g else .done))
    | _ => none
  | .readDraining i =>
    match s.requests[i]? with
    | some (.zeroed g) => some (s.move i (if (s.gens g).draining then .selecting g else .done))
    | _ => none
  | .select i =>
    match s.requests[i]? with
    | some (.selecting g) =>
      some (s.move i (if (s.gens g).closes = 0 then .closing g else .done))
    | _ => none
  | .closeDrained i =>
    match s.requests[i]? with
    | some (.closing g) => some ((s.update g .closeDrained).move i .done)
    | _ => none
  | .swap => some ({ s with active := s.active + 1 }.update s.active (.goto .requested))
  | .drainFlag g =>
    if (s.gens g).drain = .requested then
      some (s.update g fun gen => { gen with draining := true, drain := .flagged })
    else none
  | .drainRead g =>
    if (s.gens g).drain = .flagged then
      some (s.update g (.goto (if (s.gens g).inflight = 0 then .selecting else .waiting)))
    else none
  | .drainSelect g =>
    if (s.gens g).drain = .selecting then
      some (s.update g (.goto (if (s.gens g).closes = 0 then .closing else .waiting)))
    else none
  | .drainClose g =>
    if (s.gens g).drain = .closing then
      some (s.update g fun gen => gen.closeDrained.goto .waiting)
    else none
  | .drainDone g =>
    if (s.gens g).drain = .waiting ∧ 0 < (s.gens g).closes then some (s.update g (.goto .closed))
    else none

end AikeyProxy.Supervisor
