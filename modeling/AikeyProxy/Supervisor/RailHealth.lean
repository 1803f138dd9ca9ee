import Mathlib.Data.List.Induction

/-!
# The health of a sync rail

A rail pulls from the control plane once a cycle and keeps a visibility state: `observe` changes it
at the third and at the twentieth consecutive failure, on a success and on a terminal refusal. A
refused rail skips its cycles but for one in sixty.
-/

namespace AikeyProxy.Supervisor

inductive RailState where
  | init | ok | stale | offline | needsReauth
  deriving DecidableEq

/-- An error of a cycle: one that wraps `errRailCredentialRevoked`, or any other. -/
inductive RailError where
  | revoked | transient
  deriving DecidableEq

structure RailRunner where
  state : RailState := .init
  failures : Nat := 0
  terminalSkips : Nat := 0
  deriving DecidableEq

def railStaleAfterFailures : Nat := 3

def railOfflineAfterFailures : Nat := 20

def terminalReprobeEveryCycles : Nat := 60

namespace RailRunner

def isTerminal (r : RailRunner) : RailRunner × Bool :=
  if r.state ≠ .needsReauth then (r, false)
  else if terminalReprobeEveryCycles ≤ r.terminalSkips + 1 then ({ r with terminalSkips := 0 }, false)
  else ({ r with terminalSkips := r.terminalSkips + 1 }, true)

def observe (r : RailRunner) : Option RailError → RailRunner
  | none => ⟨.ok, 0, 0⟩
  | some .revoked => { r with failures := r.failures + 1, state := .needsReauth }
  | some .transient =>
    let r := { r with failures := r.failures + 1 }
    if r.failures = railStaleAfterFailures then { r with state := .stale }
    else if r.failures = railOfflineAfterFailures then { r with state := .offline }
    else r

end RailRunner

/-- Nothing to do (no generation yet, or a closed gate), or the error, if any, of the control URL,
the credential or the pull. -/
inductive RailCycle where
  | idle
  | outcome (err : Option RailError)

def RailRunner.cycle (r : RailRunner) (c : RailCycle) : RailRunner × Option (Option RailError) :=
  match r.isTerminal, c with
  | (r, true), _ => (r, none)
  | (r, false), .idle => (r, none)
  | (r, false), .outcome err => (r.observe err, some err)

/-- The runner after the cycles, and the outcomes of those attempted, newest first. -/
def railAfter (cycles : List RailCycle) : RailRunner × List (Option RailError) :=
  cycles.foldl (fun p c => ((p.1.cycle c).1, (p.1.cycle c).2.toList ++ p.2)) ({}, [])

end AikeyProxy.Supervisor
