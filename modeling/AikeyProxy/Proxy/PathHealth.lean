import AikeyProxy.Lib.Table
import AikeyProxy.Lib.Run

/-!
# Provider-path health

A circuit breaker for outbound paths. A path without an entry is healthy. The first transport
failure makes it suspect, the second opens it; from either state one request at a time may go out as
the probe, on an open path only once its back-off is over. Any HTTP response closes the breaker.
Times are nanoseconds.
-/

namespace AikeyProxy.Proxy

open Lib

inductive PathState where
  | suspect
  | halfOpen
  | opened
  deriving DecidableEq

inductive PathFailure where
  | transport
  | egressDial
  deriving DecidableEq

def second : Int := 1000000000

def pathRetryBackoff : List Int := [second, 2 * second, 4 * second, 8 * second, 10 * second]

/-- The non-secret identity of one outbound route. -/
structure ProviderPath where
  key : String
  provider : String
  protocol : String
  transport : String
  originFingerprint : String
  egressFingerprint : String
  deriving DecidableEq

structure ProviderPathHealth where
  pathID : String
  provider : String
  protocol : String
  transport : String
  originFingerprint : String
  egressFingerprint : String
  state : PathState
  failureClass : PathFailure
  consecutiveFailures : Nat
  retryAfterSeconds : Int

structure ProviderPathPermit where
  allowed : Bool
  probe : Bool
  retryAfter : Int
  health : Option ProviderPathHealth

structure ProviderPathEntry where
  path : ProviderPath
  state : PathState
  failureClass : PathFailure
  failures : Nat
  nextProbeAt : Int
  probeInFlight : Bool

structure ProviderPathHealthManager where
  entries : Table String ProviderPathEntry

def newProviderPathHealthManager : ProviderPathHealthManager := ⟨∅⟩

def pathBackoff (failures : Nat) : Int :=
  if failures < 2 then 0 else pathRetryBackoff.getD (min (failures - 2) 4) 0

def durationSecondsCeil (d : Int) : Int := if d ≤ 0 then 0 else (d + second - 1) / second

section

-- The short hash a path is named by in logs.
variable (shortHash : String → String)

def ProviderPathEntry.healthLocked (e : ProviderPathEntry) (now : Int) : ProviderPathHealth where
  pathID := shortHash e.path.key
  provider := e.path.provider
  protocol := e.path.protocol
  transport := e.path.transport
  originFingerprint := e.path.originFingerprint
  egressFingerprint := e.path.egressFingerprint
  state := e.state
  failureClass := e.failureClass
  consecutiveFailures := e.failures
  retryAfterSeconds := durationSecondsCeil (e.nextProbeAt - now)

def ProviderPathEntry.mayProbe (e : ProviderPathEntry) (now : Int) : Bool :=
  match e.state with
  | .suspect => !e.probeInFlight
  | .opened => !e.probeInFlight && decide (e.nextProbeAt ≤ now)
  | .halfOpen => false

/-- `Permit`. The health of a path without an entry is the zero value. -/
def ProviderPathHealthManager.permit (m : ProviderPathHealthManager) (now : Int)
    (path : ProviderPath) : ProviderPathHealthManager × ProviderPathPermit :=
  if path.key = "" then (m, ⟨true, false, 0, none⟩)
  else
    match m.entries.lookup path.key with
    | none => (m, ⟨true, false, 0, none⟩)
    | some e =>
      if e.mayProbe now then
        let e' := { e with state := .halfOpen, probeInFlight := true }
        (⟨m.entries.insert path.key e'⟩, ⟨true, true, 0, some (e'.healthLocked shortHash now)⟩)
      else
        (m, ⟨false, false, max (e.nextProbeAt - now) second, some (e.healthLocked shortHash now)⟩)

end

def ProviderPathEntry.fail (old : Option ProviderPathEntry) (now : Int) (path : ProviderPath)
    (failureClass : PathFailure) : ProviderPathEntry :=
  let failures := (old.map ProviderPathEntry.failures).getD 0 + 1
  { path := path, failureClass := failureClass, failures := failures, probeInFlight := false
    state := if failures = 1 then .suspect else .opened
    nextProbeAt := if failures = 1 then now else now + pathBackoff failures }

variable (m : ProviderPathHealthManager)

def ProviderPathHealthManager.noteTransportFailure (now : Int)
    (path : ProviderPath) (failureClass : PathFailure) : ProviderPathHealthManager :=
  if path.key = "" then m
  else
    ⟨m.entries.insert path.key
      (ProviderPathEntry.fail (m.entries.lookup path.key) now path failureClass)⟩

def ProviderPathHealthManager.noteHTTPResponse (path : ProviderPath) : ProviderPathHealthManager :=
  if path.key = "" then m else ⟨m.entries.erase path.key⟩

def ProviderPathHealthManager.noteProbeCanceled (now : Int)
    (path : ProviderPath) : ProviderPathHealthManager :=
  if path.key = "" then m
  else
    match m.entries.lookup path.key with
    | none => m
    | some e =>
      if e.state = .halfOpen then
        ⟨m.entries.insert path.key
          { e with state := .opened, probeInFlight := false, nextProbeAt := now }⟩
      else m

def ProviderPathHealthManager.notifyInputsChanged (now : Int) : ProviderPathHealthManager :=
  ⟨mapEntries (fun _ e => { e with state := .opened, probeInFlight := false, nextProbeAt := now })
    m.entries⟩

/-! ## Requests -/

inductive PathOutcome where
  | transportFailure (failureClass : PathFailure)
  | httpResponse
  | probeCanceled
  deriving DecidableEq

def ProviderPathHealthManager.note (now : Int)
    (path : ProviderPath) : PathOutcome → ProviderPathHealthManager
  | .transportFailure failureClass => m.noteTransportFailure now path failureClass
  | .httpResponse => m.noteHTTPResponse path
  | .probeCanceled => m.noteProbeCanceled now path

structure PathFlight where
  path : ProviderPath
  probeOf : Option PathState
  reported : Bool

def PathFlight.outstanding (f : PathFlight) : Bool := f.probeOf.isSome && !f.reported

structure PathWorld where
  manager : ProviderPathHealthManager
  now : Int
  flights : List PathFlight

def PathWorld.init : PathWorld := ⟨newProviderPathHealthManager, 0, []⟩

def PathWorld.probesOut (w : PathWorld) (key : String) : Nat :=
  w.flights.countP fun f => f.outstanding && decide (f.path.key = key)

inductive PathAct where
  | wait (d : Nat)
  /-- A new request asks for a path; if it is refused it does not use it. -/
  | permit (path : ProviderPath)
  /-- The request let out as number `i` reports, perhaps more than once: an attempt whose outcome
  was reported still ends with `NoteProbeCanceled`. -/
  | report (i : Nat) (outcome : PathOutcome)
  | inputsChanged
  deriving DecidableEq

def PathWorld.probeState (w : PathWorld) (path : ProviderPath) : Option PathState :=
  (w.manager.entries.lookup path.key).map ProviderPathEntry.state

def pathStep (shortHash : String → String) (w : PathWorld) : PathAct → Option PathWorld
  | .wait d => some { w with now := w.now + d }
  | .permit path =>
    let answer := w.manager.permit shortHash w.now path
    if answer.2.allowed then
      some { w with
        manager := answer.1
        flights := w.flights ++
          [⟨path, if answer.2.probe then w.probeState path else none, false⟩] }
    else some w
  | .report i outcome =>
    match w.flights[i]? with
    | none => none
    | some f =>
      some { w with
        manager := w.manager.note w.now f.path outcome
        flights := w.flights.set i { f with reported := true } }
  | .inputsChanged => some { w with manager := w.manager.notifyInputsChanged w.now }

end AikeyProxy.Proxy
