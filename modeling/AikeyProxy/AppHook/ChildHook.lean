import AikeyProxy.Lib.Run
import AikeyProxy.Lib.Region

/-!
# A child process behind a hook

A hook hands requests to a child process it spawned. Whether the child is usable is written down
twice: in the `degraded` flag, which calls look at, and in the health bit of the published status,
which dispatch looks at. A call that finds the flag set starts the self-heal, which restarts the
child under the hook's mutex; `Shutdown` stops the child under the same mutex. Every access to a
shared field is a step of its own.
-/

namespace AikeyProxy.AppHook

/-! ## Status and results -/

structure HookStatus where
  healthy : Bool
  degradedReason : String

def degradeReasonWriteTimeout : String := "write_timeout"

def degradeReasonNotStarted : String := "not_started"

def degradeReasonRestarting : String := "restarting"

/-- What goes through `roundtrip`: a detection, the content poll, an operator's question. -/
inductive HookCall where
  | detect
  | poll
  | listPacks
  deriving DecidableEq

inductive CallResult where
  | answered
  | passed (reason : String)
  | packsUnavailable
  | packsFailed (err : String)
  deriving DecidableEq

def errStdinClosed : String := "apphook: stdin closed"

def errWriteTimeout : String :=
  "apphook: write to child timed out (pipe wedged — child alive but not reading)"

/-- Time between two attempts of the self-heal, in nanoseconds. -/
def recoverCooldown : Int := 2000000000

/-! ## Goroutines -/

inductive HookPc where
  /-- The content poll: between ticks, and at its own look at the flag. -/
  | pollLoop
  | refresh
  /-- `roundtrip`, from its look at the flag to the response. -/
  | enter (c : HookCall)
  | nudge (next : HookPc)
  | nudgeDue (next : HookPc)
  | loadSession (c : HookCall)
  | writing (c : HookCall)
  | waiting (c : HookCall)
  | answered (c : HookCall) (empty : Bool)
  | failed (c : HookCall) (err : String) (timeout : Bool)
  /-- `markDegraded`: first the flag, then the status. -/
  | mark (reason : String) (next : HookPc)
  | markStatus (reason : String) (next : HookPc)
  | reading (gen : Nat)
  | readFailed (gen : Nat) (err : String)
  | recover
  | recoverLoad (now : Int)
  | recoverCas (now last : Int)
  | restartLock
  | retire
  | dropSession
  | restarting
  | spawn
  | awaitReady (p : Nat)
  | install (p : Nat)
  | openSession
  | clearFlag
  | publish
  | unlock
  | stopPoll
  | shutdownLock
  | closing
  | closeSession
  | awaitExit
  | forget
  | shutdownReturn
  | returned (r : CallResult)
  | done
  deriving DecidableEq

/-- What is outside the hook's control at a step. -/
inductive HookEvent where
  | go
  | tick
  | stop
  | wrote
  | writeTimedOut
  | writeFailed (err : String)
  | answer (empty : Bool)
  | ctxDone (err : String)
  | readError (err : String)
  | notInstalled (err : String)
  | pipeSetupFailed
  | startFailed (err : String)
  | started
  | ready
  | readyTimeout
  | canceled
  | exited
  | killTimeout
  | ctxKill
  deriving DecidableEq

/-- A hook with its goroutines. `running` are the processes that are alive; `down` records
that a `Shutdown` has returned without error. -/
structure HookWorld where
  degraded : Bool
  status : HookStatus
  cmd : Option Nat
  running : List Nat
  nextProc : Nat
  gen : Nat
  session : Option Nat
  lastRecoverAt : Int
  clock : Int
  mu : Bool
  pollStarted : Bool
  pollStopped : Bool
  threads : List HookPc
  down : Bool

/-- `NewChildHook`, with `Start` at work: it has the mutex and is about to spawn. -/
def HookWorld.init (now : Int) : HookWorld where
  degraded := true
  status := ⟨false, degradeReasonNotStarted⟩
  cmd := none
  running := []
  nextProc := 0
  gen := 0
  session := none
  lastRecoverAt := 0
  clock := now
  mu := true
  pollStarted := false
  pollStopped := false
  threads := [.spawn]
  down := false

variable (s : HookWorld)

def HookWorld.setThread (i : Nat) (pc : HookPc) : HookWorld :=
  { s with threads := s.threads.set i pc }

def HookWorld.fork (pcs : List HookPc) : HookWorld :=
  { s with threads := s.threads ++ pcs }

def HookWorld.reap (p : Nat) : HookWorld :=
  { s with running := s.running.filter fun q => decide (q ≠ p) }

def HookWorld.recoverDue : Bool := decide (recoverCooldown ≤ s.clock - s.lastRecoverAt)

def HookWorld.eligibleForDispatch : Bool := s.status.healthy

/-! ## Calls -/

def HookCall.degradedResult : HookCall → HookPc
  | .detect => .returned (.passed "child degraded")
  | .listPacks => .returned .packsUnavailable
  | .poll => .pollLoop

def HookCall.failedResult (err : String) : HookCall → HookPc
  | .detect => .returned (.passed ("child detect failed: " ++ err))
  | .listPacks => .returned (.packsFailed err)
  | .poll => .pollLoop

/-- A child that does not know the operator's question answers it with an empty report. -/
def HookCall.answeredResult (empty : Bool) : HookCall → HookPc
  | .detect => .returned .answered
  | .listPacks => .returned (if empty then .packsUnavailable else .answered)
  | .poll => .pollLoop

/-- `roundtrip` and what its callers do with the outcome. -/
def HookWorld.callStep (i : Nat) : HookPc → HookEvent → Option HookWorld
  | .pollLoop, .tick => some (s.setThread i .refresh)
  | .pollLoop, .stop => if s.pollStopped then some (s.setThread i .done) else none
  | .refresh, .go =>
    if s.degraded then some (s.setThread i .pollLoop) else some (s.setThread i (.enter .poll))
  | .enter c, .go =>
    if s.degraded then some (s.setThread i (.nudge c.degradedResult))
    else some (s.setThread i (.loadSession c))
  | .nudge next, .go =>
    if s.degraded then some (s.setThread i (.nudgeDue next)) else some (s.setThread i next)
  | .nudgeDue next, .go =>
    if s.recoverDue then some ((s.setThread i next).fork [.recover]) else some (s.setThread i next)
  | .loadSession c, .go =>
    match s.session with
    | none =>
      some (s.setThread i (.mark "write_failed: stdin closed" (.failed c errStdinClosed false)))
    | some _ => some (s.setThread i (.writing c))
  | .writing c, .wrote => some (s.setThread i (.waiting c))
  | .writing c, .writeTimedOut =>
    some (s.setThread i (.mark degradeReasonWriteTimeout (.failed c errWriteTimeout true)))
  | .writing c, .writeFailed err =>
    some (s.setThread i (.mark ("write_failed: " ++ err) (.failed c err false)))
  | .waiting c, .answer empty => some (s.setThread i (.answered c empty))
  | .waiting c, .ctxDone err => some (s.setThread i (.failed c err false))
  | .answered c empty, .go =>
    -- only a detection publishes that the child is healthy
    match c with
    | .detect => some { s.setThread i (c.answeredResult empty) with status := ⟨true, ""⟩ }
    | _ => some (s.setThread i (c.answeredResult empty))
  | .failed c err timeout, .go =>
    if c = .listPacks ∧ timeout = false then
      some (s.setThread i (.mark ("listpacks_failed: " ++ err) (c.failedResult err)))
    else some (s.setThread i (c.failedResult err))
  | .mark reason next, .go => some { s.setThread i (.markStatus reason next) with degraded := true }
  | .markStatus reason next, .go =>
    some { s.setThread i next with status := ⟨false, reason⟩ }
  | .reading g, .readError err => some (s.setThread i (.readFailed g err))
  | .readFailed g err, .go =>
    if s.gen = g then some (s.setThread i (.mark ("read_failed: " ++ err) .done))
    else some (s.setThread i .done)
  | _, _ => none

/-! ## Self-heal -/

/-- `lazyRecover` and `restart`, up to the spawn. -/
def HookWorld.recoverStep (i : Nat) : HookPc → HookEvent → Option HookWorld
  | .recover, .go => some (s.setThread i (.recoverLoad s.clock))
  | .recoverLoad now, .go =>
    if now - s.lastRecoverAt < recoverCooldown then some (s.setThread i .done)
    else some (s.setThread i (.recoverCas now s.lastRecoverAt))
  | .recoverCas now last, .go =>
    if s.lastRecoverAt = last then some { s.setThread i .restartLock with lastRecoverAt := now }
    else some (s.setThread i .done)
  | .restartLock, .go => if s.mu then none else some { s.setThread i .retire with mu := true }
  | .retire, .go =>
    match s.cmd with
    | some p => some { (s.reap p).setThread i .dropSession with cmd := none }
    | none => some (s.setThread i .dropSession)
  | .dropSession, .go => some { s.setThread i .restarting with session := none }
  | .restarting, .go => some { s.setThread i .spawn with status := ⟨false, degradeReasonRestarting⟩ }
  | _, _ => none

/-- `spawnLocked`. The first publication also starts the content poll. -/
def HookWorld.spawnStep (i : Nat) : HookPc → HookEvent → Option HookWorld
  | .spawn, .notInstalled err => some (s.setThread i (.mark ("not_installed: " ++ err) .unlock))
  | .spawn, .pipeSetupFailed => some (s.setThread i (.mark "pipe_setup_failed" .unlock))
  | .spawn, .startFailed err => some (s.setThread i (.mark ("spawn_failed: " ++ err) .unlock))
  | .spawn, .started =>
    some { s.setThread i (.awaitReady s.nextProc) with
      running := s.nextProc :: s.running
      nextProc := s.nextProc + 1 }
  | .awaitReady p, .ready => some (s.setThread i (.install p))
  | .awaitReady p, .readyTimeout =>
    some ((s.reap p).setThread i (.mark "ready_timeout" .unlock))
  | .awaitReady p, .canceled =>
    some ((s.reap p).setThread i (.mark "startup_canceled" .unlock))
  | .install p, .go => some { s.setThread i .openSession with cmd := some p, gen := s.gen + 1 }
  | .openSession, .go => some { s.setThread i .clearFlag with session := some s.gen }
  | .clearFlag, .go => some { s.setThread i .publish with degraded := false }
  | .publish, .go =>
    some { (s.setThread i .unlock).fork
        (if s.pollStarted then [.reading s.gen] else [.reading s.gen, .refresh]) with
      status := ⟨true, ""⟩
      pollStarted := true }
  | .unlock, .go => some { s.setThread i .done with mu := false }
  | _, _ => none

def HookWorld.shutdownStep (i : Nat) : HookPc → HookEvent → Option HookWorld
  | .stopPoll, .go => some { s.setThread i .shutdownLock with pollStopped := true }
  | .shutdownLock, .go => if s.mu then none else some { s.setThread i .closing with mu := true }
  | .closing, .go =>
    match s.cmd with
    | none => some (s.setThread i .shutdownReturn)
    | some _ => some { s.setThread i .closeSession with gen := s.gen + 1 }
  | .closeSession, .go => some { s.setThread i .awaitExit with session := none }
  | .awaitExit, .exited =>
    match s.cmd with
    | none => none
    | some p => if p ∈ s.running then none else some (s.setThread i .forget)
  | .awaitExit, .killTimeout =>
    match s.cmd with
    | none => none
    | some p => some ((s.reap p).setThread i .forget)
  | .awaitExit, .ctxKill =>
    match s.cmd with
    | none => none
    | some p => some ((s.reap p).setThread i .unlock)
  | .forget, .go => some { s.setThread i (.mark "shutdown" .shutdownReturn) with cmd := none }
  | .shutdownReturn, .go => some { s.setThread i .done with mu := false, down := true }
  | _, _ => none

inductive HookAct where
  | call (c : HookCall)
  | shutdown
  | thread (i : Nat) (ev : HookEvent)
  | exit (p : Nat)
  | advance (d : Nat)

def HookWorld.threadStep (i : Nat) (pc : HookPc) (ev : HookEvent) : Option HookWorld :=
  match s.callStep i pc ev with
  | some s' => some s'
  | none =>
    match s.recoverStep i pc ev with
    | some s' => some s'
    | none =>
      match s.spawnStep i pc ev with
      | some s' => some s'
      | none => s.shutdownStep i pc ev

def hookStep : HookAct → Option HookWorld
  | .call c => some (s.fork [.enter c])
  | .shutdown => some (s.fork [.stopPoll])
  | .thread i ev =>
    match s.threads[i]? with
    | some pc => s.threadStep i pc ev
    | none => none
  | .exit p => some (s.reap p)
  | .advance d => some { s with clock := s.clock + d }

end AikeyProxy.AppHook
