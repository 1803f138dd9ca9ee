import AikeyProxy.Lib.Run

/-!
# The usage collector

`Record` puts an event into a bounded channel, or counts it as dropped when the channel is full. One
goroutine batches events and inserts a batch when it is large enough, when the ticker fires, and
once more after `Close`. An insert is one transaction that may fail at any statement, and a failure
is only logged.
-/

namespace AikeyProxy.Events

def collectorBufferSize : Nat := 10000

inductive InsertOutcome where
  | done
  | beginFails
  | prepareFails
  | execFails (i : Nat)
  | commitFails
  deriving DecidableEq

/-- Where `run` stands: in its loop, in a `flush` of the loop, in the drain after `Close`, in
the flush after that, or past its end. -/
inductive CollectorPc where
  | loop
  | flush
  | drain
  | lastFlush
  | returned
  deriving DecidableEq

/-- `recorded` are the events of all calls of `Record`; those in `dropping` are about to be counted,
those in `droppedEvents` are. -/
structure CollectorWorld (E : Type) where
  ch : List E
  batch : List E
  pc : CollectorPc
  done : Bool
  rows : List E
  dropped : Nat
  recorded : List E
  dropping : List E
  droppedEvents : List E
  deriving DecidableEq

variable {E : Type}

def CollectorWorld.init : CollectorWorld E where
  ch := []
  batch := []
  pc := .loop
  done := false
  rows := []
  dropped := 0
  recorded := []
  dropping := []
  droppedEvents := []

/-- `Insert`: all rows, or none if a statement fails and the transaction is rolled back. -/
def insertRows (rows batch : List E) : InsertOutcome → List E
  | .done => rows ++ batch
  | .beginFails | .prepareFails | .execFails _ | .commitFails => rows

inductive CollectorAct (E : Type) where
  | record (e : E)
  /-- `Record` counts an event it could not send -/
  | count
  | receive
  | tick
  | insert (outcome : InsertOutcome)
  | close
  | seeDone
  | empty

def CollectorWorld.take (batchSize : Int) (s : CollectorWorld E) : Option (CollectorWorld E) :=
  match s.ch with
  | [] => none
  | e :: rest =>
    let batch := s.batch ++ [e]
    match s.pc with
    | .loop =>
      some { s with
        ch := rest, batch, pc := if batchSize ≤ batch.length then .flush else .loop }
    | .drain => some { s with ch := rest, batch }
    | _ => none

/-- One step of the collector. The batch is given up after a flush, whatever its outcome. -/
def collectorStep (batchSize : Int) (s : CollectorWorld E) :
    CollectorAct E → Option (CollectorWorld E)
  | .record e =>
    let s := { s with recorded := s.recorded ++ [e] }
    if s.ch.length < collectorBufferSize then some { s with ch := s.ch ++ [e] }
    else some { s with dropping := s.dropping ++ [e] }
  | .count =>
    match s.dropping with
    | [] => none
    | e :: rest =>
      some { s with
        dropped := s.dropped + 1, dropping := rest, droppedEvents := s.droppedEvents ++ [e] }
  | .receive => s.take batchSize
  | .tick =>
    if s.pc = .loop then some { s with pc := if s.batch = [] then .loop else .flush } else none
  | .insert outcome =>
    match s.pc with
    | .flush => some { s with rows := insertRows s.rows s.batch outcome, batch := [], pc := .loop }
    | .lastFlush =>
      some { s with rows := insertRows s.rows s.batch outcome, batch := [], pc := .returned }
    | _ => none
  -- closing a closed channel panics
  | .close => if s.done then none else some { s with done := true }
  | .seeDone => if s.pc = .loop ∧ s.done then some { s with pc := .drain } else none
  | .empty =>
    if s.pc = .drain ∧ s.ch = [] then
      some { s with pc := if s.batch = [] then .returned else .lastFlush }
    else none

end AikeyProxy.Events
