import AikeyProxy.Lib.Run
import AikeyProxy.Lib.Region
import AikeyProxy.Lib.BufWriter
import Mathlib.Algebra.Group.Nat.Defs

/-!
# One generation's stdin channel

A `pipeSession` is the buffered writer on the child's stdin, the pipe behind it and a permit of one
slot. A frame is written on a goroutine of its own: a caller whose deadline expires marks the
session broken, closes the pipe and walks away, and the goroutine keeps the permit until the write
is over. A restart closes the pipe without the mark; `Shutdown` takes the permit only if it is free.
-/

namespace AikeyProxy.AppHook

open Lib

def maxUint32 : Nat := 2 ^ 32 - 1

def sessionBufferSize : Nat := 64 * 1024

inductive WriteError where
  | payloadTooLarge
  | errWriteTimeout
  | writeFailed

/-- Where the caller of `ChildHook.writeFrame` stands. `retire` and `close` are what it does
after a timeout. -/
inductive CallerPc where
  | check
  | acquire
  | recheck
  | wait
  | retire
  | close
  | returned (err : Option WriteError)

/-- The goroutine of a frame write; `finished` is what it sent on its channel. -/
inductive WorkerPc where
  | absent
  | writing (pc : BufPc UInt8)
  | finished (err : Bool)

inductive ShutdownPc where
  | start
  | flushing (pc : BufPc UInt8)
  | close
  | done

inductive SessionProc where
  | call (payload : List UInt8) (caller : CallerPc) (worker : WorkerPc)
  | shutdown (pc : ShutdownPc)

/-- `inPipe` is what the child has not read, `received` what it has; `begun` records the payloads
whose write began. -/
structure PipeWorld where
  w : BufWriter UInt8
  closed : Bool
  writeSlot : Bool
  broken : Bool
  procs : List SessionProc
  inPipe : List UInt8
  received : List UInt8
  begun : List (List UInt8)

def PipeWorld.init : PipeWorld where
  w := ⟨sessionBufferSize, [], false⟩
  closed := false
  writeSlot := false
  broken := false
  procs := []
  inPipe := []
  received := []
  begun := []

def PipeWorld.sent (s : PipeWorld) : List UInt8 := s.received ++ s.inPipe

def PipeWorld.setProc (s : PipeWorld) (i : Nat) (p : SessionProc) : PipeWorld :=
  { s with procs := s.procs.set i p }

inductive PipeAct where
  /-- A frame write, and a `Shutdown` that swapped this session out. -/
  | call (payload : List UInt8)
  | shutdown
  | restart
  /-- The next step of a caller; `ctxDone` says that its context's branch is taken. -/
  | caller (i : Nat) (ctxDone : Bool)
  | worker (i : Nat) (ev : BufWriter.Event)
  | shutdownStep (i : Nat) (ev : BufWriter.Event)
  | childReads (k : Nat)

section
-- the frame of a payload, from the shared wire package
variable (encodeFrame : List UInt8 → List UInt8)

/-- `pipeSession.writeFrame` and the rest of `ChildHook.writeFrame`, without the goroutine. -/
def PipeWorld.callerStep (s : PipeWorld) (i : Nat) (payload : List UInt8) (worker : WorkerPc)
    (ctxDone : Bool) : CallerPc → Option PipeWorld
  | .check =>
    if maxUint32 < payload.length then
      some (s.setProc i (.call payload (.returned (some .payloadTooLarge)) worker))
    else if s.broken then some (s.setProc i (.call payload .retire worker))
    else some (s.setProc i (.call payload .acquire worker))
  | .acquire =>
    if ctxDone then some (s.setProc i (.call payload .retire worker))
    else if s.writeSlot then none
    else some { s.setProc i (.call payload .recheck worker) with writeSlot := true }
  | .recheck =>
    if s.broken then some { s.setProc i (.call payload .retire worker) with writeSlot := false }
    else
      some { s.setProc i (.call payload .wait (.writing (.write (encodeFrame payload)))) with
        begun := s.begun ++ [payload] }
  | .wait =>
    if ctxDone then some (s.setProc i (.call payload .retire worker))
    else
      match worker with
      | .finished false => some (s.setProc i (.call payload (.returned none) worker))
      | .finished true => some (s.setProc i (.call payload (.returned (some .writeFailed)) worker))
      | _ => none
  | .retire => some { s.setProc i (.call payload .close worker) with broken := true }
  | .close =>
    some { s.setProc i (.call payload (.returned (some .errWriteTimeout)) worker) with
      closed := true }
  | .returned _ => none

def PipeWorld.writerStep (s : PipeWorld) (i : Nat) (pc : BufPc UInt8) (ev : BufWriter.Event)
    (resume : BufPc UInt8 → SessionProc) : Option PipeWorld :=
  match s.w.step (!s.closed) pc ev with
  | none => none
  | some ((w, pc'), out) =>
    some { s.setProc i (resume pc') with w := w, inPipe := s.inPipe ++ out }

/-- The goroutine: it gives the permit back when the write is over. -/
def PipeWorld.workerStep (s : PipeWorld) (i : Nat) (payload : List UInt8) (caller : CallerPc)
    (ev : BufWriter.Event) : WorkerPc → Option PipeWorld
  | .writing (.returned err) =>
    some { s.setProc i (.call payload caller (.finished err)) with writeSlot := false }
  | .writing pc => s.writerStep i pc ev fun pc' => .call payload caller (.writing pc')
  | _ => none

def PipeWorld.shutdownStep (s : PipeWorld) (i : Nat) (ev : BufWriter.Event) :
    ShutdownPc → Option PipeWorld
  | .start =>
    if s.writeSlot then some (s.setProc i (.shutdown .close))
    else some { s.setProc i (.shutdown (.flushing .flush)) with writeSlot := true }
  | .flushing (.returned _) =>
    some { s.setProc i (.shutdown .close) with writeSlot := false }
  | .flushing pc => s.writerStep i pc ev fun pc' => .shutdown (.flushing pc')
  | .close => some { s.setProc i (.shutdown .done) with closed := true }
  | .done => none

def pipeStep (s : PipeWorld) : PipeAct → Option PipeWorld
  | .call payload => some { s with procs := s.procs ++ [.call payload .check .absent] }
  | .shutdown => some { s with procs := s.procs ++ [.shutdown .start] }
  | .restart => some { s with closed := true }
  | .caller i ctxDone =>
    match s.procs[i]? with
    | some (.call payload caller worker) => s.callerStep encodeFrame i payload worker ctxDone caller
    | _ => none
  | .worker i ev =>
    match s.procs[i]? with
    | some (.call payload caller worker) => s.workerStep i payload caller ev worker
    | _ => none
  | .shutdownStep i ev =>
    match s.procs[i]? with
    | some (.shutdown pc) => s.shutdownStep i ev pc
    | _ => none
  | .childReads k =>
    some { s with received := s.received ++ s.inPipe.take k, inPipe := s.inPipe.drop k }

end

end AikeyProxy.AppHook
