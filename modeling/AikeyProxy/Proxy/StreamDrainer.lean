import AikeyProxy.Lib.Run
import AikeyProxy.Observer.Registry

/-!
# A streamed response and its observers

The handler of a request (`serveRouteWithObserver`) notifies the observers of the start and the end.
For a streamed response the reverse proxy copies from a pipe to the client; at its other end the
drainer (`newStreamDrainer`) reads from upstream, writes to the pipe, notifies the observers of
every frame, and records the usage once the stream is over.

A copy that fails closes the response body and panics with `http.ErrAbortHandler`; the end is
notified by the statement after the call and not by a deferred one.
-/

namespace AikeyProxy.Proxy

open Lib Observer

/-- How a stream ended: `complete`, `partial` and `interrupted`. -/
inductive Completion where
  | complete | partly | interrupted

inductive ReadErr where
  | eof | other
  deriving DecidableEq

/-- What one read from upstream brings: some bytes, and the frames they complete. -/
structure Chunk (F : Type) where
  more : Nat
  frames : List F

/-- A read that brings a chunk brings at least one byte. -/
def Chunk.bytes {F : Type} (c : Chunk F) : Nat := c.more + 1

/-- The bytes of the waiting write not taken yet, whether the reader's end is closed, and what the
writer's end was closed with. -/
structure Pipe where
  offered : Nat
  readerClosed : Bool
  writerClosed : Option ReadErr

/-- Closing the writer's end; the first close counts. -/
def Pipe.closeWriter (p : Pipe) (err : ReadErr) : Pipe :=
  { p with writerClosed := p.writerClosed.or (some err) }

/-- Where the handler stands. `failed` is a copy that failed, before the body is closed;
`aborted` is the panic. A list of channels is those still to be told. -/
inductive HandlerPc where
  | begin
  | sendStart (todo : List Nat)
  | roundTrip
  | copying
  | writing
  | failed
  | aborted
  | notifyEnd
  | sendEnd (todo : List Nat)
  | closing (i : Nat) (todo : List Nat)
  | finished
  deriving DecidableEq

inductive DrainerPc (F : Type) where
  | idle
  | top
  | read
  | write (frames : List F) (err : Option ReadErr)
  | frames (frames : List F) (err : Option ReadErr)
  | sending (frame : F) (todo : List Nat) (frames : List F) (err : Option ReadErr)
  | close (completion : Completion)
  | record (completion : Completion)
  | callback (completion : Completion)
  | done
  | panicked

/-- `upstream` is what is still to come, `fed` what the token accumulator was given, `notified` the
frames notified so far, `closedSends` counts the sends on a closed channel. -/
structure StreamWorld (F : Type) where
  observers : List ActiveObserver
  registered : Bool
  channels : List (Channel F)
  handler : HandlerPc
  drainer : DrainerPc F
  pipe : Pipe
  upstream : List (Chunk F)
  clientGone : Bool
  shuttingDown : Bool
  fed : List F
  notified : List F
  recorded : List (List F × Completion)
  completed : List Completion
  closedSends : Nat

variable {F : Type}

def StreamWorld.init (observers : List ActiveObserver) (upstream : List (Chunk F)) :
    StreamWorld F :=
  ⟨observers, false, [], .begin, .idle, ⟨0, false, none⟩, upstream, false, false, [], [], [], [], 0⟩

def StreamWorld.setChannel (s : StreamWorld F) (i : Nat) (c : Channel F) : StreamWorld F :=
  { s with channels := s.channels.set i c }

/-! ## The handler -/

inductive HandlerAct where
  | go
  | tell (i : Nat)
  | answer
  | abort
  | stream
  | readPipe (k : Nat)
  | written (ok : Bool)
  deriving DecidableEq

/-- One step of the handler: `NotifyStart`, the reverse proxy, `NotifyEnd`. The maps of
channels are gone over in any order. -/
def handlerStep (s : StreamWorld F) (a : HandlerAct) : Option (StreamWorld F) :=
  match s.handler, a with
  | .begin, .go =>
    if s.observers.isEmpty then some { s with handler := .roundTrip }
    else
      let channels := startChannels s.observers
      some { s with
        channels, registered := true, handler := .sendStart (List.range channels.length) }
  | .sendStart todo, .tell i => do
    let c ← s.channels[i]?
    if i ∉ todo then none
    else if c.closed then some { s with closedSends := s.closedSends + 1, handler := .aborted }
    -- a send that would wait, but the channel is new
    else if c.full then none
    else some { s.setChannel i (c.offer .start) with handler := .sendStart (todo.erase i) }
  | .sendStart [], .go => some { s with handler := .roundTrip }
  -- a response that is not streamed, or none at all
  | .roundTrip, .answer => some { s with handler := .notifyEnd }
  | .roundTrip, .abort => some { s with handler := .aborted }
  | .roundTrip, .stream => some { s with handler := .copying, drainer := .top }
  | .copying, .readPipe k =>
    if 0 < k ∧ k ≤ s.pipe.offered then
      some { s with handler := .writing, pipe := { s.pipe with offered := s.pipe.offered - k } }
    else none
  | .copying, .go =>
    match s.pipe.writerClosed with
    | none => none
    | some .eof =>
      some { s with handler := .notifyEnd, pipe := { s.pipe with readerClosed := true } }
    | some .other => some { s with handler := .failed }
  -- text withheld by the placeholder restorer is written after the end of the pipe
  | .copying, .abort =>
    if s.pipe.writerClosed = some .eof then some { s with handler := .failed } else none
  | .writing, .written ok => some { s with handler := if ok then .copying else .failed }
  | .failed, .go =>
    some { s with handler := .aborted, pipe := { s.pipe with readerClosed := true } }
  | .notifyEnd, .go =>
    if s.registered then
      some { s with registered := false, handler := .sendEnd (List.range s.channels.length) }
    else some { s with handler := .finished }
  | .sendEnd todo, .tell i => do
    let c ← s.channels[i]?
    if i ∉ todo then none
    else if c.closed then some { s with closedSends := s.closedSends + 1, handler := .aborted }
    else some { s.setChannel i (c.offer .finish) with handler := .closing i (todo.erase i) }
  | .sendEnd [], .go => some { s with handler := .finished }
  | .closing i todo, .go => do
    let c ← s.channels[i]?
    some { s.setChannel i { c with closed := true } with handler := .sendEnd todo }
  | _, _ => none

/-! ## The drainer -/

inductive DrainerAct where
  | go
  | shutdown
  | client
  | chunk (err : Option ReadErr)
  | fail (err : ReadErr)
  | tell (i : Nat)

/-- How the stream ended, by the error that the last read returned. -/
def ReadErr.completion : ReadErr → Completion
  | .eof => .complete
  | .other => .interrupted

/-- One step of the drainer. A read brings the next chunk, perhaps together with an error, or
an error alone, which is also how a closed upstream shows. -/
def drainerStep (s : StreamWorld F) (a : DrainerAct) : Option (StreamWorld F) :=
  match s.drainer, a with
  | .top, .shutdown =>
    if s.shuttingDown then
      some { s with drainer := .close .interrupted, pipe := s.pipe.closeWriter .other }
    else none
  | .top, .client => if s.clientGone then some { s with drainer := .close .partly } else none
  | .top, .go =>
    if s.shuttingDown ∨ s.clientGone then none else some { s with drainer := .read }
  | .read, .chunk err =>
    match s.upstream with
    | [] => none
    | chunk :: rest =>
      some { s with
        upstream := rest, pipe := { s.pipe with offered := chunk.bytes }
        drainer := .write chunk.frames err }
  | .read, .fail err => some { s with drainer := .close err.completion }
  | .write frames err, .go =>
    if s.pipe.offered = 0 then some { s with drainer := .frames frames err }
    else if s.pipe.readerClosed then some { s with drainer := .close .partly }
    else none
  | .frames (f :: frames) err, .go =>
    let s' := { s with fed := s.fed ++ [f], notified := s.notified ++ [f] }
    if s.registered then
      some { s' with drainer := .sending f (List.range s.channels.length) frames err }
    else some { s' with drainer := .frames frames err }
  | .frames [] none, .go => some { s with drainer := .top }
  | .frames [] (some err), .go => some { s with drainer := .close err.completion }
  | .sending f todo frames err, .tell i => do
    let c ← s.channels[i]?
    if i ∉ todo then none
    -- the panic ends the goroutine
    else if c.closed then some { s with closedSends := s.closedSends + 1, drainer := .panicked }
    else some { s.setChannel i (c.offer (.sse f)) with
      drainer := .sending f (todo.erase i) frames err }
  | .sending _ [] frames err, .go => some { s with drainer := .frames frames err }
  | .close completion, .go =>
    some { s with drainer := .record completion, pipe := s.pipe.closeWriter .eof }
  | .record completion, .go =>
    some { s with drainer := .callback completion, recorded := s.recorded ++ [(s.fed, completion)] }
  | .callback completion, .go =>
    some { s with drainer := .done, completed := s.completed ++ [completion] }
  | _, _ => none

/-! ## The request as a whole -/

inductive StreamAct where
  | handler (a : HandlerAct)
  | drainer (a : DrainerAct)
  | consumer (i : Nat) (a : ConsumerAct)
  | clientGone
  | shutdown

def streamStep (s : StreamWorld F) : StreamAct → Option (StreamWorld F)
  | .handler a => handlerStep s a
  | .drainer a => drainerStep s a
  | .consumer i a => do
    let c ← s.channels[i]?
    let c' ← c.consume a
    some (s.setChannel i c')
  | .clientGone => some { s with clientGone := true }
  | .shutdown => some { s with shuttingDown := true }

end AikeyProxy.Proxy
