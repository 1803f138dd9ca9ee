import AikeyProxy.Lib.Table
import AikeyProxy.Observer.Registry

/-!
# The request table of the observer registry

`NotifyStart` makes the channels and consumers of a request and enters them under its trace id,
over an older entry if there is one. `NotifyEnd` takes the entry out and closes its channels;
nothing else does. The context that a request's observers get ends after `maxRequestAge`, but no
consumer looks at it. A handler calls `NotifyEnd` on its way out unless it panics before.
-/

namespace AikeyProxy.Observer

open Lib

variable {F : Type}

/-- Ten minutes, in nanoseconds. -/
def maxRequestAge : Nat := 10 * 60 * 1000000000

/-- What one `NotifyStart` made, and the handler that called it. -/
structure RequestState (F : Type) where
  owner : Nat
  trace : String
  startedAt : Nat
  channels : List (Channel F)

/-- A request's handler: whether it is over, and its starts without an end so far, each with its
trace id and time. -/
structure RequestHandler where
  returned : Bool
  due : List (String × Nat)

structure RegistryWorld (F : Type) where
  now : Nat
  requests : Table String Nat
  states : List (RequestState F)
  handlers : List RequestHandler

def RegistryWorld.init : RegistryWorld F := ⟨0, ∅, [], []⟩

inductive RegistryAct (F : Type) where
  | request
  /-- a start, with the observers as they are for its stream at that time -/
  | notifyStart (h : Nat) (trace : String) (observers : List ActiveObserver)
  | notifySSEEvent (trace : String) (frame : F)
  | notifyEnd (h : Nat) (trace : String)
  | leave (h : Nat)
  | consume (i k : Nat) (a : ConsumerAct)
  | pass (duration : Nat)

variable (w : RegistryWorld F)

def RegistryWorld.setHandler (h : Nat) (x : RequestHandler) : RegistryWorld F :=
  { w with handlers := w.handlers.set h x }

def RegistryWorld.setChannels (i : Nat) (s : RequestState F)
    (channels : List (Channel F)) : RegistryWorld F :=
  { w with states := w.states.set i { s with channels } }

def RegistryWorld.notifyStart (h : Nat) (trace : String)
    (observers : List ActiveObserver) : RegistryWorld F :=
  if observers = [] then w
  else
    { w with
      requests := w.requests.insert trace w.states.length
      states := w.states ++ [⟨h, trace, w.now, (startChannels observers).map (·.offer .start)⟩] }

/-- The state that the entry of a trace id leads to. -/
def RegistryWorld.entry (trace : String) : Option (Nat × RequestState F) :=
  (w.requests.lookup trace).bind fun i => (w.states[i]?).map fun s => (i, s)

def RegistryWorld.notifySSEEvent (trace : String) (frame : F) : RegistryWorld F :=
  match w.entry trace with
  | none => w
  | some (i, s) => w.setChannels i s (s.channels.map (·.offer (.sse frame)))

def RegistryWorld.notifyEnd (trace : String) : RegistryWorld F :=
  match w.entry trace with
  | none => w
  | some (i, s) =>
    { w.setChannels i s (s.channels.map fun c => { c.offer .finish with closed := true }) with
      requests := w.requests.erase trace }

def registryStep : RegistryAct F → Option (RegistryWorld F)
  | .request => some { w with handlers := w.handlers ++ [⟨false, []⟩] }
  | .notifyStart h trace observers =>
    match w.handlers[h]? with
    | some ⟨false, due⟩ =>
      some ((w.setHandler h ⟨false, (trace, w.now) :: due⟩).notifyStart h trace observers)
    | _ => none
  | .notifySSEEvent trace frame => some (w.notifySSEEvent trace frame)
  | .notifyEnd h trace =>
    match w.handlers[h]? with
    | some ⟨false, due⟩ =>
      some ((w.setHandler h ⟨false, due.filter (·.1 ≠ trace)⟩).notifyEnd trace)
    | _ => none
  | .leave h =>
    match w.handlers[h]? with
    | some ⟨false, due⟩ => some (w.setHandler h ⟨true, due⟩)
    | _ => none
  | .consume i k a =>
    match w.states[i]? with
    | none => none
    | some s =>
      match s.channels[k]? with
      | none => none
      | some c => (c.consume a).map fun c => w.setChannels i s (s.channels.set k c)
  | .pass duration => some { w with now := w.now + duration }

/-- What a handler does that serves a chain of so many attempts in the app pipeline: a start of its
own, and within it a start and an end for each attempt, under the same trace id. -/
def appChainCalls (h : Nat) (trace : String) (observers : List ActiveObserver) (attempts : Nat) :
    List (RegistryAct F) :=
  [.notifyStart h trace observers] ++
    (List.replicate attempts [.notifyStart h trace observers, .notifyEnd h trace]).flatten ++
    [.notifyEnd h trace, .leave h]

end AikeyProxy.Observer
