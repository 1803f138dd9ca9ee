import AikeyProxy.Lib.Table
import Mathlib.Algebra.Group.Nat.Defs

/-!
# Calls and replies of a child hook

Calls share one pipe to the child. A call takes the next request id, registers a channel of
capacity one under it, writes its frame and waits for the channel or for its deadline. The readers,
one for each generation of the child, take the entry of a reply's id out of the table and then put
the reply into its channel. Whether the hook is degraded, its pipe closed or a write fails is left
to the environment, which so includes every restart.
-/

namespace AikeyProxy.AppHook

open Lib

structure ChildReply where
  reqID : Nat
  findings : List UInt8
  maskmeta : List UInt8
  event : List UInt8
  action : Nat
  deriving DecidableEq

inductive RoundtripError where
  | degraded
  | stdinClosed
  | write (err : String)
  | ctx (err : String)
  deriving DecidableEq

inductive RoundtripPc where
  | enter
  | number
  | register
  | writing
  | waiting
  | removing (err : RoundtripError)
  | returned (result : Except RoundtripError ChildReply)
  deriving DecidableEq

/-- A call of `roundtrip`: the id it was given, its channel, and where it is. -/
structure Roundtrip where
  id : Option Nat
  channel : List ChildReply
  pc : RoundtripPc

/-- A reader waits for a frame, or has a reply for the channel of a call. -/
abbrev FrameReader := Option (Nat × ChildReply)

structure ReplyWorld where
  nextReqID : Nat
  pending : Table Nat Nat
  calls : List Roundtrip
  readers : List FrameReader

def ReplyWorld.init : ReplyWorld := ⟨0, ∅, [], []⟩

inductive RoundtripEvent where
  | degraded
  | stdinClosed
  | go
  | wrote
  | writeFailed (err : String)
  | answer
  | ctxDone (err : String)
  deriving DecidableEq

inductive ReplyAct where
  | call
  | thread (c : Nat) (ev : RoundtripEvent)
  | reader
  /-- a decoded frame with any id -/
  | frame (j : Nat) (reply : ChildReply)
  | hand (j : Nat)

def ReplyWorld.set (w : ReplyWorld) (c : Nat) (call : Roundtrip) : ReplyWorld :=
  { w with calls := w.calls.set c call }

def ReplyWorld.callStep (w : ReplyWorld) (c : Nat) (call : Roundtrip) (ev : RoundtripEvent) :
    Option ReplyWorld :=
  match call.pc, ev with
  | .enter, .degraded => some (w.set c { call with pc := .returned (.error .degraded) })
  | .enter, .stdinClosed => some (w.set c { call with pc := .returned (.error .stdinClosed) })
  | .enter, .go => some (w.set c { call with pc := .number })
  | .number, .go =>
    let reqID := (w.nextReqID + 1) % 2 ^ 32
    some { w.set c { call with id := some reqID, pc := .register } with nextReqID := reqID }
  | .register, .go =>
    call.id.map fun id =>
      { w.set c { call with pc := .writing } with pending := w.pending.insert id c }
  | .writing, .wrote => some (w.set c { call with pc := .waiting })
  | .writing, .writeFailed err => some (w.set c { call with pc := .removing (.write err) })
  | .waiting, .answer =>
    match call.channel with
    | [] => none
    | reply :: rest => some (w.set c { call with channel := rest, pc := .returned (.ok reply) })
  | .waiting, .ctxDone err => some (w.set c { call with pc := .removing (.ctx err) })
  | .removing err, .go =>
    call.id.map fun id =>
      { w.set c { call with pc := .returned (.error err) } with pending := w.pending.erase id }
  | _, _ => none

/-- The lookup and the removal of an entry, under the table's mutex. -/
def ReplyWorld.frameStep (w : ReplyWorld) (j : Nat) (reply : ChildReply) : ReplyWorld :=
  match w.pending.lookup reply.reqID with
  | none => w
  | some c =>
    { w with
      pending := w.pending.erase reply.reqID
      readers := w.readers.set j (some (c, reply)) }

/-- A send on the channel, which waits while the channel is full. -/
def ReplyWorld.handStep (w : ReplyWorld) (j c : Nat) (reply : ChildReply) : Option ReplyWorld :=
  match w.calls[c]? with
  | some ⟨id, [], pc⟩ =>
    some { w.set c ⟨id, [reply], pc⟩ with readers := w.readers.set j none }
  | _ => none

def replyStep (w : ReplyWorld) : ReplyAct → Option ReplyWorld
  | .call => some { w with calls := w.calls ++ [⟨none, [], .enter⟩] }
  | .thread c ev =>
    match w.calls[c]? with
    | none => none
    | some call => w.callStep c call ev
  | .reader => some { w with readers := w.readers ++ [none] }
  | .frame j reply =>
    match w.readers[j]? with
    | some none => some (w.frameStep j reply)
    | _ => none
  | .hand j =>
    match w.readers[j]? with
    | some (some (c, reply)) => w.handStep j c reply
    | _ => none

end AikeyProxy.AppHook
