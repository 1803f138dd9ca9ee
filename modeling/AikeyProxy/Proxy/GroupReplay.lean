import AikeyProxy.Lib.Run
import Mathlib.Data.UInt
import Mathlib.Algebra.BigOperators.Group.List.Basic

/-!
# Replayable request bodies

The body of a group request is read into memory first, under a limit for one request and a budget
for the process: one atomic counter, which `reserve` loads and swaps in a loop. The buffer grows
while the body is read, each new allocation reserved before the old one is given back. A captured
body hands out readers until it is committed and its last reader is closed. The steps below are the
atomic operations, in any interleaving.
-/

namespace AikeyProxy.Proxy

open Lib

def groupReplayInitialChunk : Nat := 64 * 1024

inductive ReplayError where
  | bodyTooLarge
  | capacity
  | read
  deriving DecidableEq

inductive BodyEnding where
  | eof
  | broken

/-- The buffer of `readGroupReplayBody`: its bytes, its capacity and what is reserved for it. -/
structure ReplayBuffer where
  data : List UInt8
  cap : Nat
  reserved : Nat
  deriving DecidableEq

/-- `groupReplayBody`, without its lock: each method is one step. -/
structure ReplayBody where
  data : List UInt8
  reserved : Nat
  readers : Nat
  committed : Bool
  released : Bool
  deriving DecidableEq

/-- What `Open` returned. A reader over a body is owned by it; the empty reader of an empty or
released body is not. -/
structure ReplayReader where
  content : List UInt8
  owned : Bool
  closed : Bool
  /-- Whether the body had given its memory back when the reader was opened. -/
  late : Bool
  deriving DecidableEq

inductive ReplayPc where
  | start
  | reserve (n : Nat) (seen : Option Int) (grow : Option ReplayBuffer)
  /-- The larger buffer is reserved, the old one is not yet given back. -/
  | grown (buf : ReplayBuffer) (newCap : Nat)
  | reading (buf : ReplayBuffer)
  | failing (reserved : Nat) (err : ReplayError)
  | failed (err : ReplayError)
  | captured (b : ReplayBody) (opened : List ReplayReader)
  deriving DecidableEq

structure ReplayRequest where
  contentLength : Int
  limit : Nat
  body : List UInt8
  ending : BodyEnding
  rest : List UInt8
  pc : ReplayPc
  /-- The reservations made, and those given back, in order. -/
  taken : List Nat
  returned : List Nat

/-- The reservations a request holds, oldest first. -/
def ReplayPc.live : ReplayPc → List Nat
  | .start | .failed _ | .reserve _ _ none => []
  | .reserve _ _ (some buf) | .reading buf => [buf.reserved]
  | .grown buf newCap => [buf.reserved, newCap]
  | .failing reserved _ => [reserved]
  | .captured b _ => if b.released then [] else [b.reserved]

def ReplayPc.over : ReplayPc → Bool
  | .failed _ => true
  | .captured b opened => b.committed && opened.all fun rd => !rd.owned || rd.closed
  | _ => false

section

variable (r : ReplayRequest)

/-- The bytes a replay should give: the body, up to its declared length. -/
def ReplayRequest.original : List UInt8 :=
  if 0 ≤ r.contentLength then r.body.take r.contentLength.toNat else r.body

/-! ## Reading the body -/

def initialReservation (contentLength : Int) (limit : Nat) : Nat :=
  let initial := if contentLength < 0 then (groupReplayInitialChunk : Int) else contentLength
  let initial := if initial > limit then (limit : Int) else initial
  initial.toNat

def grownCapacity (cap limit : Nat) : Nat := min (max (cap * 2) groupReplayInitialChunk) limit

def ReplayRequest.complete (buf : ReplayBuffer) : Bool :=
  decide (0 ≤ r.contentLength ∧ (buf.data.length : Int) = r.contentLength)

def ReplayRequest.capture (buf : ReplayBuffer) : ReplayRequest :=
  { r with pc := .captured ⟨buf.data, buf.reserved, 0, false, false⟩ [] }

/-- The reader returned its error: `io.EOF` ends the loop, any other one the request. -/
def ReplayRequest.ended (buf : ReplayBuffer) : ReplayRequest :=
  match r.ending with
  | .eof => r.capture buf
  | .broken => { r with pc := .failing buf.reserved .read }

/-- `reserve(n)` returned true. -/
def ReplayRequest.reserved (n : Nat) (grow : Option ReplayBuffer) : ReplayRequest :=
  { r with
    taken := r.taken ++ [n]
    pc := match grow with
      | none => .reading ⟨[], n, n⟩
      | some buf => .grown buf n }

/-- `reserve(n)` returned false. -/
def ReplayRequest.refused (grow : Option ReplayBuffer) : ReplayRequest :=
  { r with
    pc := match grow with
      | none => .failed .capacity
      | some buf => .failing buf.reserved .capacity }

/-- One `Read` of the loop that returns `n` bytes, with the reader's error if `last`. -/
def ReplayRequest.read (buf : ReplayBuffer) (n : Nat) (last : Bool) : Option ReplayRequest :=
  -- A reader gives no more than there is and ends only at the end.
  if r.complete buf || decide (r.rest.length < n) || (last && decide (n ≠ r.rest.length)) then none
  else if buf.data.length = r.limit then
    -- One more byte is asked for.
    if 1 < n then none
    else if 0 < n then
      some { r with rest := r.rest.drop n, pc := .failing buf.reserved .bodyTooLarge }
    else if last then some (r.ended buf)
    else some r
  else if buf.cap - buf.data.length < n ∨ buf.data.length = buf.cap then none
  else
    let buf' := { buf with data := buf.data ++ r.rest.take n }
    let r' := { r with rest := r.rest.drop n, pc := .reading buf' }
    some (if last then r'.ended buf' else r')

/-! ## The captured body -/

/-- `releaseIfIdleLocked`, and what it gives back to the budget. -/
def ReplayBody.releaseIfIdleLocked (b : ReplayBody) : ReplayBody × Option Nat :=
  if b.released || !b.committed || b.readers ≠ 0 then (b, none)
  else ({ b with released := true, data := [], reserved := 0 }, some b.reserved)

def ReplayBody.openReader (b : ReplayBody) : ReplayBody × ReplayReader :=
  if b.released || b.data.isEmpty then (b, ⟨[], false, false, b.released⟩)
  else ({ b with readers := b.readers + 1 }, ⟨b.data, true, false, false⟩)

def ReplayRequest.settle (used : Int) (b : ReplayBody)
    (opened : List ReplayReader) : Int × ReplayRequest :=
  match b.releaseIfIdleLocked with
  | (b', none) => (used, { r with pc := .captured b' opened })
  | (b', some n) =>
    (used - n, { r with pc := .captured b' opened, returned := r.returned ++ [n] })

end

/-! ## Steps -/

inductive ReplayMove where
  | enter
  | load
  | swap
  | grow
  | release
  | read (n : Nat) (last : Bool)
  | finish
  | openReader
  | commit
  | closeReader (k : Nat)
  deriving DecidableEq

def ReplayRequest.step (budget : Nat) (used : Int) (r : ReplayRequest) (move : ReplayMove) :
    Option (Int × ReplayRequest) :=
  match r.pc, move with
  | .start, .enter =>
    if r.contentLength > r.limit then some (used, { r with pc := .failed .bodyTooLarge })
    else some (used, { r with pc := .reserve (initialReservation r.contentLength r.limit) none none })
  | .reserve n none grow, .load =>
    if n = 0 then some (used, r.reserved n grow)
    else if (n : Int) > budget - used then some (used, r.refused grow)
    else some (used, { r with pc := .reserve n (some used) grow })
  | .reserve n (some seen) grow, .swap =>
    if used = seen then some (seen + n, r.reserved n grow)
    else some (used, { r with pc := .reserve n none grow })
  | .reading buf, .finish => if r.complete buf then some (used, r.capture buf) else none
  | .reading buf, .grow =>
    if r.complete buf ∨ buf.data.length = r.limit ∨ buf.data.length ≠ buf.cap then none
    else some (used, { r with pc := .reserve (grownCapacity buf.cap r.limit) none (some buf) })
  | .grown buf newCap, .release =>
    some (used - buf.reserved,
      { r with
        pc := .reading { buf with cap := newCap, reserved := newCap }
        returned := r.returned ++ [buf.reserved] })
  | .reading buf, .read n last => (r.read buf n last).map fun r' => (used, r')
  | .failing reserved err, .release =>
    some (used - reserved, { r with pc := .failed err, returned := r.returned ++ [reserved] })
  | .captured b opened, .openReader =>
    some (used, { r with pc := .captured b.openReader.1 (opened ++ [b.openReader.2]) })
  | .captured b opened, .commit => some (r.settle used { b with committed := true } opened)
  | .captured b opened, .closeReader k =>
    match opened[k]? with
    | none => none
    | some rd =>
      -- The second `Close` of a reader, and that of an empty one, does nothing.
      if rd.closed || !rd.owned then some (used, r)
      else
        some (r.settle used { b with readers := b.readers - 1 }
          (opened.set k { rd with closed := true }))
  | _, _ => none

structure ReplayWorld where
  limit : Nat
  used : Int
  requests : List ReplayRequest

def ReplayWorld.init (limit : Nat) : ReplayWorld := ⟨limit, 0, []⟩

inductive ReplayAct where
  | arrive (contentLength : Int) (limit : Nat) (body : List UInt8) (ending : BodyEnding)
  | move (i : Nat) (m : ReplayMove)

def replayStep (w : ReplayWorld) : ReplayAct → Option ReplayWorld
  | .arrive contentLength limit body ending =>
    some { w with
      requests := w.requests ++ [⟨contentLength, limit, body, ending, body, .start, [], []⟩] }
  | .move i m =>
    match w.requests[i]? with
    | none => none
    | some r =>
      (r.step w.limit w.used m).map fun p =>
        { w with used := p.1, requests := w.requests.set i p.2 }

def ReplayWorld.held (w : ReplayWorld) : List Nat := w.requests.map fun r => r.pc.live.sum

end AikeyProxy.Proxy
