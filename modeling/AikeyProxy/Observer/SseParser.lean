import AikeyProxy.Lib.Framing
import AikeyProxy.Proxy.SseRestore

/-!
# The frame parser of the observers

`SSEParser` gets the bytes of an upstream response as they arrive, keeps the unfinished frame
between two calls, and returns the complete ones. A frame ends at a blank line, which the parser
looks for in three forms, one after the other, over all it has buffered.
-/

namespace AikeyProxy.Observer

open AikeyProxy.Proxy

structure SSEFrame where
  EventType : Bytes
  Data : Bytes
  deriving DecidableEq

structure SSEParser where
  buf : Bytes

def newSSEParser : SSEParser := ⟨[]⟩

/-! ## The end of a frame -/

def bytesIndex (buf sep : Bytes) : Option Nat := Lib.firstIndex sep buf

/-- A blank line after a line ended by a line feed. -/
def lfBlank : Bytes := [newline, newline]

/-- A blank line where lines end in carriage return and line feed. -/
def crlfBlank : Bytes := [carriageReturn, newline, carriageReturn, newline]

def crBlank : Bytes := [carriageReturn, carriageReturn]

/-- Where the frame at the front of the buffer ends, and how long its separator is. -/
def findFrameBoundary (buf : Bytes) : Option (Nat × Nat) :=
  match bytesIndex buf lfBlank with
  | some i =>
    -- A carriage return before the two line feeds belongs to the separator.
    if 0 < i ∧ buf[i - 1]? = some carriageReturn then some (i - 1, 3) else some (i, 2)
  | none =>
    match bytesIndex buf crlfBlank with
    | some i => some (i, 4)
    | none =>
      match bytesIndex buf crBlank with
      | some i => some (i, 2)
      | none => none

/-! ## The fields of a frame -/

/-- The lines of a frame without their terminators; `line` is what has been read of the current
one. An empty last line is dropped. -/
def splitLinesFrom (line : Bytes) : Bytes → List Bytes
  | [] => if line.isEmpty then [] else [line]
  | [b] => if isEOL b then [line] else [line ++ [b]]
  | b :: c :: rest =>
    if b = newline then line :: splitLinesFrom [] (c :: rest)
    else if b = carriageReturn then
      -- The line feed after a carriage return is the other half of one terminator.
      if c = newline then line :: splitLinesFrom [] rest
      else line :: splitLinesFrom [] (c :: rest)
    else splitLinesFrom (line ++ [b]) (c :: rest)

def splitLines (frame : Bytes) : List Bytes := splitLinesFrom [] frame

def colon : UInt8 := 0x3a

def space : UInt8 := 0x20

/-- The name and the value of a line; one space after the colon is not part of the value. -/
def splitField (line : Bytes) : Bytes × Bytes :=
  match line.dropWhile (· ≠ colon) with
  | [] => (line, [])
  | _ :: raw =>
    (line.takeWhile (· ≠ colon), if raw.head? = some space then raw.tail else raw)

/-- What `parseFrame` has gathered of the lines so far. -/
structure FrameFields where
  eventType : Bytes
  data : Bytes
  seen : Bool

def addLine (st : FrameFields) (line : Bytes) : FrameFields :=
  if line.isEmpty then st
  else if line.head? = some colon then st
  else
    let (field, value) := splitField line
    if field = asciiBytes "event" then { st with eventType := value, seen := true }
    else if field = asciiBytes "data" then
      { st with
        data := (if st.data.isEmpty then st.data else st.data ++ [newline]) ++ value
        seen := true }
    else { st with seen := true }

/-- The event of a frame; a frame without a line other than comments has none. -/
def parseFrame (frame : Bytes) : Option SSEFrame :=
  let st := (splitLines frame).foldl addLine ⟨[], [], false⟩
  if st.seen then some ⟨st.eventType, st.data⟩ else none

/-- The loop of `Parse`. Each round takes a separator off, so the length bounds the rounds. -/
def drainFrames : Nat → Bytes → List SSEFrame × Bytes
  | 0, buf => ([], buf)
  | fuel + 1, buf =>
    match findFrameBoundary buf with
    | none => ([], buf)
    | some (boundary, sepLen) =>
      let frame := buf.take boundary
      let more := drainFrames fuel (buf.drop (boundary + sepLen))
      ((parseFrame frame).toList ++ more.1, more.2)

def SSEParser.parse (p : SSEParser) (chunk : Bytes) : List SSEFrame × SSEParser :=
  if chunk.isEmpty then ([], p)
  else
    let buf := p.buf ++ chunk
    let (out, rest) := drainFrames buf.length buf
    (out, ⟨rest⟩)

/-- The frames of a stream that arrives in these chunks, and the parser after it. -/
def SSEParser.parseAll (p : SSEParser) : List Bytes → List SSEFrame × SSEParser
  | [] => ([], p)
  | chunk :: chunks =>
    let (out, p') := p.parse chunk
    let (more, p'') := parseAll p' chunks
    (out ++ more, p'')

end AikeyProxy.Observer
