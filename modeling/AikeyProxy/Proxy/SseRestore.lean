import AikeyProxy.Lib.Lines
import AikeyProxy.Proxy.ErrorBody
import AikeyProxy.Proxy.MaskRestore

/-!
# Restoring placeholders in a stream of events

`ssePlaceholderRestorer` assembles the frames of an upstream event stream and rewrites the text of
those that carry a text delta: what was withheld before and the delta are restored together, and the
end that may begin a placeholder is withheld for the next frame. Any other frame lets the withheld
text out first, in a copy of the last text frame.

The stream is bytes. A frame is the list of its lines. Functions that write to the client return the
bytes they write.
-/

namespace AikeyProxy.Proxy

open Lib

abbrev Bytes := List UInt8

def newline : UInt8 := 0x0a

def carriageReturn : UInt8 := 0x0d

def openBrace : UInt8 := 0x7b

def isEOL (b : UInt8) : Bool := b == newline || b == carriageReturn

/-! ## The payload of a frame -/

/-- The members of a payload that are read or written. The three indices tell the channels of
a stream apart; the restorer does not look at them. -/
inductive SsePath where
  | type
  | text
  | deltaType
  | deltaText
  | delta
  | content
  | index
  | outputIndex
  | choiceIndex
  deriving DecidableEq

namespace SsePath

/-- The path as `gjson` and `sjson` take it, step by step. -/
def steps : SsePath → List String
  | type => ["type"]
  | text => ["text"]
  | deltaType => ["delta", "type"]
  | deltaText => ["delta", "text"]
  | delta => ["delta"]
  | content => ["choices", "0", "delta", "content"]
  | index => ["index"]
  | outputIndex => ["output_index"]
  | choiceIndex => ["choices", "0", "index"]

def apart (p q : SsePath) : Bool :=
  !p.steps.isPrefixOf q.steps && !q.steps.isPrefixOf p.steps

end SsePath

/-- `gjson` and `sjson` on the payload of a frame. -/
structure SseJson where
  str : Bytes → SsePath → Option Text
  get : Bytes → SsePath → Text
  set : Bytes → SsePath → Text → Option Bytes

/-- The `data:` line of a frame, with the lines around it. -/
structure DataLine where
  pre : List Bytes
  line : Bytes
  payload : Bytes
  post : List Bytes

def dataBody (line : Bytes) : Option Bytes :=
  let trimmed := line.rdropWhile isEOL
  if (asciiBytes "data: ").isPrefixOf trimmed then some (trimmed.drop 6)
  else if (asciiBytes "data:").isPrefixOf trimmed then some (trimmed.drop 5)
  else none

/-- The first `data:` line of a frame, if what it carries is a JSON object. -/
def sseDataPayload : List Bytes → Option DataLine
  | [] => none
  | line :: lines =>
    match dataBody line with
    | some body => if body.head? = some openBrace then some ⟨[], line, body, lines⟩ else none
    | none => (sseDataPayload lines).map fun d => { d with pre := line :: d.pre }

def DataLine.patched (d : DataLine) (payload : Bytes) : List Bytes :=
  d.pre ++ (asciiBytes "data: " ++ payload ++ d.line.rtakeWhile isEOL) :: d.post

section Payload

variable (J : SseJson)

def sseTextFieldPath (payload : Bytes) : Option SsePath :=
  if J.get payload .type = "content_block_delta".toList then
    if J.get payload .deltaType = "text_delta".toList then some .deltaText else none
  else if J.get payload .type = "response.output_text.delta".toList then
    if (J.str payload .delta).isSome then some .delta else none
  else if (J.str payload .content).isSome then some .content
  else none

/-- The whole text of a `response.output_text.done` payload. -/
def doneText (payload : Bytes) : Option Text :=
  if J.get payload .type = "response.output_text.done".toList then J.str payload .text else none

inductive FrameKind where
  | done (d : DataLine) (text : Text)
  | delta (d : DataLine) (path : SsePath)
  | other

def frameKind (frame : List Bytes) : FrameKind :=
  match sseDataPayload frame with
  | none => .other
  | some d =>
    match doneText J d.payload with
    | some text => .done d text
    | none =>
      match sseTextFieldPath J d.payload with
      | some path => .delta d path
      | none => .other

end Payload

/-! ## The restorer -/

/-- What is kept from frame to frame: the withheld text, and the last text frame with the path
of its text. -/
structure SseHeld where
  carry : Text
  template : Option (List Bytes × SsePath)

/-- Bytes that are no complete line yet, the lines of the frame being assembled, and what was kept
from the frames before. -/
structure SseCore where
  buf : Bytes
  frame : List Bytes
  held : SseHeld

def SseCore.initial : SseCore := ⟨[], [], ⟨[], none⟩⟩

section Restorer

variable (J : SseJson) (st : MaskRestore)

/-- Let the withheld text out in a copy of the last text frame. -/
def flushCarry (h : SseHeld) : SseHeld × Bytes :=
  if h.carry = [] then (h, [])
  else
    match h.template with
    | none => ({ h with carry := [] }, [])
    | some (template, path) =>
      match sseDataPayload template with
      | none => ({ h with carry := [] }, [])
      | some d =>
        match J.set d.payload path h.carry with
        | none => ({ h with carry := [] }, [])
        | some payload => ({ h with carry := [] }, (d.patched payload).flatten)

/-- A frame that is not rewritten, behind the withheld text. -/
def passFrame (h : SseHeld) (frame : List Bytes) : SseHeld × Bytes :=
  ((flushCarry J h).1, (flushCarry J h).2 ++ frame.flatten)

def processFrame (h : SseHeld) (frame : List Bytes) : SseHeld × Bytes :=
  match frameKind J frame with
  | .done d text =>
    if st.restore text = text then passFrame J h frame
    else
      match J.set d.payload .text (st.restore text) with
      | some payload => passFrame J h (d.patched payload)
      | none => passFrame J h frame
  | .delta d path =>
    let combined := h.carry ++ J.get d.payload path
    let replaced := st.restore combined
    let hold := st.holdback replaced
    if h.carry = [] ∧ hold = [] ∧ replaced = combined then
      ({ h with template := some (frame, path) }, frame.flatten)
    else
      match J.set d.payload path (replaced.take (replaced.length - hold.length)) with
      | some payload => (⟨hold, some (frame, path)⟩, (d.patched payload).flatten)
      | none => passFrame J h frame
  | .other => passFrame J h frame

def isBlankSSELine (line : Bytes) : Bool := line.all isEOL

/-- Take complete lines into the current frame; a blank one ends it. -/
def pushLines : List Bytes → SseHeld → List Bytes → (List Bytes × SseHeld) × Bytes
  | frame, h, [] => ((frame, h), [])
  | frame, h, line :: lines =>
    if isBlankSSELine line then
      let (h, out) := processFrame J st h (frame ++ [line])
      let (after, rest) := pushLines [] h lines
      (after, out ++ rest)
    else pushLines (frame ++ [line]) h lines

/-- Move the complete lines of the buffer into frames. -/
def assembleFrames (c : SseCore) : SseCore × Bytes :=
  let (lines, rest) := takeLines newline c.buf
  let ((frame, held), out) := pushLines J st c.frame c.held lines
  (⟨rest, frame, held⟩, out)

/-- The end of the stream: the withheld text comes out, and an incomplete frame as it is. -/
def finish (c : SseCore) : SseCore × Bytes :=
  let (held, out) := flushCarry J c.held
  (⟨[], [], held⟩, out ++ c.frame.flatten ++ c.buf)

inductive StreamEnd where
  | eof
  | failed

structure UpstreamRead where
  data : Bytes
  ends : Option StreamEnd

/-- The restorer between two `Read`s, with what is still to come from upstream; an upstream
that has nothing more to return is at its end. -/
structure SseRestorer where
  core : SseCore
  out : Bytes
  ended : Option StreamEnd
  upstream : List UpstreamRead

/-- Read upstream until there is something for the client, or the end. -/
def pump (core : SseCore) : List UpstreamRead → SseRestorer
  | [] => ⟨(finish J core).1, (finish J core).2, some .eof, []⟩
  | r :: upstream =>
    let (core, out) := assembleFrames J st { core with buf := core.buf ++ r.data }
    match r.ends with
    | some e => ⟨(finish J core).1, out ++ (finish J core).2, some e, upstream⟩
    | none => if out = [] then pump core upstream else ⟨core, out, none, upstream⟩

def SseRestorer.read (r : SseRestorer) (n : Nat) : Bytes × Option StreamEnd × SseRestorer :=
  if r.out ≠ [] then (r.out.take n, none, { r with out := r.out.drop n })
  else
    match r.ended with
    | some e => ([], some e, r)
    | none =>
      let r := pump J st r.core r.upstream
      if r.out ≠ [] then (r.out.take n, none, { r with out := r.out.drop n })
      else ([], r.ended, r)

/-- Read with buffers of the sizes given until the stream ends. -/
def SseRestorer.readAll (r : SseRestorer) : List Nat → Option (Bytes × StreamEnd)
  | [] => none
  | n :: ns =>
    match r.read J st n with
    | (_, some e, _) => some ([], e)
    | (data, none, r) => (readAll r ns).map fun rest => (data ++ rest.1, rest.2)

def upstreamBytes : List UpstreamRead → Bytes × StreamEnd
  | [] => ([], .eof)
  | r :: upstream =>
    match r.ends with
    | some e => (r.data, e)
    | none => (r.data ++ (upstreamBytes upstream).1, (upstreamBytes upstream).2)

/-- `newSSEPlaceholderRestorer`, read to the end: with an empty table the client is handed the
upstream body. -/
def readRestored (upstream : List UpstreamRead) (sizes : List Nat) :
    Option (Bytes × StreamEnd) :=
  if st.keys = [] then some (upstreamBytes upstream)
  else (SseRestorer.mk .initial [] none upstream).readAll J st sizes

end Restorer

end AikeyProxy.Proxy
