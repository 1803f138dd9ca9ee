import AikeyProxy.Observer.Registry

/-!
# The conversation audit observer

The observer keeps one accumulator per trace id: a request's start puts it there with the prompt,
the frames of a streamed response add the assistant's text, and the end takes it out and submits a
record. Every hook looks at the live policy first.
-/

namespace AikeyProxy.Observer

/-- What `extractPrompt` finds in a request body. -/
structure Prompt where
  userText : String
  systemText : String
  model : String

/-- What the observer reads from a frame: `extractAssistantDelta` and `isCompletionMarker`. -/
structure Extractor (F : Type) where
  assistantDelta : F → String
  isCompletionMarker : F → Bool

/-- The longest beginning that has at most so many bytes and does not split a character. -/
def capChars : Nat → List Char → List Char
  | _, [] => []
  | room, c :: cs => if c.utf8Size ≤ room then c :: capChars (room - c.utf8Size) cs else []

def capText (s : String) (maxBytes : Nat) : String :=
  if maxBytes = 0 ∨ s.utf8ByteSize ≤ maxBytes then s
  else String.ofList (capChars maxBytes s.toList)

structure TurnState where
  prompt : Prompt
  assistant : String
  sawDone : Bool
  sawFrame : Bool

inductive RequestStatus where
  | ok | incomplete

structure ConversationRecord where
  providerCode : String
  model : String
  userText : String
  assistantText : String
  systemText : String
  requestStatus : RequestStatus

/-- The observer as one trace id sees it: its entry of `states`, and what was submitted. -/
structure AuditState where
  turn : Option TurnState
  records : List ConversationRecord

/-- Where the request went, and its body if that was buffered for the observers. -/
structure RequestContext where
  providerID : String
  requestBody : Option Prompt

def RequestContext.prompt (req : RequestContext) : Prompt :=
  req.requestBody.getD ⟨"", "", ""⟩

def onRequestStart (req : RequestContext) (a : AuditState) : AuditState :=
  { a with turn := some ⟨req.prompt, "", false, false⟩ }

variable {F : Type}

def TurnState.hear (ext : Extractor F) (st : TurnState) (frame : F) : TurnState :=
  { st with
    assistant := st.assistant ++ ext.assistantDelta frame
    sawDone := st.sawDone || ext.isCompletionMarker frame
    sawFrame := true }

def onSSEEvent (ext : Extractor F) (frame : F) (a : AuditState) : AuditState :=
  { a with turn := a.turn.map (fun st => st.hear ext frame) }

def TurnState.record (st : TurnState) (req : RequestContext) (maxBytes : Nat) :
    Option ConversationRecord :=
  let userText := capText st.prompt.userText maxBytes
  let assistantText := capText st.assistant maxBytes
  if userText = "" ∧ assistantText = "" then none
  else some
    { providerCode := req.providerID
      model := st.prompt.model
      userText, assistantText
      systemText := capText st.prompt.systemText maxBytes
      requestStatus := if st.sawDone then .ok else .incomplete }

/-- `OnRequestEnd`: the entry is dropped even while the audit is off. -/
def onRequestEnd (req : RequestContext) (maxBytes : Nat) (enabled : Bool) (a : AuditState) :
    AuditState :=
  match a.turn with
  | none => a
  | some st =>
    { turn := none
      records := a.records ++ if enabled then (st.record req maxBytes).toList else [] }

def auditHook (ext : Extractor F) (req : RequestContext) (maxBytes : Nat) (enabled : Bool)
    (a : AuditState) : ObserverEvent F → AuditState
  | .start => if enabled then onRequestStart req a else a
  | .sse frame => if enabled then onSSEEvent ext frame a else a
  | .finish => onRequestEnd req maxBytes enabled a

end AikeyProxy.Observer
