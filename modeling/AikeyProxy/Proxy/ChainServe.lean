import AikeyProxy.Lib.Run
import AikeyProxy.Observer.ConversationAudit

/-!
# Serving a turn down a chain of upstreams

`serveManagedChain` tries the candidates in order: one that cannot be used is passed over, and after
a response that is eligible for a retry the next is tried. Every attempt notifies the observers of a
start, the frames of a streamed response and an end under the one trace id of the request. A single
route is one attempt whose response is never captured.

The consumers of the attempts' channels run on their own, and share the observer's entry for the
trace id.
-/

namespace AikeyProxy.Proxy

open Lib Observer

/-- A candidate: whether its credential and its adapter can be had, and its address, its own or
its provider's. -/
structure Candidate where
  providerCode : String
  credential : Bool
  adapter : Bool
  baseURL : String

def Candidate.usable (c : Candidate) : Bool :=
  c.credential && c.adapter && c.baseURL ≠ ""

/-- A captured response may be a refusal of the model, which is not kept as the last failure; an
aborted one is a copy that failed. -/
inductive HopOutcome (F : Type) where
  | streamed (frames : List F)
  | plain (text : String)
  | captured (status : Nat) (modelRefused : Bool)
  | aborted (frames : List F)

variable {F : Type}

/-- What the observers are notified of: frames for a streamed response only, and no end when
the handler is aborted. -/
def HopOutcome.notices : HopOutcome F → List (ObserverEvent F)
  | .streamed frames => .start :: frames.map .sse ++ [.finish]
  | .plain _ | .captured .. => [.start, .finish]
  | .aborted frames => .start :: frames.map .sse

/-- The assistant's text in a response that served the client. -/
def HopOutcome.servedText (ext : Extractor F) : HopOutcome F → Option String
  | .streamed frames => some (String.join (frames.map ext.assistantDelta))
  | .plain text => some text
  | _ => none

def HopOutcome.isCaptured : HopOutcome F → Bool
  | .captured .. => true
  | _ => false

structure Hop (F : Type) where
  req : RequestContext
  outcome : HopOutcome F
  notices : List (ObserverEvent F)
  channel : Channel F

inductive ChainAnswer where
  | served
  | aborted
  | budgetExceeded (attempts : Nat)
  | spent (status : Nat) (attempts : Nat)

/-- `chained` tells a chain from a single route, `rest` are the candidates not looked at, `passed`
counts the others, `busy` says that the last attempt is under way, `served` is the text of the
attempt that served the client, `cut` the `maxBytes` that the last end of a request met. -/
structure TurnWorld (F : Type) where
  chained : Bool
  prompt : Prompt
  maxBytes : Nat
  enabled : Bool
  rest : List Candidate
  passed : Nat
  busy : Bool
  lastStatus : Option Nat
  answer : Option ChainAnswer
  served : Option String
  hops : List (Hop F)
  audit : AuditState
  cut : Nat

def TurnWorld.init (chained : Bool) (order : List Candidate) (prompt : Prompt) (maxBytes : Nat)
    (enabled : Bool) : TurnWorld F :=
  ⟨chained, prompt, maxBytes, enabled, order, 0, false, none, none, none, [], ⟨none, []⟩, 0⟩

inductive TurnAct (F : Type) where
  | attempt (outcome : HopOutcome F)
  | skip
  | budget
  | spent
  | notify
  | returned
  | consume (k : Nat)
  | exit (k : Nat)
  | policy (enabled : Bool) (maxBytes : Nat)

def TurnWorld.looping (s : TurnWorld F) : Bool := !s.busy && s.answer.isNone

/-- `NotifyStart`, `NotifySSEEvent` or `NotifyEnd` for the audit's channel, which the end
closes. -/
def Hop.notify (h : Hop F) : Option (Hop F) :=
  match h.notices with
  | [] => none
  | .finish :: rest =>
    some { h with notices := rest, channel := { h.channel.offer .finish with closed := true } }
  | ev :: rest => some { h with notices := rest, channel := h.channel.offer ev }

/-- What the loop makes of an attempt that has returned. -/
def TurnWorld.conclude (ext : Extractor F) (s : TurnWorld F) (outcome : HopOutcome F) :
    TurnWorld F :=
  match outcome with
  | .captured status modelRefused =>
    { s with busy := false, lastStatus := if modelRefused then s.lastStatus else some status }
  | .aborted _ => { s with busy := false, answer := some .aborted }
  | .streamed _ | .plain _ =>
    { s with busy := false, answer := some .served, served := outcome.servedText ext }

def TurnWorld.cutBy (s : TurnWorld F) : ObserverEvent F → Nat
  | .finish => s.maxBytes
  | .start | .sse _ => s.cut

/-- One step of the loop, of the notifications, of a consumer, or of the policy. -/
def turnStep (ext : Extractor F) (s : TurnWorld F) : TurnAct F → Option (TurnWorld F)
  | .attempt outcome =>
    match s.rest with
    | [] => none
    | cand :: rest =>
      if s.looping ∧ cand.usable ∧ (outcome.isCaptured → s.chained) then
        -- the body is buffered only while the audit wants it
        let req : RequestContext := ⟨cand.providerCode, if s.enabled then some s.prompt else none⟩
        some { s with
          rest, passed := s.passed + 1, busy := true
          hops := s.hops ++ [⟨req, outcome, outcome.notices, .fresh⟩] }
      else none
  | .skip =>
    match s.rest with
    | [] => none
    | cand :: rest =>
      if s.looping ∧ cand.usable = false then some { s with rest, passed := s.passed + 1 } else none
  | .budget =>
    -- the budget is looked at before every candidate but the first
    if s.looping ∧ 0 < s.passed ∧ s.rest ≠ [] then
      some { s with answer := some (.budgetExceeded s.hops.length) }
    else none
  | .spent =>
    if s.looping ∧ s.rest = [] then
      some { s with answer := some (.spent (s.lastStatus.getD 502) s.hops.length) }
    else none
  | .notify => do
    let h ← s.hops.getLast?
    let h' ← h.notify
    if s.busy then some { s with hops := s.hops.set (s.hops.length - 1) h' } else none
  | .returned => do
    let h ← s.hops.getLast?
    if s.busy ∧ h.notices = [] then some (s.conclude ext h.outcome) else none
  | .consume k => do
    let h ← s.hops[k]?
    match h.channel.queue with
    | [] => none
    | ev :: _ => do
      let channel ← h.channel.consume (.take .returns)
      some { s with
        hops := s.hops.set k { h with channel }
        audit := auditHook ext h.req s.maxBytes s.enabled s.audit ev
        cut := s.cutBy ev }
  | .exit k => do
    let h ← s.hops[k]?
    let channel ← h.channel.consume .exit
    some { s with hops := s.hops.set k { h with channel } }
  | .policy enabled maxBytes => some { s with enabled, maxBytes }

end AikeyProxy.Proxy
