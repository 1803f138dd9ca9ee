import Mathlib.Data.List.Basic

/-!
# The channels of one request's observers

`Registry.NotifyStart` gives every interested observer a bounded channel and a consumer of its own.
Start, frames and end go through that channel in turn; frames and end are dropped when it is full. A
send on a channel that is closed already is a panic of the sender.
-/

namespace AikeyProxy.Observer

def notifyChannelBufferSize : Nat := 32

inductive ObserverEvent (F : Type) where
  | start
  | sse (frame : F)
  | finish

/-- Whether it declared interest in the request's stream, and whether it has been switched off. -/
structure ActiveObserver where
  handlesStream : Bool
  disabled : Bool

/-- What is queued, the hooks called so far, and the observer's flag. `faulty` records a panic or
that it was disabled. -/
structure Channel (F : Type) where
  queue : List (ObserverEvent F)
  closed : Bool
  calls : List (ObserverEvent F)
  exited : Bool
  disabled : Bool
  faulty : Bool

variable {F : Type}

def Channel.fresh : Channel F := ⟨[], false, [], false, false, false⟩

def startChannels (observers : List ActiveObserver) : List (Channel F) :=
  (observers.filter (fun o => !o.disabled && o.handlesStream)).map (fun _ => .fresh)

def Channel.full (c : Channel F) : Bool := notifyChannelBufferSize ≤ c.queue.length

/-- A send that does not wait: queued, or dropped if there is no room. -/
def Channel.offer (c : Channel F) (ev : ObserverEvent F) : Channel F :=
  if c.full then c else { c with queue := c.queue ++ [ev] }

/-- How a hook ends; a panic may use up the observer's budget and disable it. -/
inductive HookOutcome where
  | returns
  | panics (exhausted : Bool)

def Channel.dispatchOne (c : Channel F) (ev : ObserverEvent F) : HookOutcome → Channel F
  | .returns => { c with calls := c.calls ++ [ev] }
  | .panics exhausted =>
    { c with calls := c.calls ++ [ev], disabled := c.disabled || exhausted, faulty := true }

inductive ConsumerAct where
  | take (outcome : HookOutcome)
  | exit
  | disable

/-- One turn of the loop in `startConsumer`, or the observer being disabled elsewhere. -/
def Channel.consume (c : Channel F) : ConsumerAct → Option (Channel F)
  | .take outcome =>
    match c.queue with
    | [] => none
    | ev :: rest =>
      let c' := { c with queue := rest }
      some (if c.disabled then c' else c'.dispatchOne ev outcome)
  | .exit =>
    if c.queue.isEmpty ∧ c.closed ∧ c.exited = false then some { c with exited := true } else none
  | .disable => some { c with disabled := true, faulty := true }

/-! ## What the operations leave alone -/

variable (c : Channel F) (ev : ObserverEvent F)

@[simp] theorem Channel.offer_closed : (c.offer ev).closed = c.closed := by
  unfold Channel.offer
  split <;> rfl

@[simp] theorem Channel.offer_exited : (c.offer ev).exited = c.exited := by
  unfold Channel.offer
  split <;> rfl

@[simp] theorem Channel.offer_disabled : (c.offer ev).disabled = c.disabled := by
  unfold Channel.offer
  split <;> rfl

@[simp] theorem Channel.offer_faulty : (c.offer ev).faulty = c.faulty := by
  unfold Channel.offer
  split <;> rfl

theorem Channel.consume_closed {c c' : Channel F} {a : ConsumerAct} (h : c.consume a = some c') :
    c'.closed = c.closed := by
  revert h
  fun_cases Channel.consume c a <;> intro h <;> cases h
  case case2 outcome _ _ _ _ => split <;> [rfl; cases outcome <;> rfl]
  all_goals rfl

end AikeyProxy.Observer
