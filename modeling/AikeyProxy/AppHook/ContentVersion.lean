import Mathlib.Data.List.Sort

/-!
# Which rules a pool of filter children is running

A filter child may swap its rules in place. The hook polls it for a fingerprint of what it is
running, and the pool combines those of its workers into the epoch under which verdicts are
memoised. Fingerprints are taken to be free of collisions: one stands for its rules, and a composite
for the sorted list of its parts.
-/

namespace AikeyProxy.AppHook

/-- What a filter answers, `Response` as far as the cache keeps it. -/
inductive Action where
  | allow | warn | mask | block
  | unknown (code : Nat)
  deriving DecidableEq

structure MaskVerdict where
  action : Action
  maskedHead : String
  reason : String

/-- What rule sets do: the verdict on a payload, and the fingerprint of the report. -/
structure RuleSemantics (R : Type) where
  verdict : R → String → MaskVerdict
  contentFingerprint : R → String
  fingerprint_injective : Function.Injective contentFingerprint

/-- `ContentVersionReason*`. -/
inductive UnknownReason where
  | childDegraded | unsupported | pollPending | pollFailed

/-- What a poll brought back; a report with the number of rule changes the child had gone through.
-/
inductive PollAnswer (R : Type) where
  | report (rules : R) (seen : Nat)
  | degraded
  | packsUnavailable
  | failed

/-- `answer` is a poll that was answered and not yet published, `changes` counts the rule changes
and respawns, `polled` is that count as of the last successful poll. -/
structure FilterChild (R : Type) where
  rules : R
  degraded : Bool
  healthy : Bool
  contentVersion : Option String
  contentVersionReason : Option UnknownReason
  answer : Option (PollAnswer R)
  changes : Nat
  polled : Option Nat

def FilterChild.init {R : Type} (rules : R) : FilterChild R :=
  ⟨rules, false, true, none, none, none, 0, none⟩

variable {R : Type}

/-- The child has answered a successful poll since its last rule change or respawn. -/
def FilterChild.Fresh (c : FilterChild R) : Prop :=
  c.polled = some c.changes
  deriving Decidable

/-- `contentVersionState`: the fingerprint, or why there is none. -/
def FilterChild.contentVersionState (c : FilterChild R) : Except UnknownReason String :=
  if c.degraded then .error .childDegraded
  else
    match c.contentVersion, c.contentVersionReason with
    | some v, _ => .ok v
    | none, some reason => .error reason
    | none, none => .error .pollPending

/-- `classifyContentVersionFailure`, with the flag as it is when the failure is published. -/
def FilterChild.classifyFailure (c : FilterChild R) : PollAnswer R → UnknownReason
  | .degraded => .childDegraded
  | .packsUnavailable | .report .. => if c.degraded then .childDegraded else .unsupported
  | .failed => if c.degraded then .childDegraded else .pollFailed

/-- `publishContentVersion`. A failed poll takes the published fingerprint back. -/
def FilterChild.publishContentVersion (sem : RuleSemantics R) (c : FilterChild R) :
    PollAnswer R → FilterChild R
  | .report rules seen =>
    { c with
      contentVersion := some (sem.contentFingerprint rules), contentVersionReason := none
      answer := none, polled := some seen }
  | failure =>
    { c with
      contentVersion := none, contentVersionReason := some (c.classifyFailure failure)
      answer := none }

inductive ChildEvent (R : Type) where
  | swapRules (rules : R)
  | crash
  | respawn (rules : R)
  | status (healthy : Bool)
  | pollRefused
  | pollReport
  | pollUnavailable
  | pollFailed
  | publish

/-- A restart leaves what was published; `refreshContentVersion` asks nothing of a degraded child.
-/
def childStep (sem : RuleSemantics R) (c : FilterChild R) : ChildEvent R → Option (FilterChild R)
  | .swapRules rules => some { c with rules, changes := c.changes + 1 }
  | .crash => some { c with degraded := true, healthy := false }
  | .respawn rules =>
    some { c with rules, degraded := false, healthy := true, changes := c.changes + 1 }
  | .status healthy => some { c with healthy }
  | .pollRefused =>
    if c.degraded ∧ c.answer.isNone then some { c with answer := some .degraded } else none
  | .pollReport =>
    if c.degraded = false ∧ c.answer.isNone then
      some { c with answer := some (.report c.rules c.changes) }
    else none
  | .pollUnavailable =>
    if c.answer.isNone then some { c with answer := some .packsUnavailable } else none
  | .pollFailed => if c.answer.isNone then some { c with answer := some .failed } else none
  | .publish => c.answer.map (c.publishContentVersion sem)

/-- The loop of `FilterPool.ContentVersion`: the tokens so far with the worker's own, or nothing if
the worker serves and cannot say what it is running. -/
def collectToken (tokens : List String) (w : FilterChild R) : Option (List String) :=
  match w.contentVersionState with
  | .ok v => some (if v ∈ tokens then tokens else tokens ++ [v])
  | .error _ => if w.healthy then none else some tokens

def composite (tokens : List String) : Option (List String) :=
  if tokens.isEmpty then none else some (tokens.insertionSort (· ≤ ·))

end AikeyProxy.AppHook
