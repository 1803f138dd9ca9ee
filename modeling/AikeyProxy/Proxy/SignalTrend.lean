import AikeyProxy.Lib.Run
import AikeyProxy.Lib.Trend
import Mathlib.Data.Rat.Defs

/-!
# The trend signals of the signal reporter

Requests count the 429 and 403 responses of a credential and the requests in flight for it. Every
thirty seconds the loop reads both and clears them; a credential that had an entry in the window
before and has none now is read as zero, once. What was read is merged into a buffer that waits for
an upload: counts are added, of two peaks the larger is kept.

A tick and its upload are one step; requests in between change tables the rest of the tick does not
read.
-/

namespace AikeyProxy.Proxy

open Lib

def maxPendingSignalCredentials : Nat := 2048

def maxPendingSchedulingEvents : Nat := 4096

def signalFlushInterval : Nat := 30

/-! ## Samples

A sample belongs to the credential it is kept or sent under. -/

structure SignalSample where
  ts : Int
  util5h : ℚ
  util7d : Option ℚ

structure RateLimitSample where
  count : Nat
  windowSecs : Nat
  forbiddenCount : Nat
  fallbackCount : Nat
  risk429Count : Nat

/-- A map of counts; a credential without an entry counts as zero. -/
abbrev Tally := Table String Nat

def Tally.get (t : Tally) (id : String) : Nat := (AList.lookup id t).getD 0

def Tally.bump (t : Tally) (id : String) : Tally := AList.insert id (t.get id + 1) t

/-! ## The retry buffer -/

variable {Ev : Type}

structure SignalTrendAccumulator (Ev : Type) where
  credentials : Finset String
  util : Table String SignalSample
  revoked : Table String String
  rate : Table String RateLimitSample
  conc : Tally
  events : List Ev

def newSignalTrendAccumulator : SignalTrendAccumulator Ev where
  credentials := ∅
  util := ∅
  revoked := ∅
  rate := ∅
  conc := ∅
  events := []

def SignalTrendAccumulator.acceptCredential (a : SignalTrendAccumulator Ev) (id : String) :
    Option (SignalTrendAccumulator Ev) :=
  if id ∈ a.credentials then some a
  else if maxPendingSignalCredentials ≤ a.credentials.card then none
  else some { a with credentials := insert id a.credentials }

/-- `none` if the sample is dropped. -/
def SignalTrendAccumulator.addUtil (a : SignalTrendAccumulator Ev) (id : String)
    (s : SignalSample) : Option (SignalTrendAccumulator Ev) :=
  match a.util.lookup id with
  | some current => some (if current.ts ≤ s.ts then { a with util := a.util.insert id s } else a)
  | none => (a.acceptCredential id).map fun a => { a with util := a.util.insert id s }

def SignalTrendAccumulator.addRevoked (a : SignalTrendAccumulator Ev) (id reason : String) :
    Option (SignalTrendAccumulator Ev) :=
  let accepted := if id ∈ a.revoked then some a else a.acceptCredential id
  accepted.map fun a => { a with revoked := a.revoked.insert id reason }

def SignalTrendAccumulator.addEvent (a : SignalTrendAccumulator Ev) (e : Ev) :
    Option (SignalTrendAccumulator Ev) :=
  if maxPendingSchedulingEvents ≤ a.events.length then none
  else some { a with events := a.events ++ [e] }

/-- Windows that could not be uploaded are combined into a longer one. -/
def RateLimitSample.combine : Option RateLimitSample → RateLimitSample → RateLimitSample
  | none, sample => sample
  | some current, sample =>
    { count := current.count + sample.count
      windowSecs := current.windowSecs + sample.windowSecs
      forbiddenCount := current.forbiddenCount + sample.forbiddenCount
      fallbackCount := current.fallbackCount + sample.fallbackCount
      risk429Count := current.risk429Count + sample.risk429Count }

def combinePeak : Option Nat → Nat → Nat
  | none, peak => peak
  | some current, peak => if current < peak then peak else current

/-- The buffer and the number of samples dropped. -/
def SignalTrendAccumulator.mergeRate (a : SignalTrendAccumulator Ev)
    (samples : List (String × RateLimitSample)) : SignalTrendAccumulator Ev × Nat :=
  let m := Retry.mergeAll maxPendingSignalCredentials RateLimitSample.combine
    ⟨a.credentials, a.rate, 0⟩ samples
  ({ a with credentials := m.places, rate := m.values }, m.dropped)

def SignalTrendAccumulator.mergeConcurrency (a : SignalTrendAccumulator Ev)
    (samples : List (String × Nat)) : SignalTrendAccumulator Ev × Nat :=
  let m := Retry.mergeAll maxPendingSignalCredentials combinePeak ⟨a.credentials, a.conc, 0⟩ samples
  ({ a with credentials := m.places, conc := m.values }, m.dropped)

def SignalTrendAccumulator.count (a : SignalTrendAccumulator Ev) : Nat :=
  a.util.entries.length + a.revoked.entries.length + a.rate.entries.length +
    a.conc.entries.length + a.events.length

structure SignalUpload (Ev : Type) where
  samples : List (Sigma fun _ : String => SignalSample)
  revoked : List (Sigma fun _ : String => String)
  rateLimits : List (Sigma fun _ : String => RateLimitSample)
  concurrency : List (Sigma fun _ : String => Nat)
  events : List Ev

def SignalTrendAccumulator.slices (a : SignalTrendAccumulator Ev) : SignalUpload Ev :=
  ⟨a.util.entries, a.revoked.entries, a.rate.entries, a.conc.entries, a.events⟩

/-! ## The reporter -/

/-- `openRequests` are the requests in flight, one entry each; `refusals` and `forwards` are the
credentials ever counted. The uploads stand newest first. -/
structure SignalReporter (Ev : Type) where
  rlCounts : Tally
  rlFallback : Tally
  rlForbidden : Tally
  rlRisk : Tally
  rlPrevious : Finset String
  inflCur : Tally
  inflPeak : Tally
  inflPrevious : Finset String
  configured : Bool
  stopped : Bool
  pending : SignalTrendAccumulator Ev
  droppedSignals : Nat
  delivered : List (SignalUpload Ev)
  openRequests : List String
  refusals : List String
  forwards : List String

def newDormantSignalReporter : SignalReporter Ev where
  rlCounts := ∅
  rlFallback := ∅
  rlForbidden := ∅
  rlRisk := ∅
  rlPrevious := ∅
  inflCur := ∅
  inflPeak := ∅
  inflPrevious := ∅
  configured := false
  stopped := false
  pending := newSignalTrendAccumulator
  droppedSignals := 0
  delivered := []
  openRequests := []
  refusals := []
  forwards := []

variable (r : SignalReporter Ev)

def SignalReporter.incrRateLimitHop (id : String)
    (duringFallback forbidden : Bool) : SignalReporter Ev :=
  if id = "" then r
  else
    { r with
      rlCounts := r.rlCounts.bump id
      rlFallback := if duringFallback then r.rlFallback.bump id else r.rlFallback
      rlForbidden := if forbidden then r.rlForbidden.bump id else r.rlForbidden
      rlRisk := if !duringFallback && !forbidden then r.rlRisk.bump id else r.rlRisk
      refusals := id :: r.refusals }

def SignalReporter.rateIds : Finset String :=
  r.rlCounts.keys.toFinset ∪ r.rlPrevious

def SignalReporter.rateSample (id : String) : RateLimitSample where
  count := r.rlCounts.get id
  windowSecs := signalFlushInterval
  forbiddenCount := r.rlForbidden.get id
  fallbackCount := r.rlFallback.get id
  risk429Count := r.rlRisk.get id

/-- A map is iterated in any order, here `order`. -/
def SignalReporter.snapshotRateLimits (order : List String) :
    List (String × RateLimitSample) × SignalReporter Ev :=
  if r.rlCounts.entries.length = 0 ∧ r.rlPrevious.card = 0 then ([], r)
  else
    (order.map fun id => (id, r.rateSample id),
      { r with
        rlPrevious := r.rlCounts.keys.toFinset
        rlCounts := ∅
        rlFallback := ∅
        rlForbidden := ∅
        rlRisk := ∅ })

def SignalReporter.trackInflight (id : String) : SignalReporter Ev :=
  if id = "" then r
  else
    let inflCur := r.inflCur.bump id
    { r with
      inflCur
      inflPeak :=
        if r.inflPeak.get id < inflCur.get id then r.inflPeak.insert id (inflCur.get id)
        else r.inflPeak
      openRequests := id :: r.openRequests
      forwards := id :: r.forwards }

/-- The function that `trackInflight` returned; every request calls its own once. -/
def SignalReporter.release (id : String) : Option (SignalReporter Ev) :=
  if id ∈ r.openRequests then
    let inflCur : Tally :=
      if 0 < r.inflCur.get id then r.inflCur.insert id (r.inflCur.get id - 1) else r.inflCur
    some { r with
      inflCur := if inflCur.get id = 0 then inflCur.erase id else inflCur
      openRequests := r.openRequests.erase id }
  else none

def SignalReporter.windowPeaks : Tally :=
  r.inflCur.entries.foldl
    (fun peaks e => if Tally.get peaks e.1 < e.2 then AList.insert e.1 e.2 peaks else peaks)
    r.inflPeak

def SignalReporter.concIds : Finset String :=
  r.windowPeaks.keys.toFinset ∪ r.inflPrevious

def SignalReporter.snapshotConcurrency (order : List String) :
    List (String × Nat) × SignalReporter Ev :=
  let peaks := r.windowPeaks
  if peaks.entries.length = 0 ∧ r.inflPrevious.card = 0 then ([], { r with inflPeak := peaks })
  else
    (order.map fun id => (id, peaks.get id),
      { r with inflPrevious := peaks.keys.toFinset, inflPeak := ∅ })

/-! ## The loop -/

/-- The control plane has it and said so, does not have it, or has it and the reporter does not
know. -/
inductive UploadOutcome where
  | ok
  | failed
  | unconfirmed
  deriving DecidableEq

/-- `flush`, its part for the trends. `live` is the number of window states and observed resets sent
along, which are read anew for every upload. -/
def SignalReporter.flush (rate : List (String × RateLimitSample))
    (conc : List (String × Nat)) (live : Nat) (outcome : UploadOutcome) : SignalReporter Ev :=
  let (pending, droppedRate) := r.pending.mergeRate rate
  let (pending, droppedConc) := pending.mergeConcurrency conc
  let r := { r with pending, droppedSignals := r.droppedSignals + (droppedRate + droppedConc) }
  if pending.count = 0 ∧ live = 0 then r
  else if r.configured = false then r
  else
    match outcome with
    | .ok =>
      { r with delivered := pending.slices :: r.delivered, pending := newSignalTrendAccumulator }
    | .failed => r
    | .unconfirmed => { r with delivered := pending.slices :: r.delivered }

/-- A tick of the loop: both snapshots and a flush. -/
def SignalReporter.flushWindow (rateOrder concOrder : List String)
    (live : Nat) (outcome : UploadOutcome) : SignalReporter Ev :=
  let (rate, r) := r.snapshotRateLimits rateOrder
  let (conc, r) := r.snapshotConcurrency concOrder
  r.flush rate conc live outcome

inductive SignalAct (Ev : Type) where
  | incrRateLimitHop (id : String) (duringFallback forbidden : Bool)
  | trackInflight (id : String)
  | release (id : String)
  | util (id : String) (s : SignalSample)
  | revoked (id reason : String)
  | event (e : Ev)
  /-- the loop flushes because of an auth failure or a new configuration -/
  | wake (live : Nat) (outcome : UploadOutcome)
  | tick (rateOrder concOrder : List String) (live : Nat) (outcome : UploadOutcome)
  | stop (rateOrder concOrder : List String) (live : Nat) (outcome : UploadOutcome)
  | configure (enabled : Bool)

/-- The loop adds a sample to the buffer or counts it as dropped. -/
def SignalReporter.adds (added : Option (SignalTrendAccumulator Ev)) : SignalReporter Ev :=
  match added with
  | some pending => { r with pending }
  | none => { r with droppedSignals := r.droppedSignals + 1 }

def SignalReporter.Orders (rateOrder concOrder : List String) : Prop :=
  (rateOrder.Nodup ∧ rateOrder.toFinset = r.rateIds) ∧
    (concOrder.Nodup ∧ concOrder.toFinset = r.concIds)
  deriving Decidable

def signalStep : SignalAct Ev → Option (SignalReporter Ev)
  | .incrRateLimitHop id duringFallback forbidden =>
    some (r.incrRateLimitHop id duringFallback forbidden)
  | .trackInflight id => some (r.trackInflight id)
  | .release id => r.release id
  | .util id s => if r.stopped then none else some (r.adds (r.pending.addUtil id s))
  | .revoked id reason => if r.stopped then none else some (r.adds (r.pending.addRevoked id reason))
  | .event e => if r.stopped then none else some (r.adds (r.pending.addEvent e))
  | .wake live outcome => if r.stopped then none else some (r.flush [] [] live outcome)
  | .tick rateOrder concOrder live outcome =>
    if r.stopped = false ∧ r.Orders rateOrder concOrder then
      some (r.flushWindow rateOrder concOrder live outcome)
    else none
  | .stop rateOrder concOrder live outcome =>
    if r.stopped = false ∧ r.Orders rateOrder concOrder then
      some { r.flushWindow rateOrder concOrder live outcome with stopped := true }
    else none
  | .configure enabled => some { r with configured := enabled }

end AikeyProxy.Proxy
