import AikeyProxy.Lib.Run
import AikeyProxy.Lib.HighWater
import AikeyProxy.Lib.Groups
import AikeyProxy.Lib.Sweep
import AikeyProxy.Events.Types

/-!
# The usage reporter

The WAL is the outbox. A drain pass reads all of it, selects the entries that no finished upload has
passed yet, uploads them in groups of one route source and one lane, and prunes the files the
collector has confirmed. Two cursors steer it, both keyed by source id: `sentSeq` decides what is
selected, `confirmedSeq` what is pruned.

Appends come while a pass is under way, so a pass is many steps. What the outside contributes
(clock, expiry, map order, answers, file-system failures) is an input of the step that meets it.
-/

namespace AikeyProxy.Events

open Lib

/-! ## Configuration -/

/-- The part of the reporter's configuration that routing and batching read. -/
structure ReporterConfig where
  collectorURL : String
  collectorRoutes : String → Option String
  batchSize : Nat
  /-- `NewReporter` never keeps a batch size below one. -/
  batchSize_pos : 0 < batchSize

/-- The configuration `NewReporter` keeps: a batch size that is not positive becomes 100. -/
def newReporterConfig (collectorURL : String) (collectorRoutes : String → Option String)
    (batchSize : Int) : ReporterConfig :=
  if h : batchSize ≤ 0 then ⟨collectorURL, collectorRoutes, 100, by decide⟩
  else ⟨collectorURL, collectorRoutes, batchSize.toNat, by omega⟩

variable (cfg : ReporterConfig)

/-- A configured route wins even when it is empty; only an absent one falls through. -/
def ReporterConfig.urlForRouteSource (routeSource : String) : String :=
  match cfg.collectorRoutes routeSource with
  | some u => u
  | none => cfg.collectorURL

def ReporterConfig.urlForEvent (ev : ReportableEvent) : String :=
  cfg.urlForRouteSource ev.routeSource

/-! ## One upload -/

inductive FailureType where
  | terminalFailure
  | retryableFailure

def classifyUploadError (statusCode : Nat) : FailureType :=
  if statusCode = 401 ∨ statusCode = 403 then .terminalFailure
  else if statusCode = 400 then .terminalFailure
  else .retryableFailure

/-- A 2xx with the contiguous marks of its reply, or a failure with its status code. -/
inductive Answer where
  | ok (contiguousSeq : List (String × Int))
  | failed (statusCode : Nat)
  deriving DecidableEq

inductive UploadGroupResult where
  | groupDone
  | groupRetryLater
  deriving DecidableEq

/-- Uploaded, or dead-lettered: the group is finished locally. -/
def Answer.result : Answer → UploadGroupResult
  | .ok _ => .groupDone
  | .failed statusCode =>
    match classifyUploadError statusCode with
    | .terminalFailure => .groupDone
    | .retryableFailure => .groupRetryLater

def Answer.marks : Answer → List (String × Int)
  | .ok contiguousSeq => contiguousSeq
  | .failed _ => []

structure Reporter where
  sentSeq : String → Int
  confirmedSeq : String → Int
  seenV1 : String → Bool
  consecutiveFailures : Nat
  /-- The backoff gate; `none` is Go's zero time. -/
  nextUploadAttempt : Option Int

def Reporter.init : Reporter :=
  ⟨fun _ => 0, fun _ => 0, fun _ => false, 0, none⟩

variable (r : Reporter)

/-- One upload attempt: a success merges the reply's marks into `confirmedSeq`. -/
def Reporter.uploadGroupTo (answer : Answer) : Reporter × UploadGroupResult :=
  match answer with
  | .ok contiguousSeq =>
    ({ r with
        confirmedSeq := raiseAll r.confirmedSeq contiguousSeq
        consecutiveFailures := 0 }, .groupDone)
  | .failed statusCode =>
    match classifyUploadError statusCode with
    | .terminalFailure => ({ r with consecutiveFailures := r.consecutiveFailures + 1 }, .groupDone)
    | .retryableFailure =>
      ({ r with consecutiveFailures := r.consecutiveFailures + 1 }, .groupRetryLater)

/-- A finished event moves its source's cursor, or, without a number, is marked seen. -/
def Reporter.markEvent (ev : ReportableEvent) : Reporter :=
  match ev.sourceSeq with
  | some n => { r with sentSeq := raise r.sentSeq ev.sourceID n }
  | none =>
    if ev.eventID = "" then r
    else { r with seenV1 := Function.update r.seenV1 ev.eventID true }

def Reporter.markProcessed (group : List ReportableEvent) : Reporter :=
  group.foldl Reporter.markEvent r

/-! ## One call of `uploadPending` -/

structure GroupKey where
  routeSource : String
  lane : String
  deriving DecidableEq

def groupKeyOf (ev : ReportableEvent) : GroupKey := ⟨ev.routeSource, laneOfEvent ev⟩

structure Upload where
  url : String
  group : List ReportableEvent
  answer : Answer
  deriving DecidableEq

/-- The lane `uploadGroupTo` takes a batch to be of: that of its first event. -/
def Upload.lane (u : Upload) : String :=
  match u.group with
  | [] => ""
  | ev :: _ => laneOfEvent ev

def Upload.done (u : Upload) : Bool := decide (u.answer.result = .groupDone)

/-- What one call of `uploadPending` meets. Each group is tried once, so answers and checks are
indexed by the group's key. -/
structure FlushEnv where
  order : List (GroupKey × List ReportableEvent) → List (GroupKey × List ReportableEvent)
  /-- Go iterates the map of groups in some order. -/
  order_perm : ∀ gs, (order gs).Perm gs
  groupExpired : GroupKey → Bool
  answer : GroupKey → Answer

/-- The reporter, the uploads it made, whether a group must be retried. -/
structure FlushResult where
  rep : Reporter
  made : List Upload
  anyRetryable : Bool

/-- The loop over the groups; an expired context leaves the rest in the WAL. -/
def uploadGroups (cfg : ReporterConfig) (env : FlushEnv) (r : Reporter) :
    List (GroupKey × List ReportableEvent) → FlushResult
  | [] => ⟨r, [], false⟩
  | (key, group) :: rest =>
    if env.groupExpired key then ⟨r, [], true⟩
    else
      let u : Upload := ⟨cfg.urlForRouteSource key.routeSource, group, env.answer key⟩
      match r.uploadGroupTo (env.answer key) with
      | (r', .groupDone) =>
        let out := uploadGroups cfg env (r'.markProcessed group) rest
        ⟨out.rep, u :: out.made, out.anyRetryable⟩
      | (r', .groupRetryLater) =>
        let out := uploadGroups cfg env r' rest
        ⟨out.rep, u :: out.made, true⟩

/-- The groups of a batch; events without a destination stay in the WAL. -/
def groupsOf (batch : List ReportableEvent) : List (GroupKey × List ReportableEvent) :=
  groupBy groupKeyOf (batch.filter fun ev => decide (cfg.urlForEvent ev ≠ ""))

def uploadPending (env : FlushEnv) (r : Reporter) (batch : List ReportableEvent) : FlushResult :=
  uploadGroups cfg env r (env.order (groupsOf cfg batch))

/-! ## Pruning -/

structure PruneEnv where
  readable : String → Bool
  removable : String → Bool

def Reporter.entryPrunable (e : WALEntry) : Bool :=
  if e.numbered then decide (e.sourceSeq ≤ r.confirmedSeq e.sourceID)
  else decide (e.eventJSON.eventID ≠ "") && r.seenV1 e.eventJSON.eventID

def Reporter.filePrunable (entries : List WALEntry) : Bool :=
  entries.all r.entryPrunable && entries.any WALEntry.numbered

def Reporter.prunes (env : PruneEnv) (current : String) (f : WALFile) : Bool :=
  decide (f.name ≠ current) && env.readable f.name && r.filePrunable f.entries
    && env.removable f.name

/-- `pruneConfirmedWAL`: the files that are left. -/
def Reporter.pruneConfirmedWAL (env : PruneEnv) (current : String)
    (files : List WALFile) : List WALFile :=
  files.filter fun f => !r.prunes env current f

/-! ## The parts of a pass -/

def backoffForFailures (n : Nat) : Int :=
  if n ≤ 1 then 5000 else if n = 2 then 15000 else 60000

def Reporter.gated (now : Int) (force : Bool) : Bool :=
  !force &&
    match r.nextUploadAttempt with
    | none => false
    | some t => decide (now < t)

/-- The entry was handed to a finished upload already, or cannot be uploaded. -/
def Reporter.skips (e : WALEntry) : Bool :=
  if e.numbered then decide (e.sourceSeq ≤ r.sentSeq e.sourceID)
  else r.seenV1 e.eventJSON.eventID || decide (e.eventJSON.eventID = "")

/-- Arm or clear the backoff gate for the next pass. -/
def Reporter.arm (anyRetryable : Bool) (now : Int) : Reporter :=
  { r with
    nextUploadAttempt :=
      if anyRetryable then some (now + backoffForFailures r.consecutiveFailures) else none }

/-- A pass: its sweep, and whether a group must be retried. -/
structure Pass extends Sweep WALEntry ReportableEvent where
  anyRetryable : Bool

def Pass.scan (p : Pass) : Option Pass :=
  match p.remaining with
  | [] => none
  | e :: rest =>
    if r.skips e then some ⟨p.skip rest, p.anyRetryable⟩
    else some ⟨p.select e.wireEvent rest, p.anyRetryable⟩

/-- A call of `uploadPending` is due: the batch is full, or it is the last one. -/
def Pass.mustFlush (p : Pass) : Bool :=
  decide (p.pending ≠ []) &&
    (decide (cfg.batchSize ≤ p.pending.length) || decide (p.remaining = []))

/-- The context has expired: the rest stays in the WAL. Only the check inside the loop arms the
backoff. -/
def Pass.expire (p : Pass) : Pass :=
  ⟨p.stop, p.anyRetryable || decide (cfg.batchSize ≤ p.pending.length)⟩

/-! ## The system -/

def finishedEvents (us : List Upload) : List ReportableEvent :=
  (us.filter Upload.done).flatMap Upload.group

/-- Numbered, routable, and in no finished group of `us`. -/
def isOpen (us : List Upload) (ev : ReportableEvent) : Bool :=
  decide (0 < ev.seq) && decide (cfg.urlForEvent ev ≠ "") && decide (ev ∉ finishedEvents us)

/-- `appended` and `uploads` record the history. -/
structure World where
  files : List WALFile
  current : String
  rep : Reporter
  pass : Option Pass
  appended : List ReportableEvent
  uploads : List Upload

def World.init : World := ⟨[], "", Reporter.init, none, [], []⟩

def World.openEvents (w : World) : List ReportableEvent :=
  w.appended.filter (isOpen cfg w.uploads)

def World.append (w : World) (ev : ReportableEvent) (hour : String) : World :=
  { w with
    files := appendToFile (walFileName hour) (walEntryOf ev) w.files
    current := walFileName hour
    appended := w.appended ++ [ev] }

/-- What can happen; a pass is a start, scans and calls of `uploadPending`, and an end. -/
inductive Act where
  | append (ev : ReportableEvent) (hour : String)
  /-- The pass gets `reach` entries into each file it reads. -/
  | passStart (now : Int) (force : Bool) (reach : String → Nat)
  | scan
  | flush (env : FlushEnv)
  | expire
  | passEnd (now : Int) (env : PruneEnv)

def step (w : World) : Act → Option World
  | .append ev hour => some (w.append ev hour)
  | .passStart now force reach =>
    match w.pass with
    | some _ => none
    | none =>
      if w.rep.gated now force then some w
      else
        some { w with pass := some ⟨.start (readAllWAL reach w.files) (w.openEvents cfg), false⟩ }
  | .scan =>
    match w.pass with
    | none => none
    | some p =>
      if cfg.batchSize ≤ p.pending.length then none
      else
        match p.scan w.rep with
        | none => none
        | some p' => some { w with pass := some p' }
  | .flush env =>
    match w.pass with
    | none => none
    | some p =>
      if p.mustFlush cfg then
        let out := uploadPending cfg env w.rep p.pending
        some { w with
          rep := out.rep
          pass := some ⟨p.handOver, p.anyRetryable || out.anyRetryable⟩
          uploads := w.uploads ++ out.made }
      else none
  | .expire =>
    match w.pass with
    | none => none
    | some p => if p.mustFlush cfg then some { w with pass := some (p.expire cfg) } else none
  | .passEnd now env =>
    match w.pass with
    | none => none
    | some p =>
      if p.remaining = [] ∧ p.pending = [] then
        some { w with
          files := w.rep.pruneConfirmedWAL env w.current w.files
          rep := w.rep.arm p.anyRetryable now
          pass := none }
      else none

end AikeyProxy.Events
