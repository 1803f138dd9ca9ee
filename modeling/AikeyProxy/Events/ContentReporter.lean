import AikeyProxy.Events.Reporter

/-!
# The content outbox

Conversation content has an outbox of its own: a WAL whose files roll by size and are capped in
number, and a reporter with one destination. The writer appends in the middle of a pass, so a pass
is many steps: it reads the WAL, scans the entries, uploads a batch whenever one is full, and prunes
and arms the gate at its end.
-/

namespace AikeyProxy.Events

open Lib

/-! ## The content WAL -/

structure ContentWALEntry where
  sourceID : String
  record : String
  walSeq : Nat
  sourceSeq : Int
  deriving DecidableEq

abbrev ContentFile := LogFile ContentWALEntry

structure ContentWALConfig where
  maxBytes : Nat
  maxFiles : Nat
  /-- `NewContentWAL` replaces what is not positive. -/
  pos : 0 < maxBytes ∧ 0 < maxFiles

def defaultContentWALMaxBytes : Nat := 20 * 1024 * 1024

def defaultContentWALMaxFiles : Nat := 100

theorem limit_pos {d : Nat} (hd : 0 < d) (n : Int) : 0 < if n ≤ 0 then d else n.toNat := by
  split
  · exact hd
  · omega

def newContentWALConfig (maxBytes maxFiles : Int) : ContentWALConfig where
  maxBytes := if maxBytes ≤ 0 then defaultContentWALMaxBytes else maxBytes.toNat
  maxFiles := if maxFiles ≤ 0 then defaultContentWALMaxFiles else maxFiles.toNat
  pos := ⟨limit_pos (Nat.succ_pos _) _, limit_pos (Nat.succ_pos _) _⟩

structure ContentWAL where
  files : List ContentFile
  current : String
  curBytes : Nat
  seq : Nat
  rotCtr : Nat

def ContentWAL.init : ContentWAL := ⟨[], "", 0, 0, 0⟩

/-- The clock, the length of the encoded line, and which files can be removed. -/
structure AppendEnv where
  now : Nat
  incoming : Nat
  removable : String → Bool

def zeroPad (width n : Nat) : String :=
  String.ofList (List.replicate (width - (toString n).length) '0') ++ toString n

/-- Open-millis and rotation counter, padded so that lexical order is chronological. -/
def contentFileName (millis rotCtr : Nat) : String :=
  "conv-" ++ zeroPad 13 millis ++ "-" ++ zeroPad 4 rotCtr ++ ".jsonl"

def evictOver (removable : String → Bool) (current : String) :
    Nat → List ContentFile → List ContentFile
  | 0, fs => fs
  | _ + 1, [] => []
  | excess + 1, f :: fs =>
    -- the file being written stays, and so does one the file system keeps
    if f.name = current ∨ removable f.name = false then
      f :: evictOver removable current (excess + 1) fs
    else evictOver removable current excess fs

def evictBeyondCap (cfg : ContentWALConfig) (removable : String → Bool) (current : String)
    (files : List ContentFile) : List ContentFile :=
  if files.length ≤ cfg.maxFiles then files
  else evictOver removable current (files.length - cfg.maxFiles) (sortedFiles files)

/-- Keep the open file while the line fits, otherwise open the next one and make room. -/
def ContentWAL.ensureFile (cfg : ContentWALConfig) (env : AppendEnv) (w : ContentWAL) :
    ContentWAL :=
  if w.current ≠ "" ∧ ¬ (0 < w.curBytes ∧ cfg.maxBytes < w.curBytes + env.incoming) then w
  else
    let name := contentFileName env.now (w.rotCtr + 1)
    { w with
      files := evictBeyondCap cfg env.removable name (touch name w.files)
      current := name
      curBytes := 0
      rotCtr := w.rotCtr + 1 }

def ContentWAL.nextEntry (w : ContentWAL) (sourceID : String) (sourceSeq : Int)
    (record : String) : ContentWALEntry :=
  ⟨sourceID, record, w.seq + 1, sourceSeq⟩

def ContentWAL.append (cfg : ContentWALConfig) (env : AppendEnv) (w : ContentWAL)
    (e : ContentWALEntry) : ContentWAL :=
  let opened := w.ensureFile cfg env
  { opened with
    files := appendToFile opened.current e opened.files
    curBytes := opened.curBytes + env.incoming
    seq := w.seq + 1 }

/-- A file that cannot be opened yields nothing, one with a line of 32 MiB what stands before it. -/
def readAllContentWAL (reach : String → Nat) (files : List ContentFile) : List ContentWALEntry :=
  readAll reach files

/-! ## One upload -/

structure ContentReporterConfig where
  collectorURL : String
  batchSize : Nat
  /-- `NewContentReporter` never keeps a batch size below one. -/
  batchSize_pos : 0 < batchSize

theorem hundred_pos : 0 < 100 := by decide

theorem toNat_pos {n : Int} (h : ¬ n ≤ 0) : 0 < n.toNat := by omega

def newContentReporterConfig (collectorURL : String) (batchSize : Int) : ContentReporterConfig :=
  if h : batchSize ≤ 0 then ⟨collectorURL, 100, hundred_pos⟩
  else ⟨collectorURL, batchSize.toNat, toNat_pos h⟩

/-- It could not be encoded, a 2xx with its contiguous marks, or a failure; status 0 is a transport
error. -/
inductive ContentAnswer where
  | encodeFailed
  | ok (contiguousSeq : List (String × Int))
  | failed (status : Nat)

def retryableStatus (status : Nat) : Bool :=
  status = 0 || status = 429 || 500 ≤ status

def ContentAnswer.final : ContentAnswer → Bool
  | .encodeFailed => false
  | .ok _ => true
  | .failed status => !retryableStatus status

def ContentAnswer.retryable : ContentAnswer → Bool
  | .encodeFailed => false
  | .ok _ => false
  | .failed status => retryableStatus status

structure ContentReporter where
  sentSeq : String → Int
  confirmedSeq : String → Int
  consecutiveFailures : Nat
  nextUploadAttempt : Option Int

def ContentReporter.init : ContentReporter := ⟨fun _ => 0, fun _ => 0, 0, none⟩

def maxSeq (batch : List ContentWALEntry) : String → Int :=
  raiseAll (fun _ => 0) (batch.map fun e => (e.sourceID, e.sourceSeq))

def advance (sentSeq : String → Int) (batch : List ContentWALEntry) : String → Int :=
  raiseAll sentSeq (batch.map fun e => (e.sourceID, maxSeq batch e.sourceID))

variable (r : ContentReporter)

def ContentReporter.uploadBatch (batch : List ContentWALEntry)
    (answer : ContentAnswer) : ContentReporter :=
  match answer with
  | .encodeFailed => r
  | .ok contiguousSeq =>
    { r with
      sentSeq := advance r.sentSeq batch
      confirmedSeq := raiseAll r.confirmedSeq contiguousSeq
      consecutiveFailures := 0 }
  | .failed status =>
    if retryableStatus status then { r with consecutiveFailures := r.consecutiveFailures + 1 }
    else
      { r with
        sentSeq := advance r.sentSeq batch
        consecutiveFailures := r.consecutiveFailures + 1 }

/-! ## The parts of a pass -/

def ContentReporter.gated (now : Int) (force : Bool) : Bool :=
  !force &&
    match r.nextUploadAttempt with
    | none => false
    | some t => decide (now < t)

def ContentReporter.skips (e : ContentWALEntry) : Bool :=
  decide (e.sourceID = "") || decide (e.sourceSeq = 0) ||
    decide (e.sourceSeq ≤ r.sentSeq e.sourceID)

/-- The per-entry test of `PruneConfirmedContentWAL`. A source is in the map once a mark above zero
was merged for it. -/
def ContentReporter.entryConfirmed (e : ContentWALEntry) : Bool :=
  decide (e.sourceID ≠ "") && decide (e.sourceSeq ≠ 0) &&
    decide (0 < r.confirmedSeq e.sourceID) && decide (e.sourceSeq ≤ r.confirmedSeq e.sourceID)

def ContentReporter.prunes (env : PruneEnv) (current : String) (f : ContentFile) : Bool :=
  decide (f.name ≠ current) && env.readable f.name && decide (f.entries ≠ []) &&
    f.entries.all r.entryConfirmed && env.removable f.name

/-- `PruneConfirmedContentWAL`: the files that are left. -/
def ContentReporter.pruneConfirmed (env : PruneEnv) (current : String)
    (files : List ContentFile) : List ContentFile :=
  files.filter fun f => !r.prunes env current f

def ContentReporter.arm (anyRetryable : Bool) (now : Int) : ContentReporter :=
  { r with
    nextUploadAttempt :=
      if anyRetryable then some (now + backoffForFailures r.consecutiveFailures) else none }

/-! ## The system -/

/-- A pass: its sweep, and whether a batch failed retryably. -/
structure ContentPass extends Sweep ContentWALEntry ContentWALEntry where
  anyRetryable : Bool

structure ContentUpload where
  batch : List ContentWALEntry
  answer : ContentAnswer

def undelivered (us : List ContentUpload) (e : ContentWALEntry) : Bool :=
  us.all fun u => !u.answer.final || decide (e ∉ u.batch)

/-- The WAL, the reporter and the pass it is in. `appended` and `uploads` record the history. -/
structure ContentWorld where
  wal : ContentWAL
  rep : ContentReporter
  pass : Option ContentPass
  appended : List ContentWALEntry
  uploads : List ContentUpload

def ContentWorld.init : ContentWorld := ⟨.init, .init, none, [], []⟩

def ContentWorld.openEntries (s : ContentWorld) : List ContentWALEntry :=
  s.appended.filter (undelivered s.uploads)

structure ContentConfig extends ContentReporterConfig, ContentWALConfig

/-- What can happen. `flush none` is a flush that finds its context expired; a restart
loses everything but the files. -/
inductive ContentAct where
  | append (sourceID : String) (sourceSeq : Int) (record : String) (env : AppendEnv)
  | passStart (now : Int) (force : Bool) (reach : String → Nat)
  | scan
  | flush (answer : Option ContentAnswer)
  | passEnd (now : Int) (env : PruneEnv)
  | restart

def ContentPass.scan (p : ContentPass) : Option ContentPass :=
  match p.remaining with
  | [] => none
  | e :: rest =>
    if r.skips e then some ⟨p.skip rest, p.anyRetryable⟩
    else some ⟨p.select e rest, p.anyRetryable⟩

def ContentPass.flushed (p : ContentPass) (retryable : Bool) : ContentPass :=
  ⟨p.handOver, p.anyRetryable || retryable⟩

/-- A batch is uploaded when it is full, and at the end whatever it holds. -/
def ContentPass.mustFlush (cfg : ContentReporterConfig) (p : ContentPass) : Bool :=
  decide (p.pending ≠ []) &&
    (decide (cfg.batchSize ≤ p.pending.length) || decide (p.remaining = []))

def contentStep (cfg : ContentConfig) (s : ContentWorld) : ContentAct → Option ContentWorld
  | .append sourceID sourceSeq record env =>
    let e := s.wal.nextEntry sourceID sourceSeq record
    some { s with
      wal := s.wal.append cfg.toContentWALConfig env e
      appended := s.appended ++ [e] }
  | .passStart now force reach =>
    match s.pass with
    | some _ => none
    | none =>
      if cfg.collectorURL = "" ∨ s.rep.gated now force = true then some s
      else
        some { s with
          pass := some ⟨.start (readAllContentWAL reach s.wal.files) s.openEntries, false⟩ }
  | .scan =>
    match s.pass with
    | none => none
    | some p =>
      if cfg.batchSize ≤ p.pending.length then none
      else
        match p.scan s.rep with
        | none => none
        | some p' => some { s with pass := some p' }
  | .flush answer =>
    match s.pass with
    | none => none
    | some p =>
      if p.mustFlush cfg.toContentReporterConfig then
        match answer with
        | none => some { s with pass := some (p.flushed true) }
        | some answer =>
          some { s with
            rep := s.rep.uploadBatch p.pending answer
            pass := some (p.flushed answer.retryable)
            uploads := s.uploads ++ [⟨p.pending, answer⟩] }
      else none
  | .passEnd now env =>
    match s.pass with
    | none => none
    | some p =>
      if p.remaining = [] ∧ p.pending = [] then
        some { s with
          wal := { s.wal with files := s.rep.pruneConfirmed env s.wal.current s.wal.files }
          rep := s.rep.arm p.anyRetryable now
          pass := none }
      else none
  | .restart =>
    some { s with
      wal := { ContentWAL.init with files := s.wal.files }
      rep := .init
      pass := none }

end AikeyProxy.Events
