import AikeyProxy.Lib.Json
import AikeyProxy.Supervisor.Revocation

/-!
# The journal of auth failures

The reporter keeps the hard-revoked tokens that Control has not accepted yet in memory and in a
journal with one JSON record on each line. Ingesting and acknowledging append records; a compaction
renames a new file over the old one; a start replays the file. An append that fails may leave any
front part of its bytes.
-/

namespace AikeyProxy.Proxy

open Lib Json
open Supervisor (trimSpace equalFold)

def authFailureJournalVersion : Int64 := 1

def maxPendingAuthFailures : Nat := 4096

def maxAuthFailureJournalBytes : Nat := 8 * 1024 * 1024

structure AuthFailureSample where
  credentialID : String
  oauthGroupID : String
  seatID : String
  tokenFingerprint : String
  reason : String
  upstreamStatus : Int64
  upstreamErrorType : String
  deriving DecidableEq

def AuthFailureSample.zero : AuthFailureSample := ⟨"", "", "", "", "", 0, ""⟩

section

variable (s : AuthFailureSample)

/-- What `enqueueAuthFailure` lets through and `hydrateAuthFailurePut` accepts. -/
def AuthFailureSample.complete : Bool :=
  s.credentialID ≠ "" && s.oauthGroupID ≠ "" && s.seatID ≠ "" && s.tokenFingerprint ≠ ""

def authFailureKey : String :=
  s.credentialID ++ "|" ++ s.oauthGroupID ++ "|" ++ s.seatID

structure AuthFailureJournalRecord where
  version : Int64
  op : String
  failure : Option AuthFailureSample
  deriving DecidableEq

def putRecord : AuthFailureJournalRecord :=
  ⟨authFailureJournalVersion, "put", some s⟩

def deleteRecord : AuthFailureJournalRecord :=
  ⟨authFailureJournalVersion, "delete", some s⟩

/-! ### Records as JSON -/

/-- The fields of a failure in the order of the struct. -/
inductive SampleField where
  | credentialID
  | oauthGroupID
  | seatID
  | tokenFingerprint
  | reason
  | upstreamStatus
  | upstreamErrorType
  deriving DecidableEq

def SampleField.all : List SampleField :=
  [.credentialID, .oauthGroupID, .seatID, .tokenFingerprint, .reason, .upstreamStatus,
    .upstreamErrorType]

def SampleField.tag : SampleField → String
  | .credentialID => "credential_id"
  | .oauthGroupID => "oauth_group_id"
  | .seatID => "seat_id"
  | .tokenFingerprint => "token_fingerprint"
  | .reason => "reason"
  | .upstreamStatus => "upstream_status"
  | .upstreamErrorType => "upstream_error_type"

/-- The value written for a field; the last two are left out when they are zero. -/
def SampleField.write : SampleField → Option Json
  | .credentialID => some (.str s.credentialID)
  | .oauthGroupID => some (.str s.oauthGroupID)
  | .seatID => some (.str s.seatID)
  | .tokenFingerprint => some (.str s.tokenFingerprint)
  | .reason => some (.str s.reason)
  | .upstreamStatus => if s.upstreamStatus = 0 then none else some (.ofInt s.upstreamStatus.toInt)
  | .upstreamErrorType =>
    if s.upstreamErrorType = "" then none else some (.str s.upstreamErrorType)

def marshalSample : Json :=
  .obj (SampleField.all.filterMap fun f => (f.write s).map fun v => (f.tag, v))

end

def marshalRecord (r : AuthFailureJournalRecord) : Json :=
  .obj ([("version", .ofInt r.version.toInt), ("op", .str r.op)] ++
    match r.failure with
    | none => []
    | some s => [("failure", marshalSample s)])

def SampleField.read (s : AuthFailureSample) (v : Json) : SampleField → Option AuthFailureSample
  | .credentialID => (readString s.credentialID v).map fun x => { s with credentialID := x }
  | .oauthGroupID => (readString s.oauthGroupID v).map fun x => { s with oauthGroupID := x }
  | .seatID => (readString s.seatID v).map fun x => { s with seatID := x }
  | .tokenFingerprint =>
    (readString s.tokenFingerprint v).map fun x => { s with tokenFingerprint := x }
  | .reason => (readString s.reason v).map fun x => { s with reason := x }
  | .upstreamStatus => (readInt s.upstreamStatus v).map fun x => { s with upstreamStatus := x }
  | .upstreamErrorType =>
    (readString s.upstreamErrorType v).map fun x => { s with upstreamErrorType := x }

/-- One member of an object, read into the field whose name it carries in any case. -/
def readSampleMember (s : AuthFailureSample) (m : String × Json) : Option AuthFailureSample :=
  match SampleField.all.find? fun f => equalFold m.1 f.tag with
  | none => some s
  | some f => f.read s m.2

def unmarshalSample (old : AuthFailureSample) : Json → Option AuthFailureSample
  | .obj members => members.foldlM readSampleMember old
  | .null => some old
  | _ => none

def readRecordMember (r : AuthFailureJournalRecord) (m : String × Json) :
    Option AuthFailureJournalRecord :=
  if equalFold m.1 "version" then (readInt r.version m.2).map fun v => { r with version := v }
  else if equalFold m.1 "op" then (readString r.op m.2).map fun v => { r with op := v }
  else if equalFold m.1 "failure" then
    match m.2 with
    | .null => some { r with failure := none }
    | v => (unmarshalSample (r.failure.getD .zero) v).map fun s => { r with failure := some s }
  else some r

def unmarshalRecord (line : List Char) : Option AuthFailureJournalRecord :=
  match Json.parse line with
  | some (.obj members) => members.foldlM readRecordMember ⟨0, "", none⟩
  | some .null => some ⟨0, "", none⟩
  | _ => none

/-! ### The outbox in memory -/

structure AuthOutbox where
  authFailures : Table String AuthFailureSample
  authDurable : Table String AuthFailureSample
  authJournalOps : Nat
  authJournalBytes : Nat

def AuthOutbox.empty : AuthOutbox := ⟨∅, ∅, 0, 0⟩

def valueAt (t : Table String AuthFailureSample) (key : String) : AuthFailureSample :=
  (t.lookup key).getD .zero

def hydrateAuthFailurePut (o : AuthOutbox) (s : AuthFailureSample) : AuthOutbox :=
  if !s.complete then o
  else
    let key := authFailureKey s
    if key ∉ o.authFailures ∧ maxPendingAuthFailures ≤ o.authFailures.entries.length then o
    else
      { o with
        authFailures := o.authFailures.insert key s
        authDurable := o.authDurable.insert key s }

def replayRecord (o : AuthOutbox) (r : AuthFailureJournalRecord) : AuthOutbox :=
  match r.failure with
  | none => o
  | some s =>
    if r.version ≠ authFailureJournalVersion then o
    else
      let o := { o with authJournalOps := o.authJournalOps + 1 }
      if r.op = "put" then hydrateAuthFailurePut o s
      else if r.op = "delete" then
        let key := authFailureKey s
        if valueAt o.authFailures key = s then
          { o with
            authFailures := o.authFailures.erase key
            authDurable := o.authDurable.erase key }
        else o
      else o

def replayLine (o : AuthOutbox) (line : List Char) : AuthOutbox :=
  let line := trimSpace line
  if line = [] then o
  else
    match unmarshalRecord line with
    | none => o
    | some r => replayRecord o r

def splitLines : List Char → List (List Char)
  | [] => [[]]
  | c :: cs =>
    if c = '\n' then [] :: splitLines cs
    else
      match splitLines cs with
      | [] => [[c]]
      | line :: lines => (c :: line) :: lines

def textBytes (cs : List Char) : Nat := (cs.map Char.utf8Size).sum

/-- The failures of a snapshot of the predecessor: `none` for a text that is no snapshot, `some
none` for one that cannot be read. -/
def legacyFailures (raw : List Char) : Option (Option (List AuthFailureSample)) :=
  match Json.parse raw with
  | some (.obj members) =>
    match members.reverse.find? fun m => m.1 = "auth_failures" with
    | none => none
    | some (_, .arr items) => some (items.mapM (unmarshalSample .zero))
    | some (_, .null) => some (some [])
    | some _ => some none
  | _ => none

/-! ### The journal on disk -/

def encodeRecords (records : List AuthFailureJournalRecord) : List Char :=
  records.flatMap fun r => (marshalRecord r).print ++ ['\n']

/-- The journal, the reporter's memory, and the appends that were tried so far. -/
structure AuthWorld where
  file : Option (List Char)
  outbox : AuthOutbox
  attempts : List (Bool × List AuthFailureJournalRecord)

def AuthWorld.init : AuthWorld := ⟨none, .empty, []⟩

/-- How an append ends: synced, or with an error after so many characters. -/
inductive AppendOutcome where
  | done
  | fails (left : Nat)

def AppendOutcome.ok : AppendOutcome → Bool
  | .done => true
  | .fails _ => false

variable (w : AuthWorld)

def appendAuthFailureJournal (records : List AuthFailureJournalRecord)
    (outcome : AppendOutcome) : AuthWorld :=
  let data := encodeRecords records
  let file :=
    match outcome with
    | .done => some (w.file.getD [] ++ data)
    | .fails 0 => w.file
    | .fails left => some (w.file.getD [] ++ data.take left)
  { w with file, attempts := w.attempts ++ [(outcome.ok, records)] }

def snapshotAuthFailures (o : AuthOutbox) : List AuthFailureSample :=
  o.authFailures.entries.map Sigma.snd

/-- A compaction: the new file takes the place of the old one, or nothing happens. -/
def compactAuthFailureJournal (done : Bool) : AuthWorld :=
  if !done then w
  else
    let failures := snapshotAuthFailures w.outbox
    if failures = [] then
      { w with
        file := none
        outbox := { w.outbox with authJournalOps := 0, authJournalBytes := 0 } }
    else
      let sorted := failures.insertionSort fun a b => authFailureKey a ≤ authFailureKey b
      let records := sorted.map putRecord
      let data := encodeRecords records
      { w with
        file := some data
        outbox :=
          { w.outbox with
            authJournalOps := records.length
            authJournalBytes := textBytes data } }

def compactAuthFailureJournalIfNeeded (done : Bool) : AuthWorld :=
  if w.outbox.authJournalOps < maxPendingAuthFailures * 2 ∧
      w.outbox.authJournalBytes < maxAuthFailureJournalBytes / 2 then w
  else compactAuthFailureJournal w done

def countAppend (records : List AuthFailureJournalRecord) : AuthWorld :=
  { w with
    outbox :=
      { w.outbox with
        authJournalOps := w.outbox.authJournalOps + records.length
        authJournalBytes := w.outbox.authJournalBytes + textBytes (encodeRecords records) } }

def ingestSample (durable : Table String AuthFailureSample)
    (acc : Table String AuthFailureSample × List AuthFailureJournalRecord)
    (s : AuthFailureSample) : Table String AuthFailureSample × List AuthFailureJournalRecord :=
  let key := authFailureKey s
  if key ∈ acc.1 ∧ valueAt acc.1 key = s ∧ valueAt durable key = s then acc
  else if key ∉ acc.1 ∧ maxPendingAuthFailures ≤ acc.1.entries.length then acc
  else (acc.1.insert key s, acc.2 ++ [putRecord s])

def ingestAuthFailures (samples : List AuthFailureSample)
    (outcome : AppendOutcome) (compacts : Bool) : AuthWorld :=
  let (failures, records) :=
    samples.foldl (ingestSample w.outbox.authDurable) (w.outbox.authFailures, [])
  let w := { w with outbox := { w.outbox with authFailures := failures } }
  if records = [] then w
  else
    let w := appendAuthFailureJournal w records outcome
    if !outcome.ok then w
    else
      let durable := records.foldl (fun durable r =>
        match r.failure with
        | none => durable
        | some s =>
          let key := authFailureKey s
          if valueAt w.outbox.authFailures key = s then durable.insert key s else durable)
        w.outbox.authDurable
      let w := { w with outbox := { w.outbox with authDurable := durable } }
      compactAuthFailureJournalIfNeeded (countAppend w records) compacts

def ackRecords (o : AuthOutbox) (s : AuthFailureSample) : List AuthFailureJournalRecord :=
  let key := authFailureKey s
  if valueAt o.authFailures key = s then
    (if valueAt o.authDurable key = s then [] else [putRecord s]) ++ [deleteRecord s]
  else []

def forgetRecord (o : AuthOutbox) (r : AuthFailureJournalRecord) : AuthOutbox :=
  match r.failure with
  | none => o
  | some s =>
    let key := authFailureKey s
    if valueAt o.authFailures key = s then
      { o with
        authFailures := o.authFailures.erase key
        authDurable := o.authDurable.erase key }
    else o

def acknowledgeAuthFailures (sent : List AuthFailureSample)
    (outcome : AppendOutcome) (compacts : Bool) : AuthWorld :=
  let records := sent.flatMap (ackRecords w.outbox)
  if records = [] then w
  else
    let w := appendAuthFailureJournal w records outcome
    if !outcome.ok then w
    else
      let w := countAppend w records
      let w := { w with outbox := records.foldl forgetRecord w.outbox }
      if w.outbox.authFailures.entries = [] then compactAuthFailureJournal w compacts
      else compactAuthFailureJournalIfNeeded w compacts

/-- A start of the reporter on the journal it finds. -/
def hydrateAuthFailures (compacts : Bool) : AuthWorld :=
  let w := { w with outbox := .empty }
  match w.file with
  | none => w
  | some raw =>
    if maxAuthFailureJournalBytes < textBytes raw then w
    else
      let w := { w with outbox := { w.outbox with authJournalBytes := textBytes raw } }
      match legacyFailures raw with
      | some none => w
      | some (some failures) =>
        let w := { w with outbox := failures.foldl hydrateAuthFailurePut w.outbox }
        compactAuthFailureJournal w compacts
      | none =>
        let w := { w with outbox := (splitLines raw).foldl replayLine w.outbox }
        compactAuthFailureJournalIfNeeded w compacts

/-- What happens to the journal. The last component says whether the compaction at the end,
if there is one, succeeds. -/
inductive AuthAction where
  | ingest (samples : List AuthFailureSample) (outcome : AppendOutcome) (compacts : Bool)
  | acknowledge (sent : List AuthFailureSample) (outcome : AppendOutcome) (compacts : Bool)
  | restart (compacts : Bool)

/-- One step. The failures ingested are those `enqueueAuthFailure` let through, and those
acknowledged were taken from the outbox, so all are complete. -/
def authStep : AuthAction → Option AuthWorld
  | .ingest samples outcome compacts =>
    if samples.all AuthFailureSample.complete then
      some (ingestAuthFailures w samples outcome compacts)
    else none
  | .acknowledge sent outcome compacts =>
    if sent.all AuthFailureSample.complete then
      some (acknowledgeAuthFailures w sent outcome compacts)
    else none
  | .restart compacts => some (hydrateAuthFailures w compacts)

end AikeyProxy.Proxy
