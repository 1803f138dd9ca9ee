import AikeyProxy.Lib.FileDir
import AikeyProxy.Events.Reporter

/-!
# The dead-letter file

Batches that could not be delivered wait in `dead_letter.jsonl`, and a replay pass delivers them
again: it reads the file, tries line after line, writes what is left to `dead_letter.jsonl.tmp` and
renames that over the file. The mutex belongs to one reporter and the files to the directory, on
which several reporters are alive during a reload; so another reporter may do anything between two
file accesses of one.
-/

namespace AikeyProxy.Events

open Lib

/-! ## Entries -/

def deadLetterKindUsage : String := ""

def deadLetterKindCompliance : String := "compliance"

/-- The fields of an entry that decide how it is delivered again. -/
structure DeadLetterEntry where
  kind : String
  routeSource : String
  events : List ReportableEvent
  payloads : List String
  deriving DecidableEq

def writeDeadLetter (batch : List ReportableEvent) : DeadLetterEntry :=
  ⟨deadLetterKindUsage, "", batch, []⟩

def complianceDeadLetterMaxBytes : Nat := 64 * 2 ^ 20

/-- `deadLetterCompliance`: a failed batch, dropped if the file is at its cap. A size that cannot be
read counts as small. -/
def deadLetterCompliance (size : Option Nat) (routeSource : String) (eventJSONs : List String) :
    Option DeadLetterEntry :=
  match size with
  | some n =>
    if complianceDeadLetterMaxBytes ≤ n then none
    else some ⟨deadLetterKindCompliance, routeSource, [], eventJSONs⟩
  | none => some ⟨deadLetterKindCompliance, routeSource, [], eventJSONs⟩

def DeadLetterEntry.deliverableCount (e : DeadLetterEntry) : Nat :=
  if e.kind = deadLetterKindCompliance then e.payloads.length else e.events.length

/-- A line of the file. An entry's number is given when its append begins, so that equal
batches are told apart. -/
inductive DeadLine where
  | entry (number : Nat) (e : DeadLetterEntry)
  | malformed (text : String)
  deriving DecidableEq

/-! ## Replaying one line -/

structure ReplayDeadLetterResult where
  lastError : String
  entriesScanned : Nat
  entriesReplayedOK : Nat
  entriesStillFailing : Nat
  eventsReplayedOK : Nat
  eventsStillFailing : Nat

def ReplayDeadLetterResult.zero : ReplayDeadLetterResult := ⟨"", 0, 0, 0, 0, 0⟩

structure UploadError where
  statusCode : Nat
  err : String

/-- What a pass finds at a line: its context, the routes, an error of marshalling or of the upload.
`quote` is the quoting of `%q`. -/
structure ReplayEnv where
  ctxDone : Bool
  urlForRouteSource : String → String
  marshalError : Option String
  uploadError : Option UploadError
  quote : String → String

def ReplayDeadLetterResult.stillFailing (r : ReplayDeadLetterResult) (n : Nat) (err : String) :
    ReplayDeadLetterResult :=
  { r with
    entriesStillFailing := r.entriesStillFailing + 1
    eventsStillFailing := r.eventsStillFailing + n
    lastError := err }

def ReplayDeadLetterResult.replayedOK (r : ReplayDeadLetterResult) (n : Nat) :
    ReplayDeadLetterResult :=
  { r with
    entriesReplayedOK := r.entriesReplayedOK + 1
    eventsReplayedOK := r.eventsReplayedOK + n }

/-- `postComplianceEvents`: no route is an error like any other. -/
def ReplayEnv.postComplianceEvents (env : ReplayEnv) (routeSource : String) : Option UploadError :=
  if env.urlForRouteSource routeSource = "" then
    some ⟨0, "compliance upload: no route URL for source " ++ env.quote routeSource⟩
  else env.uploadError

section

variable (env : ReplayEnv) (e : DeadLetterEntry) (r : ReplayDeadLetterResult)

/-- `replayComplianceEntry`; the flag says that the entry was delivered. -/
def ReplayEnv.replayComplianceEntry : ReplayDeadLetterResult × Bool :=
  match env.postComplianceEvents e.routeSource with
  | some up =>
    (r.stillFailing e.payloads.length
      ("compliance HTTP " ++ toString up.statusCode ++ ": " ++ up.err), false)
  | none => (r.replayedOK e.payloads.length, true)

def DeadLetterEntry.usageRouteSource (e : DeadLetterEntry) : String :=
  match e.events with
  | [] => ""
  | ev :: _ => ev.routeSource

def ReplayEnv.replayUsageEntry : ReplayDeadLetterResult × Bool :=
  let n := e.events.length
  if env.urlForRouteSource e.usageRouteSource = "" then
    (r.stillFailing n ("no destination for route_source=" ++ env.quote e.usageRouteSource), false)
  else
    match env.marshalError with
    | some err => (r.stillFailing n ("marshal: " ++ err), false)
    | none =>
      match env.uploadError with
      | some up =>
        (r.stillFailing n ("HTTP " ++ toString up.statusCode ++ ": " ++ up.err), false)
      | none => (r.replayedOK n, true)

def ReplayEnv.replayEntry : ReplayDeadLetterResult × Bool :=
  if env.ctxDone then (r.stillFailing e.deliverableCount "context canceled", false)
  else if e.kind = deadLetterKindCompliance then env.replayComplianceEntry e r
  else env.replayUsageEntry e r

end

/-! ## State -/

inductive DeadFile where
  | letter
  | tmp
  deriving DecidableEq

/-- Where the holder of a reporter's mutex stands; `idle` is the free mutex. -/
inductive DeadPc where
  | idle
  | appending (number : Nat) (e : DeadLetterEntry)
  | opened (number : Nat) (e : DeadLetterEntry) (inode : Nat)
  | replayOpened (inode : Nat)
  | replaying (todo keepLines : List DeadLine) (result : ReplayDeadLetterResult)
  | tmpOpened (keepLines : List DeadLine) (inode : Nat) (result : ReplayDeadLetterResult)
  | tmpWritten (result : ReplayDeadLetterResult)

/-- `completed` records the entries whose append was completed, `delivered` the numbers of those
delivered. -/
structure DeadWorld (n : Nat) where
  dir : FileDir DeadFile DeadLine
  pcs : Fin n → DeadPc
  numbered : Nat
  completed : List (Nat × DeadLetterEntry)
  delivered : List Nat

/-- The directory an earlier run left: the lines of the file, if there is one, and of a temporary
file. -/
def deadDir (letters leftover : Option (List DeadLine)) : FileDir DeadFile DeadLine where
  link := fun
    | .letter => letters.map fun _ => 0
    | .tmp => leftover.map fun _ => 1
  content := fun
    | 0 => letters.getD []
    | _ => leftover.getD []
  next := 2
  link_lt := by
    intro n i h
    cases n <;> simp only [Option.map_eq_some_iff] at h <;> obtain ⟨_, _, rfl⟩ := h <;> omega
  link_inj := by
    intro n m i h h'
    cases n <;> cases m <;> simp only [Option.map_eq_some_iff] at h h' <;>
      obtain ⟨_, _, rfl⟩ := h <;> obtain ⟨_, _, h'⟩ := h'
    · rfl
    · omega
    · omega
    · rfl

def numberLines : Nat → List (DeadLetterEntry ⊕ String) → List DeadLine
  | _, [] => []
  | k, .inl e :: rest => .entry k e :: numberLines (k + 1) rest
  | k, .inr text :: rest => .malformed text :: numberLines (k + 1) rest

def DeadLine.numberedEntry : DeadLine → Option (Nat × DeadLetterEntry)
  | .entry k e => some (k, e)
  | .malformed _ => none

def DeadWorld.init (n : Nat) (letters : Option (List (DeadLetterEntry ⊕ String)))
    (leftover : Option (List DeadLine)) : DeadWorld n where
  dir := deadDir (letters.map (numberLines 0)) leftover
  pcs := fun _ => .idle
  numbered := (letters.getD []).length
  completed := ((letters.map (numberLines 0)).getD []).filterMap DeadLine.numberedEntry
  delivered := []

def DeadWorld.setPc {n : Nat} (s : DeadWorld n) (g : Fin n) (pc : DeadPc) : DeadWorld n :=
  { s with pcs := Function.update s.pcs g pc }

/-! ## Steps -/

inductive DeadAct (n : Nat) where
  | appendUsage (g : Fin n) (batch : List ReportableEvent)
  | appendCompliance (g : Fin n) (size : Option Nat) (routeSource : String)
      (eventJSONs : List String)
  | openLetter (g : Fin n)
  | write (g : Fin n)
  | replayOpen (g : Fin n)
  | replayRead (g : Fin n)
  | replayLine (g : Fin n) (env : ReplayEnv)
  | openTmp (g : Fin n)
  | writeTmp (g : Fin n)
  | rename (g : Fin n)

variable {n : Nat}

variable (s : DeadWorld n)

def DeadWorld.beginAppend (g : Fin n) (e : DeadLetterEntry) : Option (DeadWorld n) :=
  match s.pcs g with
  | .idle => some { s.setPc g (.appending s.numbered e) with numbered := s.numbered + 1 }
  | _ => none

/-- `O_CREATE|O_APPEND`. -/
def DeadWorld.openLetter (g : Fin n) : Option (DeadWorld n) :=
  match s.pcs g with
  | .appending k e =>
    some { s.setPc g (.opened k e (s.dir.openCreate .letter).2) with
      dir := (s.dir.openCreate .letter).1 }
  | _ => none

/-- The line goes to the file that was opened, wherever that is linked by now. -/
def DeadWorld.write (g : Fin n) : Option (DeadWorld n) :=
  match s.pcs g with
  | .opened k e i =>
    some { s.setPc g .idle with
      dir := s.dir.appendTo i [.entry k e]
      completed := s.completed ++ [(k, e)] }
  | _ => none

def DeadWorld.replayOpen (g : Fin n) : Option (DeadWorld n) :=
  match s.pcs g with
  | .idle =>
    match s.dir.link .letter with
    | none => some s
    | some i => some (s.setPc g (.replayOpened i))
  | _ => none

def DeadWorld.replayRead (g : Fin n) : Option (DeadWorld n) :=
  match s.pcs g with
  | .replayOpened i => some (s.setPc g (.replaying (s.dir.content i) [] .zero))
  | _ => none

/-- One line: a delivered entry is dropped, everything else is kept as it is. -/
def DeadWorld.replayLine (g : Fin n) (env : ReplayEnv) : Option (DeadWorld n) :=
  match s.pcs g with
  | .replaying (line :: todo) keep r =>
    let r := { r with entriesScanned := r.entriesScanned + 1 }
    match line with
    | .malformed _ => some (s.setPc g (.replaying todo (keep ++ [line]) r))
    | .entry k e =>
      match env.replayEntry e r with
      | (r', true) =>
        some { s.setPc g (.replaying todo keep r') with delivered := k :: s.delivered }
      | (r', false) => some (s.setPc g (.replaying todo (keep ++ [line]) r'))
  | _ => none

/-- `os.WriteFile` opens the temporary file and truncates it. -/
def DeadWorld.openTmp (g : Fin n) : Option (DeadWorld n) :=
  match s.pcs g with
  | .replaying [] keep r =>
    some { s.setPc g (.tmpOpened keep (s.dir.openTrunc .tmp).2 r) with
      dir := (s.dir.openTrunc .tmp).1 }
  | _ => none

def DeadWorld.writeTmp (g : Fin n) : Option (DeadWorld n) :=
  match s.pcs g with
  | .tmpOpened keep i r =>
    some { s.setPc g (.tmpWritten r) with dir := s.dir.overwrite i keep }
  | _ => none

def DeadWorld.rename (s : DeadWorld n) (g : Fin n) : Option (DeadWorld n) :=
  match s.pcs g, s.dir.rename .tmp .letter with
  | .tmpWritten _, some dir => some { s.setPc g .idle with dir := dir }
  | _, _ => none

def deadStep : DeadAct n → Option (DeadWorld n)
  | .appendUsage g batch => s.beginAppend g (writeDeadLetter batch)
  | .appendCompliance g size routeSource eventJSONs =>
    match deadLetterCompliance size routeSource eventJSONs with
    | some e => s.beginAppend g e
    | none => some s
  | .openLetter g => s.openLetter g
  | .write g => s.write g
  | .replayOpen g => s.replayOpen g
  | .replayRead g => s.replayRead g
  | .replayLine g env => s.replayLine g env
  | .openTmp g => s.openTmp g
  | .writeTmp g => s.writeTmp g
  | .rename g => s.rename g

end AikeyProxy.Events
