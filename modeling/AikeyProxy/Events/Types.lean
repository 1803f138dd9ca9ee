import AikeyProxy.Lib.LogDir

/-!
# Usage events, lanes and the write-ahead log

`Append` wraps an event in an envelope that mirrors its delivery-integrity fields, and the uploader,
pruning and reconcile read the envelope. Sequence numbers are allocated per *lane*, and the lane of
an event is its organisation.
-/

namespace AikeyProxy.Events

open Lib

/-- The fields of a reportable event that delivery reads. -/
structure ReportableEvent where
  eventID : String
  orgID : String
  routeSource : String
  sourceID : String
  sourceSeq : Option Int
  deriving DecidableEq

def personalOrgSentinel : String := "personal"

def canaryOrgSentinel : String := "__canary__"

/-- The delivery lane of an organisation; canary probes have none. -/
def laneOfOrg (orgID : String) : String :=
  if orgID = canaryOrgSentinel then ""
  else if orgID = "" then personalOrgSentinel
  else orgID

variable (ev : ReportableEvent)

def laneOfEvent : String := laneOfOrg ev.orgID

/-! ## WAL entries -/

def walSchemaV2 : Nat := 2

/-- One line of the WAL: the event and its mirrored integrity fields. -/
structure WALEntry where
  sourceID : String
  eventJSON : ReportableEvent
  schemaVersion : Nat
  sourceSeq : Int
  deriving DecidableEq

/-- The envelope `Append` writes for an event. -/
def walEntryOf : WALEntry :=
  match ev.sourceSeq with
  | some n => ⟨ev.sourceID, ev, walSchemaV2, n⟩
  | none => ⟨ev.sourceID, ev, 1, 0⟩

/-- The test every reader of the WAL makes: `SchemaVersion >= 2 && SourceSeq > 0`. -/
def WALEntry.numbered (e : WALEntry) : Bool :=
  decide (walSchemaV2 ≤ e.schemaVersion) && decide (0 < e.sourceSeq)

/-- The event as it goes on the wire: a numbered entry fills in the integrity fields that its event
lost in the file. -/
def WALEntry.wireEvent (e : WALEntry) : ReportableEvent :=
  if e.numbered then
    { e.eventJSON with
      sourceID := if e.eventJSON.sourceID = "" then e.sourceID else e.eventJSON.sourceID
      sourceSeq :=
        match e.eventJSON.sourceSeq with
        | some n => some n
        | none => some e.sourceSeq }
  else e.eventJSON

/-- The number an event sorts under; `0` for an event without one. -/
def ReportableEvent.seq : Int := ev.sourceSeq.getD 0

@[simp] theorem wireEvent_walEntryOf : (walEntryOf ev).wireEvent = ev := by
  obtain ⟨eventID, orgID, routeSource, sourceID, sourceSeq⟩ := ev
  cases sourceSeq with
  | none => simp [walEntryOf, WALEntry.wireEvent, WALEntry.numbered, walSchemaV2]
  | some n =>
    by_cases hn : 0 < n
    · by_cases hs : sourceID = ""
      · simp [walEntryOf, WALEntry.wireEvent, WALEntry.numbered, walSchemaV2, hn, hs]
      · simp [walEntryOf, WALEntry.wireEvent, WALEntry.numbered, walSchemaV2, hn, hs]
    · simp [walEntryOf, WALEntry.wireEvent, WALEntry.numbered, walSchemaV2, hn]

@[simp] theorem walEntryOf_sourceID : (walEntryOf ev).sourceID = ev.sourceID := by
  unfold walEntryOf; split <;> rfl

@[simp] theorem walEntryOf_sourceSeq : (walEntryOf ev).sourceSeq = ev.seq := by
  unfold walEntryOf ReportableEvent.seq
  split <;> rename_i h <;> simp [h]

/-- An appended event is numbered exactly when it carries a positive number. -/
theorem walEntryOf_numbered : (walEntryOf ev).numbered = decide (0 < ev.seq) := by
  unfold walEntryOf ReportableEvent.seq WALEntry.numbered
  split <;> rename_i h <;> simp [h, walSchemaV2]

/-! ## WAL files -/

abbrev WALFile := LogFile WALEntry

/-- The file a writer opens in a given UTC hour. -/
def walFileName (hour : String) : String := "usage-" ++ hour ++ ".jsonl"

/-- `ListWALFiles`: the files in lexical, hence chronological, order. -/
def listWALFiles (files : List WALFile) : List WALFile := sortedFiles files

/-- `ReadWALFile` returns none of a file it cannot open, and what stands before the first line of 8
MiB. A directory that cannot be listed counts as one of which nothing is read. -/
def readAllWAL (reach : String → Nat) (files : List WALFile) : List WALEntry :=
  (listWALFiles files).flatMap fun f => f.entries.take (reach f.name)

end AikeyProxy.Events
