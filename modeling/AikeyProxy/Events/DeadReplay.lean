import AikeyProxy.Lib.Utf8
import AikeyProxy.Events.DeadLetter
import AikeyProxy.Supervisor.Routes

/-!
# A replay pass on the bytes of the dead-letter file

`ReplayDeadLetter` with the file as it is: the content is cut at the newlines, blank lines are
passed over, and the lines that are not delivered are joined again. What the standard library makes
of a line is a parameter; `LineReader.json` is the library's own reading.
-/

namespace AikeyProxy.Events

open Lib Json
open Supervisor (trimSpace equalFold)

abbrev Line := List UInt8

def lineFeed : UInt8 := 0x0a

/-- Whether `bytes.TrimSpace` leaves nothing of a line, and `json.Unmarshal` into an entry. -/
structure LineReader where
  blank : Line → Bool
  unmarshal : Line → Option DeadLetterEntry
  blank_nil : blank [] = true

/-! ## Lines as JSON -/

/-- One member of an object, read into the field whose name it carries in any case. -/
def readEventMember (ev : ReportableEvent) (m : String × Json) : Option ReportableEvent :=
  if equalFold m.1 "event_id" then (readString ev.eventID m.2).map fun x => { ev with eventID := x }
  else if equalFold m.1 "org_id" then (readString ev.orgID m.2).map fun x => { ev with orgID := x }
  else if equalFold m.1 "route_source" then
    (readString ev.routeSource m.2).map fun x => { ev with routeSource := x }
  else if equalFold m.1 "source_id" then
    (readString ev.sourceID m.2).map fun x => { ev with sourceID := x }
  else if equalFold m.1 "source_seq" then
    match m.2 with
    | .null => some { ev with sourceSeq := none }
    | v => v.toInt64?.map fun n => { ev with sourceSeq := some n.toInt }
  else some ev

def unmarshalEvent : Json → Option ReportableEvent
  | .obj members => members.foldlM readEventMember ⟨"", "", "", "", none⟩
  | .null => some ⟨"", "", "", "", none⟩
  | _ => none

def readItems {β : Type} (read : Json → Option β) : Json → Option (List β)
  | .arr items => items.mapM read
  | .null => some []
  | _ => none

def readEntryMember (e : DeadLetterEntry) (m : String × Json) : Option DeadLetterEntry :=
  if equalFold m.1 "kind" then (readString e.kind m.2).map fun x => { e with kind := x }
  else if equalFold m.1 "route_source" then
    (readString e.routeSource m.2).map fun x => { e with routeSource := x }
  else if equalFold m.1 "payloads" then
    -- a raw message is kept as it is spelled, which is as `json.Marshal` spells it
    (readItems (fun v => some (String.ofList v.print)) m.2).map fun x => { e with payloads := x }
  else if equalFold m.1 "events" then
    (readItems unmarshalEvent m.2).map fun x => { e with events := x }
  else some e

def unmarshalEntry (line : Line) : Option DeadLetterEntry :=
  match payloadJson line with
  | some (.obj members) => members.foldlM readEntryMember ⟨"", "", [], []⟩
  | some .null => some ⟨"", "", [], []⟩
  | _ => none

/-- The standard library's reading, of the fields an entry has here. -/
def LineReader.json : LineReader where
  blank line := (trimSpace (runes line)).isEmpty
  unmarshal := unmarshalEntry
  blank_nil := rfl

def LineReader.replayLine (io : LineReader) (env : ReplayEnv)
    (st : ReplayDeadLetterResult × List Line) (line : Line) : ReplayDeadLetterResult × List Line :=
  if io.blank line then st
  else
    let r := { st.1 with entriesScanned := st.1.entriesScanned + 1 }
    match io.unmarshal line with
    | none => (r, st.2 ++ [line])
    | some e =>
      match env.replayEntry e r with
      | (r, true) => (r, st.2)
      | (r, false) => (r, st.2 ++ [line])

def rewritten (keepLines : List Line) : List UInt8 :=
  [lineFeed].intercalate keepLines ++ if keepLines = [] then [] else [lineFeed]

/-- A pass over the content of the file; `envs i` is what it meets at line `i`. -/
def LineReader.replayDeadLetter (io : LineReader) (envs : Nat → ReplayEnv) (data : List UInt8) :
    ReplayDeadLetterResult × List UInt8 :=
  let st := (data.splitOn lineFeed).zipIdx.foldl
    (fun st p => io.replayLine (envs p.2) st p.1) (.zero, [])
  (st.1, rewritten st.2)

end AikeyProxy.Events
