import AikeyProxy.Events.Reporter
import AikeyProxy.Lib.FileDir

/-!
# Several generations on one WAL directory

During a reload two generations are alive on one directory, each with a WAL writer and a reporter. A
writer keeps the file it opened by name; a prune lists the directory, notes the file its own writer
has open, copies its marks, and then reads, judges and removes file after file. Nothing locks the
directory, so each access is a step, and removing a name does not stop a writer that has the file
open.
-/

namespace AikeyProxy.Events

open Lib

/-- The file it has open, by name and inode, and the entry of an `Append` that has passed
`ensureFile`. -/
structure Writer where
  file : Option (String × Nat)
  pending : Option WALEntry

inductive PrunePc where
  | idle
  | listed (todo : List String)
  | skipping (todo : List String) (current : String)
  | scanning (todo : List String) (current : String) (confirmed : String → Int)
  | judging (todo : List String) (current : String) (confirmed : String → Int) (name : String)
      (entries : List WALEntry)
  | removing (todo : List String) (current : String) (confirmed : String → Int) (name : String)
      (entries : List WALEntry)

/-- The collector's truth: the contiguous number of each (lane, source) stream, and the
unnumbered events it holds. -/
structure Collector where
  contiguous : String → String → Int
  holds : List String

/-- `completed` records the completed appends. -/
structure SharedWal where
  names : List String
  dir : FileDir String WALEntry
  writers : Nat → Writer
  reporters : Nat → Reporter
  prunes : Nat → PrunePc
  collector : Collector
  completed : List WALEntry

def SharedWal.init : SharedWal where
  names := []
  dir := ⟨fun _ => none, fun _ => [], 0, nofun, nofun⟩
  writers := fun _ => ⟨none, none⟩
  reporters := fun _ => Reporter.init
  prunes := fun _ => .idle
  collector := ⟨fun _ _ => 0, []⟩
  completed := []

def SharedWal.readAll (s : SharedWal) : List WALEntry := s.names.flatMap s.dir.lines

def Collector.confirms (c : Collector) (e : WALEntry) : Prop :=
  if e.numbered then e.sourceSeq ≤ c.contiguous (laneOfEvent e.eventJSON) e.sourceID
  else e.eventJSON.eventID ∈ c.holds
  deriving Decidable

/-! ## Writers -/

section

variable (s : SharedWal) (g : Nat)

def SharedWal.setWriter (w : Writer) : SharedWal :=
  { s with writers := Function.update s.writers g w }

/-- `O_CREATE|O_APPEND`: an existing file is opened, an absent one is created. -/
def SharedWal.openFile (name : String) (e : WALEntry) : SharedWal :=
  { s.setWriter g ⟨some (name, (s.dir.openCreate name).2), some e⟩ with
    names := s.names.insert name
    dir := (s.dir.openCreate name).1 }

/-- `Append` takes the writer's lock and calls `ensureFile` for the current hour. -/
def SharedWal.beginAppend (hour : String) (ev : ReportableEvent) : Option SharedWal :=
  match (s.writers g).pending, (s.writers g).file with
  | some _, _ => none
  | none, some (name, i) =>
    if name = walFileName hour then some (s.setWriter g ⟨some (name, i), some (walEntryOf ev)⟩)
    else some (s.openFile g (walFileName hour) (walEntryOf ev))
  | none, none => some (s.openFile g (walFileName hour) (walEntryOf ev))

/-- `Append` writes its line to the file it has open, wherever that is linked. -/
def SharedWal.finishAppend (writeOk : Bool) : Option SharedWal :=
  match (s.writers g).pending, (s.writers g).file with
  | some e, some (name, i) =>
    if writeOk then
      some { s.setWriter g ⟨some (name, i), none⟩ with
        dir := s.dir.appendTo i [e]
        completed := s.completed ++ [e] }
    else some (s.setWriter g ⟨some (name, i), none⟩)
  | _, _ => none

/-- `CurrentFileName`: what the writer has open, or nothing. -/
def Writer.currentFileName (w : Writer) : String :=
  match w.file with
  | none => ""
  | some (name, _) => name

/-! ## Prunes -/

def SharedWal.setPrune (pc : PrunePc) : SharedWal :=
  { s with prunes := Function.update s.prunes g pc }

/-- The first three reads of a prune: the directory, the file its own writer has open, the confirmed
marks. -/
def SharedWal.pruneStart : Option SharedWal :=
  match s.prunes g with
  | .idle => some (s.setPrune g (.listed (s.names.insertionSort (· ≤ ·))))
  | .listed todo => some (s.setPrune g (.skipping todo (s.writers g).currentFileName))
  | .skipping todo current =>
    some (s.setPrune g (.scanning todo current (s.reporters g).confirmedSeq))
  | _ => none

/-- Take the next file: skip the open one, skip what cannot be read or is empty. -/
def SharedWal.pruneRead : Option SharedWal :=
  match s.prunes g with
  | .scanning [] _ _ => some (s.setPrune g .idle)
  | .scanning (name :: todo) current confirmed =>
    if name = current then some (s.setPrune g (.scanning todo current confirmed))
    else if s.dir.lines name = [] then some (s.setPrune g (.scanning todo current confirmed))
    else some (s.setPrune g (.judging todo current confirmed name (s.dir.lines name)))
  | _ => none

/-- Judge what was read: the marks are the copy, `seenV1` is looked up live. -/
def SharedWal.pruneJudge : Option SharedWal :=
  match s.prunes g with
  | .judging todo current confirmed name entries =>
    if ({ s.reporters g with confirmedSeq := confirmed } : Reporter).filePrunable entries then
      some (s.setPrune g (.removing todo current confirmed name entries))
    else some (s.setPrune g (.scanning todo current confirmed))
  | _ => none

/-- `os.Remove`: the name goes, open files stay open. -/
def SharedWal.pruneRemove (removeOk : Bool) : Option SharedWal :=
  match s.prunes g with
  | .removing todo current confirmed name _ =>
    if removeOk then
      some { s.setPrune g (.scanning todo current confirmed) with
        names := s.names.filter fun n => decide (n ≠ name)
        dir := s.dir.unlink name }
    else some (s.setPrune g (.scanning todo current confirmed))
  | _ => none

inductive WalAct where
  | beginAppend (g : Nat) (hour : String) (ev : ReportableEvent)
  | finishAppend (g : Nat) (writeOk : Bool)
  | closeWriter (g : Nat)
  /-- The collector advances a stream, or stores an unnumbered event. -/
  | collectorAdvance (lane sourceID : String) (n : Int)
  | collectorStore (eventID : String)
  /-- A reply to a batch of a lane: it names the stream's contiguous number. -/
  | reply (g : Nat) (lane sourceID : String)
  /-- An unnumbered event was in a finished group, uploaded or dead-lettered. -/
  | markSeen (g : Nat) (eventID : String)
  | pruneStart (g : Nat)
  | pruneRead (g : Nat)
  | pruneJudge (g : Nat)
  | pruneRemove (g : Nat) (removeOk : Bool)

def SharedWal.setReporter (r : Reporter) : SharedWal :=
  { s with reporters := Function.update s.reporters g r }

end

def walStep (s : SharedWal) : WalAct → Option SharedWal
  | .beginAppend g hour ev => s.beginAppend g hour ev
  | .finishAppend g writeOk => s.finishAppend g writeOk
  | .closeWriter g =>
    match (s.writers g).pending with
    | some _ => none
    | none => some (s.setWriter g ⟨none, none⟩)
  | .collectorAdvance lane sourceID n =>
    some { s with
      collector := { s.collector with
        contiguous := fun l => if l = lane then raise (s.collector.contiguous l) sourceID n
          else s.collector.contiguous l } }
  | .collectorStore eventID =>
    some { s with collector := { s.collector with holds := eventID :: s.collector.holds } }
  | .reply g lane sourceID =>
    some (s.setReporter g
      ((s.reporters g).uploadGroupTo (.ok [(sourceID, s.collector.contiguous lane sourceID)])).1)
  | .markSeen g eventID =>
    some (s.setReporter g
      { s.reporters g with seenV1 := Function.update (s.reporters g).seenV1 eventID true })
  | .pruneStart g => s.pruneStart g
  | .pruneRead g => s.pruneRead g
  | .pruneJudge g => s.pruneJudge g
  | .pruneRemove g removeOk => s.pruneRemove g removeOk

end AikeyProxy.Events
