import Mathlib.Data.List.Basic
import AikeyProxy.Lib.Lines

/-!
# A WAL file, byte by byte

`Append` writes an entry as one line, with one call, to a file opened for appending. A crash or a
failed write leaves any front part of the line in the file, and nothing tells the next writer.
`ReadWALFile` cuts the file into lines with a scanner that gives up at a line that is too long, and
drops the lines that are no entries.
-/

namespace AikeyProxy.Events

open Lib

def walNewline : UInt8 := 0x0a

def walCarriageReturn : UInt8 := 0x0d

def walCloseBrace : UInt8 := 0x7d

/-- `encoding/json` for the entries of the WAL: a marshalled entry is read back, is an object, and
has its control characters escaped. -/
structure EntryJson (E : Type) where
  marshal : E → List UInt8
  unmarshal : List UInt8 → Option E
  unmarshal_marshal : ∀ e, unmarshal (marshal e) = some e
  marshal_brace : ∀ e, ∃ body, marshal e = body ++ [walCloseBrace]
  newline_notMem : ∀ e, walNewline ∉ marshal e

variable {E : Type}

def EntryJson.line (json : EntryJson E) (e : E) : List UInt8 := json.marshal e ++ [walNewline]

/-! ## Writing -/

structure WalLog (E : Type) where
  file : List UInt8
  completed : List E

def WalLog.init : WalLog E := ⟨[], []⟩

inductive WalWrite (E : Type) where
  | append (e : E)
  /-- A crash, or a write that fails: `k` bytes of the line are in the file. -/
  | torn (e : E) (k : Nat)

def walWriteStep (json : EntryJson E) (s : WalLog E) : WalWrite E → Option (WalLog E)
  | .append e => some ⟨s.file ++ json.line e, s.completed ++ [e]⟩
  | .torn e k => some { s with file := s.file ++ (json.line e).take k }

/-! ## Reading -/

/-- The limit `ReadWALFile` gives its scanner. -/
def walLineCap : Nat := 8 * 1024 * 1024

def dropCR (line : List UInt8) : List UInt8 :=
  if line.getLast? = some walCarriageReturn then line.dropLast else line

/-- `bufio.Scanner`: the lines, and whether it gave up. A line has to fit into the buffer with its
newline. -/
def scanLines : List (List UInt8) → List UInt8 → List (List UInt8) × Bool
  | [], rest =>
    if rest = [] then ([], false)
    else if walLineCap ≤ rest.length then ([], true)
    else ([dropCR rest], false)
  | l :: ls, rest =>
    if walLineCap < l.length then ([], true)
    else (dropCR l.dropLast :: (scanLines ls rest).1, (scanLines ls rest).2)

/-- The entry of a line; empty and malformed lines have none. -/
def EntryJson.entry? (json : EntryJson E) (line : List UInt8) : Option E :=
  if line = [] then none else json.unmarshal line

/-- `ReadWALFile`: the entries, and whether the scan ended in an error. -/
def readWALFile (json : EntryJson E) (file : List UInt8) : List E × Bool :=
  let scanned := scanLines (takeLines walNewline file).1 (takeLines walNewline file).2
  (scanned.1.filterMap json.entry?, scanned.2)

end AikeyProxy.Events
