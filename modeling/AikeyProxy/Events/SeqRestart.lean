import AikeyProxy.Events.SeqAlloc

/-!
# One state file over many processes

A sequence allocator and its state file, through the processes that open it one after another. A
process reads the file when it starts; afterwards it only writes: a higher mark before it opens a
block, the last used number at the close. A write is a rename, so the file has the old number or the
new one, and a process can die on either side of it.
-/

namespace AikeyProxy.Events

/-- Only the rename touches the state file, and the process may die before or after it. -/
inductive WriteFate where
  | written
  | failed
  | diedBefore
  | diedAfter

def writeSeqStateAtomic (fate : WriteFate) (old : SeqFile) (hi : Int) : SeqFile :=
  match fate with
  | .written | .diedAfter => .value hi
  | .failed | .diedBefore => old

structure SeqProcess where
  blockSize : Int
  alloc : SeqAllocator

structure SeqHistory where
  file : SeqFile
  process : Option SeqProcess
  issued : List Int

def SeqHistory.init (file : SeqFile) : SeqHistory := ⟨file, none, []⟩

/-- `NewSeqAllocator`; a file that cannot be read is an error and opens nothing. -/
def SeqHistory.start (s : SeqHistory) (blockSize : Int) : SeqHistory :=
  match loadSeqState s.file with
  | none => s
  | some hi =>
    { s with
      process := some ⟨if blockSize ≤ 0 then defaultSeqBlockSize else blockSize,
        newSeqAllocator hi⟩ }

def SeqHistory.take (s : SeqHistory) (p : SeqProcess) : SeqHistory :=
  { s with
    process := some { p with alloc := { p.alloc with next := int64 (p.alloc.next + 1) } }
    issued := s.issued ++ [p.alloc.next] }

/-- `Next`. A reservation that cannot be written hands out nothing. -/
def SeqHistory.next (s : SeqHistory) (p : SeqProcess) (fate : WriteFate) : SeqHistory :=
  if p.alloc.reservedHi < p.alloc.next then
    let newHi := int64 (p.alloc.reservedHi + p.blockSize)
    let s := { s with file := writeSeqStateAtomic fate s.file newHi }
    match fate with
    | .written => s.take { p with alloc := { p.alloc with reservedHi := newHi } }
    | .failed => s
    | .diedBefore | .diedAfter => { s with process := none }
  else s.take p

/-- `Close`: shrink the mark in the file to the last used number. -/
def SeqHistory.close (s : SeqHistory) (p : SeqProcess) (fate : WriteFate) : SeqHistory :=
  let used := if int64 (p.alloc.next - 1) < 0 then 0 else int64 (p.alloc.next - 1)
  if used = p.alloc.reservedHi then s
  else
    let s := { s with file := writeSeqStateAtomic fate s.file used }
    match fate with
    | .written => { s with process := some { p with alloc := { p.alloc with reservedHi := used } } }
    | .failed => s
    | .diedBefore | .diedAfter => { s with process := none }

inductive SeqCall where
  | start (blockSize : Int)
  | next (fate : WriteFate)
  | close (fate : WriteFate)
  | exit

/-- One process at a time; a call needs one that has opened the file. -/
def seqCallStep (s : SeqHistory) : SeqCall → Option SeqHistory
  | .start blockSize =>
    match s.process with
    | none => some (s.start blockSize)
    | some _ => none
  | .next fate => s.process.map fun p => s.next p fate
  | .close fate => s.process.map fun p => s.close p fate
  | .exit => some { s with process := none }

end AikeyProxy.Events
