import Mathlib.Data.List.Basic
import Mathlib.Data.Int.Order.Basic
import Mathlib.Logic.Function.Basic

/-!
# Sequence allocation across generations

Every generation has a lane allocator of its own, and all keep their state files in the one WAL
directory. An allocator reads a lane's file when it first uses the lane; from then on it only
writes: a higher mark before it opens a new block, the last used number when it is closed. Opening a
lane is three accesses to the directory, each a step.
-/

namespace AikeyProxy.Events

/-! ## State files -/

/-- Keeps a lane usable as a file name. -/
def sanitizeLane (lane : String) : String :=
  if lane = "" then "unknown"
  else
    String.ofList (lane.toList.map fun c =>
      if ('a' ≤ c ∧ c ≤ 'z') ∨ ('A' ≤ c ∧ c ≤ 'Z') ∨ ('0' ≤ c ∧ c ≤ '9') ∨ c = '-' ∨ c = '_' then c
      else '_')

def laneStateFile (lane : String) : String := "seq." ++ sanitizeLane lane ++ ".state"

def legacySeqStateFile : String := "seq.state"

def defaultSeqBlockSize : Int := 256

def maxInt64 : Int := 0x7FFFFFFFFFFFFFFF

/-- The sums of the allocators are of type `int64`, which wraps around. -/
def int64 (n : Int) : Int := n.bmod 0x10000000000000000

/-- A state file: not there, a decimal number, or something else. -/
inductive SeqFile where
  | absent
  | value (v : Int)
  | corrupt
  deriving DecidableEq

/-- An absent file counts as `0`. A number that `ParseInt` cannot represent is an error, as is a
negative one. -/
def loadSeqState : SeqFile → Option Int
  | .absent => some 0
  | .value v => if v < 0 ∨ maxInt64 < v then none else some v
  | .corrupt => none

/-! ## Allocators -/

/-- One lane's allocator: the next number, and the highest reserved on disk. -/
structure SeqAllocator where
  next : Int
  reservedHi : Int

/-- Hands out numbers strictly above the mark it was loaded with. -/
def newSeqAllocator (hi : Int) : SeqAllocator := ⟨int64 (hi + 1), hi⟩

/-- Where a lane that is being opened stands, under the allocator's lock. -/
inductive ForPc where
  | seed (legacyHi : Int)
  | load

structure LaneAllocator where
  lanes : String → Option SeqAllocator
  pendingFloor : String → Int
  opening : Option (String × ForPc)

def newLaneAllocator : LaneAllocator := ⟨fun _ => none, fun _ => 0, none⟩

/-! ## The system -/

/-- `issued` is every number handed out so far. -/
structure SeqWorld where
  disk : String → SeqFile
  live : List Nat
  gens : Nat → LaneAllocator
  issued : List (String × Int)

def SeqWorld.init (disk : String → SeqFile) : SeqWorld :=
  ⟨disk, [], fun _ => newLaneAllocator, []⟩

def SeqWorld.write (s : SeqWorld) (lane : String) (hi : Int) : SeqWorld :=
  { s with disk := Function.update s.disk (laneStateFile lane) (.value hi) }

def SeqWorld.setGen (s : SeqWorld) (g : Nat) (l : LaneAllocator) : SeqWorld :=
  { s with gens := Function.update s.gens g l }

def SeqWorld.setLane (s : SeqWorld) (g : Nat) (lane : String) (a : SeqAllocator) : SeqWorld :=
  s.setGen g { s.gens g with lanes := Function.update (s.gens g).lanes lane (some a) }

def SeqWorld.issue (s : SeqWorld) (g : Nat) (lane : String) (a : SeqAllocator) : SeqWorld :=
  { s.setLane g lane { a with next := int64 (a.next + 1) } with
    issued := s.issued ++ [(lane, a.next)] }

inductive SeqAct where
  | newGeneration (g : Nat)
  /-- `For` finds the lane unopened and looks at the directory. -/
  | stat (g : Nat) (lane : String)
  /-- `For` seeds the lane's file from the legacy stream. -/
  | seed (g : Nat) (writeOk : Bool)
  | load (g : Nat)
  | next (g : Nat) (lane : String) (writeOk : Bool)
  | close (g : Nat) (lane : String) (writeOk : Bool)
  | retire (g : Nat)
  /-- The process dies; the next one starts over the same directory. -/
  | crash

/-- `For`, first access: a lane without a file of its own starts above the legacy mark. -/
def SeqWorld.stat (s : SeqWorld) (g : Nat) (lane : String) : Option SeqWorld :=
  match (s.gens g).opening, (s.gens g).lanes lane with
  | none, none =>
    match s.disk (laneStateFile lane) with
    | .absent =>
      match loadSeqState (s.disk legacySeqStateFile) with
      | none => some s
      | some legacyHi =>
        if 0 < legacyHi then some (s.setGen g { s.gens g with opening := some (lane, .seed legacyHi) })
        else some (s.setGen g { s.gens g with opening := some (lane, .load) })
    | _ => some (s.setGen g { s.gens g with opening := some (lane, .load) })
  | _, _ => none

/-- `For`, second access: write the seed and remember the floor owed to the server. -/
def SeqWorld.seed (s : SeqWorld) (g : Nat) (writeOk : Bool) : Option SeqWorld :=
  match (s.gens g).opening with
  | some (lane, .seed legacyHi) =>
    if writeOk then
      some ((s.write lane legacyHi).setGen g
        { s.gens g with
          pendingFloor := Function.update (s.gens g).pendingFloor lane legacyHi
          opening := some (lane, .load) })
    else some (s.setGen g { s.gens g with opening := none })
  | _ => none

/-- `For`, last access: `NewSeqAllocator` loads the file. -/
def SeqWorld.load (s : SeqWorld) (g : Nat) : Option SeqWorld :=
  match (s.gens g).opening with
  | some (lane, .load) =>
    match loadSeqState (s.disk (laneStateFile lane)) with
    | none => some (s.setGen g { s.gens g with opening := none })
    | some hi =>
      some (s.setGen g
        { s.gens g with
          lanes := Function.update (s.gens g).lanes lane (some (newSeqAllocator hi))
          opening := none })
  | _ => none

/-- `Next`: reserve a block on disk first when the current one is used up. -/
def SeqWorld.next (s : SeqWorld) (g : Nat) (lane : String) (writeOk : Bool) : Option SeqWorld :=
  match (s.gens g).lanes lane with
  | none => none
  | some a =>
    if a.reservedHi < a.next then
      let newHi := int64 (a.reservedHi + defaultSeqBlockSize)
      if writeOk then some ((s.write lane newHi).issue g lane { a with reservedHi := newHi })
      else some s
    else some (s.issue g lane a)

/-- `Close`: shrink the mark on disk to the last used number. -/
def SeqWorld.close (s : SeqWorld) (g : Nat) (lane : String) (writeOk : Bool) : Option SeqWorld :=
  match (s.gens g).lanes lane with
  | none => none
  | some a =>
    let used := if int64 (a.next - 1) < 0 then 0 else int64 (a.next - 1)
    if used = a.reservedHi then some s
    else if writeOk then some ((s.write lane used).setLane g lane { a with reservedHi := used })
    else some s

def seqStep (s : SeqWorld) : SeqAct → Option SeqWorld
  | .newGeneration g =>
    if g ∈ s.live then none else some { s.setGen g newLaneAllocator with live := g :: s.live }
  | .stat g lane => if g ∈ s.live then s.stat g lane else none
  | .seed g writeOk => if g ∈ s.live then s.seed g writeOk else none
  | .load g => if g ∈ s.live then s.load g else none
  | .next g lane writeOk => if g ∈ s.live then s.next g lane writeOk else none
  | .close g lane writeOk => if g ∈ s.live then s.close g lane writeOk else none
  | .retire g =>
    some { s.setGen g newLaneAllocator with live := s.live.filter fun g' => decide (g' ≠ g) }
  | .crash => some { s with live := [], gens := fun _ => newLaneAllocator }

end AikeyProxy.Events
