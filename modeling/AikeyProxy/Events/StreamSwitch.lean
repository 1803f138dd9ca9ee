import AikeyProxy.Events.SeqAlloc

/-!
# The floor a lane owes the server

A lane that is seeded above the legacy stream leaves a span of numbers that will never arrive. Until
the server is told by a stream-switch declaration, the allocator of the process that seeded the lane
reports the floor of the span as pending.
-/

namespace AikeyProxy.Events

/-- `owed` has for every lane that was seeded the floor not cleared since, `seededHere` the lanes
seeded since the last start of a process. -/
structure SwitchWorld where
  seq : SeqWorld
  owed : String → Option Int
  seededHere : String → Bool

def SwitchWorld.init (disk : String → SeqFile) : SwitchWorld :=
  ⟨SeqWorld.init disk, fun _ => none, fun _ => false⟩

/-- `PendingFloor`, `0` for a lane that owes nothing. -/
def SwitchWorld.pendingFloor (s : SwitchWorld) (g : Nat) (lane : String) : Int :=
  (s.seq.gens g).pendingFloor lane

def SwitchWorld.clearPendingFloor (s : SwitchWorld) (g : Nat) (lane : String) : SwitchWorld :=
  { s with
    seq := s.seq.setGen g
      { s.seq.gens g with pendingFloor := Function.update (s.seq.gens g).pendingFloor lane 0 }
    owed := Function.update s.owed lane none }

/-- `declareStreamSwitch`: nothing to declare, too early after a failed one, or a post that the
collector accepts or not. -/
def SwitchWorld.declareStreamSwitch (s : SwitchWorld) (g : Nat) (lane : String)
    (due posted : Bool) : SwitchWorld :=
  if s.pendingFloor g lane ≤ 0 then s
  else if !due then s
  else if posted then s.clearPendingFloor g lane
  else s

inductive SwitchAct where
  | seq (a : SeqAct)
  | declareStreamSwitch (g : Nat) (lane : String) (due posted : Bool)

/-- A seed that is written adds to both records, and a process that starts has seeded nothing. -/
def SwitchWorld.record (s : SwitchWorld) (seq : SeqWorld) : SeqAct → SwitchWorld
  | .seed g true =>
    match (s.seq.gens g).opening with
    | some (lane, .seed legacyHi) =>
      ⟨seq, Function.update s.owed lane (some legacyHi), Function.update s.seededHere lane true⟩
    | _ => { s with seq }
  | .newGeneration _ => { s with seq, seededHere := fun _ => false }
  | _ => { s with seq }

def switchStep (s : SwitchWorld) : SwitchAct → Option SwitchWorld
  | .seq a => (seqStep s.seq a).map fun seq => s.record seq a
  | .declareStreamSwitch g lane due posted =>
    if g ∈ s.seq.live then some (s.declareStreamSwitch g lane due posted) else none

end AikeyProxy.Events
