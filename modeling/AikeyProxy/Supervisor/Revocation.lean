import AikeyProxy.Proof.RouteTable
import Mathlib.Data.Finset.Card

/-!
# Key revocation across reloads

The revocation set lives in the supervisor, in the vault reader of a generation, and, through the
routes that are left out, in the registry of a generation. Three activities write them: the
key-revocation cycle, a reload (which builds and then activates a generation), and the managed-key
sync, which rebuilds the registry of the generation it loaded.

Each activity is a thread; a step is what the source does between two accesses to shared state. None
of the three runs twice at once.
-/

namespace AikeyProxy.Supervisor

/-! ## Reading a snapshot -/

structure SnapshotKey where
  virtualKeyID : String
  effectiveStatus : String

def effectiveStatusActive : String := "active"

/-- The keys the snapshot no longer honours; a row without an id is skipped. -/
def revokedOf (keys : List SnapshotKey) : Finset String :=
  ((keys.filter fun k =>
    k.virtualKeyID ≠ "" && !equalFold k.effectiveStatus effectiveStatusActive).map
      SnapshotKey.virtualKeyID).toFinset

def sameRevocationSet (a b : Finset String) : Bool := a.card = b.card && decide (∀ k ∈ a, k ∈ b)

/-! ## Shared state -/

/-- A registry's content together with the revocation set it was built with. -/
structure RouteSet where
  routes : Registry
  revoked : Finset String
  /-- Every builder leaves the keys of its revocation set out. -/
  refuses : ∀ vk ∈ revoked, routes.Refuses vk

def RouteSet.empty : RouteSet := ⟨∅, ∅, nofun⟩

/-- What `buildGeneration` loads into a fresh registry. -/
def RouteSet.startup (cfg : RouteConfig) (vault : VaultContent) (revoked : Finset String) :
    RouteSet :=
  ⟨startupRegistry cfg vault revoked, revoked, startup_refuses⟩

/-- What `rebuildRouteRegistry` hands to `ReplaceAll`. -/
def RouteSet.rebuild (cfg : RouteConfig) (vault : VaultContent) (revoked : Finset String) :
    RouteSet :=
  ⟨rebuildRouteRegistry cfg vault revoked, revoked, rebuild_refuses⟩

/-- What a generation consults before it honours a virtual key. -/
structure KeyGate where
  readerRevoked : Finset String
  registry : RouteSet

def KeyGate.empty : KeyGate := ⟨∅, .empty⟩

def KeyGate.isVirtualKeyRevoked (g : KeyGate) (vk : String) : Bool :=
  vk ≠ "" && decide (vk ∈ g.readerRevoked)

/-- A reload between taking `reloadMu` and activating the generation `gen`. -/
inductive BuildPc where
  | opened | armed | loaded
  deriving DecidableEq

structure Build where
  gen : Nat
  pc : BuildPc

inductive CyclePc where
  | started
  | probed (version : Int)
  /-- The set is stored in the supervisor, not yet in the vault reader. -/
  | stored (prev revoked : Finset String)
  /-- The set has changed and the registry is to be rebuilt. -/
  | published
  | rebuilt (set : RouteSet)

structure Cycle where
  gen : Nat
  pc : CyclePc

/-- A managed-key sync: the generation it loaded and the routes it has built. -/
structure Sync where
  gen : Nat
  built : Option RouteSet

structure RevWorld where
  /-- `revokedVKIDs`: nil until the first snapshot was resolved. -/
  revokedVKIDs : Option (Finset String) := none
  lastSyncVersion : Int := 0
  gates : Nat → KeyGate
  active : Nat := 0
  genID : Nat := 0
  build : Option Build := none
  cycle : Option Cycle := none
  sync : Option Sync := none

variable (s : RevWorld)

def RevWorld.revokedVKs : Finset String := s.revokedVKIDs.getD ∅

def RevWorld.setGate (g : Nat) (gate : KeyGate) : RevWorld :=
  { s with gates := fun g' => if g' = g then gate else s.gates g' }

/-- The state after the first generation was built, before any poll. -/
def RevWorld.init (cfg : RouteConfig) (vault : VaultContent) : RevWorld where
  gates := fun _ => ⟨∅, .startup cfg vault ∅⟩

/-! ## Steps -/

/-- One access to shared state. What a query of the vault or the control plane
returns is part of the step. -/
inductive RevAct where
  | buildStart
  | buildArm
  | buildLoad (cfg : RouteConfig) (vault : VaultContent)
  | buildFail
  | activate
  | cycleStart
  | cycleProbe (answer : Option Int)
  | cycleSnapshot (answer : Option (List SnapshotKey))
  | cyclePublish
  | cycleRead (cfg : RouteConfig) (vault : VaultContent)
  | cycleReplace
  | syncStart
  | syncRead (cfg : RouteConfig) (vault : VaultContent)
  | syncReplace

/-- `ReplaceAll` on the registry of generation `g`. -/
def RevWorld.replaceAll (g : Nat) (set : RouteSet) : RevWorld :=
  s.setGate g { s.gates g with registry := set }

/-- `SetRevokedVirtualKeys` on the vault reader of generation `g`. -/
def RevWorld.setRevoked (g : Nat) (set : Finset String) : RevWorld :=
  s.setGate g { s.gates g with readerRevoked := set }

/-- The reload's steps; `none` when the reload is not at that point. -/
def buildStep : RevAct → Option RevWorld
  | .buildStart =>
    match s.build with
    | none =>
      some ({ s with genID := s.genID + 1, build := some ⟨s.genID + 1, .opened⟩ }.setGate
        (s.genID + 1) .empty)
    | some _ => none
  | .buildArm =>
    match s.build with
    | some ⟨g, .opened⟩ =>
      some ({ s with build := some ⟨g, .armed⟩ }.setRevoked g s.revokedVKs)
    | _ => none
  | .buildLoad cfg vault =>
    match s.build with
    | some ⟨g, .armed⟩ =>
      some ({ s with build := some ⟨g, .loaded⟩ }.replaceAll g (.startup cfg vault s.revokedVKs))
    | _ => none
  | .buildFail =>
    match s.build with
    | some _ => some { s with build := none }
    | none => none
  | .activate =>
    match s.build with
    | some ⟨g, .loaded⟩ => some { s with active := g, build := none }
    | _ => none
  | _ => none

/-- What `syncKeyRevocation` does with a snapshot: an empty list tells it nothing. -/
def RevWorld.resolve (c : Cycle) (version : Int) (keys : List SnapshotKey) : RevWorld :=
  if keys = [] then { s with cycle := none }
  else
    { s with
      revokedVKIDs := some (revokedOf keys)
      lastSyncVersion := version
      cycle := some { c with pc := .stored s.revokedVKs (revokedOf keys) } }

def cycleStep : RevAct → Option RevWorld
  | .cycleStart =>
    match s.cycle with
    | none => some { s with cycle := some ⟨s.active, .started⟩ }
    | some _ => none
  | .cycleProbe answer =>
    match s.cycle with
    | some ⟨g, .started⟩ =>
      match answer with
      | none => some { s with cycle := none }
      | some version =>
        -- nothing to do only when a set was resolved before and the counter has not moved
        if s.revokedVKIDs.isSome ∧ s.lastSyncVersion = version then some { s with cycle := none }
        else some { s with cycle := some ⟨g, .probed version⟩ }
    | _ => none
  | .cycleSnapshot answer =>
    match s.cycle with
    | some ⟨g, .probed version⟩ =>
      match answer with
      | none => some { s with cycle := none }
      | some keys => some (s.resolve ⟨g, .probed version⟩ version keys)
    | _ => none
  | .cyclePublish =>
    match s.cycle with
    | some ⟨g, .stored prev revoked⟩ =>
      if sameRevocationSet prev revoked then some ({ s with cycle := none }.setRevoked g revoked)
      else some ({ s with cycle := some ⟨g, .published⟩ }.setRevoked g revoked)
    | _ => none
  | .cycleRead cfg vault =>
    match s.cycle with
    | some ⟨g, .published⟩ =>
      some { s with cycle := some ⟨g, .rebuilt (.rebuild cfg vault s.revokedVKs)⟩ }
    | _ => none
  | .cycleReplace =>
    match s.cycle with
    | some ⟨g, .rebuilt set⟩ => some ({ s with cycle := none }.replaceAll g set)
    | _ => none
  | _ => none

def syncStep : RevAct → Option RevWorld
  | .syncStart =>
    match s.sync with
    | none => some { s with sync := some ⟨s.active, none⟩ }
    | some _ => none
  | .syncRead cfg vault =>
    match s.sync with
    | some ⟨g, none⟩ => some { s with sync := some ⟨g, some (.rebuild cfg vault s.revokedVKs)⟩ }
    | _ => none
  | .syncReplace =>
    match s.sync with
    | some ⟨g, some set⟩ => some ({ s with sync := none }.replaceAll g set)
    | _ => none
  | _ => none

def revStep (a : RevAct) : Option RevWorld :=
  (buildStep s a).or ((cycleStep s a).or (syncStep s a))

end AikeyProxy.Supervisor
