import AikeyProxy.Lib.Run

/-!
# The registry of control-plane clients

`NewSwappable` puts every client it makes into a list of the process, so that a change of the
network rebuilds them all. Most are made once, with the process; the reporters and the canary probe
are made by every generation, and what closes a generation takes nothing off the list.
-/

namespace AikeyProxy.Supervisor

inductive ClientOwner where
  | licensePlane | groupRuntime | compliance | quota | routingOverride | fallbackPolicy
  | keyRevocation | credentialRefresh | signalReporter | registrar
  | reporter (gen : Nat) | canary (gen : Nat) | contentReporter (gen : Nat)
  deriving DecidableEq

/-- A registered client, with the number of `http.Client`s its factory has made. -/
structure SwappableClient where
  owner : ClientOwner
  made : Nat
  deriving DecidableEq

def newSwappable (owner : ClientOwner) : SwappableClient := ⟨owner, 1⟩

def SwappableClient.rebuild (c : SwappableClient) : SwappableClient := { c with made := c.made + 1 }

/-- The settings of the config file that `buildGeneration` reads for its reporters, and whether what
it opens can be opened. -/
structure GenerationInputs where
  collectorURL : String
  collectorRoutes : List (String × String)
  controlURL : String
  walDir : String
  opensStores : Bool
  opensReporter : Bool
  capturesConversations : Bool
  opensContentWAL : Bool

def GenerationInputs.hasAnyURL (b : GenerationInputs) : Bool :=
  b.collectorURL ≠ "" || b.collectorRoutes.any (·.2 ≠ "")

/-- The clients that the constructors of generation `gen` register. -/
def GenerationInputs.clients (b : GenerationInputs) (gen : Nat) : List ClientOwner :=
  if !b.opensStores || !b.hasAnyURL then []
  else
    let diagURL := if b.collectorURL = "" then b.controlURL else b.collectorURL
    let teamURL := (b.collectorRoutes.lookup "team").getD ""
    let convCollectorURL := if teamURL = "" then b.collectorURL else teamURL
    (if b.opensReporter then .reporter gen :: (if diagURL = "" then [] else [.canary gen])
      else []) ++
    (if b.capturesConversations && b.walDir ≠ "" && convCollectorURL ≠ "" && b.opensContentWAL then
      [.contentReporter gen] else [])

structure ClientWorld where
  cpClients : List SwappableClient
  genID : Nat
  active : Option Nat
  /-- the generations that were replaced and are not closed yet -/
  draining : List Nat

/-- The clients that are made once: package variables, and the process's signal reporter. -/
def processClients : List ClientOwner :=
  [.licensePlane, .groupRuntime, .compliance, .quota, .routingOverride, .fallbackPolicy,
    .keyRevocation, .credentialRefresh, .signalReporter]

def ClientWorld.init (cluster : Bool) : ClientWorld where
  cpClients := (processClients ++ if cluster then [ClientOwner.registrar] else []).map newSwappable
  genID := 0
  active := none
  draining := []

inductive ClientAct where
  /-- `buildGeneration` and the swap; a build that fails leaves the old generation in place -/
  | reload (b : GenerationInputs)
  /-- `drain` and `closeAll` of a replaced generation -/
  | close (gen : Nat)
  | rebuildAllControlPlane

def clientStep (w : ClientWorld) : ClientAct → Option ClientWorld
  | .reload b =>
    let gen := w.genID + 1
    let w := { w with genID := gen, cpClients := w.cpClients ++ (b.clients gen).map newSwappable }
    some (if b.opensStores then
      { w with active := some gen, draining := w.draining ++ w.active.toList } else w)
  | .close gen =>
    if gen ∈ w.draining then some { w with draining := w.draining.erase gen } else none
  | .rebuildAllControlPlane =>
    some { w with cpClients := w.cpClients.map SwappableClient.rebuild }

end AikeyProxy.Supervisor
