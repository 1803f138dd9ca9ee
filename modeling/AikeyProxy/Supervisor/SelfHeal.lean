import Mathlib.Data.List.Basic

/-!
# Self-healing of the control plane

When polls keep failing in the routing layer although a fresh client reaches the master, the proxy
asks to be restarted. `controlPlaneHealer` limits how often, in the memory of the process that is
about to be replaced. The machine is a sequence of such processes. Times are in nanoseconds.
-/

namespace AikeyProxy.Supervisor

def minute : Int := 60 * 1000000000

structure ControlPlaneHealer where
  restarts : List Int
  /-- The last restart; `none` is the zero time. -/
  last : Option Int
  consecutive : Nat
  threshold : Nat
  cooldown : Int
  window : Int
  budget : Nat
  supervised : Bool

def selfRestartIsSupervised (goos : String) : Bool := goos != "windows"

def newControlPlaneHealer (goos : String) : ControlPlaneHealer where
  restarts := []
  last := none
  consecutive := 0
  threshold := 3
  cooldown := 2 * minute
  window := 30 * minute
  budget := 4
  supervised := selfRestartIsSupervised goos

inductive RestartDecision where
  | skipCooldown | skipBreaker | now | skipUnsupervised

namespace ControlPlaneHealer

def onPollOK (h : ControlPlaneHealer) : ControlPlaneHealer := { h with consecutive := 0 }

def cooling (h : ControlPlaneHealer) (t : Int) : Bool := h.last.any fun l => t - l < h.cooldown

def shouldRestart (h : ControlPlaneHealer) (t : Int) : ControlPlaneHealer × RestartDecision :=
  if h.cooling t then (h, .skipCooldown)
  else
    let kept := h.restarts.filter fun r => t - h.window < r
    if h.budget ≤ kept.length then ({ h with restarts := kept }, .skipBreaker)
    else ({ h with restarts := kept ++ [t], last := some t }, .now)

/-- A poll at `t` that failed in the routing layer; `reachable` is the answer of the probe. -/
def onPollNetChange (h : ControlPlaneHealer) (t : Int) (reachable : Bool) :
    ControlPlaneHealer × RestartDecision :=
  let h := { h with consecutive := h.consecutive + 1 }
  if h.consecutive < h.threshold then (h, .skipCooldown)
  else if !reachable then (h, .skipCooldown)
  else if !h.supervised then (h, .skipUnsupervised)
  else h.shouldRestart t

end ControlPlaneHealer

/-! ## The machine -/

inductive PollOutcome where
  | reached
  | netChange (reachable : Bool)
  /-- Any other error does not touch the healer. -/
  | failed

inductive HealAct where
  | poll (t : Int) (outcome : PollOutcome)
  /-- `onNetworkChange`, which begins a new streak. -/
  | networkChange

/-- `decided` are the restarts of the machine, newest first. -/
structure HealWorld where
  healer : ControlPlaneHealer
  lastPoll : Option Int
  decided : List Int

def HealWorld.init (goos : String) : HealWorld := ⟨newControlPlaneHealer goos, none, []⟩

/-- One step of a machine that polls at most once a minute. A decided restart replaces the process,
and the healer with it. -/
def healStep (goos : String) (s : HealWorld) : HealAct → Option HealWorld
  | .networkChange => some { s with healer := s.healer.onPollOK }
  | .poll t outcome =>
    if s.lastPoll.any fun l => t < l + minute then none
    else
      match outcome with
      | .reached => some { s with healer := s.healer.onPollOK, lastPoll := some t }
      | .failed => some { s with lastPoll := some t }
      | .netChange reachable =>
        match s.healer.onPollNetChange t reachable with
        | (_, .now) => some ⟨newControlPlaneHealer goos, some t, t :: s.decided⟩
        | (h, _) => some { s with healer := h, lastPoll := some t }

end AikeyProxy.Supervisor
