import AikeyProxy.Supervisor.ClientRegistry

/-!
# Clients of generations that are gone

Nothing leaves the registry, so it stays bounded over all reloads exactly when no generation adds to
it. One reporter in each generation is enough for a list as long as the number of reloads.
-/

namespace AikeyProxy.Supervisor

open Lib

variable {w w' : ClientWorld} {act : ClientAct} {P : GenerationInputs → Prop}

section

variable (P : GenerationInputs → Prop)

def Finds (_ : ClientWorld) : ClientAct → Prop
  | .reload b => P b
  | _ => True

/-- One bound for the registry after every number of reloads, once the old generations are
closed. -/
def RegistryBounded : Prop :=
  ∃ bound, ∀ cluster acts w, Guarded clientStep (Finds P) (.init cluster) acts w →
    w.draining = [] → w.cpClients.length ≤ bound

def AddsNoClient : Prop := ∀ b gen, P b → b.clients gen = []

end

theorem clientStep_length (hadd : AddsNoClient P) (hok : Finds P w act)
    (hs : clientStep w act = some w') : w'.cpClients.length = w.cpClients.length := by
  cases act with
  | reload b =>
    cases hs
    rw [hadd b _ hok]
    split <;> simp
  | close gen =>
    obtain ⟨-, ⟨⟩⟩ := Option.ite_none_right_eq_some.mp hs
    rfl
  | rebuildAllControlPlane =>
    cases hs
    exact List.length_map _

section

variable {b : GenerationInputs} {gen : Nat}

theorem length_clients_pos (h : b.clients gen ≠ []) (g : Nat) :
    b.opensStores = true ∧ 0 < (b.clients g).length := by
  revert h
  unfold GenerationInputs.clients
  split
  next => exact fun h => absurd rfl h
  next hopen =>
    intro h
    refine ⟨by simp_all, ?_⟩
    grind

theorem rounds_grow (hb : P b) (hne : b.clients gen ≠ [])
    (n : Nat) : ∀ w : ClientWorld, w.draining = [] →
      ∃ acts w', Guarded clientStep (Finds P) w acts w' ∧ w'.draining = [] ∧
        n + w.cpClients.length ≤ w'.cpClients.length := by
  induction n with
  | zero => exact fun w hw => ⟨[], w, .nil w, hw, by omega⟩
  | succ n ih =>
    intro w hw
    obtain ⟨hopen, hpos⟩ := length_clients_pos hne (w.genID + 1)
    let mid : ClientWorld :=
      { w with
        genID := w.genID + 1, active := some (w.genID + 1),
        cpClients := w.cpClients ++ (b.clients (w.genID + 1)).map newSwappable }
    have hreload : clientStep w (.reload b) = some { mid with draining := w.active.toList } := by
      rw [clientStep, if_pos hopen, hw, List.nil_append]
    obtain ⟨acts, w', hrun, hdone, hle⟩ := ih mid hw
    have hlen : n + 1 + w.cpClients.length ≤ w'.cpClients.length := by
      have : mid.cpClients.length = w.cpClients.length + (b.clients (w.genID + 1)).length := by
        rw [List.length_append, List.length_map]
      omega
    cases hact : w.active with
    | none =>
      rw [hact] at hreload
      have hmid : { mid with draining := [] } = mid := by rw [← hw]
      exact ⟨.reload b :: acts, w', .cons hb (hreload.trans (congrArg some hmid)) hrun, hdone, hlen⟩
    | some g =>
      rw [hact] at hreload
      have hclose : clientStep { mid with draining := [g] } (.close g) = some mid := by
        simp [clientStep, mid, hw]
      exact ⟨.reload b :: .close g :: acts, w', .cons hb hreload (.cons trivial hclose hrun), hdone,
        hlen⟩

theorem not_registryBounded (hb : P b) (hne : b.clients gen ≠ []) : ¬ RegistryBounded P := by
  rintro ⟨bound, hbound⟩
  obtain ⟨acts, w, hrun, hdone, hlen⟩ := rounds_grow hb hne (bound + 1) (.init false) rfl
  have hle := hbound false acts w hrun hdone
  omega

end

/-- **The registry keeps within one bound exactly when no inputs make a generation register a
client.** -/
theorem registry_bounded_iff (P : GenerationInputs → Prop) :
    RegistryBounded P ↔ AddsNoClient P := by
  constructor
  · intro hbounded b gen hb
    exact Decidable.byContradiction fun hne => not_registryBounded hb hne hbounded
  · intro hadd
    refine ⟨10, fun cluster acts w hrun _ => ?_⟩
    refine hrun.invariant (I := fun w => w.cpClients.length ≤ 10) ?_ (by cases cluster <;> decide)
    exact fun _ _ _ hle hok hs => (clientStep_length hadd hok hs).symm ▸ hle

/-- A collector in the config file and nothing else. -/
def collectorOnly : GenerationInputs :=
  ⟨"https://collector", [], "", "", true, true, false, false⟩

/-- Two reloads, the old generation closed, and the clients of both are registered. -/
theorem closed_generation_registered :
    (exec clientStep (.init false) [.reload collectorOnly, .reload collectorOnly, .close 1]).map
      (fun w => (w.draining, w.cpClients.length, w.cpClients.drop 9)) =
    some ([], 13, [.reporter 1, .canary 1, .reporter 2, .canary 2].map newSwappable) ∧
    ¬ RegistryBounded (· = collectorOnly) := by
  have hne : collectorOnly.clients 1 ≠ [] := by decide
  exact ⟨by decide, not_registryBounded rfl hne⟩

end AikeyProxy.Supervisor
