import AikeyProxy.Proof.Revocation

/-!
# The snapshot behind the revocation set

A cycle probes the change counter and then, in a second request, fetches a snapshot. It records the
version it probed, whatever the version of the snapshot: the rows may come from an older state than
the counter. `RevSource` remembers the snapshot that the set in force was computed from.
-/

namespace AikeyProxy.Supervisor

open Lib Option

/-- A managed-keys snapshot, with the change counter of the state it shows. -/
structure Snapshot where
  version : Int
  keys : List SnapshotKey

/-- A world, and the snapshot its revocation set was computed from. -/
structure RevSource where
  world : RevWorld
  source : Option Snapshot

/-- A step of the world; a snapshot that is fetched shows the state of some version. -/
structure SourceAct where
  act : RevAct
  version : Int := 0

def sourceStep (s : RevSource) (a : SourceAct) : Option RevSource :=
  (revStep s.world a.act).map fun world =>
    { world
      source := match a.act with
        | .cycleSnapshot (some (key :: keys)) => some ⟨a.version, key :: keys⟩
        | _ => s.source }

/-- A snapshot with rows is at least as new as the version its cycle has probed. -/
def FreshSnapshot (s : RevSource) (a : SourceAct) : Prop :=
  match a.act, s.world.cycle with
  | .cycleSnapshot (some (_ :: _)), some ⟨_, .probed version⟩ => version ≤ a.version
  | _, _ => True

/-- A cycle that is about to read this answer of the probe will leave the set as it is. -/
def RevWorld.NoChange (s : RevWorld) (version : Int) : Prop :=
  (∃ g, s.cycle = some ⟨g, .started⟩) ∧ s.revokedVKIDs.isSome ∧ s.lastSyncVersion = version

/-- The set in force was computed from a snapshot at least as new as the recorded version. -/
def SourceInv (s : RevSource) : Prop :=
  ∀ set, s.world.revokedVKIDs = some set →
    ∃ snap, s.source = some snap ∧ set = revokedOf snap.keys ∧
      s.world.lastSyncVersion ≤ snap.version

variable {s s' : RevWorld} {a : RevAct}

theorem revStep_keeps (h : revStep s a = some s') (hno : ∀ answer, a ≠ .cycleSnapshot answer) :
    s'.revokedVKIDs = s.revokedVKIDs ∧ s'.lastSyncVersion = s.lastSyncVersion := by
  cases a with
  | cycleSnapshot answer => exact absurd rfl (hno answer)
  | _ =>
    simp only [revStep, buildStep, cycleStep, syncStep, or_none, none_or] at h
    repeat' split at h
    all_goals cases h <;> exact ⟨rfl, rfl⟩

theorem revStep_snapshot {answer : Option (List SnapshotKey)}
    (h : revStep s (.cycleSnapshot answer) = some s') :
    ∃ g version, s.cycle = some ⟨g, .probed version⟩ ∧
      match answer with
      | some (key :: keys) =>
        s'.revokedVKIDs = some (revokedOf (key :: keys)) ∧ s'.lastSyncVersion = version
      | _ => s'.revokedVKIDs = s.revokedVKIDs ∧ s'.lastSyncVersion = s.lastSyncVersion := by
  simp only [revStep, buildStep, cycleStep, syncStep, or_none, none_or] at h
  split at h
  next g version hcycle =>
    refine ⟨g, version, hcycle, ?_⟩
    rcases answer with _ | _ | ⟨key, keys⟩ <;>
    · cases h
      exact ⟨rfl, rfl⟩
  · cases h

theorem SourceInv.step {s s' : RevSource} {a : SourceAct} (hi : SourceInv s)
    (hok : FreshSnapshot s a) (h : sourceStep s a = some s') : SourceInv s' := by
  obtain ⟨world, hw, rfl⟩ := map_eq_some_iff.mp h
  intro set hset
  by_cases hsnap : ∃ answer, a.act = .cycleSnapshot answer
  · obtain ⟨answer, hact⟩ := hsnap
    rw [hact] at hw
    obtain ⟨g, version, hcycle, hres⟩ := revStep_snapshot hw
    simp only [FreshSnapshot, hact, hcycle] at hok ⊢
    match answer with
    | some (key :: keys) =>
      exact ⟨_, rfl, some.inj (hset.symm.trans hres.1), hres.2 ▸ hok⟩
    | none | some [] => exact hres.2 ▸ hi set (hres.1 ▸ hset)
  · obtain ⟨hids, hlast⟩ := revStep_keeps hw fun answer h => hsnap ⟨answer, h⟩
    rw [hids] at hset
    rw [hlast]
    split
    next hact => exact absurd ⟨_, hact⟩ hsnap
    · exact hi set hset

/-- **The fast path is sound when no snapshot is older than the version probed before it.** -/
theorem no_change_path_sound (cfg : RouteConfig) (vault : VaultContent) (acts : List SourceAct)
    (s : RevSource) (version : Int)
    (hrun : Guarded sourceStep FreshSnapshot ⟨.init cfg vault, none⟩ acts s)
    (hfast : s.world.NoChange version) :
    ∃ snap, s.source = some snap ∧ s.world.revokedVKIDs = some (revokedOf snap.keys) ∧
      version ≤ snap.version := by
  have hinv : SourceInv s := hrun.invariant (fun _ _ _ hi hok hs => hi.step hok hs) nofun
  obtain ⟨-, hsome, rfl⟩ := hfast
  obtain ⟨set, hset⟩ := isSome_iff_exists.mp hsome
  obtain ⟨snap, hsource, rfl, hle⟩ := hinv set hset
  exact ⟨snap, hsource, hset, hle⟩

/-- A cycle that probes version 6 and fetches rows of another version, up to the next probe. -/
def probeThenFetch (fetched : Int) : List SourceAct :=
  [⟨.cycleStart, 0⟩, ⟨.cycleProbe (some 6), 0⟩, ⟨.cycleSnapshot (some [⟨"vk1", "active"⟩]), fetched⟩,
    ⟨.cyclePublish, 0⟩, ⟨.cycleStart, 0⟩]

theorem newer_rows_no_change :
    ∃ s, exec sourceStep ⟨.init plainConfig teamVault, none⟩ (probeThenFetch 7) = some s ∧
      s.world.NoChange 6 ∧ ∃ snap, s.source = some snap ∧
        s.world.revokedVKIDs = some (revokedOf snap.keys) ∧ 6 ≤ snap.version := by
  refine ⟨_, rfl, ⟨⟨0, rfl⟩, rfl, rfl⟩,
    no_change_path_sound plainConfig teamVault (probeThenFetch 7) _ 6 ?_ ⟨⟨0, rfl⟩, rfl, rfl⟩⟩
  exact .cons trivial rfl (.cons trivial rfl (.cons (by decide : (6 : Int) ≤ 7) rfl
    (.cons trivial rfl (.cons trivial rfl (.nil _)))))

/-- Rows older than the probe are never fetched again: at the next probe of version 6 the cycle
returns early with the set of version 5. -/
theorem older_rows_no_change :
    ∃ s, exec sourceStep ⟨.init plainConfig teamVault, none⟩ (probeThenFetch 5) = some s ∧
      s.world.NoChange 6 ∧ s.source = some ⟨5, [⟨"vk1", "active"⟩]⟩ :=
  ⟨_, rfl, ⟨⟨0, rfl⟩, rfl, rfl⟩, rfl⟩

end AikeyProxy.Supervisor
