import AikeyProxy.Lib.Run
import AikeyProxy.Supervisor.Revocation

/-!
# A learned revocation stays enforced

A reload copies the revocation set twice while it builds and activates much later; a cycle writes to
the generation it loaded at its start; a sync installs routes built with a set it read earlier. All
that can make such a copy stale is a cycle that stores a set with new keys in between (`RevStepOk`).
Otherwise the copies of a build and of a sync cover the set, and the active generation has it or the
running cycle is still going to bring it there (`RevInv`).
-/

namespace AikeyProxy.Supervisor

open Lib RevWorld

/-- The active generation of the state refuses a virtual key: its vault reader
reports it revoked and no route of its registry serves it. -/
def RevWorld.Refuses (s : RevWorld) (vk : String) : Prop :=
  (s.gates s.active).isVirtualKeyRevoked vk = true ∧
    (s.gates s.active).registry.routes.Refuses vk

def RevWorld.Idle (s : RevWorld) : Prop := s.build = none ∧ s.cycle = none

/-- The running cycle is still going to publish to the active generation's reader. -/
def RevWorld.pendingPublish (s : RevWorld) : Bool :=
  match s.cycle with
  | some ⟨g, .stored _ _⟩ => g = s.active
  | _ => false

/-- The running cycle is still going to rebuild the active generation's registry. -/
def RevWorld.pendingRebuild (s : RevWorld) : Bool :=
  match s.cycle with
  | some ⟨g, .stored prev revoked⟩ => decide (g = s.active) && !sameRevocationSet prev revoked
  | some ⟨g, .published⟩ => g = s.active
  | some ⟨g, .rebuilt _⟩ => g = s.active
  | _ => false

/-- The schedule: a cycle stores a set with new keys only while its generation is the active one, no
build has read the set yet, and no sync has. -/
def RevStepOk (s : RevWorld) : RevAct → Prop
  | .cycleSnapshot (some keys) =>
    ∀ c ∈ s.cycle, keys = [] ∨ revokedOf keys ⊆ s.revokedVKs ∨
      (c.gen = s.active ∧ (∀ b ∈ s.build, b.pc = .opened) ∧ ∀ y ∈ s.sync, y.built.isNone = true)
  | _ => True

instance (s : RevWorld) : ∀ a, Decidable (RevStepOk s a)
  | .cycleSnapshot (some _) => inferInstanceAs (Decidable (∀ _ ∈ _, _))
  | .cycleSnapshot none | .buildStart | .buildArm | .buildLoad .. | .buildFail | .activate
  | .cycleStart | .cycleProbe _ | .cyclePublish | .cycleRead .. | .cycleReplace | .syncStart
  | .syncRead .. | .syncReplace => isTrue trivial

/-! ## Small facts -/

variable {g : Nat} {a : RevAct} {s s' : RevWorld}

theorem eq_of_sameRevocationSet {a b : Finset String} (h : sameRevocationSet a b = true) :
    a = b := by
  rw [sameRevocationSet, Bool.and_eq_true, decide_eq_true_eq, decide_eq_true_eq] at h
  exact Finset.eq_of_subset_of_card_le h.2 (by omega)

theorem empty_not_mem_revokedOf (keys : List SnapshotKey) : "" ∉ revokedOf keys := by
  intro h
  rw [revokedOf, List.mem_toFinset] at h
  obtain ⟨k, hk, hid⟩ := List.mem_map.mp h
  have hne := (List.mem_filter.mp hk).2
  rw [hid] at hne
  simp at hne

theorem gates_setGate_self (gate : KeyGate) : (s.setGate g gate).gates g = gate := if_pos rfl

theorem gates_setGate_ne {g' : Nat} (hne : g' ≠ g) (gate : KeyGate) :
    (s.setGate g gate).gates g' = s.gates g' :=
  if_neg hne

/-! ## The invariant -/

structure RevInv (s : RevWorld) : Prop where
  /-- A set never has the empty id, which a vault reader takes for no key. -/
  named : "" ∉ s.revokedVKs
  /-- What the cycle is about to publish or install is the current set. -/
  stored : ∀ g prev revoked, s.cycle = some ⟨g, .stored prev revoked⟩ → revoked = s.revokedVKs
  rebuilt : ∀ g set, s.cycle = some ⟨g, .rebuilt set⟩ → set.revoked = s.revokedVKs
  reader : s.pendingPublish = false → s.revokedVKs ⊆ (s.gates s.active).readerRevoked
  routes : s.pendingRebuild = false → s.revokedVKs ⊆ (s.gates s.active).registry.revoked
  activeOld : s.active ≤ s.genID
  building : ∀ b, s.build = some b → b.gen ≤ s.genID
  /-- The copies of a build and of a sync cover the set. -/
  armed : ∀ b, s.build = some b → b.pc ≠ .opened → s.revokedVKs ⊆ (s.gates b.gen).readerRevoked
  loaded : ∀ b, s.build = some b → b.pc = .loaded →
    s.revokedVKs ⊆ (s.gates b.gen).registry.revoked
  synced : ∀ y set, s.sync = some y → y.built = some set → s.revokedVKs ⊆ set.revoked

theorem revInv_init (cfg : RouteConfig) (vault : VaultContent) :
    RevInv (RevWorld.init cfg vault) where
  named := by simp [RevWorld.init, revokedVKs]
  stored := nofun
  rebuilt := nofun
  reader := fun _ => by simp [RevWorld.init, revokedVKs]
  routes := fun _ => by simp [RevWorld.init, revokedVKs]
  activeOld := Nat.le_refl _
  building := nofun
  armed := nofun
  loaded := nofun
  synced := nofun

/-- A gate gives way to one that covers the set where it did. -/
theorem RevInv.setGate {gate : KeyGate} (h : RevInv s)
    (hreader : s.revokedVKs ⊆ (s.gates g).readerRevoked → s.revokedVKs ⊆ gate.readerRevoked)
    (hroutes : s.revokedVKs ⊆ (s.gates g).registry.revoked →
      s.revokedVKs ⊆ gate.registry.revoked) : RevInv (s.setGate g gate) := by
  have hcovers : ∀ g', (s.revokedVKs ⊆ (s.gates g').readerRevoked →
      s.revokedVKs ⊆ ((s.setGate g gate).gates g').readerRevoked) ∧
      (s.revokedVKs ⊆ (s.gates g').registry.revoked →
        s.revokedVKs ⊆ ((s.setGate g gate).gates g').registry.revoked) := by
    intro g'
    by_cases hg : g' = g
    · rw [hg, gates_setGate_self]
      exact ⟨hreader, hroutes⟩
    · rw [gates_setGate_ne hg]
      exact ⟨id, id⟩
  exact { h with
    reader := fun hp => (hcovers _).1 (h.reader hp)
    routes := fun hp => (hcovers _).2 (h.routes hp)
    armed := fun b hb hpc => (hcovers _).1 (h.armed b hb hpc)
    loaded := fun b hb hpc => (hcovers _).2 (h.loaded b hb hpc) }

theorem RevInv.setRevoked (h : RevInv s) (g : Nat) : RevInv (s.setRevoked g s.revokedVKs) :=
  h.setGate (fun _ => Finset.Subset.refl _) id

theorem RevInv.replaceAll {set : RouteSet} (h : RevInv s) (g : Nat)
    (hset : s.revokedVKs ⊆ set.revoked) : RevInv (s.replaceAll g set) :=
  h.setGate id fun _ => hset

/-! ## The reload -/

theorem RevInv.buildStart (h : RevInv s) :
    RevInv ({ s with genID := s.genID + 1, build := some ⟨s.genID + 1, .opened⟩ }.setGate
      (s.genID + 1) .empty) := by
  have hgate : (s.setGate (s.genID + 1) .empty).gates s.active = s.gates s.active :=
    gates_setGate_ne (Nat.ne_of_lt (Nat.lt_succ_of_le h.activeOld)) _
  refine { h with
    reader := hgate.symm ▸ h.reader, routes := hgate.symm ▸ h.routes
    activeOld := Nat.le_succ_of_le h.activeOld, building := ?_, armed := ?_, loaded := ?_ }
  · rintro b ⟨⟩
    exact Nat.le_refl _
  · rintro b ⟨⟩ hpc
    exact absurd rfl hpc
  · exact nofun

theorem RevInv.buildArm (h : RevInv s) (hb : s.build = some ⟨g, .opened⟩) :
    RevInv ({ s with build := some ⟨g, .armed⟩ }.setRevoked g s.revokedVKs) := by
  refine { h.setRevoked g with building := ?_, armed := ?_, loaded := ?_ }
  · rintro b ⟨⟩
    exact h.building ⟨g, .opened⟩ hb
  · rintro b ⟨⟩ _
    exact (gates_setGate_self (s := s) _) ▸ Finset.Subset.refl _
  · exact nofun

theorem RevInv.buildLoad (h : RevInv s) (hb : s.build = some ⟨g, .armed⟩) (cfg : RouteConfig)
    (vault : VaultContent) :
    RevInv ({ s with build := some ⟨g, .loaded⟩ }.replaceAll g
      (.startup cfg vault s.revokedVKs)) := by
  have hnew : RevInv (s.replaceAll g (.startup cfg vault s.revokedVKs)) :=
    h.replaceAll g (Finset.Subset.refl _)
  refine { hnew with building := ?_, armed := ?_, loaded := ?_ }
  · rintro b ⟨⟩
    exact h.building ⟨g, .armed⟩ hb
  · rintro b ⟨⟩ _
    exact hnew.armed ⟨g, .armed⟩ hb nofun
  · rintro b ⟨⟩ _
    exact (gates_setGate_self (s := s) _) ▸ Finset.Subset.refl _

theorem revInv_build (h : RevInv s) (hs : buildStep s a = some s') : RevInv s' := by
  cases a with
  | buildStart =>
    simp only [buildStep] at hs
    split at hs <;> cases hs
    exact h.buildStart
  | buildArm =>
    simp only [buildStep] at hs
    split at hs <;> cases hs
    next g hb => exact h.buildArm hb
  | buildLoad cfg vault =>
    simp only [buildStep] at hs
    split at hs <;> cases hs
    next g hb => exact h.buildLoad hb cfg vault
  | buildFail =>
    simp only [buildStep] at hs
    split at hs <;> cases hs
    exact { h with building := nofun, armed := nofun, loaded := nofun }
  | activate =>
    simp only [buildStep] at hs
    split at hs <;> cases hs
    next g hb =>
      -- the copies of the new generation are current, whatever the cycle is doing
      exact { h with
        reader := fun _ => h.armed _ hb nofun, routes := fun _ => h.loaded _ hb rfl
        activeOld := h.building _ hb, building := nofun, armed := nofun, loaded := nofun }
  | _ => cases hs

/-! ## The cycle -/

/-- A cycle that has stored nothing yet begins, goes on or ends. -/
theorem RevInv.early {c : Option Cycle} (h : RevInv s) (hpublish : s.pendingPublish = false)
    (hrebuild : s.pendingRebuild = false)
    (hearly : ∀ x ∈ c, x.pc = .started ∨ ∃ version, x.pc = .probed version) :
    RevInv { s with cycle := c } := by
  refine { h with stored := ?_, rebuilt := ?_, reader := ?_, routes := ?_ }
  · rintro g prev revoked ⟨⟩
    obtain hpc | ⟨version, hpc⟩ := hearly _ rfl <;> cases hpc
  · rintro g set ⟨⟩
    obtain hpc | ⟨version, hpc⟩ := hearly _ rfl <;> cases hpc
  · exact fun _ => h.reader hpublish
  · exact fun _ => h.routes hrebuild

theorem RevInv.resolve {version : Int} {keys : List SnapshotKey} (h : RevInv s)
    (hc : s.cycle = some ⟨g, .probed version⟩) (hok : RevStepOk s (.cycleSnapshot (some keys))) :
    RevInv (s.resolve ⟨g, .probed version⟩ version keys) := by
  have hpublish : s.pendingPublish = false := by rw [pendingPublish, hc]
  have hrebuild : s.pendingRebuild = false := by rw [pendingRebuild, hc]
  unfold RevWorld.resolve
  split
  · exact h.early hpublish hrebuild nofun
  next hkeys =>
    refine { h with
      named := empty_not_mem_revokedOf keys, stored := ?_, rebuilt := nofun, reader := ?_
      routes := ?_, armed := ?_, loaded := ?_, synced := ?_ }
    · rintro g prev revoked ⟨⟩
      rfl
    all_goals
      obtain hempty | hsub | ⟨hactive, hbuild, hsync⟩ := hok _ hc
      · exact absurd hempty hkeys
    -- without a new key the old copies do; with one, this cycle brings it to the active generation
    · exact fun _ => hsub.trans (h.reader hpublish)
    · intro hp
      exact absurd hactive (of_decide_eq_false hp)
    · exact fun _ => hsub.trans (h.routes hrebuild)
    · intro hp
      have hsame : sameRevocationSet s.revokedVKs (revokedOf keys) = true := by
        have hp : (decide (g = s.active) && !sameRevocationSet s.revokedVKs (revokedOf keys)) = false :=
          hp
        rwa [decide_eq_true hactive, Bool.true_and, Bool.not_eq_false'] at hp
      exact (eq_of_sameRevocationSet hsame) ▸ h.routes hrebuild
    · exact fun b hb hpc => hsub.trans (h.armed b hb hpc)
    · exact fun b hb hpc => absurd (hbuild b hb) hpc
    · exact fun b hb hpc => hsub.trans (h.loaded b hb hpc)
    · exact fun b hb hpc => absurd (hbuild b hb) (by rw [hpc]; nofun)
    · exact fun y set hy hset => hsub.trans (h.synced y set hy hset)
    · intro y set hy hset
      have hnone := hsync y hy
      rw [hset] at hnone
      cases hnone

/-- The set reaches the reader; `c` is what is left of the cycle. -/
theorem RevInv.publish {prev revoked : Finset String} {c : Option Cycle} (h : RevInv s)
    (hc : s.cycle = some ⟨g, .stored prev revoked⟩)
    (hleft : c = none ∧ sameRevocationSet prev revoked = true ∨ c = some ⟨g, .published⟩) :
    RevInv ({ s with cycle := c }.setRevoked g revoked) := by
  obtain rfl := h.stored g prev revoked hc
  have hnew := h.setRevoked g
  refine { hnew with stored := ?_, rebuilt := ?_, reader := fun _ => ?_, routes := fun hp => ?_ }
  · obtain ⟨rfl, -⟩ | rfl := hleft <;> exact nofun
  · obtain ⟨rfl, -⟩ | rfl := hleft <;> exact nofun
  · by_cases hg : g = s.active
    · subst hg
      exact (gates_setGate_self (s := s) _) ▸ Finset.Subset.refl _
    · refine hnew.reader (?_ : s.pendingPublish = false)
      rw [pendingPublish, hc]
      exact decide_eq_false hg
  · refine hnew.routes (?_ : s.pendingRebuild = false)
    rw [pendingRebuild, hc]
    obtain ⟨-, hsame⟩ | rfl := hleft
    · simp [hsame]
    · have hne : decide (g = s.active) = false := hp
      simp [hne]

/-- The rebuilt routes reach the registry. -/
theorem RevInv.replace {set : RouteSet} (h : RevInv s) (hc : s.cycle = some ⟨g, .rebuilt set⟩) :
    RevInv ({ s with cycle := none }.replaceAll g set) := by
  have hset : s.revokedVKs ⊆ set.revoked := h.rebuilt g set hc ▸ Finset.Subset.refl _
  have hnew := h.replaceAll g hset
  refine { hnew with stored := nofun, rebuilt := nofun, reader := fun _ => ?_, routes := fun _ => ?_ }
  · refine hnew.reader (?_ : s.pendingPublish = false)
    rw [pendingPublish, hc]
  · by_cases hg : g = s.active
    · subst hg
      exact (gates_setGate_self (s := s) _) ▸ hset
    · refine hnew.routes (?_ : s.pendingRebuild = false)
      rw [pendingRebuild, hc]
      exact decide_eq_false hg

theorem revInv_cycle (h : RevInv s) (hok : RevStepOk s a) (hs : cycleStep s a = some s') :
    RevInv s' := by
  cases a with
  | cycleStart =>
    simp only [cycleStep] at hs
    split at hs <;> cases hs
    next hc =>
      refine h.early (by rw [pendingPublish, hc]) (by rw [pendingRebuild, hc]) ?_
      rintro x ⟨⟩
      exact .inl rfl
  | cycleProbe answer =>
    simp only [cycleStep] at hs
    split at hs
    next g hc =>
      have hearly := fun c => h.early (c := c) (by rw [pendingPublish, hc]) (by rw [pendingRebuild, hc])
      split at hs
      · cases hs
        exact hearly _ nofun
      · split at hs <;> cases hs
        · exact hearly _ nofun
        · refine hearly _ ?_
          rintro x ⟨⟩
          exact .inr ⟨_, rfl⟩
    · cases hs
  | cycleSnapshot answer =>
    simp only [cycleStep] at hs
    split at hs
    next g version hc =>
      split at hs <;> cases hs
      · exact h.early (by rw [pendingPublish, hc]) (by rw [pendingRebuild, hc]) nofun
      · exact h.resolve hc hok
    · cases hs
  | cyclePublish =>
    simp only [cycleStep] at hs
    split at hs
    next g prev revoked hc =>
      split at hs <;> cases hs
      next hsame => exact h.publish hc (.inl ⟨rfl, hsame⟩)
      next => exact h.publish hc (.inr rfl)
    · cases hs
  | cycleRead cfg vault =>
    simp only [cycleStep] at hs
    split at hs <;> cases hs
    next g hc =>
      refine { h with stored := nofun, rebuilt := ?_, reader := ?_, routes := ?_ }
      · rintro g' set ⟨⟩
        rfl
      · exact fun _ => h.reader (by rw [pendingPublish, hc])
      · intro hp
        refine h.routes ?_
        rw [pendingRebuild, hc]
        exact hp
  | cycleReplace =>
    simp only [cycleStep] at hs
    split at hs <;> cases hs
    next g set hc => exact h.replace hc
  | _ => cases hs

/-! ## The sync, and whole runs -/

theorem revInv_sync (h : RevInv s) (hs : syncStep s a = some s') : RevInv s' := by
  cases a with
  | syncStart =>
    simp only [syncStep] at hs
    split at hs <;> cases hs
    exact { h with synced := by rintro y set ⟨⟩ ⟨⟩ }
  | syncRead cfg vault =>
    simp only [syncStep] at hs
    split at hs <;> cases hs
    refine { h with synced := ?_ }
    rintro y set ⟨⟩ ⟨⟩
    exact Finset.Subset.refl _
  | syncReplace =>
    simp only [syncStep] at hs
    split at hs <;> cases hs
    next g set hy => exact { h.replaceAll g (h.synced _ _ hy rfl) with synced := nofun }
  | _ => cases hs

theorem revInv_step (h : RevInv s) (hok : RevStepOk s a) (hs : revStep s a = some s') :
    RevInv s' := by
  rcases Option.or_eq_some_iff.mp hs with hbuild | ⟨-, hrest⟩
  · exact revInv_build h hbuild
  · rcases Option.or_eq_some_iff.mp hrest with hcycle | ⟨-, hsync⟩
    · exact revInv_cycle h hok hcycle
    · exact revInv_sync h hsync

/--
**A revocation once learned stays enforced.**

In every interleaving whose steps meet `RevStepOk`, whenever no build and no cycle is in progress
both gates of the active generation refuse every key of the set resolved last.
-/
theorem revocation_enforced {cfg : RouteConfig} {vault : VaultContent} {acts : List RevAct}
    {s : RevWorld} (hrun : Guarded revStep RevStepOk (RevWorld.init cfg vault) acts s)
    (hidle : s.Idle) : ∀ vk ∈ s.revokedVKs, s.Refuses vk := by
  have hinv : RevInv s :=
    hrun.invariant (fun _ _ _ hi ho hs => revInv_step hi ho hs) (revInv_init cfg vault)
  intro vk hvk
  have hreader := hinv.reader (by simp [pendingPublish, hidle.2]) hvk
  have hroutes := hinv.routes (by simp [pendingRebuild, hidle.2]) hvk
  have hne : vk ≠ "" := by
    intro hempty
    exact hinv.named (by rw [← hempty]; exact hvk)
  refine ⟨?_, (s.gates s.active).registry.refuses vk hroutes⟩
  rw [KeyGate.isVirtualKeyRevoked]
  simp [hne, hreader]

/-! ## A reload that overlaps a cycle -/

/-- A node that is no cluster node, with provider tables that know nothing. -/
def plainConfig : RouteConfig := ⟨noProviders, false, false⟩

def teamVault : VaultContent := ⟨[{ virtualKeyID := "vk1" }], [], [], []⟩

/-- The generation is built before the cycle learns of the revocation, and activated after the
cycle. -/
def overlappedReload : List RevAct :=
  [.buildStart, .buildArm, .buildLoad plainConfig teamVault,
    .cycleStart, .cycleProbe (some 7), .cycleSnapshot (some [⟨"vk1", "revoked"⟩]), .cyclePublish,
    .cycleRead plainConfig teamVault, .cycleReplace, .activate]

/-- The activated generation honours a revoked key. Later cycles see the same version and return
early. -/
theorem stale_generation_unrevokes :
    ¬ ∀ (cfg : RouteConfig) (vault : VaultContent) (acts : List RevAct) (s : RevWorld),
      exec revStep (RevWorld.init cfg vault) acts = some s → s.Idle →
      ∀ vk ∈ s.revokedVKs, s.Refuses vk := by
  intro h
  have hrefuse := h plainConfig teamVault
    (overlappedReload ++ [.cycleStart, .cycleProbe (some 7)]) _ rfl ⟨rfl, rfl⟩ "vk1" (by decide)
  exact absurd hrefuse.1 (by decide)

/-- A cycle, then a reload during which the set does not change, then a sync. -/
def orderedReload : List RevAct :=
  [.cycleStart, .cycleProbe (some 7), .cycleSnapshot (some [⟨"vk1", "revoked"⟩]), .cyclePublish,
    .cycleRead plainConfig teamVault, .cycleReplace,
    .buildStart, .buildArm, .buildLoad plainConfig teamVault, .activate,
    .syncStart, .syncRead plainConfig teamVault, .syncReplace]

theorem reload_keeps_revocation :
    ∃ s, guardedExec revStep RevStepOk (RevWorld.init plainConfig teamVault) orderedReload =
      some s ∧ s.active = 1 ∧ s.Refuses "vk1" := by
  refine ⟨_, rfl, rfl, ?_⟩
  exact revocation_enforced (Guarded.of_guardedExec (show guardedExec _ _
    (RevWorld.init plainConfig teamVault) orderedReload = some _ from rfl)) ⟨rfl, rfl⟩ "vk1" (by decide)

end AikeyProxy.Supervisor
