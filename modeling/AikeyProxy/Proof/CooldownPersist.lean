import AikeyProxy.Lib.Run
import AikeyProxy.Proxy.CooldownPersist
import AikeyProxy.Proof.CooldownFile

/-!
# The state file keeps up with the store

As long as no wake-up is in the channel, the copy that the loop is writing, or has written, is of
the newest revision. Copies on their way are of revisions the store has had, so a write that is let
through leaves the file between what it had and the newest.
-/

namespace AikeyProxy.Proxy

open Lib List PersistWorld PoolCooldownStore

variable {w w' : PersistWorld} {c : Captured}

/-! ## Revisions -/

/-- Two stores with the same active cooldowns and the same rejected tokens. -/
structure SameActive (now : Int) (s s' : PoolCooldownStore) : Prop where
  m : SameAhead now s.m s'.m
  tierM : SameAhead now s.tierM s'.tierM
  tokens : ∀ key, s.authFailedTokens.lookup key = s'.authFailedTokens.lookup key

variable {now later : Int} {s s' : PoolCooldownStore} {act : PersistAct}
  {file : Option PoolCooldownFileBody}

theorem SameActive.of_eq (hm : s'.m = s.m) (htier : s'.tierM = s.tierM)
    (htokens : s'.authFailedTokens = s.authFailedTokens) : SameActive now s s' :=
  ⟨fun _ => by rw [hm], fun _ => by rw [htier], fun _ => by rw [htokens]⟩

/-- A call that changes what is active raises the revision. -/
structure Revises (now : Int) (s s' : PoolCooldownStore) : Prop where
  grows : s.persistRevision ≤ s'.persistRevision
  kept : s'.persistRevision = s.persistRevision → SameActive now s s'

theorem revises_of_eq (hrevision : s'.persistRevision = s.persistRevision)
    (h : SameActive now s s') :
    Revises now s s' := ⟨hrevision.ge, fun _ => h⟩

theorem revises_persistIf {changed : Bool} (hrevision : s'.persistRevision = s.persistRevision)
    (h : changed = false → SameActive now s s') : Revises now s (s'.persistIf changed) := by
  cases changed with
  | false => exact revises_of_eq hrevision (h rfl)
  | true =>
    have hnext : (s'.persistIf true).persistRevision = s.persistRevision + 1 := by
      rw [← hrevision]
      rfl
    exact ⟨by omega, fun heq => by omega⟩

theorem revises_write (s : PoolCooldownStore) (now : Int) (w : CooldownWrite) :
    Revises now s (s.afterWrite now w) := by
  have hrefl : Revises now s s := revises_of_eq rfl (.of_eq rfl rfl rfl)
  cases w <;> rw [afterWrite]
  case mark =>
    fun_cases markWithStateAndWindows
    case case3 =>
      refine revises_persistIf rfl fun hchanged => ?_
      rw [Bool.or_eq_false_iff, Bool.or_eq_false_iff] at hchanged
      exact .of_eq (putOff_of_not_accepts hchanged.1.1) rfl rfl
    all_goals exact hrefl
  case noteServerError =>
    fun_cases noteServerErrorWithState
    case case1 => exact hrefl
    case case2 => exact revises_of_eq rfl (.of_eq rfl rfl rfl)
    case case3 =>
      exact revises_persistIf rfl fun hchanged => .of_eq (putOff_of_not_accepts hchanged) rfl rfl
  case noteSuccess =>
    fun_cases PoolCooldownStore.noteSuccess
    · exact hrefl
    · exact revises_of_eq rfl (.of_eq rfl rfl rfl)
  case markTier =>
    fun_cases PoolCooldownStore.markTier
    · exact hrefl
    · exact revises_persistIf rfl fun hchanged => .of_eq rfl (putOff_of_not_accepts hchanged) rfl
  case markAuthFailedToken =>
    fun_cases PoolCooldownStore.markAuthFailedToken
    · exact hrefl
    · refine revises_persistIf rfl fun hchanged => ⟨fun _ => rfl, fun _ => rfl, fun key => ?_⟩
      -- the token was there already, with the same fingerprint
      rename_i group seat account fingerprint _ _
      by_cases hkey : key = authFailureRouteKey group seat account
      · rw [hkey, AList.lookup_insert]
        cases hold : s.authFailedTokens.lookup (authFailureRouteKey group seat account) <;> grind -linarith
      · rw [AList.lookup_insert_ne hkey]

theorem revises_pruned (h : ReadSpec s s' now) (hrevision : s'.persistRevision = s.persistRevision)
    (htokens : s'.authFailedTokens = s.authFailedTokens) : Revises now s s' :=
  revises_of_eq hrevision
    ⟨SameAhead.of_pruned h.m, SameAhead.of_pruned h.tierM, fun _ => by rw [htokens]⟩

section

variable (s : PoolCooldownStore) (now : Int)

theorem revises_authFailureSkipSet (group seat : String) (fingerprints : String → Option String) :
    Revises now s (s.authFailureSkipSet group seat fingerprints).2 := by
  refine ⟨Nat.le_add_right _ _, fun heq => ⟨fun _ => rfl, fun _ => rfl, fun key => ?_⟩⟩
  have hnone := eq_nil_of_length_eq_zero (Nat.add_eq_left.mp heq)
  refine Eq.symm ((lookup_collect _ s.authFailedTokens key).trans ?_)
  cases hold : s.authFailedTokens.lookup key with
  | none => rfl
  | some fingerprint =>
    have hkeep := filter_eq_nil_iff.mp hnone ⟨key, fingerprint⟩ (AList.mem_lookup_iff.mp hold)
    rw [Option.bind_some, if_neg hkeep]

theorem revises_read (r : CooldownRead) : Revises now s (s.afterRead now r) := by
  have hspec := afterRead_spec s now r
  cases r with
  | windowStatusSnapshot => exact revises_persistIf rfl fun _ => .of_eq rfl rfl rfl
  | consumeLapsed id =>
    have hrevision : (s.consumeLapsed id).2.persistRevision = s.persistRevision := by
      unfold PoolCooldownStore.consumeLapsed
      split <;> rfl
    have htokens : (s.consumeLapsed id).2.authFailedTokens = s.authFailedTokens := by
      unfold PoolCooldownStore.consumeLapsed
      split <;> rfl
    exact revises_pruned hspec hrevision htokens
  | authFailureSkipSet group seat fingerprints =>
    exact revises_authFailureSkipSet s now group seat fingerprints
  | skipSet | addTierSkips tierKey out | snapshot | routeStateSnapshot
  | earliestRetryAdvice routeIDs skip | tierCooldownUntil tierKey | authFailureSnapshot =>
    exact revises_pruned hspec rfl rfl

theorem revises_call (c : CooldownCall) : Revises now s (s.call (now, c)) := by
  cases c with
  | write w => exact revises_write s now w
  | read r => exact revises_read s now r

end

/-! ## The invariant -/

def LoopPc.copies : LoopPc → List Captured
  | .writing c => [c]
  | _ => []

def ClosePc.copies : ClosePc → List Captured
  | .writing c => [c]
  | _ => []

def PersistWorld.copies (w : PersistWorld) : List Captured :=
  w.loop.copies ++ w.flushes ++ w.close.copies

theorem PersistWorld.mem_copies :
    c ∈ w.copies ↔ w.loop = .writing c ∨ c ∈ w.flushes ∨ w.close = .writing c := by
  unfold PersistWorld.copies
  cases hloop : w.loop <;> cases hclose : w.close <;>
    simp [LoopPc.copies, ClosePc.copies, eq_comm]

def PersistAct.time : PersistAct → Option Int
  | .call now _ | .copy now | .flushCopy now | .closeCopy now => some now
  | _ => none

/-- A step leaves the store and the file as they are in `v`, and only the given copies are on their
way. -/
structure StepFrame (v w' : PersistWorld) (copies : List Captured) (clock : Int) : Prop where
  store : w'.store = v.store
  file : w'.file = v.file
  fileRevision : w'.fileRevision = v.fileRevision
  persisted : w'.persistedRevision = v.persistedRevision
  clock : w'.clock = clock
  copies : ∀ c ∈ w'.copies, c ∈ copies

def MayWrite (w v : PersistWorld) : Prop := v = w ∨ ∃ c ∈ w.copies, v = w.writePersistenceSnapshot c

theorem writePersistenceSnapshot_same (w : PersistWorld) (c : Captured) :
    (w.writePersistenceSnapshot c).store = w.store ∧
      (w.writePersistenceSnapshot c).persistWake = w.persistWake ∧
      (w.writePersistenceSnapshot c).loop = w.loop ∧
      (w.writePersistenceSnapshot c).flushes = w.flushes ∧
      (w.writePersistenceSnapshot c).close = w.close ∧
      (w.writePersistenceSnapshot c).clock = w.clock := by
  unfold writePersistenceSnapshot
  split <;> exact ⟨rfl, rfl, rfl, rfl, rfl, rfl⟩

/-- **What a step can do**: it is a call, or it leaves the store alone, may have written one of the
copies and may have made a new one. -/
theorem persistStep_cases (hs : persistStep w act = some w') :
    (∃ now c, act = .call now c ∧ w' = w.call now c) ∨
      ∃ v, MayWrite w v ∧ StepFrame v w' (w.captured (act.time.getD w.clock) :: w.copies)
        (act.time.getD w.clock) := by
  have hwritten := writePersistenceSnapshot_same w
  cases act with
  | call now c =>
    cases hs
    exact .inl ⟨now, c, rfl, rfl⟩
  | flushCopy now =>
    cases hs
    refine .inr ⟨w, .inl rfl, rfl, rfl, rfl, rfl, rfl, fun c hc => ?_⟩
    simp only [mem_copies, mem_cons] at hc ⊢
    tauto
  | write | flushWrite i | closeWrite =>
    simp only [persistStep] at hs
    split at hs <;> cases hs
    next c hget =>
      have hmem : c ∈ w.copies := by
        rw [mem_copies]
        grind -linarith
      refine .inr ⟨_, .inr ⟨c, hmem, rfl⟩, rfl, rfl, rfl, rfl, (hwritten c).2.2.2.2.2,
        fun c' hc' => mem_cons_of_mem _ ?_⟩
      simp only [mem_copies] at hc' ⊢
      grind -linarith [mem_of_mem_eraseIdx]
  | _ =>
    simp only [persistStep] at hs
    split at hs <;> cases hs <;>
      refine .inr ⟨w, .inl rfl, rfl, rfl, rfl, rfl, rfl, fun c hc => ?_⟩ <;>
      simp only [mem_copies, mem_cons] at hc ⊢ <;>
      grind -linarith [PersistAct.time]

/-! ### Revisions of the copies and of the file -/

structure RevisionsInv (w : PersistWorld) : Prop where
  persisted : w.persistedRevision = w.fileRevision
  file_le : w.fileRevision ≤ w.store.persistRevision
  copies_le : ∀ c ∈ w.copies, c.revision ≤ w.store.persistRevision

theorem write_outcome (h : w.persistedRevision = w.fileRevision) (c : Captured) :
    (w.writePersistenceSnapshot c).persistedRevision = (w.writePersistenceSnapshot c).fileRevision ∧
      (c.revision < w.fileRevision ∧ w.writePersistenceSnapshot c = w ∨
        w.fileRevision ≤ c.revision ∧ (w.writePersistenceSnapshot c).fileRevision = c.revision ∧
          (w.writePersistenceSnapshot c).file = c.body.written) := by
  unfold writePersistenceSnapshot
  split <;> grind -linarith

theorem le_write (h : w.persistedRevision = w.fileRevision) (c : Captured) :
    w.fileRevision ≤ (w.writePersistenceSnapshot c).fileRevision ∧
      c.revision ≤ (w.writePersistenceSnapshot c).fileRevision := by
  rcases (write_outcome h c).2 with ⟨hlt, hsame⟩ | ⟨hle, hrevision, -⟩ <;> grind -linarith

theorem RevisionsInv.write (h : RevisionsInv w) (hc : c ∈ w.copies) :
    (w.writePersistenceSnapshot c).fileRevision ≤ w.store.persistRevision := by
  have hfile := h.file_le
  have hcopy := h.copies_le c hc
  rcases (write_outcome h.persisted c).2 with ⟨-, hsame⟩ | ⟨-, hrevision, -⟩ <;> grind -linarith

theorem RevisionsInv.written {v : PersistWorld} (h : RevisionsInv w) (hv : MayWrite w v) :
    v.store = w.store ∧ v.persistedRevision = v.fileRevision ∧ w.fileRevision ≤ v.fileRevision ∧
      v.fileRevision ≤ w.store.persistRevision := by
  rcases hv with rfl | ⟨c, hc, rfl⟩
  · exact ⟨rfl, h.persisted, le_refl _, h.file_le⟩
  · exact ⟨(writePersistenceSnapshot_same w c).1, (write_outcome h.persisted c).1,
      (le_write h.persisted c).1, h.write hc⟩

theorem RevisionsInv.step (h : RevisionsInv w) (hs : persistStep w act = some w') :
    RevisionsInv w' := by
  obtain ⟨hpersisted, hfile, hcopies⟩ := id h
  rcases persistStep_cases hs with ⟨now, c, -, rfl⟩ | ⟨v, hv, hf⟩
  · have hgrows := (revises_call w.store now c).grows
    exact ⟨hpersisted, hfile.trans hgrows, fun c' hc' => (hcopies c' hc').trans hgrows⟩
  · have hwritten := h.written hv
    obtain ⟨hstore, -, hrevision, hsame, -, hof⟩ := hf
    exact ⟨by grind -linarith, by grind -linarith, by grind -linarith [captured]⟩

theorem fileRevision_le_step (h : RevisionsInv w) (hs : persistStep w act = some w') :
    w.fileRevision ≤ w'.fileRevision := by
  rcases persistStep_cases hs with ⟨now, c, -, rfl⟩ | ⟨v, hv, hf⟩
  · exact le_refl _
  · rw [hf.fileRevision]
    exact (h.written hv).2.2.1

/-! ### Wake-ups -/

/-- Without a wake-up in the channel, the loop has the newest revision in hand or has written it. -/
structure PersistInv (w : PersistWorld) : Prop where
  revisions : RevisionsInv w
  idle : w.persistWake = false → w.loop = .idle → w.fileRevision = w.store.persistRevision
  writing : w.persistWake = false → ∀ c, w.loop = .writing c → c.revision = w.store.persistRevision
  returned : ∀ r, w.close = .returned r → r ≤ w.fileRevision

theorem persistInv_init (file : Option PoolCooldownFileBody) (now : Int) :
    PersistInv (PersistWorld.init file now) where
  revisions := ⟨rfl, Nat.zero_le _, nofun⟩
  idle := by
    intro _ _
    cases file <;> rfl
  writing := nofun
  returned := nofun

theorem PersistInv.step (h : PersistInv w) (hs : persistStep w act = some w') : PersistInv w' := by
  have hrev := h.revisions.step hs
  have hwritten := writePersistenceSnapshot_same w
  have hle := le_write h.revisions.persisted
  obtain ⟨hrevisions, hidle, hwriting, hreturned⟩ := h
  have hcopy : ∀ c ∈ w.copies,
      (w.writePersistenceSnapshot c).fileRevision ≤ w.store.persistRevision :=
    fun c hc => hrevisions.write hc
  simp only [mem_copies] at hcopy
  cases act with
  | call now c =>
    cases hs
    refine ⟨hrev, ?_, ?_, hreturned⟩ <;> simp only [PersistWorld.call] <;> grind -linarith
  | flushCopy now =>
    cases hs
    exact ⟨hrev, hidle, hwriting, hreturned⟩
  | write =>
    -- without a wake-up, the copy that was written is of the newest revision
    simp only [persistStep] at hs
    split at hs <;> cases hs
    refine ⟨hrev, ?_, ?_, ?_⟩ <;> grind -linarith
  | flushWrite i =>
    simp only [persistStep] at hs
    split at hs <;> cases hs
    next c hget =>
      have hmem := mem_of_getElem? hget
      refine ⟨hrev, ?_, ?_, ?_⟩ <;> grind -linarith
  | _ =>
    simp only [persistStep] at hs
    split at hs <;> cases hs <;> refine ⟨hrev, ?_, ?_, ?_⟩ <;> grind -linarith [captured]

variable {acts : List PersistAct} {revision : Nat}

theorem persistInv_of_run (hrun : exec persistStep (PersistWorld.init file now) acts = some w) :
    PersistInv w :=
  exec_invariant (fun _ _ _ h hs => h.step hs) hrun (persistInv_init file now)

/-! ## What the file is good for -/

theorem Restored.of_same {x : PoolCooldownStore} (h : Restored s x later)
    (hsame : SameActive now s s') (hle : now ≤ later) : Restored s' x later where
  accounts := by
    intro id
    rw [h.accounts id, hsame.m.mono hle id]
  tiers := by
    intro key
    rw [h.tiers key, hsame.tierM.mono hle key]
  tombstones := by
    intro member fingerprint
    rw [h.tombstones member fingerprint]
    simp only [Tombstone, hsame.tokens]
  tokens := by
    intro group seat fingerprints id
    rw [h.tokens group seat fingerprints id, Bool.eq_iff_iff, skips_authFailureSkipSet,
      skips_authFailureSkipSet]
    simp only [hsame.tokens]

theorem lookup_deadlinesAhead_again {t : Table String Int} (hle : now ≤ later) (key : String) :
    (deadlinesAhead later t).lookup key =
      ((ahead later (deadlinesAhead now t) key).map wholeSeconds).filter
        fun d => decide (later < d) := by
  unfold ahead deadlinesAhead
  rw [lookup_collect, lookup_collect]
  cases t.lookup key with
  | none => rfl
  | some seconds =>
    have hwhole : wholeSeconds (seconds * nanosPerSecond) = seconds * nanosPerSecond := by
      unfold wholeSeconds unix nanosPerSecond
      omega
    by_cases hkey : key = ""
    · simp [hkey]
    · by_cases hlater : later < seconds * nanosPerSecond
      · have hnow : now < seconds * nanosPerSecond := by omega
        simp [Option.filter, hkey, hlater, hnow, hwhole]
      · by_cases hnow : now < seconds * nanosPerSecond <;>
          simp [Option.filter, hkey, hlater, hnow]

theorem restored_hydrate (file : Option PoolCooldownFileBody) (hle : now ≤ later) :
    Restored (hydrateFromFile file now) (hydrateFromFile file later) later where
  accounts := by
    intro id
    cases file with
    | none => rfl
    | some body => exact lookup_deadlinesAhead_again hle id
  tiers := by
    intro key
    cases file with
    | none => rfl
    | some body => exact lookup_deadlinesAhead_again hle key
  tombstones := by
    intro member fingerprint
    cases file <;> exact Iff.rfl
  tokens := by
    intro group seat fingerprints id
    cases file <;> rfl

/-- If it is of the newest revision, the file makes a new store that has what the store has. -/
def FreshFile (w : PersistWorld) (revision : Nat) (file : Option PoolCooldownFileBody) : Prop :=
  revision = w.store.persistRevision →
    ∀ later, w.clock ≤ later → Restored w.store (hydrateFromFile file later) later

theorem FreshFile.call {cc : CooldownCall} (h : FreshFile w revision file)
    (hle : revision ≤ w.store.persistRevision) (hclock : w.clock ≤ now) :
    FreshFile (w.call now cc) revision file := by
  have hrevises := revises_call w.store now cc
  intro hrevision later hlater
  have hnow : now ≤ later := hlater
  have hgrows := hrevises.grows
  have hrev : revision = (w.store.call (now, cc)).persistRevision := hrevision
  have hsame := hrevises.kept (by omega)
  exact (h (by omega) later (hclock.trans hnow)).of_same hsame hnow

theorem FreshFile.of_eq (h : FreshFile w revision file) (hstore : w'.store = w.store)
    (hclock : w.clock ≤ w'.clock) : FreshFile w' revision file := by
  intro hrevision later hlater
  rw [hstore] at hrevision ⊢
  exact h hrevision later (hclock.trans hlater)

structure ContentInv (w : PersistWorld) : Prop where
  revisions : RevisionsInv w
  keyed : Keyed w.store
  file : FreshFile w w.fileRevision w.file
  copies : ∀ c ∈ w.copies, FreshFile w c.revision c.body.written

def ClockOk (w : PersistWorld) (act : PersistAct) : Prop :=
  ∀ now, act.time = some now → w.clock ≤ now

theorem ContentInv.step (h : ContentInv w) (hok : ClockOk w act)
    (hs : persistStep w act = some w') : ContentInv w' := by
  have hrev := h.revisions.step hs
  rcases persistStep_cases hs with ⟨now, cc, rfl, rfl⟩ | ⟨v, hv, hf⟩
  · have hclock := hok now rfl
    exact ⟨hrev, h.keyed.call (now, cc), h.file.call h.revisions.file_le hclock,
      fun c hc => (h.copies c hc).call (h.revisions.copies_le c hc) hclock⟩
  · have hstore := hf.store.trans (h.revisions.written hv).1
    have hclock : w.clock ≤ w'.clock := by
      rw [hf.clock]
      cases htime : act.time with
      | none => exact le_refl _
      | some now => exact hok now htime
    refine ⟨hrev, hstore ▸ h.keyed, ?_, ?_⟩
    · rw [hf.fileRevision, hf.file]
      rcases hv with rfl | ⟨c, hc, rfl⟩
      · exact h.file.of_eq hstore hclock
      · rcases (write_outcome h.revisions.persisted c).2 with ⟨-, hsame⟩ | ⟨-, hrevision, hfile⟩
        · rw [hsame]
          exact h.file.of_eq hstore hclock
        · rw [hrevision, hfile]
          exact (h.copies c hc).of_eq hstore hclock
    · intro c hc
      rcases mem_cons.mp (hf.copies c hc) with rfl | hmem
      · -- the new copy
        intro _ later hlater
        rw [hstore]
        exact restored_of_keyed h.keyed (hf.clock ▸ hlater)
      · exact (h.copies c hmem).of_eq hstore hclock

/-- **A file of the newest revision restores the store.** A process that starts with such a file at
any later time has the active cooldowns of the store, in whole seconds, and rejects the same tokens.
-/
theorem newest_file_restores
    (hrun : Guarded persistStep ClockOk (PersistWorld.init file now) acts w)
    (hnewest : w.fileRevision = w.store.persistRevision) (hlater : w.clock ≤ later) :
    Restored w.store (hydrateFromFile w.file later) later := by
  have hinit : ContentInv (PersistWorld.init file now) :=
    ⟨(persistInv_init file now).revisions, keyed_hydrate file now,
      fun _ later hlater => restored_hydrate file hlater, nofun⟩
  exact (hrun.invariant (fun _ _ _ h hok hs => h.step hok hs) hinit).file hnewest later hlater

/-! ## The results -/

structure UpdatesKept (w : PersistWorld) : Prop where
  newer : ∀ act w', persistStep w act = some w' → w.fileRevision ≤ w'.fileRevision
  idle : w.loop = .idle → w.persistWake = false → w.fileRevision = w.store.persistRevision
  /-- After the close has returned the file is at least of the revision of its last copy, and so of
  the newest one if the store has not changed since. -/
  returned : ∀ r, w.close = .returned r →
    r ≤ w.fileRevision ∧ (w.store.persistRevision = r → w.fileRevision = w.store.persistRevision)

/-- **No update of the cooldown store is lost on its way to the file.** -/
theorem cooldown_updates_kept {file : Option PoolCooldownFileBody} {now : Int}
    {acts : List PersistAct} {w : PersistWorld}
    (hrun : exec persistStep (PersistWorld.init file now) acts = some w) : UpdatesKept w where
  newer := fun _ _ hs => fileRevision_le_step (persistInv_of_run hrun).revisions hs
  idle := fun hloop hwake => (persistInv_of_run hrun).idle hwake hloop
  returned := by
    intro r hr
    have hinv := persistInv_of_run hrun
    have hle := hinv.returned r hr
    refine ⟨hle, fun hsame => ?_⟩
    have hfile := hinv.revisions.file_le
    omega

def markCall : CooldownCall := .write (.mark "a" 10 ⟨"", 0, ""⟩ ⟨"", "", 0, "", 0⟩)

/-- A mark is written by the loop, and a process starts with the file. -/
theorem written_mark_restored :
    ∃ w, Guarded persistStep ClockOk (.init none 0) [.call 0 markCall, .wake, .copy 1, .write] w ∧
      w.fileRevision = w.store.persistRevision ∧
      Restored w.store (hydrateFromFile w.file 2) 2 := by
  have hrun : Guarded persistStep ClockOk (.init none 0)
      [.call 0 markCall, .wake, .copy 1, .write] _ :=
    .cons (by rintro _ ⟨⟩; decide) rfl <| .cons (by rintro _ ⟨⟩) rfl <|
      .cons (by rintro _ ⟨⟩; decide) rfl <| .cons (by rintro _ ⟨⟩) rfl (.nil _)
  exact ⟨_, hrun, by decide, newest_file_restores hrun (by decide) (by decide)⟩

/-- The store is marked, written by the loop, marked again and closed. -/
def closeActs : List PersistAct :=
  [.call 0 markCall, .wake, .copy 1, .write, .call 2 (.write (.markTier "b" "fable" 20)), .close,
    .stop, .closeCopy 3, .closeWrite]

theorem closeActs_updates_kept :
    ∃ w, exec persistStep (PersistWorld.init none 0) closeActs = some w ∧
      w.store.persistRevision = 2 ∧ w.fileRevision = 2 ∧ UpdatesKept w :=
  ⟨_, rfl, by decide, by decide, @cooldown_updates_kept none 0 closeActs _ rfl⟩

/-- A mark that comes after the close has copied the store is in no file. -/
theorem late_mark_not_written :
    ¬ ∀ (file : Option PoolCooldownFileBody) (now : Int) (acts : List PersistAct)
        (w : PersistWorld), exec persistStep (PersistWorld.init file now) acts = some w →
        ∀ r, w.close = .returned r → w.fileRevision = w.store.persistRevision := by
  intro h
  have hrun := h none 0 [.close, .stop, .closeCopy 0, .call 0 markCall, .closeWrite] _ rfl 0 rfl
  exact absurd hrun (by decide)

end AikeyProxy.Proxy
