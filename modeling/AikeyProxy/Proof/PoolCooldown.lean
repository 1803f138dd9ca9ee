import AikeyProxy.Proxy.PoolCooldown

/-!
# Reads of the cooldown store

A read drops only entries that have lapsed, so it leaves the deadlines that are ahead as they are
(`SameRouting`), and a write does the same to two stores that have the same deadlines ahead. The
clock does not go back, so what a read has dropped could not have counted any more.
-/

namespace AikeyProxy.Proxy

open Lib List PoolCooldownStore Option

variable {now now' : Int} {s s' : PoolCooldownStore}

namespace PoolCooldownStore

variable (changed : Bool) (s : PoolCooldownStore)

@[simp] theorem persistIf_m : (s.persistIf changed).m = s.m := by
  unfold persistIf
  split <;> rfl

@[simp] theorem persistIf_tierM : (s.persistIf changed).tierM = s.tierM := by
  unfold persistIf
  split <;> rfl

@[simp] theorem persistIf_serverErrStreak :
    (s.persistIf changed).serverErrStreak = s.serverErrStreak := by
  unfold persistIf
  split <;> rfl

end PoolCooldownStore

/-! ## What a write does to the deadlines -/

section

variable (s : PoolCooldownStore) (now : Int)

@[simp] def CooldownWrite.offered : CooldownWrite → Option (String × Int)
  | .mark id avoidUntil _ _ => if id ≠ "" ∧ now < avoidUntil then some (id, avoidUntil) else none
  | .noteServerError id _ =>
    if id ≠ "" ∧ serverErrStreakThreshold ≤ (s.serverErrStreak.lookup id).getD 0 + 1 then
      some (id, now + serverErrCooldown)
    else none
  | _ => none

@[simp] def CooldownWrite.tierOffered : CooldownWrite → Option (String × Int)
  | .markTier id tierKey avoidUntil =>
    if id ≠ "" ∧ tierKey ≠ "" then some (tierCooldownKey id tierKey, avoidUntil) else none
  | _ => none

@[simp] def CooldownWrite.streaks (streaks : Table String Nat) : CooldownWrite → Table String Nat
  | .noteServerError id _ =>
    if id = "" then streaks
    else if (streaks.lookup id).getD 0 + 1 < serverErrStreakThreshold then
      streaks.insert id ((streaks.lookup id).getD 0 + 1)
    else streaks.erase id
  | .noteSuccess id => if id = "" then streaks else streaks.erase id
  | _ => streaks

@[simp] def offer (t : Table String Int) : Option (String × Int) → Table String Int
  | some (key, d) => putOff t key d
  | none => t

/-- What a write does to all that the skip sets depend on. -/
structure WriteSpec (s s' : PoolCooldownStore) (now : Int) (w : CooldownWrite) : Prop where
  m : s'.m = offer s.m (w.offered s now)
  tierM : s'.tierM = offer s.tierM w.tierOffered
  streaks : s'.serverErrStreak = w.streaks s.serverErrStreak

theorem afterWrite_spec (w : CooldownWrite) : WriteSpec s (s.afterWrite now w) now w := by
  cases w with
  | mark id avoidUntil state windows =>
    unfold afterWrite markWithStateAndWindows
    by_cases hid : id = ""
    · constructor <;> simp [hid]
    · by_cases hnow : now < avoidUntil <;> constructor <;> simp [hid, hnow]
  | noteServerError id state =>
    unfold afterWrite noteServerErrorWithState
    by_cases hid : id = ""
    · constructor <;> simp [hid]
    · by_cases hstreak : (s.serverErrStreak.lookup id).getD 0 + 1 < serverErrStreakThreshold
      · have hnot := Nat.not_le.mpr hstreak
        constructor <;> simp [hid, hstreak, hnot]
      · have hle := Nat.not_lt.mp hstreak
        constructor <;> simp [hid, hstreak, hle]
  | noteSuccess id =>
    unfold afterWrite PoolCooldownStore.noteSuccess
    by_cases hid : id = "" <;> constructor <;> simp [hid]
  | markTier id tierKey avoidUntil =>
    unfold afterWrite PoolCooldownStore.markTier
    by_cases hempty : id = "" ∨ tierKey = ""
    · have hnot : ¬ (id ≠ "" ∧ tierKey ≠ "") := by tauto
      constructor <;> simp [hempty, hnot]
    · have hboth : id ≠ "" ∧ tierKey ≠ "" := by tauto
      constructor <;> simp [hboth]
  | markAuthFailedToken group seat account fingerprint =>
    unfold afterWrite PoolCooldownStore.markAuthFailedToken
    by_cases hempty : group = "" ∨ seat = "" ∨ account = "" ∨ fingerprint = "" <;>
      constructor <;> simp [hempty]

/-! ## What a read does to them -/

/-- A read drops lapsed deadlines, and keeps the streaks. -/
structure ReadSpec (s s' : PoolCooldownStore) (now : Int) : Prop where
  m : Pruned now s.m s'.m
  tierM : Pruned now s.tierM s'.tierM
  streaks : s'.serverErrStreak = s.serverErrStreak

theorem readSpec_refl (now : Int) (s : PoolCooldownStore) : ReadSpec s s now :=
  ⟨fun _ => .inl rfl, fun _ => .inl rfl, rfl⟩

theorem pruneAccounts_spec : ReadSpec s (s.pruneAccounts now) now :=
  ⟨pruned_dropKeys fun _ h _ hd => le_of_lapsed h hd, fun _ => .inl rfl, rfl⟩

theorem pruneTiers_spec : ReadSpec s (s.pruneTiers now) now :=
  ⟨fun _ => .inl rfl, pruned_dropKeys fun _ h _ hd => le_of_lapsed h hd, rfl⟩

theorem routeStateSnapshot_spec : ReadSpec s (s.routeStateSnapshot now).2 now := by
  refine ⟨pruned_dropKeys ?_, fun _ => .inl rfl, rfl⟩
  intro id hgone d hd
  rw [Bool.and_eq_true] at hgone
  by_contra hlt
  have hsome : ahead now s.m id = some d := ahead_eq_some.mpr ⟨hd, not_le.mp hlt⟩
  rw [hsome] at hgone
  cases hgone.2

theorem consumeLapsed_spec (id : String) : ReadSpec s (s.consumeLapsed id).2 now := by
  unfold PoolCooldownStore.consumeLapsed
  split
  · exact ⟨fun _ => .inl rfl, fun _ => .inl rfl, rfl⟩
  · exact readSpec_refl now s

theorem afterRead_spec (r : CooldownRead) : ReadSpec s (s.afterRead now r) now := by
  cases r with
  | skipSet => exact pruneAccounts_spec s now
  | addTierSkips tierKey out => exact pruneTiers_spec s now
  | snapshot => exact pruneAccounts_spec s now
  | routeStateSnapshot => exact routeStateSnapshot_spec s now
  | earliestRetryAdvice routeIDs skip => exact readSpec_refl now s
  | windowStatusSnapshot =>
    have hm : (s.windowStatusSnapshot now).2.m = s.m := PoolCooldownStore.persistIf_m _ _
    have htier : (s.windowStatusSnapshot now).2.tierM = s.tierM :=
      PoolCooldownStore.persistIf_tierM _ _
    exact ⟨fun _ => .inl (by rw [afterRead, hm]),
      fun _ => .inl (by rw [afterRead, htier]),
      PoolCooldownStore.persistIf_serverErrStreak _ _⟩
  | tierCooldownUntil tierKey => exact pruneTiers_spec s now
  | consumeLapsed id => exact consumeLapsed_spec s now id
  | authFailureSkipSet group seat fingerprints =>
    exact ⟨fun _ => .inl rfl, fun _ => .inl rfl, rfl⟩
  | authFailureSnapshot => exact readSpec_refl now s

end

/-! ## Reads are harmless -/

/-- Two stores that every skip set from now on is the same for. -/
structure SameRouting (now : Int) (s s' : PoolCooldownStore) : Prop where
  m : SameAhead now s.m s'.m
  tierM : SameAhead now s.tierM s'.tierM
  streaks : s.serverErrStreak = s'.serverErrStreak

theorem SameRouting.mono (h : SameRouting now s s') (hle : now ≤ now') : SameRouting now' s s' :=
  ⟨h.m.mono hle, h.tierM.mono hle, h.streaks⟩

theorem SameRouting.read (h : SameRouting now s s') (r : CooldownRead) :
    SameRouting now (s.afterRead now r) s' := by
  have hspec := afterRead_spec s now r
  exact ⟨(SameAhead.of_pruned hspec.m).symm.trans h.m,
    (SameAhead.of_pruned hspec.tierM).symm.trans h.tierM, hspec.streaks.trans h.streaks⟩

theorem offered_congr (h : s.serverErrStreak = s'.serverErrStreak) (now : Int) (w : CooldownWrite) :
    w.offered s now = w.offered s' now := by
  cases w <;> simp [h]

theorem sameAhead_offer {t t' : Table String Int} (h : SameAhead now t t')
    (o : Option (String × Int)) : SameAhead now (offer t o) (offer t' o) := by
  cases o with
  | none => exact h
  | some kd => exact h.putOff kd.1 kd.2

theorem SameRouting.write (h : SameRouting now s s') (w : CooldownWrite) :
    SameRouting now (s.afterWrite now w) (s'.afterWrite now w) := by
  have hs := afterWrite_spec s now w
  have hs' := afterWrite_spec s' now w
  refine ⟨?_, ?_, ?_⟩
  · rw [hs.m, hs'.m, offered_congr h.streaks]
    exact sameAhead_offer h.m _
  · rw [hs.tierM, hs'.tierM]
    exact sameAhead_offer h.tierM _
  · rw [hs.streaks, hs'.streaks, h.streaks]

/-- The calls of a run are made at times that do not go back. -/
def Clock : Int → List (Int × CooldownCall) → Prop
  | _, [] => True
  | start, (now, _) :: cs => start ≤ now ∧ Clock now cs

def lastTime : Int → List (Int × CooldownCall) → Int
  | start, [] => start
  | _, (now, _) :: cs => lastTime now cs

def writesOf (cs : List (Int × CooldownCall)) : List (Int × CooldownCall) :=
  cs.filter fun c =>
    match c.2 with
    | .write _ => true
    | .read _ => false

variable {cs : List (Int × CooldownCall)} {start : Int}

theorem clock_append {cs' : List (Int × CooldownCall)} :
    Clock start (cs ++ cs') ↔ Clock start cs ∧ Clock (lastTime start cs) cs' := by
  induction cs generalizing start with
  | nil => simp [Clock, lastTime]
  | cons c cs ih =>
    rw [cons_append, Clock, Clock, lastTime, ih]
    tauto

theorem SameRouting.writesOf (hclock : Clock start cs) (h : SameRouting start s s') :
    SameRouting (lastTime start cs) (s.calls cs) (s'.calls (writesOf cs)) := by
  induction cs generalizing start s s' with
  | nil => exact h
  | cons c cs ih =>
    obtain ⟨now, call⟩ := c
    have hnow := h.mono hclock.1
    cases call with
    | write w => exact ih hclock.2 (hnow.write w)
    | read r => exact ih hclock.2 (hnow.read r)

/-! ## Reads are exact -/

/-- The latest deadline that was accepted, for each account and for each key of a tier. -/
structure Accepted where
  accounts : String → Option Int
  tiers : String → Option Int

def noteOffered (t : Table String Int) (last : String → Option Int) :
    Option (String × Int) → String → Option Int
  | some (key, d) => noteAccepted t key d last
  | none => last

def Accepted.note (a : Accepted) (s : PoolCooldownStore) : Int × CooldownCall → Accepted
  | (now, .write w) =>
    ⟨noteOffered s.m a.accounts (w.offered s now), noteOffered s.tierM a.tiers w.tierOffered⟩
  | (_, .read _) => a

def Accepted.after (a : Accepted) (s : PoolCooldownStore) : List (Int × CooldownCall) → Accepted
  | [] => a
  | c :: cs => (a.note s c).after (s.call c) cs

/-- The latest accepted deadlines after a run; what the store has at the start counts. -/
def accepted (s : PoolCooldownStore) (cs : List (Int × CooldownCall)) : Accepted :=
  Accepted.after ⟨fun id => s.m.lookup id, fun key => s.tierM.lookup key⟩ s cs

structure TracksStore (now : Int) (s : PoolCooldownStore) (a : Accepted) : Prop where
  m : Tracks now s.m a.accounts
  tierM : Tracks now s.tierM a.tiers

theorem tracks_lookup (now : Int) (t : Table String Int) : Tracks now t fun key => t.lookup key :=
  ⟨fun _ _ h => h, fun _ _ hnone hsome => by rw [hnone] at hsome; cases hsome⟩

theorem tracks_offer {t : Table String Int} {last : String → Option Int} (h : Tracks now t last)
    (o : Option (String × Int)) : Tracks now (offer t o) (noteOffered t last o) := by
  cases o with
  | none => exact h
  | some kd => exact h.putOff kd.1 kd.2

variable {a : Accepted}

theorem TracksStore.mono (h : TracksStore now s a) (hle : now ≤ now') :
    TracksStore now' s a := ⟨h.m.mono hle, h.tierM.mono hle⟩

theorem TracksStore.call (h : TracksStore now s a) (c : CooldownCall) :
    TracksStore now (s.call (now, c)) (a.note s (now, c)) := by
  cases c with
  | write w =>
    have hspec := afterWrite_spec s now w
    have hm : (s.call (now, .write w)).m = offer s.m (w.offered s now) := hspec.m
    have htier : (s.call (now, .write w)).tierM = offer s.tierM w.tierOffered := hspec.tierM
    exact ⟨hm ▸ tracks_offer h.m _, htier ▸ tracks_offer h.tierM _⟩
  | read r =>
    have hspec := afterRead_spec s now r
    exact ⟨h.m.of_pruned hspec.m, h.tierM.of_pruned hspec.tierM⟩

theorem TracksStore.calls (hclock : Clock start cs) (h : TracksStore start s a) :
    TracksStore (lastTime start cs) (s.calls cs) (a.after s cs) := by
  induction cs generalizing start s a with
  | nil => exact h
  | cons c cs ih => exact ih hclock.2 ((h.mono hclock.1).call c.2)

theorem tracks_accepted (hclock : Clock start cs) (s : PoolCooldownStore) :
    TracksStore (lastTime start cs) (s.calls cs) (accepted s cs) :=
  TracksStore.calls hclock ⟨tracks_lookup _ _, tracks_lookup _ _⟩

theorem lt_of_offered {w : CooldownWrite} {id : String} {d : Int}
    (h : w.offered s now = some (id, d)) : now < d := by
  revert h
  fun_cases CooldownWrite.offered s now w <;> intro h <;> cases h
  next hnew => exact hnew.2
  next =>
    have hpos : (0 : Int) < serverErrCooldown := by decide
    omega

/-! ## Skip sets -/

def skips (skip : Table String Bool) (id : String) : Bool := (skip.lookup id).getD false

theorem skips_skipSet (s : PoolCooldownStore) (now : Int) (id : String) :
    skips (s.skipSet now).1 id = (ahead now s.m id).isSome := by
  unfold skips PoolCooldownStore.skipSet ahead
  rw [lookup_collect]
  cases s.m.lookup id with
  | none => rfl
  | some d => by_cases hd : now < d <;> simp [Option.filter, hd]

theorem trimSuffix?_eq_some {key id suffix : String} :
    trimSuffix? key suffix = some id ↔ key = id ++ suffix := by
  unfold trimSuffix?
  constructor
  · intro h
    split at h
    next hsuffix =>
      obtain ⟨front, hfront⟩ := hsuffix
      have hid := some.inj h
      rw [← hfront] at hid
      rw [← hid]
      apply String.toList_injective
      simp [← hfront]
    · cases h
  · rintro rfl
    simp

theorem skips_assignAll {out : Table String Bool} {rows : List (String × Bool)}
    (hrows : ∀ row ∈ rows, row.2 = true) (id : String) :
    skips (assignAll out rows) id = true ↔ skips out id = true ∨ (id, true) ∈ rows := by
  unfold skips
  rw [lookup_assignAll_eq]
  cases hfind : rows.reverse.find? fun row => decide (row.1 = id) with
  | none =>
    have hno : (id, true) ∉ rows := by
      intro hmem
      have := find?_eq_none.mp hfind (id, true) (mem_reverse.mpr hmem)
      simp at this
    simp [hno]
  | some row =>
    have hmem : row ∈ rows := mem_reverse.mp (mem_of_find?_eq_some hfind)
    have hkey : row.1 = id := by simpa using find?_some hfind
    have hval := hrows row hmem
    have hrow : row = (id, true) := Prod.ext hkey hval
    rw [hrow] at hmem
    simp [hval, hmem]

theorem skips_addTierSkips (s : PoolCooldownStore) (now : Int) (tierKey : String)
    (out : Table String Bool) (id : String) :
    skips (s.addTierSkips now tierKey out).1 id = true ↔
      skips out id = true ∨ (ahead now s.tierM (tierCooldownKey id tierKey)).isSome := by
  unfold PoolCooldownStore.addTierSkips
  rw [skips_assignAll]
  · refine or_congr_right ?_
    rw [mem_filterMap, isSome_iff_exists]
    constructor
    · rintro ⟨⟨key, d⟩, he, hrow⟩
      obtain ⟨hd, hrow⟩ := ite_none_right_eq_some.mp hrow
      obtain ⟨id', hid', heq⟩ := map_eq_some_iff.mp hrow
      cases heq
      have hkey : key = id ++ ("|" ++ tierKey) := trimSuffix?_eq_some.mp hid'
      refine ⟨d, ahead_eq_some.mpr ⟨?_, hd⟩⟩
      rw [tierCooldownKey, String.append_assoc, ← hkey]
      exact AList.mem_lookup_iff.mpr he
    · rintro ⟨d, hd⟩
      obtain ⟨hlookup, hlt⟩ := ahead_eq_some.mp hd
      refine ⟨⟨tierCooldownKey id tierKey, d⟩, AList.mem_lookup_iff.mp hlookup, ?_⟩
      have htrim : trimSuffix? (tierCooldownKey id tierKey) ("|" ++ tierKey) = some id :=
        trimSuffix?_eq_some.mpr (by rw [tierCooldownKey, String.append_assoc])
      simp [hlt, htrim]
  · intro row hrow
    obtain ⟨e, -, he⟩ := mem_filterMap.mp hrow
    obtain ⟨-, he⟩ := ite_none_right_eq_some.mp he
    obtain ⟨id', -, heq⟩ := map_eq_some_iff.mp he
    rw [← heq]

theorem skips_skipSetFor (s : PoolCooldownStore) (now later : Int) (model id : String) :
    skips (s.skipSetFor now later model).1 id = true ↔
      (ahead now s.m id).isSome ∨ ∃ tier, tierForModel model = some tier ∧
        (ahead later s.tierM (tierCooldownKey id tier.key)).isSome := by
  unfold skipSetFor
  cases htier : tierForModel model with
  | none => simp [skips_skipSet]
  | some tier =>
    have hskips := skips_addTierSkips (s.skipSet now).2 later tier.key (s.skipSet now).1 id
    have hkept : (s.skipSet now).2.tierM = s.tierM := rfl
    rw [hkept, skips_skipSet] at hskips
    simpa using hskips

theorem SameRouting.skips (h : SameRouting now s s') {later : Int} (hle : now ≤ later)
    (model id : String) :
    Proxy.skips (s.skipSet now).1 id = Proxy.skips (s'.skipSet now).1 id ∧
      Proxy.skips (s.skipSetFor now later model).1 id =
        Proxy.skips (s'.skipSetFor now later model).1 id := by
  refine ⟨?_, ?_⟩
  · rw [skips_skipSet, skips_skipSet, h.m id]
  · rw [Bool.eq_iff_iff, skips_skipSetFor, skips_skipSetFor, h.m id]
    simp only [(h.mono hle).tierM _]

/-! ## The results -/

structure CooldownReads (s : PoolCooldownStore) (start : Int) (cs : List (Int × CooldownCall)) :
    Prop where
  /-- The skip set is that of the accounts whose latest accepted deadline is ahead. -/
  exact : ∀ now, lastTime start cs ≤ now → ∀ id,
    skips ((s.calls cs).skipSet now).1 id = true ↔
      ∃ d, (accepted s cs).accounts id = some d ∧ now < d
  exactFor : ∀ now later, lastTime start cs ≤ now → now ≤ later → ∀ model id,
    skips ((s.calls cs).skipSetFor now later model).1 id = true ↔
      (∃ d, (accepted s cs).accounts id = some d ∧ now < d) ∨
        ∃ tier, tierForModel model = some tier ∧
          ∃ d, (accepted s cs).tiers (tierCooldownKey id tier.key) = some d ∧ later < d
  putOff : ∀ before now w after, cs = before ++ (now, .write w) :: after →
    ∀ id d cur, w.offered (s.calls before) now = some (id, d) →
      accepts (s.calls before).m id d = true → (accepted s before).accounts id = some cur → cur < d
  tierPutOff : ∀ before now w after, cs = before ++ (now, .write w) :: after →
    ∀ key d cur, w.tierOffered = some (key, d) → accepts (s.calls before).tierM key d = true →
      (accepted s before).tiers key = some cur → cur < d ∨ cur ≤ now
  /-- Reads that are put in or left out change no skip set. -/
  harmless : ∀ cs', Clock start cs' → writesOf cs' = writesOf cs →
    ∀ now later, lastTime start cs ≤ now → lastTime start cs' ≤ now → now ≤ later → ∀ model id,
      skips ((s.calls cs).skipSet now).1 id = skips ((s.calls cs').skipSet now).1 id ∧
        skips ((s.calls cs).skipSetFor now later model).1 id =
          skips ((s.calls cs').skipSetFor now later model).1 id

theorem tracks_before {before after : List (Int × CooldownCall)} (hclock : Clock start cs)
    {c : CooldownCall} (hcs : cs = before ++ (now, c) :: after) :
    TracksStore now (s.calls before) (accepted s before) := by
  rw [hcs, clock_append] at hclock
  exact (tracks_accepted hclock.1 s).mono hclock.2.1

/-- **Reads of the cooldown store are exact and harmless.** -/
theorem cooldown_reads_exact {s : PoolCooldownStore} {start : Int}
    {cs : List (Int × CooldownCall)} (hclock : Clock start cs) : CooldownReads s start cs where
  exact := by
    intro now hnow id
    rw [skips_skipSet]
    exact ((tracks_accepted hclock s).mono hnow).m.isSome_ahead id
  exactFor := by
    intro now later hnow hlater model id
    have htracks := (tracks_accepted hclock s).mono hnow
    rw [skips_skipSetFor, htracks.m.isSome_ahead]
    simp only [(htracks.mono hlater).tierM.isSome_ahead]
  putOff := by
    intro before now w after hcs id d cur hoffered haccepts hcur
    have hlt := lt_of_offered hoffered
    rcases (tracks_before hclock hcs).m.later haccepts hcur with h | h
    · exact h
    · exact lt_of_le_of_lt h hlt
  tierPutOff := by
    intro before now w after hcs key d cur _ haccepts hcur
    exact (tracks_before hclock hcs).tierM.later haccepts hcur
  harmless := by
    intro cs' hclock' hwrites now later hnow hnow' hlater model id
    have hrefl : SameRouting start s s :=
      ⟨SameAhead.refl _ _, SameAhead.refl _ _, rfl⟩
    have hsame := (hrefl.writesOf hclock).mono hnow
    have hsame' := (hrefl.writesOf hclock').mono hnow'
    rw [hwrites] at hsame'
    obtain ⟨hskip, hskipFor⟩ := hsame.skips hlater model id
    obtain ⟨hskip', hskipFor'⟩ := hsame'.skips hlater model id
    exact ⟨hskip.trans hskip'.symm, hskipFor.trans hskipFor'.symm⟩

/-- An account that is marked, cools down, is dropped by a read and is marked again. -/
def coolingCalls : List (Int × CooldownCall) :=
  [(0, .write (.mark "a" 10 ⟨"rate_limited", 0, ""⟩ ⟨"", "", 0, "", 0⟩)),
    (5, .read .routeStateSnapshot), (10, .read .skipSet),
    (12, .write (.markTier "b" "fable" 40)),
    (12, .write (.mark "a" 20 ⟨"", 0, ""⟩ ⟨"", "", 0, "", 0⟩))]

theorem coolingCalls_reads_exact :
    Clock 0 coolingCalls ∧ CooldownReads PoolCooldownStore.empty 0 coolingCalls := by
  have hclock : Clock 0 coolingCalls := by simp [Clock, coolingCalls]
  exact ⟨hclock, cooldown_reads_exact hclock⟩

end AikeyProxy.Proxy
