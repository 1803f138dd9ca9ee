import AikeyProxy.Proxy.CooldownFile
import AikeyProxy.Proof.PoolCooldown

/-!
# A restart keeps the cooldowns

What a store writes and a new store reads back are filters of the same tables, so the round trip is
a filter too: a deadline comes back in whole seconds if it is then still ahead. The reader's checks
on keys hold for whatever a store can hold (`Keyed`), and a rejected token that they leave out is
one that nobody looks at.
-/

namespace AikeyProxy.Proxy

open Lib PoolCooldownStore Option PoolCooldownFileBody AList

variable {now now' : Int} {s s' : PoolCooldownStore}

/-! ## What a store can come to hold -/

@[simp] theorem PoolCooldownStore.persistIf_authFailedTokens (changed : Bool)
    (s : PoolCooldownStore) : (s.persistIf changed).authFailedTokens = s.authFailedTokens := by
  unfold persistIf
  split <;> rfl

/-- No deadline is under an empty key, and no fingerprint is empty. -/
structure Keyed (s : PoolCooldownStore) : Prop where
  m : s.m.lookup "" = none
  tierM : s.tierM.lookup "" = none
  fingerprints : ∀ key fingerprint, s.authFailedTokens.lookup key = some fingerprint →
    fingerprint ≠ ""

variable {t : Table String Int} {w : CooldownWrite} {key : String}

theorem lookup_empty_offer (h : t.lookup "" = none) {o : Option (String × Int)}
    (ho : ∀ key d, o = some (key, d) → key ≠ "") : (offer t o).lookup "" = none := by
  cases o with
  | none => exact h
  | some kd =>
    have hne : "" ≠ kd.1 := (ho kd.1 kd.2 rfl).symm
    exact (lookup_putOff_ne hne kd.2).trans h

theorem lookup_empty_pruned {t' : Table String Int} (h : t.lookup "" = none)
    (hp : Pruned now t t') : t'.lookup "" = none := by
  rcases hp "" with heq | ⟨hnone, -⟩
  · exact heq.trans h
  · exact hnone

theorem offered_key_ne {id : String} {d : Int} (h : w.offered s now = some (id, d)) : id ≠ "" := by
  revert h
  fun_cases CooldownWrite.offered s now w <;> intro h <;> cases h
  next hnew => exact hnew.1
  next hnew => exact hnew.1

theorem tierOffered_key_ne {d : Int} (h : w.tierOffered = some (key, d)) : key ≠ "" := by
  cases w with
  | markTier id tierKey avoidUntil =>
    rw [CooldownWrite.tierOffered] at h
    split at h
    · cases h
      intro hempty
      have hlist := congrArg String.toList hempty
      simp [tierCooldownKey] at hlist
    · cases h
  | _ => cases h

variable {fingerprint : String}

theorem authFailedTokens_write
    (h : (s.afterWrite now w).authFailedTokens.lookup key = some fingerprint) :
    s.authFailedTokens.lookup key = some fingerprint ∨ fingerprint ≠ "" := by
  cases w with
  | markAuthFailedToken group seat account fingerprint' =>
    unfold afterWrite PoolCooldownStore.markAuthFailedToken at h
    by_cases hempty : group = "" ∨ seat = "" ∨ account = "" ∨ fingerprint' = ""
    · simp [hempty] at h
      exact .inl h
    · simp only [hempty, if_false, persistIf_authFailedTokens] at h
      by_cases hkey : key = authFailureRouteKey group seat account
      · subst hkey
        rw [lookup_insert] at h
        cases h
        exact .inr (by tauto)
      · rw [lookup_insert_ne hkey] at h
        exact .inl h
  | _ =>
    -- no other write touches the tokens
    simp only [afterWrite, markWithStateAndWindows,
      noteServerErrorWithState, noteSuccess,
      PoolCooldownStore.markTier] at h
    split_ifs at h <;> exact .inl (by simpa using h)

theorem authFailedTokens_read {r : CooldownRead}
    (h : (s.afterRead now r).authFailedTokens.lookup key = some fingerprint) :
    s.authFailedTokens.lookup key = some fingerprint := by
  cases r with
  | windowStatusSnapshot =>
    have heq : (s.windowStatusSnapshot now).2.authFailedTokens = s.authFailedTokens :=
      persistIf_authFailedTokens _ _
    exact heq ▸ h
  | consumeLapsed id =>
    have heq : (s.consumeLapsed id).2.authFailedTokens = s.authFailedTokens := by
      unfold PoolCooldownStore.consumeLapsed
      split <;> rfl
    exact heq ▸ h
  | authFailureSkipSet group seat fingerprints =>
    have hbind := (lookup_collect _ s.authFailedTokens key).symm.trans h
    obtain ⟨fingerprint', hlookup, hif⟩ := bind_eq_some_iff.mp hbind
    split at hif
    · cases hif
    · cases hif
      exact hlookup
  | skipSet | addTierSkips tierKey out | snapshot | routeStateSnapshot
  | earliestRetryAdvice routeIDs skip | tierCooldownUntil tierKey | authFailureSnapshot => exact h

theorem Keyed.call (h : Keyed s) (c : Int × CooldownCall) : Keyed (s.call c) := by
  obtain ⟨now, call⟩ := c
  cases call with
  | write w =>
    have hspec := afterWrite_spec s now w
    refine ⟨?_, ?_, ?_⟩
    · exact hspec.m ▸ lookup_empty_offer h.m fun _ _ => offered_key_ne
    · exact hspec.tierM ▸ lookup_empty_offer h.tierM fun _ _ => tierOffered_key_ne
    · intro key fingerprint hlookup
      rcases authFailedTokens_write hlookup with hold | hne
      · exact h.fingerprints key fingerprint hold
      · exact hne
  | read r =>
    have hspec := afterRead_spec s now r
    exact ⟨lookup_empty_pruned h.m hspec.m, lookup_empty_pruned h.tierM hspec.tierM,
      fun key fingerprint hlookup => h.fingerprints key fingerprint (authFailedTokens_read hlookup)⟩

theorem Keyed.calls (h : Keyed s) (cs : List (Int × CooldownCall)) : Keyed (s.calls cs) := by
  induction cs generalizing s with
  | nil => exact h
  | cons c cs ih => exact ih (h.call c)

theorem keyed_hydrate (file : Option PoolCooldownFileBody) (now : Int) :
    Keyed (hydrateFromFile file now) := by
  cases file with
  | none => exact ⟨rfl, rfl, nofun⟩
  | some body =>
    refine ⟨?_, ?_, ?_⟩
    · exact (lookup_collect _ _ _).trans (by cases body.accounts.lookup "" <;> simp)
    · exact (lookup_collect _ _ _).trans (by cases body.tierAccounts.lookup "" <;> simp)
    · intro key fingerprint hlookup
      have hbind := (lookup_collect _ _ _).symm.trans hlookup
      obtain ⟨fingerprint', -, hif⟩ := bind_eq_some_iff.mp hbind
      split at hif
      · cases hif
        exact ‹_ ∧ _›.2
      · cases hif

/-! ## The round trip of the deadlines -/

def wholeSeconds (t : Int) : Int := unix t * nanosPerSecond

theorem wholeSeconds_le (t : Int) : wholeSeconds t ≤ t := by
  unfold wholeSeconds unix nanosPerSecond
  omega

theorem hydrate_written (body : PoolCooldownFileBody) (now : Int) (key : String) :
    (hydrateFromFile body.written now).m.lookup key = (body.hydrate now).m.lookup key ∧
      (hydrateFromFile body.written now).tierM.lookup key = (body.hydrate now).tierM.lookup key ∧
      (hydrateFromFile body.written now).authFailedTokens.lookup key =
        (body.hydrate now).authFailedTokens.lookup key := by
  unfold written
  split
  next hempty =>
    obtain ⟨haccounts, htiers, htokens, -⟩ := hempty
    simp [hydrateFromFile, hydrate, deadlinesAhead, empty,
      lookup_collect, haccounts, htiers, htokens]
  · exact ⟨rfl, rfl, rfl⟩

theorem lookup_deadlinesAhead (hempty : t.lookup "" = none) (hle : now ≤ now') (key : String) :
    (deadlinesAhead now' (PoolCooldownStore.unixAhead now t)).lookup key =
      ((ahead now' t key).map wholeSeconds).filter fun d => decide (now' < d) := by
  unfold deadlinesAhead unixAhead ahead
  rw [lookup_collect, lookup_collect]
  cases ht : t.lookup key with
  | none => rfl
  | some d =>
    have hkey : key ≠ "" := by
      rintro rfl
      rw [hempty] at ht
      cases ht
    have hwhole := wholeSeconds_le d
    by_cases hd' : now' < wholeSeconds d
    · have hahead' : now' < d := by omega
      have hahead : now < d := by omega
      have hread : now' < unix d * nanosPerSecond := hd'
      simp [Option.filter, hahead, hahead', hread, hkey, wholeSeconds]
    · have hread : ¬ now' < unix d * nanosPerSecond := hd'
      by_cases hahead : now < d <;> by_cases hahead' : now' < d <;>
        simp [Option.filter, hahead, hahead', hread, hd']

/-! ## The round trip of the rejected tokens -/

/-- The token with the fingerprint is rejected for a member. Readers go by the parts of the key, so
a key without them rejects nothing. -/
def Tombstone (s : PoolCooldownStore) (member : PoolAuthFailureState) (fingerprint : String) :
    Prop :=
  ∃ key, parseAuthFailureRouteKey key = some member ∧
    s.authFailedTokens.lookup key = some fingerprint

theorem skips_authFailureSkipSet (s : PoolCooldownStore) (group seat : String)
    (fingerprints : String → Option String) (id : String) :
    skips (s.authFailureSkipSet group seat fingerprints).1 id = true ↔
      ∃ key fingerprint member, s.authFailedTokens.lookup key = some fingerprint ∧
        (group ++ "|" ++ seat ++ "|").toList <+: key.toList ∧
        parseAuthFailureRouteKey key = some member ∧ member.accountID = id ∧
        fingerprints id = some fingerprint := by
  unfold PoolCooldownStore.authFailureSkipSet
  rw [skips_assignAll fun row hrow => (List.mem_filter.mp hrow).2]
  have hnil : skips ∅ id = false := rfl
  simp only [hnil, Bool.false_eq_true, false_or, List.mem_filter, List.mem_filterMap, and_true]
  constructor
  · rintro ⟨⟨key, fingerprint⟩, he, hrejected⟩
    unfold tokenVerdict at hrejected
    split at hrejected
    next hmember =>
      obtain ⟨member, hparse, hmap⟩ := bind_eq_some_iff.mp hrejected
      obtain ⟨current, hcurrent, heq⟩ := map_eq_some_iff.mp hmap
      obtain ⟨rfl, hsame⟩ := Prod.mk.inj heq
      have hcur : current = fingerprint := by simpa using hsame
      exact ⟨key, fingerprint, member, mem_lookup_iff.mpr he, hmember, hparse, rfl,
        hcur ▸ hcurrent⟩
    · cases hrejected
  · rintro ⟨key, fingerprint, member, hlookup, hmember, hparse, rfl, hcurrent⟩
    refine ⟨⟨key, fingerprint⟩, mem_lookup_iff.mp hlookup, ?_⟩
    rw [tokenVerdict, if_pos hmember, hparse, bind_some, hcurrent]
    simp

/-! ## The round trip of the store -/

def restarted (s : PoolCooldownStore) (now later : Int) : PoolCooldownStore :=
  hydrateFromFile (s.persistenceSnapshotLocked now).written later

/-- What a restart keeps of a store, at the time of the restart. -/
structure Restored (s s' : PoolCooldownStore) (now : Int) : Prop where
  /-- The cooldowns that are active come back in whole seconds, and no others. -/
  accounts : ∀ id, s'.m.lookup id =
    ((ahead now s.m id).map wholeSeconds).filter fun d => decide (now < d)
  tiers : ∀ key, s'.tierM.lookup key =
    ((ahead now s.tierM key).map wholeSeconds).filter fun d => decide (now < d)
  tombstones : ∀ member fingerprint,
    Tombstone s' member fingerprint ↔ Tombstone s member fingerprint
  tokens : ∀ group seat fingerprints id,
    skips (s'.authFailureSkipSet group seat fingerprints).1 id =
      skips (s.authFailureSkipSet group seat fingerprints).1 id

theorem lookup_authFailedTokens_restarted (h : Keyed s) (key fingerprint : String) :
    (restarted s now now').authFailedTokens.lookup key = some fingerprint ↔
      (parseAuthFailureRouteKey key).isSome ∧ s.authFailedTokens.lookup key = some fingerprint := by
  have hwritten := (hydrate_written (s.persistenceSnapshotLocked now) now' key).2.2
  have hcollect := lookup_collect (fun routeKey fingerprint =>
    if (parseAuthFailureRouteKey routeKey).isSome ∧ fingerprint ≠ "" then some fingerprint
    else none) s.authFailedTokens key
  rw [restarted, hwritten, hydrate]
  change (collect _ s.authFailedTokens).lookup key = _ ↔ _
  rw [hcollect, bind_eq_some_iff]
  constructor
  · rintro ⟨fingerprint', hlookup, hif⟩
    split at hif
    · cases hif
      exact ⟨‹_ ∧ _›.1, hlookup⟩
    · cases hif
  · rintro ⟨hparse, hlookup⟩
    exact ⟨fingerprint, hlookup, by simp [hparse, h.fingerprints key fingerprint hlookup]⟩

theorem restored_of_keyed (h : Keyed s) (hle : now ≤ now') :
    Restored s (restarted s now now') now' where
  accounts := by
    intro id
    have hwritten := (hydrate_written (s.persistenceSnapshotLocked now) now' id).1
    exact hwritten.trans (lookup_deadlinesAhead h.m hle id)
  tiers := by
    intro key
    have hwritten := (hydrate_written (s.persistenceSnapshotLocked now) now' key).2.1
    exact hwritten.trans (lookup_deadlinesAhead h.tierM hle key)
  tombstones := by
    intro member fingerprint
    refine exists_congr fun key => and_congr_right fun hparse => ?_
    rw [lookup_authFailedTokens_restarted h, hparse]
    simp
  tokens := by
    intro group seat fingerprints id
    rw [Bool.eq_iff_iff, skips_authFailureSkipSet, skips_authFailureSkipSet]
    refine exists_congr fun key => exists_congr fun fingerprint => exists_congr fun member => ?_
    rw [lookup_authFailedTokens_restarted h]
    constructor
    · rintro ⟨⟨-, hlookup⟩, hrest⟩
      exact ⟨hlookup, hrest⟩
    · rintro ⟨hlookup, hmember, hparse, hrest⟩
      exact ⟨⟨by rw [hparse]; rfl, hlookup⟩, hmember, hparse, hrest⟩

/-- **Cooldowns survive a restart.** The snapshot of a store, read back at any later time, has the
same active cooldowns in whole seconds and rejects the same tokens. -/
theorem cooldowns_survive_restart (file : Option PoolCooldownFileBody) (start : Int)
    (cs : List (Int × CooldownCall)) {now later : Int} (hle : now ≤ later) :
    Restored ((hydrateFromFile file start).calls cs)
        (restarted ((hydrateFromFile file start).calls cs) now later) later ∧
      ∀ d, wholeSeconds d ≤ d ∧ d < wholeSeconds d + nanosPerSecond :=
  ⟨restored_of_keyed ((keyed_hydrate file start).calls cs) hle,
    fun d => ⟨wholeSeconds_le d, by unfold wholeSeconds unix nanosPerSecond; omega⟩⟩

def restartCooldowns : PoolCooldownStore :=
  (hydrateFromFile none 0).calls
    [(0, .write (.mark "a" 10000000007 ⟨"rate_limited", 10, ""⟩ ⟨"", "", 0, "", 0⟩)),
      (1, .write (.markTier "b" "fable" 20000000000)),
      (1, .write (.markAuthFailedToken "g" "s" "c" "f"))]

theorem restartCooldowns_survive :
    (restarted restartCooldowns 1000000000 2000000000).m.lookup "a" = some 10000000000 ∧
      (restarted restartCooldowns 1000000000 2000000000).tierM.lookup "b|fable" = some 20000000000 ∧
      Restored restartCooldowns (restarted restartCooldowns 1000000000 2000000000) 2000000000 :=
  ⟨by decide, by decide, (cooldowns_survive_restart none 0 _ (by decide)).1⟩

end AikeyProxy.Proxy
