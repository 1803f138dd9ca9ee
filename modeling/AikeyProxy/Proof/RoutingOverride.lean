import AikeyProxy.Lib.Run
import AikeyProxy.Supervisor.RoutingOverride

/-!
# Routing overrides converge on every pull

A pull is skipped when the cache has its version already. For a cache that was filled by a pull this
is sound, since a version names one list. A hydrated cache has the highest version found in the
rows, whatever the rows together say (`pull_converges_iff`).
-/

namespace AikeyProxy.Supervisor

open Lib List OverrideWorld

/-! ## What a route list prescribes -/

def RouteEntry.isFor (r : RouteEntry) (seatID groupID : String) : Bool :=
  r.seatID.text = seatID && r.groupID.text = groupID

def RouteEntry.assigns (r : RouteEntry) : Bool := !r.removed && !r.blocked && r.accountID ≠ ""

variable (routes : List RouteEntry)

/-- The answer for one pair, read off the list: the last binding of the pair, and whether the pair
is blocked or retired. An empty id names nothing. -/
def prescribed (seatID groupID : String) : RouteAnswer :=
  if seatID = "" ∨ groupID = "" then ⟨"", false, false⟩
  else
    ⟨((routes.filter fun r => r.isFor seatID groupID && r.assigns).getLast?.map
        RouteEntry.accountID).getD "",
      routes.any fun r => r.isFor seatID groupID && (!r.removed && r.blocked),
      routes.any fun r => r.isFor seatID groupID && r.removed⟩

theorem key_eq_iff (r : RouteEntry) (seatID groupID : String) :
    r.key = routeKey seatID groupID ↔ r.isFor seatID groupID = true := by
  rw [RouteEntry.isFor, Bool.and_eq_true, decide_eq_true_eq, decide_eq_true_eq]
  constructor
  · intro h
    have hlist : r.seatID.text.toList ++ '|' :: r.groupID.text.toList =
        seatID.toList ++ '|' :: groupID.toList := by
      have := congrArg String.toList h
      simpa [RouteEntry.key, routeKey] using this
    rcases List.append_eq_append_iff.mp hlist with ⟨t, hs, hg⟩ | ⟨t, hs, hg⟩
    · cases t with
      | nil =>
        simp only [append_nil, nil_append, List.cons.injEq, true_and] at hs hg
        exact ⟨String.toList_injective hs.symm, String.toList_injective hg⟩
      | cons c t =>
        -- the separator would be inside the entry's group id
        simp only [cons_append, List.cons.injEq] at hg
        exact absurd (by rw [hg.2]; simp) r.groupID.noBar
    · cases t with
      | nil =>
        simp only [append_nil, nil_append, List.cons.injEq, true_and] at hs hg
        exact ⟨String.toList_injective hs, String.toList_injective hg.symm⟩
      | cons c t =>
        simp only [cons_append, List.cons.injEq] at hg
        exact absurd (by rw [hs, ← hg.1]; simp) r.seatID.noBar
  · intro h
    rw [RouteEntry.key, h.1, h.2]

/-! ## The store loop -/

def routeMaps : RoutingOverrideCache :=
  routes.foldl RoutingOverrideCache.addRoute newRoutingOverrideCache

theorem routeMaps_append (r : RouteEntry) :
    routeMaps (routes ++ [r]) = (routeMaps routes).addRoute r := by
  simp [routeMaps]

theorem addRoute_maps (c : RoutingOverrideCache) (r : RouteEntry) :
    (c.addRoute r).removed = (if r.removed then insert r.key c.removed else c.removed) ∧
    (c.addRoute r).blocked =
      (if !r.removed && r.blocked then insert r.key c.blocked else c.blocked) ∧
    (c.addRoute r).assignments =
      (if r.assigns then c.assignments.insert r.key r.accountID else c.assignments) := by
  unfold RoutingOverrideCache.addRoute RouteEntry.assigns
  cases r.removed <;> cases r.blocked <;> by_cases hacct : r.accountID = "" <;> simp [hacct]

theorem mem_routeMaps_step {k : String} {set : Finset String} {routes : List RouteEntry}
    {r : RouteEntry} {p : RouteEntry → Bool}
    (ih : k ∈ set ↔ routes.any (fun r => decide (r.key = k) && p r) = true) :
    (k ∈ if p r = true then insert r.key set else set) ↔
      (routes ++ [r]).any (fun r => decide (r.key = k) && p r) = true := by
  rw [any_append, Bool.or_eq_true, ← ih]
  cases hp : p r with
  | false => simp [hp]
  | true => simp [hp, or_comm, eq_comm]

theorem mem_removed_routeMaps (k : String) : k ∈ (routeMaps routes).removed ↔
      routes.any (fun r => decide (r.key = k) && r.removed) = true := by
  induction routes using List.reverseRecOn with
  | nil => simp [routeMaps, newRoutingOverrideCache]
  | append_singleton routes r ih =>
    rw [routeMaps_append, (addRoute_maps _ r).1]
    exact mem_routeMaps_step ih

theorem mem_blocked_routeMaps (k : String) : k ∈ (routeMaps routes).blocked ↔
      routes.any (fun r => decide (r.key = k) && (!r.removed && r.blocked)) = true := by
  induction routes using List.reverseRecOn with
  | nil => simp [routeMaps, newRoutingOverrideCache]
  | append_singleton routes r ih =>
    rw [routeMaps_append, (addRoute_maps _ r).2.1]
    exact mem_routeMaps_step ih

theorem lookup_routeMaps (k : String) : (routeMaps routes).assignments.lookup k =
      (routes.filter fun r => decide (r.key = k) && r.assigns).getLast?.map
        RouteEntry.accountID := by
  induction routes using List.reverseRecOn with
  | nil => simp [routeMaps, newRoutingOverrideCache]
  | append_singleton routes r ih =>
    rw [routeMaps_append, (addRoute_maps _ r).2.2, filter_append]
    cases hassign : r.assigns with
    | false =>
      rw [if_neg (by simp), ih]
      simp [hassign]
    | true =>
      rw [if_pos rfl]
      by_cases hk : r.key = k
      · subst hk
        rw [AList.lookup_insert]
        simp [hassign]
      · rw [AList.lookup_insert_ne (Ne.symm hk), ih]
        simp [hk]

/-- **A stored list answers as it prescribes.** -/
theorem storeRoutes_answer (version : Int) (routes : List RouteEntry) (seatID groupID : String) :
    (storeRoutes version routes).answer seatID groupID = prescribed routes seatID groupID := by
  have hkey : ∀ r : RouteEntry,
      decide (r.key = routeKey seatID groupID) = r.isFor seatID groupID := by
    intro r
    rw [Bool.eq_iff_iff, decide_eq_true_eq]
    exact key_eq_iff r seatID groupID
  have hassign := lookup_routeMaps routes (routeKey seatID groupID)
  have hblocked := mem_blocked_routeMaps routes (routeKey seatID groupID)
  have hremoved := mem_removed_routeMaps routes (routeKey seatID groupID)
  simp only [hkey] at hassign hblocked hremoved
  have hmaps : (storeRoutes version routes).assignments = (routeMaps routes).assignments ∧
      (storeRoutes version routes).blocked = (routeMaps routes).blocked ∧
      (storeRoutes version routes).removed = (routeMaps routes).removed := ⟨rfl, rfl, rfl⟩
  unfold RoutingOverrideCache.answer prescribed
  split
  · rfl
  · rw [hmaps.1, hmaps.2.1, hmaps.2.2, hassign, RouteAnswer.mk.injEq]
    refine ⟨rfl, ?_, ?_⟩
    · rw [Bool.eq_iff_iff, decide_eq_true_eq]
      exact hblocked
    · rw [Bool.eq_iff_iff, decide_eq_true_eq]
      exact hremoved

/-! ## Where the cache came from -/

variable {server : Int → List RouteEntry}

def CacheInv (server : Int → List RouteEntry) (w : OverrideWorld) : Prop :=
  match w.filled with
  | none => w.cache.stored = false
  | some (.pulled version) => w.cache = storeRoutes version (server version)
  | some (.hydrated mks) =>
    w.cache = storeRoutes (persistedRoutingEntries mks).version (persistedRoutingEntries mks).entries

variable {w : OverrideWorld}

theorem cacheInv_pull (h : CacheInv server w) (version : Int) (env : PullEnv) :
    CacheInv server (w.syncRoutingOverrides server version env) := by
  unfold syncRoutingOverrides
  split
  · exact h
  · rfl

theorem cacheInv_restart (w : OverrideWorld) (readOk : Bool) :
    CacheInv server (w.restart readOk) := by
  unfold OverrideWorld.restart
  dsimp only
  split
  next hany =>
    show hydrate newRoutingOverrideCache _ = _
    rw [hydrate, if_neg (by simp [newRoutingOverrideCache]), if_neg hany.2]
  · rfl

theorem cacheInv_step {w' : OverrideWorld} {a : OverrideAct} (h : CacheInv server w)
    (hs : overrideStep server w a = some w') : CacheInv server w' := by
  cases a with
  | pull answer env =>
    cases answer with
    | none => rw [← Option.some.inj hs]; exact h
    | some version => rw [← Option.some.inj hs]; exact cacheInv_pull h version env
  | restart readOk => rw [← Option.some.inj hs]; exact cacheInv_restart w readOk
  | addKey vk seatID groupID | removeKey vk | setActive vk active | corruptRow vk =>
    rw [← Option.some.inj hs]; exact h

theorem cacheInv_reachable {acts : List OverrideAct}
    (hrun : exec (overrideStep server) OverrideWorld.init acts = some w) : CacheInv server w :=
  exec_invariant (fun _ _ _ hi hs => cacheInv_step hi hs) hrun rfl

/-! ## Pulls -/

/-- If the cache was hydrated and the highest version in the rows is the pulled one,
then the rows that were read prescribe what the pulled list prescribes. -/
def HydrationOk (server : Int → List RouteEntry) (w : OverrideWorld) (version : Int) : Prop :=
  ∀ mks, w.filled = some (.hydrated mks) → (persistedRoutingEntries mks).version = version →
    ∀ seatID groupID, prescribed (persistedRoutingEntries mks).entries seatID groupID =
      prescribed (server version) seatID groupID

variable {version : Int}

theorem pull_stores (env : PullEnv) (hnew : ¬ (w.cache.stored = true ∧ w.cache.version = version))
    (seatID groupID : String) :
    (w.syncRoutingOverrides server version env).cache.answer seatID groupID =
      prescribed (server version) seatID groupID := by
  rw [syncRoutingOverrides, if_neg hnew]
  exact storeRoutes_answer version (server version) seatID groupID

theorem pull_skips (env : PullEnv) (hsame : w.cache.stored = true ∧ w.cache.version = version) :
    w.syncRoutingOverrides server version env = w := if_pos hsame

/-- **Routing overrides converge on every pull, up to hydration**: after any history, a successful
pull leaves the cache answering as the pulled list prescribes if and only if `HydrationOk`. -/
theorem pull_converges_iff {acts : List OverrideAct} {w : OverrideWorld}
    (hrun : exec (overrideStep server) OverrideWorld.init acts = some w) (version : Int)
    (env : PullEnv) :
    (∀ seatID groupID, (w.syncRoutingOverrides server version env).cache.answer seatID groupID =
        prescribed (server version) seatID groupID) ↔
      HydrationOk server w version := by
  have hinv := cacheInv_reachable hrun
  unfold CacheInv at hinv
  unfold HydrationOk
  cases hfilled : w.filled with
  | none =>
    -- nothing was ever stored, so the pull is not skipped
    rw [hfilled] at hinv
    refine ⟨nofun, fun _ => pull_stores env ?_⟩
    rw [hinv]
    simp
  | some source =>
    rw [hfilled] at hinv
    cases source with
    | pulled v =>
      refine ⟨nofun, fun _ seatID groupID => ?_⟩
      by_cases hsame : w.cache.stored = true ∧ w.cache.version = version
      · -- the same version, hence the same list
        have hv : v = version := by rw [← hsame.2, hinv]; rfl
        rw [pull_skips env hsame, hinv, hv]
        exact storeRoutes_answer version (server version) seatID groupID
      · exact pull_stores env hsame seatID groupID
    | hydrated mks =>
      by_cases hsame : w.cache.stored = true ∧ w.cache.version = version
      · have hv : (persistedRoutingEntries mks).version = version := by
          rw [← hsame.2, hinv]; rfl
        rw [pull_skips env hsame, hinv]
        simp only [storeRoutes_answer]
        constructor
        · intro h mks' hm _ seatID groupID
          obtain rfl : mks = mks' := by simpa using hm
          exact h seatID groupID
        · intro h
          exact h mks rfl hv
      · refine ⟨fun _ mks' hm hv => absurd ?_ hsame, fun _ => pull_stores env hsame⟩
        obtain rfl : mks = mks' := by simpa using hm
        rw [hinv]
        exact ⟨rfl, hv⟩

/-! ## A write that failed before a restart -/

def seat1 : RouteID := ⟨"seat1", by decide⟩

def seat2 : RouteID := ⟨"seat2", by decide⟩

def pool : RouteID := ⟨"pool", by decide⟩

def twoSeats : Int → List RouteEntry :=
  fun _ => [⟨seat1, pool, "acctA", false, false⟩, ⟨seat2, pool, "acctB", false, false⟩]

/-- A pull at version 7 whose writes fail from the given key on, then a restart. -/
def restartedAfter (failFrom : Nat) : List OverrideAct :=
  [.addKey "vk1" seat1 pool, .addKey "vk2" seat2 pool, .pull (some 7) ⟨true, fun i => i < failFrom⟩,
    .restart true]

/-- After the restart the pull of the same version is skipped, and the seat whose row
was not written stays without its account. -/
theorem partial_hydration_sticks :
    ¬ ∀ (server : Int → List RouteEntry) (acts : List OverrideAct) (w : OverrideWorld)
        (version : Int) (env : PullEnv),
      exec (overrideStep server) OverrideWorld.init acts = some w →
      ∀ seatID groupID, (w.syncRoutingOverrides server version env).cache.answer seatID groupID =
        prescribed (server version) seatID groupID := by
  intro h
  have hanswer := h twoSeats (restartedAfter 1) _ 7 ⟨true, fun _ => true⟩ rfl "seat2" "pool"
  exact absurd hanswer (by decide)

theorem restartedAfter_exec :
    ∃ w, exec (overrideStep twoSeats) OverrideWorld.init (restartedAfter 2) = some w ∧
      ∃ mks, w.filled = some (.hydrated mks) ∧ (persistedRoutingEntries mks).version = 7 ∧
        (persistedRoutingEntries mks).entries = twoSeats 7 :=
  ⟨_, rfl, _, rfl, by decide, by decide⟩

theorem complete_hydration_converges :
    ∃ w, exec (overrideStep twoSeats) OverrideWorld.init (restartedAfter 2) = some w ∧
      ∀ seatID groupID,
        (w.syncRoutingOverrides twoSeats 7 ⟨true, fun _ => true⟩).cache.answer seatID groupID =
          prescribed (twoSeats 7) seatID groupID := by
  obtain ⟨w, hw, mks, hfilled, -, hentries⟩ := restartedAfter_exec
  refine ⟨w, hw, (pull_converges_iff hw 7 ⟨true, fun _ => true⟩).mpr ?_⟩
  intro mks' hmks' _ seatID groupID
  obtain rfl : mks = mks' := by simpa [hfilled] using hmks'
  rw [hentries]

end AikeyProxy.Supervisor
