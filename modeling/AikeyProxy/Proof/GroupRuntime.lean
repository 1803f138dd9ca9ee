import AikeyProxy.Supervisor.GroupRuntime

/-!
# When a skipped cycle is right

A cycle that writes everything and reloads leaves every local group key with the material of its
response. A cycle whose signature is the committed one writes nothing, and is right only if the
columns still carry what was committed. Failed cycles may have rewritten columns, so these are
tracked as *carrying the committed material, or written since the commit*.
-/

namespace AikeyProxy.Supervisor

open Lib List GroupRuntimeWorld Option CycleEnv GrGroup Function

/-! ## What the columns should say -/

/-- The material a response delivers for an account of a group: the last group with that
id counts, and in it the last account with that id. -/
def deliveredMaterial (groups : List GrGroup) (groupID id : String) :
    Option (AccountRuntime String) :=
  (groups.reverse.find? fun g => decide (g.oauthGroupID = groupID)).bind fun g =>
    (g.accounts.reverse.find? fun a => decide (a.accountID = id)).map GrAccount.material

def Carries (col : RuntimeColumn) (groups : List GrGroup) (groupID : String) : Prop :=
  ∀ id, (col.lookup id).map GroupRuntimeAccount.material = deliveredMaterial groups groupID id

def Projected (t : Table String RuntimeColumn) (ks : LocalKeys) (groups : List GrGroup) : Prop :=
  ∀ mk ∈ ks.groupKeys, ∃ col, t.lookup mk.virtualKeyID = some col ∧
    Carries col groups mk.oauthGroupID

/-- After a cycle that reported success the vault and the active generation have the
material of its response. -/
def Converged (s : GroupRuntimeWorld) : Prop :=
  ∀ ks groups, s.reported = some (ks, groups) →
    Projected s.columns ks groups ∧ Projected s.active ks groups

section

variable (decode : String → Option (List GrGroup)) (s : GroupRuntimeWorld)

/-- If the signature of a cycle is the committed one, no write since that commit gave a local group
key other material than this response delivers. -/
def CycleOk (env : CycleEnv) : Prop :=
  ∀ ks raw groups, env.local? = some ks → env.fetched = some raw → decode raw = some groups →
    s.lastSig = some (groupRuntimeSyncSignature raw ks) →
    ∀ row ∈ s.sinceCommit, ∀ mk ∈ ks.groupKeys, mk.virtualKeyID = row.1 →
      Carries row.2 groups mk.oauthGroupID

def GroupRuntimeStepOk : GroupRuntimeAct → Prop
  | .cycle env => CycleOk decode s env
  | .reload _ => True

end

/-! ## One column -/

theorem mapSecret_stored (a : GrAccount) (nonce : Nat) : (a.stored nonce).material = a.material := by
  simp [GrAccount.stored, GroupRuntimeAccount.material, AccountRuntime.mapSecret,
    comp_def]

theorem material_applyRouteState (routeStates : String → Option PoolAccountRouteState) (id : String)
    (acc : GroupRuntimeAccount) : (applyRouteState routeStates id acc).material = acc.material := by
  unfold applyRouteState
  split
  · rfl
  · split <;> rfl

theorem lookup_buildGroupRuntimeMap (nonce : String → Nat) (accounts : List GrAccount)
    (id : String) :
    (buildGroupRuntimeMap nonce accounts).lookup id =
      (accounts.reverse.find? fun a => decide (a.accountID = id)).map fun a =>
        a.stored (nonce a.accountID) := by
  rw [buildGroupRuntimeMap, lookup_assignAll_eq, ← map_reverse, find?_map]
  simp [comp_def]

variable {groups : List GrGroup} {mk : GroupVK} {env : CycleEnv} {ks : LocalKeys}
  {since : List (String × RuntimeColumn)} {t : Table String RuntimeColumn} {s : GroupRuntimeWorld}

variable {groupID : String}

theorem carries_groupColumn {g : GrGroup}
    (hlast : (groups.reverse.find? fun g => decide (g.oauthGroupID = groupID)) = some g) :
    Carries (env.groupColumn g mk) groups groupID := by
  intro id
  rw [deliveredMaterial, hlast, bind_some, groupColumn, marshalGroupRuntime,
    applyPoolRouteStates, lookup_mapEntries, lookup_mapEntries, lookup_buildGroupRuntimeMap,
    Option.map_map, Option.map_map, Option.map_map]
  congr 1
  funext a
  exact (material_applyRouteState env.routeStates id _).trans (mapSecret_stored a _)

theorem carries_empty (hnone : groupID ∉ groups.map GrGroup.oauthGroupID) :
    Carries ∅ groups groupID := by
  intro id
  have hfind : (groups.reverse.find? fun g => decide (g.oauthGroupID = groupID)) = none := by
    refine find?_eq_none.mpr fun g hg => ?_
    have hmem : g.oauthGroupID ∈ groups.map oauthGroupID :=
      mem_map_of_mem (mem_reverse.mp hg)
    simp only [decide_eq_true_eq]
    rintro rfl
    exact hnone hmem
  rw [deliveredMaterial, hfind]
  rfl

/-! ## One snapshot -/

theorem find?_virtualKeyID (hmk : mk ∈ ks.groupKeys) {l : List GroupVK}
    (hsub : ∀ x ∈ l, x ∈ ks.groupKeys) :
    (l.find? fun x => decide (x.virtualKeyID = mk.virtualKeyID)) =
      if mk ∈ l then some mk else none := by
  have hinj : ∀ x ∈ l, x.virtualKeyID = mk.virtualKeyID → x = mk := fun x hx heq =>
    inj_on_of_nodup_map ks.nodup (hsub x hx) hmk heq
  cases hfind : l.find? fun x => decide (x.virtualKeyID = mk.virtualKeyID) with
  | none =>
    have hnot : mk ∉ l := fun hin => by
      simpa using find?_eq_none.mp hfind mk hin
    rw [if_neg hnot]
  | some x =>
    have hx := mem_of_find?_eq_some hfind
    have heq : x = mk := hinj x hx (by simpa using find?_some hfind)
    rw [← heq, if_pos hx]

theorem find?_deliveredRows (hmk : mk ∈ ks.groupKeys) (env : CycleEnv) (groups : List GrGroup) :
    ((groups.flatMap fun g =>
        (ks.groupKeys.filter fun mk => decide (mk.oauthGroupID = g.oauthGroupID)).map fun mk =>
          (mk.virtualKeyID, env.groupColumn g mk)).reverse.find? fun row =>
            decide (row.1 = mk.virtualKeyID)) =
      (groups.reverse.find? fun g => decide (g.oauthGroupID = mk.oauthGroupID)).map fun g =>
        (mk.virtualKeyID, env.groupColumn g mk) := by
  induction groups with
  | nil => rfl
  | cons g groups ih =>
    rw [flatMap_cons, reverse_append, find?_append, ih, reverse_cons,
      find?_append]
    cases groups.reverse.find? fun g => decide (g.oauthGroupID = mk.oauthGroupID) with
    | some _ => rfl
    | none =>
      -- no later group has this id: the row, if there is one, is of this group
      rw [map_none, none_or, none_or, ← map_reverse, find?_map]
      have hfind := find?_virtualKeyID hmk (l := (ks.groupKeys.filter fun x =>
          decide (x.oauthGroupID = g.oauthGroupID)).reverse)
        fun x hx => (mem_filter.mp (mem_reverse.mp hx)).1
      simp only [comp_def, hfind, mem_reverse, mem_filter, hmk, true_and,
        decide_eq_true_eq]
      by_cases hg : mk.oauthGroupID = g.oauthGroupID
      · simp [hg]
      · simp [hg, Ne.symm hg]

/-- **A snapshot that was written to its end gives every key its material.** -/
theorem projected_snapshot (env : CycleEnv) (t : Table String RuntimeColumn) (ks : LocalKeys)
    (groups : List GrGroup) : Projected (assignAll t (env.snapshotRows ks groups)) ks groups := by
  intro mk hmk
  rw [lookup_assignAll_eq, snapshotRows, reverse_append, find?_append,
    find?_deliveredRows hmk, ← map_reverse, find?_map]
  have hsub : ∀ x ∈ (env.order (ks.groupKeys.filter fun mk =>
      decide (mk.oauthGroupID ∉ groups.map oauthGroupID))).reverse,
      x ∈ ks.groupKeys := fun x hx =>
    (mem_filter.mp ((env.order_perm _).mem_iff.mp (mem_reverse.mp hx))).1
  simp only [comp_def, find?_virtualKeyID hmk hsub, mem_reverse,
    (env.order_perm _).mem_iff, mem_filter, hmk, true_and, decide_eq_true_eq]
  by_cases hdel : mk.oauthGroupID ∉ groups.map oauthGroupID
  · rw [if_pos hdel]
    exact ⟨∅, rfl, carries_empty hdel⟩
  · rw [if_neg hdel]
    cases hlast : groups.reverse.find? fun g => decide (g.oauthGroupID = mk.oauthGroupID) with
    | none =>
      obtain ⟨g, hg, hid⟩ := mem_map.mp (not_not.mp hdel)
      have := find?_eq_none.mp hlast g (mem_reverse.mpr hg)
      exact absurd hid (by simpa using this)
    | some g => exact ⟨env.groupColumn g mk, rfl, carries_groupColumn hlast⟩

theorem signature_inj {raw raw' : String} {ks' : LocalKeys}
    (h : groupRuntimeSyncSignature raw ks = groupRuntimeSyncSignature raw' ks') :
    raw = raw' ∧ ∀ mk ∈ ks.groupKeys, mk ∈ ks'.groupKeys := by
  obtain ⟨hraw, hsort⟩ := Prod.mk.inj h
  refine ⟨hraw, fun mk hmk => ?_⟩
  have hin := mem_map_of_mem (f := fun mk : GroupVK =>
    (mk.virtualKeyID, mk.seatID, mk.oauthGroupID)) hmk
  rw [← (perm_insertionSort topologyLe _).mem_iff, hsort,
    (perm_insertionSort topologyLe _).mem_iff] at hin
  obtain ⟨mk', hmk', heq⟩ := mem_map.mp hin
  simp only [Prod.mk.injEq] at heq
  obtain ⟨hvk, hseat, hgroup⟩ := heq
  have hsame : mk' = mk := by
    cases mk; cases mk'; simp only at hvk hseat hgroup; rw [hvk, hseat, hgroup]
  rwa [← hsame]

/-! ## The invariant -/

/-- A key has the committed material, or a column written since the commit. -/
def Kept (t : Table String RuntimeColumn) (since : List (String × RuntimeColumn))
    (groups : List GrGroup) (mk : GroupVK) : Prop :=
  ∃ col, t.lookup mk.virtualKeyID = some col ∧
    (Carries col groups mk.oauthGroupID ∨ (mk.virtualKeyID, col) ∈ since)

structure GroupRuntimeInv (decode : String → Option (List GrGroup)) (s : GroupRuntimeWorld) :
    Prop where
  /-- The keys of the committed signature, in the vault and in the active generation. -/
  committed : ∀ raw ks groups, decode raw = some groups →
    s.lastSig = some (groupRuntimeSyncSignature raw ks) →
    ∀ mk ∈ ks.groupKeys, Kept s.columns s.sinceCommit groups mk ∧
      Kept s.active s.sinceCommit groups mk
  converged : Converged s

variable {decode : String → Option (List GrGroup)}

theorem groupRuntimeInv_init (columns : Table String RuntimeColumn) :
    GroupRuntimeInv decode (.init columns) where
  committed := nofun
  converged := nofun

theorem Kept.assignAll (h : Kept t since groups mk) (done : List (String × RuntimeColumn)) :
    Kept (assignAll t done) (since ++ done) groups mk := by
  obtain ⟨col, hcol, hkept⟩ := h
  cases hfind : done.reverse.find? fun row => decide (row.1 = mk.virtualKeyID) with
  | some row =>
    have hkey : row.1 = mk.virtualKeyID := by simpa using find?_some hfind
    have hmem := mem_reverse.mp (mem_of_find?_eq_some hfind)
    refine ⟨row.2, by rw [lookup_assignAll_eq, hfind]; rfl, Or.inr ?_⟩
    rw [← hkey]
    exact mem_append_right _ hmem
  | none =>
    refine ⟨col, by rw [lookup_assignAll_eq, hfind]; exact hcol, ?_⟩
    exact hkept.imp_right (mem_append_left _)

theorem Kept.more (h : Kept t since groups mk) (done : List (String × RuntimeColumn)) :
    Kept t (since ++ done) groups mk := by
  obtain ⟨col, hcol, hkept⟩ := h
  exact ⟨col, hcol, hkept.imp_right (mem_append_left _)⟩

theorem Kept.carries (h : Kept t since groups mk)
    (hsince : ∀ row ∈ since, mk.virtualKeyID = row.1 → Carries row.2 groups mk.oauthGroupID) :
    ∃ col, t.lookup mk.virtualKeyID = some col ∧ Carries col groups mk.oauthGroupID := by
  obtain ⟨col, hcol, hkept⟩ := h
  exact ⟨col, hcol, hkept.elim id fun hin => hsince _ hin rfl⟩

theorem written_eq_of_length {rows : List (String × RuntimeColumn)}
    (h : ¬ (env.written rows).length < rows.length) : env.written rows = rows := by
  unfold written at h ⊢
  cases hk : env.failAt with
  | none => rfl
  | some k =>
    rw [hk] at h
    simp only [length_take] at h
    exact take_of_length_le (by omega)

theorem groupRuntimeInv_project (h : GroupRuntimeInv decode s) (env : CycleEnv) {raw : String}
    (hdec : decode raw = some groups) : GroupRuntimeInv decode (s.project env ks raw groups) := by
  unfold project
  simp only
  split
  · -- the cycle failed: the signature stays, the writes are on record
    constructor
    · intro raw' ks' groups' hdec' hsig mk hmk
      obtain ⟨hcol, hact⟩ := h.committed raw' ks' groups' hdec' hsig mk hmk
      exact ⟨hcol.assignAll _, hact.more _⟩
    · exact nofun
  next hdone =>
    obtain ⟨hlen, _⟩ := not_or.mp hdone
    have hproj : Projected (assignAll s.columns (env.written (env.snapshotRows ks groups))) ks
        groups := by
      rw [written_eq_of_length hlen]
      exact projected_snapshot env s.columns ks groups
    constructor
    · intro raw' ks' groups' hdec' hsig mk hmk
      obtain ⟨rfl, hkeys⟩ := signature_inj (some.inj hsig).symm
      obtain rfl : groups = groups' := some.inj (hdec.symm.trans hdec')
      obtain ⟨col, hcol, hcar⟩ := hproj mk (hkeys mk hmk)
      exact ⟨⟨col, hcol, Or.inl hcar⟩, ⟨col, hcol, Or.inl hcar⟩⟩
    · intro ks' groups' hrep
      obtain ⟨rfl, rfl⟩ := Prod.mk.inj (some.inj hrep)
      exact ⟨hproj, hproj⟩

theorem groupRuntimeInv_quiet (h : GroupRuntimeInv decode s) :
    GroupRuntimeInv decode { s with reported := none } where
  committed := h.committed
  converged := nofun

theorem groupRuntimeInv_cycle (h : GroupRuntimeInv decode s) (hok : CycleOk decode s env) :
    GroupRuntimeInv decode (s.syncGroupRuntime decode env) := by
  unfold syncGroupRuntime
  split
  next ks raw hlocal hfetched =>
    cases hdec : decode raw with
    | none => exact groupRuntimeInv_quiet h
    | some groups =>
      simp only
      split
      · -- skipped: what was committed is still there
        rename_i hsig
        refine ⟨h.committed, ?_⟩
        intro ks' groups' hrep
        obtain ⟨rfl, rfl⟩ := Prod.mk.inj (some.inj hrep)
        have hsince := hok ks raw groups hlocal hfetched hdec hsig
        constructor
        · intro mk hmk
          exact (h.committed raw ks groups hdec hsig mk hmk).1.carries fun row hrow =>
            hsince row hrow mk hmk
        · intro mk hmk
          exact (h.committed raw ks groups hdec hsig mk hmk).2.carries fun row hrow =>
            hsince row hrow mk hmk
      · exact groupRuntimeInv_project h env hdec
  · exact groupRuntimeInv_quiet h

theorem groupRuntimeInv_step {s' : GroupRuntimeWorld} {a : GroupRuntimeAct}
    (h : GroupRuntimeInv decode s) (hok : GroupRuntimeStepOk decode s a)
    (hs : groupRuntimeStep decode s a = some s') : GroupRuntimeInv decode s' := by
  cases a with
  | cycle env => cases hs; exact groupRuntimeInv_cycle h hok
  | reload ok =>
    cases hs
    cases ok with
    | false => exact h
    | true =>
      constructor
      · intro raw ks groups hdec hsig mk hmk
        have hcol := (h.committed raw ks groups hdec hsig mk hmk).1
        exact ⟨hcol, hcol⟩
      · intro ks groups hrep
        exact ⟨(h.converged ks groups hrep).1, (h.converged ks groups hrep).1⟩

/-- **Group material converges with the control plane** in every run whose cycles meet `CycleOk`. -/
theorem group_runtime_converges {columns : Table String RuntimeColumn}
    {acts : List GroupRuntimeAct} {s : GroupRuntimeWorld}
    (hrun : Guarded (groupRuntimeStep decode) (GroupRuntimeStepOk decode) (.init columns) acts s) :
    Converged s :=
  (hrun.invariant (fun _ _ _ hi hok hs => groupRuntimeInv_step hi hok hs)
    (groupRuntimeInv_init columns)).converged

/-! ## An answer that comes back -/

def apiKeyAccount (key : String) : GrAccount where
  credentialType := "api_key"
  credentialID := "cred"
  identity := ""
  providerCode := "anthropic"
  protocolType := "anthropic"
  baseURL := ""
  priority := 0
  util5h := none
  util7d := none
  utilObservedAt := none
  windowMaxUtilPct := none
  windowStatus := ""
  windowResetAt := none
  window7dMaxUtilPct := none
  window7dStatus := ""
  window7dResetAt := none
  accountID := "acc"
  needsLogin := false
  accessToken := ""
  expiresAt := 0
  externalID := ""
  egressProxyURL := ""
  key := key
  revision := "1"

def oneAccountBody (body : String) : Option (List GrGroup) := some [⟨"g", [apiKeyAccount body]⟩]

def oneKeyCycle (body : String) (failAt : Option Nat) (reloadOk : Bool) : GroupRuntimeAct :=
  .cycle
    { local? := some ⟨[⟨"vk", "seat", "g"⟩], by decide⟩
      fetched := some body
      nonce := fun _ _ => 0
      routed := fun _ => "acc"
      routeStates := fun _ => none
      order := id
      order_perm := fun _ => .refl _
      failAt := failAt
      reloadOk := reloadOk }

def GroupRuntimeWorld.secretOf (s : GroupRuntimeWorld) (vk id : String) : Option String :=
  (s.columns.lookup vk).bind fun col =>
    (col.lookup id).bind fun acc => acc.material.secret

/-- The key `old` is committed, the reload for `new` fails, then `old` is delivered again. -/
def returningAnswer : List GroupRuntimeAct :=
  [oneKeyCycle "old" none true, oneKeyCycle "new" none false, oneKeyCycle "old" none true]

theorem returningAnswer_exec :
    ∃ s ks, exec (groupRuntimeStep oneAccountBody) (.init ∅) returningAnswer = some s ∧
      s.reported = some (ks, [⟨"g", [apiKeyAccount "old"]⟩]) ∧
      ks.groupKeys = [⟨"vk", "seat", "g"⟩] ∧ s.secretOf "vk" "acc" = some "new" :=
  ⟨_, _, rfl, rfl, rfl, by decide⟩

/-- Without the condition a cycle reports success over the material of a failed one. -/
theorem returning_answer_skipped :
    ¬ ∀ (decode : String → Option (List GrGroup)) (columns : Table String RuntimeColumn)
        (acts : List GroupRuntimeAct) (s : GroupRuntimeWorld),
      exec (groupRuntimeStep decode) (.init columns) acts = some s → Converged s := by
  intro h
  obtain ⟨s, ks, hrun, hrep, hkeys, hsecret⟩ := returningAnswer_exec
  obtain ⟨hcol, _⟩ := h _ _ _ _ hrun ks _ hrep
  obtain ⟨col, hlookup, hcar⟩ := hcol ⟨"vk", "seat", "g"⟩ (by rw [hkeys]; exact .head _)
  have hacc := hcar "acc"
  have hdel : deliveredMaterial [⟨"g", [apiKeyAccount "old"]⟩] "g" "acc" =
      some (apiKeyAccount "old").material := by decide
  rw [hdel] at hacc
  obtain ⟨acc, hin, hmat⟩ := map_eq_some_iff.mp hacc
  simp only [secretOf, hlookup, hin, bind_some, hmat] at hsecret
  exact absurd hsecret (by decide)

/-- The write for `new` fails at once, so that nothing stands in the way of the skip. -/
def untouchedAnswer : List GroupRuntimeAct :=
  [oneKeyCycle "old" none true, oneKeyCycle "new" (some 0) true, oneKeyCycle "old" none true]

theorem untouchedAnswer_guarded :
    ∃ s ks groups, Guarded (groupRuntimeStep oneAccountBody) (GroupRuntimeStepOk oneAccountBody)
        (.init ∅) untouchedAnswer s ∧ s.reported = some (ks, groups) := by
  refine ⟨_, _, _, .cons ?_ rfl (.cons ?_ rfl (.cons ?_ rfl (.nil _))), rfl⟩
  · exact nofun
  · intro ks raw groups _ _ _ _ row hrow
    exact absurd hrow (not_mem_nil)
  · intro ks raw groups _ _ _ _ row hrow
    exact absurd hrow (not_mem_nil)

/-- A skipped cycle after a failure that wrote nothing reports a success that is one. -/
theorem untouched_answer_converges :
    ∃ s ks groups, Guarded (groupRuntimeStep oneAccountBody) (GroupRuntimeStepOk oneAccountBody)
        (.init ∅) untouchedAnswer s ∧ s.reported = some (ks, groups) ∧
      Projected s.columns ks groups ∧ Projected s.active ks groups := by
  obtain ⟨s, ks, groups, hrun, hrep⟩ := untouchedAnswer_guarded
  exact ⟨s, ks, groups, hrun, hrep, group_runtime_converges hrun ks groups hrep⟩

end AikeyProxy.Supervisor
