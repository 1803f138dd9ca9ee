import AikeyProxy.Lib.Retry
import AikeyProxy.Supervisor.GroupRuntime
import AikeyProxy.Supervisor.Routes
import Mathlib.Data.Finset.Card
import Mathlib.Data.String.Basic

/-!
# Resolving the account of a group request

The candidates of a group key are the accounts whose material was delivered, ranked for the seat;
the pick is the account that the allocation engine asks for or else the first one that can serve. An
account whose secret does not decrypt is passed over and the pick is made again. The accounts to
pass over come in a map of the caller, which the resolver copies before it adds to it.
-/

namespace AikeyProxy.Proxy

open Lib Supervisor Finset

/-! ## Material -/

def windowExhausted (status : String) : Bool :=
  status == "exhausted_current_window" || status == "exhausted"

def exhaustedWindowBlocksAt (status : String) (resetAt : Option Int) (nowUnix : Int) : Bool :=
  windowExhausted status &&
    match resetAt with
    | none => true
    | some t => decide (t ≤ 0) || decide (nowUnix < t)

def materialWindowBlockedAt (mat : GroupRuntimeAccount) (nowUnix : Int) : Bool :=
  exhaustedWindowBlocksAt mat.windowStatus mat.windowResetAt nowUnix ||
    exhaustedWindowBlocksAt mat.window7dStatus mat.window7dResetAt nowUnix

def credTypeKey : String := "api_key"

def credTypeOAuth : String := "oauth_account"

def materialExpired (mat : GroupRuntimeAccount) (nowUnix : Int) : Bool :=
  mat.credentialType != credTypeKey && decide (0 < mat.expiresAt) &&
    decide (mat.expiresAt ≤ nowUnix)

def materialUsable (mat : GroupRuntimeAccount) (nowUnix : Int) : Bool :=
  if mat.credentialType = credTypeKey then true
  else if 0 < mat.expiresAt ∧ mat.expiresAt ≤ nowUnix then false
  else !materialWindowBlockedAt mat nowUnix

/-! ## Candidates -/

structure GroupAccountRef where
  accountID : String
  identity : String := ""
  providerCode : String := ""
  protocolType : String := ""
  baseURL : String := ""
  priority : Int := 0
  credentialID : String := ""

def orElse (a b : String) : String := if a = "" then b else a

/-- The candidate of an account with material: its snapshot row, gaps filled from the material,
and the material's priority. -/
def liveRef (snapshot : Table String GroupAccountRef) (id : String) (mat : GroupRuntimeAccount) :
    GroupAccountRef :=
  let ref := (snapshot.lookup id).getD { accountID := id }
  { accountID := id
    identity := orElse ref.identity mat.identity
    providerCode := orElse ref.providerCode mat.providerCode
    protocolType := orElse ref.protocolType mat.protocolType
    baseURL := orElse ref.baseURL mat.baseURL
    priority := mat.priority
    credentialID := orElse ref.credentialID mat.credentialID }

/-- `MergeLiveGroupAccountRefs`: the accounts of the material are the candidates, in the order
of their names. -/
def mergeLiveGroupAccountRefs (snapshot : List GroupAccountRef) (runtime : RuntimeColumn) :
    List GroupAccountRef :=
  if runtime = ∅ then snapshot
  else
    let snapshotByID := assignAll ∅
      ((snapshot.filter fun ref => ref.accountID != "").map fun ref => (ref.accountID, ref))
    let ids := (runtime.keys.filter (· != "")).insertionSort (· ≤ ·)
    ids.filterMap fun id => (runtime.lookup id).map (liveRef snapshotByID id)

/-! ## The pick -/

inductive PickOutcome where
  | none
  | ok
  | needsLogin

def inRefs (refs : List GroupAccountRef) (id : String) : Bool := refs.any (·.accountID == id)

/-- Whether an account may be picked. Without any material only the rank decides. -/
def pickGate (refs : List GroupAccountRef) (material : RuntimeColumn) (skip : Finset String)
    (nowUnix : Int) (id : String) : PickOutcome :=
  if !inRefs refs id || decide (id ∈ skip) then .none
  else if material = ∅ then .ok
  else
    match material.lookup id with
    | none => .none
    | some mat =>
      if mat.needsLogin then .needsLogin
      else if materialUsable mat nowUnix then .ok
      else .none

/-- The walk over the ranked accounts, with the login target found so far. -/
def pickRanked (gate : String → PickOutcome) : String → List String → String × PickOutcome
  | pendingLogin, [] =>
    if pendingLogin ≠ "" then (pendingLogin, .needsLogin) else ("", .none)
  | pendingLogin, id :: rest =>
    match gate id with
    | .ok => (id, .ok)
    | .needsLogin => pickRanked gate (if pendingLogin = "" then id else pendingLogin) rest
    | .none => pickRanked gate pendingLogin rest

/-- `seatassign.Rank`: the accounts with their priorities in the order for a seat. -/
abbrev Rank := String → List (String × Int) → List String

def rankedAccounts (rank : Rank) (seatID : String) (refs : List GroupAccountRef) : List String :=
  rank seatID (refs.map fun r => (r.accountID, r.priority))

def pickRoutedAccount (rank : Rank) (seatID : String) (refs : List GroupAccountRef)
    (material : RuntimeColumn) (override : String) (skip : Finset String) (nowUnix : Int) :
    String × PickOutcome :=
  if refs.isEmpty then ("", .none)
  else
    let gate := pickGate refs material skip nowUnix
    let ordered := rankedAccounts rank seatID refs
    if override = "" then pickRanked gate "" ordered
    else
      match gate override with
      | .ok => (override, .ok)
      | .needsLogin => pickRanked gate override ordered
      | .none => pickRanked gate "" ordered

variable {id : String} {refs : List GroupAccountRef}

theorem mem_refs_of_inRefs (h : inRefs refs id = true) :
    id ∈ refs.map GroupAccountRef.accountID := by
  obtain ⟨ref, hmem, heq⟩ := List.any_eq_true.mp h
  exact List.mem_map.mpr ⟨ref, hmem, eq_of_beq heq⟩

variable {nowUnix : Int} {skip : Finset String} {material : RuntimeColumn}

theorem pickGate_ok (h : pickGate refs material skip nowUnix id = .ok) :
    id ∈ refs.map GroupAccountRef.accountID ∧ id ∉ skip := by
  unfold pickGate at h
  split at h
  · cases h
  next hgate =>
    simp only [Bool.or_eq_true, Bool.not_eq_true', decide_eq_true_eq, not_or,
      Bool.not_eq_false] at hgate
    exact ⟨mem_refs_of_inRefs hgate.1, hgate.2⟩

theorem pickRanked_ok {gate : String → PickOutcome} {ordered : List String} {pendingLogin : String}
    (h : pickRanked gate pendingLogin ordered = (id, .ok)) : gate id = .ok := by
  revert h
  fun_induction pickRanked gate pendingLogin ordered
  case case3 hgate =>
    rintro ⟨⟩
    exact hgate
  case case4 ih | case5 ih => exact ih
  all_goals rintro ⟨⟩

/-- **The pick honours the candidates and the skip set**, the engine's wish included. -/
theorem pickRoutedAccount_ok {rank : Rank} {seatID override : String}
    (h : pickRoutedAccount rank seatID refs material override skip nowUnix = (id, .ok)) :
    id ∈ refs.map GroupAccountRef.accountID ∧ id ∉ skip := by
  revert h
  fun_cases pickRoutedAccount rank seatID refs material override skip nowUnix <;> intro h
  case case1 => cases h
  case case3 hgate =>
    cases h
    exact pickGate_ok hgate
  all_goals exact pickGate_ok (pickRanked_ok h)

/-! ## The resolution -/

structure OAuthCredential where
  accessToken : String
  provider : String
  accountID : String
  externalID : String
  identity : String
  expiresAt : Int

inductive PickSource where
  | engineOverride
  | overrideConfirmsHRW
  | localHRW
  | localFallback

def classifyPickSource (served primary override : String) : PickSource :=
  if override ≠ "" ∧ served = override ∧ served ≠ primary then .engineOverride
  else if override ≠ "" ∧ served = override then .overrideConfirmsHRW
  else if served = primary then .localHRW
  else .localFallback

structure GroupResolution where
  accountID : String
  credentialID : String
  credentialType : String
  providerCode : String
  protocolType : String
  identity : String
  primary : String
  pickSource : PickSource
  oauth : Option OAuthCredential
  plaintextKey : String
  baseURL : String
  revision : String
  windowMaxUtilPct : Option Int
  window7dMaxUtilPct : Option Int
  egressProxyURL : String

inductive GroupErrCode where
  | noCandidates
  | noMaterial
  | allUnusable
  | loginRequired
  deriving DecidableEq

def GroupErrCode.text : GroupErrCode → String
  | .noCandidates => "GROUP_NO_CANDIDATES"
  | .noMaterial => "GROUP_NO_MATERIAL"
  | .allUnusable => "GROUP_ALL_UNUSABLE"
  | .loginRequired => "OAUTH_GROUP_MEMBER_LOGIN_REQUIRED"

structure GroupResolveError where
  code : GroupErrCode
  reason : String
  account : String := ""

/-- `buildGroupResolution`, with the two fields that the resolver adds. -/
def buildGroupResolution (id : String) (ref : GroupAccountRef) (mat : GroupRuntimeAccount)
    (secret primary : String) (pickSource : PickSource) : GroupResolution :=
  let providerCode := orElse ref.providerCode mat.providerCode
  { accountID := id
    credentialID := orElse ref.credentialID mat.credentialID
    credentialType := mat.credentialType
    providerCode := providerCode
    protocolType := orElse ref.protocolType mat.protocolType
    identity := ref.identity
    primary := primary
    pickSource := pickSource
    oauth :=
      if mat.credentialType = credTypeKey then none
      else some ⟨secret, providerCode, id, mat.externalID, ref.identity, mat.expiresAt⟩
    plaintextKey := if mat.credentialType = credTypeKey then secret else ""
    baseURL := orElse mat.baseURL ref.baseURL
    revision := if mat.credentialType = credTypeKey then mat.revision else ""
    windowMaxUtilPct := mat.windowMaxUtilPct
    window7dMaxUtilPct := mat.window7dMaxUtilPct
    egressProxyURL := mat.egressProxyURL }

/-! ## The caller's map -/

/-- The skip map of the caller and, once it was made, the copy, to which `localSkip` then refers. -/
structure SkipMaps where
  callers : Finset String
  clone : Option (Finset String) := none

def SkipMaps.localSkip (m : SkipMaps) : Finset String := m.clone.getD m.callers

def SkipMaps.cloneOnce (m : SkipMaps) : SkipMaps :=
  match m.clone with
  | none => { m with clone := some m.callers }
  | some _ => m

/-- `localSkip[id] = true`, which writes to the map that the variable refers to. -/
def SkipMaps.assign (m : SkipMaps) (id : String) : SkipMaps :=
  match m.clone with
  | none => { m with callers := insert id m.callers }
  | some clone => { m with clone := some (insert id clone) }

def SkipMaps.exclude (m : SkipMaps) (id : String) : SkipMaps := m.cloneOnce.assign id

theorem SkipMaps.callers_exclude (m : SkipMaps) (id : String) :
    (m.exclude id).callers = m.callers := by
  cases m with
  | mk callers clone => cases clone <;> rfl

theorem SkipMaps.localSkip_exclude (m : SkipMaps) (id : String) :
    (m.exclude id).localSkip = insert id m.localSkip := by
  cases m with
  | mk callers clone => cases clone <;> rfl

/-! ## The loop -/

theorem card_sdiff_insert_lt {ids done : Finset String} (hid : id ∈ ids) (hdone : id ∉ done) :
    (ids \ insert id done).card < (ids \ done).card := by
  rw [sdiff_insert]
  exact card_erase_lt_of_mem (Finset.mem_sdiff.mpr ⟨hid, hdone⟩)

/-- What the resolver is given from outside: the two columns of a group key decoded, the ranking
and the decryption under the vault key. -/
structure GroupSources where
  refs : String → List GroupAccountRef
  material : String → Option RuntimeColumn
  rank : Rank
  decrypt : GroupRuntimeAccount → Option String

structure ResolveEnv where
  refs : List GroupAccountRef
  material : RuntimeColumn
  seatID : String
  override : String
  nowUnix : Int

def ResolveEnv.ids (env : ResolveEnv) : Finset String :=
  (env.refs.map GroupAccountRef.accountID).toFinset

section

variable (src : GroupSources)

def ResolveEnv.primary (env : ResolveEnv) : String :=
  (rankedAccounts src.rank env.seatID env.refs).headD ""

def ResolveEnv.assigned (env : ResolveEnv) : String :=
  if env.override ≠ "" ∧ inRefs env.refs env.override then env.override else env.primary src

/-- Nothing can be picked: an expired token of the assigned account is the member's to renew. -/
def ResolveEnv.deadEnd (env : ResolveEnv) (localSkip : Finset String) : GroupResolveError :=
  let assigned := env.assigned src
  let renewable := (env.material.lookup assigned).any fun m =>
    materialExpired m env.nowUnix && !materialWindowBlockedAt m env.nowUnix
  if assigned ∉ localSkip ∧ renewable = true then
    { code := .loginRequired
      reason := "member token for the routed account expired — re-login required"
      account := assigned }
  else
    { code := .allUnusable
      reason := "all group candidates expired, exhausted, or undecryptable" }

/-- One round of the loop: the account picked, or how the loop ends. -/
def ResolveEnv.step (env : ResolveEnv) (m : SkipMaps) :
    SkipMaps ⊕ (Except GroupResolveError GroupResolution × SkipMaps) :=
  match pickRoutedAccount src.rank env.seatID env.refs env.material env.override m.localSkip
      env.nowUnix with
  | (id, .needsLogin) =>
    .inr (.error
      { code := .loginRequired
        reason := "member has no token for the routed account — login required"
        account := id }, m)
  | (id, .ok) =>
    -- the last candidate of a name wins, as in a map filled in order
    match env.refs.reverse.find? (·.accountID == id), env.material.lookup id with
    | some ref, some mat =>
      match src.decrypt mat with
      | none => .inl (m.exclude id)
      | some secret =>
        let primary := env.primary src
        .inr (.ok (buildGroupResolution id ref mat secret primary
          (classifyPickSource id primary env.override)), m)
    -- an account that was picked has both, so this is never taken
    | _, _ => .inl (m.exclude id)
  | (_, .none) => .inr (.error (env.deadEnd src m.localSkip), m)

variable {m m' : SkipMaps} {env : ResolveEnv}

theorem ResolveEnv.step_again (h : env.step src m = .inl m') :
    ∃ id ∈ env.ids, id ∉ m.localSkip ∧ m' = m.exclude id := by
  revert h
  fun_cases ResolveEnv.step src env m <;> intro h <;> cases h
  case case2 hpick _ _ _ _ _ | case4 hpick _ =>
    obtain ⟨hid, hskip⟩ := pickRoutedAccount_ok hpick
    exact ⟨_, List.mem_toFinset.mpr hid, hskip, rfl⟩

theorem ResolveEnv.step_shrinks (env : ResolveEnv) (m m' : SkipMaps)
    (h : env.step src m = .inl m') :
    (env.ids \ m'.localSkip).card < (env.ids \ m.localSkip).card := by
  obtain ⟨id, hid, hskip, rfl⟩ := env.step_again src h
  rw [SkipMaps.localSkip_exclude]
  exact card_sdiff_insert_lt hid hskip

def ResolveEnv.resolve (env : ResolveEnv) (skip : Finset String) :
    Except GroupResolveError GroupResolution × SkipMaps :=
  retry (env.step src) (fun m => (env.ids \ m.localSkip).card) (env.step_shrinks src)
    { callers := skip }

def groupCandidates (route : RouteBinding) :
    Except GroupResolveError (List GroupAccountRef × RuntimeColumn) :=
  if route.groupRuntime = "" then
    .error { code := .noMaterial, reason := "group_runtime not pulled yet" }
  else
    match src.material route.groupRuntime with
    | none =>
      .error { code := .noMaterial, reason := "group_runtime unparseable — treat as not-ready" }
    | some material =>
      if material = ∅ then
        .error
          { code := .noCandidates
            reason := "group_runtime delivered no accounts for this seat (unbound/removed member or empty group)" }
      else
        let snapshot := if route.groupAccounts = "" then [] else src.refs route.groupAccounts
        let refs := mergeLiveGroupAccountRefs snapshot material
        if refs.isEmpty then
          .error
            { code := .noCandidates
              reason := "group_runtime contained no valid candidate accounts" }
        else .ok (refs, material)

/-- `resolveGroupCredential`, with the caller's skip map as it is afterwards. -/
def resolveGroupCredential (route : RouteBinding) (nowUnix : Int) (skip : Finset String)
    (override : String) : Except GroupResolveError GroupResolution × Finset String :=
  match groupCandidates src route with
  | .error e => (.error e, skip)
  | .ok (refs, material) =>
    let env : ResolveEnv := ⟨refs, material, route.seatID, override, nowUnix⟩
    let (result, maps) := env.resolve src skip
    (result, maps.callers)

/-! ## What a resolution is -/

def candidateIDs (route : RouteBinding) : Finset String :=
  match groupCandidates src route with
  | .error _ => ∅
  | .ok (refs, _) => (refs.map GroupAccountRef.accountID).toFinset

variable {res : GroupResolution}

theorem ResolveEnv.step_ok (h : env.step src m = .inr (.ok res, m')) :
    m' = m ∧ res.accountID ∈ env.ids ∧ res.accountID ∉ m.localSkip := by
  revert h
  fun_cases ResolveEnv.step src env m <;> intro h <;> cases h
  next hpick _ _ _ _ _ _ _ =>
    obtain ⟨hid, hskip⟩ := pickRoutedAccount_ok hpick
    exact ⟨rfl, List.mem_toFinset.mpr hid, hskip⟩

theorem ResolveEnv.step_done {result : Except GroupResolveError GroupResolution}
    (h : env.step src m = .inr (result, m')) : m' = m := by
  revert h
  fun_cases ResolveEnv.step src env m <;> intro h <;> cases h <;> rfl

/-- The loop leaves the caller's map as it was, and what it resolves to is a candidate that the
map does not name. -/
theorem ResolveEnv.resolve_spec (env : ResolveEnv) (skip : Finset String) :
    (env.resolve src skip).2.callers = skip ∧
      ∀ res, (env.resolve src skip).1 = .ok res →
        res.accountID ∈ env.ids ∧ res.accountID ∉ skip := by
  obtain ⟨m, hvisit, hlast⟩ := retry_last (env.step_shrinks src) { callers := skip }
  have hinv : m.callers = skip ∧ skip ⊆ m.localSkip := by
    refine hvisit.invariant (I := fun m => m.callers = skip ∧ skip ⊆ m.localSkip) ?_
      ⟨rfl, Finset.Subset.refl _⟩
    rintro t t' ⟨hcallers, hsub⟩ ht
    obtain ⟨id, -, -, rfl⟩ := env.step_again src ht
    refine ⟨(SkipMaps.callers_exclude t id).trans hcallers, ?_⟩
    rw [SkipMaps.localSkip_exclude]
    exact hsub.trans (subset_insert _ _)
  have hm : (env.resolve src skip).2 = m := env.step_done src hlast
  refine ⟨?_, ?_⟩
  · rw [hm]
    exact hinv.1
  · intro res hres
    have hstep : env.step src m = .inr (.ok res, (env.resolve src skip).2) := by
      rw [hlast, ← hres]
      rfl
    obtain ⟨-, hid, hnot⟩ := env.step_ok src hstep
    exact ⟨hid, fun h => hnot (hinv.2 h)⟩

theorem resolveGroupCredential_skip (route : RouteBinding) (nowUnix : Int) (skip : Finset String)
    (override : String) : (resolveGroupCredential src route nowUnix skip override).2 = skip := by
  unfold resolveGroupCredential
  split
  · rfl
  · exact (ResolveEnv.resolve_spec src _ skip).1

theorem resolveGroupCredential_ok {route : RouteBinding} {override : String}
    (h : (resolveGroupCredential src route nowUnix skip override).1 = .ok res) :
    res.accountID ∈ candidateIDs src route ∧ res.accountID ∉ skip := by
  unfold resolveGroupCredential at h
  unfold candidateIDs
  split at h
  · cases h
  next refs material hcand =>
    exact (ResolveEnv.resolve_spec src _ skip).2 res h

end

end AikeyProxy.Proxy
