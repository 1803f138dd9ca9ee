import AikeyProxy.Supervisor.Routes

/-!
# Startup and live sync build the same route table

Two paths assemble a registry from the same vault with the same builders in the same order, so they
agree token for token, except that only the startup path asks whether the node is a cluster node.
The first rebuild on such a node installs what startup had left out.
-/

namespace AikeyProxy.Supervisor

open Lib List AList Option

/-! ## The strip loop -/

variable {s rest : List Char} {bindings : List RouteBinding}

theorem cutFront_length {front : List Char} (h : cutFront s front = some rest) :
    rest.length + front.length = s.length := by
  unfold cutFront at h
  split at h
  next hpre =>
    have hle : front.length ≤ s.length := ( isPrefixOf_iff_prefix.mp hpre).length_le
    rw [← some.inj h, length_drop]
    omega
  · cases h

theorem stripKnownPrefix_length (h : stripKnownPrefix s = some rest) : rest.length < s.length := by
  rcases or_eq_some_iff.mp h with hteam | ⟨-, hvk⟩
  · have hlen := cutFront_length hteam
    have hfront : "aikey_team_".toList.length = 11 := by decide
    omega
  · have hlen := cutFront_length hvk
    have hfront : "aikey_vk_".toList.length = 9 := by decide
    omega

theorem trimSpace_length (s : List Char) : (trimSpace s).length ≤ s.length :=
  (( rdropWhile_prefix isSpace _).length_le).trans (dropWhile_suffix isSpace).length_le

theorem stripKnownPrefixes_done :
    ∀ (fuel : Nat) (s : List Char), s.length ≤ fuel →
      stripKnownPrefix (stripKnownPrefixes fuel s) = none := by
  intro fuel
  induction fuel with
  | zero =>
    intro s hs
    rw [length_eq_zero_iff.mp (by omega : s.length = 0)]
    decide
  | succ fuel ih =>
    intro s hs
    rw [stripKnownPrefixes]
    cases hstrip : stripKnownPrefix s with
    | none => exact hstrip
    | some stripped =>
      have hshort := stripKnownPrefix_length hstrip
      have htrim := trimSpace_length stripped
      exact ih _ (by omega)

/-! ## What the builders can produce -/

variable {route : ResolvedRoute} {t vk : String} {accepts : String → Bool} {R : Type}
  {revoked : Finset String} {groupRouting : Bool} {keys : List ManagedKey} {cfg : RouteConfig}
  {vault : VaultContent} {reg routes : Registry}

variable {rows : List R} {toRoute : R → ResolvedRoute} {token : R → String}

theorem buildRoutesFiltered_lookup
    (h : (buildRoutesFiltered accepts token toRoute rows).lookup t = some route) :
    ∃ row ∈ rows, accepts (token row) = true ∧ token row = t ∧ toRoute row = route := by
  rcases lookup_assignAll h with hrow | hnone
  · obtain ⟨row, hmem, heq⟩ := mem_map.mp hrow
    obtain ⟨hin, hacc⟩ := mem_filter.mp hmem
    rw [Prod.mk.injEq] at heq
    exact ⟨row, hin, hacc, heq.1, heq.2⟩
  · rw [lookup_empty] at hnone
    cases hnone

theorem mem_buildRoutesFiltered :
    t ∈ buildRoutesFiltered accepts token toRoute rows ↔
      ∃ row ∈ rows, accepts (token row) = true ∧ token row = t := by
  rw [buildRoutesFiltered, mem_assignAll]
  simp [and_assoc]

theorem buildRoutesFiltered_eq_empty (h : ∀ row ∈ rows, accepts (token row) = false) :
    buildRoutesFiltered accepts token toRoute rows = ∅ := by
  have hnil : (rows.filter fun row => accepts (token row)) = [] := by
    rw [filter_eq_nil_iff]
    intro row hrow
    rw [h row hrow]
    simp
  rw [buildRoutesFiltered, hnil]
  rfl

/-! ## Team routes -/

/-- A route keeps the source and the virtual key of one of its bindings, and its
own bindings are among them. -/
theorem routeOfBindings_some (h : routeOfBindings bindings = some route) :
    (∃ b ∈ bindings, route.virtualKeyID = b.virtualKeyID ∧ route.routeSource = b.routeSource) ∧
      ∀ b ∈ route.bindings, b ∈ bindings := by
  match bindings, h with
  | [b], h =>
    have hr : route = { toRouteBinding := b } := (some.inj h).symm
    subst hr
    exact ⟨⟨b, mem_cons_self, rfl, rfl⟩, nofun⟩
  | b :: c :: rest, h =>
    rw [routeOfBindings] at h
    · have hr := (some.inj h).symm
      subst hr
      exact ⟨⟨b, mem_cons_self, rfl, rfl⟩, fun d hd => hd⟩
    · exact nofun

theorem managedRow_some {mk : ManagedKey} {row : String × RouteBinding}
    (h : managedRow groupRouting revoked mk = some row) :
    row.2 = managedKeyToRoute mk ∧ mk.virtualKeyID ∉ revoked := by
  revert h
  fun_cases managedRow groupRouting revoked mk <;> intro h <;> cases h
  exact ⟨rfl, ‹_›⟩

/-- **Team routes come from team keys that are not revoked.** -/
theorem buildManagedRoutes_lookup
    (h : (buildManagedRoutes groupRouting keys revoked).lookup t = some route) :
    route.routeSource = .team ∧ ∀ vk ∈ revoked, ¬ ServesKey route vk := by
  rcases lookup_assignAll h with hrow | hnone
  · obtain ⟨group, hgroup, hrow⟩ := mem_filterMap.mp hrow
    obtain ⟨built, hbuilt, heq⟩ := map_eq_some_iff.mp hrow
    have hroute : built = route := congrArg Prod.snd heq
    subst hroute
    -- every binding that went into the route is a row of an unrevoked team key
    have hbinding : ∀ b ∈ sortBindings (group.2.map Prod.snd),
        b.routeSource = .team ∧ b.virtualKeyID ∉ revoked := by
      intro b hb
      obtain ⟨row, hrowIn, hrowEq⟩ := mem_map.mp ((mem_insertionSort _).mp hb)
      obtain ⟨mk, -, hmk⟩ := mem_filterMap.mp (mem_of_mem_groupBy hgroup hrowIn).1
      obtain ⟨hb', hrev⟩ := managedRow_some hmk
      rw [← hrowEq, hb']
      exact ⟨rfl, hrev⟩
    obtain ⟨⟨b, hb, hvk, hsrc⟩, hsub⟩ := routeOfBindings_some hbuilt
    refine ⟨hsrc.trans (hbinding b hb).1, ?_⟩
    intro vk hrev hserve
    rcases hserve.2 with hown | ⟨c, hc, hcvk⟩
    · exact (hbinding b hb).2 (by rw [← hvk, hown]; exact hrev)
    · exact (hbinding c (hsub c hc)).2 (by rw [hcvk]; exact hrev)
  · rw [lookup_empty] at hnone
    cases hnone

/-! ## Merging -/

theorem mergeIfAny_eq (reg routes : Registry) : reg.mergeIfAny routes = reg.merge routes := by
  unfold Registry.mergeIfAny
  split
  · rfl
  next hlen =>
    have hempty : routes = ∅ := by
      apply AList.ext
      exact length_eq_zero_iff.mp (by omega)
    rw [hempty]
    exact (empty_union).symm

theorem loadVaultRoutesIntoRegistry_eq (cfg : RouteConfig) (reg : Registry) (vault : VaultContent) :
    loadVaultRoutesIntoRegistry cfg reg vault =
      ((reg.merge (buildPersonalRoutesFiltered cfg.prov vault.personalTokens)).merge
        (buildOAuthRoutesFiltered cfg.prov vault.oauthTokens)).merge
        (buildAppRoutesFiltered vault.appTokens) := by
  have hguard : ∀ {R : Type} (rows : List R) (r : Registry) (accepts : String → Bool)
      (token : R → String) (toRoute : R → ResolvedRoute),
      (if rows.length > 0 then r.mergeIfAny (buildRoutesFiltered accepts token toRoute rows)
        else r) = r.merge (buildRoutesFiltered accepts token toRoute rows) := by
    intro R rows r accepts token toRoute
    cases rows with
    | nil => exact empty_union.symm
    | cons row rows => rw [if_pos (by simp), mergeIfAny_eq]
  unfold loadVaultRoutesIntoRegistry buildPersonalRoutesFiltered buildOAuthRoutesFiltered
    buildAppRoutesFiltered
  simp only [hguard]

theorem startup_managed_eq (cfg : RouteConfig) (vault : VaultContent) (revoked : Finset String) :
    (if vault.managedKeys.length > 0 then
        Registry.merge ∅ (buildManagedRoutes cfg.groupRouting vault.managedKeys revoked)
      else ∅) =
      Registry.merge ∅ (buildManagedRoutes cfg.groupRouting vault.managedKeys revoked) := by
  split
  · rfl
  next hlen =>
    have hnil : vault.managedKeys = [] := length_eq_zero_iff.mp (by omega)
    rw [hnil]
    rfl

/-! ## The comparison -/

/-- No personal, OAuth or app row of the vault has a token the filters accept. -/
def NoLocalBearers (vault : VaultContent) : Prop :=
  (∀ pt ∈ vault.personalTokens, isStrictPersonalRouteToken pt.routeToken = false) ∧
    (∀ ot ∈ vault.oauthTokens, isStrictPersonalRouteToken ot.routeToken = false) ∧
    ∀ row ∈ vault.appTokens, isAppRouteToken row.routeToken = false

theorem startup_eq_rebuild (hcluster : cfg.clusterEnabled = false) (vault : VaultContent)
    (revoked : Finset String) :
    startupRegistry cfg vault revoked = rebuildRouteRegistry cfg vault revoked := by
  unfold startupRegistry rebuildRouteRegistry
  rw [startup_managed_eq, hcluster]
  exact loadVaultRoutesIntoRegistry_eq cfg _ vault

theorem startup_cluster (hcluster : cfg.clusterEnabled = true) (vault : VaultContent)
    (revoked : Finset String) :
    startupRegistry cfg vault revoked =
      Registry.merge ∅ (buildManagedRoutes cfg.groupRouting vault.managedKeys revoked) := by
  unfold startupRegistry
  rw [startup_managed_eq, hcluster]
  rfl

theorem rebuild_of_noLocalBearers (h : NoLocalBearers vault) (revoked : Finset String) :
    rebuildRouteRegistry cfg vault revoked =
      Registry.merge ∅ (buildManagedRoutes cfg.groupRouting vault.managedKeys revoked) := by
  obtain ⟨hp, ho, ha⟩ := h
  unfold rebuildRouteRegistry buildPersonalRoutesFiltered buildOAuthRoutesFiltered
    buildAppRoutesFiltered
  rw [buildRoutesFiltered_eq_empty hp, buildRoutesFiltered_eq_empty ho,
    buildRoutesFiltered_eq_empty ha]
  simp only [Registry.merge, empty_union]

/-- The table answers the token with a route that is not a team route. -/
def ServesLocal (reg : Registry) (t : String) : Prop :=
  ∃ route, reg.lookup t = some route ∧ route.routeSource ≠ .team

def LocalRoutes (routes : Registry) : Prop :=
  ∀ t route, routes.lookup t = some route → route.routeSource ≠ .team

theorem localRoutes_filtered (rows : List R) (hlocal : ∀ row, (toRoute row).routeSource ≠ .team) :
    LocalRoutes (buildRoutesFiltered accepts token toRoute rows) := by
  intro t route h
  obtain ⟨row, -, -, -, hroute⟩ := buildRoutesFiltered_lookup h
  rw [← hroute]
  exact hlocal row

theorem localRoutes (cfg : RouteConfig) (vault : VaultContent) :
    LocalRoutes (buildPersonalRoutesFiltered cfg.prov vault.personalTokens) ∧
      LocalRoutes (buildOAuthRoutesFiltered cfg.prov vault.oauthTokens) ∧
      LocalRoutes (buildAppRoutesFiltered vault.appTokens) :=
  ⟨localRoutes_filtered _ fun _ => by simp [personalTokenToRoute],
    localRoutes_filtered _ fun _ => by simp [oauthTokenToRoute],
    localRoutes_filtered _ fun _ => by simp [appRouteTokenToRoute]⟩

theorem servesLocal_merge_new (hlocal : LocalRoutes routes) (ht : t ∈ routes) :
    ServesLocal (reg.merge routes) t := by
  obtain ⟨route, hroute⟩ := isSome_iff_exists.mp (lookup_isSome.mpr ht)
  refine ⟨route, ?_, hlocal t route hroute⟩
  rw [Registry.merge, lookup_union_left ht, hroute]

theorem servesLocal_merge_old (hlocal : LocalRoutes routes) (h : ServesLocal reg t) :
    ServesLocal (reg.merge routes) t := by
  by_cases ht : t ∈ routes
  · exact servesLocal_merge_new hlocal ht
  · obtain ⟨route, hroute, hsrc⟩ := h
    refine ⟨route, ?_, hsrc⟩
    rw [Registry.merge, lookup_union_right ht, hroute]

/-- A rebuild serves every accepted personal, OAuth or app token of the vault, on
any node. -/
theorem noLocalBearers_of_rebuild
    (h : ∀ t, ¬ ServesLocal (rebuildRouteRegistry cfg vault revoked) t) : NoLocalBearers vault := by
  obtain ⟨hpersonal, hoauth, happ⟩ := localRoutes cfg vault
  refine ⟨?_, ?_, ?_⟩
  · intro pt hpt
    rw [← Bool.not_eq_true]
    intro hacc
    refine h pt.routeToken (servesLocal_merge_old happ (servesLocal_merge_old hoauth ?_))
    exact servesLocal_merge_new hpersonal (mem_buildRoutesFiltered.mpr ⟨pt, hpt, hacc, rfl⟩)
  · intro ot hot
    rw [← Bool.not_eq_true]
    intro hacc
    refine h ot.routeToken (servesLocal_merge_old happ ?_)
    exact servesLocal_merge_new hoauth (mem_buildRoutesFiltered.mpr ⟨ot, hot, hacc, rfl⟩)
  · intro row hrow
    rw [← Bool.not_eq_true]
    intro hacc
    exact h row.routeToken
      (servesLocal_merge_new happ (mem_buildRoutesFiltered.mpr ⟨row, hrow, hacc, rfl⟩))

theorem team_routes_not_local :
    ¬ ServesLocal (Registry.merge ∅ (buildManagedRoutes groupRouting keys revoked)) t := by
  intro h
  obtain ⟨route, hroute, hsrc⟩ := h
  rw [Registry.merge, union_empty] at hroute
  exact hsrc (buildManagedRoutes_lookup hroute).1

/-- **Startup and live sync build the same table, up to the cluster gate**: the two tables agree
token for token, and a cluster node serves team routes only in both, if and only if the node is no
cluster node or its vault has no bearer the filters would accept. -/
theorem startup_matches_rebuild_iff (cfg : RouteConfig) (vault : VaultContent)
    (revoked : Finset String) :
    ((∀ t, (startupRegistry cfg vault revoked).lookup t =
          (rebuildRouteRegistry cfg vault revoked).lookup t) ∧
        (cfg.clusterEnabled = true → ∀ t, ¬ ServesLocal (startupRegistry cfg vault revoked) t ∧
          ¬ ServesLocal (rebuildRouteRegistry cfg vault revoked) t)) ↔
      (cfg.clusterEnabled = true → NoLocalBearers vault) := by
  constructor
  · intro h hcluster
    exact noLocalBearers_of_rebuild fun t => (h.2 hcluster t).2
  · intro h
    cases hcluster : cfg.clusterEnabled with
    | false =>
      refine ⟨fun t => ?_, nofun⟩
      rw [startup_eq_rebuild hcluster]
    | true =>
      have hlocal := h hcluster
      rw [startup_cluster hcluster, rebuild_of_noLocalBearers hlocal]
      exact ⟨fun _ => rfl, fun _ _ => ⟨team_routes_not_local, team_routes_not_local⟩⟩

/-! ## Revoked keys -/

theorem refuses_merge (hreg : reg.Refuses vk) (hroutes : routes.Refuses vk) :
    (reg.merge routes).Refuses vk := by
  intro t route h
  rcases lookup_union_eq_some.mp h with hnew | ⟨-, hold⟩
  · exact hroutes t route hnew
  · exact hreg t route hold

theorem refuses_empty : (∅ : Registry).Refuses vk := by
  intro t route h
  rw [lookup_empty] at h
  cases h

theorem LocalRoutes.refuses (h : LocalRoutes routes) (vk : String) : routes.Refuses vk :=
  fun t route hroute hserve => h t route hroute hserve.1

theorem managed_refuses (hvk : vk ∈ revoked) :
    (Registry.merge ∅ (buildManagedRoutes groupRouting keys revoked)).Refuses vk :=
  refuses_merge refuses_empty fun _ _ h => (buildManagedRoutes_lookup h).2 vk hvk

/-- **Both assembly paths leave out every revoked key.** -/
theorem rebuild_refuses : ∀ vk ∈ revoked, (rebuildRouteRegistry cfg vault revoked).Refuses vk := by
  intro vk hvk
  have hlocal := localRoutes cfg vault
  exact refuses_merge (refuses_merge (refuses_merge (managed_refuses hvk) (hlocal.1.refuses vk))
    (hlocal.2.1.refuses vk)) (hlocal.2.2.refuses vk)

theorem startup_refuses : ∀ vk ∈ revoked, (startupRegistry cfg vault revoked).Refuses vk := by
  intro vk hvk
  cases hcluster : cfg.clusterEnabled with
  | false =>
    rw [startup_eq_rebuild hcluster]
    exact rebuild_refuses vk hvk
  | true =>
    rw [startup_cluster hcluster]
    exact managed_refuses hvk

/-! ## A developer's bearer on a cluster node -/

def noProviders : ProviderRoutes := ⟨fun _ => none, fun _ _ => none, fun _ _ => none⟩

def strayBearer : String :=
  "aikey_personal_0000000000000000000000000000000000000000000000000000000000000000"

def strayVault : VaultContent where
  managedKeys := []
  personalTokens := [⟨"laptop", strayBearer, "openai", ""⟩]
  oauthTokens := []
  appTokens := []

/-- The first rebuild on a cluster node serves the personal bearer that startup had
left out. -/
theorem rebuild_serves_stray_bearer :
    ¬ ∀ (cfg : RouteConfig) (vault : VaultContent) (revoked : Finset String),
      (∀ t, (startupRegistry cfg vault revoked).lookup t =
          (rebuildRouteRegistry cfg vault revoked).lookup t) ∧
        (cfg.clusterEnabled = true → ∀ t, ¬ ServesLocal (startupRegistry cfg vault revoked) t ∧
          ¬ ServesLocal (rebuildRouteRegistry cfg vault revoked) t) := by
  intro h
  have heq := (h ⟨noProviders, false, true⟩ strayVault ∅).1 strayBearer
  exact absurd heq (by decide)

end AikeyProxy.Supervisor
