import AikeyProxy.Proxy.CandidateChain

/-!
# Reports of an ambiguous order

`chainFrom` reports an ambiguity exactly when some route group has two hops at one priority. The
group it names is found by a second scan that looks at the priority alone: it is the group of the
first grouped hop there, which need not be the one that clashes.
-/

namespace AikeyProxy.Proxy

open Lib Supervisor List

variable {equalFold : String → String → Bool} {route : ResolvedRoute}
  {pin : Option ProviderBinding} {requestedProtocol : String} {hops : List RouteBinding}

/-- A route group with at least two hops at a priority. -/
def ClashesAt (hops : List RouteBinding) (group : String) (priority : Int) : Prop :=
  group ≠ "" ∧ 2 ≤ hops.countP fun c => c.routeGroupID = group ∧ c.priority = priority

/-- A report names a group that clashes, and unless a pin decides every clash is reported. -/
structure ReportsAccurate (equalFold : String → String → Bool) (route : ResolvedRoute)
    (pin : Option ProviderBinding) (requestedProtocol : String) : Prop where
  names : ∀ group priority,
    chainFrom equalFold (some route) pin requestedProtocol = .error (.ambiguous group priority) →
    ClashesAt (chainHops equalFold route requestedProtocol) group priority
  reports : pinnedChain equalFold route pin = none →
    ∀ group priority, ClashesAt (chainHops equalFold route requestedProtocol) group priority →
    ∃ group' priority', chainFrom equalFold (some route) pin requestedProtocol =
      .error (.ambiguous group' priority')

/-- At the priority of the first clash, the first hop of any route group is of a group that
clashes there. -/
def FirstGroupClashes (equalFold : String → String → Bool) (route : ResolvedRoute)
    (pin : Option ProviderBinding) (requestedProtocol : String) : Prop :=
  pinnedChain equalFold route pin = none →
  ∀ priority first,
    duplicatePriority (chainHops equalFold route requestedProtocol) = some priority →
    (chainHops equalFold route requestedProtocol).find?
      (fun c => c.routeGroupID ≠ "" ∧ c.priority = priority) = some first →
    ClashesAt (chainHops equalFold route requestedProtocol) first.routeGroupID priority

/-! ## The scan for a clash -/

/-- The places in route groups that the hops claim. -/
def places (hops : List RouteBinding) : List (String × Int) :=
  (hops.filter fun c => c.routeGroupID ≠ "").map fun c => (c.routeGroupID, c.priority)

theorem places_cons (c : RouteBinding) (rest : List RouteBinding) :
    places (c :: rest) =
      if c.routeGroupID = "" then places rest else (c.routeGroupID, c.priority) :: places rest := by
  by_cases hgroup : c.routeGroupID = "" <;> simp [places, hgroup]

theorem duplicateLoop_none {seen : List (String × Int)} :
    duplicateLoop seen hops = none ↔ (places hops).Nodup ∧ ∀ x ∈ places hops, x ∉ seen := by
  fun_induction duplicateLoop seen hops with
  | case1 => simp [places]
  | case2 seen c rest hnone ih => rw [places_cons, if_pos hnone, ih]
  | case3 seen c rest hsome hdup =>
    rw [places_cons, if_neg hsome]
    exact ⟨nofun, fun h => absurd hdup (h.2 _ mem_cons_self)⟩
  | case4 seen c rest hsome hnew ih =>
    rw [places_cons, if_neg hsome, ih, nodup_cons]
    simp only [mem_cons, not_or, forall_eq_or_imp]
    constructor
    · intro h
      exact ⟨⟨fun hmem => (h.2 _ hmem).1 rfl, h.1⟩, hnew, fun x hx => (h.2 x hx).2⟩
    · intro h
      exact ⟨h.1.2, fun x hx => ⟨fun heq => h.1.1 (heq ▸ hx), h.2.2 x hx⟩⟩

theorem duplicatePriority_eq : duplicatePriority hops = duplicateLoop [] hops := by
  unfold duplicatePriority
  split
  next hshort =>
    symm
    rw [duplicateLoop_none]
    have hlen : (places hops).length ≤ 1 := by
      have := length_filter_le (fun c : RouteBinding => decide (c.routeGroupID ≠ "")) hops
      rw [places, length_map]
      omega
    exact ⟨nodup_iff_count_le_one.mpr fun a => count_le_length.trans hlen, by simp⟩
  · rfl

theorem count_places {group : String} {priority : Int} (hgroup : group ≠ "") :
    (places hops).count (group, priority) =
      hops.countP fun c => c.routeGroupID = group ∧ c.priority = priority := by
  rw [places, List.count, countP_map, countP_filter]
  refine countP_congr fun c _ => ?_
  simp only [Function.comp_apply, Bool.and_eq_true, decide_eq_true_eq, beq_iff_eq, Prod.mk.injEq]
  exact ⟨fun h => h.1, fun h => ⟨h, h.1 ▸ hgroup⟩⟩

/-- **A clash is found exactly when there is one.** -/
theorem duplicatePriority_none :
    duplicatePriority hops = none ↔ ∀ group priority, ¬ ClashesAt hops group priority := by
  rw [duplicatePriority_eq, duplicateLoop_none, nodup_iff_count_le_one]
  constructor
  · intro h group priority hclash
    have hcount := h.1 (group, priority)
    rw [count_places hclash.1] at hcount
    exact absurd hclash.2 (by omega)
  · intro h
    refine ⟨fun (group, priority) => ?_, fun _ _ => not_mem_nil⟩
    by_cases hgroup : group = ""
    · have hno : (group, priority) ∉ places hops := by simp +contextual [places, hgroup]
      rw [count_eq_zero_of_not_mem hno]
      exact Nat.zero_le 1
    · rw [count_places hgroup]
      by_contra hmore
      exact h group priority ⟨hgroup, by omega⟩

/-! ## The report -/

theorem chainFrom_ambiguous {group : String} {priority : Int} :
    chainFrom equalFold (some route) pin requestedProtocol = .error (.ambiguous group priority) ↔
      pinnedChain equalFold route pin = none ∧
      duplicatePriority (chainHops equalFold route requestedProtocol) = some priority ∧
      groupIDAtPriority (chainHops equalFold route requestedProtocol) priority = group := by
  have hnone : protocolBindings equalFold route requestedProtocol = [] →
      duplicatePriority (chainHops equalFold route requestedProtocol) = none := by
    intro hkept
    rw [chainHops, hkept]
    rfl
  unfold chainFrom
  dsimp only
  split
  next hbindings =>
    have hkept : protocolBindings equalFold route requestedProtocol = [] := by
      rw [protocolBindings, hbindings]
      rfl
    simp [hnone hkept]
  · split
    next hpin => simp [hpin]
    next hpin =>
      split
      next hkept => simp [hnone hkept]
      · split
        next dup hdup =>
          simp only [Except.error.injEq, ChainError.ambiguous.injEq, hpin, hdup, Option.some.injEq,
            true_and]
          exact ⟨fun h => ⟨h.2, h.2 ▸ h.1⟩, fun h => ⟨h.1 ▸ h.2, h.1⟩⟩
        next hdup => simp [hdup]

theorem exists_first {priority : Int} (hdup : duplicatePriority hops = some priority) :
    ∃ first, hops.find? (fun c => c.routeGroupID ≠ "" ∧ c.priority = priority) = some first := by
  rw [← Option.isSome_iff_exists, find?_isSome]
  rw [duplicatePriority_eq] at hdup
  generalize ([] : List (String × Int)) = seen at hdup
  fun_induction duplicateLoop seen hops with
  | case1 => cases hdup
  | case2 seen c rest _ ih =>
    obtain ⟨x, hx, hat⟩ := ih hdup
    exact ⟨x, mem_cons_of_mem c hx, hat⟩
  | case3 seen c rest hsome _ =>
    exact ⟨c, mem_cons_self, by simpa [hsome] using Option.some.inj hdup⟩
  | case4 seen c rest _ _ ih =>
    obtain ⟨x, hx, hat⟩ := ih hdup
    exact ⟨x, mem_cons_of_mem c hx, hat⟩

theorem ambiguity_reports_iff (equalFold : String → String → Bool) (route : ResolvedRoute)
    (pin : Option ProviderBinding) (requestedProtocol : String) :
    ReportsAccurate equalFold route pin requestedProtocol ↔
      FirstGroupClashes equalFold route pin requestedProtocol := by
  constructor
  · intro h hpin priority first hdup hfirst
    refine h.names _ _ (chainFrom_ambiguous.mpr ⟨hpin, hdup, ?_⟩)
    rw [groupIDAtPriority, hfirst]
    rfl
  · intro h
    refine ⟨fun group priority hrep => ?_, fun hpin group priority hclash => ?_⟩
    · obtain ⟨hpin, hdup, rfl⟩ := chainFrom_ambiguous.mp hrep
      obtain ⟨first, hfirst⟩ := exists_first hdup
      rw [groupIDAtPriority, hfirst]
      exact h hpin priority first hdup hfirst
    · cases hdup : duplicatePriority (chainHops equalFold route requestedProtocol) with
      | none => exact absurd hclash (duplicatePriority_none.mp hdup group priority)
      | some dup => exact ⟨_, dup, chainFrom_ambiguous.mpr ⟨hpin, hdup, rfl⟩⟩

/-- A key with one binding of group `a` and two of group `b`, all at the first place. -/
def clashRoute : ResolvedRoute where
  virtualKeyID := "vk"
  routeSource := .team
  bindings := ["a", "b", "b"].map fun group =>
    { virtualKeyID := "vk", routeSource := .team, protocolType := "anthropic", priority := 1,
      routeGroupID := group }

/-- The two bindings of group `b` clash, and the report names group `a`. -/
theorem wrong_group_named :
    ¬ ∀ (equalFold : String → String → Bool) (route : ResolvedRoute)
      (pin : Option ProviderBinding) (requestedProtocol : String),
      ReportsAccurate equalFold route pin requestedProtocol := by
  intro hall
  have hnamed := (hall (· == ·) clashRoute none "anthropic").names "a" 1 rfl
  exact absurd hnamed.2 (by decide)

end AikeyProxy.Proxy
