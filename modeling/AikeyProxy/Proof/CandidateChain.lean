import AikeyProxy.Proxy.CandidateChain

/-!
# One route group per chain

A chain may fail over when its first candidate belongs to a route group and it has more
than one candidate. Nothing in `chainFrom` looks at the group of the others, so the chain
stays inside one group exactly when the bindings for the protocol do.
-/

namespace AikeyProxy.Proxy

open Lib Supervisor CandidateChain

variable {equalFold : String → String → Bool} {route : ResolvedRoute}
  {pin : Option ProviderBinding} {requestedProtocol : String} {chain : CandidateChain}

def CandidateChain.InOneGroup (c : CandidateChain) : Prop :=
  ∃ g, g ≠ "" ∧ ∀ b ∈ c.candidates, b.routeGroupID = g

section

variable (equalFold : String → String → Bool) (route : ResolvedRoute)
  (pin : Option ProviderBinding) (requestedProtocol : String)

/-- If the chain built for a request may fail over, it stays inside one route group. -/
def FailsOverInGroup : Prop :=
  ∀ chain, chainFrom equalFold (some route) pin requestedProtocol = .ok chain →
    chain.canFailover = true → chain.InOneGroup

/-- Where no pin restricts the request, several hops are left for the protocol and their order is
unambiguous, all of them are in the group of the first one of least priority, or that one is in
none. -/
def HopsInGroup : Prop :=
  pinnedChain equalFold route pin = none →
  1 < (chainHops equalFold route requestedProtocol).length →
  duplicatePriority (chainHops equalFold route requestedProtocol) = none →
  ∀ b, FirstLeast RouteBinding.priority (chainHops equalFold route requestedProtocol) b →
    b.routeGroupID ≠ "" →
    ∀ c ∈ chainHops equalFold route requestedProtocol, c.routeGroupID = b.routeGroupID

end

/-! ## Which chains may fail over -/

theorem pinnedChain_single (h : pinnedChain equalFold route pin = some chain) :
    ∃ c, chain.candidates = [c] := by
  revert h
  fun_cases pinnedChain equalFold route pin <;> intro h
  case case3 =>
    obtain ⟨c, -, rfl⟩ := Option.map_eq_some_iff.mp h
    exact ⟨c, rfl⟩
  all_goals cases h
  exact ⟨_, rfl⟩

theorem canFailover_single {c : RouteBinding} (h : chain.candidates = [c]) :
    chain.canFailover = false := by
  rw [canFailover, h, List.length_singleton, decide_eq_false (Nat.lt_irrefl 1),
    Bool.and_false]

def orderedChain (hops : List RouteBinding) : CandidateChain :=
  let ordered := sortBy RouteBinding.priority hops
  let groupID := (ordered.head?.map RouteBinding.routeGroupID).getD ""
  ⟨ordered, false, groupID ≠ "", groupID, (ordered.head?.map RouteBinding.routeGroupName).getD ""⟩

variable {hops : List RouteBinding}

theorem canFailover_orderedChain :
    (orderedChain hops).canFailover = true ↔
      1 < hops.length ∧ ∃ b, FirstLeast RouteBinding.priority hops b ∧ b.routeGroupID ≠ "" := by
  simp only [canFailover, orderedChain, Bool.not_false, Bool.true_and,
    Bool.and_eq_true, decide_eq_true_eq, length_sortBy]
  constructor
  · rintro ⟨hgroup, hlen⟩
    refine ⟨hlen, ?_⟩
    cases hhead : (sortBy RouteBinding.priority hops).head? with
    | none => rw [hhead] at hgroup; exact absurd rfl hgroup
    | some b =>
      rw [hhead] at hgroup
      exact ⟨b, firstLeast_of_head? hhead, hgroup⟩
  · rintro ⟨hlen, b, hb, hgroup⟩
    rw [head?_of_firstLeast hb]
    exact ⟨hgroup, hlen⟩

theorem inOneGroup_orderedChain {b : RouteBinding} (hb : FirstLeast RouteBinding.priority hops b)
    (hgroup : b.routeGroupID ≠ "") :
    (orderedChain hops).InOneGroup ↔ ∀ c ∈ hops, c.routeGroupID = b.routeGroupID := by
  have hmem : b ∈ hops := by
    obtain ⟨before, after, rfl, -⟩ := hb
    simp
  constructor
  · rintro ⟨g, -, hall⟩ c hc
    rw [hall c (mem_sortBy.mpr hc), hall b (mem_sortBy.mpr hmem)]
  · intro hall
    exact ⟨b.routeGroupID, hgroup, fun c hc => hall c (mem_sortBy.mp hc)⟩

theorem chainFrom_cases
    (hchain : chainFrom equalFold (some route) pin requestedProtocol = .ok chain) :
    (∃ c, chain.candidates = [c]) ∨
      (pinnedChain equalFold route pin = none ∧
        protocolBindings equalFold route requestedProtocol ≠ [] ∧
        duplicatePriority (chainHops equalFold route requestedProtocol) = none ∧
        chain = orderedChain (chainHops equalFold route requestedProtocol)) := by
  unfold chainFrom at hchain
  dsimp only at hchain
  split at hchain
  · -- the route itself is the only candidate
    cases hchain
    exact .inl ⟨_, rfl⟩
  · split at hchain
    next pinned hpin =>
      cases hchain
      exact .inl (pinnedChain_single hpin)
    next hpin =>
      split at hchain
      · cases hchain
      next hkept =>
        split at hchain
        · cases hchain
        next hdup =>
          cases hchain
          exact .inr ⟨hpin, hkept, hdup, rfl⟩

theorem chainFrom_canFailover
    (hchain : chainFrom equalFold (some route) pin requestedProtocol = .ok chain)
    (hfail : chain.canFailover = true) :
    pinnedChain equalFold route pin = none ∧
    duplicatePriority (chainHops equalFold route requestedProtocol) = none ∧
    chain = orderedChain (chainHops equalFold route requestedProtocol) := by
  rcases chainFrom_cases hchain with ⟨c, hsingle⟩ | ⟨hpin, -, hdup, horder⟩
  · rw [canFailover_single hsingle] at hfail
    cases hfail
  · exact ⟨hpin, hdup, horder⟩

theorem collapse_nil : collapseOauthGroups [] = [] := rfl

theorem chainFrom_ordered (hpin : pinnedChain equalFold route pin = none)
    (hlen : 1 < (chainHops equalFold route requestedProtocol).length)
    (hdup : duplicatePriority (chainHops equalFold route requestedProtocol) = none) :
    chainFrom equalFold (some route) pin requestedProtocol =
      .ok (orderedChain (chainHops equalFold route requestedProtocol)) := by
  have hkept : protocolBindings equalFold route requestedProtocol ≠ [] := by
    intro hnil
    rw [chainHops, hnil, collapse_nil] at hlen
    cases hlen
  have hbindings : route.bindings ≠ [] := by
    intro hnil
    exact hkept (by rw [protocolBindings, hnil]; rfl)
  unfold chainFrom
  dsimp only
  rw [if_neg hbindings, hpin]
  dsimp only
  rw [if_neg hkept, hdup]
  rfl

theorem failover_in_one_group_iff (equalFold : String → String → Bool) (route : ResolvedRoute)
    (pin : Option ProviderBinding) (requestedProtocol : String) :
    FailsOverInGroup equalFold route pin requestedProtocol ↔
      HopsInGroup equalFold route pin requestedProtocol := by
  constructor
  · intro h hpin hlen hdup b hb hgroup
    have hchain := chainFrom_ordered hpin hlen hdup
    have hfail := canFailover_orderedChain.mpr ⟨hlen, b, hb, hgroup⟩
    exact (inOneGroup_orderedChain hb hgroup).mp (h _ hchain hfail)
  · intro h chain hchain hfail
    obtain ⟨hpin, hdup, rfl⟩ := chainFrom_canFailover hchain hfail
    obtain ⟨hlen, b, hb, hgroup⟩ := canFailover_orderedChain.mp hfail
    exact (inOneGroup_orderedChain hb hgroup).mpr (h hpin hlen hdup b hb hgroup)

/-- A key with a primary in a route group and a second binding of its own. -/
def mixedRoute : ResolvedRoute where
  virtualKeyID := "vk"
  routeSource := .team
  bindings :=
    [{ virtualKeyID := "vk", routeSource := .team, providerCode := "anthropic",
       protocolType := "anthropic", priority := 1, routeGroupID := "g" },
     { virtualKeyID := "vk", routeSource := .team, providerCode := "glm",
       protocolType := "anthropic", priority := 1 }]

/-- The second binding has no route group, and the chain may fail over to it. -/
theorem failover_leaves_group :
    ¬ ∀ (equalFold : String → String → Bool) (route : ResolvedRoute)
      (pin : Option ProviderBinding) (requestedProtocol : String),
      FailsOverInGroup equalFold route pin requestedProtocol := by
  intro hall
  obtain ⟨g, hne, hgroup⟩ := hall (· == ·) mixedRoute none "anthropic"
    (orderedChain mixedRoute.bindings) (by rfl) (by decide)
  have hlast := hgroup mixedRoute.bindings[1] (by decide)
  exact hne hlast.symm

end AikeyProxy.Proxy
