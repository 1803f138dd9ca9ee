import AikeyProxy.Supervisor.Routes
import AikeyProxy.Lib.StableSort
import AikeyProxy.Lib.Json

/-!
# The candidate chain of a request

`chainFrom` turns the bindings of a virtual key into the ordered list of upstreams one request may
try: a local pin may restrict it to one binding; otherwise the bindings for the requested protocol
are kept, the rows of each account pool are reduced to one, and the rest is sorted by priority.
Whether the request may switch upstreams is read off the first candidate.
-/

namespace AikeyProxy.Proxy

open Lib Supervisor

/-- The pin row `aikey use` wrote for the request's profile. -/
structure ProviderBinding where
  keySourceType : String
  keySourceRef : String
  providerCode : String
  protocolType : String
  routeGroupID : String

inductive PinScope where
  | legacy
  | group
  | member

def derivePinScope (routeGroupID bindingProviderCode : String) : PinScope :=
  if routeGroupID = "" then .legacy
  else if bindingProviderCode = "" then .group
  else .member

structure CandidateChain where
  candidates : List RouteBinding
  pinned : Bool
  grouped : Bool
  groupID : String
  groupName : String

def CandidateChain.canFailover (c : CandidateChain) : Bool :=
  !c.pinned && c.grouped && decide (1 < c.candidates.length)

inductive ExhaustedCode where
  | fallbackUnconfigured
  | fallbackExhausted

def CandidateChain.exhaustedCode (c : CandidateChain) : ExhaustedCode :=
  if c.grouped && c.candidates.length == 1 then .fallbackUnconfigured else .fallbackExhausted

inductive ChainError where
  | noRoute
  | noBinding (requestedProtocol : String)
  | ambiguous (routeGroupID : String) (priority : Int)

/-- The text of an error; `quote` is the formatting of `%q`. -/
def ChainError.message (quote : String → String) : ChainError → String
  | .noRoute => "no route"
  | .noBinding p => "managed token has no binding for protocol " ++ quote p
  | .ambiguous g p =>
    "route group " ++ quote g ++ " has two entries at position " ++ toString p ++
      ", so its order is undefined. Ask an administrator to re-save that group's order in the " ++
      "console; the local vault copy may also be out of date (run \x60aikey key sync\x60)"

/-! ## Account pools -/

def isNonemptyArray (text : String) : Bool :=
  match Json.parse text.toList with
  | some (.arr (_ :: _)) => true
  | _ => false

def poolCandidateRank (r : RouteBinding) : Nat :=
  (if r.providerCode ≠ "" then 1 else 0) + if isNonemptyArray r.groupAccounts then 1 else 0

/-- One turn of the loop of `collapseOauthGroups`: `best` has the place of each pool seen. -/
def collapseStep (s : Table String Nat × List RouteBinding) (c : RouteBinding) :
    Table String Nat × List RouteBinding :=
  if c.oauthGroupID = "" then (s.1, s.2 ++ [c])
  else
    match s.1.lookup c.oauthGroupID with
    | none => (s.1.insert c.oauthGroupID s.2.length, s.2 ++ [c])
    | some place =>
      match s.2[place]? with
      | none => s
      | some old => if poolCandidateRank c > poolCandidateRank old then (s.1, s.2.set place c) else s

def collapseOauthGroups (candidates : List RouteBinding) : List RouteBinding :=
  (candidates.foldl collapseStep (∅, [])).2

/-! ## Ambiguous priorities -/

/-- The loop of `duplicatePriority`, with the pairs seen so far. -/
def duplicateLoop (seen : List (String × Int)) : List RouteBinding → Option Int
  | [] => none
  | c :: rest =>
    if c.routeGroupID = "" then duplicateLoop seen rest
    else if (c.routeGroupID, c.priority) ∈ seen then some c.priority
    else duplicateLoop ((c.routeGroupID, c.priority) :: seen) rest

def duplicatePriority (candidates : List RouteBinding) : Option Int :=
  if candidates.length < 2 then none else duplicateLoop [] candidates

def groupIDAtPriority (candidates : List RouteBinding) (priority : Int) : String :=
  ((candidates.find? fun c => c.routeGroupID ≠ "" ∧ c.priority = priority).map
    RouteBinding.routeGroupID).getD ""

/-! ## The chain -/

section

-- `strings.EqualFold`; nothing here depends on how it folds
variable (equalFold : String → String → Bool)

def pinMatch (route : ResolvedRoute) (pin : ProviderBinding) : Option RouteBinding :=
  route.bindings.find? fun c =>
    equalFold c.providerCode pin.providerCode &&
      (pin.protocolType == "" || equalFold c.protocolType pin.protocolType)

def ProviderBinding.applies (pin : ProviderBinding) (route : ResolvedRoute) : Bool :=
  (pin.keySourceType == "team" || pin.keySourceType == "managed_virtual_key") &&
    pin.keySourceRef == route.virtualKeyID

/-- The chain of one hop that a pin asks for, if it restricts the request at all. -/
def pinnedChain (route : ResolvedRoute) (pin : Option ProviderBinding) :
    Option CandidateChain :=
  match pin with
  | none => none
  | some pin =>
    if !pin.applies route then none
    else
      match derivePinScope pin.routeGroupID pin.providerCode with
      | .member =>
        -- A pinned hop that is no longer there leaves the whole chain.
        (pinMatch equalFold route pin).map fun c =>
          ⟨[c], true, c.routeGroupID ≠ "", c.routeGroupID, c.routeGroupName⟩
      | .legacy =>
        -- A pin from before route groups restricts nothing once its binding is in one.
        match pinMatch equalFold route pin with
        | none => none
        | some c => if c.routeGroupID ≠ "" then none else some ⟨[c], true, false, "", ""⟩
      | .group => none

def protocolBindings (route : ResolvedRoute) (requestedProtocol : String) : List RouteBinding :=
  route.bindings.filter fun c =>
    requestedProtocol == "" || equalFold c.protocolType requestedProtocol

def chainHops (route : ResolvedRoute) (requestedProtocol : String) : List RouteBinding :=
  collapseOauthGroups (protocolBindings equalFold route requestedProtocol)

def chainFrom (route : Option ResolvedRoute) (pin : Option ProviderBinding)
    (requestedProtocol : String) : Except ChainError CandidateChain :=
  match route with
  | none => .error .noRoute
  | some route =>
    if route.bindings = [] then
      .ok ⟨[route.toRouteBinding], false, route.routeGroupID ≠ "", route.routeGroupID,
        route.routeGroupName⟩
    else
      match pinnedChain equalFold route pin with
      | some chain => .ok chain
      | none =>
        if protocolBindings equalFold route requestedProtocol = [] then
          .error (.noBinding requestedProtocol)
        else
          let candidates := chainHops equalFold route requestedProtocol
          match duplicatePriority candidates with
          | some dup => .error (.ambiguous (groupIDAtPriority candidates dup) dup)
          | none =>
            let ordered := sortBy RouteBinding.priority candidates
            let groupID := (ordered.head?.map RouteBinding.routeGroupID).getD ""
            .ok ⟨ordered, false, groupID ≠ "", groupID,
              (ordered.head?.map RouteBinding.routeGroupName).getD ""⟩

end

end AikeyProxy.Proxy
