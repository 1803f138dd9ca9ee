import AikeyProxy.Lib.Groups
import AikeyProxy.Lib.Table
import Mathlib.Data.Finset.Basic
import Mathlib.Data.List.DropRight
import Mathlib.Data.List.Sort

/-!
# From vault rows to the route registry

The four builders, the form filter on tokens, and the two places that assemble the table from bearer
tokens to routes. `buildGeneration` fills a fresh registry when a generation starts;
`rebuildRouteRegistry` replaces that of a running one.
-/

namespace AikeyProxy.Supervisor

open Lib

/-! ## Vault rows -/

/-- A team-managed virtual key as the vault returns it. The per-provider URL map
of the record is not read by any route builder. -/
structure ManagedKey where
  virtualKeyID : String
  localAlias : String := ""
  providerCode : String := ""
  protocolType : String := ""
  baseURL : String := ""
  plaintextKey : String := ""
  orgID : String := ""
  seatID : String := ""
  credentialID : String := ""
  credentialRevision : String := ""
  virtualKeyRevision : String := ""
  ownerAccountID : String := ""
  oauthGroupID : String := ""
  groupAccounts : String := ""
  groupRuntime : String := ""
  routingConfig : String := ""
  priority : Int := 0
  fallbackRole : String := ""
  routeGroupID : String := ""
  routeGroupName : String := ""
  bindingID : String := ""

structure PersonalRouteToken where
  aliasName : String
  routeToken : String
  providerCode : String
  baseURL : String

structure OAuthRouteToken where
  accountID : String
  routeToken : String
  provider : String
  protocolType : String
  identity : String

structure AppRouteToken where
  keyID : String
  appSlug : String
  routeToken : String
  appKind : String
  followUserActive : Bool

structure VaultContent where
  managedKeys : List ManagedKey
  personalTokens : List PersonalRouteToken
  oauthTokens : List OAuthRouteToken
  appTokens : List AppRouteToken

/-! ## Routes -/

inductive RouteSource where
  | team | personal | oauth | app
  deriving DecidableEq

/-- A route without its `Bindings`: what a member of a multi-binding route is. -/
structure RouteBinding where
  virtualKeyID : String
  provider : String := ""
  baseURL : String := ""
  keyAlias : String := ""
  plaintextKey : String := ""
  orgID : String := ""
  accountID : String := ""
  seatID : String := ""
  providerCode : String := ""
  protocolType : String := ""
  credentialID : String := ""
  credentialRevision : String := ""
  virtualKeyRevision : String := ""
  routeSource : RouteSource
  priority : Int := 0
  fallbackRole : String := ""
  routeGroupID : String := ""
  routeGroupName : String := ""
  bindingID : String := ""
  oauthGroupID : String := ""
  groupAccounts : String := ""
  groupRuntime : String := ""
  routingConfig : String := ""
  oauthIdentity : String := ""
  appSlug : String := ""
  appKind : String := ""
  appKeyID : String := ""
  followUserActive : Bool := false
  deriving DecidableEq

/-- A registered route. The members of `bindings` have none of their own. -/
structure ResolvedRoute extends RouteBinding where
  bindings : List RouteBinding := []
  deriving DecidableEq

/-- The registry's `byToken` map. -/
abbrev Registry := Table String ResolvedRoute

/-- `Merge`, and the loops that copy a route set into `allRoutes`. -/
def Registry.merge (reg routes : Registry) : Registry := routes ∪ reg

/-- The guard of the startup path: a route set is merged only when it has a route. -/
def Registry.mergeIfAny (reg routes : Registry) : Registry :=
  if routes.entries.length > 0 then reg.merge routes else reg

/-- A team route serves a virtual key that is its own or a binding's. -/
def ServesKey (route : ResolvedRoute) (vk : String) : Prop :=
  route.routeSource = .team ∧
    (route.virtualKeyID = vk ∨ ∃ b ∈ route.bindings, b.virtualKeyID = vk)

/-- No token of the registry leads to a route that serves the virtual key. -/
def Registry.Refuses (reg : Registry) (vk : String) : Prop :=
  ∀ t route, reg.lookup t = some route → ¬ ServesKey route vk

/-- The provider tables: the protocol registered for a base URL, the protocol family of a provider
code, and the upstream URL of a provider and protocol. -/
structure ProviderRoutes where
  lookupByBaseURL : String → Option String
  protocolFamily : String → String → Option String
  effectiveUpstream : String → String → Option String

/-! ## Token forms -/

def isSpace (c : Char) : Bool :=
  c.toNat ∈ [0x09, 0x0a, 0x0b, 0x0c, 0x0d, 0x20, 0x85, 0xa0, 0x1680, 0x2028, 0x2029, 0x202f,
    0x205f, 0x3000] || (0x2000 ≤ c.toNat && c.toNat ≤ 0x200a)

/-- `strings.TrimSpace`, on the characters of a string. -/
def trimSpace (s : List Char) : List Char := (s.dropWhile isSpace).rdropWhile isSpace

/-- `strings.EqualFold` against a word of ASCII letters none of which folds to a
letter outside ASCII, as in `effectiveStatusActive`. -/
def equalFold (s word : String) : Bool := s.toList.map Char.toLower == word.toList.map Char.toLower

/-- `strings.CutPrefix`, on the characters of a string. -/
def cutFront (s front : List Char) : Option (List Char) :=
  if front.isPrefixOf s then some (s.drop front.length) else none

def stripKnownPrefix (s : List Char) : Option (List Char) :=
  (cutFront s "aikey_team_".toList).or (cutFront s "aikey_vk_".toList)

/-- The strip loop of `NormalizeTeamToken`. Every strip takes characters off, so a fuel of the
length is never used up (`stripKnownPrefixes_done`). -/
def stripKnownPrefixes : Nat → List Char → List Char
  | 0, s => s
  | fuel + 1, s =>
    match stripKnownPrefix s with
    | none => s
    | some stripped => stripKnownPrefixes fuel (trimSpace stripped)

inductive NormalizeError where
  | emptyVkID

def normalizeTeamToken (raw : String) : Except NormalizeError String :=
  let trimmed := trimSpace raw.toList
  let bare := stripKnownPrefixes trimmed.length trimmed
  if bare = [] then .error .emptyVkID else .ok ("aikey_team_" ++ String.ofList bare)

def isLowerHex (c : Char) : Bool := ('0' ≤ c && c ≤ '9') || ('a' ≤ c && c ≤ 'f')

/-- The suffix is counted in characters here and in bytes in the source, which agree on every token
that is accepted. -/
def hasStrictHex64Suffix (token front : String) : Bool :=
  match cutFront token.toList front.toList with
  | none => false
  | some suffix => suffix.length = 64 && suffix.all isLowerHex

def isStrictPersonalRouteToken (token : String) : Bool :=
  hasStrictHex64Suffix token "aikey_personal_"

def isStrictAppRouteToken (token : String) : Bool :=
  hasStrictHex64Suffix token "aikey_app_"

def firstPartyAppBearerWhitelist : List String := ["aikey_app_internal_degrade_detector_v1"]

def isFirstPartyAppBearer (token : String) : Bool := token ∈ firstPartyAppBearerWhitelist

/-! ## Route builders -/

def managedKeyToRoute (mk : ManagedKey) : RouteBinding where
  -- The adapter is chosen by protocol; the provider keeps its own field.
  virtualKeyID := mk.virtualKeyID
  provider := mk.protocolType
  baseURL := mk.baseURL
  keyAlias := mk.localAlias
  plaintextKey := mk.plaintextKey
  orgID := mk.orgID
  accountID := mk.ownerAccountID
  seatID := mk.seatID
  providerCode := mk.providerCode
  protocolType := mk.protocolType
  credentialID := mk.credentialID
  credentialRevision := mk.credentialRevision
  virtualKeyRevision := mk.virtualKeyRevision
  routeSource := .team
  priority := mk.priority
  fallbackRole := mk.fallbackRole
  routeGroupID := mk.routeGroupID
  routeGroupName := mk.routeGroupName
  bindingID := mk.bindingID
  oauthGroupID := mk.oauthGroupID
  groupAccounts := mk.groupAccounts
  groupRuntime := mk.groupRuntime
  routingConfig := mk.routingConfig

/-- The comparison the bindings of one token are sorted by. -/
def bindingLess (a b : RouteBinding) : Bool :=
  if a.priority ≠ b.priority then a.priority < b.priority
  else if a.providerCode ≠ b.providerCode then a.providerCode < b.providerCode
  else a.protocolType < b.protocolType

def sortBindings (bindings : List RouteBinding) : List RouteBinding :=
  bindings.insertionSort fun a b => bindingLess b a = false

/-- The route of one token. Several bindings make a container, on which the
fields that would let it be dispatched unselected are blank. -/
def routeOfBindings : List RouteBinding → Option ResolvedRoute
  | [] => none
  | [b] => some { toRouteBinding := b }
  | b :: rest =>
    some { toRouteBinding := { b with
             provider := "", providerCode := "", protocolType := "", baseURL := "",
             plaintextKey := "", credentialID := "" }
           bindings := b :: rest }

/-- The token and binding of one team key, unless the key is revoked, is of an OAuth group while
group routing is off, or has no usable id. -/
def managedRow (groupRouting : Bool) (revoked : Finset String) (mk : ManagedKey) :
    Option (String × RouteBinding) :=
  if mk.virtualKeyID ∈ revoked then none
  else if mk.oauthGroupID ≠ "" ∧ groupRouting = false then none
  else
    match normalizeTeamToken mk.virtualKeyID with
    | .error _ => none
    | .ok token => some (token, managedKeyToRoute mk)

/-- The bindings of one token, as the map of lists `grouped` holds them, become
one row of the result. -/
def managedGroupRow (group : String × List (String × RouteBinding)) :
    Option (String × ResolvedRoute) :=
  (routeOfBindings (sortBindings (group.2.map Prod.snd))).map fun route => (group.1, route)

def buildManagedRoutes (groupRouting : Bool) (keys : List ManagedKey) (revoked : Finset String) :
    Registry :=
  assignAll ∅ ((groupBy Prod.fst (keys.filterMap (managedRow groupRouting revoked))).filterMap
    managedGroupRow)

section

variable (prov : ProviderRoutes)

def personalTokenToRoute (pt : PersonalRouteToken) : ResolvedRoute where
  virtualKeyID := "personal:" ++ pt.aliasName
  provider := pt.providerCode
  baseURL := pt.baseURL
  keyAlias := pt.aliasName
  providerCode := pt.providerCode
  protocolType :=
    ((prov.lookupByBaseURL pt.baseURL).or (prov.protocolFamily pt.providerCode "")).getD ""
  routeSource := .personal

def oauthProtocol (ot : OAuthRouteToken) : String :=
  if ot.protocolType = "" then (prov.protocolFamily ot.provider "").getD "" else ot.protocolType

def providerBaseURLForProtocol (providerCode protocolType : String) : String :=
  (prov.effectiveUpstream providerCode protocolType).getD ""

def oauthTokenToRoute (ot : OAuthRouteToken) : ResolvedRoute where
  virtualKeyID := "oauth:" ++ ot.accountID
  provider := ot.provider
  baseURL := providerBaseURLForProtocol prov ot.provider (oauthProtocol prov ot)
  keyAlias := "__oauth__"
  providerCode := ot.provider
  protocolType := oauthProtocol prov ot
  accountID := ot.accountID
  oauthIdentity := ot.identity
  routeSource := .oauth

def appRouteTokenToRoute (row : AppRouteToken) : ResolvedRoute where
  virtualKeyID := "app:" ++ row.appSlug
  routeSource := .app
  appSlug := row.appSlug
  appKind := row.appKind
  appKeyID := row.keyID
  followUserActive := row.followUserActive

/-- The three filtered builders: rows whose token has the right form, each under
its token. -/
def buildRoutesFiltered {R : Type} (accepts : String → Bool) (token : R → String)
    (toRoute : R → ResolvedRoute) (rows : List R) : Registry :=
  assignAll ∅ ((rows.filter fun row => accepts (token row)).map fun row => (token row, toRoute row))

def buildPersonalRoutesFiltered (tokens : List PersonalRouteToken) : Registry :=
  buildRoutesFiltered isStrictPersonalRouteToken PersonalRouteToken.routeToken
    (personalTokenToRoute prov) tokens

def buildOAuthRoutesFiltered (tokens : List OAuthRouteToken) : Registry :=
  buildRoutesFiltered isStrictPersonalRouteToken OAuthRouteToken.routeToken
    (oauthTokenToRoute prov) tokens

end

def isAppRouteToken (token : String) : Bool :=
  isStrictAppRouteToken token || isFirstPartyAppBearer token

def buildAppRoutesFiltered (tokens : List AppRouteToken) : Registry :=
  buildRoutesFiltered isAppRouteToken AppRouteToken.routeToken appRouteTokenToRoute tokens

/-! ## The two assembly paths -/

/-- What both paths read besides the vault and the revocation set. -/
structure RouteConfig where
  prov : ProviderRoutes
  groupRouting : Bool
  clusterEnabled : Bool

def loadVaultRoutesIntoRegistry (cfg : RouteConfig) (reg : Registry) (vault : VaultContent) :
    Registry :=
  let reg :=
    if vault.personalTokens.length > 0 then
      reg.mergeIfAny (buildPersonalRoutesFiltered cfg.prov vault.personalTokens)
    else reg
  let reg :=
    if vault.oauthTokens.length > 0 then
      reg.mergeIfAny (buildOAuthRoutesFiltered cfg.prov vault.oauthTokens)
    else reg
  if vault.appTokens.length > 0 then reg.mergeIfAny (buildAppRoutesFiltered vault.appTokens) else reg

/-- The registry `buildGeneration` gives a new generation. -/
def startupRegistry (cfg : RouteConfig) (vault : VaultContent) (revoked : Finset String) : Registry :=
  let reg : Registry :=
    if vault.managedKeys.length > 0 then
      Registry.merge ∅ (buildManagedRoutes cfg.groupRouting vault.managedKeys revoked)
    else ∅
  if !cfg.clusterEnabled then loadVaultRoutesIntoRegistry cfg reg vault else reg

/-- The registry `rebuildRouteRegistry` installs with `ReplaceAll`. -/
def rebuildRouteRegistry (cfg : RouteConfig) (vault : VaultContent) (revoked : Finset String) :
    Registry :=
  let allRoutes : Registry := ∅
  let allRoutes := allRoutes.merge (buildManagedRoutes cfg.groupRouting vault.managedKeys revoked)
  let allRoutes := allRoutes.merge (buildPersonalRoutesFiltered cfg.prov vault.personalTokens)
  let allRoutes := allRoutes.merge (buildOAuthRoutesFiltered cfg.prov vault.oauthTokens)
  allRoutes.merge (buildAppRoutesFiltered vault.appTokens)

end AikeyProxy.Supervisor
