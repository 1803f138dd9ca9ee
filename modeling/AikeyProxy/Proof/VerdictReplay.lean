import AikeyProxy.Proof.FilterDispatch

/-!
# Replayed verdicts

An entry of the verdict cache is found by the scope of the conversation and by a key made of the
detector's versions and of the content. Neither carries the route class or the target model, of
which the detector is told as well.

An entry is the detector's answer about a piece of some request of the sequence, under its scope and
key; if the pieces that share both get the same answer, the cache makes no difference.
-/

namespace AikeyProxy.Proxy

open Lib AppHook List

/-! ## Sequences of requests -/

structure DetectorInput where
  payload : Text
  routeClass : RouteClass
  targetModel : String
  detectorVer : String
  contentVer : String

def InboundRequest.detectorInput (req : InboundRequest) (head : Text) : DetectorInput :=
  ⟨head, req.routeClass, req.targetModel, req.detectorVer, req.contentVer⟩

def answersTo (detector : DetectorInput → Option FilterResponse) (req : InboundRequest) (_ : Nat)
    (head : Text) : Option FilterResponse :=
  detector (req.detectorInput head)

def filterAll (cfg : FilterConfig) (detector : DetectorInput → Option FilterResponse) :
    Option SessionMaskCache → List InboundRequest → List FilterResult
  | _, [] => []
  | cache, req :: reqs =>
    let (result, cache) := applyInboundFilter cfg (answersTo detector req) cache req
    result :: filterAll cfg detector cache reqs

structure Asks (cfg : FilterConfig) (req : InboundRequest) (scope key : String) (head : Text) :
    Prop where
  cacheable : req.cacheable = true
  scanned : ∃ members pieces, scannedPieces cfg req = some (members, pieces) ∧
    scope = cacheScope req members ∧ ∃ p ∈ pieces, head = p.head
  key : key = cacheKey cfg req head

variable (cfg : FilterConfig) (detector : DetectorInput → Option FilterResponse)
  (reqs : List InboundRequest)

/-- The requests that meet at one entry of the cache agree about it. -/
def HitsAgree : Prop :=
  ∀ req ∈ reqs, ∀ req' ∈ reqs, ∀ scope key head head', Asks cfg req scope key head →
    Asks cfg req' scope key head' →
    detector (req.detectorInput head) = detector (req'.detectorInput head')

/-! ## Where an entry comes from -/

/-- The verdict is the detector's, about a piece of one of the requests. -/
def Founded (scope key : String) (v : CachedVerdict) : Prop :=
  ∃ req ∈ reqs, ∃ head r, Asks cfg req scope key head ∧
    detector (req.detectorInput head) = some r ∧ r.degraded = false ∧ v = r.verdict

def SessionMaskCache.All (P : String → String → CachedVerdict → Prop) (c : SessionMaskCache) :
    Prop :=
  c.sessions.All fun scope bucket => bucket.All fun key e => P scope key e.verdict

theorem LruMaskCache.all_get {P : String → CachedVerdict → Prop} {c : LruMaskCache}
    (h : Lru.All (fun key e => P key e.verdict) c) (ttl : Int) (key : String) (now : Int) :
    (∀ v ∈ (LruMaskCache.get c ttl key now).1, P key v) ∧
      Lru.All (fun key e => P key e.verdict) (LruMaskCache.get c ttl key now).2 := by
  unfold LruMaskCache.get
  split
  · exact ⟨nofun, h⟩
  next e he =>
    have hentry : P key e.verdict := h.get? he
    split
    · exact ⟨nofun, h.remove key⟩
    · refine ⟨fun v hv => ?_, h.put hentry⟩
      cases hv
      exact hentry

variable {P : String → String → CachedVerdict → Prop}

theorem SessionMaskCache.All.get {c : SessionMaskCache} (h : c.All P) (scope key : String)
    (now : Int) :
    (∀ v ∈ (c.get scope key now).1, P scope key v) ∧ (c.get scope key now).2.All P := by
  unfold SessionMaskCache.get
  split
  · exact ⟨nofun, h⟩
  next bucket hbucket =>
    have hall := LruMaskCache.all_get (P := P scope) (h.get? hbucket) c.ttl key now
    exact ⟨hall.1, h.put hall.2⟩

theorem SessionMaskCache.All.put {c : SessionMaskCache} (h : c.All P) {scope key : String}
    {v : CachedVerdict} (hv : P scope key v) (now : Int) : (c.put scope key v now).All P := by
  have hbucket : ((c.sessions.get? scope).getD (.empty c.window)).All
      fun key e => P scope key e.verdict := by
    cases hget : c.sessions.get? scope with
    | none => exact Lru.All.empty _
    | some bucket => exact h.get? hget
  have hput : ((c.sessions.get? scope).getD (.empty c.window)).put key ⟨now + c.ttl, v⟩ |>.All
      fun key e => P scope key e.verdict := hbucket.put hv
  exact Lru.All.put h hput

/-! ## One piece -/

section

variable {cfg : FilterConfig} {detector : DetectorInput → Option FilterResponse}
  {reqs : List InboundRequest}

variable {r : FilterResponse} {detect : Nat → Text → Option FilterResponse}

theorem verdict_response (h : r.degraded = false) : r.verdict.response = r := by
  cases r
  cases h
  rfl

variable {c : SessionMaskCache} {head : Text} {scope : String} {req : InboundRequest}
  {cache : Option SessionMaskCache} {l : FilterLoop} {piece : ContentPiece}

/-- **A replayed response is the detector's.** -/
theorem cachedResponse_founded (hagree : HitsAgree cfg detector reqs) (hreq : req ∈ reqs)
    (hasks : Asks cfg req scope (cacheKey cfg req head) head)
    (hc : c.All (Founded cfg detector reqs)) (i : Nat) :
    (∀ r ∈ (cachedResponse cfg req scope c i head).1, detector (req.detectorInput head) = some r) ∧
      (cachedResponse cfg req scope c i head).2.All (Founded cfg detector reqs) := by
  obtain ⟨hfound, hafter⟩ := hc.get scope (cacheKey cfg req head) (req.now i)
  refine ⟨fun r hr => ?_, hafter⟩
  -- the entry was put there for some request, which agrees with this one about it
  obtain ⟨v, hfilter, rfl⟩ := Option.map_eq_some_iff.mp hr
  have hv := (Option.filter_eq_some_iff.mp hfilter).1
  obtain ⟨req', hreq', head', r, hasks', hdetect, hdegraded, rfl⟩ := hfound v hv
  rw [verdict_response hdegraded, ← hdetect]
  exact hagree req hreq req' hreq' scope _ head head' hasks hasks'

theorem keepResponse_founded (hreq : req ∈ reqs)
    (hasks : Asks cfg req scope (cacheKey cfg req head) head)
    (hc : c.All (Founded cfg detector reqs)) (i : Nat) :
    (keepResponse cfg req scope c i head (detector (req.detectorInput head))).All
      (Founded cfg detector reqs) := by
  unfold keepResponse
  split
  next r hr =>
    split
    next hkeep =>
      exact hc.put ⟨req, hreq, head, r, hasks, hr, hkeep.1, rfl⟩ _
    · exact hc
  · exact hc

theorem responseFor_founded (hagree : HitsAgree cfg detector reqs) (hreq : req ∈ reqs)
    (hasks : Asks cfg req scope (cacheKey cfg req head) head)
    (hc : c.All (Founded cfg detector reqs)) (i : Nat) :
    ∃ c', SessionMaskCache.All (Founded cfg detector reqs) c' ∧
      responseFor cfg req scope (answersTo detector req) (some c) i head =
        (detector (req.detectorInput head), some c') := by
  obtain ⟨hreplayed, hafter⟩ := cachedResponse_founded hagree hreq hasks hc i
  unfold responseFor
  dsimp only
  cases hcached : cachedResponse cfg req scope c i head with
  | mk resp c' =>
    rw [hcached] at hreplayed hafter
    cases resp with
    | some r =>
      refine ⟨c', hafter, ?_⟩
      rw [hreplayed r rfl]
    | none => exact ⟨_, keepResponse_founded hreq hasks hafter i, rfl⟩

def FilterLoop.uncached (l : FilterLoop) : FilterLoop := { l with cache := none }

theorem applyMask_uncached (l : FilterLoop) (piece : ContentPiece) (r : FilterResponse)
    (event : List TeamEvent) :
    (applyMask l piece r event).uncached = applyMask l.uncached piece r event ∧
      (applyMask l piece r event).cache = l.cache := by
  unfold applyMask
  split <;> exact ⟨rfl, rfl⟩

theorem applyVerdict_uncached (cfg : FilterConfig) (req : InboundRequest) (scope : String)
    (l : FilterLoop) (piece : ContentPiece) (r : FilterResponse) :
    applyVerdict cfg req scope l.uncached piece r =
        ((applyVerdict cfg req scope l piece r).1.uncached,
          (applyVerdict cfg req scope l piece r).2) ∧
      (applyVerdict cfg req scope l piece r).1.cache = l.cache := by
  unfold applyVerdict
  cases haction : piece.ceiling.clamp r.action with
  | mk action capped =>
    cases action with
    | mask =>
      obtain ⟨hmask, hcache⟩ :=
        applyMask_uncached l piece r (teamEvent cfg req scope piece r capped)
      exact ⟨by rw [hmask], hcache⟩
    | block | allow | warn | unknown code => exact ⟨rfl, rfl⟩

def CacheFounded (cfg : FilterConfig) (detector : DetectorInput → Option FilterResponse)
    (reqs : List InboundRequest) (cache : Option SessionMaskCache) : Prop :=
  ∃ c, cache = some c ∧ c.All (Founded cfg detector reqs)

theorem filterPiece_none {i : Nat}
    (h : responseFor cfg req scope detect l.cache i piece.head = (none, cache)) :
    filterPiece cfg req scope detect i piece l = ({ l with cache := cache }, none) := by
  unfold filterPiece
  rw [h]

theorem filterPiece_some {i : Nat}
    (h : responseFor cfg req scope detect l.cache i piece.head = (some r, cache)) :
    filterPiece cfg req scope detect i piece l = applyVerdict cfg req scope
      { l with cache := cache, verdicts := l.verdicts ++ [(piece, r)] } piece r := by
  unfold filterPiece
  rw [h]

theorem filterPiece_uncached (hagree : HitsAgree cfg detector reqs) (hreq : req ∈ reqs)
    (hasks : Asks cfg req scope (cacheKey cfg req piece.head) piece.head) (i : Nat)
    (hl : CacheFounded cfg detector reqs l.cache) :
    ∃ l' message, filterPiece cfg req scope (answersTo detector req) i piece l = (l', message) ∧
      filterPiece cfg req scope (answersTo detector req) i piece l.uncached =
        (l'.uncached, message) ∧
      CacheFounded cfg detector reqs l'.cache := by
  obtain ⟨c, hcache, hc⟩ := hl
  obtain ⟨c', hc', hresponse⟩ := responseFor_founded hagree hreq hasks hc i
  rw [← hcache] at hresponse
  -- with and without the cache the piece meets one response
  have hplain : responseFor cfg req scope (answersTo detector req) l.uncached.cache i piece.head =
      (detector (req.detectorInput piece.head), none) := rfl
  cases hdetect : detector (req.detectorInput piece.head) with
  | none =>
    rw [hdetect] at hresponse hplain
    rw [filterPiece_none hresponse, filterPiece_none hplain]
    exact ⟨_, _, rfl, rfl, c', rfl, hc'⟩
  | some r =>
    rw [hdetect] at hresponse hplain
    rw [filterPiece_some hresponse, filterPiece_some hplain]
    obtain ⟨happly, hkept⟩ := applyVerdict_uncached cfg req scope
      { l with cache := some c', verdicts := l.verdicts ++ [(piece, r)] } piece r
    exact ⟨_, _, rfl, happly, c', hkept, hc'⟩

theorem filterPieces_uncached (hagree : HitsAgree cfg detector reqs) (hreq : req ∈ reqs)
    {rest : List ContentPiece} :
    ∀ (i : Nat) {l : FilterLoop},
      (∀ p ∈ rest, Asks cfg req scope (cacheKey cfg req p.head) p.head) →
      CacheFounded cfg detector reqs l.cache →
      ∃ l' message, filterPieces cfg req scope (answersTo detector req) i rest l = (l', message) ∧
        filterPieces cfg req scope (answersTo detector req) i rest l.uncached =
          (l'.uncached, message) ∧
        CacheFounded cfg detector reqs l'.cache := by
  induction rest with
  | nil => intro i l _ hl; exact ⟨l, none, rfl, rfl, hl⟩
  | cons piece rest ih =>
    intro i l hasks hl
    obtain ⟨l', message, hcached, huncached, hl'⟩ :=
      filterPiece_uncached hagree hreq (hasks piece mem_cons_self) i hl
    rw [filterPieces, filterPieces, hcached, huncached]
    cases message with
    | some m => exact ⟨l', some m, rfl, rfl, hl'⟩
    | none => exact ih (i + 1) (fun p hp => hasks p (mem_cons_of_mem _ hp)) hl'

/-! ## Requests -/

/-- **A request fares the same with the cache**, which stays founded. -/
theorem applyInboundFilter_uncached (hagree : HitsAgree cfg detector reqs) (hreq : req ∈ reqs)
    (hcache : CacheFounded cfg detector reqs cache) :
    ∃ result cache', applyInboundFilter cfg (answersTo detector req) cache req = (result, cache') ∧
      applyInboundFilter cfg (answersTo detector req) none req = (result, none) ∧
      CacheFounded cfg detector reqs cache' := by
  unfold applyInboundFilter
  cases hscan : scannedPieces cfg req with
  | none => exact ⟨_, _, rfl, rfl, hcache⟩
  | some scanned =>
    obtain ⟨members, pieces⟩ := scanned
    cases hcacheable : req.cacheable with
    | false =>
      -- with and without the cache every piece is scanned
      dsimp only
      cases hloop : filterPieces cfg req (cacheScope req members) (answersTo detector req) 0 pieces
          { tree := .obj members, cache := none } with
      | mk l message => exact ⟨_, _, rfl, rfl, hcache⟩
    | true =>
      have hasks : ∀ p ∈ pieces,
          Asks cfg req (cacheScope req members) (cacheKey cfg req p.head) p.head := fun p hp =>
        ⟨hcacheable, ⟨members, pieces, hscan, rfl, p, hp, rfl⟩, rfl⟩
      obtain ⟨l', message, hcached, huncached, hl'⟩ := filterPieces_uncached hagree hreq 0
        (l := { tree := .obj members, cache := cache }) hasks hcache
      dsimp only [FilterLoop.uncached] at huncached
      simp only [↓reduceIte, hcached, huncached]
      exact ⟨_, _, rfl, congrArg (·, none) (by cases message <;> rfl), hl'⟩

theorem filterAll_uncached (hagree : HitsAgree cfg detector reqs) {later : List InboundRequest} :
    ∀ {cache : Option SessionMaskCache}, (∀ req ∈ later, req ∈ reqs) →
      CacheFounded cfg detector reqs cache →
      filterAll cfg detector cache later = filterAll cfg detector none later := by
  induction later with
  | nil => intro cache _ _; rfl
  | cons req later ih =>
    intro cache hlater hcache
    obtain ⟨result, cache', hcached, huncached, hcache'⟩ :=
      applyInboundFilter_uncached hagree (hlater req mem_cons_self) hcache
    rw [filterAll, filterAll, hcached, huncached]
    exact congrArg (result :: ·) (ih (fun r hr => hlater r (mem_cons_of_mem _ hr)) hcache')

end

/-! ## Conversations that keep to their route -/

theorem split_at_mark {a a' b b' : List Char} (ha : '|' ∉ a) (ha' : '|' ∉ a')
    (h : a ++ '|' :: b = a' ++ '|' :: b') : a = a' ∧ b = b' := by
  induction a generalizing a' with
  | nil =>
    cases a' with
    | nil => exact ⟨rfl, (List.cons.inj h).2⟩
    | cons c a' =>
      obtain ⟨rfl, -⟩ := List.cons.inj h
      exact absurd mem_cons_self ha'
  | cons c a ih =>
    cases a' with
    | nil =>
      obtain ⟨rfl, -⟩ := List.cons.inj h
      exact absurd mem_cons_self ha
    | cons c' a' =>
      obtain ⟨rfl, hrest⟩ := List.cons.inj h
      obtain ⟨rfl, hb⟩ := ih (fun hc => ha (mem_cons_of_mem _ hc))
        (fun hc => ha' (mem_cons_of_mem _ hc)) hrest
      exact ⟨rfl, hb⟩

def InboundRequest.Unmarked (req : InboundRequest) : Prop :=
  '|' ∉ req.detectorVer.toList ∧ '|' ∉ req.contentVer.toList

theorem cacheKey_injective {cfg : FilterConfig} (hhash : Function.Injective cfg.hashHead)
    {req req' : InboundRequest} (hreq : req.Unmarked) (hreq' : req'.Unmarked) {head head' : Text}
    (h : cacheKey cfg req head = cacheKey cfg req' head') :
    req.detectorVer = req'.detectorVer ∧ req.contentVer = req'.contentVer ∧ head = head' := by
  have hchars : req.detectorVer.toList ++ '|' ::
        (req.contentVer.toList ++ '|' :: (cfg.hashHead head).toList) =
      req'.detectorVer.toList ++ '|' ::
        (req'.contentVer.toList ++ '|' :: (cfg.hashHead head').toList) := by
    simpa [cacheKey] using congrArg String.toList h
  obtain ⟨hdetector, hrest⟩ := split_at_mark hreq.1 hreq'.1 hchars
  obtain ⟨hcontent, hdigest⟩ := split_at_mark hreq.2 hreq'.2 hrest
  exact ⟨String.toList_injective hdetector, String.toList_injective hcontent,
    hhash (String.toList_injective hdigest)⟩

theorem hitsAgree_of_route {cfg : FilterConfig} (hhash : Function.Injective cfg.hashHead)
    (detector : DetectorInput → Option FilterResponse) {reqs : List InboundRequest}
    (hunmarked : ∀ req ∈ reqs, req.Unmarked)
    (hroute : ∀ req ∈ reqs, ∀ req' ∈ reqs, ∀ scope key key' head head',
      Asks cfg req scope key head → Asks cfg req' scope key' head' →
      req.routeClass = req'.routeClass ∧ req.targetModel = req'.targetModel) :
    HitsAgree cfg detector reqs := by
  intro req hreq req' hreq' scope key head head' hasks hasks'
  obtain ⟨hclass, hmodel⟩ := hroute req hreq req' hreq' scope key key head head' hasks hasks'
  obtain ⟨hdetector, hcontent, hhead⟩ := cacheKey_injective hhash (hunmarked req hreq)
    (hunmarked req' hreq') (hasks.key.symm.trans hasks'.key)
  unfold InboundRequest.detectorInput
  rw [hclass, hmodel, hdetector, hcontent, hhead]

/-! ## The filter -/

/-- **Replaying verdicts makes no difference** to requests that agree about what they share. -/
theorem verdict_cache_transparent (cfg : FilterConfig)
    (detector : DetectorInput → Option FilterResponse) (maxSessions window : Nat) (ttl : Int)
    (reqs : List InboundRequest) (h : HitsAgree cfg detector reqs) :
    filterAll cfg detector (some (newSessionMaskCache maxSessions window ttl)) reqs =
      filterAll cfg detector none reqs :=
  filterAll_uncached h (fun _ hr => hr) ⟨_, rfl, Lru.All.empty _⟩

/-- What is seen of a request's filtering: what is forwarded or refused, and what is uploaded. -/
def FilterResult.seen (r : FilterResult) : FilterOutcome × List TeamEvent := (r.outcome, r.events)

def turnOver (routeClass : RouteClass) : InboundRequest :=
  { body := Json.print (.obj [("input", .str "a")]), routeClass := routeClass, sessionID := "s" }

theorem scannedPieces_turnOver (routeClass : RouteClass) :
    scannedPieces { hashHead := String.ofList } (turnOver routeClass) =
      some ([("input", .str "a")], [⟨"a", .full, ["input"], true⟩]) := by
  have hbody : unmarshalObject some (Json.print (.obj [("input", .str "a")])) =
      some [("input", .str "a")] :=
    unmarshalObject_print (by simp [Json.Valid, Json.ValidMembers]) rfl
  unfold scannedPieces turnOver
  dsimp only
  rw [hbody]
  rfl

/-- A conversation over one team route, with a detector that masks. -/
theorem verdict_cache_transparent_team : let cfg : FilterConfig := { hashHead := String.ofList }
    let detector : DetectorInput → Option FilterResponse := fun i =>
      some { action := .mask, mutatedPayload := 'x' :: i.payload, event := "e" }
    let reqs := [turnOver .team, turnOver .team]
    HitsAgree cfg detector reqs ∧
      filterAll cfg detector (some (newSessionMaskCache 2 2 10)) reqs =
        filterAll cfg detector none reqs := by
  intro cfg detector reqs
  have hturns : ∀ req ∈ reqs, req = turnOver .team := by simp [reqs]
  have hagree : HitsAgree cfg detector reqs := by
    refine hitsAgree_of_route (fun _ _ h => String.ofList_injective h) detector ?_ ?_
    · intro req hreq
      rw [hturns req hreq]
      exact ⟨nofun, nofun⟩
    · intro req hreq req' hreq' scope key key' head head' _ _
      rw [hturns req hreq, hturns req' hreq']
      exact ⟨rfl, rfl⟩
  exact ⟨hagree, verdict_cache_transparent cfg detector 2 2 10 reqs hagree⟩

/-- The verdict on the personal request, without an event, is replayed and the event of the team
request is lost. -/
theorem route_change_loses_event :
    ¬ ∀ (cfg : FilterConfig) (detector : DetectorInput → Option FilterResponse)
      (maxSessions window : Nat) (ttl : Int) (reqs : List InboundRequest),
      Function.Injective cfg.hashHead →
      (filterAll cfg detector (some (newSessionMaskCache maxSessions window ttl)) reqs).map
          FilterResult.seen =
        (filterAll cfg detector none reqs).map FilterResult.seen := by
  intro h
  have hturns := h { hashHead := String.ofList }
    (fun i => some { action := .warn, event := if i.routeClass = .team then "e" else "" }) 2 2 10
    [turnOver .personal, turnOver .team] (fun _ _ h => String.ofList_injective h)
  simp only [filterAll, applyInboundFilter, scannedPieces_turnOver] at hturns
  have hcounts := congrArg (List.map fun seen => seen.2.length) hturns
  exact absurd hcounts (by decide)

end AikeyProxy.Proxy
