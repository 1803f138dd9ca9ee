import AikeyProxy.Proxy.RequestBody

/-!
# When looking into a request body goes unnoticed

A look takes bytes out of the body and puts bytes back. What it takes away, bytes or the error at
the end, never comes back, so a sequence of looks is transparent exactly when every one of them is,
and `PeekKeeps` says when one is.
-/

namespace AikeyProxy.Proxy

open Lib List Reader

variable {J : Type}

/-- Model extraction leaves the body alone: the model is cached, or the body is announced as
too long. -/
def ModelSkips (q : BodyRequest) : Prop :=
  q.extractedModel.isSome ∨ (extractBodyHardLimit : Int) < q.contentLength
  deriving Decidable

section

variable (env : BodyEnv J) (q : BodyRequest)

def namedModel (r : Reader UInt8) : String :=
  match q.extractedModel with
  | some v => v
  | none =>
    if (extractBodyHardLimit : Int) < q.contentLength ∨ r.fails then ""
    else ((env.unmarshalFields r.data).map Prod.fst).getD ""

def ReaderKeeps (r : Reader UInt8) : Peek → Prop
  | .sessionID =>
    (env.bodyMaxBytes : Int) < q.contentLength ∨ r.data = [] ∨
      (r.fails && r.ends (env.bodyMaxBytes + 1)) = false
  | .model => ModelSkips q ∨ r.data = [] ∨ r.fails = false
  | .observer =>
    q.contentLength ≤ 0 ∨ (extractBodyHardLimit : Int) < q.contentLength ∨ r.fails = false
  | .mapping route =>
    route = none ∨
      ((ModelSkips q ∨ r.data = [] ∨ r.fails = false) ∧
        (namedModel env q r = "" ∨
          (r.fails = false ∧ r.data.length ≤ extractBodyHardLimit + 1)))

def PeekKeeps (p : Peek) : Prop :=
  match q.body with
  | none => True
  | some r => ReaderKeeps env q r p

end

/-- The body `r'` put in the place of `r` is as good as `r` when `keeps` holds, and otherwise
something is missing. -/
structure Replaced (keeps : Prop) (r r' : Reader UInt8) : Prop where
  kept : keeps → r'.content = r.content
  lost : ¬ keeps → Reader.weight r'.content < Reader.weight r.content

variable {r : Reader UInt8} {q q' : BodyRequest} {env : BodyEnv J}

variable {r' : Reader UInt8}

theorem Replaced.of_kept {keeps : Prop} (hk : keeps) (h : r'.content = r.content) :
    Replaced keeps r r' :=
  ⟨fun _ => h, fun hno => absurd hk hno⟩

theorem Replaced.of_lost {keeps : Prop} (hk : ¬ keeps)
    (h : Reader.weight r'.content < Reader.weight r.content) : Replaced keeps r r' :=
  ⟨fun hyes => absurd hyes hk, fun _ => h⟩

/-! ### One look -/

theorem parseBodyJSON_replaced (env : BodyEnv J) (hq : q.body = some r) :
    ∃ r', (parseBodyJSON env q).2.body = some r' ∧
      Replaced (ReaderKeeps env q r .sessionID) r r' := by
  unfold parseBodyJSON
  rw [hq]
  dsimp only
  split
  next hskip =>
    exact ⟨r, hq, .of_kept (.inl hskip.2) rfl⟩
  next hskip =>
    have hcl : ¬ (env.bodyMaxBytes : Int) < q.contentLength := by
      intro h
      exact hskip ⟨by omega, h⟩
    split
    next hfailed =>
      -- The end was met, so everything was read; none of it is put back.
      have hends : r.ends (env.bodyMaxBytes + 1) = true := (Bool.and_eq_true_iff.mp hfailed).2
      refine ⟨r.drained, congrArg some (rest_readUpTo_of_ends hends), ?_⟩
      by_cases hd : r.data = []
      · exact .of_kept (.inr (.inl hd)) (content_drained_of_nil hd)
      · refine .of_lost ?_ (weight_drained_lt hd)
        rintro (h | h | h)
        · exact hcl h
        · exact hd h
        · exact absurd (h.symm.trans hfailed) (by decide)
    next hfailed =>
      have hkeeps : ReaderKeeps env q r .sessionID :=
        .inr (.inr (Bool.eq_false_iff.mpr hfailed))
      split
      · exact ⟨_, rfl, .of_kept hkeeps (content_prepend_readUpTo _ r)⟩
      next hlen =>
        refine ⟨_, rfl, .of_kept hkeeps ?_⟩
        have hshort : r.data.length ≤ env.bodyMaxBytes := by
          simp only [readUpTo, length_take] at hlen
          omega
        have hends : r.ends (env.bodyMaxBytes + 1) = true :=
          ends_of_length_lt (Nat.lt_succ_of_le hshort)
        have hnofail : r.fails = false := by
          rw [readUpTo, hends, Bool.and_true] at hfailed
          exact Bool.eq_false_iff.mpr hfailed
        rw [readUpTo, take_of_length_le (by omega)]
        exact content_ofBytes_data hnofail

theorem bufferRequestBodyForObserver_replaced (env : BodyEnv J) (hq : q.body = some r) :
    ∃ r', (bufferRequestBodyForObserver q).2.body = some r' ∧
      Replaced (ReaderKeeps env q r .observer) r r' := by
  unfold bufferRequestBodyForObserver
  rw [hq]
  dsimp only
  split
  next hskip =>
    exact ⟨r, hq, .of_kept (hskip.elim .inl fun h => .inr (.inl h)) rfl⟩
  next hskip =>
    refine ⟨.ofBytes r.data, ?_, ?_⟩
    · split <;> rfl
    · cases hf : r.fails with
      | false => exact .of_kept (.inr (.inr hf)) (content_ofBytes_data hf)
      | true =>
        refine .of_lost ?_ ?_
        · rintro (h | h | h)
          · exact hskip (.inl h)
          · exact hskip (.inr h)
          · exact absurd (h.symm.trans hf) (by decide)
        · have hlt := weight_ofBytes_take_lt r.data.length (.inl hf)
          rwa [take_length] at hlt

def bodyAfterModel (q : BodyRequest) (r : Reader UInt8) : Reader UInt8 :=
  if ModelSkips q then r
  else if r.fails then r.drained
  else .ofBytes r.data

theorem stashExtractedFields_body (q : BodyRequest) (model promptCacheKey : String) :
    (stashExtractedFields q model promptCacheKey).body = q.body := by
  unfold stashExtractedFields
  split <;> split <;> rfl

theorem extractModel_eq (env : BodyEnv J) (hq : q.body = some r) :
    (extractModel env q).1 = namedModel env q r ∧
      (extractModel env q).2.body = some (bodyAfterModel q r) := by
  cases hm : q.extractedModel with
  | some v => simp [extractModel, namedModel, bodyAfterModel, ModelSkips, hm, hq]
  | none =>
    by_cases hcl : (extractBodyHardLimit : Int) < q.contentLength
    · simp [extractModel, namedModel, bodyAfterModel, ModelSkips, hm, hq, hcl]
    · simp only [extractModel, namedModel, bodyAfterModel, ModelSkips, hm, hq, hcl,
        Reader.readAll]
      cases hf : r.fails with
      | true => simp
      | false =>
        cases hu : env.unmarshalFields r.data with
        | none => simp
        | some fields => simp [stashExtractedFields_body]

theorem bodyAfterModel_replaced (q : BodyRequest) (r : Reader UInt8) :
    Replaced (ModelSkips q ∨ r.data = [] ∨ r.fails = false) r (bodyAfterModel q r) := by
  unfold bodyAfterModel
  split
  next hskip =>
    exact .of_kept (.inl hskip) rfl
  next hskip =>
    cases hf : r.fails with
    | false => exact .of_kept (.inr (.inr rfl)) (content_ofBytes_data hf)
    | true =>
      by_cases hd : r.data = []
      · exact .of_kept (.inr (.inl hd)) (content_drained_of_nil hd)
      · exact .of_lost (by simp [hskip, hd]) (weight_drained_lt hd)

theorem bodyAfterModel_of_namedModel (h : namedModel env q r ≠ "") :
    (bodyAfterModel q r).data = r.data ∧ (ModelSkips q ∨ r.data = [] ∨ r.fails = false) := by
  unfold bodyAfterModel
  split
  next hskip =>
    exact ⟨rfl, .inl hskip⟩
  next hskip =>
    have hm : q.extractedModel = none := by
      rw [ModelSkips, not_or] at hskip
      simpa using hskip.1
    have hf : r.fails = false := by
      rw [Bool.eq_false_iff]
      intro hf
      exact h (by simp [namedModel, hm, hf])
    exact ⟨by simp [hf, ofBytes], .inr (.inr hf)⟩

theorem mapping_body (env : BodyEnv J) (baseURL : String) (hq : q.body = some r)
    (h : peek env q (.mapping (some baseURL)) = some q') :
    q'.body = some (if namedModel env q r = "" then bodyAfterModel q r
      else .ofBytes (r.data.take (extractBodyHardLimit + 1))) := by
  obtain ⟨hmodel, hbody⟩ := extractModel_eq env hq
  simp only [peek, applyModelMappingToRequest, hq, hmodel] at h
  by_cases hnamed : namedModel env q r = ""
  · rw [if_pos hnamed] at h ⊢
    rw [← Option.some.inj h]
    exact hbody
  · have hdata := (bodyAfterModel_of_namedModel hnamed).1
    rw [if_neg hnamed] at h ⊢
    simp only [hbody, readUpTo, hdata] at h
    -- Whatever the mapping answers, unless it rewrites, the bytes read are put back.
    split at h <;> cases h
    next hrewritten hnot =>
      (repeat' split at hnot) <;> cases hnot <;> first | rfl | exact absurd rfl hrewritten

theorem mapping_replaced (env : BodyEnv J) (route : Option String) (hq : q.body = some r)
    (h : peek env q (.mapping route) = some q') :
    ∃ r', q'.body = some r' ∧ Replaced (ReaderKeeps env q r (.mapping route)) r r' := by
  cases route with
  | none =>
    have hq' : q = q' := by
      simpa [peek, applyModelMappingToRequest, hq] using h
    exact ⟨r, hq' ▸ hq, .of_kept (.inl rfl) rfl⟩
  | some baseURL =>
    refine ⟨_, mapping_body env baseURL hq h, ?_⟩
    by_cases hnamed : namedModel env q r = ""
    · rw [if_pos hnamed]
      obtain ⟨hkept, hlost⟩ := bodyAfterModel_replaced q r
      refine ⟨?_, ?_⟩
      · rintro (hroute | ⟨hmodel, -⟩)
        · cases hroute
        · exact hkept hmodel
      · intro hno
        exact hlost fun hmodel => hno (.inr ⟨hmodel, .inl hnamed⟩)
    · rw [if_neg hnamed]
      have hmodel := (bodyAfterModel_of_namedModel hnamed).2
      by_cases hwhole : r.fails = false ∧ r.data.length ≤ extractBodyHardLimit + 1
      · refine .of_kept (.inr ⟨hmodel, .inr hwhole⟩) ?_
        rw [take_of_length_le hwhole.2]
        exact content_ofBytes_data hwhole.1
      · refine .of_lost ?_ (weight_ofBytes_take_lt _ ?_)
        · rintro (hroute | ⟨-, hempty | hfits⟩)
          · cases hroute
          · exact hnamed hempty
          · exact hwhole hfits
        · cases hf : r.fails with
          | true => exact .inl rfl
          | false => exact .inr (Nat.lt_of_not_le fun hle => hwhole ⟨hf, hle⟩)

/-! ### Sequences of looks -/

theorem peek_replaced {p : Peek} (hq : q.body = some r) (h : peek env q p = some q') :
    ∃ r', q'.body = some r' ∧ Replaced (ReaderKeeps env q r p) r r' := by
  cases p with
  | sessionID =>
    cases h
    exact parseBodyJSON_replaced env hq
  | model =>
    cases h
    exact ⟨_, (extractModel_eq env hq).2, bodyAfterModel_replaced q r⟩
  | observer =>
    cases h
    exact bufferRequestBodyForObserver_replaced env hq
  | mapping route => exact mapping_replaced env route hq h

theorem peek_nil_body {p : Peek} (hq : q.body = none) (h : peek env q p = some q') :
    q'.body = none := by
  cases p with
  | sessionID => cases h; simp [parseBodyJSON, hq]
  | model => cases h; cases hm : q.extractedModel <;> simp [extractModel, hq, hm]
  | observer => cases h; simp [bufferRequestBodyForObserver, hq]
  | mapping route =>
    simp only [peek, applyModelMappingToRequest, hq] at h
    cases h
    exact hq

theorem content_of_body (hq : q.body = some r) : q.content = r.content := by
  rw [BodyRequest.content, hq]

theorem peek_keeps (q : BodyRequest) (p : Peek) (q' : BodyRequest) (hok : PeekKeeps env q p)
    (h : peek env q p = some q') : q'.content = q.content := by
  cases hq : q.body with
  | none => rw [BodyRequest.content, BodyRequest.content, peek_nil_body hq h, hq]
  | some r =>
    obtain ⟨r', hq', hrep⟩ := peek_replaced hq h
    rw [PeekKeeps, hq] at hok
    rw [content_of_body hq', content_of_body hq]
    exact hrep.kept hok

theorem peek_loses (q : BodyRequest) (p : Peek) (q' : BodyRequest) (hno : ¬ PeekKeeps env q p)
    (h : peek env q p = some q') : Reader.weight q'.content < Reader.weight q.content := by
  cases hq : q.body with
  | none =>
    rw [PeekKeeps, hq] at hno
    exact absurd trivial hno
  | some r =>
    obtain ⟨r', hq', hrep⟩ := peek_replaced hq h
    rw [PeekKeeps, hq] at hno
    rw [content_of_body hq', content_of_body hq]
    exact hrep.lost hno

/-- Looks into a request body are transparent exactly when every one of them finds the body in
a state it can put back whole. -/
theorem peeks_transparent_iff (env : BodyEnv J) (q q' : BodyRequest) (looks : List Peek)
    (h : exec (peek env) q looks = some q') :
    q'.content = q.content ↔ Guarded (peek env) (PeekKeeps env) q looks q' :=
  exec_keeps_iff peek_keeps peek_loses h

def arriving (body : Reader UInt8) (contentLength : Int) : BodyRequest where
  body := some body
  contentLength := contentLength
  extractedModel := none
  mappedClientModel := none
  mappedEffectiveModel := none
  headerModel := none
  headerKimiSession := none
  headerContentLength := none

def namingBody : List UInt8 := [123, 34, 109, 111, 100, 101, 108, 34, 58, 34, 109, 34, 125]

def plainEnv : BodyEnv Unit where
  bodyMaxBytes := 16
  unmarshalObject := fun _ => none
  unmarshalFields := fun body => if body = namingBody then some ("m", "") else none
  lookupByBaseURL := fun url => if url = "https://gw.example" then some "gw" else none
  modelMapFor := fun _ => false
  resolveModel := fun _ model => (model, false, false)
  setModel := fun _ _ => none

def allLooks : List Peek :=
  [.sessionID, .model, .observer, .mapping (some "https://gw.example")]

theorem small_chunked_body_kept :
    ∃ q', exec (peek plainEnv) (arriving (.ofBytes namingBody) (-1)) allLooks = some q' ∧
      q'.extractedModel = some "m" ∧ q'.content = (namingBody, false) ∧
      Guarded (peek plainEnv) (PeekKeeps plainEnv) (arriving (.ofBytes namingBody) (-1))
        allLooks q' := by
  have hrun : (exec (peek plainEnv) (arriving (.ofBytes namingBody) (-1)) allLooks).map
      (fun q' => (q'.extractedModel, q'.content)) = some (some "m", (namingBody, false)) := by
    decide +kernel
  obtain ⟨q', hq', hval⟩ := Option.map_eq_some_iff.mp hrun
  obtain ⟨hmodel, hcontent⟩ := Prod.mk.inj hval
  exact ⟨q', hq', hmodel, hcontent, (peeks_transparent_iff plainEnv _ _ _ hq').mp hcontent⟩

/-- The client announces two bytes, sends one and is gone; after the observer's look the body is
that one byte, complete. -/
theorem broken_body_ends_normally :
    ¬ ∀ (env : BodyEnv Unit) (q q' : BodyRequest) (looks : List Peek),
      exec (peek env) q looks = some q' → q'.content = q.content := by
  intro h
  have hobs := h plainEnv (arriving ⟨[123], true, false⟩ 2) _ [.observer] rfl
  exact absurd hobs (by decide)

end AikeyProxy.Proxy
