import AikeyProxy.Lib.Reader
import AikeyProxy.Lib.Run

/-!
# Looking into a request body

The session id matcher, the model extraction, the buffering for full-payload observers and the model
mapping look into a body before it is forwarded. Each reads it, wholly or up to a limit of its own,
and puts a body back. The JSON decoders, the route table and the rewriting of the `model` field are
parameters.
-/

namespace AikeyProxy.Proxy

open Lib

def extractBodyHardLimit : Nat := 4 * 1024 * 1024

/-- What the four places consult besides the request. -/
structure BodyEnv (J : Type) where
  bodyMaxBytes : Nat
  unmarshalObject : List UInt8 → Option J
  /-- `json.Unmarshal` of the `model` and `prompt_cache_key` fields. -/
  unmarshalFields : List UInt8 → Option (String × String)
  lookupByBaseURL : String → Option String
  modelMapFor : String → Bool
  /-- The effective model, whether a rule matched, and whether the policy rejects. -/
  resolveModel : String → String → String × Bool × Bool
  setModel : List UInt8 → String → Option (List UInt8)

/-- `extractedModel`, `mappedClientModel` and `mappedEffectiveModel` are values of the request's
context, the other options headers. -/
structure BodyRequest where
  body : Option (Reader UInt8)
  contentLength : Int
  extractedModel : Option String
  mappedClientModel : Option String
  mappedEffectiveModel : Option String
  headerModel : Option String
  headerKimiSession : Option String
  headerContentLength : Option Nat

/-- What a reader of the body gets; a request without a body has nothing to read. -/
def BodyRequest.content (q : BodyRequest) : List UInt8 × Bool :=
  match q.body with
  | none => ([], false)
  | some r => r.content

variable {J : Type}

def parseBodyJSON (env : BodyEnv J) (q : BodyRequest) : Option J × BodyRequest :=
  match q.body with
  | none => (none, q)
  | some r =>
    if 0 < q.contentLength ∧ (env.bodyMaxBytes : Int) < q.contentLength then
      (none, q)
    else
      let got := r.readUpTo (env.bodyMaxBytes + 1)
      -- A read error returns at once: the body keeps only what was not read yet.
      if got.failed then
        (none, { q with body := some got.rest })
      else if env.bodyMaxBytes < got.bytes.length then
        (none, { q with body := some (.prepend got.bytes got.rest) })
      else
        (env.unmarshalObject got.bytes, { q with body := some (.ofBytes got.bytes) })

def bufferRequestBodyForObserver (q : BodyRequest) : Option (List UInt8) × BodyRequest :=
  match q.body with
  | none => (none, q)
  | some r =>
    if q.contentLength ≤ 0 ∨ (extractBodyHardLimit : Int) < q.contentLength then
      (none, q)
    else
      let got := r.readAll
      let restored :=
        { q with body := some (.ofBytes got.bytes), contentLength := got.bytes.length }
      if got.failed then (none, restored) else (some got.bytes, restored)

def stashExtractedFields (q : BodyRequest) (model promptCacheKey : String) : BodyRequest :=
  let q := if model ≠ "" then { q with headerModel := some model } else q
  if promptCacheKey ≠ "" then { q with headerKimiSession := some promptCacheKey } else q

def extractModel (env : BodyEnv J) (q : BodyRequest) : String × BodyRequest :=
  match q.extractedModel with
  | some v => (v, q)
  | none =>
    match q.body with
    | none => ("", q)
    | some r =>
      if (extractBodyHardLimit : Int) < q.contentLength then
        ("", q)
      else
        let got := r.readAll
        if got.failed then
          ("", { q with body := some got.rest })
        else
          let q :=
            { q with body := some (.ofBytes got.bytes), contentLength := got.bytes.length }
          match env.unmarshalFields got.bytes with
          | none => ("", q)
          | some (model, promptCacheKey) =>
            (model, { stashExtractedFields q model promptCacheKey with
              extractedModel := some model })

structure ModelMappingResult where
  mapped : Bool
  requestedModel : String
  effectiveModel : String
  reject : Bool
  hadMap : Bool
  provider : String
  newBody : Option (List UInt8)

def applyModelMapping (env : BodyEnv J) (baseURL requestedModel : String) (body : List UInt8) :
    ModelMappingResult :=
  let res : ModelMappingResult :=
    { mapped := false, requestedModel, effectiveModel := requestedModel, reject := false,
      hadMap := false, provider := "", newBody := none }
  if requestedModel = "" then res
  else
    match env.lookupByBaseURL baseURL with
    | none => res
    | some provider =>
      if provider = "" then res
      else
        let res := { res with provider, hadMap := env.modelMapFor provider }
        match env.resolveModel provider requestedModel with
        | (_, false, reject) => { res with reject }
        | (effective, true, _) =>
          let res := { res with effectiveModel := effective }
          if effective = requestedModel then { res with mapped := true }
          else
            match env.setModel body effective with
            | none => res
            | some newBody => { res with mapped := true, newBody := some newBody }

/-- The request goes on as it came, is answered with `MODEL_MAPPING_NOT_FOUND`, or goes on with
another model. -/
inductive MappingOutcome where
  | through
  | rejected
  | rewritten

def MappingOutcome.proceed : MappingOutcome → Bool
  | .rejected => false
  | _ => true

/-- The mapping on a route with this base URL; `none` is a request without a route. -/
def applyModelMappingToRequest (env : BodyEnv J) (route : Option String) (q : BodyRequest) :
    MappingOutcome × BodyRequest :=
  match q.body, route with
  | none, _ => (.through, q)
  | _, none => (.through, q)
  | some _, some baseURL =>
    let (requested, q) := extractModel env q
    if requested = "" then (.through, q)
    else
      match q.body with
      | none => (.through, q)
      | some r =>
        let got := r.readUpTo (extractBodyHardLimit + 1)
        let restored := { q with body := some (.ofBytes got.bytes) }
        if got.failed ∨ extractBodyHardLimit < got.bytes.length then
          -- Only the bytes read are put back; what follows them is left in the old body.
          (.through, restored)
        else
          let res := applyModelMapping env baseURL requested got.bytes
          if res.reject then (.rejected, restored)
          else
            match res.newBody with
            | some newBody =>
              (.rewritten,
                { q with
                  body := some (.ofBytes newBody)
                  contentLength := newBody.length
                  headerContentLength := some newBody.length
                  mappedClientModel := some requested
                  mappedEffectiveModel := some res.effectiveModel })
            | none => (.through, restored)

inductive Peek where
  | sessionID
  | model
  | observer
  | mapping (route : Option String)

/-- The request after one look into its body. A mapping that rewrites the body is not a look. -/
def peek (env : BodyEnv J) (q : BodyRequest) : Peek → Option BodyRequest
  | .sessionID => some (parseBodyJSON env q).2
  | .model => some (extractModel env q).2
  | .observer => some (bufferRequestBodyForObserver q).2
  | .mapping route =>
    match applyModelMappingToRequest env route q with
    | (.rewritten, _) => none
    | (_, q') => some q'

end AikeyProxy.Proxy
