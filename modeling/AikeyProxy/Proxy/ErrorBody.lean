import AikeyProxy.Lib.Reader
import AikeyProxy.Supervisor.Revocation

/-!
# An upstream error on its way to the client

What an answer of 400 and above goes through in `ModifyResponse`: the re-labelling of a Codex
refusal, the snapshot of the upstream-headers toggle, the forensic log of app routes, the 4xx
capture, and the capture for the usage event. All read the body and put one back; `Content-Length`
is a header of its own.
-/

namespace AikeyProxy.Proxy

open Lib
open Supervisor (trimSpace equalFold)

def debug4xxBodyCap : Nat := 4 * 1024

def debugBodyCapHardCeil : Nat := 1024 * 1024

def codexUpstreamErrorBodyLimit : Nat := 64 * 1024

/-- The toggles of the response leg, and what it calls to write an envelope. `bodyCapOverride` is
`AIKEY_PROXY_DEBUG_BODY_CAP_BYTES`. -/
structure ErrorLegEnv where
  debugUpstreamHeaders : Bool
  debug4xx : Bool
  bodyCapOverride : Option Int
  errorOriginComponent : String
  /-- `codexUpstreamReason`, the sentence pulled out of the refusal. -/
  codexUpstreamReason : List UInt8 → String
  /-- `json.Marshal` of an envelope with this type, code, message and origin. -/
  marshalEnvelope : String → String → String → String → List UInt8

def resolvedBodyLogCap (env : ErrorLegEnv) : Nat :=
  match env.bodyCapOverride with
  | some n => if 0 < n then min n.toNat debugBodyCapHardCeil else debug4xxBodyCap
  | none => debug4xxBodyCap

/-- The route of the request, and whether the request was pointed at the Codex backend. -/
structure ErrorRoute where
  routeSource : String
  providerCode : String
  codexUpstream : Bool

/-- The response that `ModifyResponse` works on. A header that is not set is `""` or `none`. -/
structure ErrorResponse where
  status : Nat
  body : Reader UInt8
  contentLength : Int
  headerContentLength : Option Nat
  headerContentEncoding : String
  headerContentType : String
  headerErrorOrigin : String
  headerErrorPath : List String
  headerUpstreamStatus : Option Nat
  headerErrorSource : String

/-- An error response as the transport delivers it. A body that ends normally has the announced
length; one that breaks off has not reached it. -/
structure UpstreamError extends ErrorResponse where
  isError : 400 ≤ status
  framed : ∀ n ∈ headerContentLength,
    if body.fails then body.data.length < n else body.data.length = n

/-! ### Re-labelling -/

/-- `strings.ToLower` on ASCII letters: beside the capitals, `İ` (C4 B0) and the Kelvin sign (E2 84
AA) are the only characters whose lower case is an ASCII letter. -/
def toLower : List UInt8 → List UInt8
  | 0xC4 :: 0xB0 :: rest => 0x69 :: toLower rest
  | 0xE2 :: 0x84 :: 0xAA :: rest => 0x6B :: toLower rest
  | b :: rest => (if 0x41 ≤ b ∧ b ≤ 0x5A then b + 0x20 else b) :: toLower rest
  | [] => []

def asciiBytes (s : String) : List UInt8 := s.toList.map fun c => UInt8.ofNat c.toNat

structure CodexUpstream400Rule where
  id : String
  phrase : String
  code : String

def codexUpstream400Rules : List CodexUpstream400Rule :=
  [{ id := "model_not_supported"
     phrase := "is not supported when using codex with a chatgpt account"
     code := "OAUTH_MODEL_UNSUPPORTED" }]

def codexUpstream400Code (status : Nat) (body : List UInt8) : String :=
  if status ≠ 400 ∨ body = [] then ""
  else
    let lower := toLower body
    match codexUpstream400Rules.find? fun rule => asciiBytes rule.phrase <:+: lower with
    | some rule => rule.code
    | none => ""

def aikeyErrorEnvelope (env : ErrorLegEnv) (errType code message origin : String) : List UInt8 :=
  let message :=
    if "AiKey".toList.isPrefixOf message.toList then message else "AiKey: " ++ message
  env.marshalEnvelope errType code message origin

/-- The body a re-labelled refusal is answered with. -/
def codexEnvelope (env : ErrorLegEnv) (code : String) (raw : List UInt8) (origin : String) :
    List UInt8 :=
  aikeyErrorEnvelope env "invalid_request_error" code
    ("This key is backed by a ChatGPT OAuth account whose upstream refused this request: " ++
      env.codexUpstreamReason raw ++
      " Use a model this account can serve, or ask your administrator to route this model to " ++
      "a different channel.") origin

def contentCoded (resp : ErrorResponse) : Bool :=
  let enc := trimSpace resp.headerContentEncoding.toList
  enc ≠ [] && !equalFold (String.ofList enc) "identity"

variable (env : ErrorLegEnv) (route : ErrorRoute) (resp : ErrorResponse)

def reclassifyCodexUpstream400 : ErrorResponse :=
  if resp.status ≠ 400 ∨ route.codexUpstream = false then resp
  else if contentCoded resp then resp
  else
    let got := resp.body.readUpTo (codexUpstreamErrorBodyLimit + 1)
    if got.failed ∨ codexUpstreamErrorBodyLimit < got.bytes.length then
      { resp with body := .prepend got.bytes got.rest }
    else
      let code := codexUpstream400Code resp.status got.bytes
      if code = "" then { resp with body := .ofBytes got.bytes }
      else
        let body := codexEnvelope env code got.bytes resp.headerErrorOrigin
        { resp with
          status := 422
          body := .ofBytes body
          contentLength := body.length
          headerContentType := "application/json"
          headerContentLength := some body.length
          headerUpstreamStatus := some resp.status
          headerErrorSource := code }

/-! ### Inspections -/

/-- The capture of both debug toggles: whatever could be read is put back. -/
def debugCapture (resp : ErrorResponse) : ErrorResponse :=
  let got := resp.body.readAll
  { resp with body := .ofBytes got.bytes, contentLength := got.bytes.length }

def logAppUpstreamErrorForensic (env : ErrorLegEnv) (resp : ErrorResponse) : ErrorResponse :=
  let got := resp.body.readUpTo (resolvedBodyLogCap env + 1)
  let bodyBytes := if got.failed then [] else got.bytes
  -- The header that announces the length stays as it was.
  { resp with body := .ofBytes bodyBytes, contentLength := bodyBytes.length }

def captureUpstreamErrorBody (resp : ErrorResponse) : ErrorResponse :=
  let got := resp.body.readAll
  if got.failed then { resp with body := got.rest }
  else { resp with body := .ofBytes got.bytes, contentLength := got.bytes.length }

def tagErrorOrigin : ErrorResponse :=
  { resp with
    headerErrorOrigin :=
      if resp.headerErrorOrigin = "" then "upstream:" ++ route.providerCode
      else resp.headerErrorOrigin
    headerErrorPath := resp.headerErrorPath ++ [env.errorOriginComponent] }

def modifyErrorResponse : ErrorResponse :=
  let resp := tagErrorOrigin env route resp
  let resp := reclassifyCodexUpstream400 env route resp
  let resp := if env.debugUpstreamHeaders then debugCapture resp else resp
  let resp := if route.routeSource = "app" then logAppUpstreamErrorForensic env resp else resp
  let resp := if env.debug4xx ∧ resp.status < 500 then debugCapture resp else resp
  captureUpstreamErrorBody resp

end AikeyProxy.Proxy
