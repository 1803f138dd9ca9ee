import AikeyProxy.Proxy.ErrorBody

/-!
# Which upstream error bodies reach the client

The re-labelling puts back every byte it does not replace, so after it the body is what the client
is owed (`owed`). Behind it the forensic log of an app route keeps only a bounded front part and
forgets to say so in the header, and no inspection can put back an error.
-/

namespace AikeyProxy.Proxy

open Lib List Reader

def Relabelled (route : ErrorRoute) (resp : ErrorResponse) : Prop :=
  resp.status = 400 ∧ route.codexUpstream = true ∧ contentCoded resp = false ∧
    resp.body.fails = false ∧ resp.body.data.length ≤ codexUpstreamErrorBodyLimit ∧
    codexUpstream400Code resp.status resp.body.data ≠ ""
  deriving Decidable

def relabelledEnvelope (env : ErrorLegEnv) (resp : ErrorResponse) : List UInt8 :=
  codexEnvelope env (codexUpstream400Code resp.status resp.body.data) resp.body.data
    resp.headerErrorOrigin

/-- What the client is owed: the upstream's body, or the envelope of a re-labelled response,
which names the origin the response is tagged with. -/
def owed (env : ErrorLegEnv) (route : ErrorRoute) (up : UpstreamError) : List UInt8 × Bool :=
  if Relabelled route up.toErrorResponse then
    (relabelledEnvelope env (tagErrorOrigin env route up.toErrorResponse), false)
  else up.body.content

/-- The client receives the content `c`, and the header, if there is one, announces its length. -/
def Delivers (resp : ErrorResponse) (c : List UInt8 × Bool) : Prop :=
  resp.body.content = c ∧ ∀ n ∈ resp.headerContentLength, n = resp.body.data.length

/-! ### The re-labelling -/

variable {resp : ErrorResponse} {route : ErrorRoute} {d : List UInt8} {env : ErrorLegEnv}

section

variable (env : ErrorLegEnv)

theorem reclassify_relabelled (h : Relabelled route resp) :
    (reclassifyCodexUpstream400 env route resp).body = .ofBytes (relabelledEnvelope env resp) ∧
    (reclassifyCodexUpstream400 env route resp).headerContentLength =
      some (relabelledEnvelope env resp).length ∧
    (reclassifyCodexUpstream400 env route resp).status = 422 := by
  obtain ⟨hstatus, hcodex, hcoding, hfails, hlen, hcode⟩ := h
  have htake : resp.body.data.take (codexUpstreamErrorBodyLimit + 1) = resp.body.data :=
    take_of_length_le (by omega)
  have hfits : ¬ codexUpstreamErrorBodyLimit < resp.body.data.length := by omega
  unfold reclassifyCodexUpstream400
  rw [if_neg (by simp [hstatus, hcodex]), if_neg (by simp [hcoding])]
  simp only [readUpTo, htake, hfails, Bool.false_and, hfits]
  rw [if_neg (by simp), if_neg hcode]
  exact ⟨rfl, rfl, rfl⟩

theorem reclassify_not_relabelled (h : ¬ Relabelled route resp) :
    (reclassifyCodexUpstream400 env route resp).body.content = resp.body.content ∧
    (reclassifyCodexUpstream400 env route resp).headerContentLength = resp.headerContentLength ∧
    (reclassifyCodexUpstream400 env route resp).status = resp.status := by
  unfold reclassifyCodexUpstream400
  split
  · exact ⟨rfl, rfl, rfl⟩
  next hcodex =>
    rw [not_or, not_not, Bool.not_eq_false] at hcodex
    split
    · exact ⟨rfl, rfl, rfl⟩
    next hcoding =>
      dsimp only
      split
      · exact ⟨content_prepend_readUpTo _ _, rfl, rfl⟩
      next hread =>
        rw [not_or] at hread
        have hlen : resp.body.data.length ≤ codexUpstreamErrorBodyLimit := by
          have hle := hread.2
          rw [readUpTo, length_take] at hle
          omega
        have htake : resp.body.data.take (codexUpstreamErrorBodyLimit + 1) = resp.body.data :=
          take_of_length_le (by omega)
        have hfails : resp.body.fails = false := by
          have hf := hread.1
          rw [readUpTo, ends_of_length_lt (by omega), Bool.and_true] at hf
          exact Bool.eq_false_iff.mpr hf
        have hcode : codexUpstream400Code resp.status resp.body.data = "" := by
          by_contra hcode
          exact h ⟨hcodex.1, hcodex.2, Bool.eq_false_iff.mpr hcoding, hfails, hlen, hcode⟩
        simp only [readUpTo, htake]
        rw [if_pos hcode]
        exact ⟨content_ofBytes_data hfails, rfl, rfl⟩

/-! ### The inspections -/

/-- The steps of `modifyErrorResponse` behind the re-labelling. -/
def inspectErrorResponse (route : ErrorRoute) (resp : ErrorResponse) : ErrorResponse :=
  let resp := if env.debugUpstreamHeaders then debugCapture resp else resp
  let resp := if route.routeSource = "app" then logAppUpstreamErrorForensic env resp else resp
  let resp := if env.debug4xx ∧ resp.status < 500 then debugCapture resp else resp
  captureUpstreamErrorBody resp

/-- The inspections that put a body back even when they could not read all of it. -/
def Captures (route : ErrorRoute) (status : Nat) : Prop :=
  env.debugUpstreamHeaders ∨ route.routeSource = "app" ∨ (env.debug4xx ∧ status < 500)

theorem inspect_header (route : ErrorRoute) (resp : ErrorResponse) :
    (inspectErrorResponse env route resp).headerContentLength = resp.headerContentLength := by
  unfold inspectErrorResponse captureUpstreamErrorBody logAppUpstreamErrorForensic debugCapture
  dsimp only
  split_ifs <;> rfl

def Whole (resp : ErrorResponse) (d : List UInt8) : Prop := resp.body.content = (d, false)

theorem Whole.debugCapture (h : Whole resp d) : Whole (debugCapture resp) d := by
  obtain ⟨hd, -⟩ := Prod.mk.inj h
  exact congrArg (fun data => (data, false)) hd

theorem Whole.forensic (h : Whole resp d) :
    Whole (logAppUpstreamErrorForensic env resp) (d.take (resolvedBodyLogCap env + 1)) := by
  obtain ⟨hd, hf⟩ := Prod.mk.inj h
  unfold Whole logAppUpstreamErrorForensic
  simp only [readUpTo, hf, hd, Bool.false_and]
  rfl

end

theorem Whole.captureUpstreamErrorBody (h : Whole resp d) :
    Whole (captureUpstreamErrorBody resp) d := by
  obtain ⟨hd, hf⟩ := Prod.mk.inj h
  unfold Whole Proxy.captureUpstreamErrorBody
  simp only [Reader.readAll, hf, hd]
  rfl

theorem inspect_whole (h : Whole resp d) :
    Whole (inspectErrorResponse env route resp)
      (if route.routeSource = "app" then d.take (resolvedBodyLogCap env + 1) else d) := by
  have hdebug : ∀ (on : Prop) [Decidable on] {resp d}, Whole resp d →
      Whole (if on then debugCapture resp else resp) d := by
    intro on _ resp d h
    split
    · exact h.debugCapture
    · exact h
  unfold inspectErrorResponse
  refine (hdebug _ ?_).captureUpstreamErrorBody
  by_cases happ : route.routeSource = "app"
  · rw [if_pos happ, if_pos happ]
    exact (hdebug _ h).forensic env
  · rw [if_neg happ, if_neg happ]
    exact hdebug _ h

theorem captureUpstreamErrorBody_fails (resp : ErrorResponse) :
    (captureUpstreamErrorBody resp).body.fails = resp.body.fails := by
  unfold captureUpstreamErrorBody
  cases hf : resp.body.fails <;> simp [Reader.readAll, ofBytes, drained, hf]

theorem inspect_captured (h : Captures env route resp.status) :
    (inspectErrorResponse env route resp).body.fails = false := by
  unfold inspectErrorResponse
  dsimp only
  rw [captureUpstreamErrorBody_fails]
  by_cases happ : route.routeSource = "app"
  · rw [if_pos happ]
    generalize (if env.debugUpstreamHeaders then debugCapture resp else resp) = resp₁
    split <;> rfl
  · rw [if_neg happ]
    by_cases hup : env.debugUpstreamHeaders
    · rw [if_pos hup]
      split <;> rfl
    · rw [if_neg hup, if_pos ((h.resolve_left hup).resolve_left happ)]
      rfl

theorem inspect_uncaptured (h : ¬ Captures env route resp.status) (hf : resp.body.fails = true) :
    (inspectErrorResponse env route resp).body.content = ([], true) := by
  rw [Captures, not_or, not_or] at h
  obtain ⟨hup, happ, hdebug⟩ := h
  unfold inspectErrorResponse
  simp only [if_neg hup, if_neg happ, if_neg hdebug]
  simp [captureUpstreamErrorBody, Reader.readAll, hf]

/-! ### What the client receives -/

variable (env : ErrorLegEnv) (route : ErrorRoute) (up : UpstreamError)

/-- A body that breaks off is one only the usage event looks at, and has nothing to lose; one that
ends normally fits into the forensic log of an app route. -/
def Survives : Prop :=
  if up.body.fails then
    up.body.data = [] ∧ up.headerContentLength = none ∧ ¬ Captures env route up.status
  else
    route.routeSource = "app" → (owed env route up).1.length ≤ resolvedBodyLogCap env + 1

def relabelling : ErrorResponse :=
  reclassifyCodexUpstream400 env route (tagErrorOrigin env route up.toErrorResponse)

theorem modifyErrorResponse_eq : modifyErrorResponse env route up.toErrorResponse =
      inspectErrorResponse env route (relabelling env route up) := rfl

theorem relabelling_owed (hf : up.body.fails = false) :
    owed env route up = ((owed env route up).1, false) ∧
    Whole (relabelling env route up) (owed env route up).1 ∧
    ∀ n ∈ (relabelling env route up).headerContentLength, n = (owed env route up).1.length := by
  by_cases hrel : Relabelled route up.toErrorResponse
  · have htag : Relabelled route (tagErrorOrigin env route up.toErrorResponse) := hrel
    obtain ⟨hbody, hheader, -⟩ := reclassify_relabelled env htag
    rw [owed, if_pos hrel]
    refine ⟨rfl, ?_, ?_⟩
    · rw [Whole, relabelling, hbody]
      rfl
    · intro n hn
      rw [relabelling, hheader] at hn
      exact (Option.mem_some_iff.mp hn).symm
  · have htag : ¬ Relabelled route (tagErrorOrigin env route up.toErrorResponse) := hrel
    obtain ⟨hbody, hheader, -⟩ := reclassify_not_relabelled env htag
    have hcontent : up.body.content = (up.body.data, false) := by rw [content, hf]
    rw [owed, if_neg hrel, hcontent]
    refine ⟨rfl, hbody.trans hcontent, ?_⟩
    intro n hn
    rw [relabelling, hheader] at hn
    have hframed := up.framed n hn
    rw [hf] at hframed
    exact hframed.symm

theorem delivers_whole_iff (hf : up.body.fails = false) :
    Delivers (modifyErrorResponse env route up.toErrorResponse) (owed env route up) ↔
      (route.routeSource = "app" → (owed env route up).1.length ≤ resolvedBodyLogCap env + 1) := by
  obtain ⟨howed, hwhole, hheader⟩ := relabelling_owed env route up hf
  rw [modifyErrorResponse_eq, Delivers, inspect_header, howed]
  have hout : (inspectErrorResponse env route (relabelling env route up)).body.content = _ :=
    inspect_whole hwhole
  have hdata := congrArg Prod.fst hout
  rw [hout]
  generalize (owed env route up).1 = d at *
  by_cases happ : route.routeSource = "app"
  · rw [if_pos happ] at hdata ⊢
    constructor
    · rintro ⟨hsame, -⟩ -
      exact take_eq_self_iff d |>.mp (Prod.mk.inj hsame).1
    · intro hfits
      have htake := take_of_length_le (hfits happ)
      refine ⟨by rw [htake], fun n hn => ?_⟩
      rw [hheader n hn, show Reader.data _ = _ from hdata, htake]
  · rw [if_neg happ] at hdata ⊢
    refine ⟨fun _ h => absurd h happ, fun _ => ⟨rfl, fun n hn => ?_⟩⟩
    rw [hheader n hn, show Reader.data _ = _ from hdata]

theorem delivers_broken_iff (hf : up.body.fails = true) :
    Delivers (modifyErrorResponse env route up.toErrorResponse) (owed env route up) ↔
      up.body.data = [] ∧ up.headerContentLength = none ∧ ¬ Captures env route up.status := by
  have hrel : ¬ Relabelled route up.toErrorResponse := fun h =>
    absurd (h.2.2.2.1.symm.trans hf) (by decide)
  have htag : ¬ Relabelled route (tagErrorOrigin env route up.toErrorResponse) := hrel
  obtain ⟨hbody, hheader, hstatus⟩ := reclassify_not_relabelled env htag
  have hfails : (relabelling env route up).body.fails = true :=
    (congrArg Prod.snd hbody).trans hf
  have hcap : Captures env route (relabelling env route up).status ↔
      Captures env route up.status := by rw [relabelling, hstatus]; rfl
  have howed : owed env route up = (up.body.data, true) := by
    rw [owed, if_neg hrel, content, hf]
  have hhead : (relabelling env route up).headerContentLength = up.headerContentLength := hheader
  rw [modifyErrorResponse_eq, Delivers, inspect_header, howed, hhead]
  by_cases hc : Captures env route up.status
  · -- The body ends normally now.
    have hnormal := inspect_captured (hcap.mpr hc)
    refine ⟨fun h => ?_, fun h => absurd hc h.2.2⟩
    have hsame : (inspectErrorResponse env route (relabelling env route up)).body.fails = true :=
      congrArg Prod.snd h.1
    exact absurd (hnormal.symm.trans hsame) (by decide)
  · have hout := inspect_uncaptured (fun h => hc (hcap.mp h)) hfails
    have hdata : (inspectErrorResponse env route (relabelling env route up)).body.data = [] :=
      congrArg Prod.fst hout
    rw [hout, hdata]
    constructor
    · rintro ⟨hsame, hlen⟩
      refine ⟨(Prod.mk.inj hsame).1.symm, ?_, hc⟩
      rw [Option.eq_none_iff_forall_not_mem]
      intro n hn
      have hframed := up.framed n hn
      rw [hf, if_pos rfl, hlen n hn] at hframed
      exact absurd hframed (Nat.not_lt_zero _)
    · rintro ⟨hempty, hnone, -⟩
      refine ⟨by rw [hempty], fun n hn => ?_⟩
      rw [hnone] at hn
      cases hn

/-- An upstream error reaches the client as it is owed, under a header that fits it, exactly
when it survives the inspections. -/
theorem error_body_delivered_iff :
    Delivers (modifyErrorResponse env route up.toErrorResponse) (owed env route up) ↔
      Survives env route up := by
  cases hf : up.body.fails with
  | false =>
    rw [delivers_whole_iff env route up hf, Survives, hf]
    simp
  | true =>
    rw [delivers_broken_iff env route up hf, Survives, hf]
    simp

def defaultLeg : ErrorLegEnv where
  debugUpstreamHeaders := false
  debug4xx := false
  bodyCapOverride := none
  errorOriginComponent := "local-proxy"
  codexUpstreamReason := fun _ => ""
  marshalEnvelope := fun _ _ _ _ => []

def longNotFound : UpstreamError where
  status := 404
  body := .ofBytes (List.replicate 5000 0x20)
  contentLength := 5000
  headerContentLength := some 5000
  headerContentEncoding := ""
  headerContentType := "text/plain"
  headerErrorOrigin := ""
  headerErrorPath := []
  headerUpstreamStatus := none
  headerErrorSource := ""
  isError := by decide
  framed := by
    intro n hn
    rw [Option.mem_some_iff] at hn
    simp [Reader.ofBytes, hn]

/-- On an app route the client gets 4097 of the 5000 bytes that the header announces. -/
theorem app_error_body_cut :
    ¬ ∀ (env : ErrorLegEnv) (route : ErrorRoute) (up : UpstreamError),
      Delivers (modifyErrorResponse env route up.toErrorResponse) (owed env route up) := by
  intro h
  have hdel := h defaultLeg ⟨"app", "anthropic", false⟩ longNotFound
  rw [delivers_whole_iff _ _ _ rfl] at hdel
  have hlen := hdel rfl
  have howed : (owed defaultLeg ⟨"app", "anthropic", false⟩ longNotFound).1 =
      List.replicate 5000 0x20 := by
    rw [owed, if_neg (by simp [Relabelled])]
    rfl
  rw [howed, length_replicate] at hlen
  exact absurd hlen (by decide)

end AikeyProxy.Proxy
