import AikeyProxy.Proxy.AuthJournal

/-!
# Delivering auth failures to Control

A pass uploads the pending failures in chunks and acknowledges what Control accepts. A chunk that
Control refuses with a conflict is halved until the refused failures stand alone.
-/

namespace AikeyProxy.Proxy

def maxAuthFailureUploadBatchSize : Nat := 128

structure SignalUploadResult where
  ok : Bool
  detail : String
  statusCode : Nat

/-- Where an upload ends: before there is an answer, or with its status. -/
inductive UploadEnd where
  | disabled
  | encodingFailed
  | bearerUnavailable
  | constructionFailed
  | uploadFailed
  | answered (status : Nat)

/-- `uploadAllResult`, of a body that has something in it. -/
def uploadAllResult : UploadEnd → SignalUploadResult
  | .disabled => ⟨false, "signal reporting disabled", 0⟩
  | .encodingFailed => ⟨false, "signal payload encoding failed", 0⟩
  | .bearerUnavailable => ⟨false, "signal bearer unavailable", 0⟩
  | .constructionFailed => ⟨false, "signal request construction failed", 0⟩
  | .uploadFailed => ⟨false, "signal upload failed", 0⟩
  | .answered status =>
    if 300 ≤ status then ⟨false, "signal report rejected with HTTP " ++ toString status, status⟩
    else ⟨true, "", status⟩

/-- By the uploads made before: how an upload ends, how an append to the journal ends, and whether a
compaction succeeds. -/
structure DeliveryEnv where
  upload : List (List AuthFailureSample) → List AuthFailureSample → UploadEnd
  outcome : List (List AuthFailureSample) → AppendOutcome
  compacts : List (List AuthFailureSample) → Bool

structure DeliveryPass where
  world : AuthWorld
  uploads : List (List AuthFailureSample)

structure DeliveryReport where
  attempted : Bool
  allOK : Bool
  detail : String

def deliverAuthFailureChunk (env : DeliveryEnv) (p : DeliveryPass)
    (failures : List AuthFailureSample) : DeliveryReport × DeliveryPass :=
  if failures = [] then (⟨false, true, ""⟩, p)
  else
    let result := uploadAllResult (env.upload p.uploads failures)
    let p := { p with uploads := p.uploads ++ [failures] }
    if result.ok then
      (⟨true, true, ""⟩,
        { p with
          world := acknowledgeAuthFailures p.world failures (env.outcome p.uploads)
            (env.compacts p.uploads) })
    else if h : result.statusCode ≠ 409 ∨ failures.length = 1 then
      (⟨true, false, result.detail⟩, p)
    else
      let mid := failures.length / 2
      let left := deliverAuthFailureChunk env p (failures.take mid)
      let right := deliverAuthFailureChunk env left.2 (failures.drop mid)
      if left.1.allOK && right.1.allOK then (⟨true, true, ""⟩, right.2)
      else if left.1.detail ≠ "" then (⟨true, false, left.1.detail⟩, right.2)
      else (⟨true, false, right.1.detail⟩, right.2)
termination_by failures.length
decreasing_by
  all_goals
    have hpos : 0 < failures.length := List.length_pos_iff.mpr ‹_›
    simp only [List.length_take, List.length_drop]
    omega

/-- The loop over the chunks, with what the pass returns so far. -/
def deliverChunks (env : DeliveryEnv) (report : DeliveryReport) (p : DeliveryPass)
    (failures : List AuthFailureSample) : DeliveryReport × DeliveryPass :=
  if failures = [] then (report, p)
  else
    let rest := failures.drop maxAuthFailureUploadBatchSize
    let (chunk, p) :=
      deliverAuthFailureChunk env p (failures.take maxAuthFailureUploadBatchSize)
    let report := { report with attempted := report.attempted || chunk.attempted }
    if chunk.allOK then deliverChunks env report p rest
    else
      let detail := if report.detail = "" then chunk.detail else report.detail
      let report := { report with allOK := false, detail }
      if chunk.detail ≠ "signal report rejected with HTTP 409" then (report, p)
      else deliverChunks env report p rest
termination_by failures.length
decreasing_by
  all_goals
    have hpos : 0 < failures.length := List.length_pos_iff.mpr ‹_›
    simp only [List.length_drop, maxAuthFailureUploadBatchSize]
    omega

def deliverAuthFailures (env : DeliveryEnv) (p : DeliveryPass)
    (failures : List AuthFailureSample) : DeliveryReport × DeliveryPass :=
  if failures = [] then (⟨false, true, ""⟩, p) else deliverChunks env ⟨false, true, ""⟩ p failures

end AikeyProxy.Proxy
