import AikeyProxy.Proxy.AuthDelivery

/-!
# A pass isolates the failures that Control refuses

When Control answers a conflict exactly to the batches with a refused failure, halving a chunk ends
with the refused failures alone: the others are acknowledged, and the tree of halvings has fewer
than two uploads for each failure.
-/

namespace AikeyProxy.Proxy

open Lib List

variable {env : DeliveryEnv} {p : DeliveryPass} {failures : List AuthFailureSample}
  {refused : AuthFailureSample → Bool} {s : AuthFailureSample} {k : String}

variable (w : AuthWorld)

def AuthWorld.pending (k : String) : Option AuthFailureSample :=
  w.outbox.authFailures.lookup k

/-! ### Acknowledging -/

theorem pending_forgetRecord {o : AuthOutbox} {r : AuthFailureJournalRecord} :
    (forgetRecord o r).authFailures.lookup k = some s ↔
      o.authFailures.lookup k = some s ∧ ¬ (r.failure = some s ∧ authFailureKey s = k) := by
  unfold forgetRecord valueAt
  cases r.failure with
  | none => simp
  | some x =>
    dsimp only
    by_cases hk : k = authFailureKey x
    · subst hk
      split_ifs with hv
      · rw [AList.lookup_erase]
        cases hl : o.authFailures.lookup (authFailureKey x) with
        | none => simp
        | some y =>
          obtain rfl : y = x := by simpa [hl] using hv
          grind -linarith
      · refine ⟨fun h => ⟨h, fun hx => hv ?_⟩, And.left⟩
        rw [h, Option.getD_some, Option.some.inj hx.1]
    · have hother : ¬ (some x = some s ∧ authFailureKey s = k) := by
        rintro ⟨hx, rfl⟩
        exact hk (by rw [Option.some.inj hx])
      split_ifs
      · rw [AList.lookup_erase_ne hk]
        exact (and_iff_left hother).symm
      · exact (and_iff_left hother).symm

theorem pending_foldl_forgetRecord {records : List AuthFailureJournalRecord} :
    ∀ {o : AuthOutbox}, (records.foldl forgetRecord o).authFailures.lookup k = some s ↔
      o.authFailures.lookup k = some s ∧
        ¬ ((∃ r ∈ records, r.failure = some s) ∧ authFailureKey s = k) := by
  induction records with
  | nil => simp
  | cons r records ih =>
    intro o
    rw [foldl_cons, ih, pending_forgetRecord]
    grind -linarith

@[simp] theorem pending_compact (c : Bool) (k : String) :
    (compactAuthFailureJournal w c).pending k = w.pending k := by
  rw [compactAuthFailureJournal]
  grind -linarith [AuthWorld.pending]

@[simp] theorem pending_compactIfNeeded (c : Bool) (k : String) :
    (compactAuthFailureJournalIfNeeded w c).pending k = w.pending k := by
  unfold compactAuthFailureJournalIfNeeded
  split <;> simp

theorem mem_ackRecords {o : AuthOutbox} {sent : List AuthFailureSample}
    (h : o.authFailures.lookup (authFailureKey s) = some s) :
    (∃ r ∈ sent.flatMap (ackRecords o), r.failure = some s) ↔ s ∈ sent := by
  simp only [mem_flatMap]
  constructor
  · rintro ⟨r, ⟨x, hx, hr⟩, hs⟩
    have hrx : r.failure = some x := by grind -linarith [ackRecords, putRecord, deleteRecord]
    rw [hs] at hrx
    exact Option.some.inj hrx ▸ hx
  · intro hs
    refine ⟨deleteRecord s, ⟨s, hs, ?_⟩, rfl⟩
    simp [ackRecords, valueAt, h]

theorem pending_acknowledge (sent : List AuthFailureSample) (c : Bool) :
    (acknowledgeAuthFailures w sent .done c).pending k = some s ↔
      w.pending k = some s ∧ ¬ (s ∈ sent ∧ authFailureKey s = k) := by
  have hsent : (w.pending k = some s ∧ ¬ ((∃ r ∈ sent.flatMap (ackRecords w.outbox),
        r.failure = some s) ∧ authFailureKey s = k)) ↔
      w.pending k = some s ∧ ¬ (s ∈ sent ∧ authFailureKey s = k) := by
    refine and_congr_right fun hp => not_congr (and_congr_left ?_)
    rintro rfl
    exact mem_ackRecords hp
  rw [← hsent, acknowledgeAuthFailures]
  split
  · next hnil => simp [hnil]
  · rw [if_neg (by simp [AppendOutcome.ok])]
    dsimp only
    split
    · rw [pending_compact]
      exact pending_foldl_forgetRecord
    · rw [pending_compactIfNeeded]
      exact pending_foldl_forgetRecord

/-! ### One chunk -/

/-- Control answers a conflict exactly to the batches with a refused failure and accepts the
others, and every append to the journal succeeds. -/
structure Isolating (env : DeliveryEnv) (refused : AuthFailureSample → Bool) : Prop where
  conflict : ∀ before batch, batch.any refused = true → env.upload before batch = .answered 409
  accepted : ∀ before batch, batch.any refused = false →
    ∃ status < 300, env.upload before batch = .answered status
  written : ∀ before, env.outcome before = .done

def conflictDetail : String := "signal report rejected with HTTP 409"

/-- What `p'` has after the delivery of `failures`, in one chunk or in several. -/
structure Delivered (refused : AuthFailureSample → Bool) (failures : List AuthFailureSample)
    (p p' : DeliveryPass) : Prop where
  pending : ∀ k s, p'.world.pending k = some s ↔ p.world.pending k = some s ∧
    ¬ (s ∈ failures ∧ refused s = false ∧ authFailureKey s = k)
  uploads : p'.uploads.length ≤ p.uploads.length + 2 * failures.length

theorem Delivered.nil : Delivered refused [] p p := ⟨by simp, by simp⟩

theorem Delivered.append {left right : List AuthFailureSample} {p₁ p₂ : DeliveryPass}
    (hl : Delivered refused left p p₁) (hr : Delivered refused right p₁ p₂) :
    Delivered refused (left ++ right) p p₂ where
  pending k s := by
    rw [hr.pending, hl.pending, mem_append]
    tauto
  uploads := by
    have h₁ := hl.uploads
    have h₂ := hr.uploads
    rw [length_append]
    omega

/-- The verdict of a chunk says whether it has a refused failure, and its uploads number at most
`2 * n - 1`. -/
theorem deliverAuthFailureChunk_spec (henv : Isolating env refused) (hne : failures ≠ []) :
    Delivered refused failures p (deliverAuthFailureChunk env p failures).2 ∧
      (deliverAuthFailureChunk env p failures).2.uploads.length <
        p.uploads.length + 2 * failures.length ∧
      (deliverAuthFailureChunk env p failures).1.allOK = !failures.any refused ∧
      (deliverAuthFailureChunk env p failures).1.detail =
        if failures.any refused then conflictDetail else "" := by
  -- The induction is on the length: both halves are shorter and not empty.
  induction hn : failures.length using Nat.strongRecOn generalizing failures p with
  | ind n ih =>
    subst hn
    have hpos : 0 < failures.length := length_pos_iff.mpr hne
    rw [deliverAuthFailureChunk, if_neg hne]
    dsimp only
    cases hany : failures.any refused with
    | false =>
      have hnone : ∀ s ∈ failures, refused s = false := by simpa using hany
      have hok : (uploadAllResult (env.upload p.uploads failures)).ok = true := by
        obtain ⟨status, hlt, hup⟩ := henv.accepted p.uploads failures hany
        rw [hup, uploadAllResult, if_neg (by omega)]
      rw [if_pos hok, henv.written]
      have hup : (p.uploads ++ [failures]).length < p.uploads.length + 2 * failures.length := by
        simp only [length_append, length_singleton]
        omega
      refine ⟨⟨fun k s => ?_, hup.le⟩, hup, rfl, rfl⟩
      rw [pending_acknowledge]
      grind -linarith
    | true =>
      have hresult : uploadAllResult (env.upload p.uploads failures) =
          ⟨false, conflictDetail, 409⟩ := by
        rw [henv.conflict _ _ hany]
        rfl
      rw [hresult, if_neg (by simp)]
      by_cases hone : failures.length = 1
      · rw [dif_pos (.inr hone)]
        obtain ⟨x, rfl⟩ := length_eq_one_iff.mp hone
        have hx : refused x = true := by simpa using hany
        refine ⟨⟨fun k s => ?_, by simp⟩, by simp, rfl, rfl⟩
        grind -linarith
      · rw [dif_neg (by simpa using hone)]
        generalize hm : failures.length / 2 = mid
        have hcut := take_append_drop mid failures
        have hlt : (failures.take mid).length = mid := by rw [length_take]; omega
        have hld := length_drop (i := mid) (l := failures)
        set p₀ : DeliveryPass := { p with uploads := p.uploads ++ [failures] } with hp₀
        obtain ⟨hl, hlb, hlok, hldetail⟩ := ih (failures.take mid).length (by omega) (p := p₀)
          (ne_nil_of_length_pos (by omega)) rfl
        set left := deliverAuthFailureChunk env p₀ (failures.take mid)
        obtain ⟨hr, hrb, hrok, hrdetail⟩ := ih (failures.drop mid).length (by omega) (p := left.2)
          (ne_nil_of_length_pos (by omega)) rfl
        set right := deliverAuthFailureChunk env left.2 (failures.drop mid)
        have hpost := hl.append hr
        rw [hcut] at hpost
        have hup : right.2.uploads.length < p.uploads.length + 2 * failures.length := by
          simp only [hp₀, length_append, length_singleton] at hlb
          omega
        have hdel : Delivered refused failures p right.2 := ⟨hpost.pending, hup.le⟩
        rw [hlok, hrok, hldetail, hrdetail]
        rw [← hcut, any_append] at hany
        -- A refused failure is in the left half or in the right one, and the text is the same.
        cases hleft : (failures.take mid).any refused with
        | true => exact ⟨hdel, hup, rfl, rfl⟩
        | false =>
          rw [hleft, Bool.false_or] at hany
          rw [hany]
          exact ⟨hdel, hup, rfl, rfl⟩

/-! ### The whole pass -/

theorem deliverChunks_delivered (henv : Isolating env refused) (report : DeliveryReport) :
    Delivered refused failures p (deliverChunks env report p failures).2 := by
  have hspec := fun (failures : List AuthFailureSample) (p : DeliveryPass) (hne : ¬failures = []) =>
    deliverAuthFailureChunk_spec (p := p) henv
      (show failures.take maxAuthFailureUploadBatchSize ≠ [] by
        simpa [maxAuthFailureUploadBatchSize] using hne)
  fun_induction deliverChunks env report p failures with
  | case1 => exact .nil
  | case2 report p failures hne rest chunk p' hchunk _ _ ih
  | case4 report p failures hne rest chunk p' hchunk _ _ _ _ _ ih =>
    have hdone := (hspec failures p hne).1
    rw [hchunk] at hdone
    have hboth := hdone.append ih
    rwa [take_append_drop] at hboth
  | case3 report p failures hne chunk p' hchunk _ hbad _ _ hdetail =>
    -- another detail would end the loop, but a refused chunk always gives this one
    obtain ⟨-, -, hok, htext⟩ := hspec failures p hne
    rw [hchunk] at hok htext
    rw [hok] at hbad
    rw [if_pos (by simpa using hbad)] at htext
    exact absurd htext hdetail

/-- **Refused failures are isolated.** A pass takes out the failures that Control accepts, keeps
those that it refuses, touches no other key and makes at most two uploads for each. -/
theorem refused_failures_isolated (env : DeliveryEnv) (refused : AuthFailureSample → Bool)
    (henv : Isolating env refused) (w : AuthWorld) (failures : List AuthFailureSample)
    (hpending : ∀ s ∈ failures, w.outbox.authFailures.lookup (authFailureKey s) = some s) :
    let after := (deliverAuthFailures env ⟨w, []⟩ failures).2
    (∀ s ∈ failures, after.world.outbox.authFailures.lookup (authFailureKey s) =
      if refused s then some s else none) ∧
    (∀ k, (∀ s ∈ failures, authFailureKey s ≠ k) →
      after.world.outbox.authFailures.lookup k = w.outbox.authFailures.lookup k) ∧
    after.uploads.length ≤ 2 * failures.length := by
  have hdel : Delivered refused failures ⟨w, []⟩ (deliverAuthFailures env ⟨w, []⟩ failures).2 := by
    unfold deliverAuthFailures
    split
    · next hnil => exact hnil ▸ .nil
    · exact deliverChunks_delivered henv _
  refine ⟨fun s hs => ?_, fun k hk => ?_, by simpa using hdel.uploads⟩
  · refine Option.ext fun x => ?_
    have hx := hdel.pending (authFailureKey s) x
    have hold := hpending s hs
    simp only [AuthWorld.pending] at hx
    grind -linarith
  · refine Option.ext fun x => ?_
    have hx := hdel.pending k x
    simp only [AuthWorld.pending] at hx
    grind -linarith

def stuckFailure : AuthFailureSample := ⟨"c1", "g", "s", "t1", "revoked", 401, ""⟩

def goodFailure : AuthFailureSample := ⟨"c2", "g", "s", "t2", "revoked", 401, ""⟩

def conflictEnv : DeliveryEnv where
  upload _ batch := .answered (if batch.any (· = stuckFailure) then 409 else 200)
  outcome _ := .done
  compacts _ := true

def twoPending : AuthWorld :=
  { AuthWorld.init with
    outbox :=
      { AuthOutbox.empty with
        authFailures := (AList.singleton (authFailureKey goodFailure) goodFailure).insert
          (authFailureKey stuckFailure) stuckFailure } }

theorem stuck_failure_isolated :
    let after := (deliverAuthFailures conflictEnv ⟨twoPending, []⟩ [goodFailure, stuckFailure]).2
    after.world.outbox.authFailures.lookup (authFailureKey goodFailure) = none ∧
      after.world.outbox.authFailures.lookup (authFailureKey stuckFailure) = some stuckFailure ∧
      after.uploads.length ≤ 4 := by
  have henv : Isolating conflictEnv (· = stuckFailure) :=
    ⟨fun _ _ h => congrArg UploadEnd.answered (if_pos h),
      fun _ _ h => ⟨200, by decide, congrArg UploadEnd.answered (if_neg (by simp [h]))⟩,
      fun _ => rfl⟩
  obtain ⟨hall, -, hup⟩ := refused_failures_isolated conflictEnv (· = stuckFailure) henv twoPending
    [goodFailure, stuckFailure] (by decide)
  exact ⟨hall goodFailure (by decide), hall stuckFailure (by decide), hup⟩

end AikeyProxy.Proxy
