import AikeyProxy.Proxy.SignalTrend

/-!
# An idle credential is reported as idle

What a credential sees of the reporter is a `Trend`, once for its rate limits and once for its
concurrency, and every step of the reporter makes moves of both, as long as a closing zero is
not merged into a waiting reading that is not zero and finds a place in the buffer.
-/

namespace AikeyProxy.Proxy

open Lib List SignalReporter AList SignalTrendAccumulator Tally RateLimitSample Option

variable {Ev : Type}

/-! ## The property and its condition -/

section

variable (r : SignalReporter Ev) (c : String)

def SignalReporter.lastRate : Option RateLimitSample :=
  r.delivered.findSome? fun u => u.rateLimits.dlookup c

def SignalReporter.lastPeak : Option Nat :=
  r.delivered.findSome? fun u => u.concurrency.dlookup c

/-- The last values delivered for `c` are zero, and there are such values if it was ever
counted. -/
structure ReportedIdle (c : String) (r : SignalReporter Ev) : Prop where
  rate : ∀ x, r.lastRate c = some x → x.count = 0
  peak : ∀ p, r.lastPeak c = some p → p = 0
  rate_delivered : c ∈ r.refusals → (r.lastRate c).isSome = true
  peak_delivered : c ∈ r.forwards → (r.lastPeak c).isSome = true

def SignalTrendAccumulator.rateCount (a : SignalTrendAccumulator Ev) (c : String) : Nat :=
  ((a.rate.lookup c).map RateLimitSample.count).getD 0

/-- The buffer has a place for `c`, whatever the order of the snapshots. -/
def SignalReporter.RoomFor : Prop :=
  c ∈ r.pending.credentials ∨
    (r.pending.credentials ∪ r.rateIds ∪ r.concIds).card ≤ maxPendingSignalCredentials
  deriving Decidable

/-- The closing zeros of `c`, where the next snapshots have them, find no reading that is not
zero and have a place. -/
def SignalReporter.ZerosKept : Prop :=
  (c ∈ r.rlPrevious → c ∉ r.rlCounts → r.pending.rateCount c = 0 ∧ r.RoomFor c) ∧
    (c ∈ r.inflPrevious → c ∉ r.windowPeaks → r.pending.conc.get c = 0 ∧ r.RoomFor c)
  deriving Decidable

def SignalAct.endsWindow : SignalAct Ev → Bool
  | .tick .. | .stop .. => true
  | _ => false

/-- The condition on a step: a window that ends keeps the closing zeros of `c`. -/
def ClosingZeroKept (c : String) (r : SignalReporter Ev) (a : SignalAct Ev) : Prop :=
  a.endsWindow = true → r.ZerosKept c
  deriving Decidable

def QuietFor (c : String) : SignalAct Ev → Prop
  | .incrRateLimitHop id _ _ | .trackInflight id | .release id => id ≠ c
  | .wake _ outcome | .tick _ _ _ outcome | .stop _ _ _ outcome => outcome = .ok
  | .configure enabled => enabled = true
  | .util .. | .revoked .. | .event _ => True

instance (c : String) : ∀ a : SignalAct Ev, Decidable (QuietFor c a)
  | .incrRateLimitHop .. | .trackInflight _ | .release _ => inferInstanceAs (Decidable (_ ≠ _))
  | .wake .. | .tick .. | .stop .. | .configure _ => inferInstanceAs (Decidable (_ = _))
  | .util .. | .revoked .. | .event _ => isTrue trivial

/-! ## What a credential sees -/

def SignalReporter.rateTrend : Trend RateLimitSample :=
  ⟨decide (c ∈ r.rlCounts), decide (c ∈ r.rlPrevious), r.pending.rate.lookup c, r.lastRate c⟩

def SignalReporter.concTrend : Trend Nat :=
  ⟨decide (c ∈ r.inflPeak), decide (c ∈ r.inflPrevious), r.pending.conc.lookup c, r.lastPeak c⟩

end

def RateZero (x : RateLimitSample) : Prop := x.count = 0

def PeakZero (p : Nat) : Prop := p = 0

abbrev RateMoves := Trend.Moves RateZero

abbrev PeakMoves := Trend.Moves PeakZero

variable {t : Tally} {id : String} {a' : SignalTrendAccumulator Ev}
  {rateOrder concOrder : List String} {a : SignalAct Ev} {n : Nat}

theorem Tally.get_of_notMem {c : String} (h : c ∉ t) : t.get c = 0 := by
  rw [Tally.get, lookup_eq_none.mpr h, getD_none]

theorem Tally.mem_bump {c : String} : c ∈ t.bump id ↔ c = id ∨ c ∈ t :=
  mem_insert t

/-! ## The buffer -/

theorem acceptCredential_keeps {a : SignalTrendAccumulator Ev}
    (h : a.acceptCredential id = some a') : a'.rate = a.rate ∧ a'.conc = a.conc := by
  unfold acceptCredential at h
  grind -linarith

theorem addUtil_keeps {a : SignalTrendAccumulator Ev} {s : SignalSample}
    (h : a.addUtil id s = some a') : a'.rate = a.rate ∧ a'.conc = a.conc := by
  unfold addUtil at h
  grind -linarith [acceptCredential_keeps, map_eq_some_iff]

theorem addRevoked_keeps {a : SignalTrendAccumulator Ev} {reason : String}
    (h : a.addRevoked id reason = some a') : a'.rate = a.rate ∧ a'.conc = a.conc := by
  obtain ⟨b, hb, rfl⟩ := map_eq_some_iff.mp h
  grind -linarith [acceptCredential_keeps]

theorem addEvent_keeps {a : SignalTrendAccumulator Ev} {e : Ev} (h : a.addEvent e = some a') :
    a'.rate = a.rate ∧ a'.conc = a.conc := by
  unfold addEvent at h
  grind -linarith

def SignalTrendAccumulator.merged (a : SignalTrendAccumulator Ev)
    (rate : List (String × RateLimitSample)) (conc : List (String × Nat)) :
    SignalTrendAccumulator Ev :=
  ((a.mergeRate rate).1.mergeConcurrency conc).1

theorem count_eq_zero {a : SignalTrendAccumulator Ev} (h : a.count = 0) (c : String) :
    a.rate.lookup c = none ∧ a.conc.lookup c = none := by
  unfold SignalTrendAccumulator.count at h
  have hrate : a.rate.entries = [] := length_eq_zero_iff.mp (by omega)
  have hconc : a.conc.entries = [] := length_eq_zero_iff.mp (by omega)
  unfold AList.lookup
  rw [hrate, hconc]
  exact ⟨rfl, rfl⟩

/-! ## A flush -/

section

variable (r : SignalReporter Ev) (rate : List (String × RateLimitSample))
  (conc : List (String × Nat)) (live : Nat)

/-- What a flush leaves behind: the merged buffer, or an upload, and after it an empty buffer or,
where the reporter does not know of the upload, the merged one. -/
theorem flush_cases (outcome : UploadOutcome) :
    ∃ n pending delivered,
      r.flush rate conc live outcome = { r with pending, droppedSignals := n, delivered } ∧
      (r.configured = true → outcome = .ok → ∀ c,
        pending.rate.lookup c = none ∧ pending.conc.lookup c = none) ∧
      (pending = r.pending.merged rate conc ∧ delivered = r.delivered ∨
        delivered = (r.pending.merged rate conc).slices :: r.delivered ∧
          (pending = newSignalTrendAccumulator ∨ pending = r.pending.merged rate conc)) := by
  refine ⟨r.droppedSignals + ((r.pending.mergeRate rate).2 +
    ((r.pending.mergeRate rate).1.mergeConcurrency conc).2), ?_⟩
  unfold flush
  dsimp only
  split
  next h => exact ⟨_, _, rfl, fun _ _ => count_eq_zero h.1, .inl ⟨rfl, rfl⟩⟩
  next =>
    split
    next hoff => exact ⟨_, _, rfl, fun hon => by simp [hoff] at hon, .inl ⟨rfl, rfl⟩⟩
    next =>
      cases outcome with
      | ok => exact ⟨_, _, rfl, fun _ _ _ => ⟨rfl, rfl⟩, .inr ⟨rfl, .inl rfl⟩⟩
      | failed => exact ⟨_, _, rfl, nofun, .inl ⟨rfl, rfl⟩⟩
      | unconfirmed => exact ⟨_, _, rfl, nofun, .inr ⟨rfl, .inr rfl⟩⟩

theorem findSome?_slices {V : Type} (f : SignalUpload Ev → Option V) (u : SignalUpload Ev)
    (us : List (SignalUpload Ev)) : (u :: us).findSome? f = (f u).or (us.findSome? f) := by
  rw [findSome?_cons]
  cases f u <;> rfl

theorem flush_moves (outcome : UploadOutcome) (c : String) :
    RateMoves ⟨decide (c ∈ r.rlCounts), decide (c ∈ r.rlPrevious),
        (r.pending.merged rate conc).rate.lookup c, r.lastRate c⟩
      ((r.flush rate conc live outcome).rateTrend c) ∧
    PeakMoves ⟨decide (c ∈ r.inflPeak), decide (c ∈ r.inflPrevious),
        (r.pending.merged rate conc).conc.lookup c, r.lastPeak c⟩
      ((r.flush rate conc live outcome).concTrend c) := by
  obtain ⟨n, pending, delivered, heq, -, hcase⟩ := flush_cases r rate conc live outcome
  rw [heq]
  rcases hcase with ⟨rfl, rfl⟩ | ⟨rfl, rfl | rfl⟩
  · exact ⟨.refl, .refl⟩
  all_goals simp only [rateTrend, lastRate, concTrend, lastPeak, findSome?_slices]
  · exact ⟨.single (.deliver _), .single (.deliver _)⟩
  · exact ⟨.single (.send _), .single (.send _)⟩

end

/-! ## The end of a window -/

section

variable (r : SignalReporter Ev)

theorem snapshotRateLimits_eq {order : List String} (horder : order.toFinset = r.rateIds) :
    ∃ rlFallback rlForbidden rlRisk, r.snapshotRateLimits order =
      (order.map fun id => (id, r.rateSample id), { r with
          rlPrevious := r.rlCounts.keys.toFinset, rlCounts := ∅,
          rlFallback, rlForbidden, rlRisk }) := by
  unfold snapshotRateLimits
  split
  next hnone =>
    have hcounts : r.rlCounts = ∅ := AList.ext (length_eq_zero_iff.mp hnone.1)
    have hprev : r.rlPrevious = ∅ := Finset.card_eq_zero.mp hnone.2
    have hnil : order = [] := by
      rw [rateIds, hcounts, hprev] at horder
      exact (toFinset_eq_empty_iff order).mp horder
    refine ⟨r.rlFallback, r.rlForbidden, r.rlRisk, ?_⟩
    cases r
    subst hcounts hprev hnil
    rfl
  next => exact ⟨_, _, _, rfl⟩

theorem snapshotConcurrency_eq (order : List String) (horder : order.toFinset = r.concIds) :
    r.snapshotConcurrency order = (order.map fun id => (id, r.windowPeaks.get id),
        { r with inflPrevious := r.windowPeaks.keys.toFinset, inflPeak := ∅ }) := by
  unfold snapshotConcurrency
  dsimp only
  split
  next hnone =>
    have hpeaks : r.windowPeaks = ∅ := AList.ext (length_eq_zero_iff.mp hnone.1)
    have hprev : r.inflPrevious = ∅ := Finset.card_eq_zero.mp hnone.2
    have hnil : order = [] := by
      rw [concIds, hpeaks, hprev] at horder
      exact (toFinset_eq_empty_iff order).mp horder
    rw [hnil, map_nil, hpeaks]
    have hprev' : r.inflPrevious = (∅ : Tally).keys.toFinset := hprev
    rw [← hprev']
  next => rfl

theorem mem_peaks_foldl {c : String} :
    ∀ (es : List (Sigma fun _ : String => Nat)) (peaks : Tally),
      (c ∈ peaks → c ∈ es.foldl (fun peaks e =>
        if Tally.get peaks e.1 < e.2 then AList.insert e.1 e.2 peaks else peaks) peaks) ∧
      (c ∈ es.foldl (fun peaks e =>
        if Tally.get peaks e.1 < e.2 then AList.insert e.1 e.2 peaks else peaks) peaks →
        c ∈ peaks ∨ c ∈ es.keys) := by
  intro es
  induction es with
  | nil => exact fun peaks => ⟨id, .inl⟩
  | cons e es ih =>
    intro peaks
    rw [foldl_cons, keys_cons, mem_cons]
    have hstep := ih (if Tally.get peaks e.1 < e.2 then AList.insert e.1 e.2 peaks else peaks)
    split at hstep <;> grind -linarith [mem_insert]

theorem mem_windowPeaks {c : String} : (c ∈ r.inflPeak → c ∈ r.windowPeaks) ∧
      (c ∈ r.windowPeaks → c ∈ r.inflPeak ∨ c ∈ r.inflCur) :=
  mem_peaks_foldl r.inflCur.entries r.inflPeak

def SignalReporter.nextWindow (rlFallback rlForbidden rlRisk : Tally) : SignalReporter Ev :=
  { r with
    rlPrevious := r.rlCounts.keys.toFinset, rlCounts := ∅, rlFallback, rlForbidden, rlRisk,
    inflPrevious := r.windowPeaks.keys.toFinset, inflPeak := ∅ }

theorem flushWindow_eq (ho : r.Orders rateOrder concOrder) (live : Nat) (outcome : UploadOutcome) :
    ∃ rlFallback rlForbidden rlRisk, r.flushWindow rateOrder concOrder live outcome =
      (r.nextWindow rlFallback rlForbidden rlRisk).flush
        (rateOrder.map fun id => (id, r.rateSample id))
        (concOrder.map fun id => (id, r.windowPeaks.get id)) live outcome := by
  obtain ⟨rlFallback, rlForbidden, rlRisk, hrate⟩ := snapshotRateLimits_eq r ho.1.2
  refine ⟨rlFallback, rlForbidden, rlRisk, ?_⟩
  unfold flushWindow
  rw [hrate]
  dsimp only
  rw [snapshotConcurrency_eq]
  · rfl
  · exact ho.2.2

end

theorem rateCount_combine {a : SignalTrendAccumulator Ev} {c : String} {x : RateLimitSample}
    (ha : a.rateCount c = 0) (hx : x.count = 0) :
    RateZero (RateLimitSample.combine (a.rate.lookup c) x) := by
  unfold rateCount at ha
  cases hl : a.rate.lookup c <;> simp_all [combine, RateZero]

theorem combinePeak_zero {c : String} (ht : t.get c = 0) :
    PeakZero (combinePeak (AList.lookup c t) 0) := by
  unfold Tally.get at ht
  cases hl : AList.lookup c t <;> simp_all [combinePeak, PeakZero]

variable {r r' : SignalReporter Ev} {c : String}

theorem SignalReporter.RoomFor.of_subset (h : r.RoomFor c) {places ids : Finset String}
    (hup : r.pending.credentials ⊆ places)
    (hsub : places ∪ ids ⊆ r.pending.credentials ∪ r.rateIds ∪ r.concIds) :
    c ∈ places ∨ (places ∪ ids).card ≤ maxPendingSignalCredentials :=
  h.imp (fun hplace => hup hplace) fun hcard => (Finset.card_le_card hsub).trans hcard

theorem SignalReporter.RoomFor.conc (h : r.RoomFor c) (hr : rateOrder.toFinset = r.rateIds)
    (hc : concOrder.toFinset = r.concIds) {val : String → RateLimitSample} :
    c ∈ (r.pending.mergeRate (rateOrder.map fun id => (id, val id))).1.credentials ∨
      ((r.pending.mergeRate (rateOrder.map fun id => (id, val id))).1.credentials ∪
        concOrder.toFinset).card ≤ maxPendingSignalCredentials := by
  obtain ⟨hup, hsub⟩ := Retry.mergeAll_places maxPendingSignalCredentials
    combine (rateOrder.map fun id => (id, val id))
    ⟨r.pending.credentials, r.pending.rate, 0⟩
  have hkeys : (rateOrder.map fun id => (id, val id)).map Prod.fst = rateOrder := by
    rw [List.map_map]
    exact map_id rateOrder
  rw [hkeys, hr] at hsub
  refine h.of_subset hup ?_
  rw [hc]
  exact Finset.union_subset_union hsub (Finset.Subset.refl _)

theorem flushWindow_moves (ho : r.Orders rateOrder concOrder) (live : Nat)
    (outcome : UploadOutcome) (hok : r.ZerosKept c) :
    RateMoves (r.rateTrend c) ((r.flushWindow rateOrder concOrder live outcome).rateTrend c) ∧
      PeakMoves (r.concTrend c) ((r.flushWindow rateOrder concOrder live outcome).concTrend c) := by
  obtain ⟨rlFallback, rlForbidden, rlRisk, heq⟩ := flushWindow_eq r ho live outcome
  rw [heq]
  have hkeys : ∀ t : Tally, c ∈ t.keys.toFinset ↔ c ∈ t := fun t => by
    rw [List.mem_toFinset, AList.mem_keys]
  refine (flush_moves _ _ _ live outcome c).imp (Relation.ReflTransGen.trans ?_)
    (Relation.ReflTransGen.trans ?_)
  · refine Retry.window_moves maxPendingSignalCredentials combine
      ⟨r.pending.credentials, r.pending.rate, 0⟩ r.rateSample ho.1.1 ho.1.2 ?_ (r.lastRate c) ?_
    · intro hactive
      exact (hkeys _).mpr (of_decide_eq_true hactive)
    · intro hprev hcur
      rw [hkeys] at hcur
      obtain ⟨hcount, hroom⟩ := hok.1 hprev hcur
      refine ⟨rateCount_combine hcount (get_of_notMem hcur),
        hroom.of_subset (Finset.Subset.refl _) ?_⟩
      rw [ho.1.2]
      exact Finset.subset_union_left
  · refine Retry.window_moves maxPendingSignalCredentials combinePeak
      ⟨(r.pending.mergeRate (rateOrder.map fun id => (id, r.rateSample id))).1.credentials,
        r.pending.conc, 0⟩ r.windowPeaks.get ho.2.1 ho.2.2 ?_ (r.lastPeak c) ?_
    · intro hactive
      exact (hkeys _).mpr ((mem_windowPeaks r).1 (of_decide_eq_true hactive))
    · intro hprev hcur
      rw [hkeys] at hcur
      obtain ⟨hpeak, hroom⟩ := hok.2 hprev hcur
      rw [get_of_notMem hcur]
      exact ⟨combinePeak_zero hpeak, hroom.conc ho.1.2 ho.2.2⟩

/-! ## One step -/

inductive SignalMove (r : SignalReporter Ev) : SignalAct Ev → SignalReporter Ev → Prop
  | incr (id : String) (duringFallback forbidden : Bool) :
      SignalMove r (.incrRateLimitHop id duringFallback forbidden)
        (r.incrRateLimitHop id duringFallback forbidden)
  | track (id : String) : SignalMove r (.trackInflight id) (r.trackInflight id)
  | release (id : String) (r' : SignalReporter Ev) : r.release id = some r' →
      SignalMove r (.release id) r'
  | buffer (a : SignalAct Ev) (pending : SignalTrendAccumulator Ev) (droppedSignals : Nat) :
      a.endsWindow = false → pending.rate = r.pending.rate → pending.conc = r.pending.conc →
      SignalMove r a { r with pending, droppedSignals }
  | wake (live : Nat) (outcome : UploadOutcome) :
      SignalMove r (.wake live outcome) (r.flush [] [] live outcome)
  | window (a : SignalAct Ev) (rateOrder concOrder : List String) (live : Nat)
      (outcome : UploadOutcome) (w : SignalReporter Ev) (stopped : Bool) :
      a.endsWindow = true → (∀ c, QuietFor c a → outcome = .ok) →
      r.Orders rateOrder concOrder → r.flushWindow rateOrder concOrder live outcome = w →
      SignalMove r a { w with stopped }
  | configure (enabled : Bool) : SignalMove r (.configure enabled) { r with configured := enabled }

theorem adds_move {added : Option (SignalTrendAccumulator Ev)} (ha : a.endsWindow = false)
    (hadded : ∀ b, added = some b → b.rate = r.pending.rate ∧ b.conc = r.pending.conc)
    (hs : (if r.stopped then none else some (r.adds added)) = some r') : SignalMove r a r' := by
  split at hs <;> cases hs
  cases added with
  | none => exact .buffer a r.pending (r.droppedSignals + 1) ha rfl rfl
  | some b => exact .buffer a b r.droppedSignals ha (hadded b rfl).1 (hadded b rfl).2

theorem signalStep_moves (hs : signalStep r a = some r') : SignalMove r a r' := by
  cases a with
  | incrRateLimitHop id duringFallback forbidden =>
    cases hs
    exact .incr id duringFallback forbidden
  | trackInflight id =>
    cases hs
    exact .track id
  | release id => exact .release id r' hs
  | util id s => exact adds_move rfl (fun _ h => addUtil_keeps h) hs
  | revoked id reason => exact adds_move rfl (fun _ h => addRevoked_keeps h) hs
  | event e => exact adds_move rfl (fun _ h => addEvent_keeps h) hs
  | wake live outcome =>
    simp only [signalStep] at hs
    split at hs <;> cases hs
    exact .wake live outcome
  | tick rateOrder concOrder live outcome =>
    simp only [signalStep, ite_none_right_eq_some, Option.some.injEq] at hs
    obtain ⟨h, rfl⟩ := hs
    exact .window _ rateOrder concOrder live outcome _ _ rfl (fun _ hq => hq) h.2 rfl
  | stop rateOrder concOrder live outcome =>
    simp only [signalStep, ite_none_right_eq_some, Option.some.injEq] at hs
    obtain ⟨h, rfl⟩ := hs
    exact .window _ rateOrder concOrder live outcome _ true rfl (fun _ hq => hq) h.2 rfl
  | configure enabled =>
    cases hs
    exact .configure enabled

/-! ### The trends -/

theorem incr_moves (id : String) (duringFallback forbidden : Bool) :
    RateMoves (r.rateTrend c) ((r.incrRateLimitHop id duringFallback forbidden).rateTrend c) ∧
      PeakMoves (r.concTrend c)
        ((r.incrRateLimitHop id duringFallback forbidden).concTrend c) := by
  unfold SignalReporter.incrRateLimitHop
  split
  · exact ⟨.refl, .refl⟩
  · exact ⟨Trend.moves_activity (t := r.rateTrend c) mem_bump rfl, .refl⟩

theorem mem_trackInflight_peak (hid : id ≠ "") :
    c ∈ (r.trackInflight id).inflPeak ↔ c = id ∨ c ∈ r.inflPeak := by
  unfold SignalReporter.trackInflight
  rw [if_neg hid]
  -- the count in flight is positive, so a peak that is not below it has an entry
  have hnone : ∀ t : Tally, id ∉ t → t.get id = 0 := fun _ => get_of_notMem
  grind -linarith [mem_insert, Tally.bump, Tally.get, lookup_insert]

theorem track_moves (id : String) :
    RateMoves (r.rateTrend c) ((r.trackInflight id).rateTrend c) ∧
      PeakMoves (r.concTrend c) ((r.trackInflight id).concTrend c) := by
  by_cases hid : id = ""
  · rw [SignalReporter.trackInflight, if_pos hid]
    exact ⟨.refl, .refl⟩
  · have hmove : Trend.Moves PeakZero (r.concTrend c) _ :=
      Trend.moves_activity (mem_trackInflight_peak hid) rfl
    rw [SignalReporter.trackInflight, if_neg hid] at hmove ⊢
    exact ⟨.refl, hmove⟩

/-- **Every step makes moves** of both trends of a credential. -/
theorem SignalMove.trends (hm : SignalMove r a r') (hok : ClosingZeroKept c r a) :
    RateMoves (r.rateTrend c) (r'.rateTrend c) ∧ PeakMoves (r.concTrend c) (r'.concTrend c) := by
  cases hm with
  | incr id duringFallback forbidden =>
    exact incr_moves id duringFallback forbidden
  | track id => exact track_moves id
  | release id _ hs =>
    unfold SignalReporter.release at hs
    split at hs
    · cases hs
      exact ⟨.refl, .refl⟩
    · cases hs
  | buffer _ pending _ _ hrate hconc =>
    unfold rateTrend concTrend
    rw [hrate, hconc]
    exact ⟨.refl, .refl⟩
  | wake live outcome =>
    exact flush_moves r [] [] live outcome c
  | window _ rateOrder concOrder live outcome w stopped ha _ ho hw =>
    have hmoves := flushWindow_moves ho live outcome (hok ha)
    rw [hw] at hmoves
    exact hmoves
  | configure enabled => exact ⟨.refl, .refl⟩

/-! ### The requests in flight -/

def InflightCounted (c : String) (r : SignalReporter Ev) : Prop :=
  r.inflCur.lookup c =
    if r.openRequests.count c = 0 then none else some (r.openRequests.count c)

theorem InflightCounted.get (h : InflightCounted c r) :
    r.inflCur.get c = r.openRequests.count c := by
  rw [Tally.get, h]
  grind -linarith

theorem InflightCounted.notMem (h : InflightCounted c r) (hc : c ∉ r.openRequests) :
    c ∉ r.inflCur := by
  rw [← lookup_eq_none, h, if_pos (List.count_eq_zero.mpr hc)]

theorem InflightCounted.track (h : InflightCounted c r) (id : String) :
    InflightCounted c (r.trackInflight id) := by
  unfold SignalReporter.trackInflight
  split
  · exact h
  · have hget := h.get
    unfold InflightCounted Tally.bump at *
    grind -linarith [lookup_insert, lookup_insert_ne]

theorem InflightCounted.release (h : InflightCounted c r) (hs : r.release id = some r') :
    InflightCounted c r' := by
  have hget := h.get
  unfold SignalReporter.release Tally.get at hs
  unfold InflightCounted Tally.get at *
  grind -linarith [lookup_insert, lookup_insert_ne, lookup_erase, lookup_erase_ne]

theorem flushWindow_keeps (ho : r.Orders rateOrder concOrder) (live : Nat)
    (outcome : UploadOutcome) :
    ∃ rlFallback rlForbidden rlRisk pending droppedSignals delivered,
      r.flushWindow rateOrder concOrder live outcome =
        { r.nextWindow rlFallback rlForbidden rlRisk with pending, droppedSignals, delivered } ∧
      (r.configured = true → outcome = .ok → ∀ c,
        pending.rate.lookup c = none ∧ pending.conc.lookup c = none) := by
  obtain ⟨rlFallback, rlForbidden, rlRisk, hnext⟩ := flushWindow_eq r ho live outcome
  obtain ⟨droppedSignals, pending, delivered, hflush, hempty, -⟩ := flush_cases
    (r.nextWindow rlFallback rlForbidden rlRisk) (rateOrder.map fun id => (id, r.rateSample id))
    (concOrder.map fun id => (id, r.windowPeaks.get id)) live outcome
  exact ⟨_, _, _, pending, droppedSignals, delivered, hnext.trans hflush, hempty⟩

/-- The requests in flight are counted, and a credential that is counted for the first time has
an entry in its window. -/
theorem SignalMove.counts (hm : SignalMove r a r') :
    (InflightCounted c r → InflightCounted c r') ∧
      (c ∈ r'.refusals → c ∈ r.refusals ∨ c ∈ r'.rlCounts) ∧
      (c ∈ r'.forwards → c ∈ r.forwards ∨ c ∈ r'.inflPeak) := by
  cases hm with
  | incr id duringFallback forbidden =>
    unfold SignalReporter.incrRateLimitHop
    grind -linarith [InflightCounted, mem_bump]
  | track id =>
    refine ⟨fun h => h.track id, ?_⟩
    by_cases hid : id = ""
    · rw [SignalReporter.trackInflight, if_pos hid]
      exact ⟨.inl, .inl⟩
    · rw [mem_trackInflight_peak hid]
      unfold SignalReporter.trackInflight
      grind -linarith
  | release id _ hs =>
    refine ⟨fun h => h.release hs, ?_⟩
    unfold SignalReporter.release at hs
    grind -linarith
  | wake live outcome =>
    obtain ⟨_, _, _, heq, -⟩ := flush_cases r [] [] live outcome
    rw [heq]
    exact ⟨fun h => h, .inl, .inl⟩
  | window _ rateOrder concOrder live outcome w stopped _ _ ho hw =>
    obtain ⟨_, _, _, _, _, _, heq, -⟩ := flushWindow_keeps ho live outcome
    rw [hw] at heq
    subst heq
    exact ⟨fun h => h, .inl, .inl⟩
  | buffer | configure => exact ⟨fun h => h, .inl, .inl⟩

/-! ## Whole runs -/

structure SignalInv (c : String) (r : SignalReporter Ev) : Prop where
  rate : (r.rateTrend c).Closes RateZero
  peak : (r.concTrend c).Closes PeakZero
  rate_seen : c ∈ r.refusals → (r.rateTrend c).Seen
  peak_seen : c ∈ r.forwards → (r.concTrend c).Seen
  inflight : InflightCounted c r

theorem SignalInv.init (c : String) : SignalInv c (newDormantSignalReporter : SignalReporter Ev) where
  rate := .of_none rfl rfl
  peak := .of_none rfl rfl
  rate_seen h := by cases h
  peak_seen h := by cases h
  inflight := rfl

theorem SignalInv.step (h : SignalInv c r) (hok : ClosingZeroKept c r a)
    (hs : signalStep r a = some r') : SignalInv c r' := by
  have hm := signalStep_moves hs
  obtain ⟨hrate, hpeak⟩ := hm.trends hok
  obtain ⟨hinfl, hrefusals, hforwards⟩ := hm.counts (c := c)
  refine ⟨h.rate.moves hrate, h.peak.moves hpeak, ?_, ?_, hinfl h.inflight⟩
  · intro hc
    rcases hrefusals hc with hold | hnew
    · exact (h.rate_seen hold).moves hrate
    · exact .inl (decide_eq_true hnew)
  · intro hc
    rcases hforwards hc with hold | hnew
    · exact (h.peak_seen hold).moves hpeak
    · exact .inl (decide_eq_true hnew)

/-- How far the quiet time of a credential has come: after one window it has no entry and nothing
waits for it, after two no zero is to come. -/
structure QuietLevel (c : String) (n : Nat) (r : SignalReporter Ev) : Prop where
  configured : r.configured = true
  released : c ∉ r.openRequests
  inflight : InflightCounted c r
  window : 1 ≤ n → (c ∉ r.rlCounts ∧ c ∉ r.inflPeak) ∧
    r.pending.rate.lookup c = none ∧ r.pending.conc.lookup c = none
  closed : 2 ≤ n → c ∉ r.rlPrevious ∧ c ∉ r.inflPrevious

theorem QuietLevel.mono {m : Nat} (h : QuietLevel c n r) (hmn : m ≤ n) : QuietLevel c m r :=
  ⟨h.configured, h.released, h.inflight, fun hm => h.window (by omega),
    fun hm => h.closed (by omega)⟩

theorem QuietLevel.window_ends {live : Nat} {w : SignalReporter Ev} (h : QuietLevel c n r)
    (ho : r.Orders rateOrder concOrder) (hw : r.flushWindow rateOrder concOrder live .ok = w)
    (stopped : Bool) : QuietLevel c (n + 1) { w with stopped } := by
  obtain ⟨_, _, _, pending, _, _, heq, hempty⟩ := flushWindow_keeps ho live .ok
  rw [hw] at heq
  subst heq
  refine ⟨h.configured, h.released, h.inflight, ?_, ?_⟩
  · intro _
    exact ⟨⟨notMem_empty c, notMem_empty c⟩, hempty h.configured rfl c⟩
  · intro hn
    have hbefore := h.window (by omega)
    have hpeaks := (mem_windowPeaks r (c := c)).2
    have hcur := h.inflight.notMem h.released
    simp only [nextWindow, List.mem_toFinset, ← AList.mem_keys]
    grind -linarith

theorem QuietLevel.step (h : QuietLevel c n r) (hq : QuietFor c a) (hm : SignalMove r a r') :
    QuietLevel c n r' := by
  have hinfl := (hm.counts (c := c)).1 h.inflight
  obtain ⟨hconf, hreleased, hcounted, hwindow, hclosed⟩ := h
  cases hm with
  | incr id duringFallback forbidden =>
    refine ⟨?_, ?_, hinfl, ?_, ?_⟩ <;>
      grind -linarith [SignalReporter.incrRateLimitHop, mem_bump, QuietFor]
  | track id =>
    have hpeak : id ≠ "" → (c ∈ (r.trackInflight id).inflPeak ↔ c = id ∨ c ∈ r.inflPeak) :=
      mem_trackInflight_peak
    refine ⟨?_, ?_, hinfl, ?_, ?_⟩ <;> grind -linarith [SignalReporter.trackInflight, QuietFor]
  | release id _ hs =>
    unfold SignalReporter.release at hs
    refine ⟨?_, ?_, hinfl, ?_, ?_⟩ <;> grind -linarith [mem_of_mem_erase]
  | buffer _ pending _ _ hrate hconc =>
    exact ⟨hconf, hreleased, hinfl, by rwa [hrate, hconc], hclosed⟩
  | wake live outcome =>
    obtain rfl : outcome = .ok := hq
    obtain ⟨_, _, _, heq, hempty, -⟩ := flush_cases r [] [] live .ok
    rw [heq] at hinfl ⊢
    exact ⟨hconf, hreleased, hinfl, fun hn => ⟨(hwindow hn).1, hempty hconf rfl c⟩, hclosed⟩
  | window _ rateOrder concOrder live outcome w stopped _ hout ho hw =>
    rw [hout c hq] at hw
    exact (QuietLevel.window_ends ⟨hconf, hreleased, hcounted, hwindow, hclosed⟩ ho hw
      stopped).mono (Nat.le_succ n)
  | configure enabled => exact ⟨hq, hreleased, hinfl, hwindow, hclosed⟩

theorem QuietLevel.raise (h : QuietLevel c n r) (hq : QuietFor c a) (ha : a.endsWindow = true)
    (hm : SignalMove r a r') : QuietLevel c (n + 1) r' := by
  cases hm with
  | window _ rateOrder concOrder live outcome w stopped _ hout ho hw =>
    rw [hout c hq] at hw
    exact h.window_ends ho hw stopped
  | buffer _ _ _ hnot => rw [ha] at hnot; cases hnot
  | incr | track | release | wake | configure => cases ha

/-- **An idle credential is reported as idle** when its closing zeros are kept: once it has no
activity, and two windows have ended whose uploads succeeded, the last values delivered for it are
zero. -/
theorem idle_credential_reported_idle (c : String) (acts quiet : List (SignalAct Ev))
    (r₁ r₂ : SignalReporter Ev)
    (hrun : Guarded signalStep (ClosingZeroKept c) newDormantSignalReporter acts r₁)
    (hconf : r₁.configured = true) (hopen : c ∉ r₁.openRequests)
    (hquiet : Guarded signalStep (fun r a => ClosingZeroKept c r a ∧ QuietFor c a) r₁ quiet r₂)
    (hwindows : 2 ≤ quiet.countP SignalAct.endsWindow) : ReportedIdle c r₂ := by
  have h₁ : SignalInv c r₁ :=
    hrun.invariant (fun _ _ _ hinv hok hs => hinv.step hok hs) (SignalInv.init c)
  have h₂ : SignalInv c r₂ :=
    hquiet.invariant (fun _ _ _ hinv hok hs => hinv.step hok.1 hs) h₁
  have hlevel₀ : QuietLevel c 0 r₁ :=
    ⟨hconf, hopen, h₁.inflight, fun h => by omega, fun h => by omega⟩
  have hlevel := hquiet.climb (QuietLevel c)
    (fun _ _ _ _ hl hok hs => QuietLevel.step hl hok.2 (signalStep_moves hs))
    (fun _ _ _ _ ha hl hok hs => QuietLevel.raise hl hok.2 ha (signalStep_moves hs)) hlevel₀
  rw [Nat.zero_add] at hlevel
  obtain ⟨⟨hcounts, hpeaks⟩, hrate, hconc⟩ := hlevel.window (by omega)
  obtain ⟨hrlp, hpkp⟩ := hlevel.closed hwindows
  exact ⟨fun x hx => h₂.rate.last_zero (decide_eq_false hrlp) hrate hx,
    fun p hp => h₂.peak.last_zero (decide_eq_false hpkp) hconc hp,
    fun hc => (h₂.rate_seen hc).last_isSome (decide_eq_false hcounts) (decide_eq_false hrlp) hrate,
    fun hc => (h₂.peak_seen hc).last_isSome (decide_eq_false hpeaks) (decide_eq_false hpkp) hconc⟩

/-- Two requests and a refusal; the uploads of the two windows after them succeed. -/
theorem quiet_after_burst :
    ∃ r₁ r₂ : SignalReporter Unit,
      Guarded signalStep (ClosingZeroKept "a") newDormantSignalReporter
        [.configure true, .trackInflight "a", .incrRateLimitHop "a" false false,
          .trackInflight "a", .release "a", .release "a"] r₁ ∧
      Guarded signalStep (fun r a => ClosingZeroKept "a" r a ∧ QuietFor "a" a) r₁
        [.tick ["a"] ["a"] 0 .ok, .tick ["a"] ["a"] 0 .ok] r₂ ∧
      r₂.delivered.length = 2 ∧ ReportedIdle "a" r₂ := by
  have hexec : ((guardedExec signalStep (ClosingZeroKept "a") newDormantSignalReporter
      [.configure true, .trackInflight "a", .incrRateLimitHop "a" false false,
        .trackInflight "a", .release "a", .release "a"]).bind fun r₁ : SignalReporter Unit =>
      (guardedExec signalStep (fun r a => ClosingZeroKept "a" r a ∧ QuietFor "a" a) r₁
        [.tick ["a"] ["a"] 0 .ok, .tick ["a"] ["a"] 0 .ok]).map fun r₂ =>
      (r₁.configured, r₁.openRequests, r₂.delivered.length)) = some (true, [], 2) := by
    decide +kernel
  obtain ⟨r₁, h₁, hexec⟩ := bind_eq_some_iff.mp hexec
  obtain ⟨r₂, h₂, hvals⟩ := map_eq_some_iff.mp hexec
  obtain ⟨hconf, hopen, hlen⟩ : r₁.configured = true ∧ r₁.openRequests = [] ∧
      r₂.delivered.length = 2 := by
    simpa using hvals
  have hrun := Guarded.of_guardedExec h₁
  have hquiet := Guarded.of_guardedExec h₂
  refine ⟨r₁, r₂, hrun, hquiet, hlen, ?_⟩
  exact idle_credential_reported_idle "a" _ _ r₁ r₂ hrun hconf (by rw [hopen]; decide) hquiet
    (by decide)

/-- One refusal; the upload of its window fails, and all uploads after it succeed. The closing
zero is added to the waiting count. -/
theorem closing_zero_absorbed :
    ¬ ∀ (c : String) (acts quiet : List (SignalAct Unit)) (r₁ r₂ : SignalReporter Unit),
      exec signalStep newDormantSignalReporter acts = some r₁ → r₁.configured = true →
      c ∉ r₁.openRequests → Guarded signalStep (fun _ a => QuietFor c a) r₁ quiet r₂ →
      2 ≤ quiet.countP SignalAct.endsWindow → ReportedIdle c r₂ := by
  intro hall
  have hexec : ((exec signalStep newDormantSignalReporter
      [.configure true, .incrRateLimitHop "a" false false, .tick ["a"] [] 0 .failed]).bind
      fun r₁ : SignalReporter Unit =>
      (guardedExec signalStep (fun _ a => QuietFor "a" a) r₁
        [.tick ["a"] [] 0 .ok, .tick [] [] 0 .ok, .tick [] [] 0 .ok]).map fun r₂ =>
      (r₁.configured, r₁.openRequests, (r₂.lastRate "a").map RateLimitSample.count)) =
      some (true, [], some 1) := by
    decide +kernel
  obtain ⟨r₁, h₁, hexec⟩ := bind_eq_some_iff.mp hexec
  obtain ⟨r₂, h₂, hvals⟩ := map_eq_some_iff.mp hexec
  obtain ⟨hconf, hopen, hlast⟩ : r₁.configured = true ∧ r₁.openRequests = [] ∧
      (r₂.lastRate "a").map RateLimitSample.count = some 1 := by
    simpa using hvals
  have hidle := hall "a" _ _ r₁ r₂ h₁ hconf (by rw [hopen]; decide) (Guarded.of_guardedExec h₂)
    (by decide)
  obtain ⟨x, hx, hcount⟩ := map_eq_some_iff.mp hlast
  have hzero := hidle.rate x hx
  omega

end AikeyProxy.Proxy
