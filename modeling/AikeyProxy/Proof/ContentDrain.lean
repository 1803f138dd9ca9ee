import AikeyProxy.Events.ContentReporter

/-!
# What a content pass selects

The reporter finds undelivered entries through `sentSeq`, one cursor per source. Each batch that
ends for good moves the cursor to its own maximum whatever became of the batches before it. So an
undelivered entry is found again as long as no final batch passes one it does not carry, none is
written at or below the cursor, neither rotation nor pruning takes its file, and the WAL is read to
its end (`ContentStepOk`).
-/

namespace AikeyProxy.Events

open Lib ContentWorld ContentReporter ContentAnswer List

def ContentStepOk (cfg : ContentConfig) (s : ContentWorld) : ContentAct → Prop
  | .append sourceID sourceSeq record env =>
    -- the entry is numbered above what its source has sent, and making room for it
    -- evicts nothing undelivered
    (undelivered s.uploads (s.wal.nextEntry sourceID sourceSeq record) = true →
        sourceID ≠ "" ∧ s.rep.sentSeq sourceID < sourceSeq) ∧
      ∀ f ∈ s.wal.files, f ∉ (s.wal.ensureFile cfg.toContentWALConfig env).files →
        ∀ e ∈ f.entries, undelivered s.uploads e = false
  | .flush (some answer) =>
    answer.final = true → ∀ p ∈ s.pass,
      Covers ContentWALEntry.sourceID ContentWALEntry.sourceSeq s.openEntries p.pending
  | .passEnd _ env =>
    ∀ f ∈ s.wal.files, s.rep.prunes env s.wal.current f = true →
      ∀ e ∈ f.entries, undelivered s.uploads e = false
  | .flush none => True
  | .passStart _ _ reach => ReadsAll reach s.wal.files
  | .scan => True
  | .restart => True

instance (cfg : ContentConfig) (s : ContentWorld) : ∀ a, Decidable (ContentStepOk cfg s a)
  | .append .. => inferInstanceAs (Decidable (_ ∧ ∀ _ ∈ _, _))
  | .flush (some _) => inferInstanceAs (Decidable (_ → ∀ _ ∈ _, _))
  | .passEnd .. | .passStart .. => inferInstanceAs (Decidable (∀ _ ∈ _, _))
  | .flush none | .scan | .restart => isTrue trivial

variable {s : ContentWorld} {cfg : ContentConfig} {e : ContentWALEntry} {u : ContentUpload}
  {p : ContentPass} {a : ContentAct} {s' : ContentWorld} {env : AppendEnv} {rep : ContentReporter}

/-! ## Delivery and the cursor -/

theorem undelivered_append {us : List ContentUpload} :
    undelivered (us ++ [u]) e = true ↔
      undelivered us e = true ∧ (u.answer.final = true → e ∉ u.batch) := by
  simp [undelivered, or_iff_not_imp_left]

theorem mem_openEntries : e ∈ s.openEntries ↔ e ∈ s.appended ∧ undelivered s.uploads e = true :=
  mem_filter

theorem advance_eq {sentSeq : String → Int} (h : ∀ k, 0 ≤ sentSeq k)
    (batch : List ContentWALEntry) :
    advance sentSeq batch = raiseAll sentSeq (batch.map fun e => (e.sourceID, e.sourceSeq)) := by
  funext k
  refine eq_of_forall_le_iff fun i => ?_
  simp only [advance, maxSeq, le_raiseAll_iff, mem_map, exists_exists_and_eq_and]
  constructor
  · rintro (hle | ⟨e, he, rfl, hle | hbatch⟩)
    · exact Or.inl hle
    · exact Or.inl (hle.trans (h _))
    · exact Or.inr hbatch
  · rintro (hle | ⟨e, he, hk, hle⟩)
    · exact Or.inl hle
    · exact Or.inr ⟨e, he, hk, Or.inr ⟨e, he, rfl, hle⟩⟩

theorem uploadBatch_sentSeq (r : ContentReporter) (batch : List ContentWALEntry)
    (answer : ContentAnswer) :
    (r.uploadBatch batch answer).sentSeq =
      if answer.final then advance r.sentSeq batch else r.sentSeq := by
  cases answer with
  | encodeFailed | ok contiguousSeq => rfl
  | failed status =>
    by_cases hr : retryableStatus status = true <;> simp [uploadBatch, final, hr]

/-! ## The invariant -/

structure ContentPassInv (s : ContentWorld) (p : ContentPass) : Prop where
  written : ∀ e ∈ p.openAtStart, e ∈ s.appended
  sound : p.Sound id fun e => undelivered s.uploads e = true

structure ContentInv (s : ContentWorld) : Prop where
  stored : ∀ e ∈ s.openEntries, Holds s.wal.files e
  numbered : ∀ e ∈ s.openEntries, e.sourceID ≠ "" ∧ 0 < e.sourceSeq
  clear : Clear ContentWALEntry.sourceID ContentWALEntry.sourceSeq s.rep.sentSeq s.openEntries
  sent : ∀ k, 0 ≤ s.rep.sentSeq k
  pass : ∀ p ∈ s.pass, ContentPassInv s p

theorem contentInv_init : ContentInv ContentWorld.init where
  stored := nofun
  numbered := nofun
  clear := nofun
  sent := fun _ => Int.le_refl 0
  pass := nofun

theorem content_not_skipped (h : ContentInv s) (he : e ∈ s.openEntries) :
    s.rep.skips e = false := by
  obtain ⟨hsource, hpos⟩ := h.numbered e he
  have hclear := h.clear e he
  simp only [skips, Bool.or_eq_false_iff, decide_eq_false_iff_not]
  exact ⟨⟨hsource, by omega⟩, by omega⟩

/-! ## The steps keep it -/

theorem mem_openEntries_append {wal : ContentWAL} {x : ContentWALEntry}
    (he : e ∈ ({ s with wal := wal, appended := s.appended ++ [x] } : ContentWorld).openEntries) :
    e ∈ s.openEntries ∨ e = x ∧ undelivered s.uploads x = true := by
  obtain ⟨hmem, hopen⟩ := mem_openEntries.mp he
  rcases mem_append.mp hmem with hmem | hmem
  · exact Or.inl (mem_openEntries.mpr ⟨hmem, hopen⟩)
  · obtain rfl := mem_singleton.mp hmem
    exact Or.inr ⟨rfl, hopen⟩

theorem contentInv_append {sourceID record : String} {sourceSeq : Int} (h : ContentInv s)
    (hok : ContentStepOk cfg s (.append sourceID sourceSeq record env)) :
    ContentInv { s with
      wal := s.wal.append cfg.toContentWALConfig env (s.wal.nextEntry sourceID sourceSeq record)
      appended := s.appended ++ [s.wal.nextEntry sourceID sourceSeq record] } := by
  obtain ⟨hnew, hroom⟩ := hok
  constructor
  · intro e he
    refine holds_appendToFile.mpr ?_
    rcases mem_openEntries_append he with hold | ⟨hx, _⟩
    · refine Or.inr ((h.stored e hold).kept fun f hf hgone hin => ?_)
      have hclosed := hroom f hf hgone e hin
      exact absurd ((mem_openEntries.mp hold).2.symm.trans hclosed) (by simp)
    · exact Or.inl hx
  · intro e he
    rcases mem_openEntries_append he with hold | ⟨hx, hopen⟩
    · exact h.numbered e hold
    · obtain ⟨hsource, habove⟩ := hnew hopen
      have hsent := h.sent sourceID
      rw [hx]
      exact ⟨hsource, show 0 < sourceSeq by omega⟩
  · intro e he
    rcases mem_openEntries_append he with hold | ⟨hx, hopen⟩
    · exact h.clear e hold
    · rw [hx]; exact (hnew hopen).2
  · exact h.sent
  · intro p hp
    have hinv := h.pass p hp
    exact ⟨fun e he => mem_append_left _ (hinv.written e he), hinv.sound⟩

theorem ContentInv.withPass (h : ContentInv s) (hp : ContentPassInv s p) :
    ContentInv { s with pass := some p } where
  stored := h.stored
  numbered := h.numbered
  clear := h.clear
  sent := h.sent
  pass := by
    intro q hq
    cases hq
    exact ⟨hp.written, hp.sound⟩

theorem contentPassInv_start {reach : String → Nat} (h : ContentInv s)
    (hread : ReadsAll reach s.wal.files) :
    ContentPassInv s ⟨.start (readAllContentWAL reach s.wal.files) s.openEntries, false⟩ where
  written := fun _ he => (mem_openEntries.mp he).1
  sound := by
    refine .start (fun _ he => (mem_openEntries.mp he).2) fun e he => ?_
    rw [readAllContentWAL, hread.eq_contents]
    exact mem_contents.mpr (h.stored e he)

theorem contentPassInv_skip (h : ContentInv s) (hp : ContentPassInv s p)
    {rest : List ContentWALEntry} (hrem : p.remaining = e :: rest) (hskip : s.rep.skips e = true) :
    ContentPassInv s ⟨p.skip rest, p.anyRetryable⟩ where
  written := hp.written
  sound := by
    refine hp.sound.skip hrem fun x hx hxe hopen => ?_
    -- had it been undelivered, the cursor would be below it
    have hnot := content_not_skipped h (mem_openEntries.mpr ⟨hp.written x hx, hopen⟩)
    rw [show x = e from hxe, hskip] at hnot
    cases hnot

theorem openEntries_upload {pass : Option ContentPass} {u : ContentUpload} :
    ({ s with rep := rep, pass := pass, uploads := s.uploads ++ [u] } : ContentWorld).openEntries =
      if u.answer.final then s.openEntries.filter fun e => decide (e ∉ u.batch)
      else s.openEntries := by
  unfold openEntries
  split
  next hfinal =>
    rw [filter_filter]
    refine filter_congr fun e _ => ?_
    rw [Bool.eq_iff_iff, undelivered_append]
    simp [hfinal, and_comm]
  next hfinal =>
    refine filter_congr fun e _ => ?_
    rw [Bool.eq_iff_iff, undelivered_append]
    simp [hfinal]

theorem mem_openEntries_upload
    {pass : Option ContentPass} {u : ContentUpload}
    (he : e ∈ ({ s with rep := rep, pass := pass,
                         uploads := s.uploads ++ [u] } : ContentWorld).openEntries) :
    e ∈ s.openEntries := by
  obtain ⟨hmem, hopen⟩ := mem_openEntries.mp he
  exact mem_openEntries.mpr ⟨hmem, (undelivered_append.mp hopen).1⟩

theorem contentInv_upload {answer : ContentAnswer} (h : ContentInv s) (hp : s.pass = some p)
    (hok : ContentStepOk cfg s (.flush (some answer))) :
    ContentInv { s with
      rep := s.rep.uploadBatch p.pending answer
      pass := some (p.flushed answer.retryable)
      uploads := s.uploads ++ [⟨p.pending, answer⟩] } where
  stored := fun e he => h.stored e (mem_openEntries_upload he)
  numbered := fun e he => h.numbered e (mem_openEntries_upload he)
  clear := by
    rw [openEntries_upload]
    show Clear _ _ (s.rep.uploadBatch p.pending answer).sentSeq _
    rw [uploadBatch_sentSeq]
    by_cases hfinal : answer.final = true
    · -- the batch covers what its maxima pass, so the raised cursor hides nothing
      rw [if_pos hfinal, if_pos hfinal, advance_eq h.sent]
      exact (clear_raiseAll_iff h.clear).mpr (hok hfinal p hp)
    · rw [if_neg hfinal, if_neg hfinal]
      exact h.clear
  sent := by
    intro k
    show 0 ≤ (s.rep.uploadBatch p.pending answer).sentSeq k
    rw [uploadBatch_sentSeq]
    split
    · exact le_raiseAll_iff.mpr (Or.inl (h.sent k))
    · exact h.sent k
  pass := by
    intro q hq
    cases hq
    have hinv := h.pass p hp
    refine ⟨hinv.written, hinv.sound.handOver fun e hopen => ?_⟩
    by_cases hin : e ∈ p.pending
    · exact Or.inr hin
    · exact Or.inl (undelivered_append.mpr ⟨hopen, fun _ => hin⟩)

theorem contentInv_finish {now : Int} {env : PruneEnv} (h : ContentInv s) (anyRetryable : Bool)
    (hok : ContentStepOk cfg s (.passEnd now env)) :
    ContentInv { s with
      wal := { s.wal with files := s.rep.pruneConfirmed env s.wal.current s.wal.files }
      rep := s.rep.arm anyRetryable now
      pass := none } where
  stored := by
    intro e he
    refine (h.stored e he).kept fun f hf hgone hin => ?_
    have hpruned : s.rep.prunes env s.wal.current f = true := by
      by_contra hkeep
      exact hgone (mem_filter.mpr ⟨hf, by simpa using hkeep⟩)
    have hclosed := hok f hf hpruned e hin
    exact absurd ((mem_openEntries.mp he).2.symm.trans hclosed) (by simp)
  numbered := h.numbered
  clear := h.clear
  sent := h.sent
  pass := nofun

theorem contentInv_restart (h : ContentInv s) :
    ContentInv { s with
      wal := { ContentWAL.init with files := s.wal.files }
      rep := .init
      pass := none } where
  stored := h.stored
  numbered := h.numbered
  clear := fun e he => (h.numbered e he).2
  sent := fun _ => Int.le_refl 0
  pass := nofun

theorem contentInv_step (h : ContentInv s) (hok : ContentStepOk cfg s a)
    (hs : contentStep cfg s a = some s') : ContentInv s' := by
  revert hs
  fun_cases contentStep cfg s a <;> intro hs <;> cases hs
  next => exact contentInv_append h hok
  next => exact h
  next => exact h.withPass (contentPassInv_start h hok)
  next p hp _ p' hscan =>
    have hpass := h.pass p hp
    revert hscan
    fun_cases ContentPass.scan s.rep p <;> intro hscan <;> cases hscan
    next hrem hskip => exact h.withPass (contentPassInv_skip h hpass hrem hskip)
    next hrem _ => exact h.withPass ⟨hpass.written, hpass.sound.select hrem fun _ hx => hx⟩
  next p hp _ =>
    have hpass := h.pass p hp
    exact h.withPass ⟨hpass.written, hpass.sound.handOver fun _ hopen => Or.inl hopen⟩
  next hp _ _ => exact contentInv_upload h hp hok
  next => exact contentInv_finish h _ hok
  next => exact contentInv_restart h

theorem contentInv_reachable {acts : List ContentAct}
    (hrun : Guarded (contentStep cfg) (ContentStepOk cfg) ContentWorld.init acts s) :
    ContentInv s :=
  hrun.invariant (fun _ _ _ hi ho hs => contentInv_step hi ho hs) contentInv_init

/-! ## Every pass comes to its end -/

theorem content_scan_work (r : ContentReporter) (hrem : p.remaining ≠ []) :
    ∃ p', p.scan r = some p' ∧ p'.work < p.work := by
  obtain ⟨e, rest, hcons⟩ := exists_cons_of_ne_nil hrem
  simp only [ContentPass.scan, hcons]
  split
  · exact ⟨_, rfl, Sweep.skip_work hcons⟩
  · exact ⟨_, rfl, Sweep.select_work hcons e⟩

theorem content_pass_advances (hp : s.pass = some p) (hrem : p.remaining ≠ [])
    (answer : Option ContentAnswer) :
    ∃ a s' p', (a = .scan ∨ a = .flush answer) ∧ contentStep cfg s a = some s' ∧
      s'.pass = some p' ∧ p'.work < p.work := by
  by_cases hfull : cfg.batchSize ≤ p.pending.length
  · -- a full batch goes out before the next entry is looked at
    have hne : p.pending ≠ [] := length_pos_iff.mp (Nat.lt_of_lt_of_le cfg.batchSize_pos hfull)
    have hmust : p.mustFlush cfg.toContentReporterConfig = true := by
      simp [ContentPass.mustFlush, hne, hfull]
    refine ⟨.flush answer, ?_⟩
    cases answer <;> simp only [contentStep, hp, hmust, if_true] <;>
      exact ⟨_, _, Or.inr trivial, rfl, rfl, Sweep.handOver_work hne⟩
  · obtain ⟨p', hscan, hless⟩ := content_scan_work s.rep hrem
    exact ⟨.scan, { s with pass := some p' }, p', Or.inl rfl,
      by simp only [contentStep, hp, hfull, if_false, hscan], rfl, hless⟩

/-- **A pass selects every entry that was undelivered when it started**, in a run whose steps meet
`ContentStepOk`: the entry has been selected or is still ahead, and while entries are ahead the pass
moves on. -/
theorem undelivered_selected_again {cfg : ContentConfig} {acts : List ContentAct} {s : ContentWorld}
    (hrun : Guarded (contentStep cfg) (ContentStepOk cfg) ContentWorld.init acts s)
    {p : ContentPass} (hp : s.pass = some p) :
    (∀ e ∈ p.openAtStart, e ∈ p.selected ∨ e ∈ p.remaining) ∧
      (p.remaining ≠ [] → ∀ answer, ∃ a s' p', (a = .scan ∨ a = .flush answer) ∧
        contentStep cfg s a = some s' ∧ s'.pass = some p' ∧ p'.work < p.work) :=
  ⟨((contentInv_reachable hrun).pass p hp).sound.ahead, content_pass_advances hp⟩

/-! ## Two batches of one source -/

def singleBatches : ContentConfig :=
  { newContentReporterConfig "https://collector" 1, newContentWALConfig 0 0 with }

/-- A short line on a file system that removes what it is asked to. -/
def appendEnv : AppendEnv := ⟨1700000000000, 40, fun _ => true⟩

def pruneEnv : PruneEnv := ⟨fun _ => true, fun _ => true⟩

/-- Two entries of one source, and a pass that uploads each in its own batch. -/
def twoBatches (first second : ContentAnswer) : List ContentAct :=
  [.append "src" 1 "r1" appendEnv, .append "src" 2 "r2" appendEnv, .passStart 0 false fun _ => 2,
    .scan, .flush (some first), .scan, .flush (some second), .passEnd 0 pruneEnv]

/-- The cursor stands at the second entry, and the next pass does not select the first. -/
theorem later_batch_hides_entry :
    ¬ ∀ (cfg : ContentConfig) (acts : List ContentAct) (s : ContentWorld) (p : ContentPass),
      exec (contentStep cfg) ContentWorld.init acts = some s → s.pass = some p →
      ∀ e ∈ p.openAtStart, e ∈ p.selected ∨ e ∈ p.remaining := by
  intro h
  have hsel := h singleBatches
    (twoBatches (.failed 503) (.ok []) ++ [.passStart 60000 false fun _ => 2, .scan, .scan]) _ _ rfl
    rfl ⟨"src", "r1", 1, 1⟩ (by decide)
  exact absurd hsel (by decide)

/-- Both batches fail in an outage; the pass after the backoff selects both entries again. -/
theorem outage_retries_both :
    ∃ s p, guardedExec (contentStep singleBatches) (ContentStepOk singleBatches)
        ContentWorld.init (twoBatches (.failed 503) (.failed 503) ++
          [.passStart 60000 false fun _ => 2, .scan, .flush (some (.ok [("src", 1)])), .scan]) =
        some s ∧
      s.pass = some p ∧ p.openAtStart ≠ [] ∧ p.remaining = [] ∧
      ∀ e ∈ p.openAtStart, e ∈ p.selected ∨ e ∈ p.remaining := by
  have hrun := Guarded.of_guardedExec (show guardedExec (contentStep singleBatches)
    (ContentStepOk singleBatches) .init
    (twoBatches (.failed 503) (.failed 503) ++
      [.passStart 60000 false fun _ => 2, .scan, .flush (some (.ok [("src", 1)])), .scan]) =
      some _ from rfl)
  exact ⟨_, _, rfl, rfl, by decide, by decide, (undelivered_selected_again hrun rfl).1⟩

end AikeyProxy.Events
