import AikeyProxy.Proof.ReporterSpec

/-!
# What a drain pass selects

An event that is numbered, has a destination and sits in no finished group is *open*, and every
ungated pass should select it again. The reporter finds it through `sentSeq`, one cursor per source
id, although numbers are allocated per lane and groups finish independently. So that holds as long
as finished groups pass no open event but their own, none is appended at or below the cursor, no
file with one is pruned, the WAL is read to its end, and no pass is cut short before one (`StepOk`).
-/

namespace AikeyProxy.Events

open Lib List

def StepOk (cfg : ReporterConfig) (w : World) : Act → Prop
  | .append ev _ => isOpen cfg w.uploads ev = true → w.rep.sentSeq ev.sourceID < ev.seq
  | .flush env =>
    ∀ p ∈ w.pass, Covers ReportableEvent.sourceID ReportableEvent.seq (w.openEvents cfg)
      (env.finishing cfg p.pending)
  | .expire => ∀ p ∈ w.pass, ∀ e ∈ p.remaining, isOpen cfg w.uploads e.wireEvent = false
  | .passEnd _ env =>
    ∀ f ∈ w.files, w.rep.prunes env w.current f = true →
      ∀ e ∈ f.entries, isOpen cfg w.uploads e.wireEvent = false
  | .passStart _ _ reach => ReadsAll reach w.files
  | .scan => True

instance (cfg : ReporterConfig) (w : World) : ∀ a, Decidable (StepOk cfg w a)
  | .append .. => inferInstanceAs (Decidable (_ → _))
  | .flush _ | .expire | .passEnd .. | .passStart .. => inferInstanceAs (Decidable (∀ _ ∈ _, _))
  | .scan => isTrue trivial

/-! ## Open events -/

variable {ev : ReportableEvent} {cfg : ReporterConfig} {w : World} {p : Pass}

variable {us : List Upload} {hour : String} {rest : List WALEntry}

theorem isOpen_iff :
    isOpen cfg us ev = true ↔
      0 < ev.seq ∧ cfg.urlForEvent ev ≠ "" ∧ ev ∉ finishedEvents us := by
  simp [isOpen, and_assoc]

theorem mem_openEvents : ev ∈ w.openEvents cfg ↔ ev ∈ w.appended ∧ isOpen cfg w.uploads ev = true :=
  mem_filter

theorem isOpen_append {made : List Upload} :
    isOpen cfg (us ++ made) ev = true ↔
      isOpen cfg us ev = true ∧ ev ∉ finishedEvents made := by
  rw [isOpen_iff, isOpen_iff, finishedEvents_append, mem_append, not_or]
  tauto

theorem mem_numberedOf {evs : List ReportableEvent} (hpos : 0 < ev.seq) :
    ev ∈ numberedOf evs ↔ ev ∈ evs := by
  rw [numberedOf, mem_filter, and_iff_left_iff_imp]
  intro _
  cases hseq : ev.sourceSeq with
  | none => rw [ReportableEvent.seq, hseq] at hpos; cases hpos
  | some n => rfl

theorem Covers.numbered {fin : List ReportableEvent}
    (h : Covers ReportableEvent.sourceID ReportableEvent.seq (w.openEvents cfg) fin) :
    Covers ReportableEvent.sourceID ReportableEvent.seq (w.openEvents cfg) (numberedOf fin) := by
  intro x hx y hy hk hn
  have hyfin : y ∈ fin := h x (mem_filter.mp hx).1 y hy hk hn
  exact (mem_numberedOf (isOpen_iff.mp (mem_openEvents.mp hy).2).1).mpr hyfin

/-! ## The invariant -/

structure DrainPassInv (cfg : ReporterConfig) (w : World) (p : Pass) : Prop where
  written : ∀ ev ∈ p.openAtStart, ev ∈ w.appended
  sound : p.Sound walEntryOf fun ev => isOpen cfg w.uploads ev = true

structure DrainInv (cfg : ReporterConfig) (w : World) : Prop where
  stored : ∀ ev ∈ w.openEvents cfg, Holds w.files (walEntryOf ev)
  clear : Clear ReportableEvent.sourceID ReportableEvent.seq w.rep.sentSeq (w.openEvents cfg)
  pass : ∀ p ∈ w.pass, DrainPassInv cfg w p

theorem drainInv_init (cfg : ReporterConfig) : DrainInv cfg World.init where
  stored := nofun
  clear := nofun
  pass := nofun

theorem not_skips_of_open (h : DrainInv cfg w) (hev : ev ∈ w.openEvents cfg) :
    w.rep.skips (walEntryOf ev) = false := by
  have hpos := (isOpen_iff.mp (mem_openEvents.mp hev).2).1
  have hlt : w.rep.sentSeq ev.sourceID < ev.seq := h.clear ev hev
  have hnum : (walEntryOf ev).numbered = true := by
    rw [walEntryOf_numbered]; exact decide_eq_true hpos
  rw [Reporter.skips, if_pos hnum, walEntryOf_sourceSeq, walEntryOf_sourceID]
  exact decide_eq_false (not_le.mpr hlt)

/-! ## The steps keep it -/

theorem mem_openEvents_append {ev' : ReportableEvent}
    (h : ev' ∈ (w.append ev hour).openEvents cfg) :
    ev' ∈ w.openEvents cfg ∨ ev' = ev ∧ isOpen cfg w.uploads ev = true := by
  obtain ⟨hmem, hopen⟩ := mem_openEvents.mp h
  rcases mem_append.mp hmem with hmem | hmem
  · exact Or.inl (mem_openEvents.mpr ⟨hmem, hopen⟩)
  · obtain rfl := mem_singleton.mp hmem
    exact Or.inr ⟨rfl, hopen⟩

theorem drainInv_append (h : DrainInv cfg w) (hok : StepOk cfg w (.append ev hour)) :
    DrainInv cfg (w.append ev hour) where
  stored := by
    intro ev' hev'
    refine holds_appendToFile.mpr ?_
    rcases mem_openEvents_append hev' with hold | ⟨hnew, _⟩
    · exact Or.inr (h.stored ev' hold)
    · exact Or.inl (by rw [hnew])
  clear := by
    intro ev' hev'
    rcases mem_openEvents_append hev' with hold | ⟨hnew, hopen⟩
    · exact h.clear ev' hold
    · rw [hnew]; exact hok hopen
  pass := by
    intro p hp
    have hinv := h.pass p hp
    exact ⟨fun ev' hev' => mem_append_left _ (hinv.written ev' hev'), hinv.sound⟩

theorem DrainInv.withPass (h : DrainInv cfg w) (hp : DrainPassInv cfg w p) :
    DrainInv cfg { w with pass := some p } where
  stored := h.stored
  clear := h.clear
  pass := by
    intro q hq
    cases hq
    exact ⟨hp.written, hp.sound⟩

theorem drainPassInv_start {reach : String → Nat} (h : DrainInv cfg w)
    (hread : ReadsAll reach w.files) :
    DrainPassInv cfg w ⟨.start (readAllWAL reach w.files) (w.openEvents cfg), false⟩ where
  written := fun _ hev => (mem_openEvents.mp hev).1
  sound := by
    refine .start (fun _ hev => (mem_openEvents.mp hev).2) fun ev hev => ?_
    rw [show readAllWAL reach w.files = contents w.files from hread.eq_contents]
    exact mem_contents.mpr (h.stored ev hev)

theorem drainPassInv_skip (h : DrainInv cfg w) (hp : DrainPassInv cfg w p) {e : WALEntry}
    (hrem : p.remaining = e :: rest) (hskip : w.rep.skips e = true) :
    DrainPassInv cfg w ⟨p.skip rest, p.anyRetryable⟩ where
  written := hp.written
  sound := by
    refine hp.sound.skip hrem fun ev hev he hopen => ?_
    -- had it been open, the cursor would be below it
    have hnot := not_skips_of_open h (mem_openEvents.mpr ⟨hp.written ev hev, hopen⟩)
    rw [he, hskip] at hnot
    cases hnot

theorem drainPassInv_select (hp : DrainPassInv cfg w p) {e : WALEntry}
    (hrem : p.remaining = e :: rest) :
    DrainPassInv cfg w ⟨p.select e.wireEvent rest, p.anyRetryable⟩ where
  written := hp.written
  sound := hp.sound.select hrem fun ev he => by rw [← he, wireEvent_walEntryOf]

theorem drainPassInv_expire (hp : DrainPassInv cfg w p)
    (hnone : ∀ e ∈ p.remaining, isOpen cfg w.uploads e.wireEvent = false) :
    DrainPassInv cfg w (p.expire cfg) where
  written := hp.written
  sound := by
    refine hp.sound.stop fun ev _ hin hopen => ?_
    have hclosed := hnone _ hin
    rw [wireEvent_walEntryOf] at hclosed
    exact absurd (hclosed.symm.trans hopen) (by simp)

theorem drainInv_flush {env : FlushEnv} (h : DrainInv cfg w) (hp : w.pass = some p)
    (hok : StepOk cfg w (.flush env)) :
    DrainInv cfg { w with
      rep := (uploadPending cfg env w.rep p.pending).rep
      pass := some ⟨p.handOver,
        p.anyRetryable || (uploadPending cfg env w.rep p.pending).anyRetryable⟩
      uploads := w.uploads ++ (uploadPending cfg env w.rep p.pending).made } := by
  have hraised := uploadPending_raised cfg env w.rep p.pending
  have hfin : finishedEvents (uploadPending cfg env w.rep p.pending).made = env.finishing cfg p.pending :=
      finishedEvents_uploadGroups cfg env w.rep _
  set out := uploadPending cfg env w.rep p.pending with hout
  have hopens : ∀ ev, isOpen cfg (w.uploads ++ out.made) ev = true ↔
      isOpen cfg w.uploads ev = true ∧ ev ∉ env.finishing cfg p.pending := by
    intro ev
    rw [isOpen_append, hfin]
  constructor
  · intro ev hev
    obtain ⟨hmem, hopen⟩ := mem_openEvents.mp hev
    exact h.stored ev (mem_openEvents.mpr ⟨hmem, ((hopens ev).mp hopen).1⟩)
  · show Clear _ _ out.rep.sentSeq _
    rw [hraised.sent, hfin]
    have hclear := (clear_raiseAll_iff h.clear).mpr (Covers.numbered (hok p hp))
    refine Clear.subset hclear fun ev hev => ?_
    obtain ⟨hmem, hopen⟩ := mem_openEvents.mp hev
    obtain ⟨hwas, hnot⟩ := (hopens ev).mp hopen
    refine mem_filter.mpr ⟨mem_openEvents.mpr ⟨hmem, hwas⟩, decide_eq_true ?_⟩
    rw [mem_numberedOf (isOpen_iff.mp hwas).1]
    exact hnot
  · intro q hq
    cases hq
    have hinv := h.pass p hp
    refine ⟨hinv.written, hinv.sound.handOver fun ev hopen => ?_⟩
    by_cases hdone : ev ∈ finishedEvents out.made
    · -- only events of the batch are finished
      obtain ⟨u, hu, _, hev⟩ := mem_finishedEvents.mp hdone
      exact Or.inr ((uploadPending_made hu).subset ev hev)
    · exact Or.inl (isOpen_append.mpr ⟨hopen, hdone⟩)

theorem drainInv_finish {now : Int} {env : PruneEnv} (h : DrainInv cfg w) (anyRetryable : Bool)
    (hok : StepOk cfg w (.passEnd now env)) :
    DrainInv cfg { w with
      files := w.rep.pruneConfirmedWAL env w.current w.files
      rep := w.rep.arm anyRetryable now
      pass := none } where
  stored := by
    intro ev hev
    refine (h.stored ev hev).kept fun f hf hgone hin => ?_
    have hpruned : w.rep.prunes env w.current f = true := by
      by_contra hkeep
      exact hgone (mem_filter.mpr ⟨hf, by simpa using hkeep⟩)
    have hclosed := hok f hf hpruned _ hin
    rw [wireEvent_walEntryOf] at hclosed
    exact absurd (hclosed.symm.trans (mem_openEvents.mp hev).2) (by simp)
  clear := h.clear
  pass := nofun

theorem drainInv_step {w' : World} {a : Act} (h : DrainInv cfg w) (hok : StepOk cfg w a)
    (hs : step cfg w a = some w') : DrainInv cfg w' := by
  cases step_effect hs with
  | append ev hour => exact drainInv_append h hok
  | gated => exact h
  | start => exact h.withPass (drainPassInv_start h hok)
  | skip hp hrem hskip => exact h.withPass (drainPassInv_skip h (h.pass _ hp) hrem hskip)
  | select hp hrem => exact h.withPass (drainPassInv_select (h.pass _ hp) hrem)
  | flush env hp => exact drainInv_flush h hp hok
  | expire hp => exact h.withPass (drainPassInv_expire (h.pass _ hp) (hok _ hp))
  | finish => exact drainInv_finish h _ hok

theorem drainInv_reachable {acts : List Act}
    (hrun : Guarded (step cfg) (StepOk cfg) World.init acts w) : DrainInv cfg w :=
  hrun.invariant (fun _ _ _ hi ho hs => drainInv_step hi ho hs) (drainInv_init cfg)

/-! ## Every pass comes to its end -/

theorem scan_work (r : Reporter) (hrem : p.remaining ≠ []) :
    ∃ p', p.scan r = some p' ∧ p'.work < p.work := by
  obtain ⟨e, rest, hcons⟩ := exists_cons_of_ne_nil hrem
  simp only [Pass.scan, hcons]
  split
  · exact ⟨_, rfl, Sweep.skip_work hcons⟩
  · exact ⟨_, rfl, Sweep.select_work hcons e.wireEvent⟩

/-- While entries are left, the pass can take a step, and every such step brings it closer to its
end. -/
theorem pass_advances (hp : w.pass = some p) (hrem : p.remaining ≠ []) (env : FlushEnv) :
    ∃ a w' p', (a = .scan ∨ a = .flush env) ∧ step cfg w a = some w' ∧ w'.pass = some p' ∧
      p'.work < p.work := by
  by_cases hfull : cfg.batchSize ≤ p.pending.length
  · -- a full batch goes out before the next entry is looked at
    have hne : p.pending ≠ [] := length_pos_iff.mp (Nat.lt_of_lt_of_le cfg.batchSize_pos hfull)
    have hmust : p.mustFlush cfg = true := by simp [Pass.mustFlush, hne, hfull]
    refine ⟨.flush env, ?_⟩
    simp only [step, hp, hmust, if_true]
    exact ⟨_, _, Or.inr trivial, rfl, rfl, Sweep.handOver_work hne⟩
  · obtain ⟨p', hscan, hless⟩ := scan_work w.rep hrem
    exact ⟨.scan, { w with pass := some p' }, p', Or.inl rfl,
      by simp only [step, hp, hfull, if_false, hscan], rfl, hless⟩

/-- **An ungated pass selects every open event**, in a run whose steps meet `StepOk`: an event that
was open when the pass started has been selected or is still ahead, and while entries are ahead the
pass moves on. -/
theorem ungated_drain_selects_open {cfg : ReporterConfig} {acts : List Act} {w : World}
    (hrun : Guarded (step cfg) (StepOk cfg) World.init acts w) {p : Pass} (hp : w.pass = some p) :
    (∀ ev ∈ p.openAtStart, ev ∈ p.selected ∨ walEntryOf ev ∈ p.remaining) ∧
      (p.remaining ≠ [] → ∀ env, ∃ a w' p', (a = .scan ∨ a = .flush env) ∧
        step cfg w a = some w' ∧ w'.pass = some p' ∧ p'.work < p.work) :=
  ⟨((drainInv_reachable hrun).pass p hp).sound.ahead, pass_advances hp⟩

/-! ## Two organisations on one source -/

def plainFiles : PruneEnv := ⟨fun _ => true, fun _ => true⟩

def wholeFiles : String → Nat := fun _ => 9

def answering (answer : GroupKey → Answer) : FlushEnv :=
  ⟨id, fun _ => .refl _, fun _ => false, answer⟩

def oneCollector : ReporterConfig := newReporterConfig "http://localhost:27300" (fun _ => none) 0

def orgEvent (eventID orgID : String) (n : Int) : ReportableEvent :=
  ⟨eventID, orgID, "team", "src", some n⟩

def orgADown (k : GroupKey) : Answer :=
  if k.lane = "orgA" then .failed 503 else .ok [("src", 1)]

/-- The first events of two organisations; the group of one fails, that of the other succeeds. -/
def twoOrgActs : List Act :=
  [.append (orgEvent "a1" "orgA" 1) "20260530-18", .append (orgEvent "b1" "orgB" 1) "20260530-18",
    .passStart 0 false wholeFiles, .scan, .scan, .flush (answering orgADown), .passEnd 0 plainFiles]

theorem twoOrgActs_cursors_exact :
    ∃ w, exec (step oneCollector) World.init twoOrgActs = some w ∧ CursorsExact w :=
  have hrun : exec (step oneCollector) World.init twoOrgActs = some _ := rfl
  ⟨_, hrun, cursors_exact hrun⟩

/-- One organisation's success hides the other's unsent event from every later pass. -/
theorem drain_skips_open_event :
    ¬ ∀ (cfg : ReporterConfig) (acts : List Act) (w : World) (p : Pass),
      exec (step cfg) World.init acts = some w → w.pass = some p →
      ∀ ev ∈ p.openAtStart, ev ∈ p.selected ∨ walEntryOf ev ∈ p.remaining := by
  intro h
  have hsel := h oneCollector (twoOrgActs ++ [.passStart 60000 false wholeFiles, .scan, .scan]) _ _ rfl rfl
    (orgEvent "a1" "orgA" 1) (by decide)
  exact absurd hsel (by decide)

/-- One organisation: its first upload fails, then a second event is appended, and a
second pass reads both. -/
def retryActs : List Act :=
  [.append (orgEvent "a1" "orgA" 1) "20260530-18", .passStart 0 false wholeFiles, .scan,
    .flush (answering orgADown), .passEnd 0 plainFiles,
    .append (orgEvent "a2" "orgA" 2) "20260530-19", .passStart 60000 false wholeFiles, .scan, .scan]

/-- The failed event is selected again by the pass after the backoff. -/
theorem failed_event_selected_again :
    ∃ w p, guardedExec (step oneCollector) (StepOk oneCollector) World.init retryActs = some w ∧
      w.pass = some p ∧ orgEvent "a1" "orgA" 1 ∈ p.selected := by
  have hrun := Guarded.of_guardedExec (show guardedExec (step oneCollector) (StepOk oneCollector)
    World.init retryActs = some _ from rfl)
  refine ⟨_, _, rfl, rfl, ?_⟩
  rcases (ungated_drain_selects_open hrun rfl).1 (orgEvent "a1" "orgA" 1) (by decide) with hsel | hahead
  · exact hsel
  · exact absurd hahead (by decide)

end AikeyProxy.Events
