import AikeyProxy.Events.Reporter

/-!
# What uploads leave in the reporter

One specification per function of the reporter, in terms of the uploads that were made: `sentSeq` is
raised for the numbered events of finished groups, `confirmedSeq` for the marks of the replies,
`seenV1` is set for the unnumbered events. Every reachable reporter satisfies the same about its
whole history (`Tracks`).
-/

namespace AikeyProxy.Events

open Lib Reporter List

def numberedOf (evs : List ReportableEvent) : List ReportableEvent :=
  evs.filter fun ev => ev.sourceSeq.isSome

def sentMarks (evs : List ReportableEvent) : List (String × Int) :=
  (numberedOf evs).map fun ev => (ev.sourceID, ev.seq)

def replyMarks (us : List Upload) : List (String × Int) :=
  us.flatMap fun u => u.answer.marks

@[simp] theorem finishedEvents_nil : finishedEvents [] = [] := rfl

@[simp] theorem replyMarks_nil : replyMarks [] = [] := rfl

theorem finishedEvents_append (us us' : List Upload) :
    finishedEvents (us ++ us') = finishedEvents us ++ finishedEvents us' := by
  simp [finishedEvents]

theorem replyMarks_append (us us' : List Upload) :
    replyMarks (us ++ us') = replyMarks us ++ replyMarks us' := by
  simp [replyMarks]

theorem sentMarks_append (l l' : List ReportableEvent) :
    sentMarks (l ++ l') = sentMarks l ++ sentMarks l' := by
  simp [sentMarks, numberedOf]

variable {ev : ReportableEvent} {us : List Upload} {answer : Answer}
  {batch : List ReportableEvent}

theorem mem_finishedEvents : ev ∈ finishedEvents us ↔ ∃ u ∈ us, u.done = true ∧ ev ∈ u.group := by
  simp only [finishedEvents, mem_flatMap, mem_filter, and_assoc]

variable (url : String) (group : List ReportableEvent)

theorem finishedEvents_done
    (h : answer.result = .groupDone) : finishedEvents [⟨url, group, answer⟩] = group := by
  simp [finishedEvents, Upload.done, h]

theorem finishedEvents_retry
    (h : answer.result = .groupRetryLater) : finishedEvents [⟨url, group, answer⟩] = [] := by
  simp [finishedEvents, Upload.done, h]

theorem replyMarks_singleton (u : Upload) : replyMarks [u] = u.answer.marks := by
  simp [replyMarks]

/-! ## One upload -/

def seenIn (evs : List ReportableEvent) (id : String) : Bool :=
  decide (id ≠ "") && evs.any fun ev => decide (ev.sourceSeq = none) && decide (ev.eventID = id)

@[simp] theorem seenIn_nil (id : String) : seenIn [] id = false := by simp [seenIn]

theorem seenIn_append (l l' : List ReportableEvent) (id : String) :
    seenIn (l ++ l') id = (seenIn l id || seenIn l' id) := by
  simp [seenIn, Bool.and_or_distrib_left]

structure Raised (r : Reporter) (us : List Upload) (r' : Reporter) : Prop where
  sent : r'.sentSeq = raiseAll r.sentSeq (sentMarks (finishedEvents us))
  confirmed : r'.confirmedSeq = raiseAll r.confirmedSeq (replyMarks us)
  seen : ∀ id, r'.seenV1 id = (r.seenV1 id || seenIn (finishedEvents us) id)

theorem Raised.refl (r : Reporter) : Raised r [] r where
  sent := rfl
  confirmed := rfl
  seen := fun id => by simp

theorem Raised.trans {r r' r'' : Reporter} {us' : List Upload} (h : Raised r us r')
    (h' : Raised r' us' r'') : Raised r (us ++ us') r'' where
  sent := by rw [h'.sent, h.sent, finishedEvents_append, sentMarks_append, raiseAll_append]
  confirmed := by rw [h'.confirmed, h.confirmed, replyMarks_append, raiseAll_append]
  seen := fun id => by
    rw [h'.seen, h.seen, finishedEvents_append, seenIn_append, Bool.or_assoc]

theorem uploadGroupTo_result (r : Reporter) (answer : Answer) :
    (r.uploadGroupTo answer).2 = answer.result := by
  cases answer with
  | ok c => rfl
  | failed st =>
    simp only [uploadGroupTo, Answer.result]
    cases classifyUploadError st <;> rfl

theorem uploadGroupTo_raises (r : Reporter) (answer : Answer) :
    (r.uploadGroupTo answer).1.sentSeq = r.sentSeq ∧
      (r.uploadGroupTo answer).1.seenV1 = r.seenV1 ∧
      (r.uploadGroupTo answer).1.confirmedSeq = raiseAll r.confirmedSeq answer.marks := by
  cases answer with
  | ok c => exact ⟨rfl, rfl, rfl⟩
  | failed st =>
    simp only [uploadGroupTo, Answer.marks]
    cases classifyUploadError st <;> exact ⟨rfl, rfl, rfl⟩

theorem markProcessed_raises (group : List ReportableEvent) :
    ∀ r : Reporter,
      (r.markProcessed group).sentSeq = raiseAll r.sentSeq (sentMarks group) ∧
        (r.markProcessed group).confirmedSeq = r.confirmedSeq ∧
        ∀ id, (r.markProcessed group).seenV1 id = (r.seenV1 id || seenIn group id) := by
  induction group with
  | nil => intro r; exact ⟨rfl, rfl, fun id => by simp [markProcessed]⟩
  | cons ev evs ih =>
    intro r
    have hunfold : r.markProcessed (ev :: evs) = (r.markEvent ev).markProcessed evs := rfl
    obtain ⟨hs, hc, hv⟩ := ih (r.markEvent ev)
    rw [hunfold, hs, hc]
    simp only [hv]
    fun_cases markEvent r ev with
    | case1 n hseq => simp [sentMarks, numberedOf, hseq, ReportableEvent.seq, seenIn]
    | case2 hseq hid =>
      refine ⟨by simp [sentMarks, numberedOf, hseq], rfl, fun id => ?_⟩
      by_cases hi : id = ""
      · simp [seenIn, hi]
      · simp [seenIn, hseq, hid, Ne.symm hi]
    | case3 hseq hid =>
      refine ⟨by simp [sentMarks, numberedOf, hseq], rfl, fun id => ?_⟩
      by_cases hi : id = ev.eventID
      · subst hi; simp [seenIn, hseq, hid]
      · simp [seenIn, hseq, Function.update_of_ne hi, Ne.symm hi]

/-! ## One call of `uploadPending` -/

section

variable (cfg : ReporterConfig) (env : FlushEnv) (r : Reporter)

variable (gs : List (GroupKey × List ReportableEvent))

theorem uploadGroups_raised :
    Raised r (uploadGroups cfg env r gs).made (uploadGroups cfg env r gs).rep := by
  fun_induction uploadGroups cfg env r gs with
  | case1 | case2 => exact Raised.refl _
  -- one round of the loop, then the induction hypothesis on the rest
  | case3 r key group rest hexp made r' hup out ih =>
    obtain ⟨hsent, hseen, hconf⟩ := uploadGroupTo_raises r (env.answer key)
    have hres := uploadGroupTo_result r (env.answer key)
    rw [hup] at hsent hseen hconf hres
    obtain ⟨hms, hmc, hmv⟩ := markProcessed_raises group r'
    have hfin := finishedEvents_done (cfg.urlForRouteSource key.routeSource) group hres.symm
    have hone : Raised r [⟨_, group, env.answer key⟩] (r'.markProcessed group) :=
      ⟨by rw [hfin, hms, hsent], by rw [hmc, hconf, replyMarks_singleton],
        fun id => by rw [hfin, hmv, hseen]⟩
    exact hone.trans ih
  | case4 r key group rest hexp made r' hup out ih =>
    obtain ⟨hsent, hseen, hconf⟩ := uploadGroupTo_raises r (env.answer key)
    have hres := uploadGroupTo_result r (env.answer key)
    rw [hup] at hsent hseen hconf hres
    have hfin := finishedEvents_retry (cfg.urlForRouteSource key.routeSource) group hres.symm
    have hone : Raised r [⟨_, group, env.answer key⟩] r' :=
      ⟨by rw [hfin, hsent]; rfl, by rw [hconf, replyMarks_singleton],
        fun id => by rw [hfin, hseen]; simp⟩
    exact hone.trans ih

theorem uploadPending_raised (batch : List ReportableEvent) :
    Raised r (uploadPending cfg env r batch).made (uploadPending cfg env r batch).rep :=
  uploadGroups_raised cfg env r _

theorem uploadGroups_made {u : Upload}
    (hu : u ∈ (uploadGroups cfg env r gs).made) : ∃ key, (key, u.group) ∈ gs := by
  fun_induction uploadGroups cfg env r gs with
  | case1 | case2 => cases hu
  | case3 r key group rest hexp made r' hup out ih | case4 r key group rest hexp made r' hup out ih =>
    rcases mem_cons.mp hu with rfl | hu
    · exact ⟨key, mem_cons_self⟩
    · exact (ih hu).imp fun _ hk => mem_cons_of_mem _ hk

/-- The events of the groups that a call finishes: those reached before the context
expires and answered for good. -/
def FlushEnv.finishing (cfg : ReporterConfig) (env : FlushEnv) (batch : List ReportableEvent) :
    List ReportableEvent :=
  (((env.order (groupsOf cfg batch)).takeWhile fun g => !env.groupExpired g.1).filter
    fun g => decide ((env.answer g.1).result = .groupDone)).flatMap Prod.snd

theorem finishedEvents_uploadGroups : finishedEvents (uploadGroups cfg env r gs).made =
      ((gs.takeWhile fun g => !env.groupExpired g.1).filter
        fun g => decide ((env.answer g.1).result = .groupDone)).flatMap Prod.snd := by
  fun_induction uploadGroups cfg env r gs with
  | case1 => rfl
  | case2 r key group rest hexp => simp [hexp]
  | case3 r key group rest hexp made r' hup out ih =>
    have hdone : (env.answer key).result = .groupDone := by
      rw [← uploadGroupTo_result r, hup]
    simp_all [finishedEvents, Upload.done, made, out]
  | case4 r key group rest hexp made r' hup out ih =>
    have hretry : (env.answer key).result = .groupRetryLater := by
      rw [← uploadGroupTo_result r, hup]
    simp_all [finishedEvents, Upload.done, made, out]

end

/-- A group is nonempty, of one lane, and made of events of the batch. -/
structure GroupOk (batch group : List ReportableEvent) : Prop where
  nonempty : group ≠ []
  lane : ∀ ev ∈ group, ∀ ev' ∈ group, laneOfEvent ev = laneOfEvent ev'
  subset : ∀ ev ∈ group, ev ∈ batch

variable {cfg : ReporterConfig} {w : World}

theorem uploadPending_made {env : FlushEnv} {r : Reporter} {u : Upload}
    (hu : u ∈ (uploadPending cfg env r batch).made) : GroupOk batch u.group := by
  obtain ⟨key, hk⟩ := uploadGroups_made cfg env r _ hu
  have hmem : (key, u.group) ∈ groupsOf cfg batch := (env.order_perm _).mem_iff.mp hk
  refine ⟨(mem_groupBy_iff.mp hmem).1, fun ev hev ev' hev' => ?_, fun ev hev => ?_⟩
  · have h1 : groupKeyOf ev = key := (mem_of_mem_groupBy hmem hev).2
    have h2 : groupKeyOf ev' = key := (mem_of_mem_groupBy hmem hev').2
    exact congrArg GroupKey.lane (h1.trans h2.symm)
  · exact (mem_filter.mp (mem_of_mem_groupBy hmem hev).1).1

/-- The effects of the steps, guards included. -/
inductive Effect (cfg : ReporterConfig) (w : World) : Act → World → Prop
  | append (ev : ReportableEvent) (hour : String) :
      Effect cfg w (.append ev hour) (w.append ev hour)
  | gated (now : Int) (force : Bool) (reach : String → Nat) :
      w.pass = none → w.rep.gated now force = true →
      Effect cfg w (.passStart now force reach) w
  | start (now : Int) (force : Bool) (reach : String → Nat) :
      w.pass = none → w.rep.gated now force = false →
      Effect cfg w (.passStart now force reach)
        { w with pass := some ⟨.start (readAllWAL reach w.files) (w.openEvents cfg), false⟩ }
  | skip {p : Pass} {e : WALEntry} {rest : List WALEntry} :
      w.pass = some p → p.remaining = e :: rest → w.rep.skips e = true →
      Effect cfg w .scan { w with pass := some ⟨p.skip rest, p.anyRetryable⟩ }
  | select {p : Pass} {e : WALEntry} {rest : List WALEntry} :
      w.pass = some p → p.remaining = e :: rest → w.rep.skips e = false →
      Effect cfg w .scan { w with pass := some ⟨p.select e.wireEvent rest, p.anyRetryable⟩ }
  | flush {p : Pass} (env : FlushEnv) :
      w.pass = some p → p.mustFlush cfg = true →
      Effect cfg w (.flush env)
        { w with
          rep := (uploadPending cfg env w.rep p.pending).rep
          pass := some ⟨p.handOver,
            p.anyRetryable || (uploadPending cfg env w.rep p.pending).anyRetryable⟩
          uploads := w.uploads ++ (uploadPending cfg env w.rep p.pending).made }
  | expire {p : Pass} :
      w.pass = some p → p.mustFlush cfg = true →
      Effect cfg w .expire { w with pass := some (p.expire cfg) }
  | finish {p : Pass} (now : Int) (env : PruneEnv) :
      w.pass = some p → p.remaining = [] → p.pending = [] →
      Effect cfg w (.passEnd now env)
        { w with
          files := w.rep.pruneConfirmedWAL env w.current w.files
          rep := w.rep.arm p.anyRetryable now
          pass := none }

theorem step_effect {w' : World} {a : Act} (hs : step cfg w a = some w') : Effect cfg w a w' := by
  revert hs
  fun_cases step cfg w a <;> intro hs <;> cases hs
  next => exact .append _ _
  next hp hgated => exact .gated _ _ _ hp hgated
  next hp hgated => exact .start _ _ _ hp (by simpa using hgated)
  next p hp _ p' hscan =>
    revert hscan
    fun_cases Pass.scan w.rep p <;> intro hscan <;> cases hscan
    next hrem hskip => exact .skip hp hrem hskip
    next hrem hskip => exact .select hp hrem (by simpa using hskip)
  next hp hmust _ => exact .flush _ hp hmust
  next hp hmust => exact .expire hp hmust
  next hp hend => exact .finish _ _ hp hend.1 hend.2

/-! ## Whole runs -/

def Tracks (w : World) : Prop := Raised Reporter.init w.uploads w.rep

theorem tracks_step {w' : World} {a : Act} (h : Tracks w) (hs : step cfg w a = some w') :
    Tracks w' := by
  cases step_effect hs with
  | append | gated | start | skip | select | expire => exact h
  | flush env => exact Raised.trans h (uploadPending_raised cfg env w.rep _)
  | finish =>
    -- arming the gate leaves the cursors alone
    exact ⟨h.sent, h.confirmed, h.seen⟩

/-- **In every reachable state the cursors are those of the upload history.** -/
theorem tracks_reachable {acts : List Act} (h : exec (step cfg) World.init acts = some w) :
    Tracks w :=
  exec_invariant (fun _ _ _ hi hs => tracks_step hi hs) h (Raised.refl _)

structure CursorsExact (w : World) : Prop where
  sent : ∀ source n, n ≤ w.rep.sentSeq source ↔ n ≤ 0 ∨ ∃ ev ∈ finishedEvents w.uploads,
    ev.sourceSeq.isSome = true ∧ ev.sourceID = source ∧ n ≤ ev.seq
  confirmed : ∀ source n, n ≤ w.rep.confirmedSeq source ↔ n ≤ 0 ∨ ∃ u ∈ w.uploads,
    ∃ m ∈ u.answer.marks, m.1 = source ∧ n ≤ m.2
  seen : ∀ id, w.rep.seenV1 id = seenIn (finishedEvents w.uploads) id

/-- **The reporter remembers what its uploads have shown**, no less and no more. -/
theorem cursors_exact {acts : List Act} (hrun : exec (step cfg) World.init acts = some w) :
    CursorsExact w := by
  have h := tracks_reachable hrun
  refine ⟨fun source n => ?_, fun source n => ?_, fun id => (h.seen id).trans (Bool.false_or _)⟩
  · rw [h.sent, le_raiseAll_iff]
    simp only [init, sentMarks, numberedOf, mem_map, mem_filter, exists_exists_and_eq_and]
    simp only [and_assoc]
  · rw [h.confirmed, le_raiseAll_iff]
    simp only [init, replyMarks, mem_flatMap]
    grind -linarith

end AikeyProxy.Events
