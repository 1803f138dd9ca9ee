import AikeyProxy.Events.WalShared
import AikeyProxy.Proof.Drain

/-!
# Appends against prunes

A prune removes a file on what it read earlier. Its own tests protect the file that its own writer
had open when it looked, and entries that the marks of the collector cover. That is enough as long
as no other generation has a file open that a prune takes in hand, nobody opens one that is in hand,
and the marks mean what the prune takes them for: each source is used in one lane, and what is
marked as seen has reached the collector (`WalStepOk`).
-/

namespace AikeyProxy.Events

open Lib List SharedWal Function

/-! ## The condition -/

/-- The files a prune has still to look at, once it has noted which one to skip. -/
def PrunePc.todo : PrunePc → List String
  | .skipping todo _ | .scanning todo _ _ | .judging todo _ _ _ _ | .removing todo _ _ _ _ => todo
  | .idle | .listed _ => []

def PrunePc.current : PrunePc → String
  | .skipping _ current | .scanning _ current _ | .judging _ current _ _ _
  | .removing _ current _ _ _ => current
  | .idle | .listed _ => ""

def PrunePc.confirmed : PrunePc → Option (String → Int)
  | .scanning _ _ confirmed | .judging _ _ confirmed _ _ | .removing _ _ confirmed _ _ =>
    some confirmed
  | .idle | .listed _ | .skipping _ _ => none

/-- The file that was read and is going to be judged or removed, and what was read. -/
def PrunePc.inHand : PrunePc → Option (String × List WALEntry)
  | .judging _ _ _ name entries | .removing _ _ _ name entries => some (name, entries)
  | .idle | .listed _ | .skipping _ _ | .scanning _ _ _ => none

def PrunePc.judged : PrunePc → List WALEntry
  | .removing _ _ _ _ entries => entries
  | _ => []

/-- A numbered entry is of the lane that its source is used in. -/
def OneLane (laneOf : String → String) (e : WALEntry) : Prop :=
  e.numbered = true → laneOfEvent e.eventJSON = laneOf e.sourceID
  deriving Decidable

/-- The schedule and the marks. A writer opens no file that a prune has in hand, or that its own
prune has still to look at; a prune takes no file in hand that another generation has open. -/
def WalStepOk (laneOf : String → String) (s : SharedWal) : WalAct → Prop
  | .beginAppend g hour ev =>
    OneLane laneOf (walEntryOf ev) ∧
      ((s.writers g).currentFileName ≠ walFileName hour →
        walFileName hour ∉ (s.prunes g).todo ∧
          ∀ g', ∀ f ∈ (s.prunes g').inHand, f.1 ≠ walFileName hour)
  | .pruneRead g =>
    ∀ name ∈ (s.prunes g).todo.head?, name ≠ (s.prunes g).current →
      ∀ g', g' ≠ g → ∀ f ∈ (s.writers g').file, f.1 ≠ name
  | .reply _ lane sourceID => lane = laneOf sourceID
  | .markSeen _ eventID => eventID ∈ s.collector.holds
  | _ => True

/-! ## The collector only learns -/

structure Collector.Grows (c c' : Collector) : Prop where
  contiguous : ∀ lane src, c.contiguous lane src ≤ c'.contiguous lane src
  holds : ∀ id ∈ c.holds, id ∈ c'.holds

variable {laneOf : String → String} {e : WALEntry} {s s' : SharedWal} {g : Nat} {c c' : Collector}
  {pc : PrunePc} {name : String}

theorem Collector.Grows.refl (c : Collector) : c.Grows c := ⟨fun _ _ => le_refl _, fun _ => id⟩

theorem Collector.Grows.confirms (h : c.Grows c') (hc : c.confirms e) : c'.confirms e := by
  revert hc
  unfold Collector.confirms
  split
  · exact fun hc => le_trans hc (h.contiguous _ _)
  · exact h.holds _

/-! ## The invariant -/

/-- What a prune has learnt so far still holds. -/
structure PruneOk (laneOf : String → String) (s : SharedWal) (pc : PrunePc) : Prop where
  marks : ∀ confirmed ∈ pc.confirmed, ∀ src,
    confirmed src ≤ s.collector.contiguous (laneOf src) src
  read : ∀ held ∈ pc.inHand, (∀ e ∈ s.dir.lines held.1, e ∈ held.2) ∧
    ∀ e ∈ held.2, OneLane laneOf e
  judged : ∀ e ∈ pc.judged, s.collector.confirms e

/-- The file that a writer has open stays in the directory: its own prune skips it or will not come
to it, and no prune has it in hand. -/
structure WriterOk (laneOf : String → String) (s : SharedWal) (g : Nat) (w : Writer) : Prop where
  linked : ∀ f ∈ w.file, s.dir.link f.1 = some f.2
  own : ∀ f ∈ w.file, f.1 = (s.prunes g).current ∨ f.1 ∉ (s.prunes g).todo
  free : ∀ f ∈ w.file, ∀ g', ∀ held ∈ (s.prunes g').inHand, held.1 ≠ f.1
  pending : ∀ e ∈ w.pending, OneLane laneOf e

structure WalInv (laneOf : String → String) (s : SharedWal) : Prop where
  named : ∀ name i, s.dir.link name = some i → name ∈ s.names
  lanes : ∀ name, ∀ e ∈ s.dir.lines name, OneLane laneOf e
  marks : ∀ g src, (s.reporters g).confirmedSeq src ≤ s.collector.contiguous (laneOf src) src
  seen : ∀ g id, (s.reporters g).seenV1 id = true → id ∈ s.collector.holds
  writers : ∀ g, WriterOk laneOf s g (s.writers g)
  prunes : ∀ g, PruneOk laneOf s (s.prunes g)
  stored : ∀ e ∈ s.completed, ¬ s.collector.confirms e → ∃ name, e ∈ s.dir.lines name

theorem walInv_init (laneOf : String → String) : WalInv laneOf SharedWal.init where
  named := nofun
  lanes := nofun
  marks := fun _ _ => le_refl _
  seen := nofun
  writers := fun _ => ⟨nofun, nofun, nofun, nofun⟩
  prunes := fun _ => ⟨nofun, nofun, nofun⟩
  stored := nofun

theorem WalInv.readable (h : WalInv laneOf s) (he : e ∈ s.completed)
    (hnot : ¬ s.collector.confirms e) : e ∈ s.readAll := by
  obtain ⟨name, hin⟩ := h.stored e he hnot
  obtain ⟨i, hi⟩ := FileDir.exists_link_of_mem_lines hin
  exact mem_flatMap.mpr ⟨name, h.named name i hi, hin⟩

/-- A file in hand may lose entries, and the collector may learn. -/
theorem PruneOk.frame (h : PruneOk laneOf s pc)
    (hread : ∀ held ∈ pc.inHand, ∀ e ∈ s'.dir.lines held.1, e ∈ s.dir.lines held.1)
    (hgrow : s.collector.Grows s'.collector) : PruneOk laneOf s' pc where
  marks confirmed hc src := le_trans (h.marks confirmed hc src) (hgrow.contiguous _ _)
  read f hf := ⟨fun e he => (h.read f hf).1 e (hread f hf e he), (h.read f hf).2⟩
  judged e he := hgrow.confirms (h.judged e he)

/-! ## Writers -/

theorem WalInv.setWriter {w : Writer} (h : WalInv laneOf s) (hw : WriterOk laneOf s g w) :
    WalInv laneOf (s.setWriter g w) :=
  { h with
    writers := (forall_update_iff s.writers fun g' => WriterOk laneOf (s.setWriter g w) g').mpr
      ⟨{ hw with }, fun g' _ => { h.writers g' with }⟩
    prunes := fun g' => { h.prunes g' with } }

theorem WalInv.openFile (h : WalInv laneOf s) (he : OneLane laneOf e)
    (htodo : name ∉ (s.prunes g).todo) (hfree : ∀ g', ∀ f ∈ (s.prunes g').inHand, f.1 ≠ name) :
    WalInv laneOf (s.openFile g name e) := by
  have hlines := s.dir.lines_openCreate name
  have hdir : WalInv laneOf
      { s with names := s.names.insert name, dir := (s.dir.openCreate name).1 } := by
    refine { h with
      named := fun n i hi => mem_insert_iff.mpr ?_
      lanes := fun n => hlines n ▸ h.lanes n
      writers := fun g => { h.writers g with
        linked := fun f hf => FileDir.link_openCreate_of_link ((h.writers g).linked f hf) name }
      prunes := fun g => (h.prunes g).frame (fun held _ e he => hlines held.1 ▸ he) (.refl _)
      stored := fun e he hnot => (h.stored e he hnot).imp fun n hin => (hlines n).symm ▸ hin }
    by_cases hn : n = name
    · exact .inl hn
    · rw [s.dir.link_openCreate_ne hn] at hi
      exact .inr (h.named n i hi)
  refine hdir.setWriter ⟨?_, ?_, ?_, fun e' he' => Option.some.inj he' ▸ he⟩
  · rintro f ⟨⟩
    exact s.dir.link_openCreate_self name
  · rintro f ⟨⟩
    exact .inr htodo
  · rintro f ⟨⟩
    exact hfree

theorem WalInv.beginAppend {hour : String} {ev : ReportableEvent} (h : WalInv laneOf s)
    (hok : WalStepOk laneOf s (.beginAppend g hour ev))
    (hs : s.beginAppend g hour ev = some s') : WalInv laneOf s' := by
  obtain ⟨hlane, hfree⟩ := hok
  have hopen := h.writers g
  revert hs
  fun_cases SharedWal.beginAppend s g hour ev <;> intro hs <;> cases hs
  next i _ hfile =>
    have hkept : WriterOk laneOf s g ⟨(s.writers g).file, some (walEntryOf ev)⟩ :=
      { hopen with pending := fun e he => Option.some.inj he ▸ hlane }
    exact h.setWriter (hfile ▸ hkept)
  next name i hfile _ hne =>
    rw [Writer.currentFileName, hfile] at hfree
    exact h.openFile hlane (hfree hne).1 (hfree hne).2
  next hfile _ =>
    rw [Writer.currentFileName, hfile] at hfree
    have hne : "" ≠ walFileName hour := by
      intro heq
      have hlen := congrArg String.length heq
      rw [walFileName, String.length_append, String.length_append] at hlen
      have hsix : "usage-".length = 6 := rfl
      exact absurd hlen (by rw [hsix, String.length_empty]; omega)
    exact h.openFile hlane (hfree hne).1 (hfree hne).2

/-- A line is added to a file of the directory that no prune has in hand. -/
theorem WalInv.write {i : Nat} (h : WalInv laneOf s) (hlink : s.dir.link name = some i)
    (he : OneLane laneOf e) (hfree : ∀ g, ∀ f ∈ (s.prunes g).inHand, f.1 ≠ name) :
    WalInv laneOf { s with dir := s.dir.appendTo i [e], completed := s.completed ++ [e] } := by
  have hlines : ∀ n e', e' ∈ (s.dir.appendTo i [e]).lines n ↔
      e' ∈ s.dir.lines n ∨ n = name ∧ e' = e := by
    intro n e'
    rw [s.dir.lines_appendTo hlink]
    by_cases hn : n = name <;> simp [hn]
  refine { h with lanes := ?_, writers := fun g => { h.writers g with }, prunes := ?_, stored := ?_ }
  · intro n e' he'
    obtain he' | ⟨-, rfl⟩ := (hlines n e').mp he'
    · exact h.lanes n e' he'
    · exact he
  · refine fun g => (h.prunes g).frame (fun held hheld e' he' => ?_) (.refl _)
    exact ((hlines _ e').mp he').resolve_right fun hname => hfree g held hheld hname.1
  · intro e' he' hnot
    rcases mem_append.mp he' with he' | he'
    · exact (h.stored e' he' hnot).imp fun n hin => (hlines n e').mpr (.inl hin)
    · exact ⟨name, (hlines name e').mpr (.inr ⟨rfl, mem_singleton.mp he'⟩)⟩

theorem WalInv.finishAppend {writeOk : Bool} (h : WalInv laneOf s)
    (hs : s.finishAppend g writeOk = some s') : WalInv laneOf s' := by
  have hopen := h.writers g
  have hkept : WriterOk laneOf s g ⟨(s.writers g).file, none⟩ := { hopen with pending := nofun }
  revert hs
  fun_cases SharedWal.finishAppend s g writeOk <;> intro hs <;> cases hs
  next e name i hfile hpending hwrite =>
    -- the writer has the file open, so it is in the directory and in nobody's hand
    have hwritten := h.write (hopen.linked _ hfile) (hopen.pending e hpending) (hopen.free _ hfile)
    exact hwritten.setWriter (hfile ▸ { hkept with })
  next e name i hfile hpending hwrite => exact h.setWriter (hfile ▸ hkept)

/-! ## The collector and the reporters -/

theorem WalInv.learns (h : WalInv laneOf s) (hgrow : s.collector.Grows c) :
    WalInv laneOf { s with collector := c } :=
  { h with
    marks := fun g src => le_trans (h.marks g src) (hgrow.contiguous _ _)
    seen := fun g id hid => hgrow.holds id (h.seen g id hid)
    writers := fun g => { h.writers g with }
    prunes := fun g => (h.prunes g).frame (fun _ _ _ => id) hgrow
    stored := fun e he hnot => h.stored e he fun hc => hnot (hgrow.confirms hc) }

theorem WalInv.setReporter {r : Reporter} (h : WalInv laneOf s)
    (hmarks : ∀ src, r.confirmedSeq src ≤ s.collector.contiguous (laneOf src) src)
    (hseen : ∀ id, r.seenV1 id = true → id ∈ s.collector.holds) :
    WalInv laneOf (s.setReporter g r) :=
  { h with
    marks := (forall_update_iff s.reporters fun _ r =>
      ∀ src, r.confirmedSeq src ≤ s.collector.contiguous (laneOf src) src).mpr
      ⟨hmarks, fun g' _ => h.marks g'⟩
    seen := (forall_update_iff s.reporters fun _ r =>
      ∀ id, r.seenV1 id = true → id ∈ s.collector.holds).mpr ⟨hseen, fun g' _ => h.seen g'⟩
    writers := fun g' => { h.writers g' with }
    prunes := fun g' => { h.prunes g' with } }

/-! ## Prunes -/

theorem WalInv.setPrune (h : WalInv laneOf s) (hpc : PruneOk laneOf s pc)
    (hown : ∀ f ∈ (s.writers g).file, f.1 = pc.current ∨ f.1 ∉ pc.todo)
    (hfree : ∀ held ∈ pc.inHand, ∀ g', ∀ f ∈ (s.writers g').file, held.1 ≠ f.1) :
    WalInv laneOf (s.setPrune g pc) := by
  refine { h with
    prunes := (forall_update_iff s.prunes fun _ => PruneOk laneOf (s.setPrune g pc)).mpr
      ⟨{ hpc with }, fun g' _ => { h.prunes g' with }⟩
    writers := fun g' => { h.writers g' with own := ?_, free := fun f hf => ?_ } }
  · exact (forall_update_iff s.prunes fun g' pc =>
      ∀ f ∈ (s.writers g').file, f.1 = pc.current ∨ f.1 ∉ pc.todo).mpr
      ⟨hown, fun g' _ => (h.writers g').own⟩ g'
  · exact (forall_update_iff s.prunes fun _ pc => ∀ held ∈ pc.inHand, held.1 ≠ f.1).mpr
      ⟨fun held hheld => hfree held hheld g' f hf, fun g'' _ => (h.writers g').free f hf g''⟩

theorem WalInv.pruneStart (h : WalInv laneOf s) (hs : s.pruneStart g = some s') :
    WalInv laneOf s' := by
  have hopen := h.writers g
  revert hs
  fun_cases SharedWal.pruneStart s g <;> intro hs <;> cases hs
  next => exact h.setPrune ⟨nofun, nofun, nofun⟩ (fun _ _ => .inr not_mem_nil) nofun
  next todo hpc =>
    refine h.setPrune ⟨nofun, nofun, nofun⟩ (fun f hf => .inl ?_) nofun
    rw [PrunePc.current, Writer.currentFileName, Option.mem_def.mp hf]
  next todo current hpc =>
    refine h.setPrune ⟨?_, nofun, nofun⟩ ?_ nofun
    · rintro confirmed ⟨⟩
      exact h.marks g
    · intro f hf
      have hown := hopen.own f hf
      rwa [hpc] at hown

/-- The own writer has not the file open that its prune takes, because of the name that is skipped,
and nobody else has. -/
theorem WalInv.pruneRead (h : WalInv laneOf s) (hok : WalStepOk laneOf s (.pruneRead g))
    (hs : s.pruneRead g = some s') : WalInv laneOf s' := by
  have hprune := h.prunes g
  have hopen := (h.writers g).own
  have hrest : ∀ {name : String} {todo : List String} {current : String},
      (∀ f ∈ (s.writers g).file, f.1 = current ∨ f.1 ∉ name :: todo) →
      ∀ f ∈ (s.writers g).file, f.1 = current ∨ f.1 ∉ todo := by
    intro name todo current hown f hf
    exact (hown f hf).imp_right fun hnot hin => hnot (mem_cons_of_mem _ hin)
  revert hs
  fun_cases SharedWal.pruneRead s g <;> intro hs <;> cases hs
  next => exact h.setPrune ⟨nofun, nofun, nofun⟩ (fun _ _ => .inr not_mem_nil) nofun
  next hpc =>
    rw [hpc] at hprune hopen
    exact h.setPrune ⟨hprune.marks, nofun, nofun⟩ (hrest hopen) nofun
  next hpc _ _ =>
    rw [hpc] at hprune hopen
    exact h.setPrune ⟨hprune.marks, nofun, nofun⟩ (hrest hopen) nofun
  next name todo current confirmed hpc hcurrent _ =>
    rw [hpc] at hprune hopen
    refine h.setPrune ⟨hprune.marks, ?_, nofun⟩ (hrest hopen) ?_
    · rintro held ⟨⟩
      exact ⟨fun _ => id, h.lanes name⟩
    · rintro held ⟨⟩ g' f hf hname
      by_cases hg : g' = g
      · subst hg
        obtain heq | hnot := hopen f hf
        · exact hcurrent (hname.trans heq)
        · exact hnot (hname ▸ mem_cons_self)
      · exact hok name (by rw [hpc]; rfl) (by rw [hpc]; exact hcurrent) g' hg f hf hname.symm

/-- What passes the test is confirmed on its own stream. -/
theorem WalInv.filePrunable {confirmed : String → Int} {entries : List WALEntry}
    (h : WalInv laneOf s) (hmarks : ∀ src, confirmed src ≤ s.collector.contiguous (laneOf src) src)
    (hlane : ∀ e ∈ entries, OneLane laneOf e)
    (hjudge : ({ s.reporters g with confirmedSeq := confirmed } : Reporter).filePrunable entries =
      true) : ∀ e ∈ entries, s.collector.confirms e := by
  intro e he
  have hentry := all_eq_true.mp (Bool.and_eq_true _ _ ▸ hjudge).1 e he
  unfold Reporter.entryPrunable at hentry
  unfold Collector.confirms
  split
  next hnum =>
    rw [if_pos hnum] at hentry
    rw [hlane e he hnum]
    exact le_trans (of_decide_eq_true hentry) (hmarks _)
  next hnum =>
    rw [if_neg hnum] at hentry
    exact h.seen g _ (Bool.and_eq_true _ _ ▸ hentry).2

theorem WalInv.pruneJudge (h : WalInv laneOf s) (hs : s.pruneJudge g = some s') :
    WalInv laneOf s' := by
  have hprune := h.prunes g
  have hopen := (h.writers g).own
  have hfree := fun held hheld g' f hf => (h.writers g').free f hf g held hheld
  revert hs
  fun_cases SharedWal.pruneJudge s g <;> intro hs <;> cases hs
  next todo current confirmed name entries hpc hjudge =>
    rw [hpc] at hprune hopen hfree
    refine h.setPrune { hprune with judged := ?_ } hopen hfree
    exact h.filePrunable (hprune.marks _ rfl) (hprune.read _ rfl).2 hjudge
  next todo current confirmed name entries hpc hjudge =>
    rw [hpc] at hprune hopen
    exact h.setPrune ⟨hprune.marks, nofun, nofun⟩ hopen nofun

/-- A name goes that no writer has open and whose entries are confirmed. -/
theorem WalInv.remove (h : WalInv laneOf s) (hfree : ∀ g, ∀ f ∈ (s.writers g).file, name ≠ f.1)
    (hconf : ∀ e ∈ s.dir.lines name, s.collector.confirms e) :
    WalInv laneOf { s with
      names := s.names.filter fun n => decide (n ≠ name)
      dir := s.dir.unlink name } := by
  have hlines : ∀ n e, e ∈ (s.dir.unlink name).lines n ↔ n ≠ name ∧ e ∈ s.dir.lines n := by
    intro n e
    rw [s.dir.lines_unlink]
    by_cases hn : n = name <;> simp [hn]
  refine { h with
    named := fun n i hi => mem_filter.mpr ?_
    lanes := fun n e he => h.lanes n e ((hlines n e).mp he).2
    writers := fun g => { h.writers g with linked := fun f hf => ?_ }
    prunes := fun g => (h.prunes g).frame (fun held _ e he => ((hlines _ e).mp he).2) (.refl _)
    stored := fun e he hnot => (h.stored e he hnot).imp fun n hin => (hlines n e).mpr ⟨?_, hin⟩ }
  · have hne : n ≠ name := by
      rintro rfl
      rw [s.dir.link_unlink_self] at hi
      cases hi
    exact ⟨h.named n i ((s.dir.link_unlink_ne hne).symm.trans hi), decide_eq_true hne⟩
  · exact (s.dir.link_unlink_ne (Ne.symm (hfree g f hf))).trans ((h.writers g).linked f hf)
  · rintro rfl
    exact hnot (hconf e hin)

theorem WalInv.pruneRemove {removeOk : Bool} (h : WalInv laneOf s)
    (hs : s.pruneRemove g removeOk = some s') : WalInv laneOf s' := by
  have hprune := h.prunes g
  have hopen := (h.writers g).own
  have hfree := fun g' f hf => (h.writers g').free f hf g
  revert hs
  fun_cases SharedWal.pruneRemove s g removeOk <;> intro hs <;> cases hs
  all_goals
    rename_i todo current confirmed name entries hpc _
    rw [hpc] at hprune hopen hfree
    have hnext : WalInv laneOf (s.setPrune g (.scanning todo current confirmed)) :=
      h.setPrune ⟨hprune.marks, nofun, nofun⟩ hopen nofun
  next =>
    refine hnext.remove (fun g' f hf => hfree g' f hf _ rfl) fun e he => ?_
    exact hprune.judged e ((hprune.read _ rfl).1 e he)
  next => exact hnext

theorem walInv_step {a : WalAct} (h : WalInv laneOf s) (hok : WalStepOk laneOf s a)
    (hs : walStep s a = some s') : WalInv laneOf s' := by
  revert hs
  fun_cases walStep s a <;> intro hs
  case case1 => exact h.beginAppend hok hs
  case case2 => exact h.finishAppend hs
  case case3 => cases hs
  case case4 =>
    cases hs
    exact h.setWriter ⟨nofun, nofun, nofun, nofun⟩
  case case5 lane sourceID n =>
    cases hs
    refine h.learns ⟨fun l src => ?_, fun _ => id⟩
    dsimp only
    split
    · exact le_raise_iff.mpr (.inl (le_refl _))
    · exact le_refl _
  case case6 =>
    cases hs
    exact h.learns ⟨fun _ _ => le_refl _, fun _ => mem_cons_of_mem _⟩
  case case7 g lane sourceID =>
    cases hs
    obtain rfl : lane = laneOf sourceID := hok
    refine h.setReporter (fun src => ?_) (h.seen g)
    obtain hle | ⟨rfl, hle⟩ := le_raise_iff.mp (le_refl (raise (s.reporters g).confirmedSeq sourceID
      (s.collector.contiguous (laneOf sourceID) sourceID) src))
    · exact le_trans hle (h.marks g src)
    · exact hle
  case case8 g eventID =>
    cases hs
    refine h.setReporter (h.marks g) fun id hid => ?_
    by_cases heq : id = eventID
    · rw [heq]
      exact hok
    · exact h.seen g id (by simpa only [update_of_ne heq] using hid)
  case case9 => exact h.pruneStart hs
  case case10 => exact h.pruneRead hok hs
  case case11 => exact h.pruneJudge hs
  case case12 => exact h.pruneRemove hs

/-- The first event of the old generation is written, stored, and confirmed to the new generation,
whose own writer has not opened a file yet. -/
def confirmedFirstActs : List WalAct :=
  [.beginAppend 1 "20260530-18" (orgEvent "a1" "orgA" 1), .finishAppend 1 true,
    .collectorAdvance "orgA" "src" 1, .reply 2 "orgA" "src", .pruneStart 2, .pruneStart 2,
    .pruneStart 2, .pruneRead 2, .pruneJudge 2]

/-- Between the new generation's read and its removal the old one appends once more. -/
def racingActs : List WalAct :=
  confirmedFirstActs ++
    [.beginAppend 1 "20260530-18" (orgEvent "a2" "orgA" 2), .finishAppend 1 true,
      .pruneRemove 2 true]

/-- The old generation closes its file before the new one, which has gone on to the next file, takes
it in hand. -/
def orderedActs : List WalAct :=
  [.beginAppend 1 "20260530-18" (orgEvent "a1" "orgA" 1), .finishAppend 1 true, .closeWriter 1,
    .beginAppend 2 "20260530-19" (orgEvent "a2" "orgA" 2), .finishAppend 2 true,
    .collectorAdvance "orgA" "src" 1, .reply 2 "orgA" "src", .pruneStart 2, .pruneStart 2,
    .pruneStart 2, .pruneRead 2, .pruneJudge 2, .pruneRemove 2 true, .pruneRead 2]

end AikeyProxy.Events
