import AikeyProxy.Events.Reconcile
import AikeyProxy.Proof.Drain

/-!
# What reconcile may write off

A post to confirm-lost is *justified* when the WAL holds no event of that organisation with that
number, or that very event was delivered three times, and the number lies above the lane's owed
floor. The budget counts deliveries by source and number, so it proves something about one
organisation's event only when every delivery it counts was of that organisation.
-/

namespace AikeyProxy.Events

open Lib List Reconciler

def OwnEvent (orgID sourceID : String) (n : Int) (ev : ReportableEvent) : Prop :=
  ev.orgID = orgID ∧ ev.sourceID = sourceID ∧ ev.sourceSeq = some n ∧ 0 < n
  deriving Decidable

def deliveries (delivered : List ReportableEvent) (orgID sourceID : String) (n : Int) : Nat :=
  delivered.countP fun ev => decide (OwnEvent orgID sourceID n ev)

/-- Nothing recoverable is written off, and nothing below an owed floor. -/
def JustifiedPost (p : LostPost) : Prop :=
  ∀ n ∈ p.seqs,
    ((∀ ev ∈ p.wal, ¬ OwnEvent p.orgID p.sourceID n ev) ∨
      terminalResendAttempts ≤ deliveries p.delivered p.orgID p.sourceID n) ∧
    (0 < p.owedFloor → p.owedFloor < n)
  deriving Decidable

/-- The window looks numbers up in all that the WAL holds, and for every number whose event the
organisation still has there, the deliveries counted so far were of that organisation. -/
def WindowOk (st : Reconciler) (orgID sourceID : String) (w : Window) : Prop :=
  ReadsAll w.wal.reach w.wal.files ∧
  ∀ n ∈ w.missingSeqs, heldBack w.owedFloor n = false →
    (∃ ev ∈ contents w.wal.files, OwnEvent orgID sourceID n ev) →
    ∀ ev ∈ st.counted, ev.sourceID = sourceID → ev.seq = n → ev.orgID = orgID
  deriving Decidable

/-- The condition on a step: a window meets `WindowOk` for the stream at work. -/
def ReconcileStepOk (wd : ReconcileWorld) : ReconcileAct → Prop
  | .discover _ _ => True
  | .window w => ∀ s ∈ wd.stream, WindowOk wd.st s.1 s.2 w
  | .finish => True

instance (wd : ReconcileWorld) (a : ReconcileAct) : Decidable (ReconcileStepOk wd a) :=
  match a with
  | .discover _ _ => isTrue trivial
  | .window w => inferInstanceAs (Decidable (∀ s ∈ wd.stream, WindowOk wd.st s.1 s.2 w))
  | .finish => isTrue trivial

/-! ## Re-sending -/

variable {ev : ReportableEvent} {wal : List ReportableEvent} {sourceID orgID : String}
  {cfg : ReporterConfig} {st : Reconciler} {n : Int} {w : Window}

theorem resendEvent_walEntryOf (h : 0 < (walEntryOf ev).sourceSeq) :
    (walEntryOf ev).resendEvent = ev := by
  rw [walEntryOf_sourceSeq] at h
  obtain ⟨eventID, orgID, routeSource, sourceID, sourceSeq⟩ := ev
  cases sourceSeq with
  | none => cases h
  | some n =>
    by_cases hs : sourceID = "" <;> simp [walEntryOf, WALEntry.resendEvent, hs]

theorem mem_resendPick {want : List Int} {ev : ReportableEvent}
    (h : ev ∈ resendPick cfg sourceID want (wal.map walEntryOf)) : ev.sourceID = sourceID := by
  induction wal generalizing want with
  | nil => cases h
  | cons ev₀ wal ih =>
    rw [map_cons, resendPick] at h
    split at h
    next htake =>
      split at h
      · exact ih h
      · rcases mem_cons.mp h with rfl | h
        · rw [resendEvent_walEntryOf htake.2.1, ← htake.1, walEntryOf_sourceID]
        · exact ih h
    · exact ih h

variable {env : ResendEnv} {seqs : List Int} {res : ReconcileResult}

theorem mem_resendGroups {gs : List (String × List ReportableEvent)} :
    ∀ {r : Reporter} {ev : ReportableEvent}, ev ∈ (resendGroups env r gs).2 →
      ∃ g ∈ gs, ev ∈ g.2 := by
  intro r ev h
  fun_induction resendGroups env r gs with
  | case1 => cases h
  | case2 r routeSource group gs r' hup sent ih =>
    rcases mem_append.mp h with h | h
    · exact ⟨_, mem_cons_self, h⟩
    · obtain ⟨g, hg, hev⟩ := ih h
      exact ⟨g, mem_cons_of_mem _ hg, hev⟩
  | case3 r routeSource group gs r' hup ih =>
    obtain ⟨g, hg, hev⟩ := ih h
    exact ⟨g, mem_cons_of_mem _ hg, hev⟩

theorem mem_resendWALSeqs {r : Reporter}
    (h : ev ∈ (resendWALSeqs cfg env r sourceID seqs (wal.map walEntryOf)).2) :
    ev.sourceID = sourceID := by
  obtain ⟨g, hg, hev⟩ := mem_resendGroups h
  have hmem := (env.order_perm _).mem_iff.mp hg
  exact mem_resendPick (mem_of_mem_groupBy hmem hev).1

/-! ## The budget -/

def countedFor (counted : List ReportableEvent) (sourceID : String) (n : Int) :
    List ReportableEvent :=
  counted.filter fun ev => decide (ev.sourceID = sourceID ∧ ev.seq = n)

/-- The budget is what was counted, what was counted was delivered, and every post so
far was justified. -/
structure BudgetInv (st : Reconciler) : Prop where
  budget : ∀ src n, st.resendDelivered src n = (countedFor st.counted src n).length
  sublist : st.counted.Sublist st.delivered
  justified : ∀ p ∈ st.posts, JustifiedPost p

theorem budgetInv_init : BudgetInv Reconciler.init where
  budget := fun _ _ => rfl
  sublist := List.Sublist.refl []
  justified := nofun

theorem budgetInv_pruneHealed (h : BudgetInv st) (sourceID : String) (missing : List Int) :
    BudgetInv (st.pruneHealed sourceID missing) where
  budget := by
    intro src n
    have hcounted : countedFor (st.pruneHealed sourceID missing).counted src n =
        if src = sourceID ∧ n ∉ missing then [] else countedFor st.counted src n := by
      unfold countedFor pruneHealed
      rw [filter_filter]
      split
      next hgone =>
        refine filter_eq_nil_iff.mpr fun ev _ => ?_
        simp only [Bool.and_eq_true, decide_eq_true_eq, not_and]
        rintro ⟨rfl, rfl⟩ hin
        exact hgone.2 (hin hgone.1)
      next hstay =>
        refine filter_congr fun ev _ => ?_
        rw [Bool.eq_iff_iff]
        simp only [Bool.and_eq_true, decide_eq_true_eq, and_iff_left_iff_imp]
        rintro ⟨rfl, rfl⟩ hsrc
        by_contra hnot
        exact hstay ⟨hsrc, hnot⟩
    rw [hcounted]
    by_cases hgone : src = sourceID ∧ n ∉ missing
    · rw [if_pos hgone]; simp [pruneHealed, hgone]
    · rw [if_neg hgone, ← h.budget]; simp only [pruneHealed, if_neg hgone]
  sublist := (filter_sublist).trans h.sublist
  justified := h.justified

theorem budgetInv_resend (h : BudgetInv st) (sourceID : String) (w : Window) (seqs : List Int) :
    BudgetInv (st.resend cfg sourceID w seqs).1 where
  budget := by
    intro src n
    have hsrc : ∀ ev ∈ (resendWALSeqs cfg w.resend st.rep sourceID seqs
        w.walAtResend.entries).2, ev.sourceID = sourceID := fun ev => mem_resendWALSeqs
    simp only [Reconciler.resend, countedFor, filter_append, length_append]
    by_cases hs : src = sourceID
    · rw [if_pos hs, h.budget src n, countedFor]
      congr 2
      refine filter_congr fun ev hev => ?_
      simp [hsrc ev hev, hs]
    · rw [if_neg hs, h.budget src n, countedFor]
      have hnone : List.filter (fun ev : ReportableEvent => decide (ev.sourceID = src ∧ ev.seq = n))
          (resendWALSeqs cfg w.resend st.rep sourceID seqs w.walAtResend.entries).2 =
          [] := by
        refine filter_eq_nil_iff.mpr fun ev hev => ?_
        rw [hsrc ev hev]
        simpa using fun h => absurd h.symm hs
      rw [hnone, length_nil, Nat.add_zero]
  sublist := List.Sublist.append h.sublist (List.Sublist.refl _)
  justified := h.justified

theorem deliveries_of_budget (h : BudgetInv st) (hpos : 0 < n)
    (hown : ∀ ev ∈ st.counted, ev.sourceID = sourceID → ev.seq = n → ev.orgID = orgID) :
    st.resendDelivered sourceID n ≤ deliveries st.delivered orgID sourceID n := by
  rw [h.budget]
  calc (countedFor st.counted sourceID n).length
      = st.counted.countP fun ev => decide (ev.sourceID = sourceID ∧ ev.seq = n) := by
        rw [countedFor, countP_eq_length_filter]
    _ ≤ deliveries st.counted orgID sourceID n := by
        refine countP_mono_left fun ev hev hmatch => ?_
        obtain ⟨hsrc, hseq⟩ := of_decide_eq_true hmatch
        refine decide_eq_true ⟨hown ev hev hsrc hseq, hsrc, ?_, hpos⟩
        cases hs : ev.sourceSeq with
        | none => rw [ReportableEvent.seq, hs] at hseq; simp at hseq; omega
        | some m => rw [ReportableEvent.seq, hs] at hseq; simpa using hseq
    _ ≤ deliveries st.delivered orgID sourceID n := h.sublist.countP_le

/-! ## One window -/

theorem heldBack_eq_false {owedFloor : Int} (h : heldBack owedFloor n = false) :
    0 < owedFloor → owedFloor < n := by
  intro hpos
  by_contra hle
  rw [heldBack, decide_eq_true hpos, decide_eq_true (not_lt.mp hle)] at h
  cases h

theorem walHasSeq_of_own (hev : ev ∈ wal) (hown : OwnEvent orgID sourceID n ev) :
    walHasSeq sourceID (wal.map walEntryOf) n = true := by
  obtain ⟨_, hsrc, hseq, hpos⟩ := hown
  have hn : (walEntryOf ev).sourceSeq = n := by
    rw [walEntryOf_sourceSeq, ReportableEvent.seq, hseq]; rfl
  refine any_eq_true.mpr ⟨walEntryOf ev, mem_map_of_mem hev, ?_⟩
  rw [hn, walEntryOf_sourceID]
  simp [hsrc, hpos]

theorem walHasSeq_pos {entries : List WALEntry} (h : walHasSeq sourceID entries n = true) :
    0 < n := by
  obtain ⟨e, _, he⟩ := any_eq_true.mp h
  simp only [Bool.and_eq_true, decide_eq_true_eq] at he
  omega

theorem notInWAL_justified (hread : ReadsAll w.wal.reach w.wal.files)
    (delivered : List ReportableEvent) :
    JustifiedPost ⟨orgID, sourceID, w.notInWAL sourceID, contents w.wal.files, w.owedFloor,
      delivered⟩ := by
  intro n hn
  obtain ⟨_, hcond⟩ := mem_filter.mp hn
  simp only [Bool.and_eq_true, Bool.not_eq_true', WalRead.entries, hread.eq_contents] at hcond
  refine ⟨Or.inl fun ev hev hown => ?_, heldBack_eq_false hcond.1⟩
  rw [walHasSeq_of_own hev hown] at hcond
  exact absurd hcond.2 (by simp)

/-- A number that is given up on is justified while the budget counts only its own
organisation's deliveries. -/
theorem gaveUp_justified (h : BudgetInv st) (hok : WindowOk st orgID sourceID w)
    {delivered : List ReportableEvent} (hsub : st.delivered.Sublist delivered) :
    JustifiedPost ⟨orgID, sourceID, (st.pruneHealed sourceID w.missingSeqs).gaveUp sourceID w,
      contents w.wal.files, w.owedFloor, delivered⟩ := by
  intro n hn
  obtain ⟨hmissing, hcond⟩ := mem_filter.mp hn
  simp only [Bool.and_eq_true, Bool.not_eq_true', decide_eq_true_eq] at hcond
  obtain ⟨⟨hheld, hwal⟩, hbudget⟩ := hcond
  refine ⟨?_, heldBack_eq_false hheld⟩
  by_cases hown : ∃ ev ∈ contents w.wal.files, OwnEvent orgID sourceID n ev
  · right
    -- the number is missing, so its budget survived the pruning
    have hkeep : (st.pruneHealed sourceID w.missingSeqs).resendDelivered sourceID n =
        st.resendDelivered sourceID n := by
      simp [pruneHealed, hmissing]
    rw [hkeep] at hbudget
    have hle := deliveries_of_budget h (walHasSeq_pos hwal) (hok.2 n hmissing hheld hown)
    exact le_trans hbudget (le_trans hle hsub.countP_le)
  · left
    intro ev hev hev'
    exact hown ⟨ev, hev, hev'⟩

theorem budgetInv_post (h : BudgetInv st)
    (hj : JustifiedPost ⟨orgID, sourceID, seqs, contents w.wal.files, w.owedFloor,
      st.delivered⟩) :
    BudgetInv (st.post orgID sourceID w seqs) where
  budget := h.budget
  sublist := h.sublist
  justified := by
    intro p hp
    rcases mem_append.mp hp with hp | hp
    · exact h.justified p hp
    · rw [mem_singleton.mp hp]; exact hj

theorem budgetInv_postWindow (h : BudgetInv st) {notInWAL gaveUp : List Int}
    (hlost : JustifiedPost ⟨orgID, sourceID, notInWAL, contents w.wal.files, w.owedFloor,
      st.delivered⟩)
    (hgave : JustifiedPost ⟨orgID, sourceID, gaveUp, contents w.wal.files, w.owedFloor,
      st.delivered⟩) :
    BudgetInv (postWindow st res orgID sourceID w notInWAL gaveUp).st := by
  have hpost := budgetInv_post h hlost
  fun_cases postWindow st res orgID sourceID w notInWAL gaveUp
  case case1 lost st' _ _ heq _ | case2 lost st' _ _ heq _ _ | case3 lost st' _ _ heq _ _ _
      | case4 lost st' _ _ heq _ _ _ _ =>
    have hafter : BudgetInv st' ∧ st'.delivered = st.delivered := by
      simp only [lost] at heq
      split at heq
      · cases heq
        exact ⟨h, rfl⟩
      · split at heq <;> cases heq <;> exact ⟨hpost, rfl⟩
    first
    | exact hafter.1
    | exact budgetInv_post hafter.1 (by rw [hafter.2]; exact hgave)

/-- **One window keeps the invariant.** -/
theorem budgetInv_window {first : Bool} (h : BudgetInv st) (hok : WindowOk st orgID sourceID w) :
    BudgetInv (reconcileWindow cfg st res orgID sourceID first w).st := by
  fun_cases reconcileWindow cfg st res orgID sourceID first w
  case case1 | case2 => exact h
  have hhealed := budgetInv_pruneHealed h sourceID w.missingSeqs
  refine budgetInv_postWindow (budgetInv_resend hhealed sourceID w _)
    (notInWAL_justified hok.1 _) (gaveUp_justified h hok ?_)
  exact sublist_append_left _ _

theorem next_st (p : ReconcilePass) (out : WindowOut) (returned : List (ReconcileResult × Bool)) :
    (p.next out returned).st = out.st := by
  unfold ReconcilePass.next
  cases out.ended with
  | failed | converged | last => rfl
  | more => simp only; split <;> rfl

theorem budgetInv_step {self : String} {wd wd' : ReconcileWorld} {a : ReconcileAct}
    (h : BudgetInv wd.st) (hok : ReconcileStepOk wd a)
    (hs : reconcileStep cfg self wd a = some wd') : BudgetInv wd'.st := by
  revert hs
  fun_cases reconcileStep cfg self wd a <;> intro hs <;> cases hs
  case case4 hstream _ =>
    rw [next_st]
    exact budgetInv_window h (hok _ hstream)
  all_goals exact h

/-- **Reconcile writes off nothing recoverable** in every run whose windows all meet `WindowOk`. -/
theorem reconcile_posts_justified {cfg : ReporterConfig} {self : String}
    {acts : List ReconcileAct} {wd : ReconcileWorld}
    (hrun : Guarded (reconcileStep cfg self) ReconcileStepOk ReconcileWorld.init acts wd) :
    ∀ p ∈ wd.st.posts, JustifiedPost p :=
  (hrun.invariant (I := fun wd => BudgetInv wd.st)
    (fun _ _ _ hi hok hs => budgetInv_step hi hok hs) budgetInv_init).justified

/-! ## Two organisations with the same number -/

/-- A pass in which the collector misses number 1 of `orgA`, and accepts every re-send. -/
def orgAMissesOne (wal : List ReportableEvent) : List ReconcileAct :=
  [.discover true [("orgA", "src")],
    .window
      { gapsOk := true, missingSeqs := [1], truncated := false
        wal := ⟨[⟨walFileName "20260530-18", wal⟩], wholeFiles⟩
        walAtResend := ⟨[⟨walFileName "20260530-18", wal⟩], wholeFiles⟩
        owedFloor := 0, resend := ⟨id, fun _ => .refl _, fun _ => .ok []⟩
        lostPromoted := some 1, gaveUpPromoted := some 1 },
    .finish]

def orgAMissesOneFourTimes (wal : List ReportableEvent) : List ReconcileAct :=
  (List.replicate 4 (orgAMissesOne wal)).flatten

/-- Both organisations' first events; the other organisation's was appended first. -/
def sharedNumberWAL : List ReportableEvent := [orgEvent "b1" "orgB" 1, orgEvent "a1" "orgA" 1]

/-- Three re-sends of the other organisation's event use up the budget. -/
theorem reconcile_writes_off_recoverable :
    ¬ ∀ (cfg : ReporterConfig) (self : String) (acts : List ReconcileAct) (wd : ReconcileWorld),
      exec (reconcileStep cfg self) ReconcileWorld.init acts = some wd →
      ∀ p ∈ wd.st.posts, JustifiedPost p := by
  intro h
  have hall := h oneCollector "src" (orgAMissesOneFourTimes sharedNumberWAL) _ rfl
  exact absurd hall (by decide)

/-- The fourth pass gives up on a number it delivered three times, and rightly so. -/
theorem give_up_justified :
    ∃ wd, guardedExec (reconcileStep oneCollector "src") ReconcileStepOk ReconcileWorld.init
        (orgAMissesOneFourTimes [orgEvent "a1" "orgA" 1]) = some wd ∧
      wd.st.posts ≠ [] ∧ ∀ p ∈ wd.st.posts, JustifiedPost p := by
  have hrun := Guarded.of_guardedExec (show guardedExec (reconcileStep oneCollector "src")
    ReconcileStepOk .init (orgAMissesOneFourTimes [orgEvent "a1" "orgA" 1]) = some _ from rfl)
  exact ⟨_, rfl, by decide, reconcile_posts_justified hrun⟩

end AikeyProxy.Events
