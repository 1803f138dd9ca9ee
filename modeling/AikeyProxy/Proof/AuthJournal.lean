import AikeyProxy.Lib.Outbox
import AikeyProxy.Lib.Run
import AikeyProxy.Proof.AuthRecords

/-!
# What a start restores from the auth-failure journal

The journal is a file of whole lines as long as failed appends leave nothing behind, and replaying
it is replaying its entries. So the outbox's invariant carries over: a start restores every failure
that is due and none that is settled.
-/

namespace AikeyProxy.Proxy

open Lib List AList Option

abbrev FailureEntry := Entry AuthFailureSample

def entryFailure : FailureEntry → AuthFailureSample
  | .put s => s
  | .del s => s

def entryRecord : FailureEntry → AuthFailureJournalRecord
  | .put s => putRecord s
  | .del s => deleteRecord s

def recordEntry (r : AuthFailureJournalRecord) : Option FailureEntry :=
  match r.failure with
  | none => none
  | some s => if r.op = "put" then some (.put s) else if r.op = "delete" then some (.del s) else none

def journalEvents (attempts : List (Bool × List AuthFailureJournalRecord)) :
    List (Bool × FailureEntry) :=
  attempts.flatMap fun a => (a.2.filterMap recordEntry).map fun e => (a.1, e)

theorem journalEvents_append (attempts : List (Bool × List AuthFailureJournalRecord)) (ok : Bool)
    (es : List FailureEntry) :
    journalEvents (attempts ++ [(ok, es.map entryRecord)]) =
      journalEvents attempts ++ es.map fun e => (ok, e) := by
  have hes : (es.map entryRecord).filterMap recordEntry = es := by
    rw [filterMap_map]
    have hcomp : recordEntry ∘ entryRecord = some := funext fun e => by cases e <;> rfl
    rw [hcomp, filterMap_some]
  simp [journalEvents, hes]

/-! ### Replaying the records of entries -/

variable {s : AuthFailureSample} {o : AuthOutbox} {es : List FailureEntry} {w : AuthWorld}
  {m : Table String AuthFailureSample} {vs : List AuthFailureSample}

theorem AuthFailureSample.ne_zero (h : s.complete = true) : s ≠ .zero := by
  rintro rfl
  exact absurd h (by decide)

variable {t : Table String AuthFailureSample} {e : FailureEntry} {compacts : Bool}
  {outcome : AppendOutcome} {sent : List AuthFailureSample}

theorem valueAt_eq_iff {k : String} (h : s.complete = true) :
    valueAt t k = s ↔ t.lookup k = some s := by
  unfold valueAt
  cases t.lookup k with
  | none => simpa using (AuthFailureSample.ne_zero h).symm
  | some x => simp

def replayed (es : List FailureEntry) : Table String AuthFailureSample :=
  es.foldl (Entry.apply authFailureKey maxPendingAuthFailures) ∅

theorem replayRecord_entryRecord (he : (entryFailure e).complete = true)
    (hsame : o.authDurable = o.authFailures) :
    (replayRecord o (entryRecord e)).authFailures =
        Entry.apply authFailureKey maxPendingAuthFailures o.authFailures e ∧
      (replayRecord o (entryRecord e)).authDurable =
        (replayRecord o (entryRecord e)).authFailures := by
  have hop : ¬ ("delete" : String) = "put" := by decide
  cases e <;> simp only [entryFailure] at he <;>
    simp only [replayRecord, entryRecord, putRecord, deleteRecord, ne_eq, not_true_eq_false,
      if_false, if_true, hop, hydrateAuthFailurePut, he, Bool.not_true, Bool.false_eq_true,
      valueAt_eq_iff he, Entry.apply] <;>
    split <;> simp [hsame]

theorem foldl_replayRecord :
    ∀ {o : AuthOutbox}, (∀ e ∈ es, (entryFailure e).complete = true) →
      o.authDurable = o.authFailures →
      ((es.map entryRecord).foldl replayRecord o).authFailures =
          es.foldl (Entry.apply authFailureKey maxPendingAuthFailures) o.authFailures ∧
        ((es.map entryRecord).foldl replayRecord o).authDurable =
          ((es.map entryRecord).foldl replayRecord o).authFailures := by
  induction es with
  | nil => intro o _ hsame; exact ⟨rfl, hsame⟩
  | cons e es ih =>
    intro o hes hsame
    obtain ⟨hfail, hdur⟩ := replayRecord_entryRecord (hes e mem_cons_self) hsame
    obtain ⟨h1, h2⟩ := ih (fun x hx => hes x (mem_cons_of_mem _ hx)) hdur
    rw [map_cons, foldl_cons, foldl_cons, h1, hfail]
    exact ⟨rfl, h2.trans (h1.trans (by rw [hfail]))⟩

theorem replayed_append (es new : List FailureEntry) :
    replayed (es ++ new) =
      new.foldl (Entry.apply authFailureKey maxPendingAuthFailures) (replayed es) :=
  foldl_append

theorem encodeRecords_eq_nil {rs : List AuthFailureJournalRecord} (h : encodeRecords rs = []) :
    rs = [] := by
  cases rs with
  | nil => rfl
  | cons r rs => simp [encodeRecords] at h

/-! ### The invariant -/

/-- The reporter as an outbox, over a disk that holds these entries. -/
def outboxOf (w : AuthWorld) (es : List FailureEntry) : Outbox String AuthFailureSample where
  disk := replayed es
  mem := w.outbox.authFailures
  durable := w.outbox.authDurable
  events := journalEvents w.attempts

/-- The file is whole lines of these entries, and with them the reporter is an outbox. -/
structure AuthInv (w : AuthWorld) (es : List FailureEntry) : Prop where
  text : w.file.getD [] = encodeRecords (es.map entryRecord)
  complete : ∀ e ∈ es, (entryFailure e).complete = true
  pending : ∀ k s, w.outbox.authFailures.lookup k = some s → s.complete = true
  inv : Outbox.Inv authFailureKey maxPendingAuthFailures (outboxOf w es)

theorem AuthInv.pending_assignAll (h : AuthInv w es) (hvs : ∀ v ∈ vs, v.complete = true)
    (k : String) (s : AuthFailureSample)
    (hs : (assignAll w.outbox.authFailures (rows authFailureKey vs)).lookup k = some s) :
    s.complete = true := by
  rcases lookup_assignAll hs with hrow | hold
  · exact hvs s ((mem_rows authFailureKey).mp hrow).1
  · exact h.pending k s hold

/-- No durable failure is superseded in memory by one whose append failed. -/
def BookFresh (o : AuthOutbox) : Prop :=
  ∀ k ∈ o.authDurable.keys, o.authFailures.lookup k = o.authDurable.lookup k
  deriving Decidable

theorem BookFresh.fresh (h : BookFresh w.outbox) (es : List FailureEntry) :
    (outboxOf w es).Fresh := fun k s hs =>
  (h k (AList.mem_keys.mp (Table.mem_iff.mpr ⟨s, hs⟩))).trans hs

/-! ### Compactions -/

theorem mem_snapshotAuthFailures :
    s ∈ snapshotAuthFailures o ↔ ∃ k, o.authFailures.lookup k = some s := by
  unfold snapshotAuthFailures
  rw [List.mem_map]
  constructor
  · rintro ⟨⟨k, s'⟩, hmem, rfl⟩
    exact ⟨k, mem_lookup_iff.mpr hmem⟩
  · rintro ⟨k, hk⟩
    exact ⟨⟨k, s⟩, mem_lookup_iff.mp hk, rfl⟩

theorem lookup_replayed_snapshot (h : AuthInv w es) {sorted : List AuthFailureSample}
    (hsorted : ∀ s, s ∈ sorted ↔ s ∈ snapshotAuthFailures w.outbox) (k : String) :
    (replayed (sorted.map Entry.put)).lookup k = w.outbox.authFailures.lookup k := by
  have hkeyed : ∀ s ∈ sorted, w.outbox.authFailures.lookup (authFailureKey s) = some s := by
    intro s hs
    obtain ⟨k', hk'⟩ := mem_snapshotAuthFailures.mp ((hsorted s).mp hs)
    rwa [h.inv.keyed k' s hk']
  have hall : replayed (sorted.map Entry.put) = assignAll ∅ (rows authFailureKey sorted) := by
    refine foldl_apply_put h.inv.room (fun k hk => absurd hk (notMem_empty k)) fun s hs => ?_
    exact Table.mem_iff.mpr ⟨s, hkeyed s hs⟩
  rw [hall]
  by_cases hin : ∃ s ∈ sorted, authFailureKey s = k
  · obtain ⟨-, x, hx, rfl, hlook⟩ := lookup_assignAll_rows_mem authFailureKey hin ∅ ∅
    rw [hlook, hkeyed x hx]
  · rw [lookup_assignAll_rows_ne authFailureKey (by grind -linarith)]
    cases hk : w.outbox.authFailures.lookup k with
    | none => rfl
    | some s =>
      exact absurd ⟨s, (hsorted s).mpr (mem_snapshotAuthFailures.mpr ⟨k, hk⟩), h.inv.keyed k s hk⟩ hin

theorem AuthInv.compact (h : AuthInv w es) {done : Bool}
    (hdone : done = true → (outboxOf w es).Fresh) :
    ∃ es', AuthInv (compactAuthFailureJournal w done) es' := by
  unfold compactAuthFailureJournal
  cases done with
  | false => exact ⟨es, h⟩
  | true =>
    have hfresh := hdone rfl
    simp only [Bool.not_true, Bool.false_eq_true, if_false]
    split
    next hempty =>
      refine ⟨[], rfl, by simp, h.pending, ?_⟩
      have hnone : ∀ s, s ∈ ([] : List AuthFailureSample) ↔ s ∈ snapshotAuthFailures w.outbox := by
        simp [hempty]
      exact h.inv.compact hfresh (lookup_replayed_snapshot h hnone)
    · generalize hsort : (snapshotAuthFailures w.outbox).insertionSort
        (fun a b => authFailureKey a ≤ authFailureKey b) = sorted
      have hsorted : ∀ s, s ∈ sorted ↔ s ∈ snapshotAuthFailures w.outbox := by
        intro s
        rw [← hsort, mem_insertionSort]
      refine ⟨sorted.map Entry.put, ?_, ?_, h.pending, ?_⟩
      · show encodeRecords (sorted.map putRecord) = _
        rw [List.map_map]
        rfl
      · intro e he
        obtain ⟨s, hs, rfl⟩ := mem_map.mp he
        obtain ⟨k, hk⟩ := mem_snapshotAuthFailures.mp ((hsorted s).mp hs)
        exact h.pending k s hk
      · exact h.inv.compact hfresh (lookup_replayed_snapshot h hsorted)

theorem AuthInv.compactIfNeeded (h : AuthInv w es) {done : Bool}
    (hdone : done = true → (outboxOf w es).Fresh) :
    ∃ es', AuthInv (compactAuthFailureJournalIfNeeded w done) es' := by
  unfold compactAuthFailureJournalIfNeeded
  split
  · exact ⟨es, h⟩
  · exact h.compact hdone

/-! ### Ingesting -/

theorem room_insert (hroom : t.entries.length ≤ maxPendingAuthFailures)
    (hnew : ¬ (authFailureKey s ∉ t ∧ maxPendingAuthFailures ≤ t.entries.length)) :
    (t.insert (authFailureKey s) s).entries.length ≤ maxPendingAuthFailures := by
  by_cases hk : authFailureKey s ∈ t
  · refine Nat.le_trans (Table.length_le fun k hin => ?_) hroom
    rcases (mem_insert _).mp hin with rfl | hin
    · exact hk
    · exact hin
  · rw [entries_insert_of_notMem hk, length_cons]
    have hlt : t.entries.length < maxPendingAuthFailures := Nat.lt_of_not_le fun h => hnew ⟨hk, h⟩
    omega

theorem foldl_ingestSample (durable m : Table String AuthFailureSample) :
    ∀ (samples us : List AuthFailureSample),
      (assignAll m (rows authFailureKey us)).entries.length ≤ maxPendingAuthFailures →
      ∃ vs, (∀ v ∈ vs, v ∈ us ∨ v ∈ samples) ∧
        samples.foldl (ingestSample durable)
            (assignAll m (rows authFailureKey us), us.map putRecord) =
          (assignAll m (rows authFailureKey vs), vs.map putRecord) ∧
        (assignAll m (rows authFailureKey vs)).entries.length ≤ maxPendingAuthFailures := by
  intro samples
  induction samples with
  | nil => intro us hroom; exact ⟨us, fun v hv => .inl hv, rfl, hroom⟩
  | cons s samples ih =>
    intro us hroom
    rw [foldl_cons, ingestSample]
    dsimp only
    split
    · obtain ⟨vs, hvs, heq⟩ := ih us hroom
      exact ⟨vs, by grind -linarith, heq⟩
    · split
      · obtain ⟨vs, hvs, heq⟩ := ih us hroom
        exact ⟨vs, by grind -linarith, heq⟩
      next hnew =>
        have hassign : (assignAll m (rows authFailureKey us)).insert (authFailureKey s) s =
            assignAll m (rows authFailureKey (us ++ [s])) := by
          simp [rows, assignAll]
        have hput : us.map putRecord ++ [putRecord s] = (us ++ [s]).map putRecord := by simp
        have hroom' := room_insert hroom hnew
        rw [hassign] at hroom' ⊢
        rw [hput]
        obtain ⟨vs, hvs, heq⟩ := ih (us ++ [s]) hroom'
        exact ⟨vs, by grind -linarith, heq⟩

def bookPuts (m : Table String AuthFailureSample) (durable : Table String AuthFailureSample)
    (r : AuthFailureJournalRecord) : Table String AuthFailureSample :=
  match r.failure with
  | none => durable
  | some s =>
    let key := authFailureKey s
    if valueAt m key = s then durable.insert key s else durable

theorem lookup_bookPuts {k : String} :
    ∀ {vs : List AuthFailureSample} (durable : Table String AuthFailureSample),
      (∀ v ∈ vs, v.complete = true) →
      ((∃ v ∈ vs, authFailureKey v = k ∧ m.lookup k = some v) →
        ((vs.map putRecord).foldl (bookPuts m) durable).lookup k = m.lookup k) ∧
      ((∀ v ∈ vs, authFailureKey v = k → m.lookup k ≠ some v) →
        ((vs.map putRecord).foldl (bookPuts m) durable).lookup k = durable.lookup k) := by
  intro vs
  induction vs with
  | nil =>
    intro durable _
    exact ⟨fun ⟨_, hv, _⟩ => absurd hv not_mem_nil, fun _ => rfl⟩
  | cons v vs ih =>
    intro durable hvs
    have hstep : bookPuts m durable (putRecord v) =
        if m.lookup (authFailureKey v) = some v then durable.insert (authFailureKey v) v
        else durable := by
      simp only [bookPuts, putRecord, valueAt_eq_iff (hvs v mem_cons_self)]
    rw [map_cons, foldl_cons, hstep]
    have hrest := ih (if m.lookup (authFailureKey v) = some v
      then durable.insert (authFailureKey v) v else durable)
      fun x hx => hvs x (mem_cons_of_mem _ hx)
    grind -linarith [lookup_insert, lookup_insert_ne]

theorem bookedPuts (w : AuthWorld) (es : List FailureEntry) (hvs : ∀ v ∈ vs, v.complete = true)
    (hm : m = assignAll w.outbox.authFailures (rows authFailureKey vs)) :
    Outbox.Inv.BookedPuts authFailureKey (outboxOf w es) vs m
      ((vs.map putRecord).foldl (bookPuts m) w.outbox.authDurable) := by
  refine ⟨fun k hk => ?_, fun k hk => ?_⟩
  · refine (lookup_bookPuts _ hvs).1 ?_
    obtain ⟨-, v, hv, hvk, hlook⟩ := lookup_assignAll_rows_mem authFailureKey hk
      w.outbox.authFailures w.outbox.authFailures
    exact ⟨v, hv, hvk, hm ▸ hlook⟩
  · exact (lookup_bookPuts _ hvs).2 fun v hv hvk => absurd hvk (hk v hv)

theorem AuthInv.text_append (h : AuthInv w es) (new : List FailureEntry) :
    w.file.getD [] ++ encodeRecords (new.map entryRecord) =
      encodeRecords ((es ++ new).map entryRecord) := by
  rw [h.text, map_append, encodeRecords, encodeRecords, encodeRecords, flatMap_append]

def AppendOutcome.LeavesNothing : AppendOutcome → Prop
  | .done => True
  | .fails left => left = 0

instance (outcome : AppendOutcome) : Decidable outcome.LeavesNothing :=
  match outcome with
  | .done => inferInstanceAs (Decidable True)
  | .fails left => inferInstanceAs (Decidable (left = 0))

theorem map_putRecord (vs : List AuthFailureSample) :
    vs.map putRecord = (vs.map Entry.put).map entryRecord := by
  rw [List.map_map]
  rfl

theorem journalEvents_puts (attempts : List (Bool × List AuthFailureJournalRecord)) (ok : Bool)
    (vs : List AuthFailureSample) :
    journalEvents (attempts ++ [(ok, vs.map putRecord)]) =
      journalEvents attempts ++ vs.map fun v => (ok, Entry.put v) := by
  rw [map_putRecord, journalEvents_append, List.map_map]
  rfl

theorem AuthInv.ingestFails (h : AuthInv w es) (hvs : ∀ v ∈ vs, v.complete = true)
    (hm : m = assignAll w.outbox.authFailures (rows authFailureKey vs))
    (hroom : m.entries.length ≤ maxPendingAuthFailures) :
    AuthInv
      { w with
        outbox := { w.outbox with authFailures := m }
        attempts := w.attempts ++ [(false, vs.map putRecord)] } es := by
  subst hm
  refine ⟨h.text, h.complete, h.pending_assignAll hvs, ?_⟩
  rw [outboxOf, journalEvents_puts]
  exact h.inv.putFails vs hroom

theorem AuthInv.ingestDone (h : AuthInv w es) (hvs : ∀ v ∈ vs, v.complete = true)
    (hm : m = assignAll w.outbox.authFailures (rows authFailureKey vs))
    (hroom : m.entries.length ≤ maxPendingAuthFailures) (ops bytes : Nat) :
    AuthInv
      { file := some (w.file.getD [] ++ encodeRecords (vs.map putRecord))
        outbox :=
          { authFailures := m
            authDurable := (vs.map putRecord).foldl (bookPuts m) w.outbox.authDurable
            authJournalOps := ops
            authJournalBytes := bytes }
        attempts := w.attempts ++ [(true, vs.map putRecord)] } (es ++ vs.map Entry.put) := by
  subst hm
  refine ⟨?_, fun e he => ?_, h.pending_assignAll hvs, ?_⟩
  · rw [map_putRecord]
    exact h.text_append (vs.map Entry.put)
  · rcases mem_append.mp he with he | he
    · exact h.complete e he
    · obtain ⟨v, hv, rfl⟩ := mem_map.mp he
      exact hvs v hv
  · have hdisk : replayed (es ++ vs.map Entry.put) =
        assignAll (replayed es) (rows authFailureKey vs) := by
      rw [replayed_append]
      exact foldl_apply_put hroom (fun k hk => mem_assignAll.mpr (.inr (h.inv.inside k hk)))
        fun v hv => mem_assignAll.mpr (.inl ((mem_keys_rows authFailureKey).mpr ⟨v, hv, rfl⟩))
    rw [outboxOf, journalEvents_puts, hdisk]
    exact h.inv.putDone vs hroom (bookedPuts w es hvs rfl)

theorem AuthInv.ingest (h : AuthInv w es) {samples : List AuthFailureSample}
    (hsamples : ∀ s ∈ samples, s.complete = true) (hout : outcome.LeavesNothing)
    (hcompact : compacts = true → BookFresh w.outbox) :
    ∃ es', AuthInv (ingestAuthFailures w samples outcome compacts) es' := by
  obtain ⟨vs, hvs, hfold, hroom⟩ :=
    foldl_ingestSample w.outbox.authDurable w.outbox.authFailures samples [] h.inv.room
  have hcomplete : ∀ v ∈ vs, v.complete = true := fun v hv =>
    hsamples v ((hvs v hv).resolve_left not_mem_nil)
  have hfold' : samples.foldl (ingestSample w.outbox.authDurable) (w.outbox.authFailures, []) =
      (assignAll w.outbox.authFailures (rows authFailureKey vs), vs.map putRecord) := hfold
  unfold ingestAuthFailures
  rw [hfold']
  dsimp only
  split
  next hnone =>
    obtain rfl : vs = [] := map_eq_nil_iff.mp hnone
    exact ⟨es, h⟩
  · cases outcome with
    | fails left =>
      obtain rfl : left = 0 := hout
      exact ⟨es, h.ingestFails hcomplete rfl hroom⟩
    | done =>
      have hdone := h.ingestDone hcomplete rfl hroom
        (w.outbox.authJournalOps + (vs.map putRecord).length)
        (w.outbox.authJournalBytes + textBytes (encodeRecords (vs.map putRecord)))
      refine hdone.compactIfNeeded fun hc k s hs => ?_
      -- A key that was put has its new failure in the book, any other one has its old one.
      have hfresh := (hcompact hc).fresh es
      have hbook := bookedPuts w es hcomplete rfl
      by_cases hin : ∃ v ∈ vs, authFailureKey v = k
      · exact (hbook.1 k hin).symm.trans hs
      · have hno : ∀ v ∈ vs, authFailureKey v ≠ k := fun v hv hk => hin ⟨v, hv, hk⟩
        have hold := hfresh k s ((hbook.2 k hno).symm.trans hs)
        exact (lookup_assignAll_rows_ne authFailureKey hno _).trans hold

/-! ### Acknowledging -/

def acknowledged (o : AuthOutbox) (sent : List AuthFailureSample) : List AuthFailureSample :=
  sent.filter fun s => o.authFailures.lookup (authFailureKey s) = some s

theorem ackRecords_eq (hs : s.complete = true) :
    ackRecords o s =
      if o.authFailures.lookup (authFailureKey s) = some s then
        (ackEntries authFailureKey o.authDurable s).map entryRecord
      else [] := by
  simp only [ackRecords, valueAt_eq_iff hs]
  split
  · unfold ackEntries
    split <;> rfl
  · rfl

theorem flatMap_ackRecords (o : AuthOutbox) (hsent : ∀ s ∈ sent, s.complete = true) :
    sent.flatMap (ackRecords o) =
      ((acknowledged o sent).flatMap (ackEntries authFailureKey o.authDurable)).map entryRecord := by
  induction sent with
  | nil => rfl
  | cons s sent ih =>
    have hrest := ih fun x hx => hsent x (mem_cons_of_mem _ hx)
    rw [flatMap_cons, hrest, ackRecords_eq (hsent s mem_cons_self)]
    by_cases hp : o.authFailures.lookup (authFailureKey s) = some s <;> simp [hp, acknowledged]

theorem forgetRecord_entryRecord (he : (entryFailure e).complete = true) :
    forgetRecord o (entryRecord e) =
      if o.authFailures.lookup (authFailureKey (entryFailure e)) = some (entryFailure e) then
        { o with
          authFailures := o.authFailures.erase (authFailureKey (entryFailure e))
          authDurable := o.authDurable.erase (authFailureKey (entryFailure e)) }
      else o := by
  have hfailure : (entryRecord e).failure = some (entryFailure e) := by cases e <;> rfl
  simp only [forgetRecord, hfailure, valueAt_eq_iff he]

theorem removed_forgetRecord :
    ∀ {o : AuthOutbox}, (∀ e ∈ es, (entryFailure e).complete = true) →
      (∀ e ∈ es, o.authFailures.lookup (authFailureKey (entryFailure e)) = some (entryFailure e) ∨
        (o.authFailures.lookup (authFailureKey (entryFailure e)) = none ∧
          o.authDurable.lookup (authFailureKey (entryFailure e)) = none)) →
      Removed authFailureKey (es.map entryFailure) o.authFailures
          ((es.map entryRecord).foldl forgetRecord o).authFailures ∧
        Removed authFailureKey (es.map entryFailure) o.authDurable
          ((es.map entryRecord).foldl forgetRecord o).authDurable := by
  induction es with
  | nil => intro o _ _; exact ⟨.nil _, .nil _⟩
  | cons e es ih =>
    intro o hes hin
    have hforget := forgetRecord_entryRecord (o := o) (hes e mem_cons_self)
    have hfirst := hin e mem_cons_self
    generalize hs : entryFailure e = s at hforget hfirst
    -- After the first record the failure is in neither map.
    have hgone : (forgetRecord o (entryRecord e)).authFailures.lookup (authFailureKey s) = none ∧
        (forgetRecord o (entryRecord e)).authDurable.lookup (authFailureKey s) = none := by
      grind -linarith [lookup_erase]
    have hkeep : ∀ k, k ≠ authFailureKey s →
        (forgetRecord o (entryRecord e)).authFailures.lookup k = o.authFailures.lookup k ∧
        (forgetRecord o (entryRecord e)).authDurable.lookup k = o.authDurable.lookup k := by
      grind -linarith [lookup_erase_ne]
    obtain ⟨hmem, hdur⟩ := ih (o := forgetRecord o (entryRecord e))
      (fun x hx => hes x (mem_cons_of_mem _ hx)) fun x hx => by
        have hold := hin x (mem_cons_of_mem _ hx)
        grind -linarith
    rw [map_cons, map_cons, foldl_cons, hs]
    exact ⟨.cons hgone.1 (fun k hk => (hkeep k hk).1) hmem,
      .cons hgone.2 (fun k hk => (hkeep k hk).2) hdur⟩

theorem mem_ackEntries {durable : Table String AuthFailureSample} :
    s ∈ (vs.flatMap (ackEntries authFailureKey durable)).map entryFailure ↔ s ∈ vs := by
  simp only [List.mem_map, mem_flatMap, ackEntries]
  constructor
  · grind -linarith [entryFailure]
  · exact fun hs => ⟨.del s, ⟨s, hs, by simp⟩, rfl⟩

theorem AuthInv.ackDone (h : AuthInv w es)
    (hvs : ∀ v ∈ vs, w.outbox.authFailures.lookup (authFailureKey v) = some v)
    {new : List FailureEntry}
    (hnew : new = vs.flatMap (ackEntries authFailureKey w.outbox.authDurable))
    (hmem : o.authFailures = w.outbox.authFailures) (hdur : o.authDurable = w.outbox.authDurable) :
    AuthInv
      { file := some (w.file.getD [] ++ encodeRecords (new.map entryRecord))
        outbox := (new.map entryRecord).foldl forgetRecord o
        attempts := w.attempts ++ [(true, new.map entryRecord)] } (es ++ new) ∧
    Removed authFailureKey vs w.outbox.authFailures
      ((new.map entryRecord).foldl forgetRecord o).authFailures ∧
    Removed authFailureKey vs w.outbox.authDurable
      ((new.map entryRecord).foldl forgetRecord o).authDurable := by
  have hin : ∀ e ∈ new, entryFailure e ∈ vs := fun e he =>
    mem_ackEntries.mp (hnew ▸ mem_map.mpr ⟨e, he, rfl⟩)
  have hcomplete : ∀ e ∈ new, (entryFailure e).complete = true := fun e he =>
    h.pending _ _ (hvs _ (hin e he))
  obtain ⟨hrmem, hrdur⟩ := removed_forgetRecord (o := o) hcomplete fun e he =>
    .inl (by rw [hmem]; exact hvs _ (hin e he))
  have hsame : ∀ s, s ∈ new.map entryFailure ↔ s ∈ vs := fun s => by rw [hnew]; exact mem_ackEntries
  replace hrmem := hmem ▸ hrmem.congr hsame
  replace hrdur := hdur ▸ hrdur.congr hsame
  refine ⟨⟨h.text_append new, ?_, fun k s hs => h.pending k s (hrmem.lookup hs).2, ?_⟩, hrmem,
    hrdur⟩
  · intro e he
    exact (mem_append.mp he).elim (h.complete e) (hcomplete e)
  · rw [outboxOf, journalEvents_append, replayed_append, hnew]
    exact h.inv.ackDone hvs (hnew ▸ hrmem) (hnew ▸ hrdur)

theorem AuthInv.acknowledge (h : AuthInv w es) (hsent : ∀ s ∈ sent, s.complete = true)
    (hout : outcome.LeavesNothing) (hcompact : compacts = true → BookFresh w.outbox) :
    ∃ es', AuthInv (acknowledgeAuthFailures w sent outcome compacts) es' := by
  unfold acknowledgeAuthFailures
  rw [flatMap_ackRecords w.outbox hsent]
  generalize hnew : (acknowledged w.outbox sent).flatMap
    (ackEntries authFailureKey w.outbox.authDurable) = new
  dsimp only
  split
  · exact ⟨es, h⟩
  · cases outcome with
    | fails left =>
      obtain rfl : left = 0 := hout
      refine ⟨es, h.text, h.complete, h.pending, ?_⟩
      show Outbox.Inv _ _ (outboxOf { w with attempts := w.attempts ++ [(false, new.map entryRecord)] } es)
      rw [outboxOf, journalEvents_append]
      exact h.inv.failed new
    | done =>
      have hvs : ∀ v ∈ acknowledged w.outbox sent,
          w.outbox.authFailures.lookup (authFailureKey v) = some v := fun v hv => by
        simpa using (mem_filter.mp hv).2
      obtain ⟨hdone, hmem, hdur⟩ := h.ackDone hvs hnew.symm
        (o := (countAppend w (new.map entryRecord)).outbox) rfl rfl
      have hfresh : compacts = true → (outboxOf
          { file := some (w.file.getD [] ++ encodeRecords (new.map entryRecord))
            outbox := (new.map entryRecord).foldl forgetRecord
              (countAppend w (new.map entryRecord)).outbox
            attempts := w.attempts ++ [(true, new.map entryRecord)] } (es ++ new)).Fresh := by
        intro hc k s hs
        obtain ⟨hno, hold⟩ := hdur.lookup hs
        exact ((hmem k).2 hno).trans ((hcompact hc).fresh es k s hold)
      simp only [AppendOutcome.ok, Bool.not_true, Bool.false_eq_true, if_false]
      split
      · exact hdone.compact hfresh
      · exact hdone.compactIfNeeded hfresh

/-! ### Starting -/

theorem complete_foldl_apply :
    ∀ {t : Table String AuthFailureSample}, (∀ e ∈ es, (entryFailure e).complete = true) →
      (∀ k s, t.lookup k = some s → s.complete = true) →
      ∀ k s, (es.foldl (Entry.apply authFailureKey maxPendingAuthFailures) t).lookup k = some s →
        s.complete = true := by
  induction es with
  | nil => intro t _ ht; exact ht
  | cons e es ih =>
    intro t hes ht
    have he := hes e mem_cons_self
    refine ih (fun x hx => hes x (mem_cons_of_mem _ hx)) fun k s hs => ?_
    cases e <;> grind -linarith [Entry.apply, entryFailure, lookup_insert, lookup_insert_ne,
      lookup_erase, lookup_erase_ne]

theorem AuthInv.start (h : AuthInv w es) (hmem : o.authFailures = replayed es)
    (hdur : o.authDurable = replayed es) : AuthInv { w with outbox := o } es := by
  refine ⟨h.text, h.complete, ?_, ?_⟩
  · rw [hmem]
    exact complete_foldl_apply h.complete nofun
  · rw [outboxOf, hmem, hdur]
    exact h.inv.restart

def JournalFits (w : AuthWorld) : Prop :=
  ∀ raw ∈ w.file, textBytes raw ≤ maxAuthFailureJournalBytes

instance (w : AuthWorld) : Decidable (JournalFits w) :=
  inferInstanceAs (Decidable (∀ raw ∈ w.file, _))

theorem AuthInv.hydrate (h : AuthInv w es) (hfits : JournalFits w) (compacts : Bool) :
    ∃ es', AuthInv (hydrateAuthFailures w compacts) es' := by
  have htext := h.text
  unfold hydrateAuthFailures
  cases hfile : w.file with
  | none =>
    rw [hfile] at htext
    have hes : es = [] := map_eq_nil_iff.mp (encodeRecords_eq_nil htext.symm)
    subst hes
    dsimp only
    rw [← hfile]
    exact ⟨[], h.start rfl rfl⟩
  | some raw =>
    obtain rfl : raw = encodeRecords (es.map entryRecord) := by
      rw [hfile] at htext
      exact htext
    have hsmall := hfits _ hfile
    dsimp only
    rw [if_neg (Nat.not_lt.mpr hsmall), legacyFailures_encodeRecords]
    dsimp only
    rw [replayLines_encodeRecords, ← hfile]
    obtain ⟨hmem, hdur⟩ := foldl_replayRecord h.complete
      (o := ⟨∅, ∅, 0, textBytes (encodeRecords (es.map entryRecord))⟩) rfl
    refine (h.start hmem (hdur.trans hmem)).compactIfNeeded fun _ k s hs => ?_
    exact (congrArg (fun t => AList.lookup k t) hdur).symm.trans hs

/-! ### What is restored -/

/-- A start finds every failure whose put was appended, unless a later put replaced it or a
successful append deleted it, and no failure that a successful append deleted after its last put. -/
def Restores (attempts : List (Bool × List AuthFailureJournalRecord)) (o : AuthOutbox) : Prop :=
  (∀ s, Due authFailureKey (journalEvents attempts) s →
    o.authFailures.lookup (authFailureKey s) = some s) ∧
  ∀ s, Settled (journalEvents attempts) s → o.authFailures.lookup (authFailureKey s) ≠ some s

/-- A failed append leaves nothing, a compaction succeeds only when no durable failure is
superseded by one that is not, and a start finds a journal within its limit. -/
def JournalOk (w : AuthWorld) : AuthAction → Prop
  | .ingest _ outcome compacts => outcome.LeavesNothing ∧ (compacts = true → BookFresh w.outbox)
  | .acknowledge _ outcome compacts =>
    outcome.LeavesNothing ∧ (compacts = true → BookFresh w.outbox)
  | .restart _ => JournalFits w

instance (w : AuthWorld) (a : AuthAction) : Decidable (JournalOk w a) :=
  match a with
  | .ingest .. => inferInstanceAs (Decidable (_ ∧ _))
  | .acknowledge .. => inferInstanceAs (Decidable (_ ∧ _))
  | .restart _ => inferInstanceAs (Decidable (JournalFits w))

theorem authInv_init : AuthInv .init [] := by
  refine ⟨rfl, by simp, ?_, fun k hk => absurd hk (notMem_empty k), Nat.zero_le _, ?_, ?_,
    ?_, fun v hv => absurd hv.mem not_mem_nil,
    fun v hv => absurd hv.mem not_mem_nil⟩
  all_goals
    intro k v hv
    cases hv

theorem authInv_step (w : AuthWorld) (a : AuthAction) (w' : AuthWorld) (hinv : ∃ es, AuthInv w es)
    (hok : JournalOk w a) (hs : authStep w a = some w') : ∃ es, AuthInv w' es := by
  obtain ⟨es, h⟩ := hinv
  cases a with
  | ingest samples outcome compacts =>
    simp only [authStep, ite_none_right_eq_some, Option.some.injEq] at hs
    obtain ⟨hall, rfl⟩ := hs
    exact h.ingest (all_eq_true.mp hall) hok.1 hok.2
  | acknowledge sent outcome compacts =>
    simp only [authStep, ite_none_right_eq_some, Option.some.injEq] at hs
    obtain ⟨hall, rfl⟩ := hs
    exact h.acknowledge (all_eq_true.mp hall) hok.1 hok.2
  | restart compacts =>
    cases hs
    exact h.hydrate hok compacts

/-- In every run whose steps meet `JournalOk`, a start restores what the journal owes. -/
theorem journal_restores (actions : List AuthAction) (compacts : Bool) (w : AuthWorld)
    (h : Guarded authStep JournalOk .init (actions ++ [.restart compacts]) w) :
    Restores w.attempts w.outbox := by
  obtain ⟨es, hinv⟩ := h.invariant authInv_step ⟨[], authInv_init⟩
  exact ⟨fun s hs => (hinv.inv.due s hs).1, fun s hs => (hinv.inv.settled s hs).1⟩

def revokedSeat (seatID : String) : AuthFailureSample :=
  ⟨"cred", "group", seatID, "fp", "token_revoked", 401, ""⟩

/-- A third append fails and leaves nothing, and the first failure is acknowledged. -/
theorem start_after_clean_failure :
    ∃ w, Guarded authStep JournalOk .init
        ([.ingest [revokedSeat "a", revokedSeat "b"] .done false,
          .ingest [revokedSeat "c"] (.fails 0) false,
          .acknowledge [revokedSeat "a"] .done false] ++ [.restart false]) w ∧
      w.outbox.authFailures.lookup "cred|group|a" = none ∧
      w.outbox.authFailures.lookup "cred|group|b" = some (revokedSeat "b") ∧
      w.outbox.authFailures.lookup "cred|group|c" = none ∧
      Restores w.attempts w.outbox := by
  have hrun : (guardedExec authStep JournalOk .init
        ([.ingest [revokedSeat "a", revokedSeat "b"] .done false,
          .ingest [revokedSeat "c"] (.fails 0) false,
          .acknowledge [revokedSeat "a"] .done false] ++ [.restart false])).map
      (fun w => (w.outbox.authFailures.lookup "cred|group|a",
        w.outbox.authFailures.lookup "cred|group|b",
        w.outbox.authFailures.lookup "cred|group|c")) =
      some (none, some (revokedSeat "b"), none) := by decide +kernel
  obtain ⟨w, hw, hval⟩ := map_eq_some_iff.mp hrun
  have hguarded := Guarded.of_guardedExec hw
  simp only [Prod.mk.injEq] at hval
  exact ⟨w, hguarded, hval.1, hval.2.1, hval.2.2, journal_restores _ _ w hguarded⟩

/-- An append fails after its first byte; the next one succeeds, and its failure is not
restored. -/
theorem torn_append_spoils_next :
    ¬ ∀ (actions : List AuthAction) (compacts : Bool) (w : AuthWorld),
      exec authStep .init (actions ++ [.restart compacts]) = some w →
        Restores w.attempts w.outbox := by
  intro h
  have hrun : (exec authStep .init ([.ingest [revokedSeat "a"] (.fails 1) false,
        .ingest [revokedSeat "b"] .done false] ++ [.restart false])).map
      (fun w => (w.outbox.authFailures.lookup "cred|group|b", w.attempts)) =
      some (none, [(false, [putRecord (revokedSeat "a")]), (true, [putRecord (revokedSeat "b")])]) := by
    decide +kernel
  obtain ⟨w, hw, hval⟩ := map_eq_some_iff.mp hrun
  obtain ⟨hlost, hattempts⟩ := Prod.mk.inj hval
  have hdue : Due authFailureKey (journalEvents w.attempts) (revokedSeat "b") := by
    rw [hattempts]
    exact ⟨[(false, .put (revokedSeat "a"))], [], rfl, by simp⟩
  have hfound : w.outbox.authFailures.lookup "cred|group|b" = some (revokedSeat "b") :=
    (h _ _ w hw).1 _ hdue
  exact absurd (hlost.symm.trans hfound) (by simp)

end AikeyProxy.Proxy
