import AikeyProxy.Proof.Drain

/-!
# What a prune deletes

A reply names contiguous numbers per source id, but it answers a batch of one lane, so it speaks for
one (organisation, source) stream only. `confirmedSeq` keeps the maximum over all replies that name
the source. So the prune deletes a file when every numbered entry has been *reached* by some reply,
and loses nothing exactly when no reply has overtaken an entry from another organisation's stream.
-/

namespace AikeyProxy.Events

open Lib List Reporter

/-! ## Streams and replies -/

/-- A reply among `us` names a contiguous number at or above the entry's for its
source; `lanes` restricts the batches that are looked at. -/
def ReachedBy (lanes : String → Prop) (us : List Upload) (e : WALEntry) : Prop :=
  ∃ u ∈ us, lanes u.lane ∧ ∃ m ∈ u.answer.marks, m.1 = e.sourceID ∧ e.sourceSeq ≤ m.2

instance (lanes : String → Prop) [DecidablePred lanes] (us : List Upload) (e : WALEntry) :
    Decidable (ReachedBy lanes us e) :=
  inferInstanceAs (Decidable (∃ u ∈ us, lanes u.lane ∧
    ∃ m ∈ u.answer.marks, m.1 = e.sourceID ∧ e.sourceSeq ≤ m.2))

section

variable (us : List Upload)

/-- Acknowledged on its own (organisation, source) stream. -/
def Acked (e : WALEntry) : Prop :=
  ReachedBy (fun lane => lane = laneOfEvent e.eventJSON) us e
  deriving Decidable

/-- Reached only by replies that speak for other organisations' streams. -/
def OnlyOthersReached (e : WALEntry) : Prop :=
  ReachedBy (fun lane => lane ≠ laneOfEvent e.eventJSON) us e ∧ ¬ Acked us e
  deriving Decidable

/-- The entry's unnumbered event was in a finished group. -/
def HandedOver (e : WALEntry) : Prop :=
  e.eventJSON.eventID ≠ "" ∧
    ∃ ev ∈ finishedEvents us, ev.sourceSeq = none ∧ ev.eventID = e.eventJSON.eventID
  deriving Decidable

def SafeToDelete (f : WALFile) : Prop :=
  ∀ e ∈ f.entries, if e.numbered then Acked us e else HandedOver us e
  deriving Decidable

/-- Every entry of the file was reached by a reply of whatever stream, or handed over. -/
def AllReached (f : WALFile) : Prop :=
  ∀ e ∈ f.entries, if e.numbered then ReachedBy (fun _ => True) us e else HandedOver us e
  deriving Decidable

def MayTake (env : PruneEnv) (current : String) (f : WALFile) : Prop :=
  f.name ≠ current ∧ env.readable f.name = true ∧ env.removable f.name = true ∧
    AllReached us f ∧ ∃ e ∈ f.entries, e.numbered = true
  deriving Decidable

/-- No file the prune may take has an entry that only other organisations' replies reached. -/
def StreamsAgree (env : PruneEnv) (current : String) (files : List WALFile) : Prop :=
  ∀ f ∈ files, MayTake us env current f →
    ∀ e ∈ f.entries, e.numbered = true → ¬ OnlyOthersReached us e
  deriving Decidable

/-- No numbered entry was overtaken: reached from another organisation's stream before
it was acknowledged on its own. -/
def NoneOvertaken (entries : List WALEntry) : Prop :=
  ∀ e ∈ entries, e.numbered = true → ¬ OnlyOthersReached us e
  deriving Decidable

end

/-! ## The prune in terms of the upload history -/

variable {e : WALEntry} {us : List Upload} {w : World}

theorem reachedBy_any_iff (hnum : e.numbered = true) :
    e.sourceSeq ≤ raiseAll (fun _ => 0) (replyMarks us) e.sourceID ↔
      ReachedBy (fun _ => True) us e := by
  have hpos : ¬ e.sourceSeq ≤ 0 := by
    simp only [WALEntry.numbered, Bool.and_eq_true, decide_eq_true_eq] at hnum
    omega
  rw [le_raiseAll_iff]
  constructor
  · intro h
    rcases h with h | ⟨m, hm, hk, hle⟩
    · exact absurd h hpos
    · obtain ⟨u, hu, hmu⟩ := mem_flatMap.mp hm
      exact ⟨u, hu, trivial, m, hmu, hk, hle⟩
  · rintro ⟨u, hu, _, m, hmu, hk, hle⟩
    exact Or.inr ⟨m, mem_flatMap.mpr ⟨u, hu, hmu⟩, hk, hle⟩

theorem seenIn_iff :
    (decide (e.eventJSON.eventID ≠ "") && seenIn (finishedEvents us) e.eventJSON.eventID) = true ↔
      HandedOver us e := by
  simp only [seenIn, HandedOver, Bool.and_eq_true, decide_eq_true_eq, any_eq_true]
  constructor
  · rintro ⟨hid, _, ev, hev, hnone, heq⟩
    exact ⟨hid, ev, hev, hnone, heq⟩
  · rintro ⟨hid, ev, hev, hnone, heq⟩
    exact ⟨hid, hid, ev, hev, hnone, heq⟩

theorem entryPrunable_iff (h : Tracks w) (e : WALEntry) :
    w.rep.entryPrunable e = true ↔
      if e.numbered then ReachedBy (fun _ => True) w.uploads e else HandedOver w.uploads e := by
  unfold entryPrunable
  by_cases hnum : e.numbered = true
  · rw [if_pos hnum, if_pos hnum, decide_eq_true_eq, h.confirmed]
    exact reachedBy_any_iff hnum
  · rw [if_neg hnum, if_neg hnum, h.seen]
    exact seenIn_iff

/-- **Which files a prune deletes**, in terms of the replies so far. -/
theorem prunes_iff (h : Tracks w) (env : PruneEnv) (current : String) (f : WALFile) :
    w.rep.prunes env current f = true ↔ MayTake w.uploads env current f := by
  simp only [prunes, filePrunable, Bool.and_eq_true, decide_eq_true_eq,
    all_eq_true, any_eq_true, entryPrunable_iff h, AllReached, MayTake]
  tauto

variable {cfg : ReporterConfig}

/-! ## Safety of the prune -/

theorem acked_iff_not_onlyOthers (hreach : ReachedBy (fun _ => True) us e) :
    Acked us e ↔ ¬ OnlyOthersReached us e := by
  constructor
  · intro hack hothers
    exact hothers.2 hack
  · intro hnot
    by_contra hack
    obtain ⟨u, hu, _, hm⟩ := hreach
    refine hnot ⟨⟨u, hu, ?_, hm⟩, hack⟩
    intro hlane
    exact hack ⟨u, hu, hlane, hm⟩

/-- Over fixed files: every deleted file is safe to delete exactly when no file the prune
may take has an overtaken entry. -/
theorem prune_files_safe_iff (htracks : Tracks w) (env : PruneEnv) (current : String)
    (files : List WALFile) :
    (∀ f ∈ files, f ∉ w.rep.pruneConfirmedWAL env current files → SafeToDelete w.uploads f) ↔
      StreamsAgree w.uploads env current files := by
  -- deleted means that the prune's own test held
  have hdel : ∀ f ∈ files, f ∉ w.rep.pruneConfirmedWAL env current files ↔
      w.rep.prunes env current f = true := by
    intro f hf
    simp [pruneConfirmedWAL, hf]
  constructor
  · intro hsafe f hf htake e he hnum
    have hpr := (prunes_iff htracks env current f).mpr htake
    have hack := hsafe f hf ((hdel f hf).mpr hpr) e he
    have hreach := htake.2.2.2.1 e he
    rw [if_pos hnum] at hack hreach
    exact (acked_iff_not_onlyOthers hreach).mp hack
  · intro hagree f hf hgone e he
    have htake := (prunes_iff htracks env current f).mp ((hdel f hf).mp hgone)
    have hreach := htake.2.2.2.1 e he
    by_cases hnum : e.numbered = true
    · rw [if_pos hnum] at hreach ⊢
      exact (acked_iff_not_onlyOthers hreach).mpr (hagree f hf htake e he hnum)
    · rw [if_neg hnum] at hreach ⊢
      exact hreach

theorem mayTake_alone (hnum : e.numbered = true) (hothers : OnlyOthersReached us e) :
    MayTake us ⟨fun _ => true, fun _ => true⟩ "" ⟨"usage.jsonl", [e]⟩ := by
  obtain ⟨⟨u, hu, _, hm⟩, _⟩ := hothers
  refine ⟨by simp, rfl, rfl, ?_, e, mem_singleton_self e, hnum⟩
  intro e' he'
  rw [mem_singleton.mp he', if_pos hnum]
  exact ⟨u, hu, trivial, hm⟩

/-- **A prune loses nothing exactly when no entry was overtaken**, after any run and for any stock
of entries in whatever files. -/
theorem prune_safe_iff {cfg : ReporterConfig} {acts : List Act} {w : World}
    (hrun : exec (step cfg) World.init acts = some w) (entries : List WALEntry) :
    (∀ (env : PruneEnv) (current : String) (files : List WALFile),
      (∀ f ∈ files, ∀ e ∈ f.entries, e ∈ entries) →
      ∀ f ∈ files, f ∉ w.rep.pruneConfirmedWAL env current files → SafeToDelete w.uploads f) ↔
      NoneOvertaken w.uploads entries := by
  have htracks := tracks_reachable hrun
  constructor
  · intro hsafe e he hnum hothers
    have hstock : ∀ f ∈ [(⟨"usage.jsonl", [e]⟩ : WALFile)], ∀ e' ∈ f.entries, e' ∈ entries := by
      intro f hf e' he'
      rw [mem_singleton.mp hf] at he'
      rw [mem_singleton.mp he']
      exact he
    have hagree := (prune_files_safe_iff htracks _ "" _).mp
      (hsafe ⟨fun _ => true, fun _ => true⟩ "" _ hstock)
    exact hagree _ (mem_singleton_self _) (mayTake_alone hnum hothers) e
      (mem_singleton_self e) hnum hothers
  · intro hnone env current files hstock
    refine (prune_files_safe_iff htracks env current files).mpr fun f hf _ e he hnum => ?_
    exact hnone e (hstock f hf e he) hnum

/-! ## Truthful replies do not help -/

/-- The event with number `n` of a stream is in a batch the collector accepted. -/
def DeliveredTo (us : List Upload) (lane sourceID : String) (n : Int) : Prop :=
  ∃ u ∈ us, (∃ c, u.answer = .ok c) ∧ u.lane = lane ∧
    ∃ ev ∈ u.group, ev.sourceID = sourceID ∧ ev.sourceSeq = some n

/-- A contiguous number is truthful for a stream: everything up to it was delivered, the
next number was not. -/
def TruthfulMark (us : List Upload) (lane sourceID : String) (c : Int) : Prop :=
  (∀ k, 1 ≤ k → k ≤ c → DeliveredTo us lane sourceID k) ∧ ¬ DeliveredTo us lane sourceID (c + 1)

/-- Every reply, when it was given, was truthful for the stream of the batch it answers. -/
def TruthfulReplies (us : List Upload) : Prop :=
  ∀ pre u post, us = pre ++ u :: post →
    ∀ m ∈ u.answer.marks, TruthfulMark (pre ++ [u]) u.lane m.1 m.2

def twoOrgWorld : World := (exec (step oneCollector) World.init twoOrgActs).getD World.init

theorem twoOrgWorld_exec : exec (step oneCollector) World.init twoOrgActs = some twoOrgWorld := rfl

theorem twoOrgWorld_uploads :
    twoOrgWorld.uploads =
      [⟨"http://localhost:27300", [orgEvent "a1" "orgA" 1], .failed 503⟩,
        ⟨"http://localhost:27300", [orgEvent "b1" "orgB" 1], .ok [("src", 1)]⟩] := by
  decide

theorem twoOrgWorld_truthful : TruthfulReplies twoOrgWorld.uploads := by
  intro pre u post hsplit m hm
  rw [twoOrgWorld_uploads] at hsplit
  match pre, hsplit with
  | [], hsplit =>
    -- the failed upload carries no reply
    obtain ⟨rfl, _⟩ := List.cons.inj hsplit
    cases hm
  | [u₀], hsplit =>
    obtain ⟨rfl, htail⟩ := List.cons.inj hsplit
    obtain ⟨rfl, _⟩ := List.cons.inj htail
    obtain rfl : m = ("src", 1) := by simpa [Answer.marks] using hm
    refine ⟨fun k h1 h2 => ?_, ?_⟩
    · obtain rfl : k = 1 := by simp only at h2; omega
      exact ⟨_, mem_append_right _ (mem_singleton_self _), ⟨_, rfl⟩, rfl, _,
        mem_singleton_self _, rfl, rfl⟩
    · rintro ⟨u, hu, ⟨c, hc⟩, _, ev, hev, _, hseq⟩
      rcases mem_append.mp hu with hu | hu
      · rw [mem_singleton.mp hu] at hc
        cases hc
      · rw [mem_singleton.mp hu] at hev
        rw [mem_singleton.mp hev] at hseq
        cases hseq
  | [_, _], hsplit => cases hsplit
  | _ :: _ :: _ :: _, hsplit => cases hsplit

def failedOrgFile : WALFile := ⟨"usage-20260530-17.jsonl", [walEntryOf (orgEvent "a1" "orgA" 1)]⟩

/-- The accepted organisation's contiguous number deletes the other's unsent event. -/
theorem prune_deletes_unacked :
    ¬ ∀ (cfg : ReporterConfig) (acts : List Act) (w : World) (env : PruneEnv) (current : String)
        (files : List WALFile),
      exec (step cfg) World.init acts = some w → TruthfulReplies w.uploads →
      ∀ f ∈ files, f ∉ w.rep.pruneConfirmedWAL env current files → SafeToDelete w.uploads f := by
  intro h
  have hsafe := h oneCollector twoOrgActs twoOrgWorld ⟨fun _ => true, fun _ => true⟩
    twoOrgWorld.current [failedOrgFile] rfl twoOrgWorld_truthful failedOrgFile (by decide)
    (by decide)
  exact absurd hsafe (by decide)

def acceptedOrgFile : WALFile := ⟨"usage-20260530-17.jsonl", [walEntryOf (orgEvent "b1" "orgB" 1)]⟩

/-- With the accepted organisation's own event in the file, the same prune deletes it
and may. -/
theorem prune_safe_own_stream :
    acceptedOrgFile ∉ twoOrgWorld.rep.pruneConfirmedWAL ⟨fun _ => true, fun _ => true⟩
        twoOrgWorld.current [acceptedOrgFile] ∧
      SafeToDelete twoOrgWorld.uploads acceptedOrgFile := by
  have hgone : acceptedOrgFile ∉ twoOrgWorld.rep.pruneConfirmedWAL
      ⟨fun _ => true, fun _ => true⟩ twoOrgWorld.current [acceptedOrgFile] := by decide
  have hsafe := (prune_safe_iff twoOrgWorld_exec acceptedOrgFile.entries).mpr (by decide)
  refine ⟨hgone, hsafe _ _ [acceptedOrgFile] ?_ acceptedOrgFile (mem_singleton_self _) hgone⟩
  intro f hf e he
  rwa [mem_singleton.mp hf] at he

end AikeyProxy.Events
