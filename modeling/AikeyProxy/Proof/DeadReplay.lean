import AikeyProxy.Events.DeadReplay

/-!
# A replay pass conserves what it does not deliver

Every branch of the loop either counts a delivery and drops the line or keeps the line as it was
read (`replayEntry_spec`), so the fold keeps the undelivered lines in their order.
-/

namespace AikeyProxy.Events

open Lib List ReplayDeadLetterResult LineReader ReplayEnv

variable {io : LineReader} {env : ReplayEnv} {envs : Nat → ReplayEnv}

/-- The batch is sent and accepted: not cancelled, a destination, no error. -/
def ReplayEnv.delivers (env : ReplayEnv) (e : DeadLetterEntry) : Bool :=
  !env.ctxDone && env.uploadError.isNone &&
    if e.kind = deadLetterKindCompliance then env.urlForRouteSource e.routeSource ≠ ""
    else env.urlForRouteSource e.usageRouteSource ≠ "" && env.marshalError.isNone

def LineReader.delivered (io : LineReader) (envs : Nat → ReplayEnv) (p : Line × Nat) : Bool :=
  !io.blank p.1 && (io.unmarshal p.1).any (envs p.2).delivers

/-- The non-blank lines that the pass does not deliver. -/
def LineReader.undelivered (io : LineReader) (envs : Nat → ReplayEnv) (data : List UInt8) :
    List Line :=
  ((data.splitOn lineFeed).zipIdx.filter fun p =>
    !io.blank p.1 && !io.delivered envs p).map Prod.fst

def LineReader.malformed (io : LineReader) (line : Line) : Bool :=
  !io.blank line && (io.unmarshal line).isNone

def LineReader.lines (io : LineReader) (data : List UInt8) : List Line :=
  (data.splitOn lineFeed).filter (!io.blank ·)

theorem replayEntry_spec (env : ReplayEnv) (e : DeadLetterEntry) (r : ReplayDeadLetterResult) :
    (env.replayEntry e r).2 = env.delivers e ∧
      (env.replayEntry e r).1.entriesScanned = r.entriesScanned ∧
      (env.replayEntry e r).1.entriesReplayedOK = r.entriesReplayedOK + (env.delivers e).toNat ∧
      (env.replayEntry e r).1.entriesStillFailing =
        r.entriesStillFailing + (!env.delivers e).toNat := by
  unfold replayEntry delivers
  cases env.ctxDone with
  | true => exact ⟨rfl, rfl, rfl, rfl⟩
  | false =>
    by_cases hkind : e.kind = deadLetterKindCompliance
    · simp only [hkind, replayComplianceEntry, postComplianceEvents]
      by_cases hurl : env.urlForRouteSource e.routeSource = ""
      · simp [hurl, stillFailing]
      · cases env.uploadError <;>
          simp [hurl, stillFailing, replayedOK]
    · simp only [hkind, replayUsageEntry]
      by_cases hurl : env.urlForRouteSource e.usageRouteSource = ""
      · simp [hurl, stillFailing]
      · cases env.marshalError <;> cases env.uploadError <;>
          simp [hurl, stillFailing, replayedOK]

/-- The result counts what it says, and the kept lines are those not delivered. -/
structure PassSpec (io : LineReader) (envs : Nat → ReplayEnv) (ps : List (Line × Nat))
    (st : ReplayDeadLetterResult × List Line) : Prop where
  kept : st.2 = (ps.filter fun p => !io.blank p.1 && !io.delivered envs p).map Prod.fst
  scanned : st.1.entriesScanned =
    st.1.entriesReplayedOK + st.1.entriesStillFailing + ps.countP (io.malformed ·.1)
  replayed : st.1.entriesReplayedOK = ps.countP (io.delivered envs)

theorem PassSpec.step {ps : List (Line × Nat)} {st : ReplayDeadLetterResult × List Line}
    (h : PassSpec io envs ps st) (p : Line × Nat) :
    PassSpec io envs (ps ++ [p]) (io.replayLine (envs p.2) st p.1) := by
  obtain ⟨hkept, hscanned, hreplayed⟩ := h
  unfold replayLine
  cases hblank : io.blank p.1 with
  | true =>
    constructor <;>
      simp [filter_append, malformed, delivered, hblank, hkept, hscanned,
        hreplayed]
  | false =>
    cases hparse : io.unmarshal p.1 with
    | none =>
      constructor <;>
        simp [filter_append, malformed, delivered, hblank, hkept, hscanned,
          hreplayed, hparse, Nat.add_assoc]
    | some e =>
      obtain ⟨hflag, hsame, hok, hfail⟩ := replayEntry_spec (envs p.2) e
        { st.1 with entriesScanned := st.1.entriesScanned + 1 }
      dsimp only at hsame hok hfail ⊢
      generalize (envs p.2).replayEntry e _ = res at *
      obtain ⟨r', flag⟩ := res
      dsimp only at hflag hsame hok hfail
      subst hflag
      cases hdel : (envs p.2).delivers e <;> rw [hdel] at hok hfail <;>
        dsimp only [Bool.toNat, Bool.not, cond] at hok hfail
      all_goals
        constructor
        · simp [filter_append, delivered, hblank, hkept, hparse, hdel]
        · have hform : io.malformed p.1 = false := by simp [malformed, hparse]
          rw [countP_append, countP_singleton, hform]
          simp only [Bool.false_eq_true, if_false]
          omega
        · simp [delivered, hblank, hparse, hdel, hok, hreplayed]

theorem passSpec (io : LineReader) (envs : Nat → ReplayEnv) (ps : List (Line × Nat)) :
    PassSpec io envs ps
      (ps.foldl (fun st p => io.replayLine (envs p.2) st p.1) (.zero, [])) := by
  induction ps using List.reverseRecOn with
  | nil => exact ⟨rfl, rfl, rfl⟩
  | append_singleton ps p ih =>
    rw [foldl_append]
    exact ih.step p

theorem not_mem_of_mem_splitOn {data line : List UInt8} :
    line ∈ data.splitOn lineFeed → lineFeed ∉ line := by
  induction data generalizing line with
  | nil =>
    intro h
    rw [splitOn_nil, mem_singleton] at h
    simp [h]
  | cons b data ih =>
    rw [splitOn_cons_eq_if_modifyHead]
    split
    next hb =>
      intro h
      obtain rfl | h := mem_cons.mp h
      · exact not_mem_nil
      · exact ih h
    next hb =>
      obtain ⟨l, ls, hl⟩ := exists_cons_of_ne_nil (data.splitOn_ne_nil lineFeed)
      rw [hl, modifyHead_cons]
      intro h
      obtain rfl | h := mem_cons.mp h
      · rw [mem_cons, not_or]
        exact ⟨fun heq => hb (by simp [heq]), ih (by simp [hl])⟩
      · exact ih (by simp [hl, h])

theorem lines_rewritten {keepLines : List Line} (hfeed : ∀ l ∈ keepLines, lineFeed ∉ l)
    (hblank : ∀ l ∈ keepLines, io.blank l = false) : io.lines (rewritten keepLines) = keepLines := by
  unfold lines rewritten
  split
  next h => simp [h, io.blank_nil]
  next h =>
    rw [splitOn_append_cons_self, splitOn_intercalate lineFeed hfeed h, splitOn_nil,
      filter_append, filter_cons_of_neg (by simp [io.blank_nil]), filter_nil, append_nil,
      filter_eq_self.mpr]
    exact fun l hl => by simp [hblank l hl]

/-- **A replay pass conserves the batches it does not deliver**, byte for byte and in order, and
accounts for every line it has scanned. -/
theorem replay_conserves (io : LineReader) (envs : Nat → ReplayEnv) (data : List UInt8) :
    io.lines (io.replayDeadLetter envs data).2 = io.undelivered envs data ∧
      (io.replayDeadLetter envs data).1.entriesScanned =
        (io.replayDeadLetter envs data).1.entriesReplayedOK +
          (io.replayDeadLetter envs data).1.entriesStillFailing +
          (data.splitOn lineFeed).countP io.malformed ∧
      (io.replayDeadLetter envs data).1.entriesReplayedOK =
        (data.splitOn lineFeed).zipIdx.countP (io.delivered envs) := by
  obtain ⟨hkept, hscanned, hreplayed⟩ := passSpec io envs (data.splitOn lineFeed).zipIdx
  refine ⟨?_, ?_, hreplayed⟩
  · rw [replayDeadLetter]
    dsimp only
    rw [hkept]
    refine lines_rewritten (fun l hl => ?_) (fun l hl => ?_)
    all_goals
      obtain ⟨p, hp, rfl⟩ := mem_map.mp hl
      obtain ⟨hmem, hkeep⟩ := mem_filter.mp hp
    · exact not_mem_of_mem_splitOn (fst_mem_of_mem_zipIdx hmem)
    · exact (by simpa using hkeep : io.blank p.1 = false ∧ _).1
  · have hcount := countP_map (p := io.malformed) (f := Prod.fst)
      (l := (data.splitOn lineFeed).zipIdx)
    rw [zipIdx_map_fst] at hcount
    rw [hcount]
    exact hscanned

def teamLine : String := "\x7b\"kind\":\"compliance\",\"route_source\":\"team\"\x7d"

/-- A usage batch, a blank line, half a line and a compliance batch. -/
def mixedFile : List UInt8 :=
  utf8 ("\x7b\"events\":[\x7b\x7d]\x7d\n \t\n\x7b\n".toList ++ teamLine.toList ++ ['\n'])

theorem mixedFile_conserved :
    let pass := LineReader.json.replayDeadLetter
      (fun _ => ⟨false, fun source => if source = "team" then "" else "url", none, none, id⟩)
      mixedFile
    LineReader.json.lines pass.2 = [utf8 ['{'], utf8 teamLine.toList] ∧
      pass.1.entriesScanned = 3 ∧ pass.1.entriesReplayedOK = 1 := by
  intro pass
  obtain ⟨hlines, -, hok⟩ := replay_conserves LineReader.json _ mixedFile
  refine ⟨hlines.trans ?_, ?_, hok.trans ?_⟩
  all_goals decide +kernel

end AikeyProxy.Events
