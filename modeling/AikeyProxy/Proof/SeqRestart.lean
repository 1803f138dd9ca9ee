import AikeyProxy.Lib.Run
import AikeyProxy.Lib.Reserve
import AikeyProxy.Events.SeqRestart

/-!
# The numbers of one state file grow

Everything handed out so far is at or below the mark in the file, so an allocator that starts above
the mark starts above all of it. While a process runs, its copy of the mark is the one in the file:
a reservation that could not be written is in neither, a block that is given up is given up in both.
-/

namespace AikeyProxy.Events

open Lib

/-! ## Streams -/

/-- A state file, the allocator that has it open, and the numbers handed out. -/
structure SeqStream where
  file : SeqFile
  alloc : Option SeqAllocator
  issued : List Int

structure SeqStream.Ok (s : SeqStream) : Prop where
  increasing : s.issued.Pairwise (· < ·)
  marked : ∀ hi, loadSeqState s.file = some hi → InOrder s.issued (hi + 1)
  /-- An allocator knows the mark in the file and is ahead of everything handed out. -/
  ahead : ∀ a ∈ s.alloc, loadSeqState s.file = some a.reservedHi ∧ a.reservedHi < maxInt64 ∧
    1 ≤ a.next ∧ a.next ≤ a.reservedHi + 1 ∧ InOrder s.issued a.next

variable {file : SeqFile} {alloc : Option SeqAllocator} {a : SeqAllocator} {issued : List Int}
  {hi : Int}

theorem int64_eq {n : Int} (hlo : 0 ≤ n) (hhi : n ≤ maxInt64) : int64 n = n := by
  unfold maxInt64 at hhi
  exact Int.bmod_eq_of_le (by omega) (by omega)

theorem loadSeqState_range (h : loadSeqState file = some hi) : 0 ≤ hi ∧ hi ≤ maxInt64 := by
  cases file with
  | absent =>
    cases h
    decide
  | value v =>
    rw [loadSeqState] at h
    split at h
    · cases h
    next hin =>
      cases h
      omega
  | corrupt => cases h

theorem loadSeqState_value {v : Int} (hlo : 0 ≤ v) (hhi : v ≤ maxInt64) :
    loadSeqState (.value v) = some v :=
  if_neg (by omega)

theorem SeqStream.Ok.init (file : SeqFile) : Ok ⟨file, none, []⟩ :=
  ⟨.nil, fun _ _ => .nil _, nofun⟩

theorem SeqStream.Ok.exit (h : Ok ⟨file, alloc, issued⟩) : Ok ⟨file, none, issued⟩ :=
  ⟨h.increasing, h.marked, nofun⟩

theorem SeqStream.Ok.seed (h : Ok ⟨.absent, none, issued⟩) (hi : Int) :
    Ok ⟨.value hi, none, issued⟩ where
  increasing := h.increasing
  marked := by
    intro hi' hload
    have hrange := loadSeqState_range hload
    exact (h.marked 0 rfl).mono (by omega)
  ahead := nofun

theorem SeqStream.Ok.start (h : Ok ⟨file, alloc, issued⟩) (hload : loadSeqState file = some hi)
    (hroom : hi < maxInt64) : Ok ⟨file, some (newSeqAllocator hi), issued⟩ where
  increasing := h.increasing
  marked := h.marked
  ahead := by
    rintro a ⟨⟩
    have hrange := loadSeqState_range hload
    have hnext : (newSeqAllocator hi).next = hi + 1 := int64_eq (by omega) (by omega)
    rw [hnext]
    exact ⟨hload, hroom, by omega, le_rfl, h.marked hi hload⟩

theorem SeqStream.Ok.take (h : Ok ⟨file, some a, issued⟩) (hin : a.next ≤ a.reservedHi) :
    Ok ⟨file, some { a with next := int64 (a.next + 1) }, issued ++ [a.next]⟩ := by
  obtain ⟨hload, hroom, hpos, -, horder⟩ := h.ahead a rfl
  have hnew : InOrder (issued ++ [a.next]) (a.next + 1) := horder.snoc
  rw [int64_eq (by omega) (by omega)]
  refine ⟨hnew.increasing, fun hi hhi => ?_, ?_⟩
  · cases hload.symm.trans hhi
    exact hnew.mono (by omega)
  · rintro b ⟨⟩
    exact ⟨hload, hroom, by simp only; omega, by simp only; omega, hnew⟩

/-- The mark in the file is set anew, not below the numbers that are out. -/
theorem SeqStream.Ok.mark (h : Ok ⟨file, some a, issued⟩) (hle : a.next ≤ hi + 1)
    (hroom : hi < maxInt64) :
    Ok ⟨.value (int64 hi), some { a with reservedHi := int64 hi }, issued⟩ := by
  obtain ⟨-, -, hpos, -, horder⟩ := h.ahead a rfl
  rw [int64_eq (by omega) (by omega)]
  have hload : loadSeqState (.value hi) = some hi := loadSeqState_value (by omega) (by omega)
  refine ⟨h.increasing, fun hi' heq => ?_, ?_⟩
  · cases hload.symm.trans heq
    exact horder.mono hle
  · rintro b ⟨⟩
    exact ⟨hload, hroom, hpos, hle, horder⟩

theorem SeqStream.Ok.reserve (h : Ok ⟨file, some a, issued⟩) {blockSize : Int}
    (hblock : 0 < blockSize) (hroom : a.reservedHi + blockSize < maxInt64) :
    Ok ⟨.value (int64 (a.reservedHi + blockSize)),
      some { a with reservedHi := int64 (a.reservedHi + blockSize) }, issued⟩ := by
  obtain ⟨-, -, -, hle, -⟩ := h.ahead a rfl
  exact h.mark (by omega) hroom

theorem SeqStream.Ok.shrink (h : Ok ⟨file, some a, issued⟩) :
    Ok ⟨.value (int64 (a.next - 1)), some { a with reservedHi := int64 (a.next - 1) }, issued⟩ := by
  obtain ⟨-, hroom, -, hle, -⟩ := h.ahead a rfl
  exact h.mark (by omega) (by omega)

theorem SeqStream.Ok.used (h : Ok ⟨file, some a, issued⟩) :
    (if int64 (a.next - 1) < 0 then 0 else int64 (a.next - 1)) = int64 (a.next - 1) := by
  obtain ⟨-, hroom, hpos, hle, -⟩ := h.ahead a rfl
  rw [int64_eq (by omega) (by omega)]
  exact if_neg (by omega)

/-! ## Steps of one process -/

def SeqHistory.stream (s : SeqHistory) : SeqStream :=
  ⟨s.file, s.process.map SeqProcess.alloc, s.issued⟩

/-- The invariant of a run with `n` calls to go: the stream is in order, and `n` more blocks of at
most `most` numbers fit in front of the largest mark. -/
structure SeqHistoryOk (most : Int) (n : Nat) (s : SeqHistory) : Prop where
  stream : s.stream.Ok
  block : ∀ p ∈ s.process, 0 < p.blockSize ∧ p.blockSize ≤ most
  room : ∀ hi, loadSeqState s.file = some hi → hi + most * n < maxInt64

variable {s : SeqHistory} {p : SeqProcess} {most : Int} {n : Nat}

theorem SeqHistoryOk.stream_open (h : SeqHistoryOk most n s) (hp : s.process = some p) :
    SeqStream.Ok ⟨s.file, some p.alloc, s.issued⟩ := by
  have hstream := h.stream
  unfold SeqHistory.stream at hstream
  rw [hp] at hstream
  exact hstream

theorem most_succ (most : Int) (n : Nat) : most * (n + 1 : Nat) = most * n + most := by
  rw [Int.natCast_add, Int.mul_add]
  exact congrArg (most * n + ·) (Int.mul_one most)

section Call

variable (hmost : 0 < most)

include hmost

theorem SeqHistoryOk.idle (h : SeqHistoryOk most (n + 1) s) : SeqHistoryOk most n s := by
  refine ⟨h.stream, h.block, fun hi hload => ?_⟩
  have hroom := h.room hi hload
  rw [most_succ] at hroom
  omega

theorem SeqHistoryOk.exit (h : SeqHistoryOk most (n + 1) s) :
    SeqHistoryOk most n { s with process := none } :=
  ⟨h.stream.exit, nofun, (h.idle hmost).room⟩

theorem SeqHistoryOk.start {blockSize : Int} (h : SeqHistoryOk most (n + 1) s)
    (hblock : blockSize ≤ most) (hdefault : defaultSeqBlockSize ≤ most) :
    SeqHistoryOk most n (s.start blockSize) := by
  have hidle := h.idle hmost
  have hnonneg := Int.mul_nonneg (Int.le_of_lt hmost) (Int.natCast_nonneg n)
  unfold SeqHistory.start
  split
  · exact hidle
  next hi hload =>
    have hroom := hidle.room hi hload
    refine ⟨hidle.stream.start hload (by omega), ?_, hidle.room⟩
    rintro p ⟨⟩
    simp only
    split
    · exact ⟨by decide, hdefault⟩
    · exact ⟨by omega, hblock⟩

/-- The file is left alone or gets a mark that leaves room for the calls to come. -/
theorem SeqHistoryOk.of_write (h : SeqHistoryOk most (n + 1) s) {hi : Int} {s' : SeqHistory}
    (fate : WriteFate) (hfile : s'.file = writeSeqStateAtomic fate s.file hi)
    (hroom : hi + most * n < maxInt64) (hstream : s'.stream.Ok)
    (hblock : ∀ q ∈ s'.process, 0 < q.blockSize ∧ q.blockSize ≤ most) : SeqHistoryOk most n s' := by
  refine ⟨hstream, hblock, fun hi' hload => ?_⟩
  rw [hfile] at hload
  cases fate with
  | written | diedAfter =>
    simp only [writeSeqStateAtomic, loadSeqState] at hload
    split at hload <;> cases hload
    exact hroom
  | failed | diedBefore => exact (h.idle hmost).room hi' hload

theorem SeqHistoryOk.next (h : SeqHistoryOk most (n + 1) s) (hp : s.process = some p)
    (fate : WriteFate) : SeqHistoryOk most n (s.next p fate) := by
  have hstream := h.stream_open hp
  obtain ⟨hpos, hle⟩ := h.block p hp
  have hnonneg := Int.mul_nonneg (Int.le_of_lt hmost) (Int.natCast_nonneg n)
  obtain ⟨hload, hhi, hone, htight, -⟩ := hstream.ahead _ rfl
  have hroom := h.room _ hload
  rw [most_succ] at hroom
  unfold SeqHistory.next
  split
  · have hsum : int64 (p.alloc.reservedHi + p.blockSize) = p.alloc.reservedHi + p.blockSize :=
      int64_eq (by omega) (by omega)
    have hres := hstream.reserve hpos (by omega)
    have hfits : int64 (p.alloc.reservedHi + p.blockSize) + most * n < maxInt64 := by omega
    cases fate with
    | written =>
      refine h.of_write hmost .written rfl hfits (hres.take (by simp only; omega)) ?_
      rintro q ⟨⟩
      exact ⟨hpos, hle⟩
    | failed => exact h.idle hmost
    | diedBefore => exact h.exit hmost
    | diedAfter => exact h.of_write hmost .diedAfter rfl hfits hres.exit nofun
  · refine ⟨hstream.take (by omega), ?_, (h.idle hmost).room⟩
    rintro q ⟨⟩
    exact ⟨hpos, hle⟩

theorem SeqHistoryOk.close (h : SeqHistoryOk most (n + 1) s) (hp : s.process = some p)
    (fate : WriteFate) : SeqHistoryOk most n (s.close p fate) := by
  have hstream := h.stream_open hp
  have hblock := h.block p hp
  obtain ⟨hload, hhi, hone, htight, -⟩ := hstream.ahead _ rfl
  have hroom := (h.idle hmost).room _ hload
  unfold SeqHistory.close
  simp only [hstream.used]
  split
  · exact h.idle hmost
  · have hres := hstream.shrink
    have hused : int64 (p.alloc.next - 1) = p.alloc.next - 1 := int64_eq (by omega) (by omega)
    have hfits : int64 (p.alloc.next - 1) + most * n < maxInt64 := by omega
    cases fate with
    | written =>
      refine h.of_write hmost .written rfl hfits hres ?_
      rintro q ⟨⟩
      exact hblock
    | failed => exact h.idle hmost
    | diedBefore => exact h.exit hmost
    | diedAfter => exact h.of_write hmost .diedAfter rfl hfits hres.exit nofun

end Call

/-- The mark in the file, and a block of `most` numbers for each call, fit into an `int64`. -/
structure MarksFit (file : SeqFile) (calls : List SeqCall) (most : Int) : Prop where
  default : defaultSeqBlockSize ≤ most
  blocks : ∀ blockSize, .start blockSize ∈ calls → blockSize ≤ most
  room : ∀ hi, loadSeqState file = some hi → hi + most * calls.length < maxInt64

theorem SeqHistoryOk.step {s' : SeqHistory} {c : SeqCall} (h : SeqHistoryOk most (n + 1) s)
    (hdefault : defaultSeqBlockSize ≤ most) (hblock : ∀ b, c = .start b → b ≤ most)
    (hs : seqCallStep s c = some s') : SeqHistoryOk most n s' := by
  have hmost : 0 < most := Int.lt_of_lt_of_le (by decide) hdefault
  cases c with
  | start blockSize =>
    simp only [seqCallStep] at hs
    split at hs
    · cases hs
      exact h.start hmost (hblock blockSize rfl) hdefault
    · cases hs
  | next fate =>
    obtain ⟨p, hp, rfl⟩ := Option.map_eq_some_iff.mp hs
    exact h.next hmost hp fate
  | close fate =>
    obtain ⟨p, hp, rfl⟩ := Option.map_eq_some_iff.mp hs
    exact h.close hmost hp fate
  | exit =>
    cases hs
    exact h.exit hmost

/-- **Numbers are never reused** as long as they fit into an `int64`. -/
theorem seq_numbers_increase {file : SeqFile} {calls : List SeqCall} {s : SeqHistory} {most : Int}
    (hrun : exec seqCallStep (SeqHistory.init file) calls = some s)
    (hfit : MarksFit file calls most) : s.issued.Pairwise (· < ·) := by
  have hinit : SeqHistoryOk most calls.length (SeqHistory.init file) :=
    ⟨.init file, nofun, hfit.room⟩
  refine (exec_countdown (fun n t c hc t' h hs => ?_) hrun hinit).stream.increasing
  exact h.step hfit.default (fun b hb => hfit.blocks b (hb ▸ hc)) hs

/-- A file with the largest `int64` is accepted, the number after it is the smallest one, and the
next process hands that out again. -/
theorem largest_mark_repeats :
    ¬ ∀ (file : SeqFile) (calls : List SeqCall) (s : SeqHistory),
      exec seqCallStep (SeqHistory.init file) calls = some s → s.issued.Pairwise (· < ·) := by
  intro h
  have hinc := h (.value maxInt64)
    [.start 0, .next .written, .exit, .start 0, .next .written] _ rfl
  exact absurd hinc (by decide)

/-- A crash right after a reservation, a reservation that fails, a close and a close that
fails. -/
def restartCalls : List SeqCall :=
  [.start 4, .next .written, .next .written, .exit, .start 4, .next .failed, .next .written,
    .close .written, .next .diedAfter, .start 0, .next .written, .close .failed, .exit, .start 4,
    .next .written]

theorem restarts_increase :
    ∃ s, exec seqCallStep (SeqHistory.init .absent) restartCalls = some s ∧
      s.issued = [1, 2, 5, 10, 266] ∧ s.issued.Pairwise (· < ·) := by
  have hfit : MarksFit .absent restartCalls 256 := by
    refine ⟨by decide, fun b hb => ?_, fun hi hload => ?_⟩
    · simp [restartCalls] at hb
      omega
    · cases hload
      decide
  exact ⟨_, rfl, by decide, @seq_numbers_increase .absent restartCalls _ _ rfl hfit⟩

end AikeyProxy.Events
