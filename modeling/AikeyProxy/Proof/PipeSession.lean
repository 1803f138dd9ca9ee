import AikeyProxy.AppHook.PipeSession

/-!
# Frames reach the child whole

Only the holder of the permit touches the buffered writer, from its first byte to its last, whatever
became of its caller. So what the pipe took is the front part of the frames that were begun: whole
frames and a cut one. Once a write has failed nothing more is handed over, so what is cut stays cut.
-/

namespace AikeyProxy.AppHook

open Lib List PipeWorld BufWriter SessionProc

variable {encodeFrame : List UInt8 → List UInt8}

/-- The place of the buffered write that runs here, if one does. -/
def SessionProc.writer : SessionProc → Option (BufPc UInt8)
  | .call _ _ (.writing pc) => some pc
  | .shutdown (.flushing pc) => some pc
  | _ => none

def SessionProc.holds : SessionProc → Bool
  | .call _ .recheck _ => true
  | .call _ _ (.writing _) => true
  | .shutdown (.flushing _) => true
  | _ => false

def SessionProc.Early : SessionProc → Prop
  | .call _ .check worker | .call _ .acquire worker | .call _ .recheck worker => worker = .absent
  | _ => True

variable {pc : BufPc UInt8} {p : SessionProc} {resume : BufPc UInt8 → SessionProc}
  {ev : BufWriter.Event} {worker : WorkerPc} {caller : CallerPc} {payload : List UInt8}

theorem SessionProc.holds_of_writer (h : p.writer = some pc) : p.holds = true := by
  cases p with
  | call payload caller worker => cases worker <;> cases caller <;> simp_all [writer, holds]
  | shutdown pc' => cases pc' <;> simp_all [writer, holds]

theorem SessionProc.writer_of_not_holds (h : p.holds = false) : p.writer = none := by
  cases hw : p.writer with
  | none => rfl
  | some pc => rw [holds_of_writer hw] at h; cases h

def PipeWorld.begunBytes (encodeFrame : List UInt8 → List UInt8) (s : PipeWorld) : List UInt8 :=
  (s.begun.map encodeFrame).flatten

def PipeWorld.Quiet (s : PipeWorld) : Prop := ∀ p ∈ s.procs, p.writer = none

/-! ## The invariant -/

structure PipeInv (encodeFrame : List UInt8 → List UInt8) (s : PipeWorld) : Prop where
  slot : Counts SessionProc.holds s.procs s.writeSlot.toNat
  early : ∀ p ∈ s.procs, p.Early
  /-- What the pipe took and what is on its way are the frames that were begun. -/
  writer : ∀ p ∈ s.procs, ∀ pc, p.writer = some pc → s.w.Placed pc ∧
    (s.w.failed = false → s.sent ++ s.w.unsent pc = s.begunBytes encodeFrame)
  quiet : s.Quiet → s.w.failed = false → s.w.buf = [] ∧ s.sent = s.begunBytes encodeFrame
  inOrder : s.sent <+: s.begunBytes encodeFrame

theorem pipeInv_init : PipeInv encodeFrame .init where
  slot := rfl
  early := by simp [PipeWorld.init]
  writer := by simp [PipeWorld.init]
  quiet := fun _ _ => ⟨rfl, rfl⟩
  inOrder := prefix_rfl

variable {s s' : PipeWorld} {i : Nat} {old new : SessionProc}

theorem PipeInv.alone (h : PipeInv encodeFrame s) (hi : s.procs[i]? = some old)
    (hold : old.holds = true) (hp : p ∈ s.procs.set i new) : p = new ∨ p.writer = none := by
  rcases h.slot.lock_others hi hold new p hp with hnew | hout
  · exact Or.inl hnew
  · exact Or.inr (writer_of_not_holds hout)

theorem PipeInv.quiet_of_holder (h : PipeInv encodeFrame s) (hi : s.procs[i]? = some old)
    (hold : old.holds = true) (hnot : old.writer = none) : s.Quiet := by
  intro p hp
  have hother : p ∈ s.procs.set i old → p = old ∨ p.writer = none := h.alone hi hold
  grind -linarith [mem_set_of_mem hi old hp]

theorem PipeInv.quiet_of_free (h : PipeInv encodeFrame s) (hfree : s.writeSlot = false) :
    s.Quiet := by
  intro p hp
  exact writer_of_not_holds (h.slot.lock_free hfree p hp)

theorem begunBytes_eq (encodeFrame : List UInt8 → List UInt8) (hbegun : s'.begun = s.begun) :
    s'.begunBytes encodeFrame = s.begunBytes encodeFrame := by
  rw [begunBytes, hbegun, begunBytes]

theorem PipeInv.early_set (h : PipeInv encodeFrame s) (hprocs : s'.procs = s.procs.set i new)
    (hearly : new.Early) : ∀ p ∈ s'.procs, p.Early := by
  intro p hp
  rw [hprocs] at hp
  rcases mem_or_eq_of_mem_set hp with hin | rfl
  · exact h.early p hin
  · exact hearly

/-! ## Steps that leave the writer alone -/

theorem PipeInv.control (h : PipeInv encodeFrame s) (hi : s.procs[i]? = some old)
    (hprocs : s'.procs = s.procs.set i new) (hw : s'.w = s.w) (hsent : s'.sent = s.sent)
    (hbegun : s'.begun = s.begun) (hsame : new.writer = old.writer) (hearly : new.Early)
    (hslot : Counts SessionProc.holds s'.procs s'.writeSlot.toNat) : PipeInv encodeFrame s' := by
  have hbytes := begunBytes_eq encodeFrame hbegun
  have hold : old ∈ s.procs := mem_of_getElem? hi
  have hself := mem_set_self hi new
  obtain ⟨-, hearlies, hwriter, hquiet, horder⟩ := h
  refine ⟨hslot, by grind -linarith [mem_or_eq_of_mem_set], by grind -linarith [mem_or_eq_of_mem_set],
    fun hq => ?_, by grind -linarith⟩
  rw [hw, hsent, hbytes]
  refine hquiet fun p hp => ?_
  grind -linarith [mem_set_of_mem hi new hp, PipeWorld.Quiet]

theorem PipeInv.stay (h : PipeInv encodeFrame s) (hi : s.procs[i]? = some old)
    (hprocs : s'.procs = s.procs.set i new) (hw : s'.w = s.w) (hsent : s'.sent = s.sent)
    (hbegun : s'.begun = s.begun) (hsame : new.writer = old.writer) (hearly : new.Early)
    (hfree : s'.writeSlot = s.writeSlot) (hholds : old.holds = new.holds) :
    PipeInv encodeFrame s' := by
  refine h.control hi hprocs hw hsent hbegun hsame hearly ?_
  rw [hprocs, hfree]
  exact h.slot.stay hi hholds

theorem PipeInv.spawn (h : PipeInv encodeFrame s) (hprocs : s'.procs = s.procs ++ [new])
    (hw : s'.w = s.w) (hsent : s'.sent = s.sent) (hbegun : s'.begun = s.begun)
    (hfree : s'.writeSlot = s.writeSlot) (hnew : new.holds = false) (hearly : new.Early) :
    PipeInv encodeFrame s' := by
  have hbytes := begunBytes_eq encodeFrame hbegun
  have hnone := writer_of_not_holds hnew
  obtain ⟨hslot, hearlies, hwriter, hquiet, horder⟩ := h
  refine ⟨?_, by grind -linarith, by grind -linarith, by grind -linarith [PipeWorld.Quiet], by grind -linarith⟩
  rw [hprocs, hfree]
  exact hslot.spawn hnew

/-! ## The writer -/

theorem PipeInv.begin (h : PipeInv encodeFrame s) (hi : s.procs[i]? = some old)
    (hprocs : s'.procs = s.procs.set i new) (hquiet : s.Quiet) (hw : s'.w = s.w)
    (hsent : s'.sent = s.sent) {more : List (List UInt8)} (hbegun : s'.begun = s.begun ++ more)
    (hpc : new.writer = some pc) (hplaced : s.w.Placed pc)
    (hunsent : s.w.unsent pc = s.w.buf ++ (more.map encodeFrame).flatten) (hearly : new.Early)
    (hslot : Counts SessionProc.holds s'.procs s'.writeSlot.toNat) : PipeInv encodeFrame s' := by
  have hbytes : s'.begunBytes encodeFrame =
      s.begunBytes encodeFrame ++ (more.map encodeFrame).flatten := by
    rw [begunBytes, hbegun, map_append, flatten_append]
    rfl
  have hself := mem_set_self hi new
  refine ⟨hslot, h.early_set hprocs hearly, ?_, by grind -linarith [PipeWorld.Quiet], ?_⟩
  · intro p hp pc' hpc'
    rw [hprocs] at hp
    rcases mem_or_eq_of_mem_set hp with hin | rfl
    · grind -linarith [PipeWorld.Quiet]
    · have hall := h.quiet hquiet
      grind -linarith
  · rw [hsent, hbytes]
    exact h.inOrder.trans (prefix_append _ _)

theorem writerStep_effect (hs : s.writerStep i pc ev resume = some s') :
    ∃ pc' out, s.w.step (!s.closed) pc ev = some ((s'.w, pc'), out) ∧
      s'.procs = s.procs.set i (resume pc') ∧ s'.sent = s.sent ++ out ∧ s'.begun = s.begun ∧
      s'.writeSlot = s.writeSlot := by
  unfold writerStep at hs
  split at hs <;> cases hs
  next w' pc' out hstep => exact ⟨pc', out, hstep, rfl, (append_assoc ..).symm, rfl, rfl⟩

theorem PipeInv.write (h : PipeInv encodeFrame s) (hi : s.procs[i]? = some old)
    (hpc : old.writer = some pc) (hresume : ∀ pc', (resume pc').writer = some pc')
    (hearly : ∀ pc', (resume pc').Early) (hs : s.writerStep i pc ev resume = some s') :
    PipeInv encodeFrame s' := by
  obtain ⟨pc', out, hstep, hprocs, hsent, hbegun, hfree⟩ := writerStep_effect hs
  obtain ⟨hplaced, hbytes⟩ := h.writer old (mem_of_getElem? hi) pc hpc
  have hspec := step_spec hplaced hstep
  have hholds := SessionProc.holds_of_writer hpc
  have hself := mem_set_self hi (resume pc')
  have hbegunBytes := begunBytes_eq encodeFrame hbegun
  -- the bytes of this step come next in the frames
  have hnext : s'.w.failed = false →
      s.sent ++ out ++ s'.w.unsent pc' = s.begunBytes encodeFrame := by
    intro hok
    obtain ⟨hok', heq⟩ := hspec.inOrder hok
    rw [append_assoc, ← heq]
    exact hbytes hok'
  refine ⟨?_, h.early_set hprocs (hearly pc'), fun p hp pc'' hpc'' => ?_,
    by grind -linarith [PipeWorld.Quiet], ?_⟩
  · rw [hprocs, hfree]
    exact h.slot.stay hi (by rw [hholds, SessionProc.holds_of_writer (hresume pc')])
  · have hplaced' := hspec.placed
    grind -linarith [h.alone hi hholds (hprocs ▸ hp)]
  · rw [hsent, hbegunBytes]
    cases hfailed : s'.w.failed with
    | false => exact ⟨s'.w.unsent pc', hnext hfailed⟩
    | true =>
      rw [hspec.silent hfailed, append_nil]
      exact h.inOrder

/-- The write is over and the permit is given back: the frame went out whole, or the
writer has failed. -/
theorem PipeInv.release (h : PipeInv encodeFrame s) {err : Bool} (hi : s.procs[i]? = some old)
    (hprocs : s'.procs = s.procs.set i new) (hpc : old.writer = some (.returned err))
    (hw : s'.w = s.w) (hsent : s'.sent = s.sent) (hbegun : s'.begun = s.begun)
    (hfree : s'.writeSlot = false) (hnew : new.holds = false) (hearly : new.Early) :
    PipeInv encodeFrame s' := by
  obtain ⟨hplaced, hbytes⟩ := h.writer old (mem_of_getElem? hi) _ hpc
  have hholds := SessionProc.holds_of_writer hpc
  have hnone := writer_of_not_holds hnew
  have hbegunBytes := begunBytes_eq encodeFrame hbegun
  refine ⟨?_, h.early_set hprocs hearly, fun p hp => ?_, fun _ hok => ?_, ?_⟩
  · rw [hprocs, hfree]
    exact h.slot.lock_release hi hholds hnew
  · grind -linarith [h.alone hi hholds (hprocs ▸ hp)]
  · rw [hw] at hok
    rw [hw, hsent, hbegunBytes]
    cases err with
    | true => rw [show s.w.failed = true from hplaced] at hok; cases hok
    | false =>
      have hbuf : s.w.buf = [] := hplaced
      have hall := hbytes hok
      rw [unsent, hbuf, append_nil] at hall
      exact ⟨hbuf, hall⟩
  · rw [hsent, hbegunBytes]
    exact h.inOrder

/-! ## Every step -/

variable {ctxDone : Bool}

theorem pipeInv_caller (h : PipeInv encodeFrame s)
    (hi : s.procs[i]? = some (.call payload caller worker))
    (hs : s.callerStep encodeFrame i payload worker ctxDone caller = some s') :
    PipeInv encodeFrame s' := by
  have hearly := h.early _ (mem_of_getElem? hi)
  revert hs
  fun_cases callerStep encodeFrame s i payload worker ctxDone caller <;> intro hs
  case case3 =>
    cases hs
    obtain rfl : worker = .absent := hearly
    exact h.stay hi rfl rfl rfl rfl rfl rfl rfl rfl
  case case6 hfree =>
    cases hs
    obtain rfl : worker = .absent := hearly
    exact h.control hi rfl rfl rfl rfl rfl rfl
      (h.slot.lock_acquire (by simpa using hfree) hi rfl rfl)
  case case7 =>
    cases hs
    obtain rfl : worker = .absent := hearly
    exact h.control hi rfl rfl rfl rfl rfl trivial (h.slot.lock_release hi rfl rfl)
  case case8 =>
    cases hs
    obtain rfl : worker = .absent := hearly
    refine h.begin hi rfl (h.quiet_of_holder hi rfl rfl) rfl rfl rfl rfl trivial ?_ trivial
      (h.slot.stay hi rfl)
    simp [unsent]
  case case10 | case11 =>
    cases hs
    exact h.stay hi rfl rfl rfl rfl rfl trivial rfl rfl
  -- the others neither write nor change who holds the slot
  all_goals cases hs
  all_goals
    exact h.stay hi rfl rfl rfl rfl (by cases worker <;> rfl) trivial rfl (by cases worker <;> rfl)

theorem pipeInv_worker (h : PipeInv encodeFrame s)
    (hi : s.procs[i]? = some (.call payload caller worker))
    (hs : s.workerStep i payload caller ev worker = some s') : PipeInv encodeFrame s' := by
  cases worker with
  | absent | finished err => cases hs
  | writing pc =>
    -- a call that writes is past its early part
    have hlate : ∀ worker', (SessionProc.call payload caller worker').Early := by
      intro worker'
      have hearly := h.early _ (mem_of_getElem? hi)
      cases caller with
      | check | acquire | recheck => cases hearly
      | wait | retire | close | returned => trivial
    have hnotEarly : caller ≠ .recheck := by
      rintro rfl
      exact absurd (hlate (.writing pc)) (by simp [SessionProc.Early])
    cases pc with
    | returned err =>
      cases hs
      refine h.release hi rfl rfl rfl rfl rfl rfl ?_ (hlate _)
      cases caller with
      | recheck => exact absurd rfl hnotEarly
      | check | acquire | wait | retire | close | returned => rfl
    | write | direct | drain | flush => exact h.write hi rfl (fun _ => rfl) (fun _ => hlate _) hs

theorem pipeInv_shutdown {pc : ShutdownPc} (h : PipeInv encodeFrame s)
    (hi : s.procs[i]? = some (.shutdown pc)) (hs : s.shutdownStep i ev pc = some s') :
    PipeInv encodeFrame s' := by
  cases pc with
  | start =>
    simp only [shutdownStep] at hs
    split at hs
    · cases hs; exact h.stay hi rfl rfl rfl rfl rfl trivial rfl rfl
    next hfree =>
      have hfree' : s.writeSlot = false := by simpa using hfree
      cases hs
      refine h.begin hi rfl (h.quiet_of_free hfree') rfl rfl (append_nil _).symm rfl trivial
        ?_ trivial ?_
      · simp [unsent]
      · exact h.slot.lock_acquire hfree' hi rfl rfl
  | flushing pc =>
    cases pc with
    | returned err => cases hs; exact h.release hi rfl rfl rfl rfl rfl rfl rfl trivial
    | write | direct | drain | flush =>
      refine h.write hi rfl (fun _ => rfl) ?_ hs
      exact fun _ => trivial
  | close => cases hs; exact h.stay hi rfl rfl rfl rfl rfl trivial rfl rfl
  | done => cases hs

theorem PipeInv.frame (h : PipeInv encodeFrame s) (hprocs : s'.procs = s.procs) (hw : s'.w = s.w)
    (hsent : s'.sent = s.sent) (hbegun : s'.begun = s.begun) (hfree : s'.writeSlot = s.writeSlot) :
    PipeInv encodeFrame s' := by
  have hbytes := begunBytes_eq encodeFrame hbegun
  obtain ⟨hslot, hearlies, hwriter, hquiet, horder⟩ := h
  exact ⟨by grind -linarith, by grind -linarith, by grind -linarith, by grind -linarith [PipeWorld.Quiet], by grind -linarith⟩

theorem pipeInv_step {a : PipeAct} (h : PipeInv encodeFrame s)
    (hs : pipeStep encodeFrame s a = some s') : PipeInv encodeFrame s' := by
  cases a with
  | call payload => cases hs; exact h.spawn rfl rfl rfl rfl rfl rfl rfl
  | shutdown => cases hs; exact h.spawn rfl rfl rfl rfl rfl rfl trivial
  | restart => cases hs; exact h.frame rfl rfl rfl rfl rfl
  | childReads k =>
    cases hs
    refine h.frame rfl rfl ?_ rfl rfl
    rw [PipeWorld.sent, append_assoc, take_append_drop]
    rfl
  | _ =>
    simp only [pipeStep] at hs
    split at hs
    · first
      | exact pipeInv_caller h ‹_› hs
      | exact pipeInv_worker h ‹_› hs
      | exact pipeInv_shutdown h ‹_› hs
    · cases hs

/-! ## A failed writer stays silent -/

theorem failed_writerStep (h : PipeInv encodeFrame s) (hfailed : s.w.failed = true)
    (hi : s.procs[i]? = some old) (hpc : old.writer = some pc)
    (hs : s.writerStep i pc ev resume = some s') : s'.w.failed = true ∧ s'.sent = s.sent := by
  obtain ⟨pc', out, hstep, -, hsent, -⟩ := writerStep_effect hs
  have hspec := step_spec (h.writer old (mem_of_getElem? hi) pc hpc).1 hstep
  have hstill : s'.w.failed = true := by
    have hwas := hspec.inOrder
    grind -linarith
  rw [hsent, hspec.silent hstill, append_nil]
  exact ⟨hstill, rfl⟩

theorem callerStep_frame (hs : s.callerStep encodeFrame i payload worker ctxDone caller = some s') :
    s'.w = s.w ∧ s'.sent = s.sent := by
  cases caller <;> simp only [callerStep] at hs <;> (repeat' split at hs) <;>
    first
    | (cases hs; exact ⟨rfl, rfl⟩)
    | cases hs

theorem failed_step {a : PipeAct} (h : PipeInv encodeFrame s) (hfailed : s.w.failed = true)
    (hs : pipeStep encodeFrame s a = some s') : s'.w.failed = true ∧ s'.sent = s.sent := by
  revert hs
  fun_cases pipeStep encodeFrame s a <;> intro hs
  case case4 =>
    obtain ⟨hw, hsent⟩ := callerStep_frame hs
    exact ⟨hw ▸ hfailed, hsent⟩
  case case6 worker hi =>
    revert hs
    fun_cases workerStep s _ _ _ _ worker <;> intro hs
    case case2 => exact failed_writerStep h hfailed hi rfl hs
    all_goals cases hs <;> exact ⟨hfailed, rfl⟩
  case case8 pc hi =>
    revert hs
    fun_cases shutdownStep s _ _ pc <;> intro hs
    case case4 => exact failed_writerStep h hfailed hi rfl hs
    all_goals cases hs <;> exact ⟨hfailed, rfl⟩
  case case10 =>
    cases hs
    refine ⟨hfailed, ?_⟩
    rw [PipeWorld.sent, append_assoc, take_append_drop]
    rfl
  all_goals cases hs <;> exact ⟨hfailed, rfl⟩

/-! ## Every run -/

/-- The bytes that reached the child are whole frames and at most one cut one, and once the
pipe took a cut frame that nobody is writing any more, it takes nothing. -/
structure FramesIntact (encodeFrame : List UInt8 → List UInt8) (s : PipeWorld) : Prop where
  received : WholeThenCut (s.begun.map encodeFrame) s.received
  final : s.Quiet → (∀ k, s.sent ≠ ((s.begun.map encodeFrame).take k).flatten) →
    ∀ acts s', exec (pipeStep encodeFrame) s acts = some s' → s'.sent = s.sent

/-- **Frames to the child are never corrupted**, in every run of frame writes, deadlines,
retirements, restarts and shutdowns. -/
theorem frames_intact (encodeFrame : List UInt8 → List UInt8) {acts : List PipeAct} {s : PipeWorld}
    (hrun : exec (pipeStep encodeFrame) .init acts = some s) : FramesIntact encodeFrame s := by
  have hinv : PipeInv encodeFrame s :=
    exec_invariant (fun _ _ _ h hs => pipeInv_step h hs) hrun pipeInv_init
  refine ⟨?_, ?_⟩
  · exact wholeThenCut_of_prefix ((prefix_append _ _).trans hinv.inOrder)
  · intro hquiet hcut acts' s' hrun'
    -- a quiet writer that has not failed has sent everything
    have hfailed : s.w.failed = true := by
      by_contra hok
      have hall := (hinv.quiet hquiet (Bool.eq_false_iff.mpr hok)).2
      refine hcut s.begun.length ?_
      rw [hall, take_of_length_le (by simp)]
      rfl
    have hstay := exec_invariant
      (I := fun t => PipeInv encodeFrame t ∧ t.w.failed = true ∧ t.sent = s.sent)
      (fun t a t' ht hs => by
        obtain ⟨hf, hsent⟩ := failed_step ht.1 ht.2.1 hs
        exact ⟨pipeInv_step ht.1 hs, hf, hsent.trans ht.2.2⟩)
      hrun' ⟨hinv, hfailed, rfl⟩
    exact hstay.2.2

/-- The second caller's deadline expires while the pipe has taken one byte of its frame, and the
abandoned write ends on the closed pipe. -/
def abandonedWrite : List PipeAct :=
  [.call [1], .caller 0 false, .caller 0 false, .caller 0 false,
    .worker 0 .run, .worker 0 .run, .worker 0 (.accept 2), .worker 0 .run, .worker 0 .run,
    .call [2, 3], .caller 1 false, .caller 1 false, .caller 1 false,
    .worker 1 .run, .worker 1 .run, .worker 1 (.accept 1),
    .caller 1 true, .caller 1 false, .caller 1 false, .worker 1 .fail, .worker 1 .run,
    .childReads 3]

def lengthFrame (payload : List UInt8) : List UInt8 := payload.length.toUInt8 :: payload

theorem abandoned_write_intact : ∃ s, exec (pipeStep lengthFrame) .init abandonedWrite = some s ∧
    s.received = [1, 1, 2] ∧ FramesIntact lengthFrame s := by
  have hrun : exec (pipeStep lengthFrame) .init abandonedWrite = some _ := rfl
  exact ⟨_, hrun, by decide, frames_intact lengthFrame hrun⟩

end AikeyProxy.AppHook
