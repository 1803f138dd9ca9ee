import AikeyProxy.Events.DeadLetter

/-!
# Dead letters under overlapping reporters

A pass removes from the file everything it does not keep, and keeps only what it read. So what is
owed has to be in the file, and in what each pass in progress still has to try or has kept. Appends
break this in another reporter's pass, and a second pass when it truncates the temporary file that
the first is about to rename.
-/

namespace AikeyProxy.Events

open Lib DeadPc Function List

variable {n : Nat}

/-! ## The property and its condition -/

def Owed (s : DeadWorld n) (line : DeadLine) : Prop :=
  ∃ k e, line = .entry k e ∧ (k, e) ∈ s.completed ∧ k ∉ s.delivered

def DeadLettersKept (s : DeadWorld n) : Prop :=
  ∀ line, Owed s line → line ∈ s.dir.lines .letter

def DeadPc.hasRead : DeadPc → Bool
  | .replaying .. | .tmpOpened .. | .tmpWritten .. => true
  | _ => false

/-- The pass has opened the temporary file and has not renamed yet. -/
def DeadPc.rewriting : DeadPc → Bool
  | .tmpOpened .. | .tmpWritten .. => true
  | _ => false

def DeadPc.letterInode : DeadPc → Option Nat
  | .opened _ _ i | .replayOpened i => some i
  | _ => none

/-- An append writes to the file that is still the file, and no other reporter is between its read
and its rename. A pass reads the file that is still the file, and opens the temporary file while no
other has it open. -/
def DeadStepOk (s : DeadWorld n) : DeadAct n → Prop
  | .write g =>
    (∀ i ∈ (s.pcs g).letterInode, s.dir.link .letter = some i) ∧
      ∀ g', g' ≠ g → (s.pcs g').hasRead = false
  | .replayRead g => ∀ i ∈ (s.pcs g).letterInode, s.dir.link .letter = some i
  | .openTmp g => ∀ g', g' ≠ g → (s.pcs g').rewriting = false
  | _ => True

instance (s : DeadWorld n) : ∀ a, Decidable (DeadStepOk s a)
  | .write _ => inferInstanceAs (Decidable ((∀ _ ∈ _, _) ∧ ∀ _, _))
  | .replayRead _ => inferInstanceAs (Decidable (∀ _ ∈ _, _))
  | .openTmp _ => inferInstanceAs (Decidable (∀ _, _))
  | .appendUsage .. | .appendCompliance .. | .openLetter _ | .replayOpen _ | .replayLine ..
  | .writeTmp _ | .rename _ => isTrue trivial

/-! ## The invariant -/

def PassInv (s : DeadWorld n) : DeadPc → Prop
  | .replaying todo keep _ => ∀ line, Owed s line → line ∈ todo ∨ line ∈ keep
  | .tmpOpened keep i _ =>
    s.dir.link .tmp = some i ∧ s.dir.lines .tmp = [] ∧ ∀ line, Owed s line → line ∈ keep
  | .tmpWritten _ => ∀ line, Owed s line → line ∈ s.dir.lines .tmp
  | _ => True

structure DeadInv (s : DeadWorld n) : Prop where
  kept : DeadLettersKept s
  passes : ∀ g, PassInv s (s.pcs g)
  alone : ∀ g g', (s.pcs g).rewriting = true → (s.pcs g').rewriting = true → g = g'

variable {pc : DeadPc} {s s' : DeadWorld n} {g : Fin n}

theorem passInv_of_not_hasRead (h : pc.hasRead = false) : PassInv s pc := by
  cases pc with
  | idle | appending | opened | replayOpened => trivial
  | replaying | tmpOpened | tmpWritten => cases h

theorem PassInv.of_not_rewriting (h : PassInv s pc) (hpc : pc.rewriting = false)
    (howed : ∀ line, Owed s' line → Owed s line) : PassInv s' pc := by
  cases pc with
  | idle | appending | opened | replayOpened => trivial
  | replaying todo keep r => exact fun line hline => h line (howed line hline)
  | tmpOpened | tmpWritten => cases hpc

theorem PassInv.mono (h : PassInv s pc) (howed : ∀ line, Owed s' line → Owed s line)
    (hlink : s'.dir.link .tmp = s.dir.link .tmp) (hlines : s'.dir.lines .tmp = s.dir.lines .tmp) :
    PassInv s' pc := by
  cases pc with
  | idle | appending | opened | replayOpened => trivial
  | replaying todo keep r => exact fun line hline => h line (howed line hline)
  | tmpOpened keep i r =>
    obtain ⟨hi, hempty, hkeep⟩ := h
    exact ⟨hlink.trans hi, hlines.trans hempty, fun line hline => hkeep line (howed line hline)⟩
  | tmpWritten r =>
    intro line hline
    rw [hlines]
    exact h line (howed line hline)

/-! ## One reporter moves -/

theorem pcs_cases {P : Fin n → DeadPc → Prop} {pcs : Fin n → DeadPc} (hself : P g pc)
    (hother : ∀ g', g' ≠ g → P g' (pcs g')) (g' : Fin n) : P g' (Function.update pcs g pc g') := by
  by_cases hg : g' = g
  · subst hg
    rw [update_self]
    exact hself
  · rw [update_of_ne hg]
    exact hother g' hg

theorem alone_move (h : DeadInv s)
    (hpc : pc.rewriting = true → ∀ g', g' ≠ g → (s.pcs g').rewriting = false) (g₁ g₂ : Fin n)
    (h₁ : (Function.update s.pcs g pc g₁).rewriting = true)
    (h₂ : (Function.update s.pcs g pc g₂).rewriting = true) : g₁ = g₂ := by
  by_cases hg₁ : g₁ = g <;> by_cases hg₂ : g₂ = g
  · rw [hg₁, hg₂]
  · subst hg₁
    rw [update_self] at h₁
    rw [update_of_ne hg₂, hpc h₁ g₂ hg₂] at h₂
    cases h₂
  · subst hg₂
    rw [update_self] at h₂
    rw [update_of_ne hg₁, hpc h₂ g₁ hg₁] at h₁
    cases h₁
  · rw [update_of_ne hg₁] at h₁
    rw [update_of_ne hg₂] at h₂
    exact h.alone g₁ g₂ h₁ h₂

theorem DeadInv.others (h : DeadInv s) (hg : (s.pcs g).rewriting = true) (g' : Fin n)
    (hne : g' ≠ g) :
    (s.pcs g').rewriting = false := by
  rw [Bool.eq_false_iff]
  intro hg'
  exact hne (h.alone g' g hg' hg)

theorem DeadInv.move (h : DeadInv s) (hpcs : s'.pcs = Function.update s.pcs g pc)
    (howed : ∀ line, Owed s' line → Owed s line) (hlines : ∀ f, s'.dir.lines f = s.dir.lines f)
    (hlink : s'.dir.link .tmp = s.dir.link .tmp) (hpass : PassInv s' pc)
    (hpc : pc.rewriting = false) : DeadInv s' where
  kept := by
    intro line hline
    rw [hlines]
    exact h.kept line (howed line hline)
  passes := by
    rw [hpcs]
    exact pcs_cases hpass fun g' _ => (h.passes g').mono howed hlink (hlines .tmp)
  alone := by
    rw [hpcs]
    exact alone_move h fun hrw => absurd hrw (by simp [hpc])

/-! ## Appends -/

theorem deadInv_beginAppend (h : DeadInv s) {e : DeadLetterEntry}
    (hs : s.beginAppend g e = some s') : DeadInv s' := by
  unfold DeadWorld.beginAppend at hs
  split at hs
  · cases hs
    exact h.move rfl (fun _ hline => hline) (fun _ => rfl) rfl trivial rfl
  · cases hs

theorem deadInv_openLetter (h : DeadInv s) (hs : s.openLetter g = some s') : DeadInv s' := by
  unfold DeadWorld.openLetter at hs
  split at hs
  · cases hs
    exact h.move rfl (fun _ hline => hline) (fun f => s.dir.lines_openCreate .letter f)
      (s.dir.link_openCreate_ne (by simp)) trivial rfl
  · cases hs

theorem deadInv_write (h : DeadInv s) (hok : DeadStepOk s (.write g)) (hs : s.write g = some s') :
    DeadInv s' := by
  obtain ⟨hstill, hothers⟩ := hok
  unfold DeadWorld.write at hs
  cases hpc : s.pcs g with
  | opened k e i =>
    rw [hpc] at hs hstill
    have hlink := hstill i rfl
    cases hs
    refine ⟨?_, ?_, ?_⟩
    · rintro line ⟨k', e', rfl, hmem, hdel⟩
      rw [s.dir.lines_appendTo hlink, if_pos rfl, mem_append]
      rcases mem_append.mp hmem with hold | hnew
      · exact Or.inl (h.kept _ ⟨k', e', rfl, hold, hdel⟩)
      · right
        obtain ⟨rfl, rfl⟩ := Prod.mk.inj (mem_singleton.mp hnew)
        exact mem_singleton_self _
    · exact pcs_cases trivial fun g' hne => passInv_of_not_hasRead (hothers g' hne)
    · exact alone_move h nofun
  | _ => rw [hpc] at hs; cases hs

/-! ## Passes -/

theorem deadInv_replayOpen (h : DeadInv s) (hs : s.replayOpen g = some s') : DeadInv s' := by
  revert hs
  fun_cases DeadWorld.replayOpen s g <;> intro hs <;> cases hs
  · exact h
  · exact h.move rfl (fun _ hline => hline) (fun _ => rfl) rfl trivial rfl

theorem deadInv_replayRead (h : DeadInv s) (hok : DeadStepOk s (.replayRead g))
    (hs : s.replayRead g = some s') : DeadInv s' := by
  unfold DeadWorld.replayRead at hs
  cases hpc : s.pcs g with
  | replayOpened i =>
    have hlink := hok i (by rw [hpc]; rfl)
    rw [hpc] at hs
    cases hs
    refine h.move rfl (fun _ hline => hline) (fun _ => rfl) rfl ?_ rfl
    intro line hline
    left
    rw [← FileDir.lines_of_link hlink]
    exact h.kept line hline
  | _ => rw [hpc] at hs; cases hs

theorem owed_deliver (s : DeadWorld n) {k : Nat} {line : DeadLine} (h : Owed s' line)
    (hcompleted : s'.completed = s.completed) (hdelivered : s'.delivered = k :: s.delivered) :
    Owed s line ∧ ∀ e, line ≠ .entry k e := by
  obtain ⟨k', e', rfl, hmem, hdel⟩ := h
  rw [hcompleted] at hmem
  rw [hdelivered, mem_cons, not_or] at hdel
  refine ⟨⟨k', e', rfl, hmem, hdel.2⟩, ?_⟩
  rintro e heq
  exact hdel.1 (DeadLine.entry.inj heq).1

theorem mem_keep {line l : DeadLine} {todo keep : List DeadLine} (h : l ∈ line :: todo ∨ l ∈ keep) :
    l ∈ todo ∨ l ∈ keep ++ [line] := by
  rw [mem_append, mem_singleton]
  rcases h with h | h
  · rcases mem_cons.mp h with rfl | h
    · exact Or.inr (Or.inr rfl)
    · exact Or.inl h
  · exact Or.inr (Or.inl h)

theorem deadInv_replayLine (h : DeadInv s) {env : ReplayEnv} (hs : s.replayLine g env = some s') :
    DeadInv s' := by
  have hpass := h.passes g
  have hkeep : ∀ {line todo keep r}, s.pcs g = .replaying (line :: todo) keep r → ∀ r',
      DeadInv (s.setPc g (.replaying todo (keep ++ [line]) r')) := fun hpc _ => by
    rw [hpc] at hpass
    exact h.move rfl (fun _ hline => hline) (fun _ => rfl) rfl (fun l hl => mem_keep (hpass l hl)) rfl
  revert hs
  fun_cases DeadWorld.replayLine s g env <;> intro hs <;> cases hs
  case case1 hpc | case3 hpc => exact hkeep hpc _
  case case2 e _ _ hpc =>
    rw [hpc] at hpass
    refine h.move rfl (fun _ hline => (owed_deliver s hline rfl rfl).1) (fun _ => rfl) rfl ?_ rfl
    intro l hl
    obtain ⟨howed, hne⟩ := owed_deliver s hl rfl rfl
    rcases hpass l howed with htodo | hk
    · exact Or.inl ((mem_cons.mp htodo).resolve_left (hne e))
    · exact Or.inr hk

theorem deadInv_openTmp (h : DeadInv s) (hok : DeadStepOk s (.openTmp g))
    (hs : s.openTmp g = some s') : DeadInv s' := by
  have hpass := h.passes g
  revert hs
  fun_cases DeadWorld.openTmp s g <;> intro hs <;> cases hs
  next hpc =>
    rw [hpc] at hpass
    refine ⟨?_, ?_, alone_move h fun _ => hok⟩
    · intro line hline
      rw [s.dir.lines_openTrunc .tmp .letter, if_neg (by simp)]
      exact h.kept line hline
    · refine pcs_cases ⟨s.dir.link_openTrunc_self .tmp, ?_, ?_⟩ fun g' hne =>
        (h.passes g').of_not_rewriting (hok g' hne) fun _ hline => hline
      · rw [s.dir.lines_openTrunc .tmp .tmp, if_pos rfl]
      · exact fun line hline => (hpass line hline).resolve_left (by simp)

theorem deadInv_writeTmp (h : DeadInv s) (hs : s.writeTmp g = some s') : DeadInv s' := by
  unfold DeadWorld.writeTmp at hs
  split at hs
  next keep i r hpc =>
    have hpass := h.passes g
    rw [hpc] at hpass
    obtain ⟨hlink, hempty, hkeep⟩ := hpass
    have hothers := h.others (g := g) (by rw [hpc]; rfl)
    cases hs
    refine ⟨?_, ?_, alone_move h fun _ => hothers⟩
    · intro line hline
      rw [s.dir.lines_overwrite hlink hempty, if_neg (by simp)]
      exact h.kept line hline
    · refine pcs_cases ?_ fun g' hne =>
        (h.passes g').of_not_rewriting (hothers g' hne) fun _ hline => hline
      intro line hline
      rw [s.dir.lines_overwrite hlink hempty, if_pos rfl]
      exact hkeep line hline
  · cases hs

theorem deadInv_rename (h : DeadInv s) (hs : s.rename g = some s') : DeadInv s' := by
  unfold DeadWorld.rename at hs
  split at hs
  next r dir hpc hren =>
    have hpass := h.passes g
    rw [hpc] at hpass
    have hothers := h.others (g := g) (by rw [hpc]; rfl)
    cases hs
    refine ⟨?_, ?_, alone_move h nofun⟩
    · intro line hline
      rw [FileDir.lines_rename hren]
      exact hpass line hline
    · exact pcs_cases trivial fun g' hne =>
        (h.passes g').of_not_rewriting (hothers g' hne) fun _ hline => hline
  · cases hs

theorem deadInv_init (letters : Option (List (DeadLetterEntry ⊕ String)))
    (leftover : Option (List DeadLine)) : DeadInv (.init n letters leftover) where
  kept := by
    rintro line ⟨k, e, rfl, hmem, -⟩
    obtain ⟨l, hl, heq⟩ := mem_filterMap.mp hmem
    cases l with
    | malformed text => cases heq
    | entry k' e' =>
      obtain ⟨rfl, rfl⟩ := Prod.mk.inj (Option.some.inj heq)
      cases letters with
      | none => cases hl
      | some ls => exact hl
  passes := fun _ => trivial
  alone := nofun

theorem deadInv_step {a : DeadAct n} (h : DeadInv s) (hok : DeadStepOk s a)
    (hs : deadStep s a = some s') : DeadInv s' := by
  cases a with
  | appendUsage g batch => exact deadInv_beginAppend h hs
  | appendCompliance g size routeSource eventJSONs =>
    simp only [deadStep] at hs
    split at hs
    · exact deadInv_beginAppend h hs
    · cases hs; exact h
  | openLetter g => exact deadInv_openLetter h hs
  | write g => exact deadInv_write h hok hs
  | replayOpen g => exact deadInv_replayOpen h hs
  | replayRead g => exact deadInv_replayRead h hok hs
  | replayLine g env => exact deadInv_replayLine h hs
  | openTmp g => exact deadInv_openTmp h hok hs
  | writeTmp g => exact deadInv_writeTmp h hs
  | rename g => exact deadInv_rename h hs

/-- **Dead letters survive until they are delivered**: an entry whose append completed is in the
file until some pass has delivered it. -/
theorem dead_letters_kept {letters : Option (List (DeadLetterEntry ⊕ String))}
    {leftover : Option (List DeadLine)} {acts : List (DeadAct n)} {s : DeadWorld n}
    (hrun : Guarded deadStep DeadStepOk (.init n letters leftover) acts s) : DeadLettersKept s :=
  (hrun.invariant (fun _ _ _ h hok hs => deadInv_step h hok hs) (deadInv_init letters leftover)).kept

/-! ## Two reporters -/

def usageEvent (id : String) : ReportableEvent := ⟨id, "org", "team", "src", none⟩

def downEnv : ReplayEnv where
  ctxDone := false
  urlForRouteSource := fun _ => "http://collector"
  marshalError := none
  uploadError := some ⟨503, "unavailable"⟩
  quote := fun s => s

def upEnv : ReplayEnv := { downEnv with uploadError := none }

/-- Two passes overlap, one of them delivers the entry, and the new reporter appends when
both are over. -/
def overlappingPasses : List (DeadAct 2) :=
  [.appendUsage 0 [usageEvent "a"], .openLetter 0, .write 0,
    .replayOpen 0, .replayRead 0, .replayOpen 1, .replayRead 1,
    .replayLine 0 downEnv, .replayLine 1 upEnv,
    .openTmp 1, .writeTmp 1, .rename 1, .openTmp 0, .writeTmp 0, .rename 0,
    .appendUsage 1 [usageEvent "b"], .openLetter 1, .write 1]

theorem overlapping_passes_keep_letters : ∃ s,
    Guarded deadStep DeadStepOk (.init 2 none none) overlappingPasses s ∧ s.delivered = [0] ∧
      DeadLettersKept s := by
  have hrun := Guarded.of_guardedExec
    (show guardedExec deadStep DeadStepOk (.init 2 none none) overlappingPasses = some _ from rfl)
  exact ⟨_, hrun, rfl, dead_letters_kept hrun⟩

/-- The new reporter appends while the old one's pass is between its read and its rename. -/
def appendInPass : List (DeadAct 2) :=
  [.appendUsage 0 [usageEvent "a"], .openLetter 0, .write 0,
    .replayOpen 0, .replayRead 0,
    .appendUsage 1 [usageEvent "b"], .openLetter 1, .write 1,
    .replayLine 0 downEnv, .openTmp 0, .writeTmp 0, .rename 0]

theorem append_in_pass_lost :
    ¬ ∀ (n : Nat) (letters : Option (List (DeadLetterEntry ⊕ String)))
        (leftover : Option (List DeadLine)) (acts : List (DeadAct n)) (s : DeadWorld n),
      exec deadStep (.init n letters leftover) acts = some s → DeadLettersKept s := by
  intro hall
  have hin := hall 2 none none appendInPass _ rfl (.entry 1 (writeDeadLetter [usageEvent "b"]))
    ⟨1, _, rfl, by decide, by decide⟩
  exact absurd hin (by decide)

end AikeyProxy.Events
