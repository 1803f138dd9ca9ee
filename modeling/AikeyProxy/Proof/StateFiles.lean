import AikeyProxy.Lib.Run
import AikeyProxy.Proxy.StateFiles

/-!
# What the state files hold in the end

A ring's file is of its newest entries when the calls write one after the other, in the order of
their snapshots: the call with the newest snapshot is then the last to rename. The flag of the login
hint is set whenever the file is there, unless a `Clear` resets it after a new file has appeared.
-/

namespace AikeyProxy.Proxy

open Lib RingState RecordPc Json Function

/-! ## The error rings -/

variable {E : Type} {R : RingKind E} {s s' : RingState E}

def RecordPc.number? : RecordPc E → Option Nat
  | .idle => none
  | .snapshot n _ | .opened n _ _ | .written n => some n

def RecordPc.isWriting : RecordPc E → Bool
  | .opened .. | .written _ => true
  | _ => false

/-- `pc` is of a call that writes after the one with snapshot `n`. -/
def RecordPc.IsAfter (n : Nat) (pc : RecordPc E) : Prop :=
  pc.isWriting = false ∧ ∀ m, pc.number? = some m → n < m

/-- A call opens the temporary file when no other call is writing it and every call with an older
snapshot has returned. -/
def RingStepOk (s : RingState E) : RingAct E → Prop
  | .openTmp t _ => ∀ n, (s.calls t).number? = some n → ∀ u, u ≠ t → (s.calls u).IsAfter n
  | _ => True

def RingKind.Holds (R : RingKind E) (entries : List E) (data : List Char) : Prop :=
  ∃ writtenAt, data = (R.body entries writtenAt).print

structure RingInv (R : RingKind E) (s : RingState E) : Prop where
  bounded : s.entries.length ≤ R.max
  numbered : ∀ t n, (s.calls t).number? = some n → n ≤ s.records
  newest : ∀ t es, s.calls t = .snapshot s.records es → es = s.entries
  turn : ∀ t n, (s.calls t).isWriting = true → (s.calls t).number? = some n →
    ∀ u, u ≠ t → (s.calls u).IsAfter n
  opened : ∀ t n data fd, s.calls t = .opened n data fd → s.dir.link .tmp = some fd ∧
    s.dir.lines .tmp = [] ∧ (n = s.records → R.Holds s.entries data)
  written : ∀ t, s.calls t = .written s.records → R.Holds s.entries (s.dir.lines .tmp)
  /-- The newest snapshot is on its way or in the file. -/
  last : s.records = 0 ∨ (∃ t, (s.calls t).number? = some s.records) ∨
    R.Holds s.entries (s.dir.lines .state) ∧ ∀ t, s.calls t = .idle

theorem ringInv_init (R : RingKind E) (dir : RunDir) : RingInv R (.init dir) := by
  constructor <;> simp [RingState.init, number?, isWriting]

attribute [local grind =] update_apply number?
  isWriting RecordPc.IsAfter

theorem number?_update {calls : Nat → RecordPc E} {t : Nat} {pc : RecordPc E} (h : calls t = pc)
    (pc' : RecordPc E) (hsame : pc'.number? = pc.number?) (u : Nat) :
    (Function.update calls t pc' u).number? = (calls u).number? := by
  grind -linarith

theorem RingInv.step {act : RingAct E} (h : RingInv R s) (hok : RingStepOk s act)
    (hs : ringStep R s act = some s') : RingInv R s' := by
  obtain ⟨h1, h2, h3, h4, h5, h6, h7⟩ := h
  cases act with
  | record t e =>
    cases hpc : s.calls t <;> simp only [ringStep, hpc, Option.some.injEq, reduceCtorEq] at hs
    subst hs
    have hlen : ((s.entries ++ [e]).drop ((s.entries ++ [e]).length - R.max)).length ≤ R.max := by
      rw [List.length_drop]
      omega
    generalize (s.entries ++ [e]).drop ((s.entries ++ [e]).length - R.max) = entries at hlen ⊢
    -- the other calls have older snapshots
    have hold : ∀ u n, (s.calls u).number? = some n → n ≠ s.records + 1 := by
      intro u n hu
      have := h2 u n hu
      omega
    have hlast : (Function.update s.calls t (.snapshot (s.records + 1) entries) t).number? =
        some (s.records + 1) := by rw [update_self]; rfl
    constructor <;> simp only [setCall] <;> grind -linarith
  | openTmp t nowMs =>
    cases hpc : s.calls t <;> simp only [ringStep, hpc, Option.some.injEq, reduceCtorEq] at hs
    subst hs
    have hlink := s.dir.link_openTrunc_self .tmp
    have hlines := s.dir.lines_openTrunc .tmp .tmp
    rename_i n entries
    have hnum := number?_update hpc (.opened n (R.body entries nowMs).print (s.dir.openTrunc .tmp).2) rfl
    simp only [RingStepOk] at hok
    constructor <;> simp only [setCall] <;> grind -linarith [RingKind.Holds]
  | write t =>
    cases hpc : s.calls t <;> simp only [ringStep, hpc, Option.some.injEq, reduceCtorEq] at hs
    subst hs
    obtain ⟨hlink, hempty, hdata⟩ := h5 _ _ _ _ hpc
    have hlines := s.dir.lines_overwrite hlink hempty
    have hnum := number?_update hpc (.written _) rfl
    constructor <;> simp only [setCall] <;> grind -linarith
  | rename t =>
    cases hpc : s.calls t <;> simp only [ringStep, hpc, Option.map_eq_some_iff, reduceCtorEq] at hs
    obtain ⟨dir, hdir, rfl⟩ := hs
    rename_i n
    have hlines := FileDir.lines_rename hdir
    have hafter : ∀ u, u ≠ t → (s.calls u).IsAfter n :=
      h4 t n (by rw [hpc]; rfl) (by rw [hpc]; rfl)
    -- when this is the newest snapshot, every other call has returned
    have hidle : n = s.records → ∀ u, Function.update s.calls t .idle u = .idle := by
      intro hn u
      have := h2 u
      cases hu : s.calls u <;> grind -linarith
    have hother : ∀ v, (s.calls v).number? = some s.records → v = t ∨
        (Function.update s.calls t .idle v).number? = some s.records := by grind -linarith
    constructor <;> simp only [setCall] <;> grind -linarith

theorem RingKind.valid_body (R : RingKind E) (entries : List E) (writtenAt : Int) :
    (R.body entries writtenAt).Valid := by
  simp [RingKind.body, Json.Valid, Json.ValidMembers, validItems_iff, valid_ofInt,
    R.valid]

/--
**A ring's file is of its newest entries.**

Once all calls have returned, of which there was one at least, if each opened the temporary file in
its turn.
-/
theorem ring_file_newest {dir : RunDir} {acts : List (RingAct E)}
    (hrun : Guarded (ringStep R) RingStepOk (.init dir) acts s) (hcalled : s.records ≠ 0)
    (hdone : ∀ t, s.calls t = .idle) :
    s.entries.length ≤ R.max ∧ ∃ writtenAt,
      Json.parse (s.dir.lines .state) = some (R.body s.entries writtenAt) := by
  have h := hrun.invariant (fun _ _ _ h hok hs => h.step hok hs) (ringInv_init R dir)
  refine ⟨h.bounded, ?_⟩
  rcases h.last with h0 | ⟨t, ht⟩ | ⟨⟨writtenAt, hfile⟩, -⟩
  · exact absurd h0 hcalled
  · rw [hdone t] at ht
    cases ht
  · refine ⟨writtenAt, ?_⟩
    rw [hfile, parse_print (R.valid_body _ _)]

def emptyRunDir : RunDir where
  link _ := none
  content _ := []
  next := 0
  link_lt := nofun
  link_inj := nofun

def serverError : LastErrorEntry := ⟨1, 500, "", "", "", "", "", ""⟩

def badGateway : LastErrorEntry := ⟨2, 502, "", "", "", "", "", ""⟩

/-- Two calls take their snapshots before the first of them writes. -/
def queuedRecords : List (RingAct LastErrorEntry) :=
  [.record 0 serverError, .record 1 badGateway, .openTmp 0 3, .write 0, .rename 0, .openTmp 1 4,
    .write 1, .rename 1]

theorem ring_file_newest_queued : ∃ s : RingState LastErrorEntry,
    s.entries = [serverError, badGateway] ∧ ∃ writtenAt,
      Json.parse (s.dir.lines .state) = some (lastErrorsRing.body s.entries writtenAt) := by
  refine ⟨_, rfl, (@ring_file_newest _ lastErrorsRing _ emptyRunDir queuedRecords
    (.cons trivial rfl (.cons trivial rfl (.cons ?_ rfl (.cons trivial rfl (.cons trivial rfl
      (.cons ?_ rfl (.cons trivial rfl (.cons trivial rfl (.nil _)))))))))
    (by decide) ?_).2⟩
  · intro n hn u hu
    cases hn
    match u with
    | 0 => exact absurd rfl hu
    | 1 => exact ⟨rfl, by intro m hm; cases hm; decide⟩
    | _ + 2 => exact ⟨rfl, by intro m hm; cases hm⟩
  · intro n hn u hu
    match u with
    | 0 => exact ⟨rfl, by intro m hm; cases hm⟩
    | 1 => exact absurd rfl hu
    | _ + 2 => exact ⟨rfl, by intro m hm; cases hm⟩
  · intro t
    match t with
    | 0 | 1 | _ + 2 => rfl

/-- The call that took its snapshot first is the last to rename. -/
theorem ring_file_stale : ∃ s, exec (ringStep lastErrorsRing) (.init emptyRunDir)
      [.record 0 serverError, .record 1 badGateway, .openTmp 1 3, .write 1, .rename 1,
        .openTmp 0 4, .write 0, .rename 0] = some s ∧ (∀ t, s.calls t = .idle) ∧
      s.entries = [serverError, badGateway] ∧ ∀ writtenAt,
        Json.parse (s.dir.lines .state) ≠ some (lastErrorsRing.body s.entries writtenAt) := by
  refine ⟨_, rfl, ?_, rfl, ?_⟩
  · intro t
    match t with
    | 0 | 1 | _ + 2 => rfl
  · intro writtenAt h
    have hfile := parse_print (lastErrorsRing.valid_body [serverError] 4)
    have heq : some (lastErrorsRing.body [serverError] 4) =
        some (lastErrorsRing.body [serverError, badGateway] writtenAt) := hfile.symm.trans h
    simp [RingKind.body] at heq

/-! ## The login hint -/

variable {g g' : GroupLoginStateStore}

/-- `Clear` resets the flag while the file is still gone, or a `Write` is about to set it. -/
def LoginStepOk (g : GroupLoginStateStore) : LoginAct → Prop
  | .storeClean _ => g.dir.link .state = none ∨ ∃ t, g.calls t = .renamed
  | _ => True

def LoginInv (g : GroupLoginStateStore) : Prop :=
  g.dir.link .state ≠ none → g.dirty = true ∨ ∃ t, g.calls t = .renamed

theorem LoginInv.step {act : LoginAct} (h : LoginInv g) (hok : LoginStepOk g act)
    (hs : loginStep g act = some g') : LoginInv g' := by
  -- a call that is not about to set the flag does not take that from another one
  have hkeep : ∀ t pc, g.calls t ≠ .renamed → (∃ u, g.calls u = .renamed) →
      ∃ u, Function.update g.calls t pc u = .renamed := by
    intro t pc ht hex
    obtain ⟨u, hu⟩ := hex
    refine ⟨u, ?_⟩
    rw [update_of_ne (by rintro rfl; exact ht hu), hu]
  revert hs
  fun_cases loginStep g act <;> intro hs
  case case5 t _ =>
    obtain ⟨dir, -, rfl⟩ := Option.map_eq_some_iff.mp hs
    exact fun _ => Or.inr ⟨t, update_self ..⟩
  all_goals
    cases hs
    try intro hfile
  case case1 t _ hpc dir fd hopen =>
    have hlink := g.dir.link_openTrunc_ne (n := StateName.tmp) (m := .state) (by decide)
    rw [hopen] at hlink
    exact (h (hlink ▸ hfile)).imp_right (hkeep t _ (by rw [hpc]; decide))
  case case3 t _ _ hpc => exact (h hfile).imp_right (hkeep t _ (by rw [hpc]; simp))
  case case7 => exact Or.inl rfl
  case case9 t hpc =>
    revert hfile
    split
    · exact fun hfile => (h hfile).imp_right (hkeep t _ (by rw [hpc]; decide))
    · exact h
  case case11 => exact absurd (g.dir.link_unlink_self .state) hfile
  case case13 t hpc => exact Or.inr (hkeep t _ (by rw [hpc]; decide) (hok.resolve_left hfile))

/--
**A login hint that is there is removed by the next `Clear`.**

When no call is running, if no `Clear` reset the flag after a new hint had appeared.
-/
theorem login_hint_removable {dir : RunDir} {acts : List LoginAct}
    (hrun : Guarded loginStep LoginStepOk (newGroupLoginStateStore dir) acts g)
    (hdone : ∀ t, g.calls t = .idle) (hfile : g.dir.link .state ≠ none) :
    g.dirty = true ∧ ∀ t, ∃ g', exec loginStep g [.clear t, .remove t, .storeClean t] = some g' ∧
      g'.dir.link .state = none := by
  have h := hrun.invariant (fun _ _ _ h hok hs => LoginInv.step h hok hs) fun _ => Or.inl rfl
  have hdirty : g.dirty = true := by
    rcases h hfile with hdirty | ⟨t, ht⟩
    · exact hdirty
    · rw [hdone t] at ht
      cases ht
  refine ⟨hdirty, fun t => ?_⟩
  simp [exec, loginStep, hdone, hdirty, GroupLoginStateStore.setCall, FileDir.link_unlink_self]

def loginRequired : GroupLoginStateBody := ⟨"openai", "a", "https://login", 1⟩

theorem login_hint_removable_written :
    ∃ g, g.dirty = true ∧ ∀ t, ∃ g', exec loginStep g [.clear t, .remove t, .storeClean t] = some g' ∧
      g'.dir.link .state = none :=
  ⟨_, @login_hint_removable _ emptyRunDir [.openTmp 0 loginRequired, .write 0, .rename 0, .storeDirty 0]
    (.cons trivial rfl (.cons trivial rfl (.cons trivial rfl (.cons trivial rfl (.nil _)))))
    (by intro t; match t with | 0 | _ + 1 => rfl) (by decide)⟩

/-- A hint is written between the removal of the old one and the reset of the flag. -/
theorem login_hint_kept : ∃ g, exec loginStep (newGroupLoginStateStore emptyRunDir)
      [.clear 0, .remove 0, .openTmp 1 loginRequired, .write 1, .rename 1, .storeDirty 1,
        .storeClean 0] = some g ∧ (∀ t, g.calls t = .idle) ∧ g.dir.link .state ≠ none ∧
      g.dirty = false ∧ ∀ t, loginStep g (.clear t) = some g := by
  refine ⟨_, rfl, ?_, by decide, rfl, ?_⟩
  · intro t
    match t with
    | 0 | 1 | _ + 2 => rfl
  · intro t
    match t with
    | 0 | 1 | _ + 2 => rfl

end AikeyProxy.Proxy
