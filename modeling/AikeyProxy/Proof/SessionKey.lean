import AikeyProxy.Proof.SessionKeyStep
import AikeyProxy.Supervisor.Revocation

/-!
# What a session-key write-back carries

The mutex of an operation keeps its own requests and its timer apart, but not the sweep of another
operation's request, which erases what has outlived its time. A confirming request looks at the
clock before it fetches a bearer and reads the token after it. Without a sweep that visits the
result in between, it reads what the exchange gave.
-/

namespace AikeyProxy.Supervisor

open Lib List SessionKeyThread Option

variable (equalFold : String → String → Bool)

variable {mine : String → Prop} {unread : Nat → Prop} {s s' : SessionKeyStore}
  {work work' : SessionKeyWork} {effect : SessionKeyEffect}

variable {w w' : SessionKeyWorld} {t new : SessionKeyThread} {i p o : Nat} {ops : KeyLocks String}
  {pc : SessionKeyPc} {choice : SessionKeyChoice}

/-! ## The locks

They are kept whatever a sweep decides. -/

def SessionKeyLocks (w : SessionKeyWorld) : Prop :=
  KeyLocks.Inv SessionKeyThread.key SessionKeyThread.grip w.ops w.threads

theorem SessionKeyLocks.apply_effect (h : SessionKeyLocks w) : SessionKeyLocks (w.apply effect) := by
  cases effect with
  | none | post => exact h
  | prune key => exact KeyLocks.Inv.prune h key
  | schedule => exact KeyLocks.Inv.spawn h rfl

theorem SessionKeyLocks.thread (h : SessionKeyLocks w) (hi : w.threads[i]? = some t)
    (hs : threadStep equalFold w i t choice = some w') : SessionKeyLocks w' := by
  obtain ⟨caller, pc⟩ := t
  unfold threadStep at hs
  split at hs <;> rename_i hpc <;> obtain rfl : pc = _ := hpc
  case h_1 =>
    split at hs <;> cases hs
    exact KeyLocks.Inv.stay h hi rfl rfl
  case h_2 =>
    have hgrip : SessionKeyThread.grip
        ⟨caller, .lock (w.ops.acquire (SessionKeyThread.key ⟨caller, .acquire⟩)).2⟩ = .waits _ := rfl
    cases hs
    exact KeyLocks.Inv.acquire h hi rfl hgrip
  case h_3 o =>
    obtain ⟨ops, hops, rfl⟩ := map_eq_some_iff.mp hs
    exact KeyLocks.Inv.lock h hi rfl rfl rfl hops
  case h_4 o reply =>
    cases hs
    exact KeyLocks.Inv.unlock h hi rfl rfl rfl
  case h_5 o work _ =>
    obtain ⟨⟨store, work', effect⟩, hwork, rfl⟩ := map_eq_some_iff.mp hs
    apply apply_effect
    exact KeyLocks.Inv.stay h hi rfl rfl
  case h_6 o reply =>
    cases hs
    exact KeyLocks.Inv.unref h hi rfl rfl _
  case h_7 => cases hs

theorem SessionKeyLocks.step {a : SessionKeyAct} (h : SessionKeyLocks w)
    (hs : sessionKeyStep equalFold w a = some w') : SessionKeyLocks w' := by
  cases a with
  | request req =>
    cases hs
    refine KeyLocks.Inv.spawn h ?_
    unfold SessionKeyRequest.start
    grind -linarith [SessionKeyThread.grip]
  | pass duration =>
    cases hs
    exact h
  | thread i choice =>
    simp only [sessionKeyStep] at hs
    split at hs
    · cases hs
    next t hi => exact h.thread equalFold hi hs

/-! ## Whole runs -/

structure SessionKeyInv (w : SessionKeyWorld) : Prop where
  fresh : StoreFresh w.store
  pend : PendOk equalFold w.store (Forgotten w.threads)
  threads : ∀ t ∈ w.threads, ThreadOk equalFold w.store t
  apart : ∀ t ∈ w.threads, ∀ t' ∈ w.threads, ∀ p, t.sweeps p = true → t'.reads p = false
  log : ∀ sent ∈ w.writebacks, WritebackExact equalFold w.store sent

theorem SessionKeyThread.inside_of_sweeps (h : t.sweeps p = true) :
    ∃ o cutoff todo key stage, t.pc = .inside o (.sweepErase cutoff todo key p stage) := by
  unfold sweeps SessionKeyWork.sweeps at h
  grind -linarith

theorem SessionKeyThread.reads_of_sweeps (h : t.sweeps p = true) (p' : Nat) :
    t.reads p' = false := by
  obtain ⟨o, cutoff, todo, key, stage, hpc⟩ := inside_of_sweeps h
  grind -linarith [reads, SessionKeyWork.reads]

theorem ThreadOk.frame (h : ThreadOk equalFold s t) (hf : Frame mine unread s s')
    (hout : mine t.key → t.grip.inAny = false)
    (hread : ∀ p, t.reads p = true → ¬unread p) : ThreadOk equalFold s' t := by
  obtain ⟨caller, pc⟩ := t
  cases caller with
  | request req =>
    cases pc with
    | inside o work =>
      refine WorkOk.frame equalFold h hf (fun hmine => ?_) fun p hc hr => hread p ?_
      · cases hout hmine
      · simp [reads, hc, hr]
    | _ => trivial
  | timer k p =>
    cases pc with
    | inside o work => exact ⟨h.1.frame hf, h.2⟩
    | armed | acquire | lock | unref | done => exact Owned.frame h hf

theorem SessionKeyInv.move (h : SessionKeyInv equalFold w) (hi : w.threads[i]? = some t)
    (hf : Frame mine (fun p => ∀ t ∈ w.threads, t.reads p = false) w.store s')
    (hout : ∀ t' ∈ w.threads.set i new, t' = new ∨ (t' ∈ w.threads ∧ (mine t'.key → t'.grip.inAny = false)))
    (hfresh : StoreFresh s') (hpend : PendOk equalFold s' (Forgotten (w.threads.set i new)))
    (hnew : ThreadOk equalFold s' new)
    (hreads : ∀ p, new.reads p = true → t.reads p = true ∨ ¬Expired w.store p)
    (hsweeps : ∀ p, new.sweeps p = true → t.sweeps p = true ∨ ∀ t ∈ w.threads, t.reads p = false) :
    SessionKeyInv equalFold
      { w with ops, store := s', threads := w.threads.set i new } := by
  have htmem := mem_of_getElem? hi
  refine ⟨hfresh, hpend, ?_, ?_, fun sent hsent => (h.log sent hsent).frame equalFold hf⟩
  · intro t' ht'
    rcases hout t' ht' with rfl | ⟨hmem, hkey⟩
    · exact hnew
    · exact (h.threads t' hmem).frame equalFold hf hkey (by grind -linarith)
  · -- a result is swept only once nobody reads it, and read only before it has expired
    have hexpired : ∀ t ∈ w.threads, ∀ p, t.sweeps p = true → Expired w.store p := by
      intro t ht p hsweep
      obtain ⟨o, cutoff, todo, key, stage, hpc⟩ := inside_of_sweeps hsweep
      have hok := h.threads t ht
      grind -linarith [ThreadOk, WorkOk, TimerOk]
    have hapart := h.apart
    intro t₁ h₁ t₂ h₂ p hsweep
    grind -linarith [mem_set_or, reads_of_sweeps]

theorem Forgotten.set {ts : List SessionKeyThread} {k : String} (h : Forgotten ts k p)
    (hi : ts[i]? = some t)
    (hmove : t.key = k → t.forgets p = true →
      Forgotten (ts.set i new) k p ∨ s.pending.lookup k = none) :
    Forgotten (ts.set i new) k p ∨ s.pending.lookup k = none := by
  grind -linarith [Forgotten, mem_set_of_mem]

section

variable (h : SessionKeyInv equalFold w)

include h

/-- A thread that leaves the store alone, and has nothing to do with any result before or
afterwards. -/
theorem SessionKeyInv.pass_by (hi : w.threads[i]? = some t)
    (hnew : ThreadOk equalFold w.store { t with pc })
    (hreads : ∀ p, SessionKeyThread.reads { t with pc } p = false)
    (hsweeps : ∀ p, SessionKeyThread.sweeps { t with pc } p = false)
    (hforgets : ∀ p, t.forgets p = false) :
    SessionKeyInv equalFold ({ w with ops }.setPc i t pc) := by
  have hsame : StoreMove equalFold w.store t.key (fun _ => True) (fun _ => False) w.store := .same
  refine h.move equalFold hi (.refl (fun _ => False) _ _) (by grind -linarith [mem_set_or]) h.fresh ?_
    hnew (by grind -linarith) (by grind -linarith)
  refine hsame.pend equalFold h.fresh h.pend (fun k p hfor => ?_) (fun _ hno => hno.elim)
  exact hfor.set hi (by grind -linarith)

theorem SessionKeyInv.entry (hl : SessionKeyLocks w) (hi : w.threads[i]? = some t)
    (hin : t.grip.inAny = true) (hforgets : ∀ p, t.forgets p = false)
    (hp : w.store.pending.lookup t.key = some p) :
    Owned w.store t.key p ∧ Latest w.store t.key p ∧ Sound equalFold w.store p := by
  obtain ⟨ho, hlatest, hsound⟩ := h.pend t.key p hp
  refine ⟨ho, hlatest, hsound.resolve_right ?_⟩
  rintro ⟨t', ht', hkey, hfor⟩
  -- whoever forgets the entry is inside for the same operation
  rcases hl.alone_mem hi hin ht' with rfl | hout
  · grind -linarith
  · have hno := hout hkey
    unfold forgets at hfor
    grind -linarith [SessionKeyThread.grip, Grip.inAny]

theorem workStep_ok (hl : SessionKeyLocks w)
    (hi : w.threads[i]? = some t) (hpc : t.pc = .inside o work)
    (hs : workStep equalFold w.store t.caller work choice = some (s', work', effect)) :
    ∃ confirms, WorkMove equalFold w.store t.key (fun p => ∀ t ∈ w.threads, t.reads p = false)
        confirms work s' work' effect ∧ ThreadOk equalFold s' { t with pc := .inside o work' } ∧
      (∀ p, SessionKeyThread.reads { t with pc := .inside o work' } p = true →
        t.reads p = true ∨ ¬Expired w.store p) ∧
      ∀ p, SessionKeyThread.sweeps { t with pc := .inside o work' } p = true →
        t.sweeps p = true ∨ w.visits i = some p := by
  have hmem := mem_of_getElem? hi
  have hok := h.threads t hmem
  have hunread : ∀ p, work.sweeps p = true → ∀ t ∈ w.threads, t.reads p = false := by
    intro p hsweep t' ht'
    exact h.apart t hmem t' ht' p (by rw [sweeps, hpc]; exact hsweep)
  obtain ⟨caller, pc⟩ := t
  obtain rfl : pc = _ := hpc
  have hentry := fun (hload : work = .load) p hp =>
    h.entry (p := p) equalFold hl hi rfl (by subst hload; exact fun _ => rfl) hp
  cases caller with
  | request req =>
    obtain ⟨hmove, hnew⟩ := requestStep_ok equalFold hs h.fresh hok hentry hunread
    refine ⟨req.confirms, hmove, hnew, ?_, ?_⟩
    · have hreads := hmove.reads
      grind -linarith [reads]
    · intro p hp
      refine (hmove.sweeps p hp).imp_right fun hvisit => ?_
      rw [SessionKeyWorld.visits, hi]
      exact hvisit
  | timer k mine =>
    obtain ⟨hmove, hnew⟩ : WorkMove equalFold w.store k
        (fun p => ∀ t ∈ w.threads, t.reads p = false) false work s' work' effect ∧
        TimerOk mine work' :=
      timerStep_ok equalFold hs hok.1 hok.2
    refine ⟨false, hmove, ⟨hok.1.frame (hmove.store.frame equalFold h.fresh), hnew⟩, ?_, ?_⟩
    · intro p hp
      cases hp
    · intro p hp
      obtain ⟨o', cutoff, todo, key, stage, hsweep⟩ := inside_of_sweeps hp
      cases hsweep
      exact hnew.elim

theorem SessionKeyInv.spawn
    (hnew : ThreadOk equalFold w.store new) (hreads : ∀ p, new.reads p = false)
    (hsweeps : ∀ p, new.sweeps p = false) :
    SessionKeyInv equalFold { w with threads := w.threads ++ [new] } := by
  obtain ⟨hfresh, hpend, hthreads, hapart, hlog⟩ := h
  refine ⟨hfresh, ?_, by grind -linarith, by grind -linarith, hlog⟩
  intro k p hp
  obtain ⟨ho, hl, hsound⟩ := hpend k p hp
  exact ⟨ho, hl, by grind -linarith [Forgotten]⟩

theorem SessionKeyInv.apply_effect {k : String}
    (heffect : EffectOk equalFold w.store k effect) : SessionKeyInv equalFold (w.apply effect) := by
  cases effect with
  | none => exact h
  | prune key => exact { h with }
  | schedule operationID p =>
    obtain ⟨rfl, ho⟩ := heffect
    exact h.spawn equalFold ho (fun _ => rfl) (fun _ => rfl)
  | post sent =>
    refine { h with log := fun sent' hsent => ?_ }
    rcases mem_cons.mp hsent with rfl | hold
    · exact heffect
    · exact h.log sent' hold

theorem SessionKeyInv.inside (hl : SessionKeyLocks w)
    (hi : w.threads[i]? = some t) (hpc : t.pc = .inside o work)
    (hs : workStep equalFold w.store t.caller work choice = some (s', work', effect))
    (hvisit : ∀ p, w.visits i = some p → ∀ t ∈ w.threads, t.reads p = false) :
    SessionKeyInv equalFold
      (({ w with store := s' }.setPc i t (.inside o work')).apply effect) := by
  obtain ⟨confirms, hmove, hnew, hreads, hsweeps⟩ := workStep_ok equalFold h hl hi hpc hs
  have hin : t.grip.inAny = true := by
    rw [SessionKeyThread.grip, hpc]
    rfl
  refine SessionKeyInv.apply_effect equalFold ?_ hmove.effect
  refine h.move equalFold hi (hmove.store.frame equalFold h.fresh) (hl.alone hi hin _)
    (hmove.store.fresh equalFold h.fresh) ?_ hnew hreads
    fun p hp => (hsweeps p hp).imp_right (hvisit p)
  refine hmove.store.pend equalFold h.fresh h.pend ?_ ?_
  · intro k p hfor
    refine hfor.set hi fun hkey hold => ?_
    rw [forgets, hpc] at hold
    subst hkey
    rcases hmove.forgets p hold with hstill | hgone
    · exact .inl ⟨_, mem_set_self hi _, rfl, hstill⟩
    · exact .inr hgone
  · intro p hp
    exact ⟨_, mem_set_self hi _, rfl, hp⟩

end

theorem ThreadOk.outside (h : ThreadOk equalFold s t) (hpc : ∀ o work, pc ≠ .inside o work) :
    ThreadOk equalFold s { t with pc } := by
  grind -linarith [ThreadOk]

theorem ThreadOk.begins (h : ThreadOk equalFold s t) (hpc : t.pc = .lock o) :
    ThreadOk equalFold s { t with pc := .inside o t.caller.begins } := by
  grind -linarith [ThreadOk, WorkOk, TimerOk, SessionKeyCaller.begins]

theorem begins_idle (caller : SessionKeyCaller) (p : Nat) :
    caller.begins.reads p = false ∧ caller.begins.sweeps p = false := by
  cases caller <;> exact ⟨rfl, rfl⟩

theorem SessionKeyThread.reads_eq_false {caller : SessionKeyCaller}
    (h : ∀ o work, pc = .inside o work → work.reads p = false) :
    SessionKeyThread.reads ⟨caller, pc⟩ p = false := by
  grind -linarith [reads]

theorem SessionKeyInv.pass_outside (h : SessionKeyInv equalFold w) (hi : w.threads[i]? = some t)
    (hpc : ∀ o work, pc ≠ .inside o work) (hforgets : ∀ p, t.forgets p = false) :
    SessionKeyInv equalFold ({ w with ops }.setPc i t pc) := by
  have hok := h.threads t (mem_of_getElem? hi)
  refine h.pass_by equalFold hi (hok.outside equalFold hpc) ?_ ?_ hforgets
  · exact fun p => reads_eq_false fun o work heq => absurd heq (hpc o work)
  · intro p
    cases pc with
    | inside o work => exact absurd rfl (hpc o work)
    | armed | acquire | lock | unref | done => rfl

/-- **One step of a thread.** -/
theorem SessionKeyInv.thread (h : SessionKeyInv equalFold w) (hl : SessionKeyLocks w)
    (hi : w.threads[i]? = some t) (hs : threadStep equalFold w i t choice = some w')
    (hvisit : ∀ p, w.visits i = some p → ∀ t ∈ w.threads, t.reads p = false) :
    SessionKeyInv equalFold w' := by
  obtain ⟨caller, pc⟩ := t
  unfold threadStep at hs
  split at hs <;> rename_i hpc <;> obtain rfl : pc = _ := hpc
  case h_1 =>
    split at hs <;> cases hs
    exact h.pass_outside equalFold hi (by simp) fun _ => rfl
  case h_2 | h_4 | h_6 =>
    cases hs
    exact h.pass_outside equalFold hi (by simp) fun _ => rfl
  case h_3 o =>
    obtain ⟨ops, hops, rfl⟩ := map_eq_some_iff.mp hs
    have hok := h.threads _ (mem_of_getElem? hi)
    have hbegins := begins_idle caller
    exact h.pass_by equalFold hi (hok.begins equalFold rfl) (by grind -linarith [reads_eq_false])
      (fun p => (hbegins p).2) fun _ => rfl
  case h_5 o work _ =>
    obtain ⟨⟨store, work', effect⟩, hwork, rfl⟩ := map_eq_some_iff.mp hs
    exact h.inside equalFold hl hi rfl hwork hvisit
  case h_7 => cases hs

theorem SessionKeyInv.init : SessionKeyInv equalFold SessionKeyWorld.init where
  fresh := fun _ _ => ⟨rfl, rfl⟩
  pend := fun k p hp => by cases hp
  threads := fun t ht => by cases ht
  apart := fun t ht => by cases ht
  log := fun sent hsent => by cases hsent

theorem SessionKeyInv.later (h : SessionKeyInv equalFold w) (duration : Nat) :
    SessionKeyInv equalFold { w with store.now := w.store.now + duration } := by
  have hf : Frame (fun _ => False) (fun _ => False) w.store
      { w.store with now := w.store.now + duration } := by
    constructor <;> grind -linarith
  refine ⟨h.fresh, ?_, ?_, h.apart, fun sent hsent => (h.log sent hsent).frame _ hf⟩
  · intro k p hp
    obtain ⟨ho, hl, hsound⟩ := h.pend k p hp
    exact ⟨ho, hl, hsound.imp_left fun hs => hs.frame equalFold hf ho id⟩
  · exact fun t ht => (h.threads t ht).frame equalFold hf (fun hno => hno.elim) fun _ _ hno => hno

theorem SessionKeyInv.step {a : SessionKeyAct} (h : SessionKeyInv equalFold w)
    (hl : SessionKeyLocks w) (hok : SessionKeyStepOk w a) (hs : sessionKeyStep equalFold w a = some w') :
    SessionKeyInv equalFold w' := by
  cases a with
  | request req =>
    cases hs
    unfold SessionKeyRequest.start
    split
    · exact h.spawn equalFold trivial (fun _ => rfl) (fun _ => rfl)
    · split <;> exact h.spawn equalFold trivial (fun _ => rfl) (fun _ => rfl)
  | pass duration =>
    cases hs
    exact h.later equalFold duration
  | thread i choice =>
    simp only [sessionKeyStep] at hs
    split at hs
    · cases hs
    next t hi =>
      refine h.thread equalFold hl hi hs ?_
      intro p hp t' ht'
      have hall : (w.visits i).all (fun p => w.threads.all fun t => !t.reads p) = true := hok
      rw [hp] at hall
      simpa using all_eq_true.mp hall t' ht'

/-! ## The main result -/

/-- **Session-key write-backs are exact** in every run whose steps meet `SessionKeyStepOk`. -/
theorem session_key_writebacks_exact (acts : List SessionKeyAct) (w : SessionKeyWorld)
    (hrun : Guarded (sessionKeyStep equalFold) SessionKeyStepOk SessionKeyWorld.init acts w) :
    ∀ sent ∈ w.writebacks, WritebackExact equalFold w.store sent := by
  have hinv : SessionKeyLocks w ∧ SessionKeyInv equalFold w :=
    hrun.invariant (I := fun w => SessionKeyLocks w ∧ SessionKeyInv equalFold w)
      (fun _ _ _ ⟨hl, hi⟩ hok hs => ⟨hl.step equalFold hs, hi.step equalFold hl hok hs⟩)
      ⟨KeyLocks.Inv.init, SessionKeyInv.init equalFold⟩
  exact hinv.2.log

/-! ### Two runs

A request exchanges a key for a token of the expected account, and a second one confirms it. -/

def exampleRequest (operationID : String) (confirm : Bool) : SessionKeyRequest where
  credentialID := "credential"
  sessionKey := "key"
  operationID := operationID
  confirm := confirm
  cancel := false
  identityMismatchConfirmed := false

def exampleExchange : List SessionKeyAct :=
  [.request (exampleRequest "operation-number-1" false), .thread 0 .go, .thread 0 .go,
    .thread 0 (.order []), .thread 0 .go, .thread 0 .go,
    .thread 0 (.exchanged
      ⟨"credential", "group", "account", "openai", "openai_compatible", "a@b.c", ""⟩
      ⟨"access", "refresh", 3600, ⟨"A@b.c", "external"⟩, none⟩),
    .thread 0 .go, .thread 0 .go, .thread 0 .go, .thread 0 .go, .thread 0 .go]

def exampleConfirm : List SessionKeyAct :=
  [.request (exampleRequest "operation-number-1" true), .thread 2 .go, .thread 2 .go,
    .thread 2 (.order ["operation-number-1"]), .thread 2 .go, .thread 2 .go, .thread 2 .go,
    .thread 2 .go, .thread 2 .go]

theorem confirmed_token_written_back :
    ∃ w, Guarded (sessionKeyStep Supervisor.equalFold) SessionKeyStepOk SessionKeyWorld.init
        (exampleExchange ++ exampleConfirm ++
          [.thread 2 (.bearer .ok), .thread 2 .go, .thread 2 .go, .thread 2 .go,
            .thread 2 (.posted true), .thread 2 (.synced true)]) w ∧
      w.writebacks.length = 1 ∧
      ∀ sent ∈ w.writebacks, WritebackExact Supervisor.equalFold w.store sent := by
  have hexec : (guardedExec (sessionKeyStep Supervisor.equalFold) SessionKeyStepOk
      SessionKeyWorld.init (exampleExchange ++ exampleConfirm ++
        [.thread 2 (.bearer .ok), .thread 2 .go, .thread 2 .go, .thread 2 .go,
          .thread 2 (.posted true), .thread 2 (.synced true)])).map
      (fun w => w.writebacks.length) = some 1 := by
    decide +kernel
  obtain ⟨w, hw, hlen⟩ := map_eq_some_iff.mp hexec
  have hrun := Guarded.of_guardedExec hw
  exact ⟨w, hrun, hlen, session_key_writebacks_exact _ _ w hrun⟩

/-- While a request that confirms waits for its bearer, another operation sweeps, and the access
token it reads is empty. -/
theorem swept_token_written_back :
    ¬ ∀ (equalFold : String → String → Bool) (acts : List SessionKeyAct) (w : SessionKeyWorld),
      exec (sessionKeyStep equalFold) SessionKeyWorld.init acts = some w →
      ∀ sent ∈ w.writebacks, WritebackExact equalFold w.store sent := by
  intro hall
  have hexec : (exec (sessionKeyStep Supervisor.equalFold) SessionKeyWorld.init
      (exampleExchange ++ [.pass poolSessionTTL] ++ exampleConfirm ++
        [.pass 1, .request (exampleRequest "operation-number-2" false), .thread 3 .go,
          .thread 3 .go, .thread 3 (.order ["operation-number-1"]), .thread 3 .go, .thread 3 .go,
          .thread 2 (.bearer .ok), .thread 2 .go, .thread 2 .go, .thread 2 .go,
          .thread 2 (.posted true)])).map
      (fun w => (w.writebacks.map fun sent => (sent.exchange, sent.body.accessToken),
        (w.store.exchanges 0).map fun x => x.token.accessToken)) =
      some ([(0, "")], some "access") := by
    decide +kernel
  obtain ⟨w, hw, hvals⟩ := map_eq_some_iff.mp hexec
  obtain ⟨hsent, hmade⟩ := Prod.mk.inj hvals
  obtain ⟨sent, hmem, hbody⟩ : ∃ sent ∈ w.writebacks,
      (sent.exchange, sent.body.accessToken) = (0, "") := by
    have hone : ((0, "") : Nat × String) ∈
        w.writebacks.map fun sent => (sent.exchange, sent.body.accessToken) := by
      rw [hsent]
      exact mem_singleton_self _
    exact mem_map.mp hone
  obtain ⟨hexchange, hempty⟩ := Prod.mk.inj hbody
  obtain ⟨x, hx, hof⟩ := hall _ _ w hw sent hmem
  rw [hexchange] at hx
  rw [hx] at hmade
  have hgiven : x.token.accessToken = "access" := some.inj hmade
  have htoken := hof.accessToken
  rw [hempty, hgiven] at htoken
  exact absurd htoken (by decide)

/-! ## One at a time -/

/-- At most one request or timer is inside for an operation, and a lock counts its users. -/
structure Serialised (w : SessionKeyWorld) : Prop where
  alone : ∀ (i j : Nat) (t u : SessionKeyThread), w.threads[i]? = some t → w.threads[j]? = some u →
    t.key = u.key → t.grip.inAny = true → u.grip.inAny = true → i = j
  refs : ∀ o, (w.ops.objs o).refs = w.threads.countP fun t => t.grip.holds o

variable {equalFold}

/-- **Work on an operation is serialised** in every run. -/
theorem session_key_operations_serialised {acts : List SessionKeyAct}
    (hrun : exec (sessionKeyStep equalFold) SessionKeyWorld.init acts = some w) : Serialised w := by
  have h : SessionKeyLocks w :=
    exec_invariant (fun _ _ _ hi hs => hi.step equalFold hs) hrun KeyLocks.Inv.init
  refine ⟨?_, h.refs⟩
  intro i j t u hi hj hkey hin hin'
  by_contra hij
  -- were `t` elsewhere, `u` would still be inside
  rw [← getElem?_set_ne (a := ⟨t.caller, .armed⟩) hij] at hj
  rcases h.alone hi hin ⟨t.caller, .armed⟩ u (mem_of_getElem? hj) with rfl | ⟨-, hout⟩
  · cases hin'
  · rw [hout hkey.symm] at hin'
    cases hin'

theorem exampleExchange_serialised :
    ∃ w, exec (sessionKeyStep Supervisor.equalFold) SessionKeyWorld.init exampleExchange = some w ∧
      Serialised w :=
  have hrun : exec (sessionKeyStep Supervisor.equalFold) SessionKeyWorld.init exampleExchange =
    some _ := rfl
  ⟨_, hrun, session_key_operations_serialised hrun⟩

end AikeyProxy.Supervisor
