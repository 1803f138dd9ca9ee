import AikeyProxy.Proof.SessionKeyStore

/-!
# One step under the mutex of an operation

Every step of a request or a timer is a move of the store that the other threads survive, and
the thread knows afterwards what it needs for its next step.
-/

namespace AikeyProxy.Supervisor

open Lib SessionKeyExchange Option

variable (equalFold : String → String → Bool)

variable {unread forgets : Nat → Prop} {s s' : SessionKeyStore} {k : String} {p : Nat}

def EffectOk (s : SessionKeyStore) (k : String) : SessionKeyEffect → Prop
  | .post w => WritebackExact equalFold s w
  | .schedule operationID p => operationID = k ∧ Owned s k p
  | .none | .prune _ => True

/-- What a step of a thread of operation `k` does: a move of the store, with what the thread knows,
reads, sweeps and still forgets afterwards. -/
structure WorkMove (s : SessionKeyStore) (k : String) (unread : Nat → Prop) (confirms : Bool)
    (work : SessionKeyWork) (s' : SessionKeyStore) (work' : SessionKeyWork)
    (effect : SessionKeyEffect) : Prop where
  store : StoreMove equalFold s k unread (fun p => work'.forgets p = true) s'
  reads : ∀ p, confirms = true → work'.reads p = true → work.reads p = true ∨ ¬Expired s p
  sweeps : ∀ p, work'.sweeps p = true → work.sweeps p = true ∨ s.visited work = some p
  forgets : ∀ p, work.forgets p = true →
    work'.forgets p = true ∨ s'.pending.lookup k = none
  effect : EffectOk equalFold s' k effect

attribute [local grind =] SessionKeyWork.reads SessionKeyWork.sweeps SessionKeyWork.forgets WorkOk
  EffectOk

variable {work work' : SessionKeyWork} {effect : SessionKeyEffect} {confirms : Bool}

theorem WorkMove.calm (heffect : EffectOk equalFold s k effect)
    (hreads : ∀ p, work'.reads p = false) (hsweeps : ∀ p, work'.sweeps p = false)
    (hforgets : ∀ p, work.forgets p = false) :
    WorkMove equalFold s k unread confirms work s work' effect where
  store := .same
  reads p _ h := by rw [hreads p] at h; cases h
  sweeps p h := by rw [hsweeps p] at h; cases h
  forgets p h := by rw [hforgets p] at h; cases h
  effect := heffect

theorem WorkMove.reading (hreads : ∀ p, work'.reads p = true → work.reads p = true)
    (hsweeps : ∀ p, work'.sweeps p = false) (hforgets : ∀ p, work.forgets p = false) :
    WorkMove equalFold s k unread confirms work s work' .none where
  store := .same
  reads p _ h := .inl (hreads p h)
  sweeps p h := by rw [hsweeps p] at h; cases h
  forgets p h := by rw [hforgets p] at h; cases h
  effect := trivial

theorem EraseStage.next_cases (stage : EraseStage) :
    stage = .delete ∨ (stage ≠ .delete ∧ ∃ stage', stage.next = some stage') := by
  cases stage with
  | delete => exact .inl rfl
  | accessToken => exact .inr ⟨by decide, .refreshToken, rfl⟩
  | refreshToken => exact .inr ⟨by decide, .sessionKey, rfl⟩
  | sessionKey => exact .inr ⟨by decide, .delete, rfl⟩

theorem WorkMove.forgetStep (stage : EraseStage) (reply : SessionKeyReply) (ho : Owned s k p) :
    WorkMove equalFold s k unread confirms (.forget p stage reply) (s.eraseStep k p stage)
      (match stage.next with
        | some stage => .forget p stage reply
        | none => .unlock reply) .none := by
  rcases stage.next_cases with rfl | ⟨hstage, stage', hnext⟩
  · refine ⟨.delete k p, nofun, nofun, fun p' _ => ?_, trivial⟩
    exact .inr (AList.lookup_erase k s.pending)
  · rw [hnext]
    exact ⟨.erase k p stage hstage (.inl ⟨ho, by simp [SessionKeyWork.forgets]⟩), nofun, nofun,
      fun p' h => .inl h, trivial⟩

theorem WorkMove.sweepErase (cutoff : Int) (todo : List String) (key : String) (stage : EraseStage)
    (hexp : Expired s p) (hunread : unread p) :
    WorkMove equalFold s k unread confirms (.sweepErase cutoff todo key p stage)
      (s.eraseStep key p stage)
      (match stage.next with
        | some stage => .sweepErase cutoff todo key p stage
        | none => .sweepOp cutoff todo key) .none := by
  rcases stage.next_cases with rfl | ⟨hstage, stage', hnext⟩
  · exact ⟨.delete key p, nofun, nofun, nofun, trivial⟩
  · rw [hnext]
    exact ⟨.erase key p stage hstage (.inr ⟨hexp, hunread⟩), nofun, fun p' h => .inl h, nofun,
      trivial⟩

theorem sweepStep_cases {cutoff : Int} {todo : List String}
    (hs : s.sweepStep cutoff todo = some work') (hcut : cutoff + poolSessionTTL ≤ s.now) :
    work' = .load ∨ (∃ rest, work' = .sweep cutoff rest) ∨
      ∃ rest key p, work' = .sweepErase cutoff rest key p .accessToken ∧ Expired s p := by
  revert hs
  fun_cases SessionKeyStore.sweepStep s cutoff todo <;> intro hs <;> cases hs
  next => exact .inl rfl
  next => exact .inr (.inl ⟨_, rfl⟩)
  next q hq hold =>
    refine .inr (.inr ⟨_, _, _, rfl, q, hq, ?_⟩)
    rw [PoolSessionKeyPending.expired, decide_eq_true_eq]
    omega
  next => exact .inr (.inl ⟨_, rfl⟩)

variable {req : SessionKeyRequest}

theorem writebackExact_of_reading {x : SessionKeyExchange} (hr : Reading equalFold s req p x)
    (ha : Approved equalFold req x) :
    WritebackExact equalFold s ⟨req, p, s.latest.lookup req.operationID,
      (x.pending equalFold).writeback x.token.accessToken x.token.refreshToken
        (x.pending equalFold).sessionKey⟩ :=
  ⟨x, hr.made,
    { operation := hr.operation
      latest := hr.latest
      credential := hr.credential
      body_credential := hr.credential
      accessToken := rfl
      refreshToken := rfl
      renewal := rfl
      confirmed := ha.confirm
      acknowledged := ha.mismatch }⟩

variable {q : PoolSessionKeyPending} {choice : SessionKeyChoice}

theorem reviewStep_ok (hq : s.heap p = some q) (hok : WorkOk equalFold s req (.review p)) :
    WorkMove equalFold s req.operationID unread req.confirms (.review p) s (reviewStep req p q)
        .none ∧
      WorkOk equalFold s req (reviewStep req p q) := by
  unfold reviewStep
  split
  · exact ⟨.calm equalFold trivial (fun _ => rfl) (fun _ => rfl) fun _ => rfl, hok.1⟩
  split
  · exact ⟨.calm equalFold trivial (fun _ => rfl) (fun _ => rfl) fun _ => rfl, trivial⟩
  split
  · exact ⟨.calm equalFold trivial (fun _ => rfl) (fun _ => rfl) fun _ => rfl, trivial⟩
  next hcancel hconfirm hack =>
    simp only [Bool.not_eq_true', Bool.not_eq_false, Bool.not_eq_true] at hcancel hconfirm
    obtain ⟨x, hx⟩ := hok.2 (by simp [SessionKeyRequest.confirms, hconfirm, hcancel])
    have hq' := hx.intact
    exact ⟨.reading equalFold (fun _ h => h) (fun _ => rfl) fun _ => rfl, x, hx, hconfirm,
      hcancel, by grind -linarith [pending]⟩

theorem checkStep_ok (hq : s.heap p = some q) (hok : WorkOk equalFold s req (.check p))
    (hcred : q.loginCtx.credentialID = req.credentialID) (hfresh : q.expired s.now = false) :
    WorkMove equalFold s req.operationID unread req.confirms (.check p) s (.review p) .none ∧
      WorkOk equalFold s req (.review p) := by
  obtain ⟨ho, hl, hsound⟩ := hok
  have hnot : ¬Expired s p := by grind -linarith [Expired]
  refine ⟨⟨.same, ?_, nofun, nofun, trivial⟩, ho, ?_⟩
  · intro p' _ hp'
    obtain rfl : p = p' := by simpa [SessionKeyWork.reads] using hp'
    exact .inr hnot
  · intro _
    rcases hsound with ⟨x, hx, hheap⟩ | hexp
    · obtain ⟨y, hy, hop⟩ := ho
      exact ⟨x, hx, by grind -linarith, hl, hheap, by grind -linarith [pending]⟩
    · exact absurd hexp hnot

theorem exchangeStep_made (s : SessionKeyStore) (req : SessionKeyRequest)
    (loginCtx : PoolLoginContext) (token : SessionKeyToken) :
    ∃ x, (s.exchangeStep equalFold req loginCtx token).exchanges s.made = some x ∧
      (s.exchangeStep equalFold req loginCtx token).heap s.made = some (x.pending equalFold) ∧
      x.operationID = req.operationID :=
  ⟨⟨req.operationID, req.sessionKey, loginCtx, token, s.now⟩, Function.update_self ..,
    Function.update_self .., rfl⟩

theorem exchangeStep_ok (loginCtx : PoolLoginContext) (token : SessionKeyToken)
    (hok : WorkOk equalFold s req .exchange) :
    WorkMove equalFold s req.operationID unread req.confirms .exchange
        (s.exchangeStep equalFold req loginCtx token) (.store s.made) .none ∧
      WorkOk equalFold (s.exchangeStep equalFold req loginCtx token) req (.store s.made) := by
  refine ⟨⟨.exchange req loginCtx token rfl hok.1, nofun, nofun, nofun, trivial⟩, ?_⟩
  obtain ⟨x, hx, hheap, hop⟩ := exchangeStep_made equalFold s req loginCtx token
  exact ⟨⟨x, hx, hop⟩, AList.lookup_insert _, .inl ⟨x, hx, hheap⟩, hok.1, hok.2⟩

/-- **One step of a request.** -/
theorem requestStep_ok (hs : requestStep equalFold s req work choice = some (s', work', effect))
    (hfresh : StoreFresh s) (hok : WorkOk equalFold s req work)
    (hmap : work = .load → ∀ p, s.pending.lookup req.operationID = some p →
      Owned s req.operationID p ∧ Latest s req.operationID p ∧ Sound equalFold s p)
    (hunread : ∀ p, work.sweeps p = true → unread p) :
    WorkMove equalFold s req.operationID unread req.confirms work s' work' effect ∧
      WorkOk equalFold s' req work' := by
  revert hs
  fun_cases requestStep equalFold s req work choice <;> intro hs
  case case3 =>
    obtain ⟨w, hw, hres⟩ := map_eq_some_iff.mp hs
    cases hres
    rcases sweepStep_cases hw hok with rfl | ⟨rest, rfl⟩ | ⟨rest, key, p, rfl, hexp⟩ <;>
      refine ⟨⟨.same, ?_, ?_, ?_, ?_⟩, ?_⟩ <;> grind -linarith [SessionKeyStore.visited]
  case case4 cutoff todo key p stage _ =>
    simp only [Option.some.injEq, Prod.mk.injEq] at hs
    obtain ⟨rfl, rfl, rfl⟩ := hs
    have hmove : WorkMove equalFold s req.operationID unread req.confirms _ _ _ _ :=
      .sweepErase equalFold cutoff todo key stage hok.2
        (hunread p (by simp [SessionKeyWork.sweeps]))
    have hexp := hok.2.frame (hmove.store.frame equalFold hfresh)
    have hnow : (s.eraseStep key p stage).now = s.now := by cases stage <;> rfl
    exact ⟨hmove, by grind -linarith⟩
  case case9 =>
    obtain ⟨q, hq, hres⟩ := map_eq_some_iff.mp hs
    split at hres <;> cases hres
    · refine ⟨⟨.same, ?_, ?_, ?_, ?_⟩, ?_⟩ <;> grind -linarith
    · exact checkStep_ok equalFold hq hok (by grind -linarith) (by grind -linarith)
  case case11 =>
    cases hs
    exact exchangeStep_ok equalFold _ _ hok
  case case13 =>
    cases hs
    obtain ⟨ho, hl, hsound, -, hconfirm⟩ := hok
    refine ⟨⟨.store _ ho hl hsound, ?_, ?_, ?_, ?_⟩, ho, hconfirm⟩ <;> grind -linarith
  case case15 =>
    obtain ⟨q, hq, hres⟩ := map_eq_some_iff.mp hs
    cases hres
    exact reviewStep_ok equalFold hq hok
  case case19 | case20 | case21 =>
    obtain ⟨q, hq, hres⟩ := map_eq_some_iff.mp hs
    cases hres
    obtain ⟨x, hx, ha⟩ := hok
    have hq' := hx.intact
    refine ⟨⟨.same, ?_, ?_, ?_, ?_⟩, ?_⟩ <;>
      grind -linarith [writebackExact_of_reading, Reading.owned, pending]
  case case23 =>
    obtain ⟨q, hq, hres⟩ := map_eq_some_iff.mp hs
    cases hres
    refine ⟨⟨.same, ?_, ?_, ?_, ?_⟩, ?_⟩ <;> grind -linarith
  case case24 p stage reply _ =>
    simp only [Option.some.injEq, Prod.mk.injEq] at hs
    obtain ⟨rfl, rfl, rfl⟩ := hs
    have hmove : WorkMove equalFold s req.operationID unread req.confirms _ _ _ _ :=
      .forgetStep equalFold stage reply hok
    have ho := Owned.frame hok (hmove.store.frame equalFold hfresh)
    exact ⟨hmove, by grind -linarith⟩
  case case2 | case12 | case25 => cases hs
  all_goals
    simp only [Option.some.injEq, Prod.mk.injEq] at hs
    obtain ⟨rfl, rfl, rfl⟩ := hs
    refine ⟨⟨.same, ?_, ?_, ?_, ?_⟩, ?_⟩ <;> grind -linarith [SessionKeyRequest.confirms]

theorem timerStep_ok {mine : Nat} (hs : timerStep s k mine work choice = some (s', work', effect))
    (ho : Owned s k mine) (hok : TimerOk mine work) :
    WorkMove equalFold s k unread false work s' work' effect ∧ TimerOk mine work' := by
  rw [timerStep.eq_def] at hs
  split at hs
  case h_1 => cases hs; refine ⟨⟨.same, ?_, ?_, ?_, ?_⟩, ?_⟩ <;> grind -linarith [TimerOk]
  case h_2 =>
    obtain ⟨q, hq, hres⟩ := map_eq_some_iff.mp hs
    split at hres <;> cases hres <;> refine ⟨⟨.same, ?_, ?_, ?_, ?_⟩, ?_⟩ <;>
      grind -linarith [TimerOk]
  case h_3 p stage reply =>
    cases hs
    obtain rfl : p = mine := hok
    exact ⟨.forgetStep equalFold stage reply ho, by grind -linarith [TimerOk]⟩
  case h_4 => cases hs

end AikeyProxy.Supervisor
