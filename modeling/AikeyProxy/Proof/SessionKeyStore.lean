import AikeyProxy.Supervisor.SessionKey

/-!
# Results of session keys, and who may change them

What a request knows of the result it works on, and which changes of the store by somebody else it
survives. The mutex of an operation keeps its own requests and its timer apart; the sweep of another
operation's request changes only what has expired, and under the condition here only what nobody
reads.
-/

namespace AikeyProxy.Supervisor

open Lib SessionKeyStore AList

variable (equalFold : String → String → Bool)

/-! ## The property and its condition -/

/-- A write-back is of the last exchange of the operation and for the credential of the request that
confirmed it, and for the token of a different account with the acknowledgement. -/
structure WritebackOf (x : SessionKeyExchange) (w : SentWriteback) : Prop where
  operation : x.operationID = w.req.operationID
  latest : w.latest = some w.exchange
  credential : x.loginCtx.credentialID = w.req.credentialID
  body_credential : w.body.credentialID = w.req.credentialID
  accessToken : w.body.accessToken = x.token.accessToken
  refreshToken : w.body.refreshToken = x.token.refreshToken
  renewal : w.body.renewalCredential = if x.retainsKey equalFold then x.sessionKey else ""
  confirmed : w.req.confirm = true
  acknowledged : sessionKeyIdentityMatches equalFold x.loginCtx x.token.identity = false →
    w.req.identityMismatchConfirmed = true

section

variable (s : SessionKeyStore)

def WritebackExact (w : SentWriteback) : Prop :=
  ∃ x, s.exchanges w.exchange = some x ∧ WritebackOf equalFold x w

def SessionKeyRequest.confirms (req : SessionKeyRequest) : Bool := req.confirm && !req.cancel

/-- Between the look at the clock and the last read of the result `p`. -/
def SessionKeyWork.reads (p : Nat) : SessionKeyWork → Bool
  | .review p' | .bearer p' | .readAccess p' | .readRefresh p' _ | .readKey p' _ _ => p' == p
  | _ => false

def SessionKeyThread.reads (t : SessionKeyThread) (p : Nat) : Bool :=
  match t.caller, t.pc with
  | .request req, .inside _ work => req.confirms && work.reads p
  | _, _ => false

/-- The result that the next step of a sweep decides to erase. -/
def SessionKeyStore.visited : SessionKeyWork → Option Nat
  | .sweep cutoff todo =>
    match s.sweepStep cutoff todo with
    | some (.sweepErase _ _ _ p _) => some p
    | _ => none
  | _ => none

def SessionKeyWorld.visits (w : SessionKeyWorld) (i : Nat) : Option Nat :=
  match w.threads[i]? with
  | some ⟨.request _, .inside _ work⟩ => w.store.visited work
  | _ => none

/-- A sweep that decides to erase a result finds no confirming request between its look at the clock
and its last read of that result. -/
def SessionKeyStepOk (w : SessionKeyWorld) : SessionKeyAct → Prop
  | .thread i _ => (w.visits i).all (fun p => w.threads.all fun t => !t.reads p) = true
  | _ => True

instance (w : SessionKeyWorld) : ∀ a, Decidable (SessionKeyStepOk w a)
  | .thread .. => inferInstanceAs (Decidable (_ = _))
  | .request _ | .pass _ => isTrue trivial

/-! ## What a thread knows of the store -/

def Owned (k : String) (p : Nat) : Prop :=
  ∃ x, s.exchanges p = some x ∧ x.operationID = k

def Latest (k : String) (p : Nat) : Prop := s.latest.lookup k = some p

def Intact (p : Nat) : Prop :=
  ∃ x, s.exchanges p = some x ∧ s.heap p = some (x.pending equalFold)

def Expired (p : Nat) : Prop :=
  ∃ q, s.heap p = some q ∧ q.expired s.now = true

def Sound (p : Nat) : Prop := Intact equalFold s p ∨ Expired s p

/-- A request works on the untouched result of its operation's last exchange. -/
structure Reading (s : SessionKeyStore) (req : SessionKeyRequest) (p : Nat)
    (x : SessionKeyExchange) : Prop where
  made : s.exchanges p = some x
  operation : x.operationID = req.operationID
  latest : Latest s req.operationID p
  intact : s.heap p = some (x.pending equalFold)
  credential : x.loginCtx.credentialID = req.credentialID

structure Approved (req : SessionKeyRequest) (x : SessionKeyExchange) : Prop where
  confirm : req.confirm = true
  cancel : req.cancel = false
  mismatch : sessionKeyIdentityMatches equalFold x.loginCtx x.token.identity = false →
    req.identityMismatchConfirmed = true

def WorkOk (req : SessionKeyRequest) : SessionKeyWork → Prop
  | .sweep cutoff _ | .sweepOp cutoff _ _ => cutoff + poolSessionTTL ≤ s.now
  | .sweepErase cutoff _ _ p _ => cutoff + poolSessionTTL ≤ s.now ∧ Expired s p
  | .check p =>
    Owned s req.operationID p ∧ Latest s req.operationID p ∧ Sound equalFold s p
  | .exchange => s.pending.lookup req.operationID = none ∧ req.confirm = false
  | .store p =>
    Owned s req.operationID p ∧ Latest s req.operationID p ∧ Sound equalFold s p ∧
      s.pending.lookup req.operationID = none ∧ req.confirm = false
  | .schedule p => Owned s req.operationID p ∧ req.confirm = false
  | .review p =>
    Owned s req.operationID p ∧ (req.confirms = true → ∃ x, Reading equalFold s req p x)
  | .bearer p | .readAccess p => ∃ x, Reading equalFold s req p x ∧ Approved equalFold req x
  | .readRefresh p accessToken =>
    ∃ x, Reading equalFold s req p x ∧ Approved equalFold req x ∧
      accessToken = x.token.accessToken
  | .readKey p accessToken refreshToken =>
    ∃ x, Reading equalFold s req p x ∧ Approved equalFold req x ∧
      accessToken = x.token.accessToken ∧ refreshToken = x.token.refreshToken
  | .post p body =>
    Owned s req.operationID p ∧
      WritebackExact equalFold s ⟨req, p, s.latest.lookup req.operationID, body⟩
  | .sync p | .forget p _ _ => Owned s req.operationID p
  | _ => True

def TimerOk (mine : Nat) : SessionKeyWork → Prop
  | .timerCheck p | .forget p _ _ => p = mine
  | .timerLoad | .unlock _ => True
  | _ => False

def ThreadOk (t : SessionKeyThread) : Prop :=
  match t.caller, t.pc with
  | .request req, .inside _ work => WorkOk equalFold s req work
  | .request _, _ => True
  | .timer k mine, .inside _ work => Owned s k mine ∧ TimerOk mine work
  | .timer k mine, _ => Owned s k mine

end

theorem Owned.unique {s : SessionKeyStore} {k k' : String} {p : Nat} (h : Owned s k p)
    (h' : Owned s k' p) : k = k' := by
  grind -linarith [Owned]

theorem Reading.owned {s : SessionKeyStore} {req : SessionKeyRequest} {p : Nat}
    {x : SessionKeyExchange} (h : Reading equalFold s req p x) : Owned s req.operationID p :=
  ⟨x, h.made, h.operation⟩

/-! ## What others may do to the store -/

/-- A change by somebody who works for the operations `mine`: their results may change, and of other
operations those that have expired and nobody reads. -/
structure Frame (mine : String → Prop) (unread : Nat → Prop) (s s' : SessionKeyStore) : Prop where
  now : s.now ≤ s'.now
  exchanges : ∀ p x, s.exchanges p = some x → s'.exchanges p = some x
  latest : ∀ k, ¬mine k → s'.latest.lookup k = s.latest.lookup k
  vacant : ∀ k, ¬mine k → s.pending.lookup k = none → s'.pending.lookup k = none
  created : ∀ p q, s.heap p = some q → ∃ q', s'.heap p = some q' ∧ q'.createdAt = q.createdAt
  heap : ∀ p q, s.heap p = some q →
    s'.heap p = some q ∨ (∃ k, mine k ∧ Owned s k p) ∨ (Expired s p ∧ unread p)

variable {mine : String → Prop} {unread : Nat → Prop} {s s' : SessionKeyStore} {k : String}
  {p : Nat}

theorem Owned.frame (h : Owned s k p) (hf : Frame mine unread s s') : Owned s' k p := by
  obtain ⟨x, hx, hk⟩ := h
  exact ⟨x, hf.exchanges p x hx, hk⟩

theorem Expired.frame (h : Expired s p) (hf : Frame mine unread s s') : Expired s' p := by
  obtain ⟨q, hq, hexp⟩ := h
  obtain ⟨q', hq', hcreated⟩ := hf.created p q hq
  have hnow := hf.now
  exact ⟨q', hq', by grind -linarith [PoolSessionKeyPending.expired]⟩

theorem Latest.frame (h : Latest s k p) (hf : Frame mine unread s s') (hk : ¬mine k) :
    Latest s' k p := by
  rw [Latest, hf.latest k hk]
  exact h

theorem Sound.frame (h : Sound equalFold s p) (hf : Frame mine unread s s') (ho : Owned s k p)
    (hk : ¬mine k) : Sound equalFold s' p := by
  rcases h with ⟨x, hx, hheap⟩ | hexp
  · rcases hf.heap p _ hheap with hsame | ⟨k', hk', ho'⟩ | ⟨hexp, -⟩
    · exact .inl ⟨x, hf.exchanges p x hx, hsame⟩
    · rw [ho.unique ho'] at hk
      exact absurd hk' hk
    · exact .inr (hexp.frame hf)
  · exact .inr (hexp.frame hf)

theorem Reading.frame {req : SessionKeyRequest} {x : SessionKeyExchange}
    (h : Reading equalFold s req p x) (hf : Frame mine unread s s')
    (hk : ¬mine req.operationID) (hread : ¬unread p) : Reading equalFold s' req p x := by
  refine ⟨hf.exchanges p x h.made, h.operation, h.latest.frame hf hk, ?_, h.credential⟩
  rcases hf.heap p _ h.intact with hsame | ⟨k', hk', ho'⟩ | ⟨-, hunread⟩
  · exact hsame
  · rw [h.owned.unique ho'] at hk
    exact absurd hk' hk
  · exact absurd hunread hread

theorem WritebackExact.frame {w : SentWriteback} (h : WritebackExact equalFold s w)
    (hf : Frame mine unread s s') : WritebackExact equalFold s' w := by
  obtain ⟨x, hx, hw⟩ := h
  exact ⟨x, hf.exchanges _ x hx, hw⟩

theorem WorkOk.frame {req : SessionKeyRequest} {work : SessionKeyWork}
    (h : WorkOk equalFold s req work) (hf : Frame mine unread s s') (hk : ¬mine req.operationID)
    (hread : ∀ p, req.confirms = true → work.reads p = true → ¬unread p) :
    WorkOk equalFold s' req work := by
  have happroved : ∀ x, Approved equalFold req x → req.confirms = true := by
    intro x hx
    simp [SessionKeyRequest.confirms, hx.confirm, hx.cancel]
  have hreading : ∀ p x, req.confirms = true → work.reads p = true →
      Reading equalFold s req p x → Reading equalFold s' req p x :=
    fun p x hc hr hx => hx.frame equalFold hf hk (hread p hc hr)
  have hnow : (s.now : Int) ≤ s'.now := by exact_mod_cast hf.now
  have hvacant := hf.vacant _ hk
  have hlatest := hf.latest _ hk
  cases work <;> simp only [WorkOk, SessionKeyWork.reads, beq_iff_eq] at h hreading ⊢ <;>
    grind -linarith [Owned.frame, Latest.frame, Sound.frame, Expired.frame, WritebackExact.frame]

/-! ## What a thread does to the store -/

def SessionKeyWork.sweeps (p : Nat) : SessionKeyWork → Bool
  | .sweepErase _ _ _ p' _ => p' == p
  | _ => false

def SessionKeyWork.forgets (p : Nat) : SessionKeyWork → Bool
  | .forget p' _ _ => p' == p
  | _ => false

def SessionKeyThread.sweeps (t : SessionKeyThread) (p : Nat) : Bool :=
  match t.pc with
  | .inside _ work => work.sweeps p
  | _ => false

def SessionKeyThread.forgets (t : SessionKeyThread) (p : Nat) : Bool :=
  match t.pc with
  | .inside _ work => work.forgets p
  | _ => false

def Forgotten (ts : List SessionKeyThread) (k : String) (p : Nat) : Prop :=
  ∃ t ∈ ts, t.key = k ∧ t.forgets p = true

def StoreFresh (s : SessionKeyStore) : Prop :=
  ∀ p, s.made ≤ p → s.exchanges p = none ∧ s.heap p = none

/-- A change by a thread of operation `k`, which erases a result of its own while it forgets it, or
one that has expired and nobody reads. -/
inductive StoreMove (s : SessionKeyStore) (k : String) (unread forgets : Nat → Prop) :
    SessionKeyStore → Prop
  | same : StoreMove s k unread forgets s
  | erase (key : String) (p : Nat) (stage : EraseStage) : stage ≠ .delete →
      (Owned s k p ∧ forgets p) ∨ (Expired s p ∧ unread p) →
      StoreMove s k unread forgets (s.eraseStep key p stage)
  | delete (key : String) (p : Nat) : StoreMove s k unread forgets (s.eraseStep key p .delete)
  | exchange (req : SessionKeyRequest) (loginCtx : PoolLoginContext) (token : SessionKeyToken) :
      req.operationID = k → s.pending.lookup k = none →
      StoreMove s k unread forgets (s.exchangeStep equalFold req loginCtx token)
  | store (p : Nat) : Owned s k p → Latest s k p → Sound equalFold s p →
      StoreMove s k unread forgets { s with pending := s.pending.insert k p }

theorem erase_createdAt (q : PoolSessionKeyPending) (stage : EraseStage) :
    (q.erase stage).createdAt = q.createdAt := by
  cases stage <;> rfl

theorem eraseStep_eq (s : SessionKeyStore) (key : String) (p : Nat) {stage : EraseStage}
    (h : stage ≠ .delete) : s.eraseStep key p stage =
      { s with heap := Function.update s.heap p ((s.heap p).map (·.erase stage)) } := by
  cases stage with
  | delete => exact absurd rfl h
  | accessToken | refreshToken | sessionKey => rfl

theorem lookup_erase_none {t : Table String Nat} {key : String} (h : t.lookup k = none) :
    (t.erase key).lookup k = none := by
  by_cases hk : k = key
  · rw [hk, lookup_erase]
  · rw [lookup_erase_ne hk]
    exact h

theorem Frame.refl (mine : String → Prop) (unread : Nat → Prop) (s : SessionKeyStore) :
    Frame mine unread s s :=
  ⟨Nat.le_refl _, fun _ _ h => h, fun _ _ => rfl, fun _ _ h => h, fun _ q h => ⟨q, h, rfl⟩,
    fun _ _ h => .inl h⟩

variable {forgets : Nat → Prop}

theorem StoreMove.frame (hm : StoreMove equalFold s k unread forgets s') (hfresh : StoreFresh s) :
    Frame (· = k) unread s s' := by
  cases hm with
  | same => exact .refl _ _ _
  | erase key p stage hstage hcause =>
    rw [eraseStep_eq s key p hstage]
    constructor <;> grind -linarith [erase_createdAt]
  | delete key p => constructor <;> grind -linarith [eraseStep, lookup_erase_none]
  | exchange req loginCtx token hk hvacant =>
    have hmade := hfresh s.made (Nat.le_refl _)
    constructor <;> simp only [exchangeStep] <;>
      grind -linarith [lookup_insert_ne, Function.update_apply]
  | store p ho hl hs => constructor <;> grind -linarith [lookup_insert_ne]

theorem StoreMove.fresh (hm : StoreMove equalFold s k unread forgets s') (hfresh : StoreFresh s) :
    StoreFresh s' := by
  cases hm with
  | same | delete | store => exact hfresh
  | erase key p stage hstage hcause =>
    rw [eraseStep_eq s key p hstage]
    grind -linarith [StoreFresh]
  | exchange req loginCtx token hk hvacant =>
    simp only [StoreFresh, exchangeStep] at hfresh ⊢
    grind -linarith

/-- The entries of the map, with `forgotten` saying which result somebody is about to delete. -/
def PendOk (s : SessionKeyStore) (forgotten : String → Nat → Prop) : Prop :=
  ∀ k p, s.pending.lookup k = some p →
    Owned s k p ∧ Latest s k p ∧ (Sound equalFold s p ∨ forgotten k p)

variable {forgotten forgotten' : String → Nat → Prop}

theorem StoreMove.pend (hm : StoreMove equalFold s k unread forgets s') (hfresh : StoreFresh s)
    (h : PendOk equalFold s forgotten)
    (hkeep : ∀ k' p, forgotten k' p → forgotten' k' p ∨ s'.pending.lookup k' = none)
    (hnew : ∀ p, forgets p → forgotten' k p) : PendOk equalFold s' forgotten' := by
  have hf := hm.frame equalFold hfresh
  intro k' p hp
  cases hm with
  | same => grind -linarith [PendOk]
  | erase key p₀ stage hstage hcause =>
    rw [eraseStep_eq s key p₀ hstage] at *
    have hold := h k' p hp
    grind -linarith [Owned.unique, Owned.frame, Expired.frame, Sound, Intact, Latest]
  | delete key p₀ =>
    simp only [eraseStep] at *
    have hold := h k' p (by grind -linarith [lookup_erase, lookup_erase_ne])
    grind -linarith [Owned.frame, Expired.frame, Sound, Intact, Latest]
  | exchange req loginCtx token hk hvacant =>
    obtain ⟨ho, hl, hsound⟩ := h k' p hp
    have hne : k' ≠ k := by rintro rfl; cases hvacant.symm.trans hp
    exact ⟨ho.frame hf, hl.frame hf hne, by grind -linarith [Sound.frame]⟩
  | store p₀ ho hl hs =>
    have hold := h k' p
    grind -linarith [Owned.frame, Expired.frame, Sound, Intact, Latest, lookup_insert,
      lookup_insert_ne]

end AikeyProxy.Supervisor
