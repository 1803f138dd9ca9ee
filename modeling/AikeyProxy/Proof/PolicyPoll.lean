import AikeyProxy.Supervisor.PolicyPoll

/-!
# A failed reload of a pulled policy

Both pollers publish before they reload, and a later poll with the same answer compares with what
was published, not with what is enforced. So a poll is followed up only as long as the two stay
together, which rests on the reload of the very poll that published.
-/

namespace AikeyProxy.Supervisor

open Lib PolicyWorld Bool

/-! ## The property and its condition -/

def EnforcesQuota (s : PolicyWorld) (subjects : List PolicySubject) : Prop :=
  s.quotaSnapshot.Perm (cacheRows subjects)
  deriving Decidable

section

variable (cfg : PolicyConfig) (s : PolicyWorld)

/-- A quota poll with this answer whose cache write succeeds goes on to reload. -/
def RetriesQuota (subjects : List PolicySubject) : Prop :=
  ∃ s', policyStep cfg s (.quotaPoll (some subjects) true) = some s' ∧ s'.quotaReload = true

def RetriesCompliance (p : CompliancePolicy) : Prop :=
  ∀ body, ComplianceBody.policy body = p → ∃ s',
    exec (policyStep cfg) s [.compliancePoll (some body), .complianceSwap, .complianceSwap] =
      some s' ∧ s'.compliancePc = .reload

/-- After every successful poll, the polled policy is enforced or the next poll with the
same answer reloads. -/
structure NotFinal (cfg : PolicyConfig) (s : PolicyWorld) : Prop where
  quota : s.quotaReload = false → ∀ subjects, s.polledQuota = some subjects →
    EnforcesQuota s subjects ∨ RetriesQuota cfg s subjects
  compliance : s.compliancePc = .idle → ∀ p, s.polledCompliance = some p →
    s.active = p ∨ RetriesCompliance cfg s p

/-- The condition on the start: a signature is seeded only from a cache that was loaded. -/
def PolicyStartOk (s : PolicyWorld) : Prop :=
  s.lastQuotaSig = none ∨ s.quotaSnapshot = s.quotaCache

/-- The reload a poll calls for succeeds, the quota load included, unless the policy is enforced
already; and there is a table for the rules unless there are none. -/
def PolicyStepOk : PolicyAct → Prop
  | .quotaPoll (some subjects) true =>
    cfg.quotaEnabled = false ∨ cfg.hasTable = true ∨ subjects = []
  | .reload .quota out =>
    (out.built = true ∧ out.quotaLoaded = true) ∨
      ∀ subjects ∈ s.polledQuota, EnforcesQuota s subjects
  | .reload .compliance out => out.built = true ∨ s.active = s.master
  | _ => True

end

instance (cfg : PolicyConfig) (s : PolicyWorld) : ∀ a, Decidable (PolicyStepOk cfg s a)
  | .quotaPoll (some _) true | .reload .quota _ | .reload .compliance _ =>
    inferInstanceAs (Decidable (_ ∨ _))
  | .quotaPoll none _ | .quotaPoll (some _) false | .compliancePoll _ | .complianceSwap
  | .reload .other _ | .managedSync _ => isTrue trivial

/-! ## Signatures and rows -/

theorem row_row (s : PolicySubject) : s.row.row = s.row := by
  by_cases h : s.rules = "" <;> simp [PolicySubject.row, h]

theorem cacheRows_cacheRows (subjects : List PolicySubject) :
    cacheRows (cacheRows subjects) = cacheRows subjects := by
  unfold cacheRows
  rw [List.map_map]
  exact List.map_congr_left fun s _ => row_row s

theorem cacheRows_sig_perm (subjects : List PolicySubject) :
    (cacheRows (quotaSubjectsSig subjects)).Perm (cacheRows subjects) :=
  (List.perm_insertionSort _ _).map _

/-- Publishing and enforcing stay together, apart from a poll that is still to reload. -/
structure PolicyInv (cfg : PolicyConfig) (s : PolicyWorld) : Prop where
  cached : ∀ sig, s.lastQuotaSig = some sig → s.quotaCache.Perm (cacheRows sig)
  enforced : s.quotaReload = false → ∀ sig, s.lastQuotaSig = some sig →
    s.quotaSnapshot.Perm (cacheRows sig)
  noTable : cfg.hasTable = false → s.quotaCache = []
  quotaOff : cfg.quotaEnabled = false → s.quotaReload = false ∧ s.polledQuota = none
  pending : s.quotaReload = true → ∃ subjects, s.polledQuota = some subjects ∧
    s.lastQuotaSig = some (quotaSubjectsSig subjects)
  /-- The values that are published so far are those of the last answer. -/
  published : ∀ p, s.polledCompliance = some p →
    match s.compliancePc with
    | .idle => s.master = p
    | .swapPassword q _ => q = p ∧ s.master.privacyTier = p.privacyTier
    | .swapEnabled q _ => q = p ∧ s.master.privacyTier = p.privacyTier ∧
        s.master.passwordAdvanced = p.passwordAdvanced
    | .reload => s.master = p
  /-- Unless something changed, the active generation has the published values. -/
  built :
    match s.compliancePc with
    | .idle => s.active = s.master
    | .swapPassword _ changed => changed = false → s.active = s.master
    | .swapEnabled _ changed => changed = false → s.active = s.master
    | .reload => True

variable {cfg : PolicyConfig}

theorem policyInv_init (cached : List PolicySubject) (loaded seeded : Bool)
    (hstart : PolicyStartOk (.init cfg cached loaded seeded)) :
    PolicyInv cfg (.init cfg cached loaded seeded) := by
  have hcached : ∀ sig, (PolicyWorld.init cfg cached loaded seeded).lastQuotaSig = some sig →
      (PolicyWorld.init cfg cached loaded seeded).quotaCache.Perm (cacheRows sig) := by
    intro sig hsig
    simp only [PolicyWorld.init] at hsig
    split at hsig
    · cases hsig
      refine ((cacheRows_sig_perm _).trans (.of_eq ?_)).symm
      simp only [PolicyWorld.init]
      cases cfg.hasTable with
      | false => rfl
      | true => exact cacheRows_cacheRows cached
    · cases hsig
  refine ⟨hcached, ?_, ?_, ?_, ?_, ?_, rfl⟩
  · intro _ sig hsig
    rcases hstart with hnone | hsame
    · rw [hnone] at hsig
      cases hsig
    · rw [hsame]
      exact hcached sig hsig
  · intro hno
    simp [PolicyWorld.init, hno]
  · intro _
    exact ⟨rfl, rfl⟩
  · exact nofun
  · exact nofun

/-! ## Loading the snapshot -/

variable {s : PolicyWorld}

theorem policyInv_load (h : PolicyInv cfg s) (loadOk : Bool) :
    PolicyInv cfg (s.reloadQuotaSnapshot cfg loadOk) := by
  unfold reloadQuotaSnapshot
  split
  · exact { h with enforced := fun _ sig hsig => h.cached sig hsig }
  · exact h

theorem policyInv_activate (h : PolicyInv cfg s) : PolicyInv cfg { s with active := s.master } where
  cached := h.cached
  enforced := h.enforced
  noTable := h.noTable
  quotaOff := h.quotaOff
  pending := h.pending
  published := h.published
  built := by
    cases s.compliancePc with
    | idle => rfl
    | swapPassword p changed | swapEnabled p changed => exact fun _ => rfl
    | reload => trivial

theorem policyInv_reload (h : PolicyInv cfg s) (out : ReloadOutcome) :
    PolicyInv cfg (s.reload cfg out) := by
  unfold PolicyWorld.reload
  split
  · exact policyInv_load (policyInv_activate h) out.quotaLoaded
  · exact h

theorem reload_snapshot (s : PolicyWorld) (out : ReloadOutcome) :
    (s.reload cfg out).quotaSnapshot =
      if out.built && (cfg.quotaEnabled && out.quotaLoaded) then s.quotaCache
      else s.quotaSnapshot := by
  unfold PolicyWorld.reload reloadQuotaSnapshot
  cases out.built <;> cases cfg.quotaEnabled <;> cases out.quotaLoaded <;> rfl

theorem reload_active (s : PolicyWorld) (out : ReloadOutcome) :
    (s.reload cfg out).active = if out.built then s.master else s.active := by
  unfold PolicyWorld.reload reloadQuotaSnapshot
  cases out.built <;> cases cfg.quotaEnabled <;> cases out.quotaLoaded <;> rfl

theorem reload_frame (cfg : PolicyConfig) (s : PolicyWorld) (out : ReloadOutcome) :
    (s.reload cfg out).lastQuotaSig = s.lastQuotaSig ∧
      (s.reload cfg out).polledQuota = s.polledQuota ∧
      (s.reload cfg out).polledCompliance = s.polledCompliance ∧
      (s.reload cfg out).compliancePc = s.compliancePc ∧ (s.reload cfg out).master = s.master := by
  unfold PolicyWorld.reload reloadQuotaSnapshot
  cases out.built <;> cases cfg.quotaEnabled <;> cases out.quotaLoaded <;>
    exact ⟨rfl, rfl, rfl, rfl, rfl⟩

/-! ## The pollers -/

theorem policyInv_quotaPoll (h : PolicyInv cfg s) (hidle : s.quotaReload = false)
    (answer : Option (List PolicySubject)) (writeOk : Bool)
    (hok : PolicyStepOk cfg s (.quotaPoll answer writeOk)) :
    PolicyInv cfg (s.quotaPoll cfg answer writeOk) := by
  have hpolled : cfg.quotaEnabled = true → ∀ subjects,
      PolicyInv cfg { s with polledQuota := some subjects } := fun hon _ =>
    { h with
      quotaOff := fun hoff => absurd hoff (by simp [hon])
      pending := fun hp => absurd hp (by simp [hidle]) }
  fun_cases quotaPoll cfg s answer writeOk
  case case1 | case2 => exact h
  case case3 hon _ _ _ | case4 hon _ _ _ _ => exact hpolled (by simpa using hon) _
  case case5 subjects hon sig polled _ hwrite =>
    obtain rfl : writeOk = true := by simpa using hwrite
    have hon' : cfg.quotaEnabled = true := by simpa using hon
    exact
      { cached := by
          intro sig hsig
          cases hsig
          rcases hok with hoff | htable | hnil
          · exact absurd hoff (by simp [hon'])
          · simp [htable]
          · subst hnil
            cases htab : cfg.hasTable with
            | true => simp
            | false =>
              simp only [polled, h.noTable htab]
              rfl
        enforced := nofun
        noTable := by
          intro hno
          simpa [hno] using h.noTable hno
        quotaOff := fun hoff => absurd hoff (by simp [hon'])
        pending := fun _ => ⟨subjects, rfl, rfl⟩
        published := h.published
        built := h.built }

theorem policyInv_compliancePoll (h : PolicyInv cfg s) (hidle : s.compliancePc = .idle)
    (answer : Option ComplianceBody) : PolicyInv cfg (s.compliancePoll answer) := by
  cases answer with
  | none => exact h
  | some body =>
    have hbuilt := h.built
    rw [hidle] at hbuilt
    exact
      { cached := h.cached
        enforced := h.enforced
        noTable := h.noTable
        quotaOff := h.quotaOff
        pending := h.pending
        published := by
          intro p hp
          cases hp
          exact ⟨rfl, rfl⟩
        built := by
          intro hsame
          simp only [compliancePoll]
          have htier : s.master.privacyTier = body.policy.privacyTier := by simpa using hsame
          rw [← htier]
          exact hbuilt }

variable {s' : PolicyWorld}

theorem policyInv_complianceSwap (h : PolicyInv cfg s) (hs : s.complianceSwap = some s') :
    PolicyInv cfg s' := by
  have hpub := h.published
  have hbuilt := h.built
  revert hs
  fun_cases complianceSwap s <;> intro hs <;> cases hs
  next q changed hpc =>
    rw [hpc] at hpub hbuilt
    refine { h with published := ?_, built := ?_ }
    · intro p hp
      obtain ⟨rfl, htier⟩ := hpub p hp
      exact ⟨rfl, htier, rfl⟩
    · intro hsame
      obtain ⟨hc, hpw⟩ := or_eq_false_iff.mp hsame
      have hpw' : s.master.passwordAdvanced = q.passwordAdvanced := by simpa using hpw
      simp only [← hpw']
      exact hbuilt hc
  next q changed hpc =>
    rw [hpc] at hpub hbuilt
    have hall : ∀ p, s.polledCompliance = some p →
        ({ s.master with enabled := q.enabled } : CompliancePolicy) = p := by
      intro p hp
      obtain ⟨rfl, htier, hpw⟩ := hpub p hp
      simp only [htier, hpw]
    by_cases hchanged : (changed || decide (s.master.enabled ≠ q.enabled)) = true
    · simp only [if_pos hchanged]
      exact { h with published := hall, built := trivial }
    · simp only [if_neg hchanged]
      refine { h with published := hall, built := ?_ }
      obtain ⟨hc, hen⟩ := or_eq_false_iff.mp (eq_false_iff.mpr hchanged)
      have hen' : s.master.enabled = q.enabled := by simpa using hen
      simp only [← hen']
      exact hbuilt hc

theorem policyInv_quotaReload (h : PolicyInv cfg s) (hpend : s.quotaReload = true)
    (out : ReloadOutcome) (hok : PolicyStepOk cfg s (.reload .quota out)) :
    PolicyInv cfg { s.reload cfg out with quotaReload := false } := by
  have hr := policyInv_reload h out
  obtain ⟨hsig, hpolled, -⟩ := reload_frame cfg s out
  obtain ⟨subjects, hsub, hlast⟩ := h.pending hpend
  have hon : cfg.quotaEnabled = true := by
    by_contra hoff
    have hidle := (h.quotaOff (eq_false_iff.mpr hoff)).1
    rw [hpend] at hidle
    cases hidle
  refine { hr with enforced := ?_, quotaOff := ?_, pending := nofun }
  · intro _ sig hs
    simp only [hsig, hlast] at hs
    cases hs
    simp only [reload_snapshot]
    rcases hok with ⟨hbuilt, hload⟩ | henf
    · rw [hbuilt, hload, hon]
      exact h.cached _ hlast
    · split
      · exact h.cached _ hlast
      · exact (henf subjects hsub).trans (cacheRows_sig_perm subjects).symm
  · intro hoff
    exact absurd hoff (by simp [hon])

theorem policyInv_complianceReload (h : PolicyInv cfg s) (hpc : s.compliancePc = .reload)
    (out : ReloadOutcome) (hok : PolicyStepOk cfg s (.reload .compliance out)) :
    PolicyInv cfg { s.reload cfg out with compliancePc := .idle } := by
  have hr := policyInv_reload h out
  obtain ⟨-, -, hpoll, -, hmaster⟩ := reload_frame cfg s out
  have hpub := h.published
  rw [hpc] at hpub
  refine { hr with published := ?_, built := ?_ }
  · intro p hp
    simp only [hpoll] at hp
    simp only [hmaster]
    exact hpub p hp
  · simp only [reload_active, hmaster]
    rcases hok with hbuilt | hsame
    · rw [if_pos hbuilt]
    · split
      · rfl
      · exact hsame

theorem policyInv_step {a : PolicyAct} (h : PolicyInv cfg s) (hok : PolicyStepOk cfg s a)
    (hs : policyStep cfg s a = some s') : PolicyInv cfg s' := by
  revert hs
  fun_cases policyStep cfg s a <;> intro hs
  case case2 hidle =>
    cases hs
    exact policyInv_quotaPoll h (by simpa using hidle) _ _ hok
  case case3 hpc =>
    cases hs
    exact policyInv_compliancePoll h hpc _
  case case5 => exact policyInv_complianceSwap h hs
  case case6 hpend =>
    cases hs
    exact policyInv_quotaReload h hpend _ hok
  case case8 hpc =>
    cases hs
    exact policyInv_complianceReload h hpc _ hok
  case case10 =>
    cases hs
    exact policyInv_reload h _
  case case11 =>
    cases hs
    exact policyInv_load h _
  all_goals cases hs

theorem PolicyInv.notFinal (h : PolicyInv cfg s) : NotFinal cfg s where
  quota := by
    intro hidle subjects hpolled
    have hon : cfg.quotaEnabled = true := by
      by_contra hoff
      have hnone := (h.quotaOff (eq_false_iff.mpr hoff)).2
      rw [hpolled] at hnone
      cases hnone
    by_cases hsig : s.lastQuotaSig = some (quotaSubjectsSig subjects)
    · exact Or.inl ((h.enforced hidle _ hsig).trans (cacheRows_sig_perm subjects))
    · -- another answer is published, so the poll writes the cache and reloads
      refine Or.inr ⟨s.quotaPoll cfg (some subjects) true, ?_, ?_⟩
      · simp [policyStep, hidle]
      · simp [quotaPoll, hon, hsig]
  compliance := by
    intro hidle p hp
    have hpub := h.published p hp
    have hbuilt := h.built
    rw [hidle] at hpub hbuilt
    exact Or.inl (hbuilt.trans hpub)

/-! ## Every run -/

/-- **A pulled policy is enforced or pulled again** in a run whose steps meet `PolicyStepOk`. -/
theorem polled_policy_not_final (cfg : PolicyConfig) (cached : List PolicySubject)
    (loaded seeded : Bool) (hstart : PolicyStartOk (.init cfg cached loaded seeded))
    {acts : List PolicyAct} {s : PolicyWorld}
    (hrun : Guarded (policyStep cfg) (PolicyStepOk cfg) (.init cfg cached loaded seeded) acts s) :
    NotFinal cfg s :=
  (hrun.invariant (fun _ _ _ h hok hs => policyInv_step h hok hs)
    (policyInv_init cached loaded seeded hstart)).notFinal

def quotaOn : PolicyConfig := ⟨true, true⟩

def mandate : ComplianceBody := ⟨true, 2, "advanced"⟩

def oneRule : List PolicySubject := [⟨"seat-1", "seat", ["vk-1"], "", ""⟩]

/-- The reloads of both polls fail, but another reload has gone through in between. -/
def healedRun : List PolicyAct :=
  [.quotaPoll (some oneRule) true, .compliancePoll (some mandate), .complianceSwap, .complianceSwap,
    .reload .other ⟨true, true⟩, .reload .quota ⟨false, false⟩, .reload .compliance ⟨false, false⟩]

theorem healed_policy_not_final : ∃ s,
    Guarded (policyStep quotaOn) (PolicyStepOk quotaOn) (.init quotaOn [] true true) healedRun s ∧
      s.polledQuota = some oneRule ∧ s.polledCompliance = some mandate.policy ∧
      NotFinal quotaOn s := by
  have hrun := Guarded.of_guardedExec (show guardedExec (policyStep quotaOn) (PolicyStepOk quotaOn)
    (.init quotaOn [] true true) healedRun = some _ from rfl)
  exact ⟨_, hrun, by decide, by decide,
    polled_policy_not_final quotaOn [] true true (Or.inr rfl) hrun⟩

def failedReload : List PolicyAct :=
  [.compliancePoll (some mandate), .complianceSwap, .complianceSwap,
    .reload .compliance ⟨false, false⟩]

theorem failedReload_exec : ∃ s, exec (policyStep quotaOn) (.init quotaOn [] true true) failedReload =
    some s ∧ s.compliancePc = .idle ∧ s.polledCompliance = some mandate.policy ∧
      s.active ≠ mandate.policy ∧
      (exec (policyStep quotaOn) s
        [.compliancePoll (some mandate), .complianceSwap, .complianceSwap]).map
          PolicyWorld.compliancePc = some .idle :=
  ⟨_, rfl, by decide⟩

/-- The same mandate polled again changes nothing, so nothing reloads. -/
theorem failed_reload_is_final :
    ¬ ∀ (cfg : PolicyConfig) (cached : List PolicySubject) (loaded seeded : Bool)
        (acts : List PolicyAct) (s : PolicyWorld),
      exec (policyStep cfg) (.init cfg cached loaded seeded) acts = some s → NotFinal cfg s := by
  intro hall
  obtain ⟨s, hexec, hidle, hpolled, hactive, hnext⟩ := failedReload_exec
  rcases (hall quotaOn [] true true failedReload s hexec).compliance hidle _ hpolled with henf | hretry
  · exact hactive henf
  · obtain ⟨s', hs', hreload⟩ := hretry mandate rfl
    rw [hs', Option.map_some, hreload] at hnext
    exact absurd hnext (by decide)

end AikeyProxy.Supervisor
