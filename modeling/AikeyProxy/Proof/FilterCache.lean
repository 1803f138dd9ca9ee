import AikeyProxy.Proxy.FilterCache

/-!
# When a kept verdict is the present one

A verdict is kept under the fingerprints the workers had published when the request began. If a
worker only scans for requests whose epoch has its rules' fingerprint, every kept verdict is what
one of its key's fingerprints stands for. A child polled since its last change publishes the rules
it has, so a request whose epoch is still published is given a present verdict.
-/

namespace AikeyProxy.Proxy

open Lib AppHook List Option AList

variable {R : Type} {sem : RuleSemantics R}

/-- At a lookup, each fingerprint of the request's epoch is still published by a serving child; at a
scan, the rules of the child that scans are among those of the epoch. -/
def FilterStepOk (sem : RuleSemantics R) (s : FilterWorld R) : FilterAct R → Prop
  | .lookup j _ =>
    ∀ q ∈ s.requests[j]?, ∀ epoch ∈ q.pc.epoch?, ∀ t ∈ epoch,
      ∃ c ∈ s.serving, c.contentVersion = some t
  | .detect j i =>
    ∀ q ∈ s.requests[j]?, ∀ epoch ∈ q.pc.epoch?, ∀ c ∈ s.children[i]?,
      sem.contentFingerprint c.rules ∈ epoch
  | _ => True

instance (s : FilterWorld R) : ∀ a, Decidable (FilterStepOk sem s a)
  | .lookup .. | .detect .. => inferInstanceAs (Decidable (∀ _ ∈ _, ∀ _ ∈ _, ∀ _ ∈ _, _))
  | .child .. | .request .. | .collect _ | .degraded _ | .keep _ | .evict _ => isTrue trivial

/-- A verdict taken from the cache while every serving child had caught up is one that the
rules of a serving child gave at that moment. -/
def HitsPresent (s : FilterWorld R) : Prop :=
  ∀ hit ∈ s.hits, hit.caughtUp = true → hit.verdict ∈ hit.present

/-! ## What a child publishes -/

/-- A poll that is not older than the last change tells the rules the child has, whether its
report is on its way or published. -/
structure ChildInv (sem : RuleSemantics R) (c : FilterChild R) : Prop where
  answered : ∀ rules seen, c.answer = some (.report rules seen) →
    seen ≤ c.changes ∧ (seen = c.changes → rules = c.rules)
  published : ∀ t seen, c.contentVersion = some t → c.polled = some seen →
    seen ≤ c.changes ∧ (seen = c.changes → t = sem.contentFingerprint c.rules)

theorem ChildInv.init (rules : R) : ChildInv sem (.init rules) := by
  refine ⟨?_, ?_⟩ <;> exact nofun

variable {c : FilterChild R} {s s' : FilterWorld R} {head : String} {j : Nat}

variable {c' : FilterChild R} {answer : PollAnswer R} {e : ChildEvent R}
  {epoch : Option (List String)} {v : MaskVerdict}

theorem ChildInv.change (h : ChildInv sem c) (hanswer : c'.answer = c.answer)
    (hversion : c'.contentVersion = c.contentVersion) (hpolled : c'.polled = c.polled)
    (hchanges : c'.changes = c.changes + 1) : ChildInv sem c' := by
  refine ⟨?_, ?_⟩
  · intro rules seen ha
    have hle := (h.answered rules seen (hanswer ▸ ha)).1
    refine ⟨by omega, fun heq => ?_⟩
    omega
  · intro t seen ht hp
    have hle := (h.published t seen (hversion ▸ ht) (hpolled ▸ hp)).1
    refine ⟨by omega, fun heq => ?_⟩
    omega

theorem ChildInv.noReport (h : ChildInv sem c) (hans : ∀ rules seen, answer ≠ .report rules seen) :
    ChildInv sem { c with answer := some answer } :=
  ⟨fun rules seen ha => absurd (some.inj ha) (hans rules seen), h.published⟩

theorem ChildInv.publish (h : ChildInv sem c) (hans : c.answer = some answer) :
    ChildInv sem (c.publishContentVersion sem answer) := by
  cases answer with
  | report rules seen =>
    obtain ⟨hle, hrules⟩ := h.answered rules seen hans
    refine ⟨?_, ?_⟩
    · exact nofun
    · intro t seen' ht hp
      obtain rfl : sem.contentFingerprint rules = t := some.inj ht
      obtain rfl : seen = seen' := some.inj hp
      exact ⟨hle, fun heq => by rw [hrules heq]; rfl⟩
  | degraded | packsUnavailable | failed =>
    refine ⟨?_, ?_⟩ <;> exact nofun

theorem ChildInv.step (h : ChildInv sem c) (hs : childStep sem c e = some c') :
    ChildInv sem c' := by
  revert hs
  fun_cases childStep sem c e <;> intro hs
  case case13 =>
    obtain ⟨answer, hans, rfl⟩ := map_eq_some_iff.mp hs
    exact h.publish hans
  all_goals cases hs
  case case1 | case3 => exact h.change rfl rfl rfl rfl
  case case2 | case4 => exact ⟨h.answered, h.published⟩
  case case7 =>
    refine ⟨?_, h.published⟩
    rintro rules seen ⟨⟩
    exact ⟨Nat.le_refl _, fun _ => rfl⟩
  all_goals exact h.noReport (by rintro _ _ ⟨⟩)

theorem ChildInv.fresh (h : ChildInv sem c) (hfresh : c.Fresh) {t : String}
    (ht : c.contentVersion = some t) : t = sem.contentFingerprint c.rules :=
  (h.published t c.changes ht hfresh).2 rfl

/-! ## What the cache keeps -/

def FromEpoch (sem : RuleSemantics R) (epoch : List String) (head : String) (v : MaskVerdict) :
    Prop :=
  ∃ rules, sem.contentFingerprint rules ∈ epoch ∧ sem.verdict rules head = v

def KeepsFromEpoch (sem : RuleSemantics R) (q : FilterRequest) : Prop :=
  ∀ epoch head v, q.pc = .keep epoch head v → FromEpoch sem epoch head v

structure CacheInv (sem : RuleSemantics R) (s : FilterWorld R) : Prop where
  children : ∀ c ∈ s.children, ChildInv sem c
  requests : ∀ q ∈ s.requests, KeepsFromEpoch sem q
  cache : ∀ key v, s.cache.lookup key = some v → FromEpoch sem key.contentVersion key.head v
  hits : HitsPresent s

theorem CacheInv.init (rules : List R) : CacheInv sem (FilterWorld.init rules) := by
  refine ⟨?_, ?_, ?_, ?_⟩
  · intro c hc
    obtain ⟨r, -, rfl⟩ := mem_map.mp hc
    exact ChildInv.init r
  · exact nofun
  · exact nofun
  · exact nofun

theorem CacheInv.setPc (h : CacheInv sem s) (j : Nat) (q : FilterRequest) {pc : FilterPc}
    (hkeeps : KeepsFromEpoch sem { q with pc }) : CacheInv sem (s.setPc j q pc) := by
  refine ⟨h.children, ?_, h.cache, h.hits⟩
  intro p hp
  rcases mem_or_eq_of_mem_set hp with hold | rfl
  · exact h.requests p hold
  · exact hkeeps

theorem CacheInv.goOn (h : CacheInv sem s) (j : Nat) (q : FilterRequest) {pc : FilterPc}
    (hpc : ∀ epoch head v, pc ≠ .keep epoch head v) : CacheInv sem (s.setPc j q pc) :=
  h.setPc j q fun epoch head v heq => absurd heq (hpc epoch head v)

theorem keeps_afterDetect {head : String} {rules : R}
    (hrules : ∀ e ∈ epoch, sem.contentFingerprint rules ∈ e) (q : FilterRequest) :
    KeepsFromEpoch sem { q with pc := afterDetect epoch head (sem.verdict rules head) } := by
  intro e hd v hpc
  unfold afterDetect at hpc
  (repeat' split at hpc) <;> cases hpc
  exact ⟨rules, hrules _ rfl, rfl⟩

/-- What is kept under fingerprints that serving children publish is, once they have caught
up, what one of them would say. -/
theorem CacheInv.present (h : CacheInv sem s) {epoch : List String}
    (hv : FromEpoch sem epoch head v)
    (hpublished : ∀ t ∈ epoch, ∃ c ∈ s.serving, c.contentVersion = some t) (hup : s.CaughtUp) :
    v ∈ s.presentVerdicts sem head := by
  obtain ⟨rules, hmem, rfl⟩ := hv
  obtain ⟨c, hc, ht⟩ := hpublished _ hmem
  have hinv := h.children c (mem_filter.mp hc).1
  have hfp := hinv.fresh (hup c hc) ht
  -- fingerprints tell rule sets apart
  have hrules : rules = c.rules := sem.fingerprint_injective hfp
  rw [hrules]
  exact mem_map.mpr ⟨c, hc, rfl⟩

theorem CacheInv.cached (h : CacheInv sem s) {q : FilterRequest}
    (hv : s.cached q head epoch = some v) : ∃ e, epoch = some e ∧ FromEpoch sem e head v := by
  cases epoch with
  | none => cases hv
  | some e =>
    have hlookup := (filter_eq_some_iff.mp hv).1
    exact ⟨e, rfl, h.cache _ v hlookup⟩

/-! ## Steps and runs -/

theorem CacheInv.child {i : Nat} (h : CacheInv sem s) (hs : filterStep sem s (.child i e) = some s')
    : CacheInv sem s' := by
  obtain ⟨c, hc, hs⟩ := bind_eq_some_iff.mp hs
  obtain ⟨c', hstep, hs⟩ := bind_eq_some_iff.mp hs
  cases hs
  refine ⟨?_, h.requests, h.cache, h.hits⟩
  intro d hd
  rcases mem_or_eq_of_mem_set hd with hold | rfl
  · exact h.children d hold
  · exact (h.children c (mem_of_getElem? hc)).step hstep

theorem CacheInv.collect (h : CacheInv sem s) (hs : filterStep sem s (.collect j) = some s') :
    CacheInv sem s' := by
  obtain ⟨q, -, hs⟩ := bind_eq_some_iff.mp hs
  -- wherever the loop goes on, there is nothing to keep
  (repeat' split at hs) <;> cases hs <;> exact h.goOn j q nofun

theorem CacheInv.lookup (h : CacheInv sem s) (hok : FilterStepOk sem s (.lookup j head))
    (hs : filterStep sem s (.lookup j head) = some s') : CacheInv sem s' := by
  obtain ⟨q, hq, hs⟩ := bind_eq_some_iff.mp hs
  (repeat' split at hs) <;> cases hs
  next epoch hpc _ v hv =>
    refine ⟨h.children, h.requests, h.cache, ?_⟩
    intro hit hhit hup
    rcases mem_cons.mp hhit with rfl | hold
    · obtain ⟨e, rfl, hfrom⟩ := h.cached hv
      have hepoch : q.pc.epoch? = some e := by rw [hpc]; rfl
      exact h.present hfrom (hok q hq e hepoch) (of_decide_eq_true hup)
    · exact h.hits hit hold hup
  · exact h.goOn j q nofun

theorem CacheInv.detect {i : Nat} (h : CacheInv sem s) (hok : FilterStepOk sem s (.detect j i))
    (hs : filterStep sem s (.detect j i) = some s') : CacheInv sem s' := by
  obtain ⟨q, hq, hs⟩ := bind_eq_some_iff.mp hs
  obtain ⟨c, hc, hs⟩ := bind_eq_some_iff.mp hs
  (repeat' split at hs) <;> cases hs
  next epoch head hpc _ _ =>
    have hepoch : q.pc.epoch? = epoch := by rw [hpc]; rfl
    exact h.setPc j q (keeps_afterDetect (fun e he => hok q hq e (hepoch ▸ he) c hc) q)

theorem CacheInv.keep (h : CacheInv sem s) (hs : filterStep sem s (.keep j) = some s') :
    CacheInv sem s' := by
  obtain ⟨q, hq, hs⟩ := bind_eq_some_iff.mp hs
  split at hs <;> cases hs
  next epoch head v hpc =>
    have hset : CacheInv sem (s.setPc j q (.piece (some epoch))) := h.goOn j q nofun
    refine ⟨hset.children, hset.requests, ?_, hset.hits⟩
    intro key w hw
    by_cases hkey : key = q.cacheKey epoch head
    · subst hkey
      cases (lookup_insert _).symm.trans hw
      exact h.requests q (mem_of_getElem? hq) epoch head v hpc
    · exact h.cache key w ((lookup_insert_ne hkey).symm.trans hw)

theorem CacheInv.step {a : FilterAct R} (h : CacheInv sem s) (hok : FilterStepOk sem s a)
    (hs : filterStep sem s a = some s') : CacheInv sem s' := by
  cases a with
  | child i e => exact h.child hs
  | request scope detectorVer =>
    cases hs
    refine ⟨h.children, ?_, h.cache, h.hits⟩
    intro q hq
    rcases mem_append.mp hq with hold | hnew
    · exact h.requests q hold
    · rw [mem_singleton.mp hnew]
      rintro _ _ _ ⟨⟩
  | collect j => exact h.collect hs
  | lookup j head => exact h.lookup hok hs
  | detect j i => exact h.detect hok hs
  | degraded j =>
    obtain ⟨q, -, hs⟩ := bind_eq_some_iff.mp hs
    split at hs <;> cases hs
    exact h.goOn j q nofun
  | keep j => exact h.keep hs
  | evict key =>
    cases hs
    refine ⟨h.children, h.requests, ?_, h.hits⟩
    intro k v hv
    by_cases hkey : k = key
    · subst hkey
      cases (lookup_erase k _).symm.trans hv
    · exact h.cache k v ((lookup_erase_ne hkey).symm.trans hv)

/-- **Kept verdicts are not stale once polls have caught up**, in every run whose steps meet
`FilterStepOk`. -/
theorem cached_verdict_present (sem : RuleSemantics R) (rules : List R)
    (acts : List (FilterAct R)) (s : FilterWorld R)
    (hrun : Guarded (filterStep sem) (FilterStepOk sem) (FilterWorld.init rules) acts s) :
    HitsPresent s :=
  (hrun.invariant (fun _ _ _ h hok hs => h.step hok hs) (CacheInv.init rules)).hits

/-! ## Runs of one child -/

def twoRules : RuleSemantics Bool where
  verdict strict _ := if strict then ⟨.mask, "[NAME]", "name"⟩ else ⟨.allow, "", ""⟩
  contentFingerprint strict := if strict then "A" else "B"
  fingerprint_injective := by
    intro a b
    cases a <;> cases b <;> simp

/-- A poll, and a request that has a piece scanned and its verdict kept. -/
def pollAndScan (j : Nat) : List (FilterAct Bool) :=
  [.child 0 .pollReport, .child 0 .publish, .request "s" "1", .collect j, .collect j,
    .lookup j "hello", .detect j 0, .keep j]

def askAgain (j : Nat) : List (FilterAct Bool) :=
  [.request "s" "1", .collect j, .collect j, .lookup j "hello"]

theorem unchanged_verdict_present :
    ∃ s, Guarded (filterStep twoRules) (FilterStepOk twoRules) (FilterWorld.init [true])
        (pollAndScan 0 ++ askAgain 1) s ∧
      s.hits = [⟨⟨.mask, "[NAME]", "name"⟩, true, [⟨.mask, "[NAME]", "name"⟩]⟩] ∧
      HitsPresent s := by
  refine ⟨_, Guarded.of_guardedExec rfl, rfl, ?_⟩
  exact cached_verdict_present twoRules [true] (pollAndScan 0 ++ askAgain 1) _
    (Guarded.of_guardedExec rfl)

/-- The child swaps its rules after a poll, a piece is scanned, the rules are swapped back and
polled again. -/
def swapBetweenPolls : List (FilterAct Bool) :=
  [.child 0 .pollReport, .child 0 .publish, .child 0 (.swapRules false), .request "s" "1",
    .collect 0, .collect 0, .lookup 0 "hello", .detect 0 0, .keep 0,
    .child 0 (.swapRules true), .child 0 .pollReport, .child 0 .publish] ++ askAgain 1

theorem swapped_back_verdict_stale :
    ¬ ∀ (R : Type) (sem : RuleSemantics R) (rules : List R) (acts : List (FilterAct R))
      (s : FilterWorld R),
      exec (filterStep sem) (FilterWorld.init rules) acts = some s → HitsPresent s := by
  intro hall
  have hpresent := hall Bool twoRules [true] swapBetweenPolls _ rfl
  have hmem := hpresent _ (mem_singleton_self _) rfl
  cases mem_singleton.mp hmem

end AikeyProxy.Proxy
