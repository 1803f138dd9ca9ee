import AikeyProxy.Lib.Run
import AikeyProxy.Supervisor.SelfHeal

/-!
# The breaker across restarts

A process that decides a restart is gone with its list of restarts, so the limits of `shouldRestart`
never bind: all that spaces the restarts of a machine is the threshold. A fresh process needs three
failed polls, which takes three minutes (`HealInv`); that allows ten restarts in half an hour.
-/

namespace AikeyProxy.Supervisor

open Lib List ControlPlaneHealer

variable {goos : String} {s s' : HealWorld} {a : HealAct}

/-- The restarts in the thirty minutes up to `t`, as `shouldRestart` counts them. -/
def recent (decided : List Int) (t : Int) : List Int :=
  decided.filter fun r => t - 30 * minute < r ∧ r ≤ t

def Breaker (s : HealWorld) : Prop :=
  (∀ t, (recent s.decided t).length ≤ 4) ∧
    s.decided.Pairwise fun later earlier => earlier + 2 * minute ≤ later

/-- The times at which a machine with this poll history has to be restarted: the third failure of a
streak, or a later one, that finds the master reachable. `n` counts the failures of the streak. -/
def dueTimes (supervised : Bool) : Nat → List HealAct → List Int
  | _, [] => []
  | _, .networkChange :: acts => dueTimes supervised 0 acts
  | _, .poll _ .reached :: acts => dueTimes supervised 0 acts
  | n, .poll _ .failed :: acts => dueTimes supervised n acts
  | n, .poll t (.netChange reachable) :: acts =>
    if supervised ∧ reachable ∧ 2 ≤ n then t :: dueTimes supervised 0 acts
    else dueTimes supervised (n + 1) acts

/-- The running process has decided nothing, and since each restart of the machine there was a poll
for every failure it has counted. -/
structure HealInv (goos : String) (s : HealWorld) : Prop where
  fresh : s.healer = { newControlPlaneHealer goos with consecutive := s.healer.consecutive }
  polled : ∀ r ∈ s.decided, ∃ l ∈ s.lastPoll, r + s.healer.consecutive * minute ≤ l
  apart : s.decided.Pairwise fun later earlier => earlier + 3 * minute ≤ later

theorem healInv_init (goos : String) : HealInv goos (.init goos) where
  fresh := rfl
  polled := by simp [HealWorld.init]
  apart := .nil

/-- A healer that has decided nothing meets neither its cooldown nor its budget. -/
theorem onPollNetChange_fresh {h : ControlPlaneHealer} (t : Int) (reachable : Bool)
    (hfresh : h = { newControlPlaneHealer goos with consecutive := h.consecutive }) :
    if selfRestartIsSupervised goos ∧ reachable ∧ 2 ≤ h.consecutive then
      (h.onPollNetChange t reachable).2 = .now
    else
      (h.onPollNetChange t reachable).2 ≠ .now ∧
        (h.onPollNetChange t reachable).1 = { h with consecutive := h.consecutive + 1 } := by
  have hthree : h.threshold = 3 := by rw [hfresh]; rfl
  have hsup : h.supervised = selfRestartIsSupervised goos := by rw [hfresh]; rfl
  unfold onPollNetChange
  dsimp only
  rw [hthree, hsup]
  split_ifs with hdue hfew hreach hno hfew hreach hno
  · omega
  · exact absurd hdue.2.1 (by simpa using hreach)
  · exact absurd hdue.1 (by simpa using hno)
  · rw [hfresh]
    rfl
  · exact ⟨nofun, rfl⟩
  · exact ⟨nofun, rfl⟩
  · exact ⟨nofun, rfl⟩
  · refine absurd ⟨?_, ?_, ?_⟩ hdue
    · simpa using hno
    · simpa using hreach
    · omega

/-- A restart that was due; or a poll that counts one more failure; or a step that counts none. -/
theorem healStep_cases (hi : HealInv goos s) (h : healStep goos s a = some s') :
    (∃ t reachable, a = .poll t (.netChange reachable) ∧ (∀ l ∈ s.lastPoll, l + minute ≤ t) ∧
      if selfRestartIsSupervised goos ∧ reachable ∧ 2 ≤ s.healer.consecutive then
        s' = ⟨newControlPlaneHealer goos, some t, t :: s.decided⟩
      else s' = { s with
        healer := { s.healer with consecutive := s.healer.consecutive + 1 }, lastPoll := some t }) ∨
      (∀ sup acts, dueTimes sup s.healer.consecutive (a :: acts) =
          dueTimes sup s'.healer.consecutive acts) ∧
        s'.decided = s.decided ∧ (s'.healer = s.healer ∨ s'.healer = s.healer.onPollOK) ∧
        ∀ l ∈ s.lastPoll, ∃ l' ∈ s'.lastPoll, l ≤ l' := by
  cases a with
  | networkChange =>
    cases h
    exact .inr ⟨fun _ _ => rfl, rfl, .inr rfl, fun l hl => ⟨l, hl, Int.le_refl l⟩⟩
  | poll t outcome =>
    unfold healStep at h
    dsimp only at h
    split at h
    · cases h
    next hsoon =>
      have hlater : ∀ l ∈ s.lastPoll, l + minute ≤ t := by
        intro l hl
        rw [Option.mem_def.mp hl] at hsoon
        simpa using hsoon
      have hpolled : ∀ l ∈ s.lastPoll, ∃ l' ∈ some t, l ≤ l' := fun l hl =>
        ⟨t, rfl, by have := hlater l hl; unfold minute at this; omega⟩
      cases outcome with
      | reached => cases h; exact .inr ⟨fun _ _ => rfl, rfl, .inr rfl, hpolled⟩
      | failed => cases h; exact .inr ⟨fun _ _ => rfl, rfl, .inl rfl, hpolled⟩
      | netChange reachable =>
        refine .inl ⟨t, reachable, rfl, hlater, ?_⟩
        have hfresh := onPollNetChange_fresh t reachable hi.fresh
        dsimp only at h
        split at h
        next heq =>
          cases h
          rw [heq] at hfresh
          split_ifs at hfresh ⊢
          · rfl
          · exact absurd rfl hfresh.1
        next hne heq =>
          cases h
          rw [heq] at hfresh
          split_ifs at hfresh ⊢
          · exact absurd hfresh hne
          · exact congrArg (HealWorld.mk · (some t) s.decided) hfresh.2

theorem HealInv.step (hi : HealInv goos s) (h : healStep goos s a = some s') : HealInv goos s' := by
  obtain ⟨t, reachable, -, hlater, hkind⟩ | ⟨-, hdec, hheal, hlater⟩ := healStep_cases hi h
  · have hdue : ∀ r ∈ s.decided, r + (s.healer.consecutive + 1 : Nat) * minute ≤ t := by
      intro r hr
      obtain ⟨l, hl, hle⟩ := hi.polled r hr
      have := hlater l hl
      unfold minute at *
      omega
    split_ifs at hkind with hthree
    · subst hkind
      refine ⟨rfl, ?_, pairwise_cons.mpr ⟨?_, hi.apart⟩⟩
      · intro r hr
        refine ⟨t, rfl, ?_⟩
        obtain rfl | hr := mem_cons.mp hr
        · simp [newControlPlaneHealer]
        · have := hdue r hr
          simp only [newControlPlaneHealer, minute] at *
          omega
      · intro r hr
        have := hdue r hr
        unfold minute at *
        omega
    · subst hkind
      refine ⟨?_, fun r hr => ⟨t, rfl, hdue r hr⟩, hi.apart⟩
      rw [hi.fresh]
  · have hle : s'.healer.consecutive ≤ s.healer.consecutive := by
      rcases hheal with hheal | hheal <;> simp [hheal, onPollOK]
    refine ⟨?_, ?_, hdec ▸ hi.apart⟩
    · rcases hheal with hheal | hheal
      · rw [hheal]
        exact hi.fresh
      · rw [hheal, hi.fresh]
        rfl
    · intro r hr
      obtain ⟨l, hl, hpoll⟩ := hi.polled r (hdec ▸ hr)
      obtain ⟨l', hl', hll⟩ := hlater l hl
      refine ⟨l', hl', ?_⟩
      unfold minute at *
      omega

/-- The machine is restarted exactly when its poll history says so. -/
theorem decided_eq {acts : List HealAct} : ∀ {s : HealWorld}, HealInv goos s →
    exec (healStep goos) s acts = some s' →
    s'.decided =
      (dueTimes (selfRestartIsSupervised goos) s.healer.consecutive acts).reverse ++ s.decided := by
  induction acts with
  | nil =>
    intro s _ h
    cases h
    rfl
  | cons a acts ih =>
    intro s hi h
    obtain ⟨t, hs, h⟩ := exec_cons h
    rw [ih (hi.step hs) h]
    obtain ⟨time, reachable, rfl, -, hkind⟩ | ⟨hdue, hdec, -⟩ := healStep_cases hi hs
    · rw [dueTimes]
      split_ifs at hkind ⊢ with hthree
      · subst hkind
        simp [newControlPlaneHealer]
      · subst hkind
        rfl
    · rw [hdue, hdec]

/-- The fullest half hours end at a restart. -/
theorem recent_le {decided : List Int} {n : Nat}
    (hsorted : decided.Pairwise fun later earlier => earlier + 3 * minute ≤ later)
    (h : ∀ t ∈ decided, (recent decided t).length ≤ n) (t : Int) : (recent decided t).length ≤ n := by
  cases hrec : recent decided t with
  | nil => exact Nat.zero_le n
  | cons newest rest =>
    have hmem : ∀ r ∈ newest :: rest, r ∈ decided ∧ t - 30 * minute < r ∧ r ≤ t := by
      intro r hr
      rw [← hrec] at hr
      exact ⟨(mem_filter.mp hr).1, of_decide_eq_true (mem_filter.mp hr).2⟩
    have hnewest := hmem newest mem_cons_self
    refine Nat.le_trans ?_ (h newest hnewest.1)
    rw [← hrec, recent, recent, ← countP_eq_length_filter, ← countP_eq_length_filter]
    refine countP_mono_left fun r hr hin => ?_
    have hin := of_decide_eq_true hin
    have hrest := hsorted.sublist (show (recent decided t).Sublist decided from filter_sublist)
    rw [hrec] at hrest
    have hr' : r ∈ newest :: rest := hrec ▸ mem_filter.mpr ⟨hr, decide_eq_true hin⟩
    have hold : r ≤ newest := by
      obtain rfl | hr' := mem_cons.mp hr'
      · exact Int.le_refl r
      · have := (pairwise_cons.mp hrest).1 r hr'
        unfold minute at this
        omega
    exact decide_eq_true ⟨by omega, hold⟩

/-- **The breaker holds for a machine exactly if no half hour of its poll history makes more than
four restarts due.** -/
theorem restart_breaker_iff (goos : String) (acts : List HealAct) (s : HealWorld)
    (h : exec (healStep goos) (.init goos) acts = some s) :
    let due := dueTimes (selfRestartIsSupervised goos) 0 acts
    Breaker s ↔ ∀ t ∈ due, (recent due t).length ≤ 4 := by
  intro due
  have hi : HealInv goos s :=
    exec_invariant (fun _ _ _ hi hs => HealInv.step hi hs) h (healInv_init goos)
  have hdec : s.decided = due.reverse := by
    rw [decided_eq (healInv_init goos) h]
    exact append_nil _
  have hrecent : ∀ t, (recent s.decided t).length = (recent due t).length := fun t => by
    rw [hdec, recent, filter_reverse, length_reverse, recent]
  constructor
  · intro hb t _
    rw [← hrecent]
    exact hb.1 t
  · intro hdue
    refine ⟨recent_le hi.apart fun t ht => ?_, hi.apart.imp fun hle => ?_⟩
    · rw [hrecent]
      exact hdue t (mem_reverse.mp (hdec ▸ ht))
    · unfold minute at *
      omega

/-- Polls a minute apart that all fail although the master is reachable. -/
def stuckPolls (n : Nat) : List HealAct :=
  (List.range n).map fun i : Nat => .poll (i * minute) (.netChange true)

theorem stuckPolls_within_budget :
    ∃ s, exec (healStep "linux") (.init "linux") (stuckPolls 12) = some s ∧ s.decided.length = 4 ∧
      Breaker s := by
  refine ⟨_, rfl, by decide, (restart_breaker_iff "linux" (stuckPolls 12) _ rfl).mpr ?_⟩
  decide

theorem stuck_machine_restarts_on :
    ∃ s, exec (healStep "linux") (.init "linux") (stuckPolls 15) = some s ∧
      (recent s.decided (14 * minute)).length = 5 ∧ ¬Breaker s :=
  ⟨_, rfl, by decide, fun h => absurd (h.1 (14 * minute)) (by decide)⟩

end AikeyProxy.Supervisor
