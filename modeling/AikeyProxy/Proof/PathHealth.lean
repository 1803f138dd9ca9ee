import AikeyProxy.Proxy.PathHealth

/-!
# One probe at a time

`Permit` lets a probe out only while the path's flag is down, but every report on the path takes it
down. As long as a report made while a probe is out comes from that probe, the flag is up whenever
one is out, and there is never a second one.
-/

namespace AikeyProxy.Proxy

open Lib ProviderPathHealthManager AList PathWorld

variable {shortHash : String → String} {w w' : PathWorld} {m : ProviderPathHealthManager}

/-- At most one probe is out on each path, and one that `Permit` would let out now would be
the only one. -/
def SingleFlight (shortHash : String → String) (w : PathWorld) : Prop :=
  (∀ key, w.probesOut key ≤ 1) ∧
  ∀ path, (w.manager.permit shortHash w.now path).2.probe = true → w.probesOut path.key = 0

/-- When a request reports on a path, either no probe is out on it or the request is such a probe;
the inputs change only while no probe is out. -/
def PathStepOk (w : PathWorld) : PathAct → Prop
  | .report i _ => ∀ f ∈ w.flights[i]?, w.probesOut f.path.key = 0 ∨ f.outstanding = true
  | .inputsChanged => ∀ f ∈ w.flights, f.outstanding = false
  | .wait _ | .permit _ => True

instance (w : PathWorld) : ∀ a, Decidable (PathStepOk w a)
  | .report .. | .inputsChanged => inferInstanceAs (Decidable (∀ _ ∈ _, _))
  | .wait _ | .permit _ => isTrue trivial

/-! ## What the operations do to the entries -/

variable {e : ProviderPathEntry} {o : PathOutcome} {path : ProviderPath}

theorem mayProbe_idle {now : Int} (h : e.mayProbe now = true) : e.probeInFlight = false := by
  unfold ProviderPathEntry.mayProbe at h
  split at h <;> simp_all

theorem permit_cases (shortHash : String → String) (m : ProviderPathHealthManager) (now : Int)
    (path : ProviderPath) :
    ((m.permit shortHash now path).1 = m ∧ (m.permit shortHash now path).2.probe = false) ∨
    ∃ e, m.entries.lookup path.key = some e ∧ e.probeInFlight = false ∧
      (m.permit shortHash now path).1 =
        ⟨m.entries.insert path.key { e with state := .halfOpen, probeInFlight := true }⟩ ∧
      (m.permit shortHash now path).2.allowed = true ∧
      (m.permit shortHash now path).2.probe = true := by
  fun_cases ProviderPathHealthManager.permit shortHash m now path
  case case3 e hl hmay _ => exact .inr ⟨e, hl, mayProbe_idle hmay, rfl, rfl, rfl⟩
  all_goals exact .inl ⟨rfl, rfl⟩

theorem lookup_note {now : Int} {key : String} (hne : key ≠ path.key) :
    (m.note now path o).entries.lookup key = m.entries.lookup key := by
  cases o <;> rw [ProviderPathHealthManager.note]
  case transportFailure => fun_cases noteTransportFailure <;>
    first | rfl | exact lookup_insert_ne hne
  case httpResponse => fun_cases noteHTTPResponse <;>
    first | rfl | exact lookup_erase_ne hne
  case probeCanceled => fun_cases noteProbeCanceled <;>
    first | rfl | exact lookup_insert_ne hne

/-! ## What the steps do to the probes that are out -/

theorem probesOut_append (w : PathWorld) (f : PathFlight) (manager : ProviderPathHealthManager)
    (key : String) :
    PathWorld.probesOut { w with manager := manager, flights := w.flights ++ [f] } key =
      w.probesOut key + if f.outstanding ∧ f.path.key = key then 1 else 0 := by
  simp [probesOut, List.countP_append, List.countP_cons]

theorem probesOut_report {i : Nat} {f : PathFlight} (hf : w.flights[i]? = some f)
    (manager : ProviderPathHealthManager) (key : String) :
    PathWorld.probesOut
        { w with manager := manager, flights := w.flights.set i { f with reported := true } } key =
      w.probesOut key - if f.outstanding ∧ f.path.key = key then 1 else 0 := by
  obtain ⟨hi, hget⟩ := List.getElem?_eq_some_iff.mp hf
  simp [probesOut, List.countP_set hi, hget, PathFlight.outstanding]

/-! ## The run invariant -/

def Flagged (w : PathWorld) : Prop :=
  ∀ key, w.probesOut key ≤ 1 ∧
    (w.probesOut key ≠ 0 → ∃ e, w.manager.entries.lookup key = some e ∧ e.probeInFlight = true)

theorem flagged_init : Flagged PathWorld.init := fun _ => ⟨Nat.zero_le _, fun h => absurd rfl h⟩

theorem Flagged.none_out (h : Flagged w) (he : w.manager.entries.lookup path.key = some e)
    (hidle : e.probeInFlight = false) : w.probesOut path.key = 0 := by
  by_contra hout
  obtain ⟨e', he', hup⟩ := (h path.key).2 hout
  cases he.symm.trans he'
  rw [hidle] at hup
  cases hup

theorem Flagged.permit (h : Flagged w) (path : ProviderPath)
    (hs : pathStep shortHash w (.permit path) = some w') : Flagged w' := by
  simp only [pathStep] at hs
  rcases permit_cases shortHash w.manager w.now path with
    ⟨hman, hno⟩ | ⟨e, he, hidle, hman, hallowed, hprobe⟩
  · -- not a probe: neither the entries nor the probes change
    rw [hman, hno, if_neg Bool.false_ne_true] at hs
    split at hs
    · cases hs
      intro key
      have hout := probesOut_append w ⟨path, none, false⟩ w.manager key
      simp only [PathFlight.outstanding, Option.isSome_none, Bool.false_and, Bool.false_eq_true,
        false_and, if_false, Nat.add_zero] at hout
      rw [hout]
      exact h key
    · cases hs
      exact h
  · -- a probe: the flag was down, so none was out, and now it is up
    rw [hman, hallowed, hprobe, if_pos rfl, if_pos rfl] at hs
    cases hs
    intro key
    rw [probesOut_append]
    have hnone : w.probesOut path.key = 0 := h.none_out he hidle
    by_cases hkey : path.key = key
    · subst hkey
      refine ⟨?_, fun _ => ⟨_, lookup_insert _, rfl⟩⟩
      rw [hnone]
      split <;> omega
    · rw [if_neg fun hc => hkey hc.2, Nat.add_zero]
      refine ⟨(h key).1, fun hout => ?_⟩
      obtain ⟨e', he', hup⟩ := (h key).2 hout
      exact ⟨e', (lookup_insert_ne (Ne.symm hkey)).trans he', hup⟩

theorem Flagged.report (h : Flagged w) {i : Nat} (hok : PathStepOk w (.report i o))
    (hs : pathStep shortHash w (.report i o) = some w') : Flagged w' := by
  simp only [pathStep] at hs
  cases hf : w.flights[i]? with
  | none => rw [hf] at hs; cases hs
  | some f =>
    rw [hf] at hs
    cases hs
    intro key
    rw [probesOut_report hf]
    by_cases hkey : f.path.key = key
    · -- on the reported path nothing is out any more
      subst hkey
      have hzero : w.probesOut f.path.key -
          (if f.outstanding = true ∧ f.path.key = f.path.key then 1 else 0) = 0 := by
        have hone := (h f.path.key).1
        rcases hok f hf with hnone | hprobe
        · omega
        · rw [if_pos ⟨hprobe, rfl⟩]
          omega
      rw [hzero]
      exact ⟨Nat.zero_le _, fun hc => absurd rfl hc⟩
    · -- elsewhere neither the probes nor the flag have changed
      rw [if_neg fun hc => hkey hc.2, Nat.sub_zero]
      refine ⟨(h key).1, fun hout => ?_⟩
      obtain ⟨e, he, hup⟩ := (h key).2 hout
      exact ⟨e, (lookup_note (Ne.symm hkey)).trans he, hup⟩

theorem Flagged.inputsChanged (hok : PathStepOk w .inputsChanged)
    (hs : pathStep shortHash w .inputsChanged = some w') : Flagged w' := by
  cases hs
  intro key
  have hzero : w.probesOut key = 0 := by
    rw [probesOut, List.countP_eq_zero]
    intro f hf
    simp [hok f hf]
  exact ⟨by change w.probesOut key ≤ 1; omega, fun hc => absurd hzero hc⟩

theorem Flagged.step {a : PathAct} (h : Flagged w) (hok : PathStepOk w a)
    (hs : pathStep shortHash w a = some w') : Flagged w' := by
  cases a with
  | wait d => cases hs; exact h
  | permit path => exact h.permit path hs
  | report i o => exact h.report hok hs
  | inputsChanged => exact Flagged.inputsChanged hok hs

theorem Flagged.singleFlight (h : Flagged w) : SingleFlight shortHash w := by
  refine ⟨fun key => (h key).1, fun path hprobe => ?_⟩
  rcases permit_cases shortHash w.manager w.now path with
    ⟨-, hno⟩ | ⟨e, he, hidle, -⟩
  · rw [hno] at hprobe
    cases hprobe
  · exact h.none_out he hidle

/-! ## The result -/

/-- In a run in which only the probe of a path reports while it is out, no path ever has a
second probe. -/
theorem probe_single_flight (shortHash : String → String) (acts : List PathAct) (w : PathWorld)
    (hrun : Guarded (pathStep shortHash) PathStepOk PathWorld.init acts w) :
    SingleFlight shortHash w :=
  (hrun.invariant (fun _ _ _ hi hok hs => hi.step hok hs) flagged_init).singleFlight

def directPath : ProviderPath := ⟨"k", "anthropic", "anthropic", "node", "o", ""⟩

/-- Two requests find the path broken, and a third goes out as the probe a second later. -/
def openAndProbe (first : Nat) : List PathAct :=
  [.permit directPath, .permit directPath, .report first (.transportFailure .transport),
    .report (first + 1) (.transportFailure .transport), .wait 1000000000, .permit directPath]

theorem lone_probe_single_flight :
    ∃ w, Guarded (pathStep id) PathStepOk PathWorld.init (openAndProbe 0) w ∧
      w.probesOut "k" = 1 ∧ SingleFlight id w := by
  obtain ⟨w, hexec, hout⟩ : ∃ w, guardedExec (pathStep id) PathStepOk PathWorld.init
      (openAndProbe 0) = some w ∧ w.probesOut "k" = 1 := ⟨_, rfl, rfl⟩
  have hrun := Guarded.of_guardedExec hexec
  exact ⟨w, hrun, hout, probe_single_flight id _ w hrun⟩

/-- A request let out while the path was healthy ends while the probe is out: its closing
`NoteProbeCanceled` takes the flag down, and a second probe goes out. -/
theorem two_probes_out :
    ¬ ∀ (shortHash : String → String) (acts : List PathAct) (w : PathWorld),
      PathAct.inputsChanged ∉ acts → exec (pathStep shortHash) PathWorld.init acts = some w →
      ∀ key, (w.flights.filter fun f =>
        f.outstanding && decide (f.probeOf = some .opened ∧ f.path.key = key)).length ≤ 1 := by
  intro hall
  obtain ⟨w, hexec, htwo⟩ : ∃ w, exec (pathStep id) PathWorld.init
      ((.permit directPath :: openAndProbe 1) ++ [.report 0 .probeCanceled, .permit directPath]) =
        some w ∧
      (w.flights.filter fun f =>
        f.outstanding && decide (f.probeOf = some .opened ∧ f.path.key = "k")).length = 2 :=
    ⟨_, rfl, rfl⟩
  have hone := hall id _ w (by decide) hexec "k"
  omega

end AikeyProxy.Proxy
