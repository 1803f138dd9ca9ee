import AikeyProxy.Supervisor.RailHealth

/-!
# What the health of a rail says about its history

Refusals count as failures without ever being at a threshold themselves, and a failure that is not
at one keeps the state. So the third or twentieth failure is missed when it is a refusal, and a
transient failure behind a refusal leaves the rail refused.
-/

namespace AikeyProxy.Supervisor

open RailRunner

def streak (history : List (Option RailError)) : Nat := (history.takeWhile Option.isSome).length

/-- What the state of a rail is to say about the attempted cycles. -/
structure Reflects (r : RailRunner) (history : List (Option RailError)) : Prop where
  ok : r.state = .ok ↔ history.head? = some none
  refused : r.state = .needsReauth ↔ history.head? = some (some .revoked)
  stale : history.head? = some (some .transient) → 3 ≤ streak history → streak history < 20 →
    r.state = .stale
  offline : history.head? = some (some .transient) → 20 ≤ streak history → r.state = .offline
  skipped : r.isTerminal.2 = true → history.head? = some (some .revoked)

/-- Going back from a transient failure over others like it, one comes to the third or twentieth
failure of the streak or to the first cycle ever, and not to a success or a refusal. -/
def Announced : List (Option RailError) → Prop
  | some .transient :: history =>
    streak history = 2 ∨ streak history = 19 ∨ history = [] ∨
      history.head? = some (some .transient) ∧ Announced history
  | _ => True

def stateOf : List (Option RailError) → RailState
  | [] => .init
  | none :: _ => .ok
  | some .revoked :: _ => .needsReauth
  | some .transient :: history =>
    if streak history + 1 = railStaleAfterFailures then .stale
    else if streak history + 1 = railOfflineAfterFailures then .offline
    else stateOf history

theorem cycle_eq {r : RailRunner} {history : List (Option RailError)} (c : RailCycle)
    (hstate : r.state = stateOf history) (hcount : r.failures = streak history) :
    (r.cycle c).1.state = stateOf ((r.cycle c).2.toList ++ history) ∧
      (r.cycle c).1.failures = streak ((r.cycle c).2.toList ++ history) := by
  have hterm : r.isTerminal.1.state = stateOf history ∧ r.isTerminal.1.failures = streak history := by
    unfold isTerminal
    split_ifs <;> exact ⟨hstate, hcount⟩
  unfold cycle
  split
  next r' hr => rwa [hr] at hterm
  next r' hr => rwa [hr] at hterm
  next r' err hr =>
    rw [hr] at hterm
    obtain ⟨hstate', hcount'⟩ := hterm
    match err with
    | none => exact ⟨rfl, rfl⟩
    | some .revoked => exact ⟨rfl, congrArg (· + 1) hcount'⟩
    | some .transient =>
      dsimp only at hstate' hcount'
      dsimp only [observe, Option.toList, List.cons_append, List.nil_append, stateOf]
      rw [hcount']
      split_ifs
      · exact ⟨rfl, rfl⟩
      · exact ⟨rfl, rfl⟩
      · exact ⟨hstate', rfl⟩

theorem railAfter_eq (cycles : List RailCycle) :
    (railAfter cycles).1.state = stateOf (railAfter cycles).2 ∧
      (railAfter cycles).1.failures = streak (railAfter cycles).2 := by
  induction cycles using List.reverseRecOn with
  | nil => exact ⟨rfl, rfl⟩
  | append_singleton cycles c ih =>
    rw [railAfter, List.foldl_append]
    exact cycle_eq c ih.1 ih.2

variable {history : List (Option RailError)}

/-- The state behind an announced series of transient failures is the one of its length. -/
theorem stateOf_announced : ∀ {history : List (Option RailError)},
    Announced (some .transient :: history) →
    stateOf (some .transient :: history) = if streak history < 2 then .init
      else if streak history < 19 then .stale else .offline := by
  intro history h
  rw [stateOf, railStaleAfterFailures, railOfflineAfterFailures]
  obtain h2 | h19 | rfl | ⟨hlast, hrest⟩ := h
  · simp [h2]
  · simp [h19]
  · rfl
  · obtain ⟨history, rfl⟩ : ∃ rest, history = some .transient :: rest := by
      cases history with
      | nil => cases hlast
      | cons e rest => cases hlast; exact ⟨rest, rfl⟩
    rw [stateOf_announced hrest]
    have hstreak : streak (some .transient :: history) = streak history + 1 := rfl
    rw [hstreak]
    split_ifs <;> first | rfl | omega

theorem stateOf_not_announced : ∀ {history : List (Option RailError)},
    ¬Announced (some .transient :: history) →
    stateOf (some .transient :: history) = .ok ∨ stateOf (some .transient :: history) = .needsReauth := by
  intro history h
  simp only [Announced, not_or] at h
  obtain ⟨h2, h19, hne, hlast⟩ := h
  rw [stateOf, railStaleAfterFailures, railOfflineAfterFailures, if_neg (by omega),
    if_neg (by omega)]
  match history with
  | [] => exact absurd rfl hne
  | none :: _ => exact .inl rfl
  | some .revoked :: _ => exact .inr rfl
  | some .transient :: rest => exact stateOf_not_announced fun hrest => hlast ⟨rfl, hrest⟩

/-- **A rail's health reflects its history exactly if its transient failures were announced.** -/
theorem rail_health_iff (cycles : List RailCycle) :
    Reflects (railAfter cycles).1 (railAfter cycles).2 ↔ Announced (railAfter cycles).2 := by
  obtain ⟨hstate, -⟩ := railAfter_eq cycles
  generalize (railAfter cycles).1 = r at hstate
  generalize (railAfter cycles).2 = history at hstate
  have hskip : r.isTerminal.2 = true → r.state = .needsReauth := by
    unfold isTerminal
    split_ifs with hne
    all_goals simp_all
  constructor
  · intro h
    match history with
    | [] | none :: _ | some .revoked :: _ => trivial
    | some .transient :: rest =>
      by_contra hnot
      rcases stateOf_not_announced hnot with hok | href
      · cases h.ok.mp (hstate.trans hok)
      · cases h.refused.mp (hstate.trans href)
  · intro h
    match history with
    | [] => constructor <;> simp_all [stateOf]
    | none :: _ => constructor <;> simp_all [stateOf]
    | some .revoked :: _ => constructor <;> simp_all [stateOf]
    | some .transient :: rest =>
      rw [stateOf_announced h] at hstate
      have hstreak : streak (some .transient :: rest) = streak rest + 1 := rfl
      have hbad : r.state ≠ .ok ∧ r.state ≠ .needsReauth := by
        rw [hstate]
        split_ifs <;> exact ⟨nofun, nofun⟩
      exact {
        ok := iff_of_false hbad.1 nofun
        refused := iff_of_false hbad.2 nofun
        stale := fun _ h3 h20 => by rw [hstate, if_neg (by omega), if_pos (by omega)]
        offline := fun _ h20 => by rw [hstate, if_neg (by omega), if_neg (by omega)]
        skipped := fun h => absurd (hskip h) hbad.2 }

/-- A refusal, and sixty cycles later, at the next attempt, a transient failure: the rail stays
refused. -/
theorem transient_after_refusal_refused :
    (railAfter (.outcome (some .revoked) :: .replicate 60 (.outcome (some .transient)))) =
        (⟨.needsReauth, 2, 0⟩, [some .transient, some .revoked]) ∧
      ¬Reflects ⟨.needsReauth, 2, 0⟩ [some .transient, some .revoked] :=
  ⟨by decide +kernel, fun h => nomatch h.refused.mp rfl⟩

end AikeyProxy.Supervisor
