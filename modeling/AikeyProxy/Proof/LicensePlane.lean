import Mathlib.Tactic.Common
import AikeyProxy.Supervisor.LicensePlane

/-!
# The license gate follows the last recognised answer

Memory holds the last recognised answer with the time of its poll, or that time rounded down to a
millisecond once a restart has read it back from the file. A file from before the first millisecond
of the epoch is not read back, so the clock has to be past it.
-/

namespace AikeyProxy.Supervisor

open LicensePlaneCache

def clockAfter (now : Int) : LicenseAct → Int
  | .pass duration => now + duration
  | .poll _ | .restart => now

def answerAfter (now : Int) (last : Option (String × Int)) : LicenseAct → Option (String × Int)
  | .poll (.gate g) => if recognisedGate g then some (g, now) else last
  | _ => last

/-- The last recognised answer of a history that starts at `now`, with the time of its poll. -/
def lastAnswer (now : Int) (last : Option (String × Int)) : List LicenseAct → Option (String × Int)
  | [] => last
  | a :: acts => lastAnswer (clockAfter now a) (answerAfter now last a) acts

def Remembers (w : LicenseWorld) : Option (String × Int) → Prop
  | none => w.cache = none ∧ w.file = none
  | some (g, observed) =>
    recognisedGate g = true ∧ millisecond ≤ observed ∧ w.file = some ⟨g, observed / millisecond⟩ ∧
      ∃ st, w.cache = some st ∧ st.forwarding = g ∧ st.observedAt ≤ observed ∧
        observed - millisecond < st.observedAt

variable {w : LicenseWorld} {last : Option (String × Int)}

theorem Remembers.pass (h : Remembers w last) (duration : Nat) :
    Remembers { w with now := w.now + duration } last := by
  rcases last with _ | ⟨g, observed⟩ <;> exact h

theorem Remembers.restart (h : Remembers w last) :
    Remembers (hydrateLicensePlane { w with cache := none }) last := by
  rcases last with _ | ⟨g, observed⟩
  · obtain ⟨-, hfile⟩ := h
    simp [hydrateLicensePlane, hfile, Remembers]
  · obtain ⟨hg, hobs, hfile, -⟩ := h
    unfold millisecond at hobs hfile
    have hpos : ¬ observed / 1000000 ≤ 0 := by omega
    have hzero : observed / 1000000 * 1000000 ≠ zeroTime := by
      unfold zeroTime millisecond
      omega
    have hworld : hydrateLicensePlane { w with cache := none } =
        { w with cache := some ⟨g, observed / 1000000 * 1000000, true⟩ } := by
      simp [hydrateLicensePlane, hfile, hpos, hg, hydrate, millisecond, hzero]
    rw [hworld]
    refine ⟨hg, hobs, hfile, _, rfl, rfl, ?_, ?_⟩
    · show observed / 1000000 * 1000000 ≤ observed
      omega
    · show observed - 1000000 < observed / 1000000 * 1000000
      omega

theorem Remembers.poll (h : Remembers w last) (hnow : millisecond ≤ w.now)
    (answer : LicenseAnswer) :
    Remembers (syncLicensePlane w answer).2 (answerAfter w.now last (.poll answer)) := by
  cases answer with
  | noToken | failed | undecodable => exact h
  | status code =>
    simp only [syncLicensePlane]
    split <;> exact h
  | gate g =>
    simp only [syncLicensePlane, answerAfter]
    cases hg : recognisedGate g with
    | false => simpa using h
    | true =>
      simp only [Bool.not_true, Bool.false_eq_true, if_false, if_true]
      refine ⟨hg, hnow, rfl, _, rfl, rfl, Int.le_refl _, ?_⟩
      show w.now - 1000000 < w.now
      omega

theorem now_licenseStep (w : LicenseWorld) (a : LicenseAct) :
    (licenseStep w a).now = clockAfter w.now a := by
  cases a with
  | pass duration => rfl
  | restart =>
    show (hydrateLicensePlane _).now = w.now
    unfold hydrateLicensePlane
    grind -linarith
  | poll answer =>
    show (syncLicensePlane w answer).2.now = w.now
    unfold syncLicensePlane persistLicensePlane
    grind -linarith

theorem Remembers.run (acts : List LicenseAct) :
    ∀ {w : LicenseWorld} {last : Option (String × Int)},
    millisecond ≤ w.now → Remembers w last →
      Remembers (acts.foldl licenseStep w) (lastAnswer w.now last acts) := by
  induction acts with
  | nil => exact fun _ h => h
  | cons a acts ih =>
    intro w last hnow h
    have hclock := now_licenseStep w a
    rw [List.foldl_cons, lastAnswer, ← hclock]
    refine ih ?_ ?_
    · rw [hclock]
      cases a <;> simp only [clockAfter] <;> omega
    · cases a with
      | pass duration => exact h.pass duration
      | restart => exact h.restart
      | poll answer => exact h.poll hnow answer

/-- **The license gate follows the last recognised answer.** Forwarding is allowed before the first
one, and then while the last one was `allow` and is at most seven days old, up to the fraction of a
millisecond that the file does not keep. -/
theorem license_gate_follows_last_answer (start : Int) (hstart : millisecond ≤ start)
    (acts : List LicenseAct) :
    let w := acts.foldl licenseStep ⟨start, none, none⟩
    match lastAnswer start none acts with
    | none => w.cache.forwardingAllowed w.now = true
    | some (g, observed) =>
      (w.cache.forwardingAllowed w.now = true →
        g = licenseGateAllow ∧ w.now - observed ≤ licensePlaneStaleCeiling) ∧
      (g = licenseGateAllow → w.now - observed + millisecond ≤ licensePlaneStaleCeiling →
        w.cache.forwardingAllowed w.now = true) := by
  have h : Remembers (acts.foldl licenseStep ⟨start, none, none⟩) (lastAnswer start none acts) :=
    Remembers.run acts hstart ⟨rfl, rfl⟩
  revert h
  generalize acts.foldl licenseStep ⟨start, none, none⟩ = w
  dsimp only
  rcases lastAnswer start none acts with _ | ⟨g, observed⟩
  · rintro ⟨hcache, -⟩
    rw [hcache]
    rfl
  · rintro ⟨-, -, -, st, hcache, rfl, hle, hlt⟩
    have hgate : w.cache.forwardingAllowed w.now = true ↔
        w.now - st.observedAt ≤ licensePlaneStaleCeiling ∧ st.forwarding = licenseGateAllow := by
      rw [hcache, forwardingAllowed]
      split
      · simp only [Bool.false_eq_true, false_iff, not_and]
        omega
      · rw [beq_iff_eq]
        exact ⟨fun hg => ⟨by omega, hg⟩, And.right⟩
    rw [hgate]
    exact ⟨fun h => ⟨h.2, by omega⟩, fun hg hage => ⟨by omega, hg⟩⟩

/-- An hour after a denial, and a restart later, the gate is still closed. -/
theorem denial_survives_restart :
    millisecond ≤ 1700000000000000000 ∧
      let w := [.poll (.gate "deny"), .pass 3600000000000, .restart].foldl licenseStep
        ⟨1700000000000000000, none, none⟩
      w.cache.forwardingAllowed w.now = false := by
  refine ⟨by decide, Bool.eq_false_iff.mpr fun hallowed => ?_⟩
  have hgate := (license_gate_follows_last_answer 1700000000000000000 (by decide)
    [.poll (.gate "deny"), .pass 3600000000000, .restart]).1 hallowed
  exact absurd hgate.1 (by decide)

/-- With the clock at the epoch a restart forgets a denial: the file says zero milliseconds, which
means no value. -/
theorem denial_at_epoch_forgotten :
    let acts := [LicenseAct.poll (.gate "deny"), .restart]
    let w := acts.foldl licenseStep ⟨0, none, none⟩
    lastAnswer 0 none acts = some (licenseGateDeny, 0) ∧
      w.cache.forwardingAllowed w.now = true := by
  decide

end AikeyProxy.Supervisor
