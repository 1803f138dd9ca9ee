import AikeyProxy.Proof.ManagedChain

/-!
# The number on an attempt

Every attempt of a chain is stamped with its number, which the usage event of the attempt reports.
The number is the place of the hop in the try order, so a hop that is passed over without an attempt
leaves a gap.
-/

namespace AikeyProxy.Proxy

open Lib Supervisor List ChainAttempt

variable {policy : FallbackPolicy} {chain : CandidateChain} {s : ChainState} {req : ChainRequest}

/-- `rc.FallbackAttempt`. -/
def ChainAttempt.fallbackAttempt (a : ChainAttempt) : Nat := a.place + 1

/-- The field of the event: zero stands for a request that walked no chain. -/
def reportedAttempt (fallbackAttempt : Nat) : Option Nat :=
  if 0 < fallbackAttempt then some fallbackAttempt else none

/-- The attempts of a request are reported as 1, 2, …, in the order they were made. -/
def NumbersAttempts (t : ChainTrace) : Prop :=
  t.loop.tried.map (fun a => reportedAttempt a.fallbackAttempt) =
    (List.range t.loop.tried.length).map fun k => some (k + 1)

/-- No hop is passed over before one that is attempted: each has a credential, an adapter and an
address. -/
def NonePassedOver (policy : FallbackPolicy) (chain : CandidateChain) (s : ChainState)
    (req : ChainRequest) : Prop :=
  ∀ d hop, Attempts (chainDeadline policy req.startTime) req.env 0 (tryOrder policy chain s req)
      d hop →
    ∀ e < d, (req.env e).usable = true

/-! ## Places without a gap -/

theorem eq_range_of_closed {l : List Nat} (hlt : l.Pairwise (· < ·))
    (hclosed : ∀ n ∈ l, ∀ m < n, m ∈ l) : l = List.range l.length := by
  induction l using List.reverseRecOn with
  | nil => rfl
  | append_singleton l a ih =>
    rw [pairwise_append] at hlt
    have hbelow : ∀ n ∈ l, n < a := fun n hn => hlt.2.2 n hn a mem_cons_self
    have hmem : ∀ m < a, m ∈ l := by
      intro m hm
      rcases mem_append.mp (hclosed a (by simp) m hm) with h | h
      · exact h
      · exact absurd (mem_singleton.mp h) (by omega)
    have hl := ih hlt.1 fun n hn m hm => hmem m (hm.trans (hbelow n hn))
    -- the places before the last one are exactly those below it
    have hlen : a = l.length := by
      rcases Nat.lt_trichotomy a l.length with h | h | h
      · exact absurd (hbelow a (hl ▸ mem_range.mpr h)) (by omega)
      · exact h
      · have := hmem _ h
        rw [hl] at this
        simp at this
    rw [length_append, length_singleton, range_succ, ← hl, hlen]

theorem numbersAttempts_iff {t : ChainTrace}
    (hlt : (t.loop.tried.map ChainAttempt.place).Pairwise (· < ·)) :
    NumbersAttempts t ↔ ∀ a ∈ t.loop.tried, ∀ m < a.place, ∃ b ∈ t.loop.tried, b.place = m := by
  have hnumbers : NumbersAttempts t ↔
      t.loop.tried.map place = List.range t.loop.tried.length := by
    have hstamp : (fun a : ChainAttempt => reportedAttempt a.fallbackAttempt) =
        (fun k => some (k + 1)) ∘ place := by
      funext a
      simp [reportedAttempt, ChainAttempt.fallbackAttempt]
    rw [NumbersAttempts, hstamp, ← map_map]
    exact map_injective_iff.mpr (fun a b h => by simpa using h) |>.eq_iff
  rw [hnumbers]
  constructor
  · intro h a ha m hm
    have hplace : a.place ∈ List.range t.loop.tried.length := h ▸ mem_map_of_mem ha
    exact mem_map.mp (h ▸ mem_range.mpr (hm.trans (mem_range.mp hplace)))
  · intro h
    rw [← length_map (f := place)]
    refine eq_range_of_closed hlt fun n hn m hm => ?_
    obtain ⟨a, ha, rfl⟩ := mem_map.mp hn
    exact mem_map.mpr (h a ha m hm)

/-! ## The result -/

theorem served_numbers_iff (hne : chain.candidates ≠ []) (hbody : req.bodyOk = true) :
    NumbersAttempts (serveManagedChain policy chain s req).2 ↔
      NonePassedOver policy chain s req := by
  obtain ⟨-, hloop, -⟩ := serveManagedChain_loop policy (s := s) hne hbody
  have hover : WalkOver policy (chainLoop policy (chainDeadline policy req.startTime) req.env 0
      (tryOrder policy chain s req) (.start s.cooldown)).1 := chainLoop_over (walkedTo_start _)
  rw [numbersAttempts_iff (hloop ▸ hover.places)]
  have htried := mem_served_tried policy (s := s) hne hbody
  constructor
  · intro h d hop hat e he
    obtain ⟨b, hb, rfl⟩ := h _ ((htried _).mpr ⟨d, hop, hat, rfl⟩) e he
    obtain ⟨d', hop', hat', rfl⟩ := (htried b).mp hb
    simpa using hat'.usable
  · intro h a ha m hm
    obtain ⟨d, hop, hat, rfl⟩ := (htried a).mp ha
    -- the loop came past place `m`, and the hop there could be used
    obtain ⟨hop', hhop'⟩ : ∃ hop', (tryOrder policy chain s req)[m]? = some hop' := by
      have hlen := (List.getElem?_eq_some_iff.mp hat.hop).1
      exact ⟨_, List.getElem?_eq_getElem (Nat.lt_trans hm hlen)⟩
    have hin := hat.reached m hm
    exact ⟨_, (htried _).mpr ⟨m, hop',
          ⟨fun e he => hat.reached e (Nat.lt_trans he hm), hhop', hin.1,
      by simpa using h d hop hat m hm⟩, rfl⟩, rfl⟩

/-- A request numbers its attempts exactly under the condition; one whose body cannot be read makes
none. -/
theorem attempt_numbers_iff (policy : FallbackPolicy) (chain : CandidateChain) (s : ChainState)
    (req : ChainRequest) :
    NumbersAttempts (serveManagedChain policy chain s req).2 ↔
      (req.bodyOk = true → NonePassedOver policy chain s req) := by
  cases hc : chain.candidates with
  | nil =>
    have hnone : NumbersAttempts (serveManagedChain policy chain s req).2 := by
      rw [serveManagedChain, hc]
      rfl
    refine iff_of_true hnone fun _ d hop hat => absurd hat ?_
    rw [tryOrder, hc]
    exact not_attempts_nil
  | cons primary rest =>
    cases hbody : req.bodyOk with
    | false =>
      refine iff_of_true ?_ nofun
      rw [serveManagedChain, hc]
      simp only [hbody]
      rfl
    | true =>
      rw [served_numbers_iff (by simp [hc]) hbody]
      exact ⟨fun h _ => h, fun h => h rfl⟩

def threeHops : CandidateChain :=
  { pairChain with candidates := pairChain.candidates ++
      [{ virtualKeyID := "vk", routeSource := .team, providerCode := "kimi",
         protocolType := "anthropic", credentialID := "c3", priority := 3, routeGroupID := "g" }] }

/-- The first hop is overloaded, the second has no credential, the third serves. -/
def secondSkipped : Nat → HopEnv := fun i =>
  { everyHop (.upstream { status := if i = 0 then 503 else 200 }) i with credential := i != 1 }

theorem skipped_hop_counted :
    ¬ ∀ (policy : FallbackPolicy) (chain : CandidateChain) (s : ChainState) (req : ChainRequest),
      NumbersAttempts (serveManagedChain policy chain s req).2 := by
  intro hall
  have h := hall ⟨300000, 0, 0, 60000⟩ threeHops emptyState ⟨true, 0, 0, secondSkipped⟩
  revert h
  unfold NumbersAttempts
  decide

end AikeyProxy.Proxy
