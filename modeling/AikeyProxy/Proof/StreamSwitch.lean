import AikeyProxy.Events.Reconcile
import AikeyProxy.Events.StreamSwitch
import AikeyProxy.Proof.SeqLanes

/-!
# Floors are reported while their process lives

A floor gets into memory in the step that writes the seed. A later process finds the lane's file
there and does not seed it again, so it has no floor to report. Within one process the floor stays
until it is cleared, and until then a reconcile pass leaves the numbers at or below it alone.
-/

namespace AikeyProxy.Events

open Lib SwitchWorld Function

def FloorReported (s : SwitchWorld) : Prop :=
  ∀ g ∈ s.seq.live, ∀ lane floor, s.owed lane = some floor →
    ((s.seq.gens g).lanes lane).isSome → s.pendingFloor g lane = floor

/-- A reconcile pass neither sends again nor confirms lost the numbers at or below the floor of a
lane that the process uses and that owes one. -/
def FloorHeldBack (s : SwitchWorld) : Prop :=
  ∀ g ∈ s.seq.live, ∀ lane floor, s.owed lane = some floor →
    ((s.seq.gens g).lanes lane).isSome →
    ∀ (st : Reconciler) (sourceID : String) (w : Window), w.owedFloor = s.pendingFloor g lane →
      ∀ n ≤ floor, n ∉ w.notInWAL sourceID ∧ n ∉ st.gaveUp sourceID w ∧ n ∉ st.inWAL sourceID w

/-- One process at a time, and a lane that owes a floor is opened by the process that seeded it. -/
def SwitchOk (s : SwitchWorld) : SwitchAct → Prop
  | .seq (.newGeneration _) => s.seq.live = []
  | .seq (.load g) =>
    ∀ o ∈ (s.seq.gens g).opening, (s.owed o.1).isSome → s.seededHere o.1 = true
  | _ => True

/-! ## The invariant -/

structure SwitchInv (s : SwitchWorld) : Prop where
  single : ∀ g ∈ s.seq.live, s.seq.live = [g]
  reported : FloorReported s
  /-- The process that has written a seed has its floor in memory. -/
  floors : ∀ g ∈ s.seq.live, ∀ lane floor, s.owed lane = some floor →
    s.seededHere lane = true → s.pendingFloor g lane = floor
  seeds : ∀ g ∈ s.seq.live, ∀ lane hi, (s.seq.gens g).opening = some (lane, .seed hi) → 0 < hi
  positive : ∀ lane floor, s.owed lane = some floor → 0 < floor

variable {s s' : SwitchWorld} {g : Nat}

theorem SwitchInv.only (h : SwitchInv s) (hg : g ∈ s.seq.live) {g' : Nat} (hg' : g' ∈ s.seq.live) :
    g' = g := by
  rw [h.single g hg] at hg'
  exact List.mem_singleton.mp hg'

theorem SwitchInv.fresh (h : SwitchInv s) (howed : s'.owed = s.owed)
    (hlive : s'.seq.live = [] ∨
      ∃ g, s'.seq.live = [g] ∧ s'.seq.gens g = newLaneAllocator ∧ s'.seededHere = fun _ => false) :
    SwitchInv s' := by
  have hnew : ∀ g ∈ s'.seq.live, s'.seq.live = [g] ∧ s'.seq.gens g = newLaneAllocator ∧
      s'.seededHere = fun _ => false := by
    intro g hg
    rcases hlive with hnone | ⟨g', hlive', hgen⟩
    · rw [hnone] at hg
      cases hg
    · rw [hlive', List.mem_singleton] at hg
      rw [hg]
      exact ⟨hlive', hgen⟩
  refine ⟨fun g hg => (hnew g hg).1, fun g hg lane floor _ hopen => ?_,
    fun g hg lane floor _ hseeded => ?_, fun g hg lane hi ho => ?_, ?_⟩
  · rw [(hnew g hg).2.1] at hopen
    cases hopen
  · rw [(hnew g hg).2.2] at hseeded
    cases hseeded
  · rw [(hnew g hg).2.1] at ho
    cases ho
  · rw [howed]
    exact h.positive

/-- A step of the running process that leaves the floors alone: the lanes it opens have to be
accounted for, and the seeds it plans. -/
theorem SwitchInv.frame {seq : SeqWorld} (h : SwitchInv s) (hg : g ∈ s.seq.live)
    (hlive : seq.live = s.seq.live)
    (hfloor : (seq.gens g).pendingFloor = (s.seq.gens g).pendingFloor)
    (hopened : ∀ lane, ((seq.gens g).lanes lane).isSome → ((s.seq.gens g).lanes lane).isSome ∨
      ((s.owed lane).isSome → s.seededHere lane = true))
    (hseeds : ∀ lane hi, (seq.gens g).opening = some (lane, .seed hi) → 0 < hi) :
    SwitchInv { s with seq } := by
  have honly : ∀ g' ∈ seq.live, g' = g := fun g' hg' => h.only hg (hlive ▸ hg')
  have hsame : ∀ lane, pendingFloor { s with seq } g lane = s.pendingFloor g lane :=
    congrFun hfloor
  refine ⟨fun g' hg' => ?_, fun g' hg' lane floor hfl hopen => ?_,
    fun g' hg' lane floor hfl hseeded => ?_, fun g' hg' lane hi ho => ?_, h.positive⟩
  · rw [honly g' hg']
    exact hlive.trans (h.single g hg)
  · obtain rfl := honly g' hg'
    rw [hsame]
    rcases hopened lane hopen with hold | hnew
    · exact h.reported g' hg lane floor hfl hold
    · exact h.floors g' hg lane floor hfl (hnew (Option.isSome_of_eq_some hfl))
  · obtain rfl := honly g' hg'
    rw [hsame]
    exact h.floors g' hg lane floor hfl hseeded
  · obtain rfl := honly g' hg'
    exact hseeds lane hi ho

/-! ## Steps -/

theorem SwitchInv.note (h : SwitchInv s) (hg : g ∈ s.seq.live) {o : Option (String × ForPc)}
    (hseeds : ∀ lane hi, o = some (lane, .seed hi) → 0 < hi) :
    SwitchInv { s with seq := s.seq.setGen g { s.seq.gens g with opening := o } } := by
  refine h.frame hg rfl ?_ ?_ ?_ <;> rw [gens_setGen_self]
  · exact fun _ hopen => .inl hopen
  · exact hseeds

variable {seq : SeqWorld} {lane : String} {writeOk : Bool}

section

variable (h : SwitchInv s) (hg : g ∈ s.seq.live)

include h hg

theorem SwitchInv.stat (hs : s.seq.stat g lane = some seq) : SwitchInv { s with seq } := by
  revert hs
  fun_cases SeqWorld.stat s.seq g lane <;> intro hs <;> cases hs
  · exact h
  next hpos =>
    refine h.note hg ?_
    rintro lane' hi ⟨⟩
    exact hpos
  all_goals exact h.note hg (by rintro _ _ ⟨⟩)

/-- The step that writes the seed is the one that puts the floor into memory. -/
theorem SwitchInv.seed
    (hs : s.seq.seed g writeOk = some seq) : SwitchInv (s.record seq (.seed g writeOk)) := by
  revert hs
  fun_cases SeqWorld.seed s.seq g writeOk <;> intro hs <;> cases hs
  next lane hi ho hwrite =>
    have hpending : ∀ lane' floor, Function.update s.owed lane (some hi) lane' = some floor →
        (lane' ≠ lane → s.owed lane' = some floor → s.pendingFloor g lane' = floor) →
        Function.update (s.seq.gens g).pendingFloor lane hi lane' = floor := by
      intro lane' floor hfl hold
      by_cases heq : lane' = lane
      · subst heq
        rw [update_self] at hfl ⊢
        exact Option.some.inj hfl
      · rw [update_of_ne heq] at hfl ⊢
        exact hold heq hfl
    simp only [record, hwrite, ho]
    refine ⟨h.single, fun g' hg' lane' floor hfl hopen => ?_,
      fun g' hg' lane' floor hfl hseeded => ?_, fun g' hg' lane' hi' ho' => ?_,
      fun lane' floor hfl => ?_⟩
    · obtain rfl := h.only hg hg'
      unfold pendingFloor
      simp only [gens_setGen_self] at hopen ⊢
      exact hpending lane' floor hfl fun _ hold => h.reported g' hg lane' floor hold hopen
    · obtain rfl := h.only hg hg'
      unfold pendingFloor
      simp only [gens_setGen_self]
      refine hpending lane' floor hfl fun hne hold => ?_
      simp only [update_of_ne hne] at hseeded
      exact h.floors g' hg lane' floor hold hseeded
    · obtain rfl := h.only hg hg'
      simp only [gens_setGen_self] at ho'
      cases ho'
    · by_cases heq : lane' = lane
      · subst heq
        simp only [update_self, Option.some.injEq] at hfl
        rw [← hfl]
        exact h.seeds g hg lane' hi ho
      · simp only [update_of_ne heq] at hfl
        exact h.positive lane' floor hfl
  next hwrite =>
    rw [Bool.not_eq_true] at hwrite
    subst hwrite
    exact h.note hg (by rintro _ _ ⟨⟩)

theorem SwitchInv.load (hok : SwitchOk s (.seq (.load g)))
    (hs : s.seq.load g = some seq) : SwitchInv { s with seq } := by
  revert hs
  fun_cases SeqWorld.load s.seq g <;> intro hs <;> cases hs
  · exact h.note hg (by rintro _ _ ⟨⟩)
  next lane ho _ _ =>
    refine h.frame hg rfl ?_ ?_ ?_ <;> rw [gens_setGen_self]
    · intro lane' hopen
      by_cases heq : lane' = lane
      · subst heq
        exact .inr (hok _ ho)
      · simp only [update_of_ne heq] at hopen
        exact .inl hopen
    · rintro _ _ ⟨⟩

theorem SwitchInv.setLane {a b : SeqAllocator}
    (ha : (s.seq.gens g).lanes lane = some a) (hlive : seq.live = s.seq.live)
    (hgens : seq.gens = (s.seq.setLane g lane b).gens) : SwitchInv { s with seq } := by
  have hgen : seq.gens g = { s.seq.gens g with
      lanes := Function.update (s.seq.gens g).lanes lane (some b) } := by
    rw [hgens]
    exact gens_setGen_self _ _ _
  refine h.frame hg hlive (by rw [hgen]) (fun lane' hopen => .inl ?_) ?_
  · by_cases heq : lane' = lane
    · rw [heq, ha]
      rfl
    · rw [hgen] at hopen
      simp only [update_of_ne heq] at hopen
      exact hopen
  · intro lane' hi ho
    rw [hgen] at ho
    exact h.seeds g hg lane' hi ho

theorem SwitchInv.next (hs : s.seq.next g lane writeOk = some seq) : SwitchInv { s with seq } := by
  revert hs
  fun_cases SeqWorld.next s.seq g lane writeOk <;> intro hs <;> cases hs
  next ha _ _ _ => exact h.setLane hg ha rfl rfl
  · exact h
  next ha _ => exact h.setLane hg ha rfl rfl

theorem SwitchInv.close
    (hs : s.seq.close g lane writeOk = some seq) : SwitchInv { s with seq } := by
  revert hs
  fun_cases SeqWorld.close s.seq g lane writeOk <;> intro hs <;> cases hs
  · exact h
  next ha _ _ _ => exact h.setLane hg ha rfl rfl
  · exact h

end

theorem SwitchInv.retire (h : SwitchInv s) (g : Nat) :
    SwitchInv { s with seq := { s.seq.setGen g newLaneAllocator with
      live := s.seq.live.filter fun g' => decide (g' ≠ g) } } := by
  by_cases hnone : (s.seq.live.filter fun g' => decide (g' ≠ g)) = []
  · exact h.fresh rfl (.inl hnone)
  · -- another process is running, and it goes on
    obtain ⟨g', hg'⟩ := List.exists_mem_of_ne_nil _ hnone
    obtain ⟨hin, hne⟩ := List.mem_filter.mp hg'
    have hne : g' ≠ g := of_decide_eq_true hne
    have hlive := h.single g' hin
    have hgen : (s.seq.setGen g newLaneAllocator).gens g' = s.seq.gens g' := gens_setGen_ne _ _ hne
    refine h.frame hin ?_ ?_ ?_ ?_
    · rw [hlive]
      simp [hne]
    · exact congrArg LaneAllocator.pendingFloor hgen
    · intro lane hopen
      change (((s.seq.setGen g newLaneAllocator).gens g').lanes lane).isSome at hopen
      rw [hgen] at hopen
      exact .inl hopen
    · intro lane hi ho
      change ((s.seq.setGen g newLaneAllocator).gens g').opening = _ at ho
      rw [hgen] at ho
      exact h.seeds g' hin lane hi ho

theorem SwitchInv.clear (h : SwitchInv s) (hg : g ∈ s.seq.live) (lane : String) :
    SwitchInv (s.clearPendingFloor g lane) := by
  have hkept : ∀ lane' floor, (s.clearPendingFloor g lane).owed lane' = some floor →
      lane' ≠ lane ∧ s.owed lane' = some floor := by
    intro lane' floor hfl
    by_cases heq : lane' = lane
    · subst heq
      simp [clearPendingFloor] at hfl
    · simp only [clearPendingFloor, update_of_ne heq] at hfl
      exact ⟨heq, hfl⟩
  have hpending : ∀ lane', lane' ≠ lane →
      (s.clearPendingFloor g lane).pendingFloor g lane' = s.pendingFloor g lane' := by
    intro lane' hne
    unfold pendingFloor clearPendingFloor
    simp only [gens_setGen_self]
    rw [update_of_ne hne]
  refine ⟨h.single, fun g' hg' lane' floor hfl hopen => ?_,
    fun g' hg' lane' floor hfl hseeded => ?_, fun g' hg' lane' hi ho => ?_,
    fun lane' floor hfl => h.positive lane' floor (hkept lane' floor hfl).2⟩
  · obtain rfl := h.only hg hg'
    obtain ⟨hne, hold⟩ := hkept lane' floor hfl
    simp only [clearPendingFloor, gens_setGen_self] at hopen
    rw [hpending lane' hne]
    exact h.reported g' hg lane' floor hold hopen
  · obtain rfl := h.only hg hg'
    obtain ⟨hne, hold⟩ := hkept lane' floor hfl
    rw [hpending lane' hne]
    exact h.floors g' hg lane' floor hold hseeded
  · obtain rfl := h.only hg hg'
    simp only [clearPendingFloor, gens_setGen_self] at ho
    exact h.seeds g' hg lane' hi ho

theorem SwitchInv.step {act : SwitchAct} (h : SwitchInv s) (hok : SwitchOk s act)
    (hs : switchStep s act = some s') : SwitchInv s' := by
  cases act with
  | declareStreamSwitch g lane due posted =>
    simp only [switchStep] at hs
    split at hs <;> cases hs
    next hg => fun_cases SwitchWorld.declareStreamSwitch s g lane due posted <;>
      first | exact h | exact h.clear hg lane
  | seq a =>
    obtain ⟨seq, hseq, rfl⟩ := Option.map_eq_some_iff.mp hs
    revert hseq
    fun_cases seqStep s.seq a <;> intro hseq
    case case2 g _ =>
      cases hseq
      have hlive : s.seq.live = [] := hok
      refine h.fresh rfl (.inr ⟨g, ?_, gens_setGen_self s.seq g _, rfl⟩)
      simp only [record, hlive]
    case case3 hg => exact h.stat hg hseq
    case case5 hg => exact h.seed hg hseq
    case case7 hg => exact h.load hg hok hseq
    case case9 hg => exact h.next hg hseq
    case case11 hg => exact h.close hg hseq
    case case13 g =>
      cases hseq
      exact h.retire g
    case case14 =>
      cases hseq
      exact h.fresh rfl (.inl rfl)
    all_goals cases hseq

theorem SwitchInv.holdsBack (h : SwitchInv s) : FloorHeldBack s := by
  intro g hg lane floor howed hopen st sourceID w hw n hn
  rw [h.reported g hg lane floor howed hopen] at hw
  have hheld : heldBack w.owedFloor n = true := by
    simp only [heldBack, hw, Bool.and_eq_true, decide_eq_true_eq]
    exact ⟨h.positive lane floor howed, hn⟩
  simp [Window.notInWAL, Reconciler.gaveUp, Reconciler.inWAL, hheld]

/-- **An owed floor is reported until it is cleared**, and the numbers up to it are held back, in
every run whose steps meet `SwitchOk`. -/
theorem owed_floor_reported {disk : String → SeqFile} {acts : List SwitchAct} {s : SwitchWorld}
    (hrun : Guarded switchStep SwitchOk (SwitchWorld.init disk) acts s) :
    FloorReported s ∧ FloorHeldBack s := by
  have hinit : SwitchInv (SwitchWorld.init disk) := ⟨nofun, nofun, nofun, nofun, nofun⟩
  have hinv := hrun.invariant (fun _ _ _ h hok hs => h.step hok hs) hinit
  exact ⟨hinv.reported, hinv.holdsBack⟩

/-! ## A restart before the declaration -/

def legacyDir : String → SeqFile := Function.update emptyDir legacySeqStateFile (.value 700)

def seedActs : List SwitchAct :=
  [.seq (.newGeneration 0), .seq (.stat 0 "org"), .seq (.seed 0 true), .seq (.load 0),
    .seq (.next 0 "org" true), .declareStreamSwitch 0 "org" true false]

theorem seeded_floor_reported :
    ∃ s, exec switchStep (SwitchWorld.init legacyDir) seedActs = some s ∧
      s.owed "org" = some 700 ∧ s.pendingFloor 0 "org" = 700 ∧ FloorReported s ∧ FloorHeldBack s := by
  refine ⟨_, rfl, by decide, by decide, @owed_floor_reported legacyDir seedActs _ ?_⟩
  refine .cons rfl rfl (.cons trivial rfl (.cons trivial rfl (.cons ?_ rfl (.cons trivial rfl
    (.cons trivial rfl (.nil _))))))
  rintro o ⟨⟩ _
  rfl

/-- After a restart the lane's file is there, so the next process seeds nothing and has no floor to
report, though none was declared. -/
theorem restart_forgets_floor :
    ¬ ∀ (disk : String → SeqFile) (acts : List SwitchAct) (s : SwitchWorld),
      exec switchStep (SwitchWorld.init disk) acts = some s → FloorReported s := by
  intro h
  have hrep := h legacyDir
    (seedActs ++ [.seq .crash, .seq (.newGeneration 1), .seq (.stat 1 "org"), .seq (.load 1)]) _ rfl
  have hfloor := hrep 1 (by decide) "org" 700 (by decide) (by decide)
  exact absurd hfloor (by decide)

end AikeyProxy.Events
