import Mathlib.Data.Set.Function
import AikeyProxy.Proof.SeqRestart

/-!
# Lanes with one holder and a file of their own

A lane is a stream: its state file, the allocator open on it, and the numbers handed out. It stays
in order as long as only one live generation has the lane open and no other lane has the same file.
Two generations that both open a lane load the same mark and hand out the same numbers. The file
name replaces characters of the lane's name, so two lanes can have the same file.
-/

namespace AikeyProxy.Events

open Lib List SeqWorld Function

/-! ## Runs in which lanes are not shared -/

/-- The generation has the lane open or is about to. -/
def SeqWorld.Uses (s : SeqWorld) (g : Nat) (lane : String) : Prop :=
  ((s.gens g).lanes lane).isSome ∨ (s.gens g).opening.map Prod.fst = some lane
  deriving Decidable

/-- A lane is opened only while no other live generation uses it, and a block is reserved only
while its end fits into an `int64`. -/
def LaneStepOk (lanes : Set String) (s : SeqWorld) : SeqAct → Prop
  | .stat g lane => lane ∈ lanes ∧ ∀ g' ∈ s.live, g' ≠ g → ¬ s.Uses g' lane
  | .load g => ∀ o ∈ (s.gens g).opening, s.disk (laneStateFile o.1) ≠ .value maxInt64
  | .next g lane _ =>
    ∀ a ∈ (s.gens g).lanes lane, a.reservedHi + defaultSeqBlockSize < maxInt64
  | .newGeneration _ | .seed _ _ | .close _ _ _ | .retire _ | .crash => True

instance (lanes : Set String) [DecidablePred (· ∈ lanes)] (s : SeqWorld) :
    ∀ a, Decidable (LaneStepOk lanes s a)
  | .stat _ _ => inferInstanceAs (Decidable (_ ∧ _))
  | .load _ | .next _ _ _ => inferInstanceAs (Decidable (∀ _ ∈ _, _))
  | .newGeneration _ | .seed .. | .close .. | .retire _ | .crash => isTrue trivial

/-- The lane whose file a step may write. -/
def SeqWorld.actor (s : SeqWorld) : SeqAct → Option String
  | .next _ lane _ | .close _ lane _ => some lane
  | .seed g _ => (s.gens g).opening.map Prod.fst
  | .newGeneration _ | .stat _ _ | .load _ | .retire _ | .crash => none

def SeqWorld.issuedOn (s : SeqWorld) (lane : String) : List Int :=
  (s.issued.filter fun p => decide (p.1 = lane)).map Prod.snd

/-- The streams of a set of lanes: in order, and untouched by the other lanes. -/
structure StreamsIndependent (lanes : Set String) : Prop where
  increasing : ∀ disk acts s, Guarded seqStep (LaneStepOk lanes) (SeqWorld.init disk) acts s →
    ∀ lane ∈ lanes, (s.issuedOn lane).Pairwise (· < ·)
  kept : ∀ disk acts s a s', Guarded seqStep (LaneStepOk lanes) (SeqWorld.init disk) acts s →
    seqStep s a = some s' → ∀ lane ∈ lanes, s.actor a ≠ some lane →
      ∀ v, s.disk (laneStateFile lane) = .value v → s'.disk (laneStateFile lane) = .value v

theorem laneStateFile_eq_iff {lane lane' : String} :
    laneStateFile lane = laneStateFile lane' ↔ sanitizeLane lane = sanitizeLane lane' := by
  unfold laneStateFile
  refine ⟨fun h => ?_, fun h => by rw [h]⟩
  have hlist := congrArg String.toList h
  simp only [String.toList_append] at hlist
  exact String.toList_inj.mp (append_cancel_left (append_cancel_right hlist))

/-! ## What a step touches -/

variable {s s' : SeqWorld} {g g' : Nat} {lane lane' : String} {a : SeqAllocator}
  {lanes : Set String} {file : String}

theorem gens_setGen_self (s : SeqWorld) (g : Nat) (l : LaneAllocator) :
    (s.setGen g l).gens g = l := update_self _ _ _

theorem gens_setGen_ne (s : SeqWorld) (l : LaneAllocator) (hne : g' ≠ g) :
    (s.setGen g l).gens g' = s.gens g' := update_of_ne hne _ _

theorem issuedOn_issue_self : (s.issue g lane a).issuedOn lane = s.issuedOn lane ++ [a.next] := by
  simp [issuedOn, issue, setLane, setGen]

theorem disk_write_ne (hfile : file ≠ laneStateFile lane) (hi : Int) :
    (s.write lane hi).disk file = s.disk file :=
  update_of_ne hfile _ _

theorem disk_write_self (hi : Int) :
    (s.write lane hi).disk (laneStateFile lane) = .value hi :=
  update_self _ _ _

theorem uses_of_lane (h : (s.gens g).lanes lane = some a) : s.Uses g lane :=
  .inl (by rw [h]; rfl)

theorem uses_of_opening {pc : ForPc} (h : (s.gens g).opening = some (lane, pc)) :
    s.Uses g lane :=
  .inr (by rw [h]; rfl)

theorem not_uses_new (h : s.gens g = newLaneAllocator) : ¬ s.Uses g lane := by
  rintro (hl | ho)
  · rw [h] at hl
    cases hl
  · rw [h] at ho
    cases ho

/-! ## The invariant -/

/-- A lane that is being opened is not open yet, and is seeded only while it has no file. -/
def OpeningOk (s : SeqWorld) (g : Nat) : Prop :=
  ∀ lane pc, (s.gens g).opening = some (lane, pc) → (s.gens g).lanes lane = none ∧
    ∀ hi, pc = .seed hi → s.disk (laneStateFile lane) = .absent

structure LanesInv (lanes : Set String) (s : SeqWorld) : Prop where
  used : ∀ g lane, s.Uses g lane → g ∈ s.live ∧ lane ∈ lanes
  alone : ∀ g g' lane, s.Uses g lane → s.Uses g' lane → g = g'
  opening : ∀ g, OpeningOk s g
  issued : ∀ p ∈ s.issued, p.1 ∈ lanes
  free : ∀ lane ∈ lanes, SeqStream.Ok ⟨s.disk (laneStateFile lane), none, s.issuedOn lane⟩
  held : ∀ g lane a, (s.gens g).lanes lane = some a →
    SeqStream.Ok ⟨s.disk (laneStateFile lane), some a, s.issuedOn lane⟩

theorem lanesInv_init (disk : String → SeqFile) : LanesInv lanes (SeqWorld.init disk) where
  used _ _ h := absurd h (not_uses_new rfl)
  alone _ _ _ h := absurd h (not_uses_new rfl)
  opening _ _ _ ho := by cases ho
  issued := nofun
  free lane _ := .init (disk (laneStateFile lane))
  held _ _ _ ha := by cases ha

/-- Generations come and go; what they have reserved is lost. -/
theorem LanesInv.forget (h : LanesInv lanes s) (hdisk : s'.disk = s.disk)
    (hissued : s'.issued = s.issued)
    (hgens : ∀ g, s'.gens g = newLaneAllocator ∨
      s'.gens g = s.gens g ∧ (g ∈ s.live → g ∈ s'.live)) : LanesInv lanes s' := by
  have hold : ∀ g lane, s'.Uses g lane → s'.gens g = s.gens g ∧ (g ∈ s.live → g ∈ s'.live) :=
    fun g lane hu => (hgens g).resolve_left fun hnew => not_uses_new hnew hu
  have huses : ∀ g lane, s'.Uses g lane → s.Uses g lane := by
    intro g lane hu
    unfold Uses at hu ⊢
    rwa [(hold g lane hu).1] at hu
  have hon : ∀ lane, s'.issuedOn lane = s.issuedOn lane := fun lane => by rw [issuedOn, hissued]; rfl
  refine ⟨fun g lane hu => ?_, fun g g' lane hu hu' => ?_, fun g lane pc ho => ?_, ?_, ?_, ?_⟩
  · obtain ⟨hlive, hlane⟩ := h.used g lane (huses g lane hu)
    exact ⟨(hold g lane hu).2 hlive, hlane⟩
  · exact h.alone g g' lane (huses g lane hu) (huses g' lane hu')
  · have hgen := (hold g lane (uses_of_opening ho)).1
    rw [hgen] at ho ⊢
    rw [hdisk]
    exact h.opening g lane pc ho
  · rw [hissued]
    exact h.issued
  · intro lane hlane
    rw [hdisk, hon]
    exact h.free lane hlane
  · intro g lane a ha
    rw [(hold g lane (uses_of_lane ha)).1] at ha
    rw [hdisk, hon]
    exact h.held g lane a ha

theorem file_ne (hinj : Set.InjOn sanitizeLane lanes) (hlane : lane ∈ lanes)
    (hlane' : lane' ∈ lanes) (hne : lane' ≠ lane) : laneStateFile lane' ≠ laneStateFile lane :=
  fun hfile => hne (hinj hlane' hlane (laneStateFile_eq_iff.mp hfile))

/-- A generation works on a lane: its allocator becomes `l`, and what else may change is the lane's
file and the numbers handed out on the lane. -/
structure Touches (s : SeqWorld) (g : Nat) (lane : String) (l : LaneAllocator) (s' : SeqWorld) :
    Prop where
  live : s'.live = s.live
  gens : s'.gens = (s.setGen g l).gens
  lanes : ∀ lane', lane' ≠ lane → l.lanes lane' = (s.gens g).lanes lane'
  disk : ∀ file, file ≠ laneStateFile lane → s'.disk file = s.disk file
  issued : ∃ new, s'.issued = s.issued ++ new ∧ ∀ p ∈ new, p.1 = lane
  /-- The lane is open, or it is the one that is being opened, if any is. -/
  opening : l.opening = (s.gens g).opening ∧ (s.gens g).lanes lane ≠ none ∨
    ∀ o ∈ l.opening, o.1 = lane ∧ l.lanes lane = none ∧
      ∀ hi, o.2 = .seed hi → s'.disk (laneStateFile lane) = .absent

section Touches

variable {l : LaneAllocator} (h : Touches s g lane l s')
include h

theorem Touches.gen_self : s'.gens g = l := by rw [h.gens, gens_setGen_self]

theorem Touches.gen_ne (hne : g' ≠ g) : s'.gens g' = s.gens g' := by
  rw [h.gens, gens_setGen_ne s l hne]

theorem Touches.issuedOn (hne : lane' ≠ lane) : s'.issuedOn lane' = s.issuedOn lane' := by
  obtain ⟨new, hnew, hlane⟩ := h.issued
  have hnone : (new.filter fun p => decide (p.1 = lane')) = [] :=
    filter_eq_nil_iff.mpr fun p hp heq => hne ((of_decide_eq_true heq).symm.trans (hlane p hp))
  rw [SeqWorld.issuedOn, hnew, filter_append, hnone, append_nil]
  rfl

theorem Touches.uses (hu : s'.Uses g' lane') : s.Uses g' lane' ∨ g' = g ∧ lane' = lane := by
  unfold Uses at hu ⊢
  by_cases hg : g' = g
  · subst hg
    by_cases hl : lane' = lane
    · exact .inr ⟨rfl, hl⟩
    · rw [h.gen_self] at hu
      refine .inl (hu.imp (fun hopen => h.lanes lane' hl ▸ hopen) fun hopening => ?_)
      rcases h.opening with ⟨hsame, -⟩ | hself
      · rwa [hsame] at hopening
      · obtain ⟨o, ho, heq⟩ := Option.map_eq_some_iff.mp hopening
        exact absurd (heq.symm.trans (hself o ho).1) hl
  · rw [h.gen_ne hg] at hu
    exact .inl hu

end Touches

/-- **A step that works on one lane has to account for that lane only.** -/
theorem LanesInv.onLane {l : LaneAllocator} (hinj : Set.InjOn sanitizeLane lanes)
    (h : LanesInv lanes s) (hlive : g ∈ s.live) (hlane : lane ∈ lanes)
    (halone : ∀ g', s.Uses g' lane → g' = g) (htouch : Touches s g lane l s')
    (hself : SeqStream.Ok ⟨s'.disk (laneStateFile lane), l.lanes lane, s'.issuedOn lane⟩) :
    LanesInv lanes s' := by
  have hkept : ∀ lane' ∈ lanes, lane' ≠ lane →
      s'.disk (laneStateFile lane') = s.disk (laneStateFile lane') ∧
        s'.issuedOn lane' = s.issuedOn lane' := fun lane' hin hne =>
    ⟨htouch.disk _ (file_ne hinj hlane hin hne), htouch.issuedOn hne⟩
  have hother : ∀ g', s'.Uses g' lane → g' = g := fun g' hu =>
    (htouch.uses hu).elim (halone g') And.left
  refine ⟨fun g' lane' hu => ?_, fun g₁ g₂ lane' h₁ h₂ => ?_, fun g' lane' pc ho => ?_, ?_, ?_, ?_⟩
  · rw [htouch.live]
    rcases htouch.uses hu with hu | ⟨rfl, rfl⟩
    · exact h.used g' lane' hu
    · exact ⟨hlive, hlane⟩
  · by_cases hl : lane' = lane
    · subst hl
      rw [hother g₁ h₁, hother g₂ h₂]
    · exact h.alone g₁ g₂ lane' ((htouch.uses h₁).resolve_right fun hc => hl hc.2)
        ((htouch.uses h₂).resolve_right fun hc => hl hc.2)
  · have hold : lane' ≠ lane → (s.gens g').opening = some (lane', pc) →
        (s'.gens g').lanes lane' = (s.gens g').lanes lane' →
        (s'.gens g').lanes lane' = none ∧
          ∀ hi, pc = .seed hi → s'.disk (laneStateFile lane') = .absent := by
      intro hne ho hlanes
      rw [hlanes, (hkept lane' (h.used g' lane' (uses_of_opening ho)).2 hne).1]
      exact h.opening g' lane' pc ho
    by_cases hg : g' = g
    · subst hg
      rw [htouch.gen_self] at ho hold ⊢
      rcases htouch.opening with ⟨hsame, hopen⟩ | hnew
      · -- another lane is being opened meanwhile
        rw [hsame] at ho
        have hne : lane' ≠ lane := by
          rintro rfl
          exact hopen (h.opening g' _ pc ho).1
        exact hold hne ho (htouch.lanes lane' hne)
      · obtain ⟨rfl, hclosed, hseed⟩ := hnew _ ho
        exact ⟨hclosed, hseed⟩
    · have hne : lane' ≠ lane := by
        rintro rfl
        exact hg (hother g' (uses_of_opening ho))
      rw [htouch.gen_ne hg] at ho hold ⊢
      exact hold hne ho rfl
  · obtain ⟨new, hnew, hin⟩ := htouch.issued
    rw [hnew]
    intro p hp
    rcases mem_append.mp hp with hp | hp
    · exact h.issued p hp
    · rw [hin p hp]
      exact hlane
  · intro lane' hin
    by_cases hl : lane' = lane
    · rw [hl]
      exact hself.exit
    · rw [(hkept lane' hin hl).1, (hkept lane' hin hl).2]
      exact h.free lane' hin
  · intro g' lane' a ha
    by_cases hl : lane' = lane
    · subst hl
      obtain rfl := hother g' (uses_of_lane ha)
      rw [htouch.gen_self] at ha
      rwa [ha] at hself
    · have ha' : (s.gens g').lanes lane' = some a := by
        by_cases hg : g' = g
        · rw [hg, htouch.gen_self, htouch.lanes lane' hl, ← hg] at ha
          exact ha
        · rwa [htouch.gen_ne hg] at ha
      obtain ⟨hdisk, hissued⟩ := hkept lane' (h.used g' lane' (uses_of_lane ha')).2 hl
      rw [hdisk, hissued]
      exact h.held g' lane' a ha'

/-! ## Opening a lane -/

theorem LanesInv.stat (hinj : Set.InjOn sanitizeLane lanes) (h : LanesInv lanes s)
    (hg : g ∈ s.live) (hok : LaneStepOk lanes s (.stat g lane)) (hs : s.stat g lane = some s') :
    LanesInv lanes s' := by
  obtain ⟨hlane, hfree⟩ := hok
  have halone : ∀ g', s.Uses g' lane → g' = g := fun g' hu =>
    of_not_not fun hne => hfree g' (h.used g' lane hu).1 hne hu
  have hnoted : ∀ pc : ForPc, (s.gens g).lanes lane = none →
      (∀ hi, pc = .seed hi → s.disk (laneStateFile lane) = .absent) →
      LanesInv lanes (s.setGen g { s.gens g with opening := some (lane, pc) }) := by
    intro pc hclosed hseed
    refine h.onLane hinj hg hlane halone ⟨rfl, rfl, fun _ _ => rfl, fun _ _ => rfl,
      ⟨[], (append_nil _).symm, nofun⟩, .inr ?_⟩ ?_
    · rintro o ⟨⟩
      exact ⟨rfl, hclosed, hseed⟩
    · simp only [hclosed]
      exact h.free lane hlane
  revert hs
  fun_cases SeqWorld.stat s g lane <;> intro hs <;> cases hs
  next => exact h
  next hclosed _ hfile _ _ _ => exact hnoted _ hclosed fun _ _ => hfile
  next hclosed _ _ _ _ _ => exact hnoted _ hclosed nofun
  next hclosed _ _ => exact hnoted _ hclosed nofun

variable {writeOk : Bool} {act : SeqAct}

/-- The lane a generation is opening is its own. -/
theorem LanesInv.opener (h : LanesInv lanes s) {pc : ForPc}
    (ho : (s.gens g).opening = some (lane, pc)) :
    lane ∈ lanes ∧ (∀ g', s.Uses g' lane → g' = g) ∧ (s.gens g).lanes lane = none ∧
      SeqStream.Ok ⟨s.disk (laneStateFile lane), none, s.issuedOn lane⟩ := by
  have hu := uses_of_opening ho
  obtain ⟨-, hlane⟩ := h.used g lane hu
  exact ⟨hlane, fun g' hu' => h.alone g' g lane hu' hu, (h.opening g lane pc ho).1,
    h.free lane hlane⟩

section

variable (hinj : Set.InjOn sanitizeLane lanes) (h : LanesInv lanes s)

include hinj h

/-- An opening that ends without the lane. -/
theorem LanesInv.giveUp (hg : g ∈ s.live) {pc : ForPc} (ho : (s.gens g).opening = some (lane, pc)) :
    LanesInv lanes (s.setGen g { s.gens g with opening := none }) := by
  obtain ⟨hlane, halone, hclosed, hfree⟩ := h.opener ho
  refine h.onLane hinj hg hlane halone ⟨rfl, rfl, fun _ _ => rfl, fun _ _ => rfl,
    ⟨[], (append_nil _).symm, nofun⟩, .inr nofun⟩ ?_
  simp only [hclosed]
  exact hfree

theorem LanesInv.seed (hg : g ∈ s.live) (hs : s.seed g writeOk = some s') : LanesInv lanes s' := by
  revert hs
  fun_cases SeqWorld.seed s g writeOk <;> intro hs <;> cases hs
  next lane hi ho _ =>
    obtain ⟨hlane, halone, hclosed, hfree⟩ := h.opener ho
    have habsent := (h.opening g lane _ ho).2 hi rfl
    refine h.onLane hinj hg hlane halone ⟨rfl, rfl, fun _ _ => rfl,
      fun _ hfile => disk_write_ne hfile hi, ⟨[], (append_nil _).symm, nofun⟩, .inr ?_⟩ ?_
    · rintro o ⟨⟩
      exact ⟨rfl, hclosed, nofun⟩
    · change SeqStream.Ok ⟨(s.write lane hi).disk (laneStateFile lane), (s.gens g).lanes lane, _⟩
      rw [habsent] at hfree
      rw [disk_write_self, hclosed]
      exact hfree.seed hi
  next lane hi ho _ => exact h.giveUp hinj hg ho

theorem LanesInv.load
    (hg : g ∈ s.live) (hok : LaneStepOk lanes s (.load g)) (hs : s.load g = some s') :
    LanesInv lanes s' := by
  revert hs
  fun_cases SeqWorld.load s g <;> intro hs <;> cases hs
  next lane ho _ => exact h.giveUp hinj hg ho
  next lane ho hi hload =>
    obtain ⟨hlane, halone, hclosed, hfree⟩ := h.opener ho
    have hroom : hi < maxInt64 := by
      refine lt_of_le_of_ne (loadSeqState_range hload).2 fun heq => hok _ ho ?_
      rw [heq] at hload
      cases hfile : s.disk (laneStateFile lane) with
      | absent =>
        rw [hfile] at hload
        cases hload
      | value v =>
        rw [hfile, loadSeqState] at hload
        split at hload <;> cases hload
        rfl
      | corrupt =>
        rw [hfile] at hload
        cases hload
    refine h.onLane hinj hg hlane halone ⟨rfl, rfl, fun lane' hne => update_of_ne hne _ _,
      fun _ _ => rfl, ⟨[], (append_nil _).symm, by rintro _ ⟨⟩⟩, .inr (by rintro _ ⟨⟩)⟩ ?_
    simp only [update_self]
    exact hfree.start hload hroom

/-! ## Working on an open lane -/

/-- The allocator of an open lane is replaced, its file written or not, and perhaps a number handed
out. -/
theorem LanesInv.onOpen
    (ha : (s.gens g).lanes lane = some a) {b : SeqAllocator} (hlive : s'.live = s.live)
    (hgens : s'.gens = (s.setLane g lane b).gens)
    (hdisk : ∀ file, file ≠ laneStateFile lane → s'.disk file = s.disk file)
    (hissued : ∃ new, s'.issued = s.issued ++ new ∧ ∀ p ∈ new, p.1 = lane)
    (hself : SeqStream.Ok ⟨s'.disk (laneStateFile lane), some b, s'.issuedOn lane⟩) :
    LanesInv lanes s' := by
  have hu := uses_of_lane ha
  obtain ⟨hg, hlane⟩ := h.used g lane hu
  refine h.onLane hinj hg hlane (fun g' hu' => h.alone g' g lane hu' hu)
    ⟨hlive, hgens, fun lane' hne => update_of_ne hne _ _, hdisk, hissued, .inl ⟨rfl, ?_⟩⟩ ?_
  · rw [ha]
    exact nofun
  · simp only [update_self]
    exact hself

theorem LanesInv.next
    (hok : LaneStepOk lanes s (.next g lane writeOk)) (hs : s.next g lane writeOk = some s') :
    LanesInv lanes s' := by
  revert hs
  fun_cases SeqWorld.next s g lane writeOk <;> intro hs <;> cases hs
  next a ha hempty newHi _ =>
    have hstream := h.held g lane a ha
    have hroom := hok a ha
    have hblock : 0 < defaultSeqBlockSize := by decide
    obtain ⟨-, -, hpos, htight, -⟩ := hstream.ahead a rfl
    have hnew : newHi = a.reservedHi + defaultSeqBlockSize := int64_eq (by omega) (by omega)
    refine h.onOpen hinj ha rfl rfl (fun _ hfile => disk_write_ne hfile _)
      ⟨[(lane, a.next)], rfl, by simp⟩ ?_
    rw [issuedOn_issue_self]
    change SeqStream.Ok ⟨(s.write lane _).disk (laneStateFile lane), _, _⟩
    rw [disk_write_self]
    exact (hstream.reserve hblock hroom).take (by simp only; omega)
  next => exact h
  next a ha hin =>
    refine h.onOpen hinj ha rfl rfl (fun _ _ => rfl) ⟨[(lane, a.next)], rfl, by simp⟩ ?_
    rw [issuedOn_issue_self]
    exact (h.held g lane a ha).take (Int.not_lt.mp hin)

theorem LanesInv.close (hs : s.close g lane writeOk = some s') : LanesInv lanes s' := by
  revert hs
  fun_cases SeqWorld.close s g lane writeOk <;> intro hs <;> cases hs
  next => exact h
  next a ha used _ _ =>
    have hstream := h.held g lane a ha
    have hused : used = int64 (a.next - 1) := hstream.used
    refine h.onOpen hinj ha rfl rfl (fun _ hfile => disk_write_ne hfile _)
      ⟨[], (append_nil _).symm, nofun⟩ ?_
    change SeqStream.Ok ⟨(s.write lane _).disk (laneStateFile lane), _, _⟩
    rw [disk_write_self, hused]
    exact hstream.shrink
  next => exact h

/-! ## Runs -/

theorem LanesInv.step
    (hok : LaneStepOk lanes s act) (hs : seqStep s act = some s') : LanesInv lanes s' := by
  revert hs
  fun_cases seqStep s act <;> intro hs
  case case2 g _ =>
    cases hs
    refine h.forget rfl rfl fun g' => ?_
    by_cases hg : g' = g
    · exact .inl (hg ▸ gens_setGen_self s g _)
    · exact .inr ⟨gens_setGen_ne s _ hg, mem_cons_of_mem _⟩
  case case3 hg => exact h.stat hinj hg hok hs
  case case5 hg => exact h.seed hinj hg hs
  case case7 hg => exact h.load hinj hg hok hs
  case case9 => exact h.next hinj hok hs
  case case11 => exact h.close hinj hs
  case case13 g =>
    cases hs
    refine h.forget rfl rfl fun g' => ?_
    by_cases hg : g' = g
    · exact .inl (hg ▸ gens_setGen_self s g _)
    · exact .inr ⟨gens_setGen_ne s _ hg,
        fun hin => mem_filter.mpr ⟨hin, decide_eq_true hg⟩⟩
  case case14 =>
    cases hs
    exact h.forget rfl rfl fun _ => .inl rfl
  all_goals cases hs

end

theorem lanesInv_of_run (hinj : Set.InjOn sanitizeLane lanes) {disk : String → SeqFile}
    {acts : List SeqAct} (hrun : Guarded seqStep (LaneStepOk lanes) (SeqWorld.init disk) acts s) :
    LanesInv lanes s :=
  hrun.invariant (fun _ _ _ h hok hs => h.step hinj hok hs) (lanesInv_init disk)

/-- **No (lane, number) pair is handed out twice**, as long as the lanes have files of their own and
none is opened while another live generation uses it. -/
theorem seq_numbers_unique {lanes : Set String} (hfiles : Set.InjOn sanitizeLane lanes)
    {disk : String → SeqFile} {acts : List SeqAct} {s : SeqWorld}
    (hrun : Guarded seqStep (LaneStepOk lanes) (SeqWorld.init disk) acts s) : s.issued.Nodup := by
  have hinv := lanesInv_of_run hfiles hrun
  refine nodup_of_keys fun lane => ?_
  by_cases hlane : lane ∈ lanes
  · exact (hinv.free lane hlane).increasing.imp Int.ne_of_lt
  · have hnone : (s.issued.filter fun p => decide (p.1 = lane)) = [] :=
      filter_eq_nil_iff.mpr fun p hp heq => hlane (of_decide_eq_true heq ▸ hinv.issued p hp)
    rw [hnone]
    exact .nil

def emptyDir : String → SeqFile := fun _ => .absent

/-- The old generation is gone before the new one opens the lane; then a crash and a restart. -/
def handoverActs : List SeqAct :=
  [.newGeneration 1, .stat 1 "orgA", .load 1, .next 1 "orgA" true, .next 1 "orgA" true,
    .newGeneration 2, .stat 2 "orgB", .load 2, .next 2 "orgB" true, .close 1 "orgA" true, .retire 1,
    .stat 2 "orgA", .load 2, .next 2 "orgA" true, .crash,
    .newGeneration 3, .stat 3 "orgA", .load 3, .next 3 "orgA" true]

instance orgLanes : DecidablePred (· ∈ ({"orgA", "orgB"} : Set String)) := fun lane =>
  decidable_of_iff (lane = "orgA" ∨ lane = "orgB") (by simp)

theorem handover_unique :
    ∃ s, guardedExec seqStep (LaneStepOk {"orgA", "orgB"}) (SeqWorld.init emptyDir) handoverActs =
      some s ∧ s.issued.Nodup := by
  have hfiles : Set.InjOn sanitizeLane {"orgA", "orgB"} := by
    rintro a (rfl | rfl) b (rfl | rfl) heq <;> first | rfl | exact absurd heq (by decide)
  exact ⟨_, rfl, seq_numbers_unique hfiles (Guarded.of_guardedExec
    (show guardedExec _ _ (SeqWorld.init emptyDir) handoverActs = some _ from rfl))⟩

/-- The old and the new generation both open the lane, then both allocate. -/
def overlappingActs : List SeqAct :=
  [.newGeneration 1, .stat 1 "orgA", .load 1, .newGeneration 2, .stat 2 "orgA", .load 2,
    .next 1 "orgA" true, .next 2 "orgA" true]

/-- Both generations loaded the mark before either had raised it. -/
theorem overlapping_generations_reuse :
    ¬ ∀ (disk : String → SeqFile) (acts : List SeqAct) (s : SeqWorld),
      exec seqStep (SeqWorld.init disk) acts = some s → s.issued.Nodup := by
  intro h
  have hnd := h emptyDir overlappingActs _ rfl
  exact absurd hnd (by decide)

/-! ## Which lanes are independent -/

theorem disk_step (hs : seqStep s act = some s')
    (hfile : ∀ lane, s.actor act = some lane → file ≠ laneStateFile lane) :
    s'.disk file = s.disk file := by
  revert hs
  fun_cases seqStep s act <;> try fun_cases SeqWorld.stat
  all_goals try fun_cases SeqWorld.seed
  all_goals try fun_cases SeqWorld.load
  all_goals try fun_cases SeqWorld.next
  all_goals try fun_cases SeqWorld.close
  all_goals
    intro hs
    cases hs <;>
      first | rfl | exact disk_write_ne (hfile _ (by simp only [actor, *, Option.map])) _

theorem actor_uses (hs : seqStep s act = some s') (hactor : s.actor act = some lane) :
    ∃ g, s.Uses g lane := by
  revert hs
  fun_cases seqStep s act <;> intro hs
  case case5 g _ _ => exact ⟨g, .inr hactor⟩
  case case9 g _ _ _ =>
    cases hactor
    refine ⟨g, .inl (Option.ne_none_iff_isSome.mp fun hnone => ?_)⟩
    simp only [SeqWorld.next, hnone] at hs
    cases hs
  case case11 g _ _ _ =>
    cases hactor
    refine ⟨g, .inl (Option.ne_none_iff_isSome.mp fun hnone => ?_)⟩
    simp only [SeqWorld.close, hnone] at hs
    cases hs
  all_goals first | cases hs; done | cases hactor

theorem independent_of_injOn (hinj : Set.InjOn sanitizeLane lanes) : StreamsIndependent lanes where
  increasing := fun _ _ _ hrun lane hlane => ((lanesInv_of_run hinj hrun).free lane hlane).increasing
  kept := by
    intro disk acts s act s' hrun hs lane hlane hactor v hv
    have hinv := lanesInv_of_run hinj hrun
    rw [disk_step hs fun lane' hlane' => ?_]
    · exact hv
    · obtain ⟨g, hu⟩ := actor_uses hs hlane'
      refine file_ne hinj (hinv.used g lane' hu).2 hlane ?_
      rintro rfl
      exact hactor hlane'

/-! ## Two lanes with one file -/

/-- The first number of a lane overwrites what is in the file that it shares with another. -/
theorem injOn_of_independent (h : StreamsIndependent lanes) : Set.InjOn sanitizeLane lanes := by
  intro lane' hlane' lane hlane hsan
  by_contra hne
  have hfile := laneStateFile_eq_iff.mpr hsan
  obtain ⟨s, hrun, hdisk, hopen, hlive⟩ : ∃ s, Guarded seqStep (LaneStepOk lanes)
      (SeqWorld.init fun _ => .value 0) [.newGeneration 0, .stat 0 lane', .load 0] s ∧
        s.disk = (fun _ => .value 0) ∧ (s.gens 0).lanes lane' = some ⟨1, 0⟩ ∧ s.live = [0] := by
    refine ⟨_, .cons trivial rfl (.cons ⟨hlane', ?_⟩ rfl (.cons ?_ rfl (.nil _))), rfl,
      update_self _ _ _, rfl⟩
    · intro g hg hne
      exact absurd (mem_singleton.mp hg) hne
    · rintro o ⟨⟩
      exact nofun
  have hnext : (seqStep s (.next 0 lane' true)).map (fun s => s.disk (laneStateFile lane)) =
      some (.value (int64 256)) := by
    simp [seqStep, hlive, SeqWorld.next, hopen, issue, setLane, setGen, write, defaultSeqBlockSize,
      hfile]
  obtain ⟨s', hs, hdisk'⟩ := Option.map_eq_some_iff.mp hnext
  have hkept := h.kept _ _ _ _ _ hrun hs lane hlane (by simpa [actor] using hne) 0
    (by rw [hdisk])
  rw [hdisk'] at hkept
  exact absurd hkept (by decide)

/-- **The lanes of a set are independent streams exactly when no two of them have one file name.**
-/
theorem streams_independent_iff (lanes : Set String) :
    StreamsIndependent lanes ↔ Set.InjOn sanitizeLane lanes :=
  ⟨injOn_of_independent, independent_of_injOn⟩

instance slashLanes : DecidablePred (· ∈ ({"a/b", "a_b"} : Set String)) := fun lane =>
  decidable_of_iff (lane = "a/b" ∨ lane = "a_b") (by simp)

/-- Two lanes with one file; the first is closed, and the second goes on after a restart. -/
def slashLaneActs : List SeqAct :=
  [.newGeneration 0, .stat 0 "a/b", .load 0, .next 0 "a/b" true, .stat 0 "a_b", .load 0,
    .next 0 "a_b" true, .close 0 "a/b" true, .crash, .newGeneration 1, .stat 1 "a_b", .load 1,
    .next 1 "a_b" true]

/-- Closing the first lane puts its own last number into the file of both, and after a restart the
second one continues from it: 257, then 2. -/
theorem slash_lane_shares_file : ¬ ∀ lanes, StreamsIndependent lanes := by
  intro h
  have hrun : Guarded seqStep (LaneStepOk {"a/b", "a_b"}) (SeqWorld.init emptyDir) slashLaneActs _ :=
    .of_guardedExec rfl
  have hinc := (h _).increasing _ _ _ hrun "a_b" (by simp)
  exact absurd hinc (by decide)

end AikeyProxy.Events
