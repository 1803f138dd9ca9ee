import AikeyProxy.Proof.FilterContent
import AikeyProxy.Proxy.FilterDispatch

/-!
# What the filter does to tool content

A verdict is carried out after it was lowered to the ceiling of its piece. Below the full ceiling
that leaves nothing to carry out, so the body is written into only at pieces of full ceiling, which
are apart from every piece below a tool block.
-/

namespace AikeyProxy.Proxy

open Lib AppHook List

variable (cfg : FilterConfig) (req : InboundRequest) (scope : String)
  (detect : Nat → Text → Option FilterResponse)

/-! ## One piece -/

def Quiet (v : ContentPiece × FilterResponse) : Prop :=
  (v.1.ceiling.clamp v.2.action).1 ≠ .mask ∧ (v.1.ceiling.clamp v.2.action).1 ≠ .block

variable {piece : ContentPiece} {l : FilterLoop} {pieces : List ContentPiece}
  {members : Json.Members}

theorem quiet_of_ne_full (r : FilterResponse) (h : piece.ceiling ≠ .full) : Quiet (piece, r) :=
  clamp_of_ne_full h r.action

variable {r : FilterResponse} {p : ContentPiece}

theorem quiet_of_action (hmask : r.action ≠ .mask) (hblock : r.action ≠ .block) :
    Quiet (piece, r) := by
  unfold Quiet ActionCeiling.clamp
  split
  · exact ⟨hmask, hblock⟩
  · cases haction : r.action with
    | mask => exact absurd haction hmask
    | block => exact absurd haction hblock
    | allow | warn | unknown code => exact ⟨nofun, nofun⟩

theorem applyVerdict_quiet (l : FilterLoop) (h : Quiet (piece, r)) :
    (applyVerdict cfg req scope l piece r).2 = none ∧
      (applyVerdict cfg req scope l piece r).1.tree = l.tree ∧
      (applyVerdict cfg req scope l piece r).1.maskedCount = l.maskedCount := by
  unfold applyVerdict
  obtain ⟨hmask, hblock⟩ := h
  cases haction : piece.ceiling.clamp r.action with
  | mk action capped =>
    rw [haction] at hmask hblock
    cases action with
    | mask => exact absurd rfl hmask
    | block => exact absurd rfl hblock
    | allow | warn | unknown code => exact ⟨rfl, rfl, rfl⟩

section

variable (l : FilterLoop) (piece : ContentPiece) (r : FilterResponse)

theorem applyMask_tree (event : List TeamEvent) : (applyMask l piece r event).tree = l.tree ∨
      ∃ v, Json.setAt piece.path v l.tree = some (applyMask l piece r event).tree := by
  unfold applyMask
  split
  · exact .inl rfl
  · dsimp only
    cases hset : Json.setAt piece.path (.str (String.ofList (maskedText piece r l.restore).1))
        l.tree with
    | none => exact .inl rfl
    | some tree => exact .inr ⟨_, hset⟩

theorem applyVerdict_tree : (applyVerdict cfg req scope l piece r).1.tree = l.tree ∨
      ∃ v, Json.setAt piece.path v l.tree = some (applyVerdict cfg req scope l piece r).1.tree := by
  unfold applyVerdict
  cases haction : piece.ceiling.clamp r.action with
  | mk action capped =>
    cases action with
    | mask => exact applyMask_tree l piece r _
    | block | allow | warn | unknown code => exact .inl rfl

theorem applyVerdict_verdicts : (applyVerdict cfg req scope l piece r).1.verdicts = l.verdicts := by
  unfold applyVerdict
  cases haction : piece.ceiling.clamp r.action with
  | mk action capped =>
    cases action with
    | mask => unfold applyMask; dsimp only; split <;> rfl
    | block | allow | warn | unknown code => rfl

end

theorem filterPiece_cases (i : Nat) (piece : ContentPiece) (l : FilterLoop) :
    ∃ cache, filterPiece cfg req scope detect i piece l = ({ l with cache := cache }, none) ∨
      ∃ r, filterPiece cfg req scope detect i piece l = applyVerdict cfg req scope
        { l with cache := cache, verdicts := l.verdicts ++ [(piece, r)] } piece r := by
  unfold filterPiece
  cases hresp : responseFor cfg req scope detect l.cache i piece.head with
  | mk resp cache =>
    cases resp with
    | none => exact ⟨cache, .inl rfl⟩
    | some r => exact ⟨cache, .inr ⟨r, rfl⟩⟩

/-! ## The loop -/

theorem filterPieces_invariant {I : FilterLoop → Prop} (rest : List ContentPiece) :
    ∀ (i : Nat) {l : FilterLoop},
      (∀ piece ∈ rest, ∀ i l, I l → I (filterPiece cfg req scope detect i piece l).1) →
      I l → I (filterPieces cfg req scope detect i rest l).1 := by
  intro i l hstep h
  fun_induction filterPieces cfg req scope detect i rest l with
  | case1 => exact h
  | case2 i piece rest l l' m heq =>
    have hfirst := hstep piece mem_cons_self i l h
    rwa [heq] at hfirst
  | case3 i piece rest l l' heq ih =>
    have hfirst := hstep piece mem_cons_self i l h
    rw [heq] at hfirst
    exact ih (fun p hp => hstep p (mem_cons_of_mem _ hp)) hfirst

/-- What a verdict below the full ceiling was about is as it was in the body. -/
def Kept (pieces : List ContentPiece) (root tree : Json) : Prop :=
  ∀ p ∈ pieces, p.ceiling ≠ .full → Json.follow p.path tree = Json.follow p.path root

theorem kept_filterPiece {root : Json} (hapart : pieces.Pairwise Apart) (hpiece : piece ∈ pieces)
    (i : Nat) (h : Kept pieces root l.tree) :
    Kept pieces root (filterPiece cfg req scope detect i piece l).1.tree := by
  obtain ⟨cache, hcase | ⟨r, hcase⟩⟩ := filterPiece_cases cfg req scope detect i piece l
  · rw [hcase]
    exact h
  · rw [hcase]
    by_cases hfull : piece.ceiling = .full
    · -- it may have been written into, but every other piece is apart from it
      intro p hp hne
      have hpq : p ≠ piece := fun heq => hne (heq ▸ hfull)
      have hdisjoint := hapart.forall hpiece hp hpq.symm
      rw [← h p hp hne]
      rcases applyVerdict_tree cfg req scope
        { l with cache := cache, verdicts := l.verdicts ++ [(piece, r)] } piece r with
        heq | ⟨v, hset⟩
      · rw [heq]
      · exact Json.follow_setAt_apart hset hdisjoint.1 hdisjoint.2
    · -- below the full ceiling nothing is written at all
      have hquiet := applyVerdict_quiet cfg req scope
        { l with cache := cache, verdicts := l.verdicts ++ [(piece, r)] }
        (quiet_of_ne_full r hfull)
      rw [hquiet.2.1]
      exact h

theorem filterPiece_verdicts (i : Nat) (piece : ContentPiece) (l : FilterLoop) :
    (filterPiece cfg req scope detect i piece l).1.verdicts = l.verdicts ∨
      ∃ r, (filterPiece cfg req scope detect i piece l).1.verdicts = l.verdicts ++ [(piece, r)] := by
  obtain ⟨cache, hcase | ⟨r, hcase⟩⟩ := filterPiece_cases cfg req scope detect i piece l
  · exact .inl (by rw [hcase])
  · exact .inr ⟨r, by rw [hcase, applyVerdict_verdicts]⟩

theorem verdicts_prefix {i : Nat} {rest : List ContentPiece} :
    l.verdicts <+: (filterPieces cfg req scope detect i rest l).1.verdicts := by
  refine filterPieces_invariant cfg req scope detect (I := fun l' => l.verdicts <+: l'.verdicts)
    rest i (fun piece _ i l' h => ?_) (prefix_refl _)
  rcases filterPiece_verdicts cfg req scope detect i piece l' with heq | ⟨r, heq⟩
  · rw [heq]
    exact h
  · rw [heq]
    exact h.trans (prefix_append _ _)

theorem verdicts_of_pieces (i : Nat) (pieces : List ContentPiece)
    (h : ∀ v ∈ l.verdicts, v.1 ∈ pieces) :
    ∀ v ∈ (filterPieces cfg req scope detect i pieces l).1.verdicts, v.1 ∈ pieces := by
  refine filterPieces_invariant cfg req scope detect
    (I := fun l' => ∀ v ∈ l'.verdicts, v.1 ∈ pieces) pieces i (fun piece hpiece i l' h v hv => ?_) h
  rcases filterPiece_verdicts cfg req scope detect i piece l' with heq | ⟨r, heq⟩
  · rw [heq] at hv
    exact h v hv
  · rw [heq] at hv
    rcases mem_append.mp hv with hv | hv
    · exact h v hv
    · rw [mem_singleton.mp hv]
      exact hpiece

theorem quiet_filterPieces (rest : List ContentPiece) :
    ∀ {i : Nat} {l : FilterLoop},
      (∀ v ∈ (filterPieces cfg req scope detect i rest l).1.verdicts, Quiet v) →
      (filterPieces cfg req scope detect i rest l).2 = none ∧
        (filterPieces cfg req scope detect i rest l).1.maskedCount = l.maskedCount := by
  intro i l hquiet
  -- a piece whose verdict, if it has one, is quiet neither blocks nor masks
  have hstep : ∀ i piece l,
      (∀ v ∈ (filterPiece cfg req scope detect i piece l).1.verdicts, Quiet v) →
      (filterPiece cfg req scope detect i piece l).2 = none ∧
        (filterPiece cfg req scope detect i piece l).1.maskedCount = l.maskedCount := by
    intro i piece l hnoted
    obtain ⟨cache, hcase | ⟨r, hcase⟩⟩ := filterPiece_cases cfg req scope detect i piece l
    · rw [hcase]
      exact ⟨rfl, rfl⟩
    · rw [hcase, applyVerdict_verdicts] at hnoted
      have happly := applyVerdict_quiet cfg req scope
        { l with cache := cache, verdicts := l.verdicts ++ [(piece, r)] }
        (hnoted _ (mem_append_right _ (mem_singleton_self (piece, r))))
      rw [hcase]
      exact ⟨happly.1, happly.2.2⟩
  fun_induction filterPieces cfg req scope detect i rest l with
  | case1 => exact ⟨rfl, rfl⟩
  | case2 i piece rest l l' m heq =>
    cases (hstep _ _ _ (heq ▸ hquiet)).1.symm.trans (congrArg Prod.snd heq)
  | case3 i piece rest l l' heq ih =>
    have hl := hstep i piece l (by
      rw [heq]
      exact fun v hv => hquiet v (List.IsPrefix.subset ( verdicts_prefix cfg req scope detect) hv))
    rw [heq] at hl
    exact ⟨(ih hquiet).1, (ih hquiet).2.trans hl.2⟩

/-! ## The request -/

theorem scannedPieces_some (h : scannedPieces cfg req = some (members, pieces)) :
    extractUserContent cfg.mode cfg.roles members = some pieces := by
  revert h
  fun_cases scannedPieces cfg req <;> intro h <;> cases h
  assumption

theorem applyInboundFilter_some (h : scannedPieces cfg req = some (members, pieces))
    (cache : Option SessionMaskCache) :
    ∃ l message,
      filterPieces cfg req (cacheScope req members) detect 0 pieces
        { tree := .obj members, cache := if req.cacheable then cache else none } = (l, message) ∧
      (applyInboundFilter cfg detect cache req).1 = filterResult req l message := by
  unfold applyInboundFilter
  rw [h]
  exact ⟨_, _, rfl, rfl⟩

theorem filterResult_verdicts (l : FilterLoop) (message : Option String) :
    (filterResult req l message).verdicts = l.verdicts := by
  cases message <;> rfl

theorem filterResult_marshalled {message : Option String} {tree : Json}
    (h : (filterResult req l message).outcome = .forwarded (.marshalled tree)) : tree = l.tree := by
  cases message with
  | some m => cases h
  | none =>
    unfold filterResult at h
    dsimp only at h
    split at h
    · cases h
    · cases h
      rfl

/-- What was scanned below a tool block stands in the forwarded body where it stood and reads the
same, and if masks and refusals were only found there, the body goes out as it came in. -/
structure ToolContentKept (cfg : FilterConfig) (req : InboundRequest) (result : FilterResult) :
    Prop where
  unchanged : ∀ members pieces, scannedPieces cfg req = some (members, pieces) →
    ∀ p ∈ pieces, InToolBlock (.obj members) p.path →
      ∀ tree, result.outcome = .forwarded (.marshalled tree) →
        Json.follow p.path tree = Json.follow p.path (.obj members) ∧ ReadAt tree p
  inert : ∀ members pieces, scannedPieces cfg req = some (members, pieces) →
    (∀ v ∈ result.verdicts, v.2.action = .mask ∨ v.2.action = .block →
      InToolBlock (.obj members) v.1.path) →
    result.outcome = .forwarded (.verbatim req.body)

/-- What is scanned of a content under tool results is scanned of it alone as well, at a ceiling
that is no lower; and nothing that is scanned has a lower ceiling than what lies below a tool block.
-/
structure NeverRaised (mode : ToolBlockScanMode) (levels : Nat) (start : ActionCeiling)
    (content : Json) (p : ContentPiece) : Prop where
  nested : ∀ path inner rest, Nested content path inner → p.path = path ++ rest →
    ∃ q ∈ contentPieces mode levels start inner, q.path = rest ∧ p.ceiling.rank ≤ q.ceiling.rank
  lowest : BelowTool content p.path → ∀ other, ∀ q ∈ contentPieces mode levels start other,
    p.ceiling.rank ≤ q.ceiling.rank

theorem neverRaised {mode : ToolBlockScanMode} {levels : Nat} {start : ActionCeiling}
    {content : Json} (h : p ∈ contentPieces mode levels start content) :
    NeverRaised mode levels start content p := by
  rw [mem_contentPieces] at h
  refine ⟨?_, ?_⟩ <;> simp only [mem_contentPieces]
  · exact fun _ _ _ hnested hpath => nested_rank hnested h hpath
  · exact fun hbelow _ _ hq => (h.rank_belowTool hbelow).trans hq.le_rank

variable (cache : Option SessionMaskCache)

theorem toolContent_unchanged (h : scannedPieces cfg req = some (members, pieces)) (hp : p ∈ pieces)
    (htool : InToolBlock (.obj members) p.path) {tree : Json}
    (htree : (applyInboundFilter cfg detect cache req).1.outcome = .forwarded (.marshalled tree)) :
    Json.follow p.path tree = Json.follow p.path (.obj members) ∧ ReadAt tree p := by
  have hextract := scannedPieces_some cfg req h
  obtain ⟨l, message, hloop, hresult⟩ := applyInboundFilter_some cfg req detect h cache
  rw [hresult] at htree
  have hkept : Kept pieces (.obj members) l.tree := by
    have hrun := filterPieces_invariant cfg req (cacheScope req members) detect
      (I := fun l => Kept pieces (.obj members) l.tree) pieces 0
      (l := { tree := .obj members, cache := if req.cacheable then cache else none })
      (fun piece hpiece i l => kept_filterPiece cfg req _ detect
        (pairwise_extractUserContent hextract) hpiece i)
      (fun p _ _ => rfl)
    rw [hloop] at hrun
    exact hrun
  rw [← filterResult_marshalled req htree] at hkept
  have hsame := hkept p hp (ne_full_of_rank (rank_inToolBlock hextract hp htool))
  refine ⟨hsame, ?_⟩
  obtain ⟨v, hv, htext⟩ := readAt_extractUserContent hextract hp
  exact ⟨v, hsame.trans hv, htext⟩

theorem toolContent_inert (h : scannedPieces cfg req = some (members, pieces))
    (honly : ∀ v ∈ (applyInboundFilter cfg detect cache req).1.verdicts,
      v.2.action = .mask ∨ v.2.action = .block → InToolBlock (.obj members) v.1.path) :
    (applyInboundFilter cfg detect cache req).1.outcome = .forwarded (.verbatim req.body) := by
  have hextract := scannedPieces_some cfg req h
  obtain ⟨l, message, hloop, hresult⟩ := applyInboundFilter_some cfg req detect h cache
  rw [hresult, filterResult_verdicts] at honly
  have hof : ∀ v ∈ l.verdicts, v.1 ∈ pieces := by
    have hrun := verdicts_of_pieces cfg req (cacheScope req members) detect 0 pieces
      (l := { tree := .obj members, cache := if req.cacheable then cache else none }) nofun
    rw [hloop] at hrun
    exact hrun
  have hquiet := quiet_filterPieces cfg req (cacheScope req members) detect pieces (i := 0)
    (l := { tree := .obj members, cache := if req.cacheable then cache else none })
  rw [hloop] at hquiet
  obtain ⟨hnone, hcount⟩ := hquiet fun v hv => by
    by_cases hmask : v.2.action = .mask ∨ v.2.action = .block
    · exact quiet_of_ne_full v.2
        (ne_full_of_rank (rank_inToolBlock hextract (hof v hv) (honly v hv hmask)))
    · obtain ⟨hmask, hblock⟩ := not_or.mp hmask
      exact quiet_of_action hmask hblock
  dsimp only at hnone hcount
  rw [hresult, hnone, filterResult, hcount]
  rfl

/-- **Tool content is never rewritten and never blocks a request**, whatever the detector and the
cache answer; and nesting never raises what may be done with a piece. -/
theorem tool_content_never_acted_on :
    ToolContentKept cfg req (applyInboundFilter cfg detect cache req).1 ∧
      ∀ levels start content, ∀ p ∈ contentPieces cfg.mode levels start content,
        NeverRaised cfg.mode levels start content p := by
  refine ⟨⟨?_, ?_⟩, fun levels start content p hp => neverRaised hp⟩
  · intro members pieces h p hp htool tree htree
    exact toolContent_unchanged cfg req detect cache h hp htool htree
  · intro members pieces h honly
    exact toolContent_inert cfg req detect cache h honly

end AikeyProxy.Proxy
