import AikeyProxy.Lib.Groups
import AikeyProxy.Proof.MaskLabels

/-!
# Which token stands for which span

A piece of a request is unmasked text with masked spans in between. The detector replaces every span
by the token of its family; `renumberRestorables_piece` says that the numbering gives the spans
their labels in the order of the text, however the families are listed.
-/

namespace AikeyProxy.Proxy

open Lib List

/-- Unmasked text, and the span behind it with the code of its family. -/
structure Segment where
  before : Text
  code : Text
  span : Text

def headOf (tail : Text) : List Segment → Text
  | [] => tail
  | s :: ss => s.before ++ (s.span ++ headOf tail ss)

def maskedOf (tail : Text) : List Segment → Text
  | [] => tail
  | s :: ss => s.before ++ (tokenOf s.code ++ maskedOf tail ss)

def spansFrom : Nat → List Segment → List (Text × (Nat × Nat))
  | _, [] => []
  | start, s :: ss =>
    let a := start + s.before.length
    let b := a + s.span.length
    (s.code, (a, b)) :: spansFrom b ss

/-- What the detector makes of a piece. The families come in any order; one without a span in
this piece may be among them. -/
structure Piece where
  segments : List Segment
  tail : Text
  families : List Text
  nodup : families.Nodup
  covers : ∀ s ∈ segments, s.code ∈ families
  shipped : ∀ code ∈ families, isCode code = true
  plain : ∀ s ∈ segments, '{' ∉ s.before
  plain_tail : '{' ∉ tail

namespace Piece

variable (p : Piece)

def head : Text := headOf p.tail p.segments

def masked : Text := maskedOf p.tail p.segments

def spans : List (Text × (Nat × Nat)) := spansFrom 0 p.segments

def family (code : Text) : RestorableMask where
  token := tokenOf code
  numberedPrefix := labelOpening code
  numberedSuffix := ['}', '}']
  spans := (p.spans.filter fun x => x.1 = code).map Prod.snd

def restorables : List RestorableMask := p.families.map p.family

end Piece

/-! ## Finding the tokens -/

section Scan

variable {ordered : List Text}

theorem scanTokens_skip (ordered : List Text) (a s : Text) (pos : Nat) :
    scanTokens ordered pos a.length (a ++ s) = scanTokens ordered (pos + a.length) 0 s := by
  induction a generalizing pos with
  | nil => rfl
  | cons c a ih =>
    rw [cons_append, length_cons, scanTokens, ih (pos + 1)]
    congr 1
    omega

theorem tokenOf_injective : Function.Injective tokenOf := by
  intro c c' h
  simpa [tokenOf] using h

theorem code_eq_of_head {c c' : Text} (hc : isCode c = true) (hc' : isCode c' = true) {s : Text}
    (h : tokenOf c' <+: tokenOf c ++ s) : c' = c := by
  obtain ⟨r, hr⟩ := h
  have hread : ∀ (d : Text), isCode d = true → ∀ t : Text,
      ((tokenOf d ++ t).drop 2).takeWhile (· != '}') = d := by
    intro d hd t
    have hdrop : (tokenOf d ++ t).drop 2 = d ++ '}' :: '}' :: t := by simp [tokenOf]
    rw [hdrop, takeWhile_append_of_pos, takeWhile_cons_of_neg (by decide),
      append_nil]
    intro x hx
    rw [bne_iff_ne]
    exact (alphanum_apart (isAlphanum_of_isCode hd x hx)).2.1
  rw [← hread c' hc' r, hr, hread c hc s]

def TokensOf (codes : List Text) (ordered : List Text) : Prop :=
  ∀ t, t ∈ ordered ↔ ∃ c ∈ codes, t = tokenOf c

variable {codes : List Text}

theorem scanTokens_plain (ht : TokensOf codes ordered) {u : Text} (hu : '{' ∉ u) (s : Text) :
    ∀ pos : Nat, scanTokens ordered pos 0 (u ++ s) = scanTokens ordered (pos + u.length) 0 s := by
  induction u with
  | nil => intro pos; rfl
  | cons c u ih =>
    intro pos
    have hnone : ordered.find? (fun t => t.isPrefixOf (c :: (u ++ s))) = none := by
      rw [find?_eq_none]
      intro t hmem hpre
      obtain ⟨code, -, rfl⟩ := (ht t).mp hmem
      have hc : '{' = c := by
        rw [ isPrefixOf_iff_prefix] at hpre
        exact (cons_prefix_cons.mp hpre).1
      exact hu (hc ▸ mem_cons_self)
    rw [cons_append, scanTokens, hnone]
    have hrest := ih (fun hmem => hu (mem_cons_of_mem _ hmem)) (pos + 1)
    rw [length_cons, Nat.add_comm u.length 1, ← Nat.add_assoc]
    exact hrest

theorem scanTokens_token (ht : TokensOf codes ordered) (hcodes : ∀ c ∈ codes, isCode c = true)
    {c : Text} (hc : c ∈ codes) (s : Text) (pos : Nat) :
    scanTokens ordered pos 0 (tokenOf c ++ s) =
      (tokenOf c, pos) :: scanTokens ordered (pos + (tokenOf c).length) 0 s := by
  have hfind : ordered.find? (fun t => t.isPrefixOf (tokenOf c ++ s)) = some (tokenOf c) := by
    cases hf : ordered.find? (fun t => t.isPrefixOf (tokenOf c ++ s)) with
    | none =>
      refine absurd ?_ (find?_eq_none.mp hf _ ((ht _).mpr ⟨c, hc, rfl⟩))
      exact isPrefixOf_iff_prefix.mpr (prefix_append _ _)
    | some t =>
      obtain ⟨c', hc', rfl⟩ := (ht t).mp (mem_of_find?_eq_some hf)
      have hpre : (tokenOf c').isPrefixOf (tokenOf c ++ s) = true := by
        simpa only using find?_some hf
      rw [code_eq_of_head (hcodes c hc) (hcodes c' hc') ( isPrefixOf_iff_prefix.mp hpre)]
  have hshape : tokenOf c ++ s = '{' :: ('{' :: (c ++ ['}', '}']) ++ s) := rfl
  rw [hshape] at hfind ⊢
  rw [scanTokens, hfind]
  have hskip := scanTokens_skip ordered ('{' :: (c ++ ['}', '}'])) s (pos + 1)
  refine congrArg ((tokenOf c, pos) :: ·) (hskip.trans ?_)
  congr 1
  simp only [tokenOf, length_cons]
  omega

end Scan

/-! ## The occurrences in the order of the text -/

/-- The occurrences of the segments, the masked text of which begins at `pos` and the original
of which begins at `start`, with their codes. -/
def marksFrom : Nat → Nat → List Segment → List (Text × Occ)
  | _, _, [] => []
  | pos, start, s :: ss =>
    let a := start + s.before.length
    let b := a + s.span.length
    (s.code, ⟨pos + s.before.length, (tokenOf s.code).length, labelOpening s.code, ['}', '}'],
        s.span, (a, b)⟩) ::
      marksFrom (pos + s.before.length + (tokenOf s.code).length) b ss

theorem marksFrom_spans (ss : List Segment) :
    ∀ pos start : Nat,
      (marksFrom pos start ss).map (fun x => (x.1, x.2.span)) = spansFrom start ss := by
  induction ss with
  | nil => intro pos start; rfl
  | cons s ss ih =>
    intro pos start
    rw [marksFrom, spansFrom, map_cons, ih]

theorem scanTokens_maskedOf {ordered codes : List Text} (ht : TokensOf codes ordered)
    (hcodes : ∀ c ∈ codes, isCode c = true) {tail : Text} (htail : '{' ∉ tail)
    {ss : List Segment} (hss : ∀ s ∈ ss, s.code ∈ codes ∧ '{' ∉ s.before) :
    ∀ pos start : Nat, scanTokens ordered pos 0 (maskedOf tail ss) =
      (marksFrom pos start ss).map fun x => (tokenOf x.1, x.2.pos) := by
  induction ss with
  | nil =>
    intro pos start
    have hplain := scanTokens_plain ht htail [] pos
    rw [append_nil] at hplain
    rw [maskedOf, hplain]
    rfl
  | cons s ss ih =>
    intro pos start
    obtain ⟨hcode, hbefore⟩ := hss s mem_cons_self
    rw [maskedOf, scanTokens_plain ht hbefore, scanTokens_token ht hcodes hcode,
      ih (fun s' hs' => hss s' (mem_cons_of_mem _ hs')) _
        (start + s.before.length + s.span.length), marksFrom, map_cons]

variable {ss : List Segment}

theorem marksFrom_eq (tail : Text) :
    ∀ (pre : Text) (pos : Nat), ∀ x ∈ marksFrom pos pre.length ss,
      x.2 = ⟨x.2.pos, (tokenOf x.1).length, labelOpening x.1, ['}', '}'],
        slice (pre ++ headOf tail ss) x.2.span, x.2.span⟩ := by
  induction ss with
  | nil => intro pre pos x hx; exact absurd hx not_mem_nil
  | cons s ss ih =>
    intro pre pos x hx
    rw [marksFrom] at hx
    rcases mem_cons.mp hx with rfl | hx
    · have hslice : slice (pre ++ headOf tail (s :: ss)) (pre.length + s.before.length,
          pre.length + s.before.length + s.span.length) = s.span := by
        have hshape : pre ++ headOf tail (s :: ss) =
            (pre ++ s.before) ++ (s.span ++ headOf tail ss) := by
          simp [headOf]
        rw [slice, hshape, ← length_append, take_length_add_append, drop_left,
          take_left]
      simp only [hslice]
    · have hshape : pre ++ headOf tail (s :: ss) =
          (pre ++ s.before ++ s.span) ++ headOf tail ss := by
        simp [headOf]
      have hlen : pre.length + s.before.length + s.span.length =
          (pre ++ s.before ++ s.span).length := by
        simp only [length_append]
      rw [hshape]
      rw [hlen] at hx
      exact ih _ _ x hx

theorem exists_of_mem_marksFrom {pos start : Nat} {x : Text × Occ} (hx : x ∈ marksFrom pos start ss) :
    ∃ s ∈ ss, s.code = x.1 := by
  fun_induction marksFrom pos start ss with
  | case1 => cases hx
  | case2 pos start s ss _ _ ih =>
    rcases mem_cons.mp hx with rfl | hx
    · exact ⟨s, mem_cons_self, rfl⟩
    · obtain ⟨s', hs', hcode⟩ := ih hx
      exact ⟨s', mem_cons_of_mem _ hs', hcode⟩

theorem pos_le_of_mem_marksFrom {pos start : Nat} {x : Text × Occ}
    (hx : x ∈ marksFrom pos start ss) : pos ≤ x.2.pos := by
  fun_induction marksFrom pos start ss with
  | case1 => cases hx
  | case2 pos start s ss _ _ ih =>
    rcases mem_cons.mp hx with rfl | hx
    · exact Nat.le_add_right _ _
    · have hle := ih hx
      omega

theorem marksFrom_pairwise (ss : List Segment) (pos start : Nat) :
    (marksFrom pos start ss).Pairwise fun x y => x.2.pos + x.2.tokenLen ≤ y.2.pos := by
  fun_induction marksFrom pos start ss with
  | case1 => exact .nil
  | case2 pos start s ss _ _ ih =>
    exact pairwise_cons.mpr ⟨fun y hy => pos_le_of_mem_marksFrom hy, ih⟩

theorem spansFrom_mem {start : Nat} {x : Text × (Nat × Nat)} (hx : x ∈ spansFrom start ss) :
    start ≤ x.2.1 := by
  fun_induction spansFrom start ss with
  | case1 => cases hx
  | case2 start s ss _ _ ih =>
    rcases mem_cons.mp hx with rfl | hx
    · exact Nat.le_add_right _ _
    · have hle := ih hx
      omega

theorem spansValid_filter (tail : Text) (hne : ∀ s ∈ ss, s.span ≠ [])
    (keep : Text × (Nat × Nat) → Bool) :
    ∀ {start prevEnd headLen : Nat}, prevEnd ≤ start →
      start + (headOf tail ss).length ≤ headLen →
      spansValid headLen prevEnd (((spansFrom start ss).filter keep).map Prod.snd) = true := by
  induction ss with
  | nil => intro start prevEnd headLen _ _; rfl
  | cons s ss ih =>
    intro start prevEnd headLen hprev hlen
    have hspan : 0 < s.span.length := length_pos_iff.mpr (hne s mem_cons_self)
    have hne' : ∀ s' ∈ ss, s'.span ≠ [] := fun s' hs' => hne s' (mem_cons_of_mem _ hs')
    simp only [headOf, length_append] at hlen
    rw [spansFrom, filter_cons]
    by_cases hk : keep (s.code, (start + s.before.length,
        start + s.before.length + s.span.length)) = true
    · rw [if_pos hk, map_cons, spansValid, if_neg (by dsimp only; omega)]
      exact ih hne' (Nat.le_refl _) (by omega)
    · rw [if_neg hk]
      exact ih hne' (by omega) (by omega)

/-! ## The numbering of a piece -/

namespace Piece

variable (p : Piece)

def marks : List (Text × Occ) := marksFrom 0 0 p.segments

def present : List Text := p.families.filter fun c => (p.family c).spans ≠ []

theorem family_spans (code : Text) :
    (p.family code).spans = (p.marks.filter fun x => x.1 = code).map fun x => x.2.span := by
  rw [family, spans, ← marksFrom_spans p.segments 0 0, filter_map, map_map]
  rfl

theorem mem_present {s : Segment} (hs : s ∈ p.segments) : s.code ∈ p.present := by
  have hspan : ∀ (ss : List Segment) (start : Nat), s ∈ ss →
      ∃ x ∈ spansFrom start ss, x.1 = s.code := by
    intro ss
    induction ss with
    | nil => intro start h; exact absurd h not_mem_nil
    | cons s' ss ih =>
      intro start h
      rw [spansFrom]
      rcases mem_cons.mp h with rfl | h
      · exact ⟨_, mem_cons_self, rfl⟩
      · obtain ⟨x, hx, hcode⟩ := ih _ h
        exact ⟨x, mem_cons_of_mem _ hx, hcode⟩
  obtain ⟨x, hx, hcode⟩ := hspan p.segments 0 hs
  refine mem_filter.mpr ⟨p.covers s hs, decide_eq_true ?_⟩
  have hmem : x.2 ∈ (p.family s.code).spans :=
    mem_map.mpr ⟨x, mem_filter.mpr ⟨hx, decide_eq_true hcode⟩, rfl⟩
  exact ne_nil_of_mem hmem

theorem present_nodup : p.present.Nodup := p.nodup.filter _

theorem usable : usableRestorables p.restorables = p.present.map p.family := by
  have hformed : p.restorables.filter restorableWellFormed = p.present.map p.family := by
    rw [restorables, filter_map, present]
    refine congrArg (List.map p.family) (filter_congr fun c _ => ?_)
    simp [restorableWellFormed, family, tokenOf, labelOpening]
  rw [usableRestorables, hformed]
  refine filter_eq_self.mpr fun r hr => ?_
  obtain ⟨c, -, rfl⟩ := mem_map.mp hr
  have hcount : (p.present.map p.family).countP (fun q => q.token = (p.family c).token) =
      p.present.count c := by
    rw [countP_map, List.count]
    refine countP_congr fun c' _ => ?_
    simp [family, tokenOf_injective.eq_iff]
  rw [hcount, decide_eq_true_eq]
  exact nodup_iff_count_le_one.mp p.present_nodup c

theorem tokensOf_present :
    TokensOf p.present ((p.present.map p.family).map (·.token) |>.insertionSort
      fun a b => byteLen b ≤ byteLen a) := by
  intro t
  rw [(perm_insertionSort _ _).mem_iff, map_map, mem_map]
  constructor
  · rintro ⟨c, hc, rfl⟩
    exact ⟨c, hc, rfl⟩
  · rintro ⟨c, hc, rfl⟩
    exact ⟨c, hc, rfl⟩

theorem positions (code : Text) :
    scanTokenOccurrences p.masked ((p.present.map p.family).map (·.token)) (tokenOf code) =
      (p.marks.filter fun x => x.1 = code).map fun x => x.2.pos := by
  have hcodes : ∀ c ∈ p.present, isCode c = true := fun c hc =>
    p.shipped c (mem_filter.mp hc).1
  have hscan := scanTokens_maskedOf p.tokensOf_present hcodes p.plain_tail
    (fun s hs => ⟨p.mem_present hs, p.plain s hs⟩) 0 0
  rw [scanTokenOccurrences, masked, hscan, filter_map, map_map, marks]
  have hfilter : (marksFrom 0 0 p.segments).filter
        ((fun o : Text × Nat => decide (o.1 = tokenOf code)) ∘ fun x => (tokenOf x.1, x.2.pos)) =
      (marksFrom 0 0 p.segments).filter fun x => decide (x.1 = code) :=
    filter_congr fun x _ => by simp [tokenOf_injective.eq_iff]
  rw [hfilter]
  rfl

theorem familyOccs_eq (hne : ∀ s ∈ p.segments, s.span ≠ []) (code : Text) :
    familyOccs p.head ((p.marks.filter fun x => x.1 = code).map fun x => x.2.pos)
      (p.family code) = (p.marks.filter fun x => x.1 = code).map Prod.snd := by
  have hvalid : spansValid p.head.length 0 (p.family code).spans = true :=
    spansValid_filter p.tail hne _ (Nat.le_refl 0)
      (Nat.le_of_eq (Nat.zero_add _))
  have hlen : ((p.marks.filter fun x => x.1 = code).map fun x => x.2.pos).length =
      (p.family code).spans.length := by
    rw [p.family_spans, length_map, length_map]
  rw [familyOccs, if_neg (by simp [hvalid, hlen]), p.family_spans, zipWith_map,
    zipWith_self]
  refine map_congr_left fun x hx => ?_
  obtain ⟨hmem, hcode⟩ := mem_filter.mp hx
  have heq := marksFrom_eq p.tail [] 0 x hmem
  rw [of_decide_eq_true hcode] at heq
  exact heq.symm

theorem marks_sorted : p.marks.Pairwise fun x y => x.2.pos < y.2.pos := by
  refine (marksFrom_pairwise p.segments 0 0).imp_of_mem fun {x y} hx _ hle => ?_
  have hlen : 0 < x.2.tokenLen := by
    rw [marksFrom_eq p.tail [] 0 x hx]
    exact Nat.succ_pos _
  omega

theorem sorted_occs :
    (p.present.flatMap fun c => (p.marks.filter fun x => x.1 = c).map Prod.snd).insertionSort
      (fun a b => a.pos ≤ b.pos) = p.marks.map Prod.snd := by
  have hpresent : ∀ x ∈ p.marks, x.1 ∈ p.present := by
    intro x hx
    obtain ⟨s, hs, hcode⟩ := exists_of_mem_marksFrom hx
    exact hcode ▸ p.mem_present hs
  have hperm : (p.present.flatMap fun c => (p.marks.filter fun x => x.1 = c).map Prod.snd).Perm
      (p.marks.map Prod.snd) := by
    rw [← map_flatMap]
    exact (flatMap_filter_perm Prod.fst p.present_nodup hpresent).map Prod.snd
  have hnodup : (p.marks.map fun x => x.2.pos).Nodup :=
    pairwise_map.mpr (p.marks_sorted.imp fun hlt => Nat.ne_of_lt hlt)
  refine List.Perm.eq_of_pairwise ?_ (pairwise_insertionSort _ _) ?_
    ((perm_insertionSort _ _).trans hperm)
  · intro a b ha hb hab hba
    have ha' := ((perm_insertionSort _ _).trans hperm).mem_iff.mp ha
    obtain ⟨x, hx, rfl⟩ := mem_map.mp ha'
    obtain ⟨y, hy, rfl⟩ := mem_map.mp hb
    rw [inj_on_of_nodup_map hnodup hx hy (Nat.le_antisymm hab hba)]
  · exact pairwise_map.mpr (p.marks_sorted.imp fun hlt => Nat.le_of_lt hlt)

end Piece

theorem occsApart_of_pairwise {xs : List (Text × Occ)}
    (h : xs.Pairwise fun x y => x.2.pos + x.2.tokenLen ≤ y.2.pos) :
    occsApart (xs.map Prod.snd) = true := by
  induction xs with
  | nil => rfl
  | cons x xs ih =>
    obtain ⟨hx, hxs⟩ := pairwise_cons.mp h
    cases xs with
    | nil => rfl
    | cons y ys =>
      rw [map_cons, map_cons, occsApart, Bool.and_eq_true]
      exact ⟨decide_eq_true (hx y mem_cons_self), ih hxs⟩

/-- The numbered text, the first number being `n`. -/
def relabelled (tail : Text) : Nat → List Segment → Text
  | _, [] => tail
  | n, s :: ss => s.before ++ labelOf s.code n ++ relabelled tail (n + 1) ss

/-- The labels with the spans they stand for, the first number being `n`. -/
def issueRows : Nat → Nat → List Segment → List ((Nat × Nat) × Issue)
  | _, _, [] => []
  | start, n, s :: ss =>
    let a := start + s.before.length
    let b := a + s.span.length
    ((a, b), ⟨s.code, n, s.span⟩) :: issueRows b (n + 1) ss

def labelRows (start n : Nat) (ss : List Segment) : List ((Nat × Nat) × Text) :=
  (issueRows start n ss).map fun row => (row.1, row.2.label)

def issueAll (st : MaskRestore) (ss : List Segment) : MaskRestore :=
  ss.foldl (fun st s => st.issue s.code s.span) st

@[simp] theorem issue_nextN (st : MaskRestore) (code original : Text) :
    (st.issue code original).nextN = st.nextN + 1 := by
  unfold MaskRestore.issue MaskRestore.add
  cases canonicalLabel? (labelOf code st.nextN) <;> rfl

theorem rebuild_marksFrom (tail : Text) :
    ∀ (ss : List Segment) (pre : Text) (start : Nat) (st : MaskRestore),
      rebuild (pre ++ maskedOf tail ss) ((marksFrom pre.length start ss).map Prod.snd)
        pre.length st =
        (relabelled tail st.nextN ss, labelRows start st.nextN ss, issueAll st ss) := by
  intro ss
  induction ss with
  | nil =>
    intro pre start st
    rw [marksFrom, map_nil, rebuild, maskedOf, drop_left]
    rfl
  | cons s ss ih =>
    intro pre start st
    have hshape : pre ++ maskedOf tail (s :: ss) =
        (pre ++ s.before ++ tokenOf s.code) ++ maskedOf tail ss := by
      simp [maskedOf]
    have hpos : pre.length + s.before.length + (tokenOf s.code).length =
        (pre ++ s.before ++ tokenOf s.code).length := by
      simp only [length_append]
    have hslice : slice (pre ++ maskedOf tail (s :: ss))
        (pre.length, pre.length + s.before.length) = s.before := by
      rw [slice, maskedOf, take_length_add_append, take_left, drop_left]
    have hrest := ih (pre ++ s.before ++ tokenOf s.code)
      (start + s.before.length + s.span.length) (st.issue s.code s.span)
    rw [← hshape, ← hpos, issue_nextN] at hrest
    have hlabel : labelOpening s.code ++ Nat.toDigits 10 st.nextN ++ ['}', '}'] =
        labelOf s.code st.nextN := rfl
    have hissue : { st with nextN := st.nextN + 1 }.add (labelOf s.code st.nextN) s.span =
        st.issue s.code s.span := rfl
    rw [marksFrom, map_cons, rebuild]
    simp only [hslice, hlabel, hissue, hrest]
    rfl

/-- **The numbering of one piece.** The spans get the next numbers in the order of the text. -/
theorem renumberRestorables_piece (p : Piece) (hne : ∀ s ∈ p.segments, s.span ≠ [])
    (st : MaskRestore) :
    renumberRestorables p.head p.masked p.restorables st =
      (relabelled p.tail st.nextN p.segments,
        assignAll ∅ (labelRows 0 st.nextN p.segments), issueAll st p.segments) := by
  have hoccs : (usableRestorables p.restorables).flatMap (fun r => familyOccs p.head
        (scanTokenOccurrences p.masked ((usableRestorables p.restorables).map (·.token)) r.token)
        r) =
      p.present.flatMap fun c => (p.marks.filter fun x => x.1 = c).map Prod.snd := by
    rw [p.usable, flatMap_map]
    refine flatMap_congr fun c _ => ?_
    rw [← p.familyOccs_eq hne c, ← p.positions c]
    rfl
  have hsorted := p.sorted_occs
  have happart : occsApart (p.marks.map Prod.snd) = true :=
    occsApart_of_pairwise (marksFrom_pairwise p.segments 0 0)
  have hrebuild := rebuild_marksFrom p.tail p.segments [] 0 st
  rw [renumberRestorables]
  simp only [hoccs, hsorted, happart]
  by_cases hnil : p.marks.map Prod.snd = []
  · have hsegs : p.segments = [] := by
      cases hss : p.segments with
      | nil => rfl
      | cons s ss =>
        rw [map_eq_nil_iff, Piece.marks, hss, marksFrom] at hnil
        cases hnil
    rw [if_pos (.inl hnil), Piece.masked, hsegs]
    rfl
  · rw [if_neg (by simp [hnil])]
    have hrebuild' : rebuild p.masked (p.marks.map Prod.snd) 0 st = _ := hrebuild
    rw [hrebuild']

end AikeyProxy.Proxy
