import AikeyProxy.Proof.MaskNumbering

/-!
# Masking and restoring a request

The pieces of a request are numbered one after the other in one table, whose invariant `Issued`
survives every piece, so the table at the end takes back each of them (`mask_restore_identity`). An
empty span is refused by the numbering, and a label with ten digits is not of the shipped shape.
-/

namespace AikeyProxy.Proxy

open Lib List MaskRestore

/-! ## The labels of a request -/

def renumberPieces : List Piece → MaskRestore →
    List (Text × Table (Nat × Nat) Text) × MaskRestore
  | [], st => ([], st)
  | p :: ps, st =>
    let (text, labels, st) := renumberRestorables p.head p.masked p.restorables st
    let (outs, st) := renumberPieces ps st
    ((text, labels) :: outs, st)

/-- The labels of the segments, the first number being `n`. -/
def issuesFrom : Nat → List Segment → List Issue
  | _, [] => []
  | n, s :: ss => ⟨s.code, n, s.span⟩ :: issuesFrom (n + 1) ss

theorem length_issuesFrom (ss : List Segment) (n : Nat) : (issuesFrom n ss).length = ss.length := by
  fun_induction issuesFrom n ss <;> simp_all

theorem issueAll_nextN (ss : List Segment) :
    ∀ st : MaskRestore, (issueAll st ss).nextN = st.nextN + ss.length := by
  induction ss with
  | nil => intro st; rfl
  | cons s ss ih =>
    intro st
    have hrest := ih (st.issue s.code s.span)
    rw [issue_nextN] at hrest
    rw [length_cons, Nat.add_comm ss.length 1, ← Nat.add_assoc]
    exact hrest

variable {ss : List Segment} {is : List Issue} {st : MaskRestore}

theorem Issued.segments (hcodes : ∀ s ∈ ss, isCode s.code = true) :
    ∀ {st : MaskRestore} {is : List Issue}, Issued st is → is.length + ss.length < 10 ^ 9 →
      Issued (issueAll st ss) (is ++ issuesFrom st.nextN ss) := by
  induction ss with
  | nil =>
    intro st is h _
    rw [issuesFrom, append_nil]
    exact h
  | cons s ss ih =>
    intro st is h hroom
    rw [length_cons] at hroom
    have hone := h.issue (hcodes s mem_cons_self) s.span (by omega)
    have hrest := ih (fun s' hs' => hcodes s' (mem_cons_of_mem _ hs')) hone
      (by rw [length_append, length_singleton]; omega)
    rw [issue_nextN, append_assoc] at hrest
    exact hrest

theorem issueRows_issues (ss : List Segment) (start n : Nat) :
    (issueRows start n ss).map Prod.snd = issuesFrom n ss := by
  fun_induction issueRows start n ss <;> simp_all [issuesFrom]

theorem issueRows_spans (ss : List Segment) :
    ∀ start n : Nat, (issueRows start n ss).map Prod.fst = (spansFrom start ss).map Prod.snd := by
  induction ss with
  | nil => intro start n; rfl
  | cons s ss ih =>
    intro start n
    rw [issueRows, spansFrom, map_cons, map_cons, ih]

theorem slice_issueRows (tail : Text) :
    ∀ (pre : Text) (n : Nat), ∀ row ∈ issueRows pre.length n ss,
      slice (pre ++ headOf tail ss) row.1 = row.2.original := by
  induction ss with
  | nil => intro pre n row h; exact absurd h not_mem_nil
  | cons s ss ih =>
    intro pre n row h
    have hshape : pre ++ headOf tail (s :: ss) =
        (pre ++ s.before) ++ (s.span ++ headOf tail ss) := by
      simp [headOf]
    rw [issueRows] at h
    rcases mem_cons.mp h with rfl | h
    · rw [slice, hshape, ← length_append, take_length_add_append, drop_left,
        take_left]
    · have hrest := ih (pre ++ s.before ++ s.span) (n + 1) row
      rw [append_assoc (pre ++ s.before), ← hshape, length_append,
        length_append] at hrest
      exact hrest h

theorem spansFrom_nodup (hne : ∀ s ∈ ss, s.span ≠ []) :
    ∀ start : Nat, ((spansFrom start ss).map Prod.snd).Nodup := by
  induction ss with
  | nil => intro start; exact .nil
  | cons s ss ih =>
    intro start
    have hspan : 0 < s.span.length := length_pos_iff.mpr (hne s mem_cons_self)
    rw [spansFrom, map_cons, nodup_cons]
    refine ⟨?_, ih (fun s' hs' => hne s' (mem_cons_of_mem _ hs')) _⟩
    intro hmem
    obtain ⟨x, hx, heq⟩ := mem_map.mp hmem
    have hle := spansFrom_mem hx
    rw [heq] at hle
    dsimp only at hle
    omega

theorem Issued.restore_relabelled (h : Issued st is)
    (hroom : is.length < 10 ^ 9) {tail : Text} (htail : '{' ∉ tail) {ss : List Segment}
    (hplain : ∀ s ∈ ss, '{' ∉ s.before) :
    ∀ {n : Nat}, (∀ i ∈ issuesFrom n ss, i ∈ is) →
      st.restoreCanonical (relabelled tail n ss) = headOf tail ss := by
  induction ss with
  | nil =>
    intro n _
    have hrest := restoreCanonical_plain st htail []
    rw [append_nil] at hrest
    exact hrest.trans (append_nil tail)
  | cons s ss ih =>
    intro n hsub
    have hi := hsub ⟨s.code, n, s.span⟩ mem_cons_self
    have hlabel := h.restoreCanonical_label hroom hi (relabelled tail (n + 1) ss)
    rw [relabelled, append_assoc, restoreCanonical_plain st (hplain s mem_cons_self)]
    have hrest := ih (fun s' hs' => hplain s' (mem_cons_of_mem _ hs'))
      (fun i hi' => hsub i (mem_cons_of_mem _ hi'))
    rw [hrest] at hlabel
    exact congrArg (s.before ++ ·) hlabel

def startsFrom : Nat → List Piece → List (Piece × Nat)
  | _, [] => []
  | n, p :: ps => (p, n) :: startsFrom (n + p.segments.length) ps

def outcome (x : Piece × Nat) : Text × Table (Nat × Nat) Text :=
  (relabelled x.1.tail x.2 x.1.segments, assignAll ∅ (labelRows 0 x.2 x.1.segments))

def issuesOf (x : Piece × Nat) : List Issue := issuesFrom x.2 x.1.segments

section

variable (ps : List Piece)

theorem map_startsFrom (n : Nat) : (startsFrom n ps).map Prod.fst = ps := by
  fun_induction startsFrom n ps <;> simp_all

theorem renumberPieces_eq {ps : List Piece} (hne : ∀ p ∈ ps, ∀ s ∈ p.segments, s.span ≠ []) :
    ∀ st : MaskRestore, renumberPieces ps st =
      ((startsFrom st.nextN ps).map outcome,
        ps.foldl (fun st p => issueAll st p.segments) st) := by
  induction ps with
  | nil => intro st; rfl
  | cons p ps ih =>
    intro st
    rw [renumberPieces, renumberRestorables_piece p (hne p mem_cons_self) st]
    simp only [ih (fun q hq => hne q (mem_cons_of_mem _ hq)), issueAll_nextN]
    rfl

def spanCount : Nat := (ps.map fun p => p.segments.length).sum

theorem Issued.pieces :
    ∀ {st : MaskRestore} {is : List Issue}, Issued st is → is.length + spanCount ps < 10 ^ 9 →
      Issued (ps.foldl (fun st p => issueAll st p.segments) st)
        (is ++ (startsFrom st.nextN ps).flatMap issuesOf) := by
  induction ps with
  | nil =>
    intro st is h _
    simpa [startsFrom] using h
  | cons p ps ih =>
    intro st is h hroom
    rw [spanCount, map_cons, sum_cons] at hroom
    have hone := h.segments (fun s hs => p.shipped _ (p.covers s hs)) (by omega)
    have hrest := ih hone (by rw [length_append, length_issuesFrom, spanCount]; omega)
    rw [issueAll_nextN, append_assoc] at hrest
    exact hrest

/-- With the table at the end, every piece is restored, every masked span has a label that is
restored to it, and no label was issued for anything else. -/
def RoundTrip : Prop :=
  let r := renumberPieces ps newMaskRestore
  List.Forall₂
      (fun p out => r.2.restore out.1 = p.head ∧
        ∀ sp ∈ p.spans, ∃ label,
          out.2.lookup sp.2 = some label ∧ r.2.restore label = slice p.head sp.2)
      ps r.1 ∧
    ∀ label ∈ r.2.keys, ∃ x ∈ ps.zip r.1, ∃ sp,
      x.2.2.lookup sp = some label ∧ r.2.restore label = slice x.1.head sp

theorem Issued.restore_label (h : Issued st is) (hroom : is.length < 10 ^ 9) {i : Issue}
    (hi : i ∈ is) : st.restore i.label = i.original := by
  have hlabel := h.restoreCanonical_label hroom hi []
  rw [append_nil] at hlabel
  rw [h.restore_eq (ne_nil_of_mem hi), hlabel]
  exact append_nil _

variable {x : Piece × Nat}

theorem Issued.restore_piece (h : Issued st is) (hroom : is.length < 10 ^ 9)
    (hsub : ∀ i ∈ issuesOf x, i ∈ is) : st.restore (outcome x).1 = x.1.head := by
  obtain ⟨p, n⟩ := x
  have hcanon := h.restore_relabelled hroom p.plain_tail p.plain hsub
  by_cases hne : is = []
  · have hsegs : p.segments = [] := by
      rw [← length_eq_zero_iff, ← length_issuesFrom p.segments n, length_eq_zero_iff]
      exact eq_nil_iff_forall_not_mem.mpr fun i hi =>
        absurd (hsub i hi) (hne ▸ not_mem_nil)
    have hkeys : st.keys = [] := by rw [h.keys, hne]; rfl
    rw [restore, if_pos (.inl hkeys), outcome, Piece.head, hsegs]
    rfl
  · rw [h.restore_eq hne]
    exact hcanon

theorem lookup_outcome (hne : ∀ s ∈ x.1.segments, s.span ≠ []) {row : (Nat × Nat) × Issue}
    (hrow : row ∈ issueRows 0 x.2 x.1.segments) :
    (outcome x).2.lookup row.1 = some row.2.label := by
  have hnodup : ((labelRows 0 x.2 x.1.segments).map Prod.fst).Nodup := by
    rw [labelRows, map_map]
    have hspans := spansFrom_nodup hne 0
    rw [← issueRows_spans x.1.segments 0 x.2] at hspans
    exact hspans
  exact lookup_assignAll_of_nodup hnodup
    (mem_map_of_mem (f := fun row : (Nat × Nat) × Issue => (row.1, row.2.label)) hrow)

theorem length_issues (n : Nat) : ((startsFrom n ps).flatMap issuesOf).length = spanCount ps := by
  fun_induction startsFrom n ps with
  | case1 => rfl
  | case2 n p ps ih =>
    rw [flatMap_cons, length_append, ih, issuesOf, length_issuesFrom]
    rfl

/-- **Mask, then restore.** Every piece of a request comes back and every label stands for its span,
as long as no span is empty and the numbers have at most nine digits. -/
theorem mask_restore_identity (hne : ∀ p ∈ ps, ∀ s ∈ p.segments, s.span ≠ [])
    (hcount : spanCount ps ≤ 999999999) : RoundTrip ps := by
  have hissued := issued_new.pieces ps (by simp; omega)
  have hroom := length_issues ps newMaskRestore.nextN
  have hstarts := map_startsFrom ps newMaskRestore.nextN
  rw [RoundTrip, renumberPieces_eq hne]
  rw [nil_append] at hissued
  generalize ps.foldl (fun st p => issueAll st p.segments) newMaskRestore = st at hissued ⊢
  generalize startsFrom newMaskRestore.nextN ps = xs at hissued hroom hstarts ⊢
  have hlt : (xs.flatMap issuesOf).length < 10 ^ 9 := by omega
  subst hstarts
  have hsub : ∀ x ∈ xs, ∀ i ∈ issuesOf x, i ∈ xs.flatMap issuesOf := fun x hx i hi =>
    mem_flatMap.mpr ⟨x, hx, hi⟩
  -- what every row of the map of a piece amounts to
  have hrows : ∀ x ∈ xs, ∀ row ∈ issueRows 0 x.2 x.1.segments,
      (outcome x).2.lookup row.1 = some row.2.label ∧
        st.restore row.2.label = slice x.1.head row.1 := by
    intro x hx row hrow
    have hmem : row.2 ∈ issuesOf x := by
      rw [issuesOf, ← issueRows_issues x.1.segments 0 x.2]
      exact mem_map_of_mem hrow
    refine ⟨lookup_outcome (hne x.1 (mem_map_of_mem hx)) hrow, ?_⟩
    rw [hissued.restore_label hlt (hsub x hx row.2 hmem)]
    exact (slice_issueRows x.1.tail [] x.2 row hrow).symm
  constructor
  · rw [forall₂_map_left_iff, forall₂_map_right_iff, forall₂_same]
    intro x hx
    refine ⟨hissued.restore_piece hlt (hsub x hx), fun sp hsp => ?_⟩
    have hkey : sp.2 ∈ (issueRows 0 x.2 x.1.segments).map Prod.fst := by
      rw [issueRows_spans]
      exact mem_map_of_mem hsp
    obtain ⟨row, hrow, hspan⟩ := mem_map.mp hkey
    rw [← hspan]
    exact ⟨row.2.label, hrows x hx row hrow⟩
  · intro label hlabel
    rw [hissued.keys, mem_map] at hlabel
    obtain ⟨i, hi, rfl⟩ := hlabel
    obtain ⟨x, hx, hix⟩ := mem_flatMap.mp hi
    rw [issuesOf, ← issueRows_issues x.1.segments 0 x.2] at hix
    obtain ⟨row, hrow, rfl⟩ := mem_map.mp hix
    refine ⟨(x.1, outcome x), ?_, row.1, hrows x hx row hrow⟩
    rw [zip_map']
    exact mem_map_of_mem (f := fun x => (x.1, outcome x)) hx

end

def singlePiece (span : Text) : Piece where
  segments := [⟨[], ['A'], span⟩]
  tail := []
  families := [['A']]
  nodup := by decide
  covers := by simp
  shipped := by decide
  plain := by simp
  plain_tail := by simp

/-- Two pieces, in which a span of the second looks like the label of the first. -/
theorem two_pieces_identity : RoundTrip [singlePiece "Main St 5".toList,
    singlePiece "{{A_1}}".toList] :=
  mask_restore_identity _ (by decide) (by decide)

/-- What the first pass puts in, the pass over the custom labels takes out again. -/
theorem Issued.restore_custom (h : Issued st is) (hroom : is.length < 10 ^ 9) {i : Issue}
    (hi : i ∈ is) (code x : Text) (hlabel : canonicalLabel? (labelOf code st.nextN) = none)
    (horig : i.original = labelOf code st.nextN) : (st.issue code x).restore i.label = x := by
  have hcanon : st.restoreCanonical i.label = labelOf code st.nextN := by
    have hone := h.restoreCanonical_label hroom hi []
    rw [append_nil] at hone
    rw [hone, horig]
    exact append_nil _
  -- the second pass has this one pair
  have hswap : rewrite (pairTok [(labelOf code st.nextN, x)]) 0
      (labelOf code st.nextN ++ []) = x ++ [] := by
    refine rewrite_match (cons_ne_nil _ _) ?_
    have hpre : (labelOf code st.nextN).isPrefixOf (labelOf code st.nextN ++ []) = true :=
      isPrefixOf_iff_prefix.mpr (prefix_append _ _)
    have hempty : (labelOf code st.nextN).isEmpty = false := rfl
    rw [pairTok, find?_cons_of_pos (by simp only [hempty, hpre]; rfl)]
    rfl
  rw [append_nil, append_nil] at hswap
  have hcanonical : (st.issue code x).canonical = st.canonical := by
    simp only [MaskRestore.issue, MaskRestore.add, hlabel]
  have hcustom : (st.issue code x).custom = [labelOf code st.nextN] := by
    simp only [MaskRestore.issue, MaskRestore.add, hlabel, h.custom, nil_append]
  have hkeys : (st.issue code x).keys ≠ [] := by
    simp [MaskRestore.issue, MaskRestore.add, hlabel]
  have hentry : (st.issue code x).entries.lookup (labelOf code st.nextN) = some x := by
    simp only [MaskRestore.issue, MaskRestore.add, hlabel, AList.lookup_insert]
  generalize st.issue code x = st' at hcanonical hcustom hkeys hentry ⊢
  have hcanon' : st'.restoreCanonical i.label = labelOf code st.nextN := by
    rw [← hcanon]
    unfold restoreCanonical placeholderTok
    rw [hcanonical]
  have hbrace : '{' ∈ i.label := mem_cons_self
  have hcan : st'.canonical ≠ ∅ := hcanonical ▸ h.canonical_ne_empty hi
  have hne : i.label ≠ [] := ne_nil_of_mem hbrace
  rw [restore, if_neg (by simp [hkeys, hne])]
  simp only [hcan, hbrace, ne_eq, not_false_eq_true, and_self, if_true, hcanon', hcustom,
    cons_ne_nil, MaskRestore.rep, map_cons, map_nil, hentry, Option.getD_some]
  exact hswap

/-- A request with `n + 2` spans, the first of which reads like the label with number
`10 ^ 9`. -/
def manyPieces (n : Nat) : List Piece :=
  (singlePiece (labelOf ['A'] (10 ^ 9)) :: List.replicate n (singlePiece ['x'])) ++
    [singlePiece ['x']]

theorem manyPieces_spans (n : Nat) : ∀ p ∈ manyPieces n, ∀ s ∈ p.segments, s.span ≠ [] := by
  have hsingle : ∀ y : Text, y ≠ [] → ∀ s ∈ (singlePiece y).segments, s.span ≠ [] := by
    intro y hy s hs
    rw [mem_singleton.mp hs]
    exact hy
  intro p hp
  rcases mem_append.mp hp with hp | hp
  · rcases mem_cons.mp hp with rfl | hp
    · exact hsingle _ (cons_ne_nil _ _)
    · rw [eq_of_mem_replicate hp]
      exact hsingle _ (cons_ne_nil _ _)
  · rw [mem_singleton.mp hp]
    exact hsingle _ (cons_ne_nil _ _)

theorem not_roundTrip_manyPieces {n : Nat} (hn : n + 2 = 10 ^ 9) : ¬ RoundTrip (manyPieces n) := by
  intro hround
  -- all labels but the last one are of the shipped shape
  have hcount : spanCount (singlePiece (labelOf ['A'] (10 ^ 9)) ::
      List.replicate n (singlePiece ['x'])) = n + 1 := by
    rw [spanCount, map_cons, map_replicate, sum_cons, sum_replicate_nat,
      singlePiece, singlePiece, length_singleton, length_singleton]
    omega
  have hissued := issued_new.pieces (singlePiece (labelOf ['A'] (10 ^ 9)) ::
    List.replicate n (singlePiece ['x'])) (by rw [hcount, length_nil]; omega)
  rw [nil_append] at hissued
  have hlen := length_issues (singlePiece (labelOf ['A'] (10 ^ 9)) ::
    List.replicate n (singlePiece ['x'])) newMaskRestore.nextN
  rw [hcount] at hlen
  rw [RoundTrip, renumberPieces_eq (manyPieces_spans n)] at hround
  have hfirst := (forall₂_cons.mp hround.1).1.1
  rw [manyPieces, foldl_append] at hfirst
  have hnext := hissued.next
  rw [hlen, hn] at hnext
  have hrestored := hissued.restore_custom (by omega) (mem_cons_self) ['A'] ['x']
    (by rw [hnext]; decide) (by rw [hnext])
  have hlast : ['x'] = (singlePiece (labelOf ['A'] (10 ^ 9))).head := hrestored.symm.trans hfirst
  exact absurd hlast (by decide)

/-- The token of an empty span keeps its place, and ten digits make a label custom. -/
theorem mask_restore_not_identity :
    (¬ ∀ ps : List Piece, spanCount ps ≤ 999999999 → RoundTrip ps) ∧
      ¬ ∀ ps : List Piece, (∀ p ∈ ps, ∀ s ∈ p.segments, s.span ≠ []) → RoundTrip ps := by
  constructor
  · intro h
    have hround := h [singlePiece []] (by decide)
    have hout : renumberPieces [singlePiece []] newMaskRestore =
        ([(tokenOf ['A'], ∅)], newMaskRestore) := rfl
    rw [RoundTrip, hout] at hround
    exact absurd (forall₂_cons.mp hround.1).1.1 (by decide)
  · intro h
    exact not_roundTrip_manyPieces (by decide : 999999998 + 2 = 10 ^ 9)
      (h (manyPieces 999999998) (manyPieces_spans _))

end AikeyProxy.Proxy
