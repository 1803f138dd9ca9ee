import Mathlib.Data.List.Basic
import Mathlib.Data.List.Infix

/-!
# Cutting a stream into frames

A reader keeps what has arrived in a buffer and cuts a frame off its front as long as a search finds
the end of one. What the search finds can be overruled by what arrives later. `Cutter` is such a
search with its laws, and `Reading` is what a frame is read as: its fields, which blank elements
separate.

`Reading.feed_eq_iff` says when the frames do not depend on how the stream is cut: exactly when no
frame of the stream read in one piece has fields on both sides of a separator that may be overruled.
-/

namespace Lib

open List

variable {α φ β : Type}

section Search

variable [DecidableEq α]

def firstIndex (sep : List α) : List α → Option Nat
  | [] => if sep = [] then some 0 else none
  | x :: w => if sep <+: x :: w then some 0 else (firstIndex sep w).map (· + 1)

omit [DecidableEq α] in
def FirstAt (sep p : List α) : Prop := ¬sep <:+: p ++ sep.dropLast

variable {sep w : List α} {i : Nat}

theorem firstIndex_eq_none : firstIndex sep w = none ↔ ¬sep <:+: w := by
  induction w with
  | nil => simp [firstIndex]
  | cons x w ih =>
    rw [firstIndex, infix_cons_iff]
    split
    next hpre => simp [hpre]
    next hpre => simp [hpre, ih]

omit [DecidableEq α] in
theorem isPrefix_append_dropLast (p sep r : List α) : p ++ sep.dropLast <+: p ++ sep ++ r :=
  ((prefix_append_right_inj p).mpr ( dropLast_prefix sep)).trans (prefix_append _ r)

omit [DecidableEq α] in
theorem FirstAt.not_prefix {x : α} {p : List α} (r : List α) (h : FirstAt sep (x :: p)) :
    ¬sep <+: x :: p ++ sep ++ r := by
  intro hpre
  refine h (prefix_of_prefix_length_le hpre (isPrefix_append_dropLast _ _ r) ?_).isInfix
  rw [length_append, length_cons, length_dropLast]
  omega

theorem firstIndex_eq_some (hsep : sep ≠ []) :
    firstIndex sep w = some i ↔ ∃ p r, w = p ++ sep ++ r ∧ p.length = i ∧ FirstAt sep p := by
  constructor
  · intro h
    induction w generalizing i with
    | nil => simp [firstIndex, hsep] at h
    | cons x w ih =>
      rw [firstIndex] at h
      split at h
      next hpre =>
        obtain ⟨r, hr⟩ := hpre
        cases h
        refine ⟨[], r, hr.symm, rfl, fun hin => ?_⟩
        have hlen := hin.length_le
        have hpos := length_pos_iff.mpr hsep
        rw [nil_append, length_dropLast] at hlen
        omega
      next hpre =>
        obtain ⟨j, hj, rfl⟩ := Option.map_eq_some_iff.mp h
        obtain ⟨p, r, rfl, rfl, hfirst⟩ := ih hj
        refine ⟨x :: p, r, rfl, rfl, fun hin => ?_⟩
        rcases infix_cons_iff.mp hin with hin | hin
        · exact hpre (hin.trans (isPrefix_append_dropLast (x :: p) sep r))
        · exact hfirst hin
  · rintro ⟨p, r, rfl, rfl, hfirst⟩
    induction p with
    | nil =>
      cases sep with
      | nil => exact absurd rfl hsep
      | cons y ys => exact if_pos (prefix_append _ r)
    | cons x p ih =>
      have hnot := hfirst.not_prefix r
      rw [cons_append, cons_append] at hnot ⊢
      rw [firstIndex, if_neg hnot, ih fun hin => hfirst (infix_cons hin)]
      rfl

end Search

/-- `find w = some (p, s, r)` is the frame `p` with the separator `s` behind it; `late` are the
separators that a longer buffer may overrule. -/
structure Cutter (α : Type) where
  find : List α → Option (List α × List α × List α)
  blank : α → Prop
  late : List α → Prop
  eq_of_find : ∀ {w p s r}, find w = some (p, s, r) → w = p ++ s ++ r
  sep_ne_nil : ∀ {w p s r}, find w = some (p, s, r) → s ≠ []
  blank_of_find : ∀ {w p s r}, find w = some (p, s, r) → ∀ x ∈ s, blank x
  find_drop : ∀ {a p s r}, find (a ++ p ++ s ++ r) = some (a ++ p, s, r) →
    find (p ++ s ++ r) = some (p, s, r)
  find_take : ∀ {p s r b}, find (p ++ s ++ r ++ b) = some (p, s, r ++ b) →
    find (p ++ s ++ r) = some (p, s, r)
  find_none : ∀ {v w}, find w = none → v <:+: w → find v = none
  overruled : ∀ {u v p s r p' s' r'}, find u = some (p, s, r) → find (u ++ v) = some (p', s', r') →
    (p', s', r') = (p, s, r ++ v) ∨ p.length < p'.length ∧ late s
  blank_of_late : ∀ {s}, late s → ∀ x ∈ s, blank x
  late_found : ∀ {s} a, late s → find (a ++ s) ≠ none

namespace Cutter

variable (C : Cutter α)

def cut : Nat → List α → List (List α) × List α
  | 0, w => ([], w)
  | fuel + 1, w =>
    match C.find w with
    | none => ([], w)
    | some (p, _, r) => (p :: (cut fuel r).1, (cut fuel r).2)

def pieces (w : List α) : List (List α) := (C.cut w.length w).1

def rest (w : List α) : List α := (C.cut w.length w).2

variable {C} {w p s r : List α}

theorem length_lt_of_find (h : C.find w = some (p, s, r)) : r.length < w.length := by
  have hpos := length_pos_iff.mpr (C.sep_ne_nil h)
  rw [C.eq_of_find h, length_append, length_append]
  omega

theorem find_nil : C.find [] = none := by
  cases h : C.find [] with
  | none => rfl
  | some t => exact absurd (@length_lt_of_find _ C [] t.1 t.2.1 t.2.2 h) (Nat.not_lt_zero _)

theorem cut_none (fuel : Nat) (h : C.find w = none) : C.cut fuel w = ([], w) := by
  cases fuel with
  | zero => rfl
  | succ fuel => simp only [cut, h]

/-- Every cut uses up at least one element, so the length is fuel enough. -/
theorem cut_eq {f g : Nat} (hf : w.length ≤ f) (hg : w.length ≤ g) : C.cut f w = C.cut g w := by
  induction f generalizing g w with
  | zero =>
    have hw : w = [] := eq_nil_of_length_eq_zero (by omega)
    rw [hw, cut_none 0 find_nil, cut_none g find_nil]
  | succ f ih =>
    cases h : C.find w with
    | none => rw [cut_none _ h, cut_none _ h]
    | some t =>
      obtain ⟨p, s, r⟩ := t
      have hlt := length_lt_of_find h
      obtain ⟨g, rfl⟩ : ∃ k, g = k + 1 := ⟨g - 1, by omega⟩
      simp only [cut, h]
      rw [@ih r g (by omega) (by omega)]

theorem pieces_none (h : C.find w = none) : C.pieces w = [] := by
  rw [pieces, cut_none _ h]

theorem rest_none (h : C.find w = none) : C.rest w = w := by
  rw [rest, cut_none _ h]

theorem cut_some (h : C.find w = some (p, s, r)) :
    C.cut w.length w = (p :: C.pieces r, C.rest r) := by
  have hlt := length_lt_of_find h
  obtain ⟨f, hf⟩ : ∃ f, w.length = f + 1 := ⟨w.length - 1, by omega⟩
  rw [hf]
  simp only [cut, h]
  rw [cut_eq (show r.length ≤ f by omega) (le_refl _)]
  rfl

theorem pieces_some (h : C.find w = some (p, s, r)) : C.pieces w = p :: C.pieces r := by
  rw [pieces, cut_some h]

theorem rest_some (h : C.find w = some (p, s, r)) : C.rest w = C.rest r := by
  rw [rest, cut_some h]

theorem cut_induction {P : List α → Prop} (hnone : ∀ w, C.find w = none → P w)
    (hsome : ∀ p s r, C.find (p ++ s ++ r) = some (p, s, r) → P r → P (p ++ s ++ r))
    (w : List α) : P w := by
  induction hl : w.length using Nat.strong_induction_on generalizing w with
  | _ l ih =>
    cases h : C.find w with
    | none => exact hnone w h
    | some t =>
      obtain ⟨p, s, r⟩ := t
      have hlt := length_lt_of_find h
      obtain rfl := C.eq_of_find h
      exact hsome p s r h (ih r.length (by omega) r rfl)

theorem find_rest (w : List α) : C.find (C.rest w) = none := by
  induction w using cut_induction (C := C) with
  | hnone w h => rw [rest_none h, h]
  | hsome p s r h ih => rw [rest_some h, ih]

theorem rest_suffix (w : List α) : C.rest w <:+ w := by
  induction w using cut_induction (C := C) with
  | hnone w h => rw [rest_none h]
  | hsome p s r h ih =>
    rw [rest_some h]
    exact ih.trans (suffix_append _ r)

/-- A frame is cut off the front of some end of the buffer. -/
theorem exists_of_mem_pieces (hp : p ∈ C.pieces w) :
    ∃ s r, p ++ s ++ r <:+ w ∧ C.find (p ++ s ++ r) = some (p, s, r) := by
  induction w using cut_induction (C := C) with
  | hnone w h =>
    rw [pieces_none h] at hp
    cases hp
  | hsome q s r h ih =>
    rw [pieces_some h] at hp
    rcases mem_cons.mp hp with rfl | hp
    · exact ⟨s, r, suffix_refl _, h⟩
    · obtain ⟨s', r', hsuffix, hfind⟩ := ih hp
      exact ⟨s', r', hsuffix.trans (suffix_append _ r), hfind⟩

theorem late_ne_nil (h : C.late s) : s ≠ [] := by
  rintro rfl
  exact C.late_found [] h find_nil

theorem rest_late (a : List α) (h : C.late s) : ∀ x ∈ C.rest (a ++ s), C.blank x := by
  have hsuffix : C.rest (a ++ s) <:+ a ++ s := rest_suffix _
  rcases suffix_or_suffix_of_suffix hsuffix (suffix_append a s) with hs | ⟨t, ht⟩
  · exact fun x hx => C.blank_of_late h x (hs.subset hx)
  · have hfound := C.late_found t h
    rw [ht] at hfound
    exact absurd (find_rest _) hfound

end Cutter

/-- What a frame is read as: its fields, and the value made of them. A frame without fields is
read as nothing. -/
structure Reading (C : Cutter α) (φ β : Type) where
  fields : List α → List φ
  value : List φ → β
  fields_nil : fields [] = []
  fields_split : ∀ {s : List α} a b, s ≠ [] → (∀ x ∈ s, C.blank x) →
    fields (a ++ s ++ b) = fields a ++ fields b

namespace Reading

variable {C : Cutter α} (R : Reading C φ β)

def emit (w : List α) : List β :=
  match R.fields w with
  | [] => []
  | f :: fs => [R.value (f :: fs)]

def frames (w : List α) : List β := (C.pieces w).flatMap R.emit

def feed : List α → List (List α) → List β
  | _, [] => []
  | buf, chunk :: chunks =>
    R.frames (buf ++ chunk) ++ feed (C.rest (buf ++ chunk)) chunks

/-- A frame has fields on both sides of a separator that may be overruled. -/
def Straddles (g : List α) : Prop :=
  ∃ a s b, g = a ++ s ++ b ∧ C.late s ∧ R.fields a ≠ [] ∧ R.fields b ≠ []

def Settled (w : List α) : Prop := ∀ g ∈ C.pieces w, ¬R.Straddles g

variable {R} {e w p s r : List α}

theorem fields_blank_append (w : List α) (he : ∀ x ∈ e, C.blank x) :
    R.fields (e ++ w) = R.fields w := by
  by_cases hnil : e = []
  · rw [hnil, nil_append]
  · have hsplit := R.fields_split [] w hnil he
    rwa [nil_append, R.fields_nil, nil_append] at hsplit

theorem fields_append_blank (w : List α) (he : ∀ x ∈ e, C.blank x) :
    R.fields (w ++ e) = R.fields w := by
  by_cases hnil : e = []
  · rw [hnil, append_nil]
  · have hsplit := R.fields_split w [] hnil he
    rwa [append_nil, R.fields_nil, append_nil] at hsplit

theorem fields_blank (he : ∀ x ∈ e, C.blank x) : R.fields e = [] := by
  rw [← R.fields_nil, ← fields_blank_append [] he, append_nil]

theorem emit_congr {v : List α} (h : R.fields v = R.fields w) : R.emit v = R.emit w := by
  rw [emit, emit, h]

theorem emit_of_fields_nil (h : R.fields w = []) : R.emit w = [] := by
  rw [emit, h]

theorem emit_of_fields_ne_nil (h : R.fields w ≠ []) : R.emit w = [R.value (R.fields w)] := by
  unfold emit
  split
  next hnil => exact absurd hnil h
  next hcons => rw [hcons]

theorem length_emit (h : R.fields w ≠ []) : (R.emit w).length = 1 := by
  rw [emit_of_fields_ne_nil h, length_singleton]

/-- Two parts of a frame, at most one of them with fields, are read as the frame is. -/
theorem emit_append {a b : List α} (hs : C.late s) (h : ¬R.Straddles (a ++ s ++ b)) :
    R.emit (a ++ s ++ b) = R.emit a ++ R.emit b := by
  have hfields := R.fields_split a b (Cutter.late_ne_nil hs) (C.blank_of_late hs)
  by_cases ha : R.fields a = []
  · rw [ha, nil_append] at hfields
    rw [emit_congr hfields, emit_of_fields_nil ha, nil_append]
  · have hb : R.fields b = [] := by
      by_contra hb
      exact h ⟨a, s, b, rfl, hs, ha, hb⟩
    rw [hb, append_nil] at hfields
    rw [emit_congr hfields, emit_of_fields_nil hb, append_nil]

theorem frames_none (h : C.find w = none) : R.frames w = [] := by
  rw [frames, Cutter.pieces_none h, flatMap_nil]

theorem frames_some (h : C.find w = some (p, s, r)) : R.frames w = R.emit p ++ R.frames r := by
  rw [frames, Cutter.pieces_some h, flatMap_cons, ← frames]

theorem settled_none (h : C.find w = none) : R.Settled w := by
  intro g hg
  rw [Cutter.pieces_none h] at hg
  cases hg

theorem settled_some (h : C.find w = some (p, s, r)) :
    R.Settled w ↔ ¬R.Straddles p ∧ R.Settled r := by
  rw [Settled, Cutter.pieces_some h, forall_mem_cons, ← Settled]

theorem Straddles.append_left {g : List α} (c : List α) (hne : s ≠ []) (hs : ∀ x ∈ s, C.blank x)
    (h : R.Straddles g) : R.Straddles (c ++ s ++ g) := by
  obtain ⟨a, t, b, rfl, hlate, ha, hb⟩ := h
  refine ⟨c ++ s ++ a, t, b, by simp only [append_assoc], hlate, ?_, hb⟩
  rw [R.fields_split c a hne hs]
  exact fun hnil => ha (append_eq_nil_iff.mp hnil).2

theorem not_straddles_blank (he : ∀ x ∈ e, C.blank x) : ¬R.Straddles e := by
  rintro ⟨a, s, b, rfl, -, ha, -⟩
  exact ha (fields_blank fun x hx => he x (mem_append_left _ (mem_append_left _ hx)))

theorem straddles_blank_append (g : List α) (he : ∀ x ∈ e, C.blank x) :
    R.Straddles (e ++ g) ↔ R.Straddles g := by
  constructor
  · rintro ⟨a, s, b, heq, hlate, ha, hb⟩
    rw [append_assoc] at heq
    rcases append_eq_append_iff.mp heq with ⟨t, hat, hgt⟩ | ⟨t, het, -⟩
    · refine ⟨t, s, b, by rw [hgt, append_assoc], hlate, ?_, hb⟩
      rwa [hat, fields_blank_append t he] at ha
    · refine absurd (fields_blank (R := R) fun x hx => he x ?_) ha
      rw [het]
      exact mem_append_left _ hx
  · intro h
    by_cases hnil : e = []
    · rwa [hnil, nil_append]
    · exact h.append_left [] hnil he

/-- **Blank elements in front of the stream change nothing.** -/
theorem blank_append (e w : List α) (he : ∀ x ∈ e, C.blank x) :
    R.frames (e ++ w) = R.frames w ∧ (R.Settled (e ++ w) ↔ R.Settled w) := by
  induction hl : (e ++ w).length using Nat.strong_induction_on generalizing e w with
  | _ l ih =>
    rcases eq_or_ne e [] with rfl | hne
    · exact ⟨rfl, Iff.rfl⟩
    cases h : C.find (e ++ w) with
    | none =>
      have hw : C.find w = none := C.find_none h (suffix_append e w).isInfix
      exact ⟨by rw [frames_none h, frames_none hw], iff_of_true (settled_none h) (settled_none hw)⟩
    | some t =>
      obtain ⟨p, s, r⟩ := t
      have hlt := Cutter.length_lt_of_find h
      have heq := C.eq_of_find h
      rw [append_assoc] at heq
      rcases append_eq_append_iff.mp heq with ⟨q, rfl, rfl⟩ | ⟨q, rfl, hrest⟩
      · -- The frame found begins before `w` and ends in it.
        have hw : C.find (q ++ (s ++ r)) = some (q, s, r) := by
          rw [← append_assoc]
          exact C.find_drop (by simpa only [append_assoc] using h)
        rw [frames_some h, frames_some hw, settled_some h, settled_some hw,
          emit_congr (fields_blank_append q he), straddles_blank_append q he]
        exact ⟨rfl, Iff.rfl⟩
      · -- The frame found is blank.
        have hp : ∀ x ∈ p, C.blank x := fun x hx => he x (mem_append_left _ hx)
        rw [frames_some h, settled_some h, emit_of_fields_nil (fields_blank hp), nil_append,
          and_iff_right (not_straddles_blank hp)]
        rcases append_eq_append_iff.mp hrest with ⟨t, rfl, rfl⟩ | ⟨t, rfl, rfl⟩
        · exact ih (t ++ w).length (by omega) t w
            (fun x hx => he x (mem_append_right _ (mem_append_right _ hx))) rfl
        · -- What its separator takes of `w` is blank too.
          have hpos := length_pos_iff.mpr hne
          have hr := ih (t ++ r).length (by rw [← hl, @length_append _ (p ++ q)]; omega) t r
            (fun x hx => C.blank_of_find h x (mem_append_right _ hx)) rfl
          exact ⟨hr.1.symm, hr.2.symm⟩

/-- A separator that a longer buffer overrules stands inside the frame found there, or its end is a
part of the separator found there. -/
theorem cut_at_late {t y p' s' r' : List α} (hw : C.find (p' ++ s' ++ r') = some (p', s', r'))
    (hp : p' = p ++ t) (hy : s ++ y = t ++ s') (hlate : C.late s)
    (hs : R.Settled (p' ++ s' ++ r')) :
    R.frames (p' ++ s' ++ r') = R.emit p ++ R.frames (y ++ r') ∧ R.Settled (y ++ r') := by
  subst hp
  rw [settled_some hw] at hs
  rw [frames_some hw]
  rcases append_eq_append_iff.mp hy with ⟨q, rfl, rfl⟩ | ⟨q, rfl, rfl⟩
  · have hnext : C.find (q ++ s' ++ r') = some (q, s', r') :=
      @Cutter.find_drop _ C (p ++ s) q s' r' (by simpa only [append_assoc] using hw)
    rw [← append_assoc] at hs ⊢
    rw [frames_some hnext, settled_some hnext, emit_append hlate hs.1, append_assoc]
    exact ⟨rfl, fun hst => hs.1 (hst.append_left p (Cutter.late_ne_nil hlate)
      (C.blank_of_late hlate)), hs.2⟩
  · have hemit : R.emit (p ++ t) = R.emit p := emit_congr (fields_append_blank p fun x hx =>
      C.blank_of_late hlate x (mem_append_left _ hx))
    have hrest := blank_append (R := R) y r' fun x hx =>
      C.blank_of_find hw x (mem_append_right _ hx)
    rw [hemit, hrest.1, hrest.2]
    exact ⟨rfl, hs.2⟩

/-- **A settled stream may be cut anywhere.** -/
theorem frames_append (u v : List α) (hs : R.Settled (u ++ v)) :
    R.frames (u ++ v) = R.frames u ++ R.frames (C.rest u ++ v) ∧ R.Settled (C.rest u ++ v) := by
  induction u using Cutter.cut_induction (C := C) with
  | hnone u h => rw [frames_none h, Cutter.rest_none h, nil_append]; exact ⟨rfl, hs⟩
  | hsome p s r h ih =>
    rw [frames_some h, Cutter.rest_some h, append_assoc (R.emit p)]
    -- It is enough to take the first cut off the whole.
    suffices hfirst : R.frames (p ++ s ++ r ++ v) = R.emit p ++ R.frames (r ++ v) ∧
        R.Settled (r ++ v) by
      obtain ⟨hframes, hsettled⟩ := ih hfirst.2
      exact ⟨by rw [hfirst.1, hframes], hsettled⟩
    cases hw : C.find (p ++ s ++ r ++ v) with
    | none =>
      rw [C.find_none hw (prefix_append _ v).isInfix] at h
      cases h
    | some t =>
      obtain ⟨p', s', r'⟩ := t
      rcases C.overruled h hw with heq | ⟨hlt, hlate⟩
      · cases heq
        exact ⟨frames_some hw, ((settled_some hw).mp hs).2⟩
      · have heq := C.eq_of_find hw
        rcases append_eq_append_iff.mp heq with ⟨z, hz, rfl⟩ | ⟨z, hz, rfl⟩
        · obtain ⟨t, rfl⟩ : p <+: p' :=
            prefix_of_prefix_length_le ⟨s ++ r ++ z, by rw [hz]; simp⟩ (prefix_append p' s')
              hlt.le
          have hy : s ++ (r ++ z) = t ++ s' := by simpa using hz.symm
          rw [heq] at hw hs ⊢
          rw [← append_assoc r z r']
          exact cut_at_late hw rfl hy hlate hs
        · -- Were the separator found in the whole already in the front, it would be found there.
          rw [hz] at hw h
          rw [C.find_take hw] at h
          cases h
          exact absurd hlt (lt_irrefl _)

/-- **However a settled stream arrives, its frames are those of the whole.** -/
theorem feed_eq (buf : List α) (chunks : List (List α)) (hbuf : C.find buf = none)
    (hs : R.Settled (buf ++ chunks.flatten)) :
    R.feed buf chunks = R.frames (buf ++ chunks.flatten) := by
  induction chunks generalizing buf with
  | nil => rw [feed, flatten_nil, append_nil, frames_none hbuf]
  | cons chunk chunks ih =>
    rw [flatten_cons, ← append_assoc] at hs ⊢
    obtain ⟨hframes, hrest⟩ := frames_append (buf ++ chunk) chunks.flatten hs
    rw [feed, ih _ (Cutter.find_rest _) hrest, hframes]

theorem fields_eq (w : List α) :
    R.fields w = (C.pieces w).flatMap R.fields ++ R.fields (C.rest w) := by
  induction w using Cutter.cut_induction (C := C) with
  | hnone w h => rw [Cutter.pieces_none h, Cutter.rest_none h, flatMap_nil, nil_append]
  | hsome p s r h ih =>
    rw [R.fields_split p r (C.sep_ne_nil h) (C.blank_of_find h), ih, Cutter.pieces_some h,
      Cutter.rest_some h, flatMap_cons, append_assoc]

/-- A buffer with fields before its last separator is read as something. -/
theorem frames_late_ne_nil {a : List α} (hs : C.late s) (ha : R.fields a ≠ []) :
    R.frames (a ++ s) ≠ [] := by
  have hfields := fields_eq (R := R) (a ++ s)
  rw [fields_append_blank a (C.blank_of_late hs), fields_blank (Cutter.rest_late a hs),
    append_nil] at hfields
  intro hnil
  refine ha (hfields.trans (flatMap_eq_nil_iff.mpr fun g hg => ?_))
  by_contra hg'
  have hlen := length_emit hg'
  rw [flatMap_eq_nil_iff.mp hnil g hg] at hlen
  cases hlen

/-- A stream that is not settled has a place where cutting it in two gives more frames. -/
theorem exists_more_frames (w : List α) (hs : ¬R.Settled w) :
    ∃ u v, u ++ v = w ∧
      (R.frames w).length < (R.frames u ++ R.frames (C.rest u ++ v)).length := by
  induction w using Cutter.cut_induction (C := C) with
  | hnone w h => exact absurd (settled_none h) hs
  | hsome p s r h ih =>
    by_cases hst : R.Straddles p
    · -- The place is right after the separator inside the frame.
      obtain ⟨a, t, b, rfl, hlate, ha, hb⟩ := hst
      obtain ⟨c, hc⟩ := Cutter.rest_suffix (C := C) (a ++ t)
      have hnext : C.find (C.rest (a ++ t) ++ b ++ s ++ r) = some (C.rest (a ++ t) ++ b, s, r) := by
        refine @Cutter.find_drop _ C c _ s r ?_
        rw [← append_assoc c, hc]
        exact h
      have hfirst := length_pos_iff.mpr (frames_late_ne_nil hlate ha)
      have hsecond : (R.emit (C.rest (a ++ t) ++ b)).length = 1 :=
        length_emit (by rwa [fields_blank_append b (Cutter.rest_late a hlate)])
      have hwhole : R.fields (a ++ t ++ b) ≠ [] := by
        rw [R.fields_split a b (Cutter.late_ne_nil hlate) (C.blank_of_late hlate)]
        exact fun hnil => ha (append_eq_nil_iff.mp hnil).1
      refine ⟨a ++ t, b ++ s ++ r, by simp only [append_assoc], ?_⟩
      rw [← append_assoc, ← append_assoc, frames_some hnext, frames_some h]
      simp only [length_append, length_emit hwhole, hsecond]
      omega
    · obtain ⟨u, v, rfl, hlt⟩ := ih fun hr => hs ((settled_some h).mpr ⟨hst, hr⟩)
      rw [← append_assoc] at h ⊢
      have hfind := C.find_take h
      refine ⟨p ++ s ++ u, v, rfl, ?_⟩
      rw [frames_some h, frames_some hfind, Cutter.rest_some hfind]
      simp only [length_append] at hlt ⊢
      omega

/-- **The frames of a stream do not depend on how it arrives exactly when it is settled.** -/
theorem feed_eq_iff (w : List α) :
    (∀ c₁ c₂ : List (List α), c₁.flatten = w → c₂.flatten = w → R.feed [] c₁ = R.feed [] c₂) ↔
      R.Settled w := by
  constructor
  · intro h
    by_contra hs
    obtain ⟨u, v, huv, hlt⟩ := exists_more_frames w hs
    have hsame := h [w] [u, v] (append_nil w) (by rw [← huv]; simp)
    simp only [feed, nil_append, append_nil] at hsame
    rw [hsame] at hlt
    exact absurd hlt (lt_irrefl _)
  · intro hs c₁ c₂ h₁ h₂
    rw [feed_eq [] c₁ Cutter.find_nil (by rwa [nil_append, h₁]),
      feed_eq [] c₂ Cutter.find_nil (by rwa [nil_append, h₂]), h₁, h₂]

end Reading

end Lib
