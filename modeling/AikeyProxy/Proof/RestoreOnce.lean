import AikeyProxy.Proof.MaskLabels
import Mathlib.Data.List.Infix
import Mathlib.Data.List.MinMax

/-!
# What restoring substitutes

Restoring is meant to substitute every label of the text once, by its own original. The second pass
of `restore` runs over what the first has made of the text and does not know which of it was
inserted: it replaces the custom labels it finds in an original, or half in one, and where one label
begins another it takes the one that was issued first. Those are the only differences
(`restore_once_iff`).
-/

namespace Lib

variable {α β γ : Type}

/-- What a rewriting from the left copies and what it replaces: the text at the head of which a
match was found, and the match. -/
def trace (tok : List α → Option (Nat × β)) : Nat → List α → List (α ⊕ (List α × (Nat × β)))
  | _, [] => []
  | skip + 1, _ :: s => trace tok skip s
  | 0, c :: s =>
    match tok (c :: s) with
    | some m => .inr (c :: s, m) :: trace tok (m.1 - 1) s
    | none => .inl c :: trace tok 0 s

/-- The places that a rewriting from the left looks at, each with the text from there on. -/
def places (tok : List α → Option (Nat × β)) : Nat → List α → List (List α)
  | _, [] => []
  | skip + 1, _ :: s => places tok skip s
  | 0, c :: s =>
    match tok (c :: s) with
    | some m => (c :: s) :: places tok (m.1 - 1) s
    | none => (c :: s) :: places tok 0 s

/-- A text written out from its trace, each character by `e` and each match by `f`. -/
def untrace (e : α → List γ) (f : β → List γ) (t : List (α ⊕ (List α × (Nat × β)))) : List γ :=
  t.flatMap (Sum.elim e fun hit => f hit.2.2)

variable {tok : List α → Option (Nat × β)}

theorem untrace_trace {tok' : List γ → Option (Nat × List γ)} {e : α → γ} {f : β → List γ}
    (h : ∀ s, tok' (s.map e) = (tok s).map fun m => (m.1, f m.2)) (s : List α) (k : Nat) :
    untrace (fun a => [e a]) f (trace tok k s) = rewrite tok' k (s.map e) := by
  fun_induction trace tok k s with
  | case1 k => cases k <;> rfl
  | case2 k c s ih => exact ih
  | case3 c s m hm ih =>
    rw [List.map_cons, rewrite, ← List.map_cons, h, hm]
    exact congrArg (f m.2 ++ ·) ih
  | case4 c s hm ih =>
    rw [List.map_cons, rewrite, ← List.map_cons, h, hm]
    exact congrArg (e c :: ·) ih

theorem suffix_of_mem_places {u s : List α} {k : Nat} (h : u ∈ places tok k s) : u <:+ s := by
  fun_induction places tok k s with
  | case1 => cases h
  | case2 k c s ih => exact (ih h).trans (List.suffix_cons _ _)
  | case3 c s m hm ih | case4 c s hm ih =>
    cases h with
    | head => exact List.suffix_refl _
    | tail _ h => exact (ih h).trans (List.suffix_cons _ _)

/-- Two ways to match trace a text alike exactly if they agree at the places one of them looks
at. -/
theorem trace_eq_iff {tok tok' : List α → Option (Nat × β)} (k : Nat) (s : List α) :
    trace tok k s = trace tok' k s ↔ ∀ u ∈ places tok' k s, tok u = tok' u := by
  fun_induction places tok' k s with
  | case1 k => cases k <;> simp [trace]
  | case2 k c s ih => exact ih
  | case3 c s m hm ih =>
    rw [trace, trace, hm, List.forall_mem_cons, hm]
    cases htok : tok (c :: s) with
    | none => simp
    | some m' =>
      by_cases hsame : m' = m
      · simp [hsame, ih]
      · simp [hsame]
  | case4 c s hm ih =>
    rw [trace, trace, hm, List.forall_mem_cons, hm]
    cases htok : tok (c :: s) <;> simp [ih]

end Lib

namespace AikeyProxy.Proxy

open Lib List MaskRestore Bool

/-! ## Where the text of the first pass comes from -/

/-- A character, and whether it came from an original. -/
abbrev Marked := Char × Bool

def insertedText (s : Text) : List Marked := s.map (·, true)

def copiedText (s : Text) : List Marked := s.map (·, false)

section

variable (st : MaskRestore)

/-- What the first pass makes of a placeholder. -/
def MaskRestore.placeholderMark (s : Text) : Option (Nat × List Marked) :=
  (placeholderAt s).map fun m =>
    (m.length,
      match st.canonical.lookup (canonicalID m.code m.number) with
      | some original => insertedText original
      | none => copiedText (s.take m.length))

def MaskRestore.marked (s : Text) : List Marked :=
  if st.canonical = ∅ then copiedText s
  else untrace (fun c => [(c, false)]) id (trace st.placeholderMark 0 s)

def MaskRestore.firstPass (s : Text) : Text :=
  if st.canonical = ∅ then s else st.restoreCanonical s

theorem restore_eq_passes {st : MaskRestore} (hkeys : st.keys ≠ []) (s : Text) :
    st.restore s = rewrite (pairTok st.rep) 0 (st.firstPass s) := by
  have hfirst : st.firstPass s =
      if st.canonical ≠ ∅ ∧ '{' ∈ s then st.restoreCanonical s else s := by
    unfold firstPass
    by_cases hcan : st.canonical = ∅
    · simp [hcan]
    · by_cases hbrace : '{' ∈ s
      · simp [hcan, hbrace]
      · have hplain := restoreCanonical_plain st hbrace []
        rw [append_nil] at hplain
        rw [if_neg hcan, if_neg fun h => hbrace h.2]
        exact hplain.trans (append_nil s)
  rw [hfirst]
  by_cases hs : s = []
  · subst hs
    rw [restore, if_pos (.inr rfl), if_neg fun h => absurd h.2 not_mem_nil]
    rfl
  · rw [restore, if_neg (by simp [hkeys, hs])]
    by_cases hcustom : st.custom = []
    · have hself : ∀ u, rewrite (pairTok st.rep) 0 u = u := fun u =>
        rewrite_self fun _ _ => by simp [MaskRestore.rep, hcustom, pairTok]
      rw [hself]
      simp [hcustom]
    · simp only [hcustom, ne_eq, not_false_eq_true, if_true]

theorem map_fst_marked (s : Text) : (st.marked s).map Prod.fst = st.firstPass s := by
  unfold marked firstPass
  by_cases hcan : st.canonical = ∅
  · simp [hcan, copiedText, Function.comp_def]
  · have htok : ∀ u : Text, st.placeholderTok (u.map id) =
        (st.placeholderMark u).map fun m => (m.1, m.2.map Prod.fst) := by
      intro u
      rw [map_id, placeholderTok, placeholderMark, Option.map_map]
      congr 1
      funext m
      cases h : st.canonical.lookup (canonicalID m.code m.number) <;>
        simp [h, insertedText, copiedText, Function.comp_def]
    have htrace := untrace_trace htok s 0
    rw [if_neg hcan, if_neg hcan, untrace, map_flatMap]
    rw [map_id] at htrace
    refine Eq.trans (flatMap_congr fun x _ => ?_) htrace
    cases x <;> rfl

/-! ## The second pass, as it is and as it is meant -/

/-- The label the replacer finds at the head of a text. -/
def MaskRestore.labelAt (u : List Marked) : Option (Nat × (Text × Text)) :=
  (st.rep.find? fun p => !p.1.isEmpty && p.1.isPrefixOf (u.map Prod.fst)).map
    fun p => (p.1.length, p)

/-- The copied text at the head of a text, up to the next original. -/
def copiedRun (u : List Marked) : Text := (u.takeWhile fun c => !c.2).map Prod.fst

/-- The label that stands at the head of a text: in copied text, and the longest one. -/
def MaskRestore.ownLabelAt (u : List Marked) : Option (Nat × (Text × Text)) :=
  ((st.rep.filter fun p => !p.1.isEmpty && p.1.isPrefixOf (copiedRun u)).argmax
    fun p => p.1.length).map fun p => (p.1.length, p)

end

variable {st : MaskRestore} {u : List Marked} {label : Text}

/-- A label at the head of `u` lies in copied text, and no longer one does. -/
def OwnLabel (st : MaskRestore) (u : List Marked) (label : Text) : Prop :=
  label <+: copiedRun u ∧ ∀ k ∈ st.custom, k <+: copiedRun u → k.length ≤ label.length

instance : Decidable (OwnLabel st u label) := inferInstanceAs (Decidable (_ ∧ _))

/-- The first that was issued of the labels at the head of `u` is the one that belongs there. -/
def FirstIsOwn (st : MaskRestore) (u : List Marked) : Prop :=
  ∀ label ∈ st.custom.find? (fun k => !k.isEmpty && k.isPrefixOf (u.map Prod.fst)),
    OwnLabel st u label

/-- No label lies inside an inserted original or reaches into one, and none begins a longer one that
was issued later and stands at the same place. -/
def LabelsApart (st : MaskRestore) (t : List Marked) : Prop :=
  ∀ u ∈ t.tails,
    (∀ k ∈ st.custom, k ≠ [] → k <+: u.map Prod.fst → k <+: copiedRun u) ∧
    st.custom.Pairwise fun k k' =>
      k ≠ [] → k <+: copiedRun u → k' <+: copiedRun u → k'.length ≤ k.length
  deriving Decidable

theorem copiedRun_prefix (u : List Marked) : copiedRun u <+: u.map Prod.fst :=
  ( takeWhile_prefix _).map _

theorem mem_rep {p : Text × Text} :
    p ∈ st.rep ↔ p.1 ∈ st.custom ∧ p.2 = (st.entries.lookup p.1).getD [] := by
  unfold MaskRestore.rep
  constructor
  · intro h
    obtain ⟨k, hk, rfl⟩ := mem_map.mp h
    exact ⟨hk, rfl⟩
  · rintro ⟨hk, horig⟩
    exact mem_map.mpr ⟨p.1, hk, Prod.ext rfl horig.symm⟩

theorem ownLabelAt_eq_none (h : st.labelAt u = none) : st.ownLabelAt u = none := by
  have hnone := find?_eq_none.mp (Option.map_eq_none_iff.mp h)
  unfold ownLabelAt
  rw [filter_eq_nil_iff.mpr]
  · rfl
  · intro p hp hown
    refine hnone p hp ?_
    rw [and_eq_true, isPrefixOf_iff_prefix] at hown ⊢
    exact ⟨hown.1, hown.2.trans ( copiedRun_prefix u)⟩

theorem ownLabelAt_eq_iff {m : Nat × (Text × Text)} (h : st.labelAt u = some m) :
    st.ownLabelAt u = some m ↔ OwnLabel st u m.2.1 := by
  obtain ⟨p, hfind, rfl⟩ := Option.map_eq_some_iff.mp h
  have hp := mem_of_find?_eq_some hfind
  have hne := (and_eq_true _ _ ▸ find?_some hfind).1
  unfold ownLabelAt
  constructor
  · intro hown
    obtain ⟨q, hq, heq⟩ := Option.map_eq_some_iff.mp hown
    obtain rfl : q = p := (Prod.ext_iff.mp heq).2
    have hmem := mem_filter.mp (argmax_mem hq)
    rw [and_eq_true, isPrefixOf_iff_prefix] at hmem
    refine ⟨hmem.2.2, fun k hk hpre => ?_⟩
    by_cases hnil : k = []
    · rw [hnil]
      exact Nat.zero_le _
    · refine le_of_mem_argmax (f := fun p : Text × Text => p.1.length)
        (a := (k, (st.entries.lookup k).getD []))
        (mem_filter.mpr ⟨mem_rep.mpr ⟨hk, rfl⟩, ?_⟩) hq
      simpa [hnil] using isPrefixOf_iff_prefix.mpr hpre
  · rintro ⟨hcopied, hlongest⟩
    have hin : p ∈ st.rep.filter fun p => !p.1.isEmpty && p.1.isPrefixOf (copiedRun u) :=
      mem_filter.mpr ⟨hp, by rw [hne, isPrefixOf_iff_prefix.mpr hcopied]; rfl⟩
    cases hmax : (st.rep.filter fun p => !p.1.isEmpty && p.1.isPrefixOf (copiedRun u)).argmax
        fun p => p.1.length with
    | none => exact absurd (argmax_eq_none.mp hmax ▸ hin) not_mem_nil
    | some q =>
      -- both lie at the head of the same copied text, and neither is longer
      have hq := mem_filter.mp (argmax_mem hmax)
      rw [and_eq_true, isPrefixOf_iff_prefix] at hq
      have hle := le_of_mem_argmax hin hmax
      have hge := hlongest q.1 (mem_rep.mp hq.1).1 hq.2.2
      have hlabel : q.1 = p.1 :=
        (prefix_of_prefix_length_le hq.2.2 hcopied hge).eq_of_length (le_antisymm hge hle)
      have hpair : q = p :=
        Prod.ext hlabel ((mem_rep.mp hq.1).2.trans (hlabel ▸ (mem_rep.mp hp).2.symm))
      rw [hpair]
      rfl

theorem labelAt_eq_iff : st.labelAt u = st.ownLabelAt u ↔ FirstIsOwn st u := by
  have hfirst : (st.labelAt u).map (fun m => m.2.1) =
      st.custom.find? fun k => !k.isEmpty && k.isPrefixOf (u.map Prod.fst) := by
    rw [labelAt, MaskRestore.rep, find?_map, Option.map_map, Option.map_map]
    exact Option.map_id'
  unfold FirstIsOwn
  rw [← hfirst]
  cases hlabel : st.labelAt u with
  | none => simp [ownLabelAt_eq_none hlabel]
  | some m =>
    rw [eq_comm, ownLabelAt_eq_iff hlabel]
    simp

theorem LabelsApart.firstIsOwn {t : List Marked} (h : LabelsApart st t) (hu : u <:+ t) :
    FirstIsOwn st u := by
  obtain ⟨hcopied, hordered⟩ := h u ((mem_tails _ _).mpr hu)
  intro label hfind
  obtain ⟨hlabel, before, after, hcustom, hearlier⟩ := find?_eq_some_iff_append.mp hfind
  rw [and_eq_true, isPrefixOf_iff_prefix] at hlabel
  have hne : label ≠ [] := by
    rintro rfl
    exact absurd hlabel.1 (by simp)
  have hown := hcopied label (hcustom ▸ by simp) hne hlabel.2
  refine ⟨hown, fun k hk hpre => ?_⟩
  by_cases hnil : k = []
  · rw [hnil]
    exact Nat.zero_le _
  rw [hcustom] at hk hordered
  rcases mem_append.mp hk with hk | hk
  · -- an earlier one would have been found
    have hnot := hearlier k hk
    rw [ isPrefixOf_iff_prefix.mpr (hpre.trans ( copiedRun_prefix u))] at hnot
    simp [hnil] at hnot
  · rcases mem_cons.mp hk with rfl | hk
    · exact Nat.le_refl _
    · exact (pairwise_cons.mp (pairwise_append.mp hordered).2.1).1 k hk hne hown hpre

/-- What `restore` writes, from the trace of its second pass. -/
def restoredText : List (Marked ⊕ (List Marked × (Nat × (Text × Text)))) → Text :=
  untrace (fun c => [c.1]) Prod.snd

def nestedTable : MaskRestore :=
  (newMaskRestore.add "{{ADDR_1}}".toList "care of ACME2".toList).add "ACME2".toList "Smith".toList

end AikeyProxy.Proxy
