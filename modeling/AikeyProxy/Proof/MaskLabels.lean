import AikeyProxy.Lib.Json
import AikeyProxy.Proxy.MaskRestore

/-!
# The labels of the shipped shape

A code `CODE` has the token `{{CODE}}` and, with a number, the label `{{CODE_N}}`. With numbers of
at most nine digits the tolerant pattern reads such a label back exactly, and no two labels share an
id. So every label in the table of a request resolves to the text it was issued for (`Issued`).
-/

namespace AikeyProxy.Proxy

open Lib List MaskRestore

def isCode : Text → Bool
  | [] => false
  | c :: cs => c.isAlpha && cs.all Char.isAlphanum

def tokenOf (code : Text) : Text := '{' :: '{' :: (code ++ ['}', '}'])

def labelOpening (code : Text) : Text := '{' :: '{' :: (code ++ ['_'])

def labelOf (code : Text) (n : Nat) : Text :=
  labelOpening code ++ Nat.toDigits 10 n ++ ['}', '}']

variable {code : Text} {c : Char} {n : Nat} {st : MaskRestore}

theorem isCode_cons (h : isCode code = true) :
    ∃ c cs, code = c :: cs ∧ c.isAlpha = true ∧ ∀ x ∈ cs, x.isAlphanum = true := by
  cases code with
  | nil => cases h
  | cons c cs =>
    rw [isCode, Bool.and_eq_true, all_eq_true] at h
    exact ⟨c, cs, rfl, h.1, h.2⟩

theorem alphanum_apart (h : c.isAlphanum = true) :
    c ≠ '{' ∧ c ≠ '}' ∧ c ≠ '_' ∧ isGap c = false ∧ isOpenQuote c = false := by
  refine ⟨?_, ?_, ?_, ?_, ?_⟩
  · rintro rfl
    exact absurd h (by decide)
  · rintro rfl
    exact absurd h (by decide)
  · rintro rfl
    exact absurd h (by decide)
  · rw [isGap, Bool.or_eq_false_iff, beq_eq_false_iff_ne, beq_eq_false_iff_ne]
    constructor <;> (rintro rfl; exact absurd h (by decide))
  · simp only [isOpenQuote, Bool.or_eq_false_iff, beq_eq_false_iff_ne]
    refine ⟨⟨⟨⟨?_, ?_⟩, ?_⟩, ?_⟩, ?_⟩ <;> (rintro rfl; exact absurd h (by decide))

theorem isAlphanum_of_isAlpha (h : c.isAlpha = true) : c.isAlphanum = true := by
  rw [Char.isAlphanum, h, Bool.true_or]

theorem isAlphanum_of_isCode (h : isCode code = true) : ∀ c ∈ code, c.isAlphanum = true := by
  obtain ⟨c, cs, rfl, hc, hcs⟩ := isCode_cons h
  intro x hx
  rcases mem_cons.mp hx with rfl | hx
  · exact isAlphanum_of_isAlpha hc
  · exact hcs x hx

theorem toDigits_cons (n : Nat) :
    ∃ d ds, Nat.toDigits 10 n = d :: ds ∧ ∀ x ∈ d :: ds, x.isDigit = true := by
  cases hd : Nat.toDigits 10 n with
  | nil => exact absurd hd Nat.toDigits_ne_nil
  | cons d ds =>
    refine ⟨d, ds, rfl, fun x hx => ?_⟩
    rw [← hd] at hx
    exact Json.toDigits_isDigit n x hx

theorem length_toDigits_le (h : n < 10 ^ 9) : (Nat.toDigits 10 n).length ≤ 9 :=
  (Nat.length_toDigits_le_iff (by decide) (by decide)).mpr h

theorem matchSeq_digits {fin : Text → Bool} {es : List (Rep Char)} (h : n < 10 ^ 9)
    (hc : c.isDigit = false) {s : Text} {pieces : List Text} {rest : Text}
    (hm : matchSeq fin es (c :: s) = some (pieces, rest)) :
    matchSeq fin (.within Char.isDigit 1 9 :: es) (Nat.toDigits 10 n ++ c :: s) =
      some (Nat.toDigits 10 n :: pieces, rest) := by
  have hlen := length_toDigits_le h
  refine matchSeq_cons (Json.toDigits_isDigit n) ?_ ?_ hm
  · exact length_pos_iff.mpr Nat.toDigits_ne_nil
  · rcases Nat.lt_or_eq_of_le hlen with hlt | heq
    · exact .inr ⟨decide_eq_true hlt, by simpa [Rep.within] using hc⟩
    · exact .inl (congrArg some heq.symm)

theorem placeholderAt_label (hcode : isCode code = true) (hn : n < 10 ^ 9) (s : Text) :
    placeholderAt (labelOf code n ++ s) =
      some ⟨code, Nat.toDigits 10 n, (labelOf code n).length⟩ := by
  obtain ⟨c, cs, rfl, hc, hcs⟩ := isCode_cons hcode
  obtain ⟨hbrace, -, -, hgap, hquote⟩ := alphanum_apart (isAlphanum_of_isAlpha hc)
  obtain ⟨d, ds, hds, hdig⟩ := toDigits_cons n
  have hdgap : isGap d = false :=
    (alphanum_apart (by rw [Char.isAlphanum, hdig d mem_cons_self, Bool.or_true])).2.2.2.1
  -- from the number on
  have hnumber : matchSeq (fun _ => true)
      [.within Char.isDigit 1 9, .opt isGap, .opt isCloseQuote, .opt isGap, .opt (· == '}'),
        .one (· == '}')] (Nat.toDigits 10 n ++ '}' :: '}' :: s) =
      some ([Nat.toDigits 10 n, [], [], [], ['}'], ['}']], s) :=
    matchSeq_digits hn (by decide) <|
      matchSeq_opt_skip (by decide) <| matchSeq_opt_skip (by decide) <|
        matchSeq_opt_skip (by decide) <| matchSeq_opt_take (by decide) <|
          matchSeq_one (by decide) rfl
  have hsep : matchSeq (fun _ => true)
      (.opt isGap :: .one (· == '_') :: .opt isGap ::
        [.within Char.isDigit 1 9, .opt isGap, .opt isCloseQuote, .opt isGap, .opt (· == '}'),
          .one (· == '}')]) ('_' :: (Nat.toDigits 10 n ++ '}' :: '}' :: s)) =
      some ([] :: ['_'] :: [] :: [Nat.toDigits 10 n, [], [], [], ['}'], ['}']], s) := by
    refine matchSeq_opt_skip (by decide) (matchSeq_one (by decide) ?_)
    rw [hds] at hnumber ⊢
    exact matchSeq_opt_skip hdgap hnumber
  have hcs' : matchSeq (fun _ => true) (.many Char.isAlphanum :: _) (cs ++ '_' :: _) =
      some (cs :: _, s) :=
    matchSeq_cons hcs (Nat.zero_le _) (.inr ⟨rfl, by simp [Rep.many]⟩) hsep
  have hmatch : matchSeq (fun _ => true) tolerantPlaceholderRe
      ('{' :: '{' :: c :: (cs ++ '_' :: (Nat.toDigits 10 n ++ '}' :: '}' :: s))) =
      some ([['{'], ['{'], [], [], [], [c], cs, [], ['_'], [], Nat.toDigits 10 n,
        [], [], [], ['}'], ['}']], s) :=
    matchSeq_one (by decide) <| matchSeq_opt_take (by decide) <|
      matchSeq_opt_skip hgap <| matchSeq_opt_skip hquote <| matchSeq_opt_skip hgap <|
        matchSeq_one hc hcs'
  have htext : labelOf (c :: cs) n ++ s =
      '{' :: '{' :: c :: (cs ++ '_' :: (Nat.toDigits 10 n ++ '}' :: '}' :: s)) := by
    simp [labelOf, labelOpening]
  rw [placeholderAt, htext, hmatch]
  simp [tolerantGroups, labelOf, labelOpening]
  omega

theorem canonicalLabel?_label (hcode : isCode code = true) (hn : n < 10 ^ 9) :
    canonicalLabel? (labelOf code n) = some (code, Nat.toDigits 10 n) := by
  obtain ⟨c, cs, rfl, hc, hcs⟩ := isCode_cons hcode
  have hnumber : matchSeq List.isEmpty
      [.within Char.isDigit 1 9, .one (· == '}'), .one (· == '}')]
      (Nat.toDigits 10 n ++ ['}', '}']) = some ([Nat.toDigits 10 n, ['}'], ['}']], []) :=
    matchSeq_digits hn (by decide) <| matchSeq_one (by decide) <| matchSeq_one (by decide) rfl
  have hsep : matchSeq List.isEmpty
      [.one (· == '_'), .within Char.isDigit 1 9, .one (· == '}'), .one (· == '}')]
      ('_' :: (Nat.toDigits 10 n ++ ['}', '}'])) =
      some ([['_'], Nat.toDigits 10 n, ['}'], ['}']], []) :=
    matchSeq_one (by decide) hnumber
  have hcs' : matchSeq List.isEmpty (.many Char.isAlphanum :: _) (cs ++ '_' :: _) =
      some (cs :: _, []) :=
    matchSeq_cons hcs (Nat.zero_le _) (.inr ⟨rfl, by simp [Rep.many]⟩) hsep
  have hmatch : matchSeq List.isEmpty canonicalLabelRe
      ('{' :: '{' :: c :: (cs ++ '_' :: (Nat.toDigits 10 n ++ ['}', '}']))) =
      some ([['{'], ['{'], [c], cs, ['_'], Nat.toDigits 10 n, ['}'], ['}']], []) :=
    matchSeq_one (by decide) <| matchSeq_one (by decide) <| matchSeq_one hc hcs'
  have htext : labelOf (c :: cs) n =
      '{' :: '{' :: c :: (cs ++ '_' :: (Nat.toDigits 10 n ++ ['}', '}'])) := by
    simp [labelOf, labelOpening]
  rw [canonicalLabel?, htext, hmatch]
  rfl

/-! ## Ids -/

theorem canonicalID_toDigits (code : Text) (hn : 0 < n) :
    canonicalID code (Nat.toDigits 10 n) = code.map Char.toUpper ++ '_' :: Nat.toDigits 10 n := by
  obtain ⟨d, ds, hds, hzero⟩ := Json.toDigits_head hn
  have hdrop : (Nat.toDigits 10 n).dropWhile (· == '0') = d :: ds := by
    rw [hds, dropWhile_cons_of_neg (by simpa using hzero)]
  rw [canonicalID, hdrop, hds]

theorem eq_of_append_underscore {a a' d d' : Text} (hd : '_' ∉ d) (hd' : '_' ∉ d')
    (h : a ++ '_' :: d = a' ++ '_' :: d') : d = d' := by
  have hback : ∀ a d : Text, '_' ∉ d →
      (a ++ '_' :: d).reverse.takeWhile (· != '_') = d.reverse := by
    intro a d hd
    rw [reverse_append, reverse_cons, append_assoc,
      takeWhile_append_of_pos, singleton_append,
      takeWhile_cons_of_neg (by decide), append_nil]
    intro c hc
    rw [bne_iff_ne]
    rintro rfl
    exact hd (mem_reverse.mp hc)
  have hrev : d.reverse = d'.reverse := by rw [← hback a d hd, h, hback a' d' hd']
  exact reverse_injective hrev

theorem number_eq_of_canonicalID_eq {code' : Text} {n' : Nat} (hn : 0 < n) (hn' : 0 < n')
    (h : canonicalID code (Nat.toDigits 10 n) = canonicalID code' (Nat.toDigits 10 n')) :
    n = n' := by
  rw [canonicalID_toDigits code hn, canonicalID_toDigits code' hn'] at h
  have hds := eq_of_append_underscore Nat.underscore_not_in_toDigits
    Nat.underscore_not_in_toDigits h
  rw [← Nat.ofDigitChars_ten_toDigits (n := n), hds, Nat.ofDigitChars_ten_toDigits]

/-! ## The table of the labels issued so far -/

structure Issue where
  code : Text
  number : Nat
  original : Text

namespace Issue

def label (i : Issue) : Text := labelOf i.code i.number

def id (i : Issue) : Text := canonicalID i.code (Nat.toDigits 10 i.number)

end Issue

/-- Give out the next number of the table, as `renumberRestorables` does. -/
def MaskRestore.issue (st : MaskRestore) (code original : Text) : MaskRestore :=
  { st with nextN := st.nextN + 1 }.add (labelOf code st.nextN) original

/-- `st` is the table after the labels `is`, in this order, all of the shipped shape. -/
structure Issued (st : MaskRestore) (is : List Issue) : Prop where
  next : st.nextN = is.length + 1
  custom : st.custom = []
  keys : st.keys = is.map Issue.label
  coded : ∀ i ∈ is, isCode i.code = true
  numbered : ∀ i ∈ is, 0 < i.number ∧ i.number ≤ is.length
  resolves : ∀ i ∈ is, st.canonical.lookup i.id = some i.original
  longest : ∀ i ∈ is, byteLen i.label ≤ st.maxKeyLen

theorem issued_new : Issued newMaskRestore [] where
  next := rfl
  custom := rfl
  keys := rfl
  coded := fun _ h => absurd h not_mem_nil
  numbered := fun _ h => absurd h not_mem_nil
  resolves := fun _ h => absurd h not_mem_nil
  longest := fun _ h => absurd h not_mem_nil

variable {is : List Issue} {i : Issue}

theorem Issued.issue (h : Issued st is) (hcode : isCode code = true) (original : Text)
    (hroom : is.length + 1 < 10 ^ 9) :
    Issued (st.issue code original) (is ++ [⟨code, st.nextN, original⟩]) := by
  have hnext : st.nextN < 10 ^ 9 := by rw [h.next]; exact hroom
  have hlen : (is ++ [Issue.mk code st.nextN original]).length = is.length + 1 := by simp
  simp only [MaskRestore.issue, MaskRestore.add, canonicalLabel?_label hcode hnext]
  refine ⟨?_, h.custom, ?_, ?_, ?_, ?_, ?_⟩
  · rw [hlen]
    exact congrArg (· + 1) h.next
  · rw [map_append, ← h.keys]
    rfl
  · intro i hi
    rcases mem_append.mp hi with hi | hi
    · exact h.coded i hi
    · obtain rfl := mem_singleton.mp hi
      exact hcode
  · intro i hi
    rw [hlen]
    rcases mem_append.mp hi with hi | hi
    · obtain ⟨hpos, hle⟩ := h.numbered i hi
      exact ⟨hpos, Nat.le_succ_of_le hle⟩
    · obtain rfl := mem_singleton.mp hi
      have hnum := h.next
      exact ⟨by simp only [hnum]; omega, by simp only [hnum]; omega⟩
  · intro i hi
    rcases mem_append.mp hi with hi | hi
    · obtain ⟨hpos, hle⟩ := h.numbered i hi
      have hne : i.id ≠ canonicalID code (Nat.toDigits 10 st.nextN) := by
        intro heq
        have hnum := number_eq_of_canonicalID_eq hpos (by rw [h.next]; omega) heq
        rw [h.next] at hnum
        omega
      exact (AList.lookup_insert_ne hne).trans (h.resolves i hi)
    · obtain rfl := mem_singleton.mp hi
      exact AList.lookup_insert _
  · intro i hi
    rcases mem_append.mp hi with hi | hi
    · exact (h.longest i hi).trans (Nat.le_max_left _ _)
    · obtain rfl := mem_singleton.mp hi
      exact Nat.le_max_right _ _

theorem Issued.placeholderTok_label (h : Issued st is) (hroom : is.length < 10 ^ 9) (hi : i ∈ is)
    (s : Text) : st.placeholderTok (i.label ++ s) = some (i.label.length, i.original) := by
  have hnum : i.number < 10 ^ 9 := Nat.lt_of_le_of_lt (h.numbered i hi).2 hroom
  rw [placeholderTok, Issue.label, placeholderAt_label (h.coded i hi) hnum]
  have hres := h.resolves i hi
  rw [Issue.id] at hres
  simp only [Option.map_some, hres, Option.getD_some]

theorem placeholderTok_plain (st : MaskRestore) (hc : c ≠ '{') (s : Text) :
    st.placeholderTok (c :: s) = none := by
  have hnone : matchSeq (fun _ => true) tolerantPlaceholderRe (c :: s) = none :=
    matchSeq_eq_none (by decide) (by simpa [Rep.one] using hc)
  rw [MaskRestore.placeholderTok, placeholderAt, hnone]
  rfl

theorem restoreCanonical_plain (st : MaskRestore) {u : Text} (hu : '{' ∉ u) (s : Text) :
    st.restoreCanonical (u ++ s) = u ++ st.restoreCanonical s :=
  rewrite_plain (fun _ hc => placeholderTok_plain st (fun heq => hu (heq ▸ hc))) s

theorem Issued.restoreCanonical_label (h : Issued st is) (hroom : is.length < 10 ^ 9) (hi : i ∈ is)
    (s : Text) : st.restoreCanonical (i.label ++ s) = i.original ++ st.restoreCanonical s :=
  rewrite_match (cons_ne_nil _ _) (h.placeholderTok_label hroom hi s)

theorem Issued.canonical_ne_empty (h : Issued st is) (hi : i ∈ is) : st.canonical ≠ ∅ := by
  intro hempty
  have hres := h.resolves i hi
  rw [hempty, AList.lookup_empty] at hres
  cases hres

theorem Issued.restore_eq (h : Issued st is) (hne : is ≠ []) (s : Text) :
    st.restore s = st.restoreCanonical s := by
  obtain ⟨i, hi⟩ := exists_mem_of_ne_nil is hne
  have hkeys : st.keys ≠ [] := by
    rw [h.keys]
    exact fun hnil => hne (map_eq_nil_iff.mp hnil)
  have hcan := h.canonical_ne_empty hi
  by_cases hs : s = []
  · subst hs
    rw [restore, if_pos (.inr rfl)]
    rfl
  · rw [restore, if_neg (by simp [hkeys, hs])]
    by_cases hbrace : '{' ∈ s
    · simp [hcan, hbrace, h.custom]
    · have hplain := restoreCanonical_plain st hbrace []
      rw [append_nil] at hplain
      simp only [hbrace, and_false, if_false, h.custom, ne_eq, not_true_eq_false, hplain]
      exact (append_nil s).symm

end AikeyProxy.Proxy
