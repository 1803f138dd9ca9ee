import AikeyProxy.Proof.MaskLabels

/-!
# Labels that tell their numbers

Every label of a request has a number of its own, with the affixes of its family around it. If no
family has a digit behind the number, or at the end of what stands before it, the number can be
read off the label, so the labels and their ids are pairwise different (`labels_unique`). Affixes
with digits in them may spell the same label with two numbers.
-/

namespace AikeyProxy.Proxy

open Lib List

/-- The last number of a text, as its digits. -/
def lastNumber (s : Text) : Text :=
  ((s.reverse.dropWhile fun c => !c.isDigit).takeWhile Char.isDigit).reverse

/-- The affixes of a family let the number between them be read off as the last one. -/
def tellsNumber (opening closing : Text) : Bool :=
  (opening.getLast?.all fun c => !c.isDigit) && closing.all fun c => !c.isDigit

theorem tellsNumber_iff {opening closing : Text} : tellsNumber opening closing = true ↔
    (∀ c ∈ opening.getLast?, c.isDigit = false) ∧ ∀ c ∈ closing, c.isDigit = false := by
  unfold tellsNumber
  cases opening.getLast? <;> simp

theorem lastNumber_eq {p ds s : Text} (h : tellsNumber p s = true) (hne : ds ≠ [])
    (hds : ∀ c ∈ ds, c.isDigit = true) : lastNumber (p ++ ds ++ s) = ds := by
  obtain ⟨hopening, hclosing⟩ := tellsNumber_iff.mp h
  have hdrop : (p ++ ds ++ s).reverse.dropWhile (fun c => !c.isDigit) =
      ds.reverse ++ p.reverse := by
    rw [reverse_append, reverse_append, dropWhile_append_of_pos]
    · cases hrev : ds.reverse with
      | nil => exact absurd (reverse_eq_nil_iff.mp hrev) hne
      | cons d ds' =>
        have hd : d ∈ ds := mem_reverse.mp (hrev ▸ mem_cons_self)
        exact dropWhile_cons_of_neg (by simp [hds d hd])
    · intro c hc
      simp [hclosing c (mem_reverse.mp hc)]
  have htake : (ds.reverse ++ p.reverse).takeWhile Char.isDigit = ds.reverse := by
    rw [takeWhile_append_of_pos fun c hc => hds c (mem_reverse.mp hc)]
    cases hrev : p.reverse with
    | nil => simp
    | cons c cs =>
      have hlast : c ∈ p.getLast? := by
        rw [getLast?_eq_head?_reverse, hrev]
        rfl
      rw [takeWhile_cons_of_neg (by simp [hopening c hlast]), append_nil]
  rw [lastNumber, hdrop, htake, reverse_reverse]

theorem lastNumber_canonicalLabel {label code number : Text}
    (h : canonicalLabel? label = some (code, number)) : lastNumber label = number := by
  unfold canonicalLabel? at h
  split at h
  next p₁ p₂ c cs under ds q₁ q₂ rest hm =>
    cases h
    have htext := matchSeq_flatten hm
    obtain ⟨hpieces, hrest⟩ := matchSeq_sound hm
    obtain rfl := isEmpty_iff.mp hrest
    simp only [canonicalLabelRe, forall₂_cons, Rep.one, Rep.within, Rep.many] at hpieces
    obtain ⟨-, -, -, -, ⟨hone, hunder⟩, ⟨hlen, hds⟩, ⟨-, hq₁⟩, ⟨-, hq₂⟩, -⟩ := hpieces
    have htells : tellsNumber (p₁ ++ p₂ ++ c ++ cs ++ under) (q₁ ++ q₂) = true := by
      refine tellsNumber_iff.mpr ⟨fun x hx => ?_, fun x hx => ?_⟩
      · rw [getLast?_append_of_ne_nil _ (ne_nil_of_length_pos hone)] at hx
        rw [beq_iff_eq.mp (hunder x (mem_of_getLast? hx))]
        rfl
      · rcases mem_append.mp hx with hx | hx
        · rw [beq_iff_eq.mp (hq₁ x hx)]
          rfl
        · rw [beq_iff_eq.mp (hq₂ x hx)]
          rfl
    have hlast := lastNumber_eq htells (ne_nil_of_length_pos hlen) hds
    rw [← htext]
    simpa using hlast
  next => cases h

/-! ## The numbers of a table -/

/-- The labels were given the numbers from one on, and tell them. -/
structure Numbered (st : MaskRestore) : Prop where
  next : st.nextN = st.keys.length + 1
  keys : st.keys.map lastNumber = (List.range st.keys.length).map fun k => Nat.toDigits 10 (k + 1)

theorem add_keys (st : MaskRestore) (label original : Text) :
    (st.add label original).keys = st.keys ++ [label] ∧
      (st.add label original).nextN = st.nextN := by
  unfold MaskRestore.add
  split <;> exact ⟨rfl, rfl⟩

theorem Numbered.rebuild {masked : Text} {occs : List Occ}
    (hoccs : ∀ o ∈ occs, tellsNumber o.numberedPrefix o.numberedSuffix = true) :
    ∀ {last : Nat} {st : MaskRestore}, Numbered st →
      Numbered (rebuild masked occs last st).2.2 := by
  induction occs with
  | nil => intro last st h; exact h
  | cons o occs ih =>
    intro last st h
    refine ih (fun o' ho' => hoccs o' (mem_cons_of_mem _ ho')) ?_
    obtain ⟨hkeys, hnext⟩ := add_keys { st with nextN := st.nextN + 1 }
      (o.numberedPrefix ++ Nat.toDigits 10 st.nextN ++ o.numberedSuffix) o.orig
    have hnumber := lastNumber_eq (hoccs o mem_cons_self) Nat.toDigits_ne_nil
      (Json.toDigits_isDigit st.nextN)
    constructor
    · rw [hkeys, hnext, length_append]
      exact congrArg (· + 1) h.next
    · rw [hkeys, length_append, length_singleton, range_succ, map_append,
        map_append, ← h.keys, map_singleton, map_singleton, hnumber, h.next]

theorem Numbered.renumber {head masked : Text} {restorables : List RestorableMask}
    {st : MaskRestore} (h : Numbered st)
    (hr : ∀ r ∈ restorables, tellsNumber r.numberedPrefix r.numberedSuffix = true) :
    Numbered (renumberRestorables head masked restorables st).2.2 := by
  unfold renumberRestorables
  dsimp only
  split
  · exact h
  · refine h.rebuild fun o ho => ?_
    rw [mem_insertionSort] at ho
    obtain ⟨r, hmem, ho⟩ := mem_flatMap.mp ho
    have hin : r ∈ restorables := by
      unfold usableRestorables at hmem
      exact mem_of_mem_filter (mem_of_mem_filter hmem)
    unfold familyOccs at ho
    split at ho
    · cases ho
    · rw [← map_uncurry_zip_eq_zipWith] at ho
      obtain ⟨x, -, rfl⟩ := mem_map.mp ho
      exact hr r hin

/-- The identity of a label in tolerant matching. -/
def labelID (label : Text) : Option Text :=
  (canonicalLabel? label).map fun m => canonicalID m.1 m.2

theorem numbered_renumberAll {calls : List MaskCall}
    (h : ∀ c ∈ calls, ∀ r ∈ c.restorables, tellsNumber r.numberedPrefix r.numberedSuffix = true) :
    Numbered (renumberAll calls) := by
  have hrun : ∀ st, Numbered st → Numbered (calls.foldl
      (fun st c => (renumberRestorables c.head c.masked c.restorables st).2.2) st) := by
    induction calls with
    | nil => intro st hst; exact hst
    | cons c calls ih =>
      intro st hst
      exact ih (fun c' hc' => h c' (mem_cons_of_mem _ hc')) _
        (hst.renumber (h c mem_cons_self))
  exact hrun _ ⟨rfl, rfl⟩

/-- **Labels are unambiguous.** With affixes that let the number be read off, no two labels of a
request are the same or stand for the same id. -/
theorem labels_unique (calls : List MaskCall)
    (h : ∀ c ∈ calls, ∀ r ∈ c.restorables, tellsNumber r.numberedPrefix r.numberedSuffix = true) :
    (renumberAll calls).keys.Nodup ∧ ((renumberAll calls).keys.filterMap labelID).Nodup := by
  obtain ⟨-, hkeys⟩ := numbered_renumberAll h
  generalize (renumberAll calls).keys = keys at hkeys ⊢
  have hinj : Function.Injective fun k => Nat.toDigits 10 (k + 1) := by
    intro a b hab
    have hnum := congrArg (fun ds => Nat.ofDigitChars 10 ds 0) hab
    simpa using hnum
  have hnodup : (keys.map lastNumber).Nodup := hkeys ▸ nodup_range.map hinj
  refine ⟨hnodup.of_map _, pairwise_filterMap.mpr ?_⟩
  refine (pairwise_map.mp hnodup).imp_of_mem fun {a b} ha hb hne i hi j hj heq => ?_
  have hnumbered : ∀ k ∈ keys, ∃ n, 0 < n ∧ lastNumber k = Nat.toDigits 10 n := by
    intro k hk
    have hmem := mem_map_of_mem (f := lastNumber) hk
    rw [hkeys] at hmem
    obtain ⟨n, -, hn⟩ := mem_map.mp hmem
    exact ⟨n + 1, Nat.succ_pos n, hn.symm⟩
  obtain ⟨m, hm, hma⟩ := hnumbered a ha
  obtain ⟨n, hn, hnb⟩ := hnumbered b hb
  obtain ⟨⟨code, number⟩, hcode, rfl⟩ := Option.map_eq_some_iff.mp hi
  obtain ⟨⟨code', number'⟩, hcode', rfl⟩ := Option.map_eq_some_iff.mp hj
  rw [← lastNumber_canonicalLabel hcode, ← lastNumber_canonicalLabel hcode', hma, hnb] at heq
  rw [hma, hnb, number_eq_of_canonicalID_eq hm hn heq] at hne
  exact hne rfl

def twoSpans (opening closing opening' closing' : Text) : MaskCall where
  head := "a b".toList
  masked := "#A #B".toList
  restorables :=
    [⟨"#A".toList, opening, closing, [(0, 1)]⟩, ⟨"#B".toList, opening', closing', [(2, 3)]⟩]

theorem labels_unique_shipped :
    let call := twoSpans "\x7b\x7bADDR_".toList "\x7d\x7d".toList "\x7b\x7bPHONE_".toList
      "\x7d\x7d".toList
    (renumberAll [call, call]).keys.Nodup ∧
      ((renumberAll [call, call]).keys.filterMap labelID).Nodup :=
  labels_unique _ (by decide +kernel)

/-- One label for two originals: the second takes the place of the first. -/
theorem label_issued_twice :
    let st := renumberAll [twoSpans "[A".toList "-2]".toList "[A1-".toList "]".toList]
    st.keys = ["[A1-2]".toList, "[A1-2]".toList] ∧
      st.restore "[A1-2] [A1-2]".toList = "b b".toList := by
  decide +kernel

end AikeyProxy.Proxy
