import AikeyProxy.Proof.MaskLabels
import AikeyProxy.Proof.SseJson

/-!
# Restoring a stream and restoring its text

A stream may be cut inside a label. As long as none of the closing braces has come, what has come of
the label is not taken for a placeholder, and it is what the restorer withholds (`Reads.holdback`).
So if opening braces stand in labels only, and no cut is behind a closing brace inside a label, the
restored stream carries the restored text.
-/

namespace AikeyProxy.Proxy

open Lib List MaskRestore Option

/-! ## Texts with labels -/

/-- A table of labels of the shipped shape, none of whose originals has an opening brace. -/
structure PlainTable (st : MaskRestore) (is : List Issue) : Prop extends Issued st is where
  few : is.length < 10 ^ 9
  originals : ∀ i ∈ is, '{' ∉ i.original

/-- The text `t` is made of characters other than the opening brace and of labels, and ends with the
beginning `p` of a label, without its closing braces. In front of `p` it restores to `out`. -/
inductive Reads (is : List Issue) : Text → Text → Text → Prop where
  | nil : Reads is [] [] []
  | opened {i : Issue} {p : Text} : i ∈ is → p <+: i.label → '}' ∉ p → Reads is p [] p
  | plain {c : Char} {t out p : Text} : c ≠ '{' → Reads is t out p → Reads is (c :: t) (c :: out) p
  | label {i : Issue} {t out p : Text} :
      i ∈ is → Reads is t out p → Reads is (i.label ++ t) (i.original ++ out) p

variable {st : MaskRestore} {is : List Issue} {i : Issue} {t out p : Text} {c : Char}

theorem Issue.brace_mem_label (i : Issue) : '}' ∈ i.label :=
  mem_append_right _ mem_cons_self

theorem placeholderTok_open (h : '}' ∉ t) : st.placeholderTok t = none := by
  unfold placeholderTok placeholderAt
  cases hm : matchSeq (fun _ => true) tolerantPlaceholderRe t with
  | none => rfl
  | some m =>
    obtain ⟨c, hc, hbrace⟩ := exists_mem_of_matchSeq (e := .one (· == '}'))
      (by simp [tolerantPlaceholderRe]) Nat.one_pos hm
    exact absurd (eq_of_beq hbrace ▸ hc) h

theorem Reads.restoreCanonical (h : PlainTable st is) (hr : Reads is t out p) :
    st.restoreCanonical t = out ++ p := by
  induction hr with
  | nil => rfl
  | opened hi hp hopen =>
    exact rewrite_self fun u hu => placeholderTok_open fun hmem => hopen (hu.subset hmem)
  | plain hc _ ih =>
    rw [cons_append, ← ih]
    exact restoreCanonical_plain st (u := [_]) (by simpa using hc.symm) _
  | label hi _ ih => rw [h.restoreCanonical_label h.few hi, ih, append_assoc]

/-- The one way to read a text that goes on: what is read of its front stays as it is. -/
theorem Reads.plain_inv (hr : Reads is (c :: t) out p) (hc : c ≠ '{') :
    ∃ out', out = c :: out' ∧ Reads is t out' p := by
  generalize hu : c :: t = u at hr
  cases hr with
  | nil => cases hu
  | opened hi hp _ =>
    obtain ⟨x, hx⟩ := hp
    rw [← hu] at hx
    exact absurd (head_eq_of_cons_eq hx) hc
  | plain _ hr =>
    cases hu
    exact ⟨_, rfl, hr⟩
  | label hi hr => exact absurd (head_eq_of_cons_eq hu) hc

theorem Reads.label_inv (h : PlainTable st is) (hi : i ∈ is) (hr : Reads is (i.label ++ t) out p) :
    ∃ out', out = i.original ++ out' ∧ Reads is t out' p := by
  generalize hu : i.label ++ t = u at hr
  cases hr with
  | nil => cases hu
  | opened _ _ hopen => exact absurd (hu ▸ mem_append_left t i.brace_mem_label) hopen
  | plain hc _ => exact absurd (head_eq_of_cons_eq hu).symm hc
  | label hi' hr =>
    -- the pattern reads one label at the head of the text
    have htok := h.placeholderTok_label h.few hi t
    rw [hu, h.placeholderTok_label h.few hi'] at htok
    obtain ⟨hlen, horig⟩ := Prod.mk.inj (some.inj htok)
    obtain ⟨-, rfl⟩ := append_inj hu hlen.symm
    exact ⟨_, by rw [horig], hr⟩

theorem Reads.extend (h : PlainTable st is) (hr : Reads is t out p) {d out' p' : Text}
    (hr' : Reads is (t ++ d) out' p') : ∃ new, out' = out ++ new ∧ Reads is (p ++ d) new p' := by
  induction hr generalizing out' with
  | nil | opened => exact ⟨out', rfl, hr'⟩
  | plain hc _ ih =>
    obtain ⟨out', rfl, hrest⟩ := hr'.plain_inv hc
    obtain ⟨new, rfl, hnew⟩ := ih hrest
    exact ⟨new, rfl, hnew⟩
  | label hi _ ih =>
    rw [append_assoc] at hr'
    obtain ⟨out', rfl, hrest⟩ := hr'.label_inv h hi
    obtain ⟨new, rfl, hnew⟩ := ih hrest
    exact ⟨new, (append_assoc ..).symm, hnew⟩

/-! ## What is withheld -/

theorem byteLen_append (a b : Text) : byteLen (a ++ b) = byteLen a + byteLen b := by
  simp [byteLen]

theorem byteLen_pos (h : t ≠ []) : 0 < byteLen t := by
  obtain ⟨c, t, rfl⟩ := exists_cons_of_ne_nil h
  exact Nat.lt_of_lt_of_le c.utf8Size_pos (Nat.le_add_right _ _)

/-- Only a tail that begins in `p` can begin with an opening brace. -/
theorem find?_tails_append {q : Text → Bool} (hq : ∀ u, q u = true → u.head? = some '{')
    (hout : '{' ∉ out) : (out ++ p).tails.find? q = p.tails.find? q := by
  induction out with
  | nil => rfl
  | cons c out ih =>
    rw [cons_append, tails_cons, find?_cons_of_neg, ih fun hmem => hout (mem_cons_of_mem c hmem)]
    intro htrue
    exact hout (some.inj (hq _ htrue) ▸ mem_cons_self)

theorem Reads.out_plain (h : PlainTable st is) (hr : Reads is t out p) : '{' ∉ out := by
  induction hr with
  | nil | opened => exact not_mem_nil
  | plain hc _ ih => simp [hc.symm, ih]
  | label hi _ ih => simp [h.originals _ hi, ih]

theorem Reads.opening (hr : Reads is t out p) :
    p = [] ∨ ∃ i ∈ is, p <+: i.label ∧ '}' ∉ p := by
  induction hr with
  | nil => exact .inl rfl
  | opened hi hp hopen => exact .inr ⟨_, hi, hp, hopen⟩
  | plain _ _ ih | label _ _ ih => exact ih

theorem Reads.holdbackExact (h : PlainTable st is) (hr : Reads is t out p) :
    st.holdbackExact (out ++ p) = p := by
  unfold MaskRestore.holdbackExact
  rw [find?_tails_append _ (hr.out_plain h)]
  · rcases hr.opening with rfl | ⟨i, hi, hp, hopen⟩
    · rfl
    · cases p with
      | nil => rfl
      | cons c p =>
        obtain ⟨x, hx⟩ := hp
        have hne : x ≠ [] := by
          rintro rfl
          rw [append_nil] at hx
          exact hopen (hx ▸ i.brace_mem_label)
        have hlen := byteLen_append (c :: p) x
        have hpos := byteLen_pos hne
        have hmax := h.longest i hi
        rw [hx] at hlen
        rw [tails_cons, find?_cons_of_pos, getD_some]
        have hkey : i.label ∈ st.keys := h.keys ▸ mem_map_of_mem hi
        simp only [isEmpty_cons, Bool.not_false, Bool.true_and, Bool.and_eq_true, decide_eq_true_eq,
          List.any_eq_true, isPrefixOf_iff_prefix]
        exact ⟨by omega, i.label, hkey, by omega, x, hx⟩
  · intro u hu
    simp only [Bool.and_eq_true, List.any_eq_true, isPrefixOf_iff_prefix] at hu
    obtain ⟨⟨hne, -⟩, k, hk, -, hpre⟩ := hu
    rw [h.keys] at hk
    obtain ⟨i, -, rfl⟩ := mem_map.mp hk
    cases u with
    | nil => cases hne
    | cons c u =>
      obtain ⟨x, hx⟩ := hpre
      exact congrArg some (head_eq_of_cons_eq hx)

theorem Reads.holdback (h : PlainTable st is) (hr : Reads is t out p) :
    st.holdback (out ++ p) = p := by
  have hle : byteLen (st.holdbackTolerant (out ++ p)) ≤ byteLen p := by
    unfold MaskRestore.holdbackTolerant
    rw [find?_tails_append _ (hr.out_plain h)]
    · cases hfind : p.tails.find? _ with
      | none => exact Nat.zero_le _
      | some u =>
        obtain ⟨x, hx⟩ := (mem_tails _ _).mp (mem_of_find?_eq_some hfind)
        rw [← hx, byteLen_append]
        exact Nat.le_add_left _ _
    · intro u hu
      simp only [Bool.and_eq_true, beq_iff_eq] at hu
      exact hu.1.1
  rw [MaskRestore.holdback, hr.holdbackExact h, if_neg]
  rintro ⟨-, hlt⟩
  exact absurd hlt (Nat.not_lt.mpr hle)

/-! ## The relay -/

def deltaText (xs : List (Channel × Text)) : Text := xs.flatMap Prod.snd

/-- The deltas are cut where nothing is behind a closing brace inside a label. -/
def CutsOk (is : List Issue) (s : Text) (xs : List (Channel × Text)) : Prop :=
  ∀ k ≤ xs.length, ∃ out p, Reads is (s ++ deltaText (xs.take k)) out p

theorem relay_text (h : PlainTable st is) (hne : is ≠ []) :
    ∀ {xs : List (Channel × Text)} {w : Withheld} {s out p : Text}, Reads is s out p →
      w.carry = p → (w.owner = none → w.carry = []) → CutsOk is s xs →
      out ++ deltaText (relay st w xs) = st.restore (s ++ deltaText xs) := by
  intro xs
  induction xs with
  | nil =>
    intro w s out p hr hcarry howner _
    have hrel : deltaText (release w) = w.carry := by
      unfold release
      cases ho : w.owner with
      | none => exact (howner ho).symm
      | some ch =>
        by_cases hc : w.carry = [] <;> simp [hc, deltaText]
    have hnil : s ++ deltaText [] = s := append_nil s
    rw [relay, hrel, hcarry, hnil, h.restore_eq hne, hr.restoreCanonical h]
  | cons x xs ih =>
    intro w s out p hr hcarry _ hcuts
    obtain ⟨ch, d⟩ := x
    have htext : ∀ ys, s ++ deltaText ((ch, d) :: ys) = s ++ d ++ deltaText ys := by
      intro ys
      rw [deltaText, flatMap_cons, ← append_assoc]
      rfl
    have hlater : CutsOk is (s ++ d) xs := by
      intro k hk
      have hcut := hcuts (k + 1) (Nat.succ_le_succ hk)
      rwa [take_succ_cons, htext] at hcut
    obtain ⟨out', p', hr'⟩ := hlater 0 (Nat.zero_le _)
    rw [take_zero, deltaText, flatMap_nil, append_nil] at hr'
    -- the restorer has what was withheld and the delta before it
    obtain ⟨new, rfl, hnew⟩ := hr.extend h hr'
    have hout : withhold st w (ch, d) = (⟨p', some ch⟩, (ch, new)) := by
      simp only [withhold, hcarry, h.restore_eq hne, hnew.restoreCanonical h, hnew.holdback h]
      rw [length_append, Nat.add_sub_cancel, take_left]
    have hrest := ih hr' (w := ⟨p', some ch⟩) rfl (fun hnone => by cases hnone) hlater
    rw [htext, ← hrest, append_assoc, relay, hout]
    rfl

/-! ## The stream and the whole text -/

section Stream

variable {J : SseJson} {valid : Bytes → Prop}

def RestoresText (S : DeltaStream J valid) (st : MaskRestore) : Prop :=
  ∃ ys, S.Delivers st ys ∧ deltaText ys = st.restore (deltaText S.deltas)

theorem restoresText_iff (hJ : J.Lawful valid) (S : DeltaStream J valid) (st : MaskRestore) :
    RestoresText S st ↔ deltaText (S.relayed st) = st.restore (deltaText S.deltas) := by
  constructor
  · rintro ⟨ys, hys, htext⟩
    rw [← htext, hys.unique (S.delivers_relayed hJ st)]
  · exact fun htext => ⟨_, S.delivers_relayed hJ st, htext⟩

end Stream

def addressTable : MaskRestore := newMaskRestore.issue "ADDR".toList "12 Elm St".toList

end AikeyProxy.Proxy
