import AikeyProxy.Observer.SseParser

/-!
# When the frames depend on the chunks

`findFrameBoundary` looks for `\n\n` in the whole buffer before `\r\n\r\n`, and for that before
`\r\r`. A blank line of a later form ends a frame only while nothing of an earlier form has arrived
behind it. `sseCutter` is that search, and `sseReading` what `parseFrame` makes of a frame: all it
depends on are the lines that are neither empty nor comments.
-/

namespace AikeyProxy.Observer

open AikeyProxy.Proxy Lib List Option

/-! ## The search -/

theorem lfBlank_ne_nil : lfBlank ≠ [] := by decide

theorem crlfBlank_ne_nil : crlfBlank ≠ [] := by decide

theorem crBlank_ne_nil : crBlank ≠ [] := by decide

/-- What `findFrameBoundary` finds, form by form: the frame, its separator and what follows. -/
inductive Found : Bytes → Bytes → Bytes → Prop where
  | crlfLf {p r : Bytes} : FirstAt lfBlank (p ++ [carriageReturn]) →
      Found p (carriageReturn :: lfBlank) r
  | lf {p r : Bytes} : FirstAt lfBlank p → p.getLast? ≠ some carriageReturn → Found p lfBlank r
  | crlf {p r : Bytes} : ¬lfBlank <:+: p ++ crlfBlank ++ r → FirstAt crlfBlank p →
      Found p crlfBlank r
  | cr {p r : Bytes} : ¬lfBlank <:+: p ++ crBlank ++ r → ¬crlfBlank <:+: p ++ crBlank ++ r →
      FirstAt crBlank p → Found p crBlank r

variable {w : Bytes}

theorem findFrameBoundary_eq_none :
    findFrameBoundary w = none ↔ ¬lfBlank <:+: w ∧ ¬crlfBlank <:+: w ∧ ¬crBlank <:+: w := by
  rw [← firstIndex_eq_none, ← firstIndex_eq_none, ← firstIndex_eq_none]
  unfold findFrameBoundary bytesIndex
  cases firstIndex lfBlank w with
  | some i =>
    dsimp only
    split <;> simp
  | none => cases firstIndex crlfBlank w <;> cases firstIndex crBlank w <;> simp

theorem Found.of_find {i n : Nat} (h : findFrameBoundary w = some (i, n)) :
    ∃ p s r, w = p ++ s ++ r ∧ p.length = i ∧ s.length = n ∧ Found p s r := by
  unfold findFrameBoundary bytesIndex at h
  split at h
  next j hlf =>
    obtain ⟨q, r, rfl, rfl, hfirst⟩ := (firstIndex_eq_some lfBlank_ne_nil).mp hlf
    rcases q.eq_nil_or_concat' with rfl | ⟨p, x, rfl⟩
    · cases h
      exact ⟨[], lfBlank, r, rfl, rfl, rfl, .lf hfirst (by simp)⟩
    · have hat : (p ++ [x] ++ lfBlank ++ r)[(p ++ [x]).length - 1]? = some x := by simp
      rw [hat] at h
      split at h
      next hcr =>
        cases h
        cases hcr.2
        exact ⟨p, carriageReturn :: lfBlank, r, by simp, by simp, rfl, .crlfLf hfirst⟩
      next hcr =>
        cases h
        refine ⟨p ++ [x], lfBlank, r, rfl, rfl, rfl, .lf hfirst fun hend => hcr ⟨by simp, ?_⟩⟩
        rwa [getLast?_concat] at hend
  next hlf =>
    have hlf := firstIndex_eq_none.mp hlf
    split at h
    next j hcrlf =>
      obtain ⟨p, r, rfl, rfl, hfirst⟩ := (firstIndex_eq_some crlfBlank_ne_nil).mp hcrlf
      cases h
      exact ⟨p, crlfBlank, r, rfl, rfl, rfl, .crlf hlf hfirst⟩
    next hcrlf =>
      split at h
      next j hcr =>
        obtain ⟨p, r, rfl, rfl, hfirst⟩ := (firstIndex_eq_some crBlank_ne_nil).mp hcr
        cases h
        exact ⟨p, crBlank, r, rfl, rfl, rfl, .cr hlf (firstIndex_eq_none.mp hcrlf) hfirst⟩
      · cases h

namespace Found

variable {p s r p' s' r' : Bytes}

theorem find (h : Found p s r) : findFrameBoundary (p ++ s ++ r) = some (p.length, s.length) := by
  unfold findFrameBoundary bytesIndex
  cases h with
  | crlfLf hfirst =>
    have hlf : firstIndex lfBlank (p ++ carriageReturn :: lfBlank ++ r) = some (p.length + 1) :=
      (firstIndex_eq_some lfBlank_ne_nil).mpr ⟨_, r, by simp, by simp, hfirst⟩
    rw [hlf]
    simp [lfBlank]
  | lf hfirst hend =>
    rw [(firstIndex_eq_some lfBlank_ne_nil).mpr ⟨p, r, rfl, rfl, hfirst⟩]
    dsimp only
    rw [if_neg]
    · rfl
    · rintro ⟨hpos, hcr⟩
      rcases p.eq_nil_or_concat' with rfl | ⟨q, x, rfl⟩
      · exact absurd hpos (lt_irrefl 0)
      · exact hend (by simpa using hcr)
  | crlf hlf hfirst =>
    rw [firstIndex_eq_none.mpr hlf,
      (firstIndex_eq_some crlfBlank_ne_nil).mpr ⟨p, r, rfl, rfl, hfirst⟩]
    rfl
  | cr hlf hcrlf hfirst =>
    rw [firstIndex_eq_none.mpr hlf, firstIndex_eq_none.mpr hcrlf,
      (firstIndex_eq_some crBlank_ne_nil).mpr ⟨p, r, rfl, rfl, hfirst⟩]
    rfl

theorem terminators (h : Found p s r) : s ≠ [] ∧ ∀ x ∈ s, isEOL x = true := by
  cases h <;> simp [lfBlank, crlfBlank, crBlank, isEOL]

theorem drop {a : Bytes} (h : Found (a ++ p) s r) : Found p s r := by
  have hfirst : ∀ {sep q : Bytes}, FirstAt sep (a ++ q) → FirstAt sep q := by
    intro sep q hq hin
    rw [FirstAt, append_assoc] at hq
    exact hq (hin.trans (suffix_append a _).isInfix)
  have hnone : ∀ {sep t : Bytes}, ¬sep <:+: a ++ p ++ t ++ r → ¬sep <:+: p ++ t ++ r := by
    intro sep t ht hin
    rw [append_assoc, append_assoc, ← append_assoc p] at ht
    exact ht (hin.trans (suffix_append a _).isInfix)
  cases h with
  | crlfLf h => exact .crlfLf (hfirst (by rwa [← append_assoc]))
  | lf h hend =>
    refine .lf (hfirst h) fun hcr => hend ?_
    rw [getLast?_append, hcr]
    rfl
  | crlf hlf h => exact .crlf (hnone hlf) (hfirst h)
  | cr hlf hcrlf h => exact .cr (hnone hlf) (hnone hcrlf) (hfirst h)

theorem take {b : Bytes} (h : Found p s (r ++ b)) : Found p s r := by
  have hnone : ∀ {sep t : Bytes}, ¬sep <:+: p ++ t ++ (r ++ b) → ¬sep <:+: p ++ t ++ r := by
    intro sep t ht hin
    rw [← append_assoc] at ht
    exact ht (hin.trans (prefix_append _ b).isInfix)
  cases h with
  | crlfLf h => exact .crlfLf h
  | lf h hend => exact .lf h hend
  | crlf hlf h => exact .crlf (hnone hlf) h
  | cr hlf hcrlf h => exact .cr (hnone hlf) (hnone hcrlf) h

end Found

def splitFrame (buf : Bytes) : Option (Bytes × Bytes × Bytes) :=
  (findFrameBoundary buf).map fun b => (buf.take b.1, (buf.drop b.1).take b.2, buf.drop (b.1 + b.2))

theorem splitFrame_eq_some {p s r : Bytes} :
    splitFrame w = some (p, s, r) ↔ w = p ++ s ++ r ∧ Found p s r := by
  constructor
  · intro h
    obtain ⟨⟨i, n⟩, hfind, heq⟩ := map_eq_some_iff.mp h
    obtain ⟨p', s', r', rfl, rfl, rfl, hfound⟩ := Found.of_find hfind
    obtain ⟨rfl, rfl, rfl⟩ : p' = p ∧ s' = s ∧ r' = r := by simpa using heq
    exact ⟨rfl, hfound⟩
  · rintro ⟨rfl, hfound⟩
    rw [splitFrame, hfound.find]
    simp

def LateBlank (sep : Bytes) : Prop := sep = crlfBlank ∨ sep = crBlank

variable {sep line : Bytes} {b : UInt8}

theorem length_lt_of_not_infix {p s r v q t : Bytes} (hu : ¬sep <:+: p ++ s ++ r)
    (h : p ++ s ++ r ++ v = q ++ sep ++ t) : p.length + s.length < q.length + sep.length := by
  by_contra hle
  have hfront : q ++ sep <+: p ++ s ++ r := prefix_of_prefix_length_le ⟨t, h.symm⟩
    (prefix_append _ v) (by simp only [length_append]; omega)
  exact hu ((suffix_append q sep).isInfix.trans hfront.isInfix)

theorem getElem?_between (p s r : Bytes) {k : Nat} (hk : k < s.length) :
    (p ++ s ++ r)[p.length + k]? = s[k]? := by
  rw [append_assoc, getElem?_append_right (by omega), Nat.add_sub_cancel_left,
    getElem?_append_left hk]

/-- **What the search finds can change in one way only**: a form it looks for earlier arrives
behind a blank line of a later form. -/
theorem Found.overruled {p s r v p' s' r' : Bytes} (hu : Found p s r) (hw : Found p' s' r')
    (heq : p ++ s ++ r ++ v = p' ++ s' ++ r') :
    (p', s', r') = (p, s, r ++ v) ∨ p.length < p'.length ∧ LateBlank s := by
  have hsame : Found p s (r ++ v) → (p', s', r') = (p, s, r ++ v) := by
    intro h
    have hfind := splitFrame_eq_some.mpr ⟨heq.symm.trans (append_assoc _ r v), h⟩
    rw [splitFrame_eq_some.mpr ⟨rfl, hw⟩] at hfind
    exact some.inj hfind
  cases hu with
  | crlfLf h => exact .inl (hsame (.crlfLf h))
  | lf h hend => exact .inl (hsame (.lf h hend))
  | crlf hlf h =>
    cases hw with
    | crlfLf _ =>
      have hlt : p.length + 4 < (p' ++ [carriageReturn]).length + 2 :=
        length_lt_of_not_infix hlf (heq.trans (by rw [append_cons]))
      rw [length_append, length_singleton] at hlt
      exact .inr ⟨by omega, .inl rfl⟩
    | lf _ _ =>
      have hlt : p.length + 4 < p'.length + 2 := length_lt_of_not_infix hlf heq
      exact .inr ⟨by omega, .inl rfl⟩
    | crlf hlf' _ =>
      rw [← heq, append_assoc] at hlf'
      exact .inl (hsame (.crlf hlf' h))
    | cr _ hcrlf _ =>
      rw [← heq] at hcrlf
      exact absurd ⟨p, r ++ v, by simp⟩ hcrlf
  | cr hlf hcrlf h =>
    -- A line feed of the other forms cannot stand where the two carriage returns are.
    have hreturn : ∀ {i : Nat}, (p' ++ s' ++ r')[i]? = some newline →
        i ≠ p.length + 0 ∧ i ≠ p.length + 1 := by
      intro i hfeed
      rw [← heq, append_assoc] at hfeed
      constructor
      all_goals
        rintro rfl
        rw [getElem?_between p crBlank _ (by decide)] at hfeed
        exact absurd hfeed (by decide)
    cases hw with
    | crlfLf _ =>
      have hlt : p.length + 2 < (p' ++ [carriageReturn]).length + 2 :=
        length_lt_of_not_infix hlf (heq.trans (by rw [append_cons]))
      rw [length_append, length_singleton] at hlt
      have hne := @hreturn (p'.length + 1) (getElem?_between p' _ r' (by decide))
      exact .inr ⟨by omega, .inr rfl⟩
    | lf _ _ =>
      have hlt : p.length + 2 < p'.length + 2 := length_lt_of_not_infix hlf heq
      exact .inr ⟨by omega, .inr rfl⟩
    | crlf _ _ =>
      have hlt : p.length + 2 < p'.length + 4 := length_lt_of_not_infix hcrlf heq
      have hne := @hreturn (p'.length + 1) (getElem?_between p' _ r' (by decide))
      exact .inr ⟨by omega, .inr rfl⟩
    | cr hlf' hcrlf' _ =>
      rw [← heq, append_assoc] at hlf' hcrlf'
      exact .inl (hsame (.cr hlf' hcrlf' h))

def sseCutter : Cutter UInt8 where
  find := splitFrame
  blank x := isEOL x = true
  late := LateBlank
  eq_of_find h := (splitFrame_eq_some.mp h).1
  sep_ne_nil h := (splitFrame_eq_some.mp h).2.terminators.1
  blank_of_find h := (splitFrame_eq_some.mp h).2.terminators.2
  find_drop h := splitFrame_eq_some.mpr ⟨rfl, (splitFrame_eq_some.mp h).2.drop⟩
  find_take h := splitFrame_eq_some.mpr ⟨rfl, (splitFrame_eq_some.mp h).2.take⟩
  find_none h hin := by
    rw [splitFrame, map_eq_none_iff, findFrameBoundary_eq_none] at h ⊢
    exact ⟨fun hlf => h.1 (hlf.trans hin), fun hcrlf => h.2.1 (hcrlf.trans hin),
      fun hcr => h.2.2 (hcr.trans hin)⟩
  overruled hu hw := by
    obtain ⟨rfl, hfound⟩ := splitFrame_eq_some.mp hu
    obtain ⟨heq, hfound'⟩ := splitFrame_eq_some.mp hw
    exact hfound.overruled hfound' heq
  blank_of_late := by
    rintro s (rfl | rfl) <;> simp [crlfBlank, crBlank, isEOL]
  late_found a hs hnone := by
    rw [splitFrame, map_eq_none_iff, findFrameBoundary_eq_none] at hnone
    rcases hs with rfl | rfl
    · exact hnone.2.1 (suffix_append a _).isInfix
    · exact hnone.2.2 (suffix_append a _).isInfix

/-! ## The reading -/

def isField (line : Bytes) : Bool := !line.isEmpty && line.head? ≠ some colon

def fieldLines (frame : Bytes) : List Bytes := (splitLines frame).filter isField

def wordsFrom (line : Bytes) : Bytes → List Bytes
  | [] => if line.isEmpty then [] else [line]
  | b :: rest =>
    if isEOL b then (if line.isEmpty then [] else [line]) ++ wordsFrom [] rest
    else wordsFrom (line ++ [b]) rest

theorem wordsFrom_eol (line rest : Bytes) (hb : isEOL b = true) :
    wordsFrom line (b :: rest) = (if line.isEmpty then [] else [line]) ++ wordsFrom [] rest := by
  rw [wordsFrom, if_pos hb]

theorem wordsFrom_text (line rest : Bytes) (hb : isEOL b = false) :
    wordsFrom line (b :: rest) = wordsFrom (line ++ [b]) rest := by
  rw [wordsFrom, if_neg (by rw [hb]; decide)]

theorem isEOL_eq_false (hlf : ¬b = newline) (hcr : ¬b = carriageReturn) : isEOL b = false := by
  rw [isEOL, Bool.or_eq_false_iff, beq_eq_false_iff_ne, beq_eq_false_iff_ne]
  exact ⟨hlf, hcr⟩

theorem filter_cons_isField (line : Bytes) (lines : List Bytes) :
    (line :: lines).filter isField =
      (if line.isEmpty then [] else [line]).filter isField ++ lines.filter isField := by
  cases line with
  | nil => rfl
  | cons b line => rw [← filter_append]; rfl

theorem filter_splitLinesFrom (line w : Bytes) :
    (splitLinesFrom line w).filter isField = (wordsFrom line w).filter isField := by
  fun_induction splitLinesFrom line w with
  | case1 line hline => simp only [wordsFrom, hline, if_true]
  | case2 line hline => simp only [wordsFrom, hline]; rfl
  | case3 line b hb =>
    rw [wordsFrom_eol line [] hb, filter_cons_isField, filter_append]
    rfl
  | case4 line b hb =>
    rw [wordsFrom_text line [] (Bool.eq_false_iff.mpr hb), wordsFrom, if_neg]
    rw [List.isEmpty_iff]
    exact append_ne_nil_of_right_ne_nil line (cons_ne_nil b [])
  | case5 line c rest ih =>
    rw [wordsFrom_eol line (c :: rest) (by decide), filter_cons_isField, filter_append, ih]
  | case6 line rest hb ih =>
    rw [wordsFrom_eol line _ (by decide), wordsFrom_eol [] rest (by decide), filter_cons_isField,
      filter_append, ih]
    rfl
  | case7 line c rest hb hc ih =>
    rw [wordsFrom_eol line _ (by decide), filter_cons_isField, filter_append, ih]
  | case8 line b c rest hlf hcr ih =>
    rw [wordsFrom_text line _ (isEOL_eq_false hlf hcr), ih]

theorem wordsFrom_append (line v w : Bytes) (hb : isEOL b = true) :
    wordsFrom line (v ++ b :: w) = wordsFrom line v ++ wordsFrom [] w := by
  induction v generalizing line with
  | nil => rw [nil_append, wordsFrom_eol line w hb]; rfl
  | cons c v ih =>
    rw [cons_append]
    cases hc : isEOL c with
    | true => rw [wordsFrom_eol _ _ hc, wordsFrom_eol _ _ hc, ih, append_assoc]
    | false => rw [wordsFrom_text _ _ hc, wordsFrom_text _ _ hc, ih]

theorem wordsFrom_separated {s : Bytes} (v w : Bytes) (hne : s ≠ [])
    (hs : ∀ x ∈ s, isEOL x = true) : wordsFrom [] (v ++ s ++ w) = wordsFrom [] v ++ wordsFrom [] w := by
  induction s generalizing v with
  | nil => exact absurd rfl hne
  | cons b s ih =>
    have hb := hs b mem_cons_self
    have hrest : wordsFrom [] (s ++ w) = wordsFrom [] w := by
      cases s with
      | nil => rfl
      | cons c s => exact ih [] (cons_ne_nil c s) fun x hx => hs x (mem_cons_of_mem b hx)
    rw [append_assoc, cons_append, wordsFrom_append [] v (s ++ w) hb, hrest]

theorem fieldLines_eq (w : Bytes) : fieldLines w = (wordsFrom [] w).filter isField :=
  filter_splitLinesFrom [] w

theorem isField_iff : isField line = true ↔ ¬line.isEmpty = true ∧ ¬line.head? = some colon := by
  simp [isField]

theorem addLine_of_not_isField (st : FrameFields) (h : ¬isField line = true) :
    addLine st line = st := by
  unfold addLine
  split
  · rfl
  next hne =>
    split
    · rfl
    next hcolon => exact absurd (isField_iff.mpr ⟨hne, hcolon⟩) h

theorem addLine_seen (st : FrameFields) (h : isField line = true) :
    (addLine st line).seen = true := by
  obtain ⟨hne, hcolon⟩ := isField_iff.mp h
  unfold addLine
  rw [if_neg hne, if_neg hcolon]
  dsimp only
  split
  · rfl
  · split <;> rfl

theorem foldl_addLine_filter (lines : List Bytes) (st : FrameFields) :
    lines.foldl addLine st = (lines.filter isField).foldl addLine st := by
  induction lines generalizing st with
  | nil => rfl
  | cons line lines ih =>
    rw [foldl_cons, ih]
    by_cases h : isField line = true
    · rw [filter_cons_of_pos h, foldl_cons]
    · rw [filter_cons_of_neg h, addLine_of_not_isField st h]

theorem foldl_addLine_seen {lines : List Bytes} (st : FrameFields)
    (h : ∀ line ∈ lines, isField line = true) :
    (lines.foldl addLine st).seen = true ↔ st.seen = true ∨ lines ≠ [] := by
  induction lines generalizing st with
  | nil => simp
  | cons line lines ih =>
    rw [foldl_cons, ih _ fun l hl => h l (mem_cons_of_mem line hl)]
    exact iff_of_true (.inl (addLine_seen st (h line mem_cons_self)))
      (.inr (cons_ne_nil line lines))

def frameOf (fields : List Bytes) : SSEFrame :=
  let st := fields.foldl addLine ⟨[], [], false⟩
  ⟨st.eventType, st.data⟩

def sseReading : Reading sseCutter Bytes SSEFrame where
  fields := fieldLines
  value := frameOf
  fields_nil := rfl
  fields_split v w hne hs := by
    rw [fieldLines_eq, wordsFrom_separated v w hne hs, filter_append, ← fieldLines_eq,
      ← fieldLines_eq]

theorem parseFrame_eq (frame : Bytes) : (parseFrame frame).toList = sseReading.emit frame := by
  have hfold : (splitLines frame).foldl addLine ⟨[], [], false⟩ =
      (fieldLines frame).foldl addLine ⟨[], [], false⟩ := foldl_addLine_filter _ _
  have hseen := @foldl_addLine_seen (fieldLines frame) ⟨[], [], false⟩
    fun line hline => (mem_filter.mp hline).2
  unfold parseFrame
  rw [hfold]
  by_cases hfields : fieldLines frame = []
  · rw [if_neg (by rw [hseen]; simp [hfields]), Reading.emit_of_fields_nil hfields]
    rfl
  · rw [if_pos (hseen.mpr (.inr hfields)), Reading.emit_of_fields_ne_nil hfields]
    rfl

theorem drainFrames_eq (fuel : Nat) (buf : Bytes) :
    drainFrames fuel buf =
      ((sseCutter.cut fuel buf).1.flatMap sseReading.emit, (sseCutter.cut fuel buf).2) := by
  induction fuel generalizing buf with
  | zero => rfl
  | succ fuel ih =>
    have hfind : sseCutter.find buf = splitFrame buf := rfl
    unfold splitFrame at hfind
    cases h : findFrameBoundary buf with
    | none =>
      rw [h] at hfind
      simp only [drainFrames, Cutter.cut, h, hfind, map_none, flatMap_nil]
    | some b =>
      rw [h] at hfind
      simp only [drainFrames, Cutter.cut, h, hfind, map_some, flatMap_cons, ih,
        parseFrame_eq]

theorem parse_eq {p : SSEParser} (hp : sseCutter.find p.buf = none) (chunk : Bytes) :
    p.parse chunk = (sseReading.frames (p.buf ++ chunk), ⟨sseCutter.rest (p.buf ++ chunk)⟩) := by
  unfold SSEParser.parse
  split
  next hempty =>
    rw [isEmpty_iff.mp hempty, append_nil, Reading.frames_none hp, Cutter.rest_none hp]
  · dsimp only
    rw [drainFrames_eq]
    rfl

theorem parseAll_eq {p : SSEParser} (hp : sseCutter.find p.buf = none) (chunks : List Bytes) :
    (p.parseAll chunks).1 = sseReading.feed p.buf chunks := by
  induction chunks generalizing p with
  | nil => rfl
  | cons chunk chunks ih =>
    unfold SSEParser.parseAll Reading.feed
    rw [parse_eq hp]
    dsimp only
    rw [@ih ⟨sseCutter.rest (p.buf ++ chunk)⟩ (Cutter.find_rest _)]

/-! ## Independence of the chunks -/

def wholeFrames (stream : Bytes) : List Bytes := sseCutter.pieces stream

/-- A frame has fields on both sides of a blank line of one of the later forms. -/
def BlankInside (frame : Bytes) : Prop :=
  ∃ front sep back, frame = front ++ sep ++ back ∧ (sep = crlfBlank ∨ sep = crBlank) ∧
    fieldLines front ≠ [] ∧ fieldLines back ≠ []

/-- A stream with one form of blank line, as every stream with one kind of line ending has, keeps
no blank line inside a frame. -/
theorem not_blankInside_of_one_form {stream form : Bytes}
    (hform : ∀ sep ∈ [lfBlank, crlfBlank, crBlank], sep <:+: stream → sep = form) :
    ∀ frame ∈ wholeFrames stream, ¬BlankInside frame := by
  rintro frame hframe ⟨front, sep, back, heq, hlate, -, -⟩
  obtain ⟨s, r, hsuffix, hfind⟩ := Cutter.exists_of_mem_pieces hframe
  have hinside : sep <:+: frame := ⟨front, back, heq.symm⟩
  have hframe' : frame <:+: frame ++ s ++ r := ⟨[], s ++ r, by simp⟩
  have hsep : sep = form := by
    refine hform sep ?_ (hinside.trans (hframe'.trans hsuffix.isInfix))
    rcases hlate with rfl | rfl <;> decide
  -- The form the frame was cut at is the form of the blank line inside, which comes first.
  have hcut : ∀ {form' : Bytes}, form' ∈ [lfBlank, crlfBlank, crBlank] → form' <:+ s →
      form' = sep := fun hmem hs => (hform _ hmem ((hs.isInfix.trans ⟨frame, r, rfl⟩).trans
    hsuffix.isInfix)).trans hsep.symm
  have hfirst : ∀ {form' : Bytes}, form' = sep → ¬FirstAt form' frame := by
    rintro _ rfl hfirst
    exact hfirst (hinside.trans (prefix_append frame _).isInfix)
  cases (splitFrame_eq_some.mp hfind).2 with
  | crlfLf _ =>
    have hlf := @hcut lfBlank (by decide) (suffix_cons _ _)
    rcases hlate with rfl | rfl <;> exact absurd hlf (by decide)
  | lf h _ | crlf _ h | cr _ _ h => exact hfirst (hcut (by decide) (suffix_refl _)) h

/-- **The frames of a stream do not depend on the chunks exactly when no frame of the stream as a
whole has a blank line between two of its fields.** -/
theorem parse_chunking_iff (stream : Bytes) :
    (∀ chunks₁ chunks₂ : List Bytes, chunks₁.flatten = stream → chunks₂.flatten = stream →
        (newSSEParser.parseAll chunks₁).1 = (newSSEParser.parseAll chunks₂).1) ↔
      ∀ frame ∈ wholeFrames stream, ¬BlankInside frame := by
  have hnew : ∀ chunks, (newSSEParser.parseAll chunks).1 = sseReading.feed [] chunks :=
    fun chunks => @parseAll_eq newSSEParser rfl chunks
  simp only [hnew]
  exact Reading.feed_eq_iff stream

/-- **A stream with one form of blank line is read alike however it arrives.** -/
theorem uniform_stream_chunking (form : Bytes) {chunks : List Bytes}
    (hform : ∀ sep ∈ [lfBlank, crlfBlank, crBlank], sep <:+: chunks.flatten → sep = form) :
    (newSSEParser.parseAll chunks).1 = (newSSEParser.parseAll [chunks.flatten]).1 := by
  have hwhole := not_blankInside_of_one_form hform
  rw [@parseAll_eq newSSEParser rfl, @parseAll_eq newSSEParser rfl]
  exact (sseReading.feed_eq_iff _).mpr hwhole chunks [chunks.flatten] rfl (by simp)

theorem line_feed_cut_in_two :
    (newSSEParser.parseAll [asciiBytes "data: a\n", asciiBytes "\ndata: b\n\n"]).1 =
      (newSSEParser.parseAll [asciiBytes "data: a\n\ndata: b\n\n"]).1 :=
  @uniform_stream_chunking lfBlank [asciiBytes "data: a\n", asciiBytes "\ndata: b\n\n"]
    (by decide +kernel)

/-- A chunk that ends in the blank line of `a` reads it as two events, the whole stream as one. -/
theorem blank_before_line_feeds_merged :
    (newSSEParser.parseAll [asciiBytes "data: a\r\rdata: b\n\n"]).1 =
        [⟨[], asciiBytes "a\nb"⟩] ∧
      (newSSEParser.parseAll [asciiBytes "data: a\r\r", asciiBytes "data: b\n\n"]).1 =
        [⟨[], asciiBytes "a"⟩, ⟨[], asciiBytes "b"⟩] := by
  decide +kernel

end AikeyProxy.Observer
