import AikeyProxy.Proof.SseReader

/-!
# What the client makes of the restored stream

The client parses the stream it gets the way the restorer parses the one from upstream. A stream of
text deltas is then a list of texts, each on its channel, and the restorer is a `relay` that
withholds some text between two deltas. `clientDeltas_relay` is the refinement, which rests on what
`gjson` and `sjson` document (`SseJson.Lawful`) and on nothing about the texts.
-/

namespace AikeyProxy.Proxy

open Lib List Option SsePath

/-! ## Channels and deltas -/

/-- The member that tells the channels of a payload with its text at this path apart. -/
def SsePath.channelIndex : SsePath → SsePath
  | .delta => .outputIndex
  | .content => .choiceIndex
  | _ => .index

abbrev Channel := SsePath × Text

section Client

variable (J : SseJson)

def channelOf (path : SsePath) (payload : Bytes) : Channel :=
  (path, J.get payload path.channelIndex)

def deltaOf (frame : List Bytes) : Option (Channel × Text) :=
  match frameKind J frame with
  | .delta d path => some (channelOf J path d.payload, J.get d.payload path)
  | _ => none

def clientDeltas (data : Bytes) : List (Channel × Text) :=
  (blocks isBlankSSELine [] (takeLines newline data).1).filterMap (deltaOf J)

/-- A payload that fits on a line behind `data: `. -/
structure OneLine (payload : Bytes) : Prop where
  opens : payload.head? = some openBrace
  line : newline ∉ payload
  closes : ∀ b ∈ payload.getLast?, isEOL b = false

/-- The paths the restorer writes in a payload: its text delta, or the text of a `done`. -/
def Written (payload : Bytes) (path : SsePath) : Prop :=
  sseTextFieldPath J payload = some path ∨ (path = .text ∧ (J.str payload .text).isSome = true)

/-- What is known of `gjson` and `sjson` on valid payloads: a string is read as it is; setting one
of the texts sets that and no other member, and gives a valid payload on one line. -/
structure SseJson.Lawful (J : SseJson) (valid : Bytes → Prop) : Prop where
  get_of_str : ∀ {p : Bytes} {q : SsePath} {v : Text}, J.str p q = some v → J.get p q = v
  set_some : ∀ {p : Bytes} {q : SsePath}, valid p → Written J p q → ∀ v : Text,
    ∃ p', J.set p q v = some p'
  valid_set : ∀ {p p' : Bytes} {q : SsePath} {v : Text}, valid p → Written J p q →
    J.set p q v = some p' → valid p'
  str_set : ∀ {p p' : Bytes} {q : SsePath} {v : Text}, valid p → Written J p q →
    J.set p q v = some p' → J.str p' q = some v
  str_apart : ∀ {p p' : Bytes} {q q' : SsePath} {v : Text}, valid p → Written J p q →
    J.set p q v = some p' → q.apart q' = true → J.str p' q' = J.str p q'
  get_apart : ∀ {p p' : Bytes} {q q' : SsePath} {v : Text}, valid p → Written J p q →
    J.set p q v = some p' → q.apart q' = true → J.get p' q' = J.get p q'
  line_set : ∀ {p p' : Bytes} {q : SsePath} {v : Text}, valid p → Written J p q → OneLine p →
    J.set p q v = some p' → OneLine p'

end Client

/-- A frame as the restorer assembles it: lines, the last one blank and no other. -/
structure IsFrame (frame : List Bytes) : Prop where
  lines : ∀ l ∈ frame, IsLine newline l
  block : IsBlock isBlankSSELine frame

def Writes (J : SseJson) (data : Bytes) (xs : List (Channel × Text)) : Prop :=
  ∃ fs : List (List Bytes), data = fs.flatten.flatten ∧ (∀ f ∈ fs, IsFrame f) ∧
    fs.filterMap (deltaOf J) = xs

namespace Writes

variable {J : SseJson}

theorem nil : Writes J [] [] := ⟨[], rfl, fun _ h => absurd h not_mem_nil, rfl⟩

theorem frame {f : List Bytes} (h : IsFrame f) : Writes J f.flatten (deltaOf J f).toList := by
  refine ⟨[f], by simp, fun g hg => mem_singleton.mp hg ▸ h, ?_⟩
  cases hd : deltaOf J f <;> simp [hd]

variable {xs : List (Channel × Text)}

theorem append {a b : Bytes} {ys : List (Channel × Text)} (ha : Writes J a xs) (hb : Writes J b ys)
    : Writes J (a ++ b) (xs ++ ys) := by
  obtain ⟨fs, rfl, hfs, rfl⟩ := ha
  obtain ⟨gs, rfl, hgs, rfl⟩ := hb
  refine ⟨fs ++ gs, by simp, fun f hf => ?_, filterMap_append⟩
  rcases mem_append.mp hf with hf | hf
  · exact hfs f hf
  · exact hgs f hf

theorem clientDeltas_eq {data : Bytes} (h : Writes J data xs) : clientDeltas J data = xs := by
  obtain ⟨fs, rfl, hfs, rfl⟩ := h
  have hlines : ∀ l ∈ fs.flatten, IsLine newline l := by
    intro l hl
    obtain ⟨f, hf, hlf⟩ := mem_flatten.mp hl
    exact (hfs f hf).lines l hlf
  have htake := takeLines_flatten hlines []
  rw [append_nil] at htake
  rw [clientDeltas, htake]
  simp only [takeLines, append_nil, blocks_flatten fun f hf => (hfs f hf).block]

end Writes

/-! ## The data line of a frame -/

theorem sseDataPayload_spec {frame : List Bytes} {d : DataLine}
    (h : sseDataPayload frame = some d) :
    frame = d.pre ++ d.line :: d.post ∧ (∀ l ∈ d.pre, dataBody l = none) ∧
      dataBody d.line = some d.payload ∧ d.payload.head? = some openBrace := by
  fun_induction sseDataPayload frame generalizing d with
  | case1 | case3 => cases h
  | case2 line lines body hb hopen =>
    cases h
    exact ⟨rfl, fun l hl => absurd hl not_mem_nil, hb, hopen⟩
  | case4 line lines hb ih =>
    obtain ⟨d', hd', rfl⟩ := map_eq_some_iff.mp h
    obtain ⟨hframe, hpre, hline, hopen⟩ := ih hd'
    refine ⟨congrArg (line :: ·) hframe, ?_, hline, hopen⟩
    intro l hl
    rcases mem_cons.mp hl with rfl | hl
    · exact hb
    · exact hpre l hl

variable {line : Bytes}

variable {payload payload' : Bytes} {p : UInt8 → Bool}

theorem sseDataPayload_eq {pre : List Bytes} (hpre : ∀ l ∈ pre, dataBody l = none)
    (hline : dataBody line = some payload) (hopen : payload.head? = some openBrace)
    (post : List Bytes) :
    sseDataPayload (pre ++ line :: post) = some ⟨pre, line, payload, post⟩ := by
  induction pre with
  | nil => simp only [nil_append, sseDataPayload, hline, if_pos hopen]
  | cons l pre ih =>
    rw [cons_append, sseDataPayload, hpre l mem_cons_self,
      ih fun l' hl' => hpre l' (mem_cons_of_mem _ hl')]
    rfl

theorem rdropWhile_append_all {a b : Bytes} (hb : ∀ x ∈ b, p x = true) :
    (a ++ b).rdropWhile p = a.rdropWhile p := by
  induction b using List.reverseRecOn with
  | nil => rw [append_nil]
  | append_singleton b x ih =>
    rw [← append_assoc, rdropWhile_concat_pos p _ _ (hb x (by simp))]
    exact ih fun y hy => hb y (by simp [hy])

theorem rdropWhile_eq_self {a : Bytes} (h : ∀ b ∈ a.getLast?, p b = false) :
    a.rdropWhile p = a := by
  induction a using List.reverseRecOn with
  | nil => rfl
  | append_singleton a x _ =>
    refine rdropWhile_concat_neg p _ _ ?_
    have hx := h x (by simp)
    simp [hx]

theorem oneLine_of_dataBody (hl : IsLine newline line) (hline : dataBody line = some payload)
    (hopen : payload.head? = some openBrace) : OneLine payload := by
  obtain ⟨body, hbody, rfl⟩ := hl
  have htrim : (body ++ [newline]).rdropWhile isEOL = body.rdropWhile isEOL :=
    rdropWhile_append_all (by simp [isEOL])
  have hdrop : ∃ k, payload = (body.rdropWhile isEOL).drop k := by
    simp only [dataBody, htrim] at hline
    split at hline
    · exact ⟨6, (some.inj hline).symm⟩
    · split at hline <;> cases hline
      exact ⟨5, rfl⟩
  obtain ⟨k, rfl⟩ := hdrop
  refine ⟨hopen, ?_, ?_⟩
  · intro hmem
    exact hbody (( rdropWhile_prefix isEOL body).subset (mem_of_mem_drop hmem))
  · intro b hb
    rw [getLast?_drop] at hb
    split at hb
    · cases hb
    · have hne : body.rdropWhile isEOL ≠ [] := by
        intro hnil
        rw [hnil] at hb
        cases hb
      have hnot := rdropWhile_last_not isEOL body hne
      rw [getLast?_eq_some_getLast hne] at hb
      cases hb
      exact Bool.eq_false_iff.mpr hnot

theorem dataBody_blank (h : isBlankSSELine line = true) : dataBody line = none := by
  have htrim : line.rdropWhile isEOL = [] :=
    rdropWhile_eq_nil_iff.mpr (all_eq_true.mp h)
  simp only [dataBody, htrim]
  rfl

theorem patched_line (hl : IsLine newline line) (h' : OneLine payload') :
    let line' := asciiBytes "data: " ++ payload' ++ line.rtakeWhile isEOL
    IsLine newline line' ∧ isBlankSSELine line' = false ∧ dataBody line' = some payload' := by
  obtain ⟨body, hbody, rfl⟩ := hl
  have hends : (body ++ [newline]).rtakeWhile isEOL = body.rtakeWhile isEOL ++ [newline] :=
    rtakeWhile_concat_pos isEOL _ _ (by decide)
  have hall : ∀ b ∈ (body ++ [newline]).rtakeWhile isEOL, isEOL b = true :=
    fun b hb => mem_rtakeWhile_imp hb
  refine ⟨⟨asciiBytes "data: " ++ payload' ++ body.rtakeWhile isEOL, ?_, ?_⟩, ?_, ?_⟩
  · simp only [mem_append, not_or]
    refine ⟨⟨by decide, h'.line⟩, fun hmem => ?_⟩
    exact hbody ((rtakeWhile_suffix isEOL body).subset hmem)
  · rw [hends, append_assoc, append_assoc, append_assoc]
  · rfl
  · have hne : payload' ≠ [] := by
      rintro rfl
      cases h'.opens
    have htrim : (asciiBytes "data: " ++ payload' ++ (body ++ [newline]).rtakeWhile isEOL).rdropWhile
        isEOL = asciiBytes "data: " ++ payload' := by
      rw [rdropWhile_append_all hall, rdropWhile_eq_self]
      rw [getLast?_append_of_ne_nil _ hne]
      exact h'.closes
    have hpre : (asciiBytes "data: ").isPrefixOf (asciiBytes "data: " ++ payload') = true :=
      isPrefixOf_iff_prefix.mpr (prefix_append _ _)
    simp only [dataBody, htrim, hpre, if_true]
    rfl

/-- **Rewriting the payload of a frame** gives a frame with that payload. -/
theorem patched_frame {frame : List Bytes} (hf : IsFrame frame) {d : DataLine}
    (hd : sseDataPayload frame = some d) (h' : OneLine payload') :
    IsFrame (d.patched payload') ∧
      ∃ line', sseDataPayload (d.patched payload') = some ⟨d.pre, line', payload', d.post⟩ := by
  obtain ⟨rfl, hpre, hline, hopen⟩ := sseDataPayload_spec hd
  have hl : IsLine newline d.line := hf.lines _ (by simp)
  obtain ⟨hline', hblank', hbody'⟩ := patched_line hl h'
  refine ⟨⟨?_, ?_⟩, _, sseDataPayload_eq hpre hbody' h'.opens d.post⟩
  · intro l hmem
    rcases mem_append.mp hmem with hmem | hmem
    · exact hf.lines l (mem_append_left _ hmem)
    · rcases mem_cons.mp hmem with rfl | hmem
      · exact hline'
      · exact hf.lines l (mem_append_right _ (mem_cons_of_mem _ hmem))
  · -- the data line is not the blank one, so it is in front of it
    obtain ⟨body, last, hblock, hbody, hlast⟩ := hf.block
    have hnot : isBlankSSELine d.line = false := by
      rw [Bool.eq_false_iff]
      intro hblank
      rw [dataBody_blank hblank] at hline
      cases hline
    rcases eq_nil_or_concat d.post with hpost | ⟨post, x, hpost⟩
    · rw [hpost] at hblock
      have hx := (append_inj' hblock rfl).2
      rw [singleton_inj.mp hx, hlast] at hnot
      cases hnot
    · rw [hpost, concat_eq_append, ← cons_append, ← append_assoc] at hblock
      obtain ⟨hb, hx⟩ := append_inj' hblock rfl
      rw [← hb] at hbody
      refine ⟨d.pre ++ (asciiBytes "data: " ++ payload' ++ d.line.rtakeWhile isEOL) :: post, x, ?_,
        ?_, singleton_inj.mp hx ▸ hlast⟩
      · simp [DataLine.patched, hpost]
      · intro l hmem
        rcases mem_append.mp hmem with hmem | hmem
        · exact hbody l (mem_append_left _ hmem)
        · rcases mem_cons.mp hmem with rfl | hmem
          · exact hblank'
          · exact hbody l (mem_append_right _ (mem_cons_of_mem _ hmem))

/-! ## Frames that are rewritten -/

section Rewrite

variable {J : SseJson} {valid : Bytes → Prop}

variable {d : DataLine} {frame : List Bytes} {path : SsePath}

theorem oneLine_payload (hf : IsFrame frame) (hd : sseDataPayload frame = some d) :
    OneLine d.payload := by
  obtain ⟨hframe, -, hline, hopen⟩ := sseDataPayload_spec hd
  exact oneLine_of_dataBody (hf.lines _ (by rw [hframe]; simp)) hline hopen

theorem frameKind_delta (h : frameKind J frame = .delta d path) :
    sseDataPayload frame = some d ∧ doneText J d.payload = none ∧
      sseTextFieldPath J d.payload = some path := by
  rw [frameKind] at h
  cases hd : sseDataPayload frame with
  | none => simp [hd] at h
  | some d' =>
    cases hdone : doneText J d'.payload with
    | some text => simp [hd, hdone] at h
    | none =>
      cases hpath : sseTextFieldPath J d'.payload with
      | none => simp [hd, hdone, hpath] at h
      | some path' =>
        simp only [hd, hdone, hpath, FrameKind.delta.injEq] at h
        obtain ⟨rfl, rfl⟩ := h
        exact ⟨rfl, hdone, hpath⟩

variable {payload payload' : Bytes}

theorem sseTextFieldPath_cases (h : sseTextFieldPath J payload = some path) :
    (path = .deltaText ∧ J.get payload .type = "content_block_delta".toList ∧
        J.get payload .deltaType = "text_delta".toList) ∨
      (path = .delta ∧ J.get payload .type ≠ "content_block_delta".toList ∧
        J.get payload .type = "response.output_text.delta".toList) ∨
      (path = .content ∧ J.get payload .type ≠ "content_block_delta".toList ∧
        J.get payload .type ≠ "response.output_text.delta".toList) := by
  revert h
  fun_cases sseTextFieldPath J payload <;> intro h <;> cases h
  next h1 h2 => exact .inl ⟨rfl, h1, h2⟩
  next h1 h2 _ => exact .inr (.inl ⟨rfl, h1, h2⟩)
  next h1 h2 _ => exact .inr (.inr ⟨rfl, h1, h2⟩)

theorem set_delta (hJ : J.Lawful valid) {v : Text} (hv : valid payload)
    (hdone : doneText J payload = none) (hpath : sseTextFieldPath J payload = some path)
    (hset : J.set payload path v = some payload') :
    doneText J payload' = none ∧ sseTextFieldPath J payload' = some path ∧
      channelOf J path payload' = channelOf J path payload ∧ J.get payload' path = v := by
  have hw : Written J payload path := .inl hpath
  have hstr := hJ.str_set hv hw hset
  have hget : ∀ q, path.apart q = true → J.get payload' q = J.get payload q :=
    fun q hq => hJ.get_apart hv hw hset hq
  rcases sseTextFieldPath_cases hpath with ⟨rfl, h1, h2⟩ | ⟨rfl, h1, h2⟩ | ⟨rfl, h1, h2⟩
  all_goals
    have htype := hget .type (by decide)
    have htext : J.str payload' .text = J.str payload .text :=
      hJ.str_apart hv hw hset (by decide)
    refine ⟨by rw [doneText, htype, htext]; exact hdone, ?_, ?_, hJ.get_of_str hstr⟩
  · rw [sseTextFieldPath, htype, hget .deltaType (by decide), if_pos h1, if_pos h2]
  · simp only [channelOf, channelIndex, hget .index (by decide)]
  · rw [sseTextFieldPath, htype, if_neg h1, if_pos h2, hstr]
    rfl
  · simp only [channelOf, channelIndex, hget .outputIndex (by decide)]
  · rw [sseTextFieldPath, htype, if_neg h1, if_neg h2, hstr]
    rfl
  · simp only [channelOf, channelIndex, hget .choiceIndex (by decide)]

theorem patched_delta (hJ : J.Lawful valid) (hf : IsFrame frame)
    (hkind : frameKind J frame = .delta d path) (hv : valid d.payload) (v : Text) :
    ∃ payload', J.set d.payload path v = some payload' ∧ IsFrame (d.patched payload') ∧
      deltaOf J (d.patched payload') = some (channelOf J path d.payload, v) := by
  obtain ⟨hd, hdone, hpath⟩ := frameKind_delta hkind
  have hw : Written J d.payload path := .inl hpath
  obtain ⟨payload', hset⟩ := hJ.set_some hv hw v
  obtain ⟨hframe', line', hd'⟩ := patched_frame hf hd
    (hJ.line_set hv hw (oneLine_payload hf hd) hset)
  obtain ⟨hdone', hpath', hchan, hget⟩ := set_delta hJ hv hdone hpath hset
  refine ⟨payload', hset, hframe', ?_⟩
  simp only [deltaOf, frameKind, hd', hdone', hpath', hchan, hget]

theorem patched_done (hJ : J.Lawful valid) (hf : IsFrame frame) {text : Text}
    (hkind : frameKind J frame = .done d text) (hv : valid d.payload) {v : Text}
    (hset : J.set d.payload .text v = some payload') :
    IsFrame (d.patched payload') ∧ deltaOf J (d.patched payload') = none := by
  have hspec : sseDataPayload frame = some d ∧ doneText J d.payload = some text := by
    rw [frameKind] at hkind
    cases hd : sseDataPayload frame with
    | none => simp [hd] at hkind
    | some d' =>
      cases hdone : doneText J d'.payload with
      | some text' =>
        simp only [hd, hdone, FrameKind.done.injEq] at hkind
        obtain ⟨rfl, rfl⟩ := hkind
        exact ⟨rfl, hdone⟩
      | none =>
        cases hpath : sseTextFieldPath J d'.payload <;> simp [hd, hdone, hpath] at hkind
  obtain ⟨hd, hdone⟩ := hspec
  rw [doneText] at hdone
  split at hdone
  case isFalse => cases hdone
  case isTrue htype =>
    have hw : Written J d.payload .text := .inr ⟨rfl, by rw [hdone]; rfl⟩
    obtain ⟨hframe', line', hd'⟩ := patched_frame hf hd
      (hJ.line_set hv hw (oneLine_payload hf hd) hset)
    have hdone' : doneText J payload' = some v := by
      rw [doneText, hJ.get_apart hv hw hset (by decide), if_pos htype, hJ.str_set hv hw hset]
    refine ⟨hframe', ?_⟩
    simp only [deltaOf, frameKind, hd', hdone']

end Rewrite

/-! ## The relay -/

structure Withheld where
  carry : Text
  owner : Option Channel

/-- Take a delta: what was withheld before goes in front of it, and what is withheld now is
kept back. -/
def withhold (st : MaskRestore) (w : Withheld) (x : Channel × Text) :
    Withheld × (Channel × Text) :=
  let replaced := st.restore (w.carry ++ x.2)
  let hold := st.holdback replaced
  (⟨hold, some x.1⟩, (x.1, replaced.take (replaced.length - hold.length)))

def release (w : Withheld) : List (Channel × Text) :=
  match w.owner with
  | some ch => if w.carry = [] then [] else [(ch, w.carry)]
  | none => []

def relay (st : MaskRestore) : Withheld → List (Channel × Text) → List (Channel × Text)
  | w, [] => release w
  | w, x :: xs => (withhold st w x).2 :: relay st (withhold st w x).1 xs

section Relay

variable {J : SseJson} {valid : Bytes → Prop} {st : MaskRestore}

def Deltas (J : SseJson) (valid : Bytes → Prop) (frame : List Bytes) : Prop :=
  IsFrame frame ∧ ∃ d path, frameKind J frame = .delta d path ∧ valid d.payload

/-- The restorer and the relay withhold the same text, and the restorer has a frame to let it
out in. -/
structure Carries (J : SseJson) (valid : Bytes → Prop) (h : SseHeld) (w : Withheld) : Prop where
  carry : h.carry = w.carry
  template : h.carry ≠ [] → ∃ frame d path, h.template = some (frame, path) ∧ IsFrame frame ∧
    frameKind J frame = .delta d path ∧ valid d.payload ∧
      w.owner = some (channelOf J path d.payload)

theorem flushCarry_carry (J : SseJson) (h : SseHeld) : (flushCarry J h).1.carry = [] := by
  unfold flushCarry
  by_cases hc : h.carry = []
  · rw [if_pos hc]
    exact hc
  · rw [if_neg hc]
    cases h.template with
    | none => rfl
    | some t =>
      obtain ⟨template, path⟩ := t
      dsimp only
      cases sseDataPayload template with
      | none => rfl
      | some d =>
        dsimp only
        cases J.set d.payload path h.carry <;> rfl

variable {w : Withheld} {h : SseHeld} {frame : List Bytes} {tail : Option (List Bytes)}

theorem release_nil (h : w.carry = []) : release w = [] := by
  unfold release
  cases w.owner with
  | none => rfl
  | some ch => exact if_pos h

theorem flushCarry_writes (hJ : J.Lawful valid) (hc : Carries J valid h w) :
    Writes J (flushCarry J h).2 (release w) := by
  by_cases hcarry : h.carry = []
  · rw [flushCarry, if_pos hcarry, release_nil (hc.carry ▸ hcarry)]
    exact .nil
  · obtain ⟨frame, d, path, htemplate, hframe, hkind, hv, howner⟩ := hc.template hcarry
    obtain ⟨payload', hset, hframe', hdelta⟩ := patched_delta hJ hframe hkind hv h.carry
    have hout : (flushCarry J h).2 = (d.patched payload').flatten := by
      simp only [flushCarry, if_neg hcarry, htemplate, (frameKind_delta hkind).1, hset]
    have hrel : release w = (deltaOf J (d.patched payload')).toList := by
      rw [release, howner, hdelta, hc.carry]
      exact if_neg (hc.carry ▸ hcarry)
    rw [hout, hrel]
    exact .frame hframe'

theorem passFrame_writes (hJ : J.Lawful valid) (hc : Carries J valid h w) (hframe : IsFrame frame)
    (hother : deltaOf J frame = none) : Writes J (passFrame J h frame).2 (release w) := by
  have hboth := (flushCarry_writes hJ hc).append (.frame hframe)
  rw [hother, toList_none, append_nil] at hboth
  exact hboth

/-- **One text frame** comes out as one text frame, on its channel, with the text the relay
gives it. -/
theorem processFrame_withhold (st : MaskRestore) (hJ : J.Lawful valid) (hc : Carries J valid h w)
    (hframe : IsFrame frame) {d : DataLine} {path : SsePath}
    (hkind : frameKind J frame = .delta d path) (hv : valid d.payload) :
    let x := (channelOf J path d.payload, J.get d.payload path)
    Writes J (processFrame J st h frame).2 [(withhold st w x).2] ∧
      Carries J valid (processFrame J st h frame).1 (withhold st w x).1 := by
  intro x
  have htemplate : ∀ hold : Text, Carries J valid ⟨hold, some (frame, path)⟩ ⟨hold, some x.1⟩ :=
    fun hold => ⟨rfl, fun _ => ⟨frame, d, path, rfl, hframe, hkind, hv, rfl⟩⟩
  by_cases hpass : h.carry = [] ∧
      st.holdback (st.restore (h.carry ++ J.get d.payload path)) = [] ∧
      st.restore (h.carry ++ J.get d.payload path) = h.carry ++ J.get d.payload path
  · -- the frame goes out as it came in
    obtain ⟨hcarry, hhold, hsame⟩ := hpass
    have hout : processFrame J st h frame =
        ({ h with template := some (frame, path) }, frame.flatten) := by
      simp only [processFrame, hkind]
      rw [if_pos ⟨hcarry, hhold, hsame⟩]
    have hwith : withhold st w x = (⟨[], some x.1⟩, x) := by
      rw [hcarry, nil_append] at hhold hsame
      rw [hsame] at hhold
      simp only [withhold, ← hc.carry, hcarry, nil_append, x, hsame, hhold,
        length_nil, Nat.sub_zero, take_length]
    have hdelta : deltaOf J frame = some x := by simp only [deltaOf, hkind, x]
    rw [hout, hwith, hcarry]
    refine ⟨?_, htemplate []⟩
    have hwrites := Writes.frame (J := J) hframe
    rwa [hdelta] at hwrites
  · obtain ⟨payload', hset, hframe', hdelta⟩ := patched_delta hJ hframe hkind hv
      ((st.restore (h.carry ++ J.get d.payload path)).take
        ((st.restore (h.carry ++ J.get d.payload path)).length -
          (st.holdback (st.restore (h.carry ++ J.get d.payload path))).length))
    have hout : processFrame J st h frame =
        (⟨st.holdback (st.restore (h.carry ++ J.get d.payload path)), some (frame, path)⟩,
          (d.patched payload').flatten) := by
      simp only [processFrame, hkind]
      rw [if_neg hpass, hset]
    rw [hout, withhold, ← hc.carry]
    refine ⟨?_, htemplate _⟩
    have hwrites := Writes.frame (J := J) hframe'
    rwa [hdelta] at hwrites

theorem processFrame_boundary (st : MaskRestore) (hJ : J.Lawful valid) (hc : Carries J valid h w)
    (hframe : IsFrame frame) (hother : deltaOf J frame = none)
    (hv : ∀ d text, frameKind J frame = .done d text → valid d.payload) :
    Writes J (processFrame J st h frame).2 (release w) ∧
      (processFrame J st h frame).1.carry = [] := by
  have hpass : ∃ frame', IsFrame frame' ∧ deltaOf J frame' = none ∧
      processFrame J st h frame = passFrame J h frame' := by
    cases hkind : frameKind J frame with
    | other => exact ⟨frame, hframe, hother, by simp only [processFrame, hkind]⟩
    | delta d path => simp [deltaOf, hkind] at hother
    | done d text =>
      by_cases hsame : st.restore text = text
      · exact ⟨frame, hframe, hother, by simp only [processFrame, hkind, if_pos hsame]⟩
      · cases hset : J.set d.payload .text (st.restore text) with
        | none =>
          exact ⟨frame, hframe, hother, by simp only [processFrame, hkind, if_neg hsame, hset]⟩
        | some payload' =>
          obtain ⟨hframe', hother'⟩ := patched_done hJ hframe hkind (hv d text hkind) hset
          exact ⟨_, hframe', hother', by simp only [processFrame, hkind, if_neg hsame, hset]⟩
  obtain ⟨frame', hframe', hother', hout⟩ := hpass
  rw [hout]
  exact ⟨passFrame_writes hJ hc hframe' hother', flushCarry_carry J h⟩

/-! ## Whole streams -/

theorem pushLines_frame (hf : IsFrame frame) (h : SseHeld) (lines : List Bytes) :
    pushLines J st [] h (frame ++ lines) =
      ((pushLines J st [] (processFrame J st h frame).1 lines).1,
        (processFrame J st h frame).2 ++
          (pushLines J st [] (processFrame J st h frame).1 lines).2) := by
  obtain ⟨body, last, rfl, hbody, hlast⟩ := hf.block
  have hlines : ∀ (body cur : List Bytes), (∀ l ∈ body, isBlankSSELine l = false) →
      ∀ rest, pushLines J st cur h (body ++ rest) = pushLines J st (cur ++ body) h rest := by
    intro body
    induction body with
    | nil => intro cur _ rest; rw [append_nil]; rfl
    | cons l body ih =>
      intro cur hb rest
      have hl : isBlankSSELine l = false := hb l mem_cons_self
      rw [cons_append, pushLines, hl, if_neg Bool.false_ne_true,
        ih _ (fun l' hl' => hb l' (mem_cons_of_mem _ hl')), append_assoc]
      rfl
  rw [append_assoc, hlines body [] hbody, singleton_append, nil_append]
  simp only [pushLines, hlast, if_true]

structure Boundary (J : SseJson) (valid : Bytes → Prop) (frame : List Bytes) : Prop where
  isFrame : IsFrame frame
  other : deltaOf J frame = none
  done : ∀ d text, frameKind J frame = .done d text → valid d.payload

theorem pushLines_relay (st : MaskRestore) (hJ : J.Lawful valid)
    (htail : ∀ f ∈ tail, Boundary J valid f) :
    ∀ {fs : List (List Bytes)} {h : SseHeld} {w : Withheld}, (∀ f ∈ fs, Deltas J valid f) →
      Carries J valid h w →
      let r := pushLines J st [] h (fs.flatten ++ tail.toList.flatten)
      r.1.1 = [] ∧
        Writes J (r.2 ++ (flushCarry J r.1.2).2) (relay st w (fs.filterMap (deltaOf J))) := by
  intro fs
  induction fs with
  | nil =>
    intro h w _ hc
    cases tail with
    | none =>
      refine ⟨rfl, ?_⟩
      exact flushCarry_writes hJ hc
    | some f =>
      obtain ⟨hframe, hother, hdone⟩ := htail f rfl
      obtain ⟨hwrites, hcarry⟩ := processFrame_boundary st hJ hc hframe hother hdone
      have hlines : (([] : List (List Bytes)).flatten ++ (some f).toList.flatten) = f ++ [] := by
        simp
      rw [hlines, pushLines_frame hframe]
      refine ⟨rfl, ?_⟩
      have hflush : (flushCarry J (processFrame J st h f).1).2 = [] := by
        rw [flushCarry, if_pos hcarry]
      simp only [pushLines, append_nil, hflush]
      exact hwrites
  | cons f fs ih =>
    intro h w hfs hc
    obtain ⟨hframe, d, path, hkind, hv⟩ := hfs f mem_cons_self
    obtain ⟨hwrites, hc'⟩ := processFrame_withhold st hJ hc hframe hkind hv
    obtain ⟨hnil, hrest⟩ := ih (fun g hg => hfs g (mem_cons_of_mem _ hg)) hc'
    have hdelta : deltaOf J f = some (channelOf J path d.payload, J.get d.payload path) := by
      simp only [deltaOf, hkind]
    rw [flatten_cons, append_assoc, pushLines_frame hframe]
    refine ⟨hnil, ?_⟩
    rw [filterMap_cons, hdelta, append_assoc]
    exact hwrites.append hrest

variable {fs : List (List Bytes)}

/-- **The restorer relays.** The client of a restored stream of deltas finds the deltas the
relay makes of them. -/
theorem clientDeltas_relay (hJ : J.Lawful valid) (hkeys : st.keys ≠ [])
    (hfs : ∀ f ∈ fs, Deltas J valid f) (htail : ∀ f ∈ tail, Boundary J valid f) :
    clientDeltas J (restoredBytes J st (fs ++ tail.toList).flatten.flatten) =
      relay st ⟨[], none⟩ (fs.filterMap (deltaOf J)) := by
  have hlines : ∀ l ∈ (fs ++ tail.toList).flatten, IsLine newline l := by
    intro l hl
    obtain ⟨f, hf, hlf⟩ := mem_flatten.mp hl
    rcases mem_append.mp hf with hf | hf
    · exact (hfs f hf).1.lines l hlf
    · exact (htail f (mem_toList.mp hf)).isFrame.lines l hlf
  have htake := takeLines_flatten hlines []
  rw [append_nil] at htake
  obtain ⟨hnil, hwrites⟩ := pushLines_relay st hJ htail hfs
    (⟨rfl, fun h => absurd rfl h⟩ : Carries J valid ⟨[], none⟩ ⟨[], none⟩)
  rw [← flatten_append] at hnil hwrites
  refine Writes.clientDeltas_eq ?_
  rw [restoredBytes, if_neg hkeys, restoredFrom, feed, SseCore.initial]
  simp only [nil_append, assembleFrames, htake, takeLines, append_nil, finish, hnil,
    flatten_nil]
  exact hwrites

theorem clientDeltas_empty (hkeys : st.keys = []) (hfs : ∀ f ∈ fs, Deltas J valid f)
    (htail : ∀ f ∈ tail, Boundary J valid f) :
    clientDeltas J (restoredBytes J st (fs ++ tail.toList).flatten.flatten) =
      fs.filterMap (deltaOf J) := by
  refine Writes.clientDeltas_eq ⟨fs ++ tail.toList, ?_, ?_, ?_⟩
  · rw [restoredBytes, if_pos hkeys]
  · intro f hf
    rcases mem_append.mp hf with hf | hf
    · exact (hfs f hf).1
    · exact (htail f (mem_toList.mp hf)).isFrame
  · have hnone : tail.toList.filterMap (deltaOf J) = [] := by
      refine filterMap_eq_nil_iff.mpr fun f hf => ?_
      exact (htail f (mem_toList.mp hf)).other
    rw [filterMap_append, hnone, append_nil]

end Relay

/-! ## Streams of deltas, as they are read -/

/-- Frames with text deltas, then a frame of another kind or the end, and the reads that the
bytes of the stream come in. -/
structure DeltaStream (J : SseJson) (valid : Bytes → Prop) where
  frames : List (List Bytes)
  tail : Option (List Bytes)
  upstream : List UpstreamRead
  isDeltas : ∀ f ∈ frames, Deltas J valid f
  isBoundary : ∀ f ∈ tail, Boundary J valid f
  bytes : (upstreamBytes upstream).1 = (frames ++ tail.toList).flatten.flatten

namespace DeltaStream

variable {J : SseJson} {valid : Bytes → Prop}

variable (S : DeltaStream J valid)

def deltas : List (Channel × Text) := S.frames.filterMap (deltaOf J)

/-- The client reads a stream with the deltas `ys`, whatever its buffers; the stream ends as
the upstream one does. -/
def Delivers (st : MaskRestore) (ys : List (Channel × Text)) : Prop :=
  ∃ out, clientDeltas J out = ys ∧
    ∀ sizes : List Nat, (∀ n ∈ sizes, 0 < n) → out.length < sizes.length →
      readRestored J st S.upstream sizes = some (out, (upstreamBytes S.upstream).2)

def relayed (st : MaskRestore) : List (Channel × Text) :=
  if st.keys = [] then S.deltas else relay st ⟨[], none⟩ S.deltas

/-- **The reader relays.** -/
theorem delivers_relayed (hJ : J.Lawful valid) (S : DeltaStream J valid) (st : MaskRestore) :
    S.Delivers st (S.relayed st) := by
  refine ⟨restoredBytes J st (upstreamBytes S.upstream).1, ?_, ?_⟩
  · rw [S.bytes, relayed]
    by_cases hkeys : st.keys = []
    · rw [if_pos hkeys]
      exact clientDeltas_empty hkeys S.isDeltas S.isBoundary
    · rw [if_neg hkeys]
      exact clientDeltas_relay hJ hkeys S.isDeltas S.isBoundary
  · intro sizes hpos hlen
    exact readRestored_eq S.upstream hpos hlen

theorem Delivers.unique {S : DeltaStream J valid} {st : MaskRestore} {ys zs : List (Channel × Text)}
    (hy : S.Delivers st ys) (hz : S.Delivers st zs) : ys = zs := by
  obtain ⟨out, rfl, hout⟩ := hy
  obtain ⟨out', rfl, hout'⟩ := hz
  -- buffers of one byte, enough of them for both
  let sizes := List.replicate (out.length + out'.length + 1) 1
  have hpos : ∀ n ∈ sizes, 0 < n := by
    intro n hn
    rw [eq_of_mem_replicate hn]
    decide
  have hlen : sizes.length = out.length + out'.length + 1 := length_replicate
  have h := hout sizes hpos (by omega)
  rw [hout' sizes hpos (by omega)] at h
  cases h
  rfl

end DeltaStream

end AikeyProxy.Proxy
