import AikeyProxy.Lib.JsonPath
import AikeyProxy.Lib.Utf8
import AikeyProxy.Proof.SseFrames

/-!
# Payloads as JSON documents

A reader and writer of JSON documents in UTF-8 that is `Lawful`, so what the event stream's theorems
assume of `gjson` and `sjson` can be met, and the frames of a chat stream, written with it.
-/

namespace AikeyProxy.Proxy

open Lib List Option Json SsePath

def stringOf : Json → Option Text
  | .str s => some s.toList
  | _ => none

/-- A value as a text: a string without its quotes, nothing for `null`. -/
def textOf : Json → Text
  | .str s => s.toList
  | .null => []
  | j => Json.print j

def documents : SseJson where
  str p q := ((payloadJson p).bind (Json.follow q.steps)).bind stringOf
  get p q := (((payloadJson p).bind (Json.follow q.steps)).map textOf).getD []
  set p q v := ((payloadJson p).bind (Json.setAt q.steps (.str (String.ofList v)))).map payloadBytes

def IsDocument (p : Bytes) : Prop :=
  ∃ ms, payloadJson p = some (.obj ms) ∧ Json.Valid (.obj ms)

variable {ms : Json.Members}

theorem not_isEOL_of_printable {b : UInt8} (hb : 0x20 ≤ b.toNat) : isEOL b = false := by
  rw [Bool.eq_false_iff]
  intro heol
  rcases Bool.or_eq_true_iff.mp heol with h | h
  · rw [eq_of_beq h] at hb
    exact absurd hb (by decide)
  · rw [eq_of_beq h] at hb
    exact absurd hb (by decide)

theorem oneLine_payloadBytes (hv : Json.Valid (.obj ms)) : OneLine (payloadBytes (.obj ms)) := by
  have hprint := payloadBytes_printable hv
  refine ⟨?_, ?_, ?_⟩
  · obtain ⟨cs, hcs⟩ := print_obj ms
    rw [payloadBytes, hcs]
    rfl
  · intro hmem
    exact absurd (hprint newline hmem) (by decide)
  · intro b hb
    exact not_isEOL_of_printable (hprint b (mem_of_getLast? hb))

theorem stringOf_eq_some {j : Json} {v : Text} (h : stringOf j = some v) : textOf j = v := by
  cases j with
  | str s => exact some.inj h
  | _ => cases h

section Read

variable {p : Bytes} {j : Json} (hj : payloadJson p = some j)

include hj

theorem documents_str (q : SsePath) :
    documents.str p q = (Json.follow q.steps j).bind stringOf := by
  simp only [documents, hj, bind_some]

theorem documents_get (q : SsePath) :
    documents.get p q = ((Json.follow q.steps j).map textOf).getD [] := by
  simp only [documents, hj, bind_some]

theorem documents_set {q : SsePath} {v : Text} {p' : Bytes} (hset : documents.set p q v = some p') :
    ∃ j', Json.setAt q.steps (.str (String.ofList v)) j = some j' ∧ p' = payloadBytes j' := by
  simp only [documents, hj, bind_some] at hset
  obtain ⟨j', hj', rfl⟩ := map_eq_some_iff.mp hset
  exact ⟨j', hj', rfl⟩

end Read

variable {q : SsePath}

theorem documents_set_obj {p p' : Bytes} {v : Text} (hp : IsDocument p)
    (hset : documents.set p q v = some p') :
    ∃ ms ms', payloadJson p = some (.obj ms) ∧ Json.Valid (.obj ms') ∧ p' = payloadBytes (.obj ms') ∧
      Json.setAt q.steps (.str (String.ofList v)) (.obj ms) = some (.obj ms') := by
  obtain ⟨ms, hj, hvalid⟩ := hp
  obtain ⟨j', hj', rfl⟩ := documents_set hj hset
  have hobj : ∃ ms', j' = .obj ms' := by
    cases q <;> exact setAt_obj hj'
  obtain ⟨ms', rfl⟩ := hobj
  have hstr : Json.Valid (.str (String.ofList v)) := trivial
  exact ⟨ms, ms', hj, valid_setAt hstr hvalid hj', rfl, hj'⟩

theorem documents_set_some {p : Bytes} (hp : IsDocument p) (hw : Written documents p q) (v : Text) :
    ∃ p', documents.set p q v = some p' := by
  obtain ⟨ms, hj, -⟩ := hp
  have hthere : (documents.str p q).isSome = true →
      ∃ j', setAt q.steps (.str (String.ofList v)) (.obj ms) = some j' := by
    intro hstr
    rw [documents_str hj] at hstr
    obtain ⟨w, hw⟩ := isSome_iff_exists.mp hstr
    obtain ⟨x, hx, -⟩ := bind_eq_some_iff.mp hw
    exact setAt_of_follow _ hx
  have hset : ∃ j', setAt q.steps (.str (String.ofList v)) (.obj ms) = some j' := by
    rcases hw with hpath | ⟨rfl, htext⟩
    · revert hpath
      fun_cases sseTextFieldPath documents p <;> rintro ⟨⟩
      next htype => -- an Anthropic delta may lack its text; its type is there
        rw [documents_get hj] at htype
        cases hfollow : follow deltaType.steps (.obj ms) with
        | none =>
          rw [hfollow] at htype
          exact absurd htype (by decide)
        | some x => exact setAt_sibling _ (by decide) hfollow
      next hstr => exact hthere hstr
      next hstr => exact hthere hstr
    · exact hthere htext
  obtain ⟨j', hj'⟩ := hset
  exact ⟨payloadBytes j', by simp only [documents, hj, bind_some, hj', map_some]⟩

theorem apart_steps {q' : SsePath} (h : q.apart q' = true) :
    ¬ q.steps <+: q'.steps ∧ ¬ q'.steps <+: q.steps := by
  rw [apart, Bool.and_eq_true, Bool.not_eq_true', Bool.not_eq_true'] at h
  refine ⟨fun hpre => ?_, fun hpre => ?_⟩
  · rw [ isPrefixOf_iff_prefix.mpr hpre] at h
    exact absurd h.1 (by decide)
  · rw [ isPrefixOf_iff_prefix.mpr hpre] at h
    exact absurd h.2 (by decide)

/-- **JSON documents meet what is assumed** of `gjson` and `sjson`. -/
theorem documents_lawful : documents.Lawful IsDocument where
  get_of_str := by
    intro p q v h
    obtain ⟨x, hx, hstr⟩ := bind_eq_some_iff.mp h
    simp only [documents, hx, map_some, getD_some]
    exact stringOf_eq_some hstr
  set_some := fun hp hw v => documents_set_some hp hw v
  valid_set := by
    intro p p' q v hp _ hset
    obtain ⟨ms, ms', -, hvalid, rfl, -⟩ := documents_set_obj hp hset
    exact ⟨_, payloadJson_payloadBytes hvalid, hvalid⟩
  str_set := by
    intro p p' q v hp _ hset
    obtain ⟨ms, ms', -, hvalid, rfl, hat⟩ := documents_set_obj hp hset
    rw [documents_str (payloadJson_payloadBytes hvalid), follow_setAt hat, bind_some,
      stringOf, String.toList_ofList]
  str_apart := by
    intro p p' q q' v hp _ hset hapart
    obtain ⟨ms, ms', hj, hvalid, rfl, hat⟩ := documents_set_obj hp hset
    obtain ⟨h, h'⟩ := apart_steps hapart
    rw [documents_str (payloadJson_payloadBytes hvalid), documents_str hj,
      follow_setAt_apart hat h h']
  get_apart := by
    intro p p' q q' v hp _ hset hapart
    obtain ⟨ms, ms', hj, hvalid, rfl, hat⟩ := documents_set_obj hp hset
    obtain ⟨h, h'⟩ := apart_steps hapart
    rw [documents_get (payloadJson_payloadBytes hvalid), documents_get hj,
      follow_setAt_apart hat h h']
  line_set := by
    intro p p' q v hp _ _ hset
    obtain ⟨ms, ms', -, hvalid, rfl, -⟩ := documents_set_obj hp hset
    exact oneLine_payloadBytes hvalid

/-! ## The frames of a chat stream -/

variable (index : Nat) (text : Text)

def chatDelta : Json.Members :=
  [("choices", .arr [.obj [("index", .num (Nat.toDigits 10 index)),
    ("delta", .obj [("content", .str (String.ofList text))])]])]

def chatFrame : List Bytes :=
  [asciiBytes "data: " ++ payloadBytes (.obj (chatDelta index text)) ++ [newline], [newline]]

def chatChannel (index : Nat) : Channel := (.content, Nat.toDigits 10 index)

theorem valid_chatDelta : Json.Valid (.obj (chatDelta index text)) := by
  simp [chatDelta, Json.Valid, Json.ValidItems, Json.ValidMembers, isNumber_toDigits,
    all_isNumberChar_toDigits]

theorem isFrame_dataLine {payload : Bytes} (h : OneLine payload) :
    IsFrame [asciiBytes "data: " ++ payload ++ [newline], [newline]] ∧
      ∃ d, sseDataPayload [asciiBytes "data: " ++ payload ++ [newline], [newline]] = some d ∧
        d.payload = payload := by
  have hempty : IsLine newline [newline] := ⟨[], not_mem_nil, rfl⟩
  have hends : [newline].rtakeWhile isEOL = [newline] := by decide
  obtain ⟨hline, hblank, hbody⟩ := patched_line hempty h
  rw [hends] at hline hblank hbody
  refine ⟨⟨?_, [asciiBytes "data: " ++ payload ++ [newline]], [newline], rfl, ?_, by decide⟩, ?_⟩
  · intro l hl
    rcases mem_pair.mp hl with rfl | rfl
    · exact hline
    · exact hempty
  · intro l hl
    rw [mem_singleton.mp hl]
    exact hblank
  · exact ⟨_, sseDataPayload_eq (fun l hl => absurd hl not_mem_nil) hbody h.opens _, rfl⟩

section Chat

variable (index : Nat) (text : Text)

theorem follow_chatDelta :
    Json.follow SsePath.type.steps (.obj (chatDelta index text)) = none ∧
    Json.follow SsePath.content.steps (.obj (chatDelta index text)) =
      some (.str (String.ofList text)) ∧
    Json.follow SsePath.choiceIndex.steps (.obj (chatDelta index text)) =
      some (.num (Nat.toDigits 10 index)) := by
  refine ⟨?_, ?_, ?_⟩ <;>
    simp [steps, chatDelta, follow, step_obj, step_first, memberAt]

theorem documents_chatDelta {p : Bytes} (hj : payloadJson p = some (.obj (chatDelta index text))) :
    doneText documents p = none ∧ sseTextFieldPath documents p = some .content ∧
      channelOf documents .content p = chatChannel index ∧ documents.get p .content = text := by
  obtain ⟨hnone, hsome, hindex⟩ := follow_chatDelta index text
  have htype : documents.get p .type = [] := by
    rw [documents_get hj, hnone]
    rfl
  have hcontent : documents.str p .content = some text := by
    rw [documents_str hj, hsome, bind_some, stringOf, String.toList_ofList]
  have hget : documents.get p .choiceIndex = Nat.toDigits 10 index := by
    rw [documents_get hj, hindex]
    simp only [map_some, getD_some, textOf, print]
  refine ⟨?_, ?_, congrArg (Prod.mk content) hget, documents_lawful.get_of_str hcontent⟩
  · rw [doneText, htype, if_neg (by decide)]
  · rw [sseTextFieldPath, htype, if_neg (by decide), if_neg (by decide), hcontent]
    rfl

theorem frameKind_chatFrame :
    ∃ d, frameKind documents (chatFrame index text) = .delta d .content ∧ IsDocument d.payload ∧
      channelOf documents .content d.payload = chatChannel index ∧
      documents.get d.payload .content = text := by
  have hvalid := valid_chatDelta index text
  obtain ⟨-, d, hd, hpayload⟩ := isFrame_dataLine (oneLine_payloadBytes hvalid)
  have hj : payloadJson d.payload = some (.obj (chatDelta index text)) := by
    rw [hpayload, payloadJson_payloadBytes hvalid]
  obtain ⟨hdone, hpath, hchannel, htext⟩ := documents_chatDelta index text hj
  refine ⟨d, ?_, ⟨_, hj, hvalid⟩, hchannel, htext⟩
  rw [frameKind, chatFrame, hd]
  simp only [hdone, hpath]

theorem deltas_chatFrame : Deltas documents IsDocument (chatFrame index text) := by
  obtain ⟨d, hkind, hdoc, -, -⟩ := frameKind_chatFrame index text
  exact ⟨(isFrame_dataLine (oneLine_payloadBytes (valid_chatDelta index text))).1, d, _, hkind, hdoc⟩

theorem deltaOf_chatFrame :
    deltaOf documents (chatFrame index text) = some (chatChannel index, text) := by
  obtain ⟨d, hkind, -, hchannel, htext⟩ := frameKind_chatFrame index text
  simp only [deltaOf, hkind, hchannel, htext]

end Chat

def chatStream (xs : List (Nat × Text)) : DeltaStream documents IsDocument where
  frames := xs.map fun x => chatFrame x.1 x.2
  tail := none
  upstream := [⟨(xs.map fun x => chatFrame x.1 x.2).flatten.flatten, none⟩]
  isDeltas := by
    intro f hf
    obtain ⟨x, -, rfl⟩ := mem_map.mp hf
    exact deltas_chatFrame x.1 x.2
  isBoundary := fun f hf => nomatch hf
  bytes := by simp [upstreamBytes]

theorem deltas_chatStream (xs : List (Nat × Text)) :
    (chatStream xs).deltas = xs.map fun x => (chatChannel x.1, x.2) := by
  rw [DeltaStream.deltas, chatStream, filterMap_map, ← filterMap_eq_map]
  simp only [Function.comp_def, deltaOf_chatFrame]

end AikeyProxy.Proxy
