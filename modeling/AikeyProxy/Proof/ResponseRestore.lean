import AikeyProxy.Proof.FilterContent
import AikeyProxy.Proof.RestoreFrame

/-!
# Whether what was restored can be masked again

The client sends an item of the response, with the originals in it, back as history. An original is
safe there only if the request side reads the string it stands in and may mask it.

The walk over the response goes into everything but the blocks and fields it passes over (`openAt`);
the one over the request reads, at full ceiling, the content of an item that is one string and the
prose blocks of a list (`ScannedText`). A changed string is masked again exactly if it stands in
such a place.
-/

namespace AikeyProxy.Proxy

open Lib Option Json List

variable {mode : ToolBlockScanMode} {roles : ScanRoleSet} {st : MaskRestore} {skips : String → Bool}

/-! ## The walk over the response -/

def restored (st : MaskRestore) (v : Json) : Json := (restoreJSONStrings st v).1

theorem restored_str (s : String) : restored st (.str s) = .str (st.restoreString s) := by
  unfold restored restoreJSONStrings restoreSkipping
  split
  · rfl
  next h =>
    rw [not_not.mp h]

variable {ms : Json.Members} {root w v item : Json} {body : List Char} {key s : String}
  {path q place : List String}

theorem restored_skipped (h : restoreSkips (blockType ms) = true) :
    restored st (.obj ms) = .obj ms := by
  unfold blockType at h
  unfold restored restoreJSONStrings restoreSkipping
  rw [if_pos h]

theorem restored_obj (h : restoreSkips (blockType ms) = false) :
    restored st (.obj ms) = .obj (restoreMembers restoreSkips st ms).1 := by
  unfold blockType at h
  unfold restored restoreJSONStrings restoreSkipping
  rw [h]
  rfl

theorem restored_arr (xs : List Json) : restored st (.arr xs) = .arr (xs.map (restored st)) :=
  congrArg Json.arr (restoreItems_map xs)

def restoredMember (st : MaskRestore) (key : String) (v : Json) : Json :=
  if key ∈ reasoningTextFields then v else restored st v

theorem memberAt_restoreMembers (key : String) (ms : Json.Members) :
    Json.memberAt key (restoreMembers restoreSkips st ms).1 =
      (Json.memberAt key ms).map (restoredMember st key) := by
  rw [memberAt_restoreSkipping]
  rfl

theorem restored_kind (v : Json) :
    (∀ {ms' : Json.Members}, restored st v = .obj ms' → ∃ ms, v = .obj ms) ∧
      ∀ {xs' : List Json}, restored st v = .arr xs' → ∃ xs, v = .arr xs := by
  cases v with
  | obj ms => cases hskip : restoreSkips (blockType ms) <;> simp [restored_skipped, restored_obj, hskip]
  | arr xs => simp [restored_arr]
  | str s => simp [restored_str]
  | null | bool b | num n => exact ⟨nofun, nofun⟩

mutual

theorem restoreSkipping_unchanged :
    ∀ v : Json, (restoreSkipping skips st v).2 = false → (restoreSkipping skips st v).1 = v
  | .str s, h => by
    rw [restoreSkipping] at h ⊢
    split at h
    · cases h
    next heq =>
      rw [if_neg heq]
  | .obj ms, h => by
    rw [restoreSkipping] at h ⊢
    split at h
    next hskip =>
      rw [if_pos hskip]
    next hskip =>
      rw [if_neg hskip]
      exact congrArg Json.obj (restoreMembers_unchanged ms h)
  | .arr xs, h => by
    rw [restoreSkipping] at h ⊢
    exact congrArg Json.arr (restoreItems_unchanged xs h)
  | .null, _ => rfl
  | .bool _, _ => rfl
  | .num _, _ => rfl

theorem restoreMembers_unchanged :
    ∀ ms : Json.Members, (restoreMembers skips st ms).2 = false →
      (restoreMembers skips st ms).1 = ms
  | [], _ => rfl
  | (k, v) :: ms, h => by
    rw [restoreMembers] at h ⊢
    dsimp only at h ⊢
    split at h
    next hk =>
      rw [if_pos hk]
      exact congrArg ((k, v) :: ·) (restoreMembers_unchanged ms h)
    next hk =>
      rw [if_neg hk]
      obtain ⟨hhere, hrest⟩ := Bool.or_eq_false_iff.mp h
      dsimp only
      rw [restoreSkipping_unchanged v hhere, restoreMembers_unchanged ms hrest]

theorem restoreItems_unchanged :
    ∀ xs : List Json, (restoreItems skips st xs).2 = false → (restoreItems skips st xs).1 = xs
  | [], _ => rfl
  | x :: xs, h => by
    rw [restoreItems] at h ⊢
    obtain ⟨hhere, hrest⟩ := Bool.or_eq_false_iff.mp h
    dsimp only
    rw [restoreSkipping_unchanged x hhere, restoreItems_unchanged xs hrest]

end

theorem restoreMaskedResponseBody_encoded {tree : Json} (hroot : decodeResponse body = some root)
    (h : restoreMaskedResponseBody (some st) body = .encoded tree) : tree = restored st root := by
  unfold restoreMaskedResponseBody at h
  rw [hroot] at h
  dsimp only at h
  split at h
  next tree' heq =>
    cases h
    rw [restored, heq]
  · cases h

theorem restoreMaskedResponseBody_changed (hroot : decodeResponse body = some root)
    (h : restored st root ≠ root) :
    restoreMaskedResponseBody (some st) body = .encoded (restored st root) := by
  unfold restoreMaskedResponseBody
  rw [hroot]
  dsimp only
  split
  next tree heq =>
    rw [restored, heq]
  next tree heq =>
    have hsame : (restoreJSONStrings st root).1 = root :=
      restoreSkipping_unchanged root (congrArg Prod.snd heq)
    exact absurd hsame h

/-! ## Paths -/

def openStep (key : String) : Json → Option Json
  | .obj ms =>
    if restoreSkips (blockType ms) = true ∨ key ∈ reasoningTextFields then none
    else Json.memberAt key ms
  | v => Json.step key v

def openAt : List String → Json → Option Json
  | [], v => some v
  | k :: ks, v => (openStep k v).bind (openAt ks)

theorem openAt_append (ks ks' : List String) :
    ∀ v : Json, openAt (ks ++ ks') v = (openAt ks v).bind (openAt ks') := by
  induction ks with
  | nil => intro v; rfl
  | cons k ks ih =>
    intro v
    rw [cons_append, openAt, openAt, bind_assoc]
    exact congrArg (Option.bind (openStep k v)) (funext ih)

theorem openStep_obj :
    openStep key (.obj ms) = some w ↔ restoreSkips (blockType ms) = false ∧
      key ∉ reasoningTextFields ∧ Json.memberAt key ms = some w := by
  rw [openStep]
  split
  next h =>
    simp only [reduceCtorEq, false_iff]
    rintro ⟨hskip, hkey, -⟩
    rcases h with h | h
    · rw [hskip] at h
      cases h
    · exact hkey h
  next h =>
    obtain ⟨hskip, hkey⟩ := not_or.mp h
    simp only [Bool.not_eq_true] at hskip
    exact ⟨fun hw => ⟨hskip, hkey, hw⟩, fun hw => hw.2.2⟩

theorem openStep_arr (key : String) (xs : List Json) :
    openStep key (.arr xs) = Json.itemAt key 0 xs := rfl

theorem openAt_eq_reached (path : List String) : ∀ v : Json, openAt path v = reached restoreSkips path v := by
  induction path with
  | nil => intro v; rfl
  | cons k ks ih =>
    intro v
    have hstep : openStep k v = reachedStep restoreSkips k v := by cases v <;> rfl
    rw [openAt, reached, hstep]
    exact congrArg (Option.bind _) (funext ih)

theorem follow_restored_open (st : MaskRestore) (h : openAt path v = some w) :
    Json.follow path v = some w ∧ Json.follow path (restored st v) = some (restored st w) := by
  rw [openAt_eq_reached] at h
  refine ⟨reached_some h, ?_⟩
  rw [restored, restoreJSONStrings, follow_restoreSkipping, h]
  rfl

theorem follow_restored_shut (h : openAt path v = none) :
    Json.follow path (restored st v) = Json.follow path v := by
  rw [openAt_eq_reached] at h
  rw [restored, restoreJSONStrings, follow_restoreSkipping, h]

/-- **What changes are the strings the walk reaches.** -/
theorem changed_iff {s' : String} :
    (Json.follow path root = some (.str s) ∧
        Json.follow path (restored st root) = some (.str s') ∧ s ≠ s') ↔
      openAt path root = some (.str s) ∧ s' = st.restoreString s ∧ st.restoreString s ≠ s := by
  constructor
  · rintro ⟨hfollow, hrestored, hne⟩
    cases hopen : openAt path root with
    | none =>
      rw [follow_restored_shut hopen, hfollow] at hrestored
      cases hrestored
      exact absurd rfl hne
    | some w =>
      obtain ⟨hw, hw'⟩ := follow_restored_open st hopen
      rw [hfollow] at hw
      cases hw
      rw [hrestored, restored_str] at hw'
      cases hw'
      exact ⟨rfl, rfl, hne.symm⟩
  · rintro ⟨hopen, rfl, hne⟩
    obtain ⟨hw, hw'⟩ := follow_restored_open st hopen
    rw [restored_str] at hw'
    exact ⟨hw, hw', hne.symm⟩

/-! ## The walk over the next request -/

def roleOf (ms : Json.Members) : String := asString (Json.memberAt "role" ms)

/-- The text stands at this path of the item and is scanned at full ceiling. -/
inductive ScannedText (roles : ScanRoleSet) : Json → List String → String → Prop
  | whole {ms : Json.Members} {s : String} :
      roles.scans (roleOf ms) = true → Json.memberAt "content" ms = some (.str s) → s ≠ "" →
      ScannedText roles (.obj ms) ["content"] s
  | block {ms block : Json.Members} {blocks : List Json} {i : Nat} {s : String} :
      roles.scans (roleOf ms) = true → Json.memberAt "content" ms = some (.arr blocks) →
      blocks[i]? = some (.obj block) → blockType block ∈ proseBlockTypes →
      Json.memberAt "text" block = some (.str s) → s ≠ "" →
      ScannedText roles (.obj ms) ["content", toString i, "text"] s

theorem full_turnPieces (mode : ToolBlockScanMode) :
    (∃ p ∈ turnPieces mode roles item, p.path = q ∧ p.text = s ∧ p.ceiling = .full) ↔
      ScannedText roles item q s := by
  simp only [mem_turnPieces, mem_contentPieces]
  constructor
  · rintro ⟨p, ⟨ms, content, r, rfl, hrole, hcontent, hr, rfl⟩, rfl, rfl, hfull⟩
    have htool := (tighten_le_right .full mode.ceiling).trans (mode_rank_le mode)
    cases hr with
    | text hne => exact .whole hrole hcontent hne
    | prose hk htype htext hne hoff => exact .block hrole hcontent hk htype htext hne
    | result hk htype hcontent' hoff hq =>
      exact absurd hfull (ne_full_of_rank (hq.rank_le.trans htool))
    | use => exact absurd hfull (ne_full_of_rank htool)
  · intro h
    cases h with
    | whole hrole hcontent hne =>
      exact ⟨_, ⟨_, _, _, rfl, hrole, hcontent, .text hne, rfl⟩, rfl, rfl, rfl⟩
    | block hrole hcontent hi htype htext hne =>
      exact ⟨_, ⟨_, _, _, rfl, hrole, hcontent, .prose hi htype htext hne nofun, rfl⟩, rfl, rfl,
        rfl⟩

/-! ## Sending items back -/

/-- The responses that carry history for the next request. -/
inductive ResponseShape where
  | anthropicMessage
  | chatCompletion
  | responsesOutput

def ResponseShape.IsItem : ResponseShape → List String → Prop
  | .anthropicMessage, place => place = []
  | .chatCompletion, place => ∃ i : Nat, place = ["choices", toString i, "message"]
  | .responsesOutput, place => ∃ i : Nat, place = ["output", toString i]

def ResponseShape.field : ResponseShape → String
  | .anthropicMessage => "messages"
  | .chatCompletion => "messages"
  | .responsesOutput => "input"

/-- A request whose history has the item at position `k`. -/
structure SendsBack (shape : ResponseShape) (members : Json.Members) (k : Nat)
    (item : Json) : Prop where
  history : ∃ items, Json.memberAt shape.field members = some (.arr items) ∧ items[k]? = some item
  only : ∀ items, shape = .responsesOutput → Json.memberAt "messages" members ≠ some (.arr items)

theorem sendsBack_alone (shape : ResponseShape) (item : Json) :
    SendsBack shape [(shape.field, .arr [item])] 0 item where
  history := ⟨[item], by rw [memberAt, if_pos rfl], rfl⟩
  only items hshape := by
    subst hshape
    intro heq
    cases heq

variable {shape : ResponseShape}

theorem extractUserContent_sendsBack (mode : ToolBlockScanMode) (roles : ScanRoleSet)
    {members : Json.Members} {k : Nat} (h : SendsBack shape members k item) :
    ∃ items, items[k]? = some item ∧ extractUserContent mode roles members =
      some ((collectUserTurns mode roles items).map (.under [shape.field])) := by
  obtain ⟨⟨items, hfield, hk⟩, honly⟩ := h
  refine ⟨items, hk, ?_⟩
  unfold extractUserContent
  cases shape with
  | anthropicMessage | chatCompletion => rw [show memberAt "messages" members = _ from hfield]; rfl
  | responsesOutput =>
    split
    next msgs hmsgs =>
      exact absurd hmsgs (honly msgs rfl)
    · rw [show memberAt "input" members = _ from hfield]
      rfl

/-- The request side hands out the text at this path of the item, wherever it is sent back. -/
def HandedOut (shape : ResponseShape) (mode : ToolBlockScanMode) (roles : ScanRoleSet) (item : Json)
    (q : List String) (s : String) : Prop :=
  ∀ members k, SendsBack shape members k item →
    ∃ pieces, extractUserContent mode roles members = some pieces ∧
      ∃ p ∈ pieces, p.path = shape.field :: toString k :: q ∧ p.text = s ∧ p.ceiling = .full

theorem handedOut_iff : HandedOut shape mode roles item q s ↔ ScannedText roles item q s := by
  rw [← full_turnPieces mode]
  constructor
  · intro h
    have hsend := sendsBack_alone shape item
    obtain ⟨pieces, hpieces, p, hp, hpath, htext, hfull⟩ := h _ _ hsend
    obtain ⟨items, hk, hextract⟩ := extractUserContent_sendsBack mode roles hsend
    rw [hextract] at hpieces
    cases hpieces
    obtain ⟨k', item', r, hk', hr, rfl⟩ := mem_turns.mp hp
    have hparts : toString k' = toString 0 ∧ r.path = q := by
      simpa [ContentPiece.under] using hpath
    cases position_injective hparts.1
    rw [hk] at hk'
    cases hk'
    exact ⟨r, hr, hparts.2, htext, hfull⟩
  · rintro ⟨p, hp, rfl, rfl, hfull⟩ members k hsend
    obtain ⟨items, hk, hextract⟩ := extractUserContent_sendsBack mode roles hsend
    exact ⟨_, hextract, _, mem_turns.mpr ⟨k, item, p, hk, hp, rfl⟩, rfl, rfl, hfull⟩

/-! ## Responses -/

/-- **Every string that changes is handed out again**: it lies in an item of the response, and
wherever the client sends that item back the request side hands it out. -/
def MaskedAgain (shape : ResponseShape) (mode : ToolBlockScanMode) (roles : ScanRoleSet)
    (st : MaskRestore) (body : List Char) : Prop :=
  ∀ root tree, decodeResponse body = some root →
    restoreMaskedResponseBody (some st) body = .encoded tree →
    ∀ path s s', Json.follow path root = some (.str s) → Json.follow path tree = some (.str s') →
      s ≠ s' →
      ∃ place q item, shape.IsItem place ∧ path = place ++ q ∧ Json.follow place tree = some item ∧
        HandedOut shape mode roles item q s'

/-- A path of an item that leads to its content, or to the text of a prose block in it, when the
role of the item is scanned. -/
inductive ContentPath (roles : ScanRoleSet) (ms : Json.Members) : List String → Prop
  | whole : roles.scans (roleOf ms) = true → ContentPath roles ms ["content"]
  | block {blocks : List Json} {i : Nat} {block : Json.Members} :
      roles.scans (roleOf ms) = true → Json.memberAt "content" ms = some (.arr blocks) →
      blocks[i]? = some (.obj block) → blockType block ∈ proseBlockTypes →
      ContentPath roles ms ["content", toString i, "text"]

def InContent (shape : ResponseShape) (roles : ScanRoleSet) (root : Json) (path : List String) :
    Prop :=
  ∃ place ms q, shape.IsItem place ∧ Json.follow place root = some (.obj ms) ∧ path = place ++ q ∧
    ContentPath roles ms q

/-- What the table would change stands in content only, and is not changed to nothing. -/
def OnlyContentRestored (shape : ResponseShape) (roles : ScanRoleSet) (st : MaskRestore)
    (body : List Char) : Prop :=
  ∀ root, decodeResponse body = some root → ∀ path s, openAt path root = some (.str s) →
    st.restoreString s ≠ s → InContent shape roles root path ∧ st.restoreString s ≠ ""

def NamesKept (st : MaskRestore) (root : Json) : Prop :=
  ∀ path s, openAt path root = some (.str s) → st.restoreString s ≠ s →
    path.getLast? = some "content" ∨ path.getLast? = some "text"

theorem InContent.last (h : InContent shape roles root path) :
    path.getLast? = some "content" ∨ path.getLast? = some "text" := by
  obtain ⟨place, ms, q, -, -, rfl, hq⟩ := h
  cases hq with
  | whole => left; simp
  | block => right; simp

theorem ScannedText.last (h : ScannedText roles item q s) (place : List String) :
    (place ++ q).getLast? = some "content" ∨ (place ++ q).getLast? = some "text" := by
  cases h with
  | whole => left; simp
  | block => right; simp

theorem NamesKept.asString_eq (h : NamesKept st root) (hopen : openAt place root = some (.obj ms))
    (hskip : restoreSkips (blockType ms) = false) (hkey : key = "role" ∨ key = "type") :
    asString (Json.memberAt key (restoreMembers restoreSkips st ms).1) = asString (Json.memberAt key ms) := by
  have hfield : key ∉ reasoningTextFields := by rcases hkey with rfl | rfl <;> decide
  rw [memberAt_restoreMembers]
  cases hmember : memberAt key ms with
  | none => rfl
  | some v =>
    rw [map_some, restoredMember, if_neg hfield]
    cases v with
    | str t =>
      have hpath : openAt (place ++ [key]) root = some (.str t) := by
        rw [openAt_append, hopen, bind_some, openAt,
          openStep_obj.mpr ⟨hskip, hfield, hmember⟩]
        rfl
      have hkept : st.restoreString t = t := by
        by_contra hne
        rcases h _ _ hpath hne with hlast | hlast <;> rcases hkey with rfl | rfl <;>
          simp at hlast
      rw [restored_str, hkept]
    | obj ms' =>
      cases hskip' : restoreSkips (blockType ms') with
      | true => rw [restored_skipped hskip']
      | false => rw [restored_obj hskip']; rfl
    | arr xs => rw [restored_arr]; rfl
    | null | bool b | num n => rfl

variable {rest : List String}

theorem openAt_block {blocks : List Json} {i : Nat} :
    openAt (toString i :: rest) (.arr blocks) = some w ↔
      ∃ b, blocks[i]? = some b ∧ openAt rest b = some w := by
  rw [openAt, openStep_arr, ← step_arr, bind_eq_some_iff]
  rfl

theorem openAt_member :
    openAt (key :: rest) (.obj ms) = some w ↔ restoreSkips (blockType ms) = false ∧
      key ∉ reasoningTextFields ∧ ∃ v, Json.memberAt key ms = some v ∧ openAt rest v = some w := by
  rw [openAt, bind_eq_some_iff]
  constructor
  · rintro ⟨v, hstep, hrest⟩
    obtain ⟨hskip, hkey, hmember⟩ := openStep_obj.mp hstep
    exact ⟨hskip, hkey, v, hmember, hrest⟩
  · rintro ⟨hskip, hkey, v, hmember, hrest⟩
    exact ⟨v, openStep_obj.mpr ⟨hskip, hkey, hmember⟩, hrest⟩

theorem memberAt_restored (hkey : key ∉ reasoningTextFields) (h : Json.memberAt key ms = some v) :
    Json.memberAt key (restoreMembers restoreSkips st ms).1 = some (restored st v) := by
  rw [memberAt_restoreMembers, h, map_some, restoredMember, if_neg hkey]

theorem NamesKept.contentPath_of_scanned (hkept : NamesKept st root)
    (hplace : openAt place root = some v) (hq : openAt q v = some (.str s)) {text : String}
    (h : ScannedText roles (restored st v) q text) :
    text ≠ "" ∧ ∃ ms, v = .obj ms ∧ ContentPath roles ms q := by
  generalize hitem : restored st v = item at h
  cases h with
  | whole hrole hcontent hne =>
    obtain ⟨ms, rfl⟩ := (restored_kind v).1 hitem
    obtain ⟨hskip, -, -⟩ := openAt_member.mp hq
    rw [restored_obj hskip] at hitem
    cases hitem
    rw [roleOf, hkept.asString_eq hplace hskip (.inl rfl)] at hrole
    exact ⟨hne, ms, rfl, .whole hrole⟩
  | @block ms' block' blocks' i text hrole hcontent hi htype htext hne =>
    obtain ⟨ms, rfl⟩ := (restored_kind v).1 hitem
    obtain ⟨hskip, hkey, w, hmember, hrest⟩ := openAt_member.mp hq
    rw [restored_obj hskip] at hitem
    cases hitem
    rw [memberAt_restored hkey hmember] at hcontent
    obtain ⟨blocks, rfl⟩ := (restored_kind w).2 (some.inj hcontent)
    rw [restored_arr] at hcontent
    cases hcontent
    obtain ⟨b, hb, hrest⟩ := openAt_block.mp hrest
    rw [getElem?_map, hb, map_some] at hi
    obtain ⟨block, rfl⟩ := (restored_kind b).1 (some.inj hi)
    -- the walk went through the block, so its members are restored and none is missing
    obtain ⟨hskip', -, -⟩ := openAt_member.mp hrest
    rw [restored_obj hskip'] at hi
    cases hi
    have hblock : openAt (place ++ ["content", toString i]) root = some (.obj block) := by
      rw [openAt_append, hplace, bind_some]
      exact openAt_member.mpr ⟨hskip, hkey, _, hmember, openAt_block.mpr ⟨_, hb, rfl⟩⟩
    rw [roleOf, hkept.asString_eq hplace hskip (.inl rfl)] at hrole
    rw [blockType, hkept.asString_eq hblock hskip' (.inr rfl)] at htype
    exact ⟨hne, ms, rfl, .block hrole hmember hb htype⟩

theorem NamesKept.scanned_of_contentPath (hkept : NamesKept st root)
    (hplace : openAt place root = some (.obj ms)) (hq : openAt q (.obj ms) = some (.str s))
    (hne : st.restoreString s ≠ "") (h : ContentPath roles ms q) :
    ScannedText roles (restored st (.obj ms)) q (st.restoreString s) := by
  cases h with
  | whole hrole =>
    obtain ⟨hskip, hkey, w, hmember, hw⟩ := openAt_member.mp hq
    cases hw
    rw [roleOf, ← hkept.asString_eq hplace hskip (.inl rfl)] at hrole
    rw [restored_obj hskip]
    refine .whole hrole ?_ hne
    rw [memberAt_restored hkey hmember, restored_str]
  | @block blocks i block hrole hcontent hi htype =>
    obtain ⟨hskip, hkey, w, hmember, hrest⟩ := openAt_member.mp hq
    rw [hcontent] at hmember
    cases hmember
    obtain ⟨b, hb, hrest⟩ := openAt_block.mp hrest
    rw [hi] at hb
    cases hb
    obtain ⟨hskip', hkey', u, htext, hu⟩ := openAt_member.mp hrest
    cases hu
    have hblock : openAt (place ++ ["content", toString i]) root = some (.obj block) := by
      rw [openAt_append, hplace, bind_some]
      exact openAt_member.mpr ⟨hskip, hkey, _, hcontent, openAt_block.mpr ⟨_, hi, rfl⟩⟩
    rw [roleOf, ← hkept.asString_eq hplace hskip (.inl rfl)] at hrole
    rw [blockType, ← hkept.asString_eq hblock hskip' (.inr rfl)] at htype
    rw [restored_obj hskip]
    refine .block hrole (memberAt_restored hkey hcontent) ?_ htype ?_ hne
    · rw [restoreItems_map, getElem?_map, hi, map_some]
      exact congrArg some (restored_obj hskip')
    · rw [memberAt_restored hkey' htext, restored_str]

theorem onlyContentRestored_of_maskedAgain (h : MaskedAgain shape mode roles st body) :
    OnlyContentRestored shape roles st body := by
  intro root hroot
  -- whatever the walk changes is, in the restored item, a text that is scanned
  have hscanned : ∀ path s, openAt path root = some (.str s) → st.restoreString s ≠ s →
      ∃ place q v, shape.IsItem place ∧ path = place ++ q ∧ openAt place root = some v ∧
        openAt q v = some (.str s) ∧ ScannedText roles (restored st v) q (st.restoreString s) := by
    intro path s hopen hne
    obtain ⟨hfollow, hfollow', hne'⟩ := changed_iff.mpr ⟨hopen, rfl, hne⟩
    have hchanged : restored st root ≠ root := by
      intro heq
      rw [heq, hfollow] at hfollow'
      exact hne' (Json.str.inj (some.inj hfollow'))
    obtain ⟨place, q, item, hplace, rfl, hitem, hout⟩ := h root _ hroot
      (restoreMaskedResponseBody_changed hroot hchanged) path s _ hfollow hfollow' hne'
    rw [openAt_append] at hopen
    obtain ⟨v, hv, hq⟩ := bind_eq_some_iff.mp hopen
    rw [(follow_restored_open st hv).2] at hitem
    cases hitem
    exact ⟨place, q, v, hplace, rfl, hv, hq, handedOut_iff.mp hout⟩
  -- so no role and no type is among the changes, and the item reads as it came
  have hkept : NamesKept st root := by
    intro path s hopen hne
    obtain ⟨place, q, v, -, rfl, -, -, htext⟩ := hscanned path s hopen hne
    exact htext.last place
  intro path s hopen hne
  obtain ⟨place, q, v, hplace, rfl, hv, hq, htext⟩ := hscanned path s hopen hne
  obtain ⟨hnonempty, ms, rfl, hcontent⟩ := hkept.contentPath_of_scanned hv hq htext
  exact ⟨⟨place, ms, q, hplace, (follow_restored_open st hv).1, rfl, hcontent⟩, hnonempty⟩

theorem maskedAgain_of_onlyContentRestored (h : OnlyContentRestored shape roles st body) :
    MaskedAgain shape mode roles st body := by
  intro root tree hroot htree path s s' hfollow hfollow' hne
  rw [restoreMaskedResponseBody_encoded hroot htree] at hfollow' ⊢
  have hkept : NamesKept st root := fun path s hopen hne => (h root hroot path s hopen hne).1.last
  obtain ⟨hopen, rfl, hchanged⟩ := changed_iff.mp ⟨hfollow, hfollow', hne⟩
  obtain ⟨⟨place, ms, q, hplace, hms, rfl, hcontent⟩, hnonempty⟩ :=
    h root hroot path s hopen hchanged
  rw [openAt_append] at hopen
  obtain ⟨v, hv, hq⟩ := bind_eq_some_iff.mp hopen
  obtain ⟨hv', hitem⟩ := follow_restored_open st hv
  rw [hms] at hv'
  cases hv'
  exact ⟨place, q, _, hplace, rfl, hitem,
    handedOut_iff.mpr (hkept.scanned_of_contentPath hv hq hnonempty hcontent)⟩

/-- **Originals come back only where they can be masked again** exactly if all that the table
changes in the response is content of its items. -/
theorem restored_masked_again_iff (shape : ResponseShape) (mode : ToolBlockScanMode)
    (roles : ScanRoleSet) (st : MaskRestore) (body : List Char) :
    MaskedAgain shape mode roles st body ↔ OnlyContentRestored shape roles st body :=
  ⟨onlyContentRestored_of_maskedAgain, maskedAgain_of_onlyContentRestored⟩

def toolCallResponse : Json :=
  .obj [("choices", .arr [.obj [("message", .obj [("role", .str "assistant"), ("content", .null),
    ("tool_calls", .arr [.obj [("id", .str "c"), ("type", .str "function"),
      ("function", .obj [("name", .str "send"),
        ("arguments", .str "\x7b\x7bADDR_1\x7d\x7d")])]])])]])]

theorem decodeResponse_toolCall :
    decodeResponse (Json.print toolCallResponse) = some toolCallResponse := by
  have hvalid : Json.Valid toolCallResponse := by
    simp [toolCallResponse, Json.Valid, Json.ValidMembers, Json.ValidItems]
  rw [decodeResponse, parseFirst_print hvalid]
  rfl

/-- The address comes back in the arguments of the call, which are not scanned in the next
request. -/
theorem tool_call_not_masked_again :
    ¬ ∀ (shape : ResponseShape) (mode : ToolBlockScanMode) (roles : ScanRoleSet) (st : MaskRestore)
      (body : List Char), MaskedAgain shape mode roles st body := by
  intro h
  let st := newMaskRestore.add "\x7b\x7bADDR_1\x7d\x7d".toList "Main St 5".toList
  have hcontent := onlyContentRestored_of_maskedAgain
    (h .chatCompletion .audit none st (print toolCallResponse))
  have hpath := (hcontent toolCallResponse decodeResponse_toolCall
    ["choices", "0", "message", "tool_calls", "0", "function", "arguments"]
    "\x7b\x7bADDR_1\x7d\x7d" rfl (by decide)).1
  rcases hpath.last with hlast | hlast <;> simp at hlast

end AikeyProxy.Proxy
