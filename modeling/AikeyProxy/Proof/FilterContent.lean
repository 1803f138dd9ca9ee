import AikeyProxy.Proxy.FilterContent

/-!
# Where the scanned pieces lie and what may be done with them

Every piece is read at its path, no path of a piece leads through that of another, and the ceiling
only falls on the way down. Only prose blocks, which have nothing nested, are opened with the full
ceiling.
-/

namespace AikeyProxy.Proxy

open Lib AppHook List Json ActionCeiling Option

variable {mode : ToolBlockScanMode} {roles : ScanRoleSet}

/-! ## Ceilings -/

theorem tighten_le_left (c other : ActionCeiling) : (c.tighten other).rank ≤ c.rank := by
  unfold tighten
  split
  · exact Nat.le_of_lt ‹_›
  · exact Nat.le_refl _

theorem tighten_le_right (c other : ActionCeiling) : (c.tighten other).rank ≤ other.rank := by
  unfold tighten
  split
  · exact Nat.le_refl _
  · exact Nat.not_lt.mp ‹_›

variable {c : ActionCeiling} {p : ContentPiece} {path : List String} {xs items : List Json}
  {pieces : List ContentPiece} {members : Json.Members} {levels : Nat}

theorem tighten_mono {c' : ActionCeiling} (h : c.rank ≤ c'.rank) (other : ActionCeiling) :
    (c.tighten other).rank ≤ (c'.tighten other).rank := by
  have hc := tighten_le_left c other
  have hother := tighten_le_right c other
  rw [tighten.eq_def c']
  split
  · exact hother
  · exact hc.trans h

theorem mode_rank_le (mode : ToolBlockScanMode) : mode.ceiling.rank ≤ ActionCeiling.audit.rank := by
  cases mode <;> decide

theorem ne_full_of_rank (h : c.rank ≤ ActionCeiling.audit.rank) : c ≠ .full := by
  rintro rfl
  exact absurd h (by decide)

theorem clamp_of_ne_full (h : c ≠ .full) (a : Action) :
    (c.clamp a).1 ≠ .mask ∧ (c.clamp a).1 ≠ .block := by
  unfold clamp
  rw [if_neg h]
  cases a <;> exact ⟨nofun, nofun⟩

theorem tighten_full (c : ActionCeiling) : c.tighten .full = c := by cases c <;> rfl

/-! ## Blocks -/

def blockType (ms : Json.Members) : String := asString (Json.memberAt "type" ms)

theorem blockScanPolicy_cases {t : String} {rule : BlockScanRule}
    (h : blockScanPolicy mode t = some rule) :
    (t ∈ proseBlockTypes ∧ rule = ⟨.flatText, .full⟩) ∨
      (t = "tool_result" ∧ rule = ⟨.toolResult, mode.ceiling⟩) ∨
      (t = "tool_use" ∧ rule = ⟨.toolUse, mode.ceiling⟩) := by
  unfold blockScanPolicy at h
  split_ifs at h with hprose hresult huse
  · exact .inl ⟨hprose, (some.inj h).symm⟩
  · exact .inr (.inl ⟨hresult, (some.inj h).symm⟩)
  · exact .inr (.inr ⟨huse, (some.inj h).symm⟩)

/-- How a content that is opened with ceiling `c` comes to have a piece. -/
inductive PieceAt (mode : ToolBlockScanMode) :
    Nat → ActionCeiling → Json → ContentPiece → Prop
  | text {levels : Nat} {c : ActionCeiling} {s : String} : s ≠ "" →
      PieceAt mode (levels + 1) c (.str s) ⟨s, c, [], true⟩
  | prose {levels : Nat} {c : ActionCeiling} {blocks : List Json} {k : Nat}
      {ms : Json.Members} {s : String} : blocks[k]? = some (.obj ms) →
      blockType ms ∈ proseBlockTypes → Json.memberAt "text" ms = some (.str s) → s ≠ "" →
      c ≠ .off → PieceAt mode (levels + 1) c (.arr blocks) ⟨s, c, [toString k, "text"], true⟩
  | result {levels : Nat} {c : ActionCeiling} {blocks : List Json} {k : Nat}
      {ms : Json.Members} {content : Json} {q : ContentPiece} :
      blocks[k]? = some (.obj ms) → blockType ms = "tool_result" →
      Json.memberAt "content" ms = some content → c.tighten mode.ceiling ≠ .off →
      PieceAt mode levels (c.tighten mode.ceiling) content q →
      PieceAt mode (levels + 1) c (.arr blocks) (q.under [toString k, "content"])
  | use {levels : Nat} {c : ActionCeiling} {blocks : List Json} {k : Nat}
      {ms : Json.Members} {input : Json} {text : String} {texts : List String} :
      blocks[k]? = some (.obj ms) → blockType ms = "tool_use" →
      Json.memberAt "input" ms = some input → c.tighten mode.ceiling ≠ .off →
      jsonStringValues levels input = text :: texts →
      PieceAt mode (levels + 1) c (.arr blocks)
        ⟨"\n".intercalate (text :: texts), c.tighten mode.ceiling, [toString k, "input"], false⟩

theorem mem_textPiece {text : String} :
    p ∈ textPiece text c path ↔ text ≠ "" ∧ p = ⟨text, c, path, true⟩ := by
  unfold textPiece
  split <;> simp_all

theorem mem_joinedPiece {texts : List String} :
    p ∈ joinedPiece texts c path ↔
      ∃ t ts, texts = t :: ts ∧ p = ⟨"\n".intercalate (t :: ts), c, path, false⟩ := by
  cases texts <;> simp [joinedPiece]

theorem asString_ne {v : Option Json} (h : asString v ≠ "") : v = some (.str (asString v)) := by
  cases v with
  | none => exact absurd rfl h
  | some j =>
    cases j with
    | str s => rfl
    | _ => exact absurd rfl h

variable {values : Json → List String} {nested : ActionCeiling → Json → List ContentPiece}
  {f : Json → List ContentPiece} {ms : Json.Members} {field : String}

theorem mem_eachItem :
    ∀ {i : Nat}, p ∈ eachItem f i xs ↔
      ∃ k x q, xs[k]? = some x ∧ q ∈ f x ∧ p = q.under [toString (i + k)] := by
  induction xs with
  | nil => intro i; simp [eachItem]
  | cons x xs ih =>
    intro i
    rw [eachItem, mem_append, List.mem_map, ih]
    constructor
    · rintro (⟨q, hq, rfl⟩ | ⟨k, y, q, hy, hq, rfl⟩)
      · exact ⟨0, x, q, rfl, hq, rfl⟩
      · refine ⟨k + 1, y, q, hy, hq, ?_⟩
        rw [Nat.add_right_comm, Nat.add_assoc]
    · rintro ⟨k, y, q, hy, hq, rfl⟩
      cases k with
      | zero =>
        cases hy
        exact .inl ⟨q, hq, rfl⟩
      | succ k =>
        refine .inr ⟨k, y, q, hy, hq, ?_⟩
        rw [Nat.add_right_comm, Nat.add_assoc]

theorem mem_contentPieces {v : Json} :
    p ∈ contentPieces mode levels c v ↔ PieceAt mode levels c v p := by
  constructor
  · intro h
    induction levels generalizing c v p with
    | zero => cases h
    | succ levels ih =>
      cases v with
      | str s =>
        obtain ⟨hne, rfl⟩ := mem_textPiece.mp h
        exact .text hne
      | arr blocks =>
        obtain ⟨k, block, q, hk, hq, rfl⟩ := mem_eachItem.mp h
        rw [Nat.zero_add]
        unfold blockPieces at hq
        split at hq
        next ms =>
          split at hq
          · cases hq
          next rule hrule =>
            dsimp only at hq
            split at hq
            · cases hq
            next hoff =>
              rcases blockScanPolicy_cases hrule with ⟨htype, rfl⟩ | ⟨htype, rfl⟩ | ⟨htype, rfl⟩
              · obtain ⟨hne, rfl⟩ := mem_textPiece.mp hq
                rw [tighten_full] at hoff ⊢
                exact .prose hk htype (asString_ne hne) hne hoff
              · dsimp only at hq
                split at hq
                next content hcontent =>
                  obtain ⟨r, hr, rfl⟩ := mem_map.mp hq
                  exact .result hk htype hcontent hoff (ih hr)
                · cases hq
              · dsimp only at hq
                split at hq
                next input hinput =>
                  obtain ⟨t, ts, hvalues, rfl⟩ := mem_joinedPiece.mp hq
                  exact .use hk htype hinput hoff hvalues
                · cases hq
        · cases hq
      | _ => cases h
  · intro h
    induction h with
    | text hne => exact mem_textPiece.mpr ⟨hne, rfl⟩
    | @prose levels c blocks k ms s hk htype htext hne hoff =>
      refine mem_eachItem.mpr ⟨k, _, ⟨s, c, ["text"], true⟩, hk, ?_, by simp [ContentPiece.under]⟩
      have hrule : blockScanPolicy mode (asString (memberAt "type" ms)) =
          some ⟨.flatText, .full⟩ := if_pos htype
      simp only [blockPieces, hrule, tighten_full, if_neg hoff, htext, mem_textPiece]
      exact ⟨hne, rfl⟩
    | @result levels c blocks k ms content q hk htype hcontent hoff hq ih =>
      refine mem_eachItem.mpr ⟨k, _, q.under ["content"], hk, ?_, by simp [ContentPiece.under]⟩
      have hrule : blockScanPolicy mode (asString (memberAt "type" ms)) =
          some ⟨.toolResult, mode.ceiling⟩ := by
        rw [← blockType, htype]
        rfl
      simp only [blockPieces, hrule, if_neg hoff, hcontent]
      exact mem_map_of_mem ih
    | @use levels c blocks k ms input t ts hk htype hinput hoff hvalues =>
      refine mem_eachItem.mpr ⟨k, _, ⟨"\n".intercalate (t :: ts), c.tighten mode.ceiling,
        ["input"], false⟩, hk, ?_, by simp [ContentPiece.under]⟩
      have hrule : blockScanPolicy mode (asString (memberAt "type" ms)) =
          some ⟨.toolUse, mode.ceiling⟩ := by
        rw [← blockType, htype]
        rfl
      simp only [blockPieces, hrule, if_neg hoff, hinput, mem_joinedPiece]
      exact ⟨t, ts, hvalues, rfl⟩

/-! ## Apart -/

def Apart (p q : ContentPiece) : Prop := ¬ p.path <+: q.path ∧ ¬ q.path <+: p.path

instance : Std.Symm Apart := ⟨fun _ _ h => ⟨h.2, h.1⟩⟩

theorem Apart.under {q : ContentPiece} (h : Apart p q) (pre : List String) :
    Apart (p.under pre) (q.under pre) := by
  unfold Apart ContentPiece.under
  rw [prefix_append_right_inj, prefix_append_right_inj]
  exact h

theorem pairwise_under {ps : List ContentPiece} (h : ps.Pairwise Apart) (pre : List String) :
    (ps.map (.under pre)).Pairwise Apart :=
  pairwise_map.mpr (h.imp fun hpq => hpq.under pre)

theorem apart_of_positions {i j : Nat} (h : i ≠ j) (p q : ContentPiece) :
    Apart (p.under [toString i]) (q.under [toString j]) := by
  have hne : toString i ≠ toString j := fun heq => h (position_injective heq)
  unfold Apart ContentPiece.under
  rw [singleton_append, singleton_append, cons_prefix_cons, cons_prefix_cons]
  exact ⟨fun h => hne h.1, fun h => hne h.1.symm⟩

theorem pairwise_eachItem (h : ∀ x ∈ xs, (f x).Pairwise Apart) :
    ∀ {i : Nat}, (eachItem f i xs).Pairwise Apart := by
  induction xs with
  | nil => intro i; exact List.Pairwise.nil
  | cons x xs ih =>
    intro i
    rw [eachItem]
    refine pairwise_append.mpr ⟨pairwise_under (h x mem_cons_self) _,
      ih fun y hy => h y (mem_cons_of_mem _ hy), ?_⟩
    -- pieces of two items differ in the first step already
    intro p hp q hq
    obtain ⟨p, -, rfl⟩ := mem_map.mp hp
    obtain ⟨k, y, q, -, -, rfl⟩ := mem_eachItem.mp hq
    exact apart_of_positions (by omega) p q

theorem pairwise_textPiece (text : String) (ceiling : ActionCeiling) (path : List String) :
    (textPiece text ceiling path).Pairwise Apart := by
  unfold textPiece
  split <;> simp

theorem pairwise_joinedPiece (texts : List String) (ceiling : ActionCeiling) (path : List String) :
    (joinedPiece texts ceiling path).Pairwise Apart := by
  cases texts <;> simp [joinedPiece]

theorem pairwise_blockPieces (hnested : ∀ c v, (nested c v).Pairwise Apart)
    (inherited : ActionCeiling) (block : Json) :
    (blockPieces mode nested values inherited block).Pairwise Apart := by
  fun_cases blockPieces mode nested values inherited block
  case case3 => exact pairwise_textPiece _ _ _
  case case4 => exact pairwise_under (hnested _ _) _
  case case6 => exact pairwise_joinedPiece _ _ _
  all_goals exact List.Pairwise.nil

theorem pairwise_contentPieces (levels : Nat) :
    ∀ (c : ActionCeiling) (v : Json), (contentPieces mode levels c v).Pairwise Apart := by
  induction levels with
  | zero => intro c v; exact List.Pairwise.nil
  | succ levels ih =>
    intro c v
    cases v with
    | str s => exact pairwise_textPiece _ _ _
    | arr blocks => exact pairwise_eachItem fun block _ => pairwise_blockPieces ih c block
    | _ => exact List.Pairwise.nil

theorem pairwise_turnPieces (item : Json) : (turnPieces mode roles item).Pairwise Apart := by
  fun_cases turnPieces mode roles item
  case case1 => exact pairwise_under (pairwise_contentPieces _ _ _) _
  all_goals exact List.Pairwise.nil

/-- **The pieces of a request are apart.** -/
theorem pairwise_extractUserContent (h : extractUserContent mode roles members = some pieces) :
    pieces.Pairwise Apart := by
  have hturns : ∀ items, (collectUserTurns mode roles items).Pairwise Apart := fun items =>
    pairwise_eachItem fun item _ => pairwise_turnPieces item
  revert h
  fun_cases extractUserContent mode roles members <;> intro h <;> cases h
  · exact pairwise_under (hturns _) _
  · exact pairwise_textPiece _ _ _
  · exact pairwise_under (hturns _) _

/-! ## Reading -/

/-- The piece is what stands at its path: the string itself, or the strings inside the value. -/
def ReadAt (root : Json) (p : ContentPiece) : Prop :=
  ∃ v, Json.follow p.path root = some v ∧
    if p.writable then v = .str p.text
    else ∃ levels, p.text = "\n".intercalate (jsonStringValues levels v)

theorem ReadAt.under {root v : Json} {pre : List String} (h : ReadAt v p)
    (hpre : Json.follow pre root = some v) : ReadAt root (p.under pre) := by
  obtain ⟨w, hw, htext⟩ := h
  refine ⟨w, ?_, htext⟩
  rw [ContentPiece.under, follow_append, hpre]
  exact hw

theorem follow_member {key : String} {v : Json} (h : Json.memberAt key ms = some v) :
    Json.follow [key] (.obj ms) = some v := by
  rw [follow, Json.step, h]
  rfl

theorem follow_position {k : Nat} {x : Json} (h : xs[k]? = some x) :
    Json.follow [toString k] (.arr xs) = some x := by
  rw [follow, step_arr, h]
  rfl

theorem follow_block {k : Nat} {key : String} {v : Json} (hk : xs[k]? = some (.obj ms))
    (h : Json.memberAt key ms = some v) : Json.follow [toString k, key] (.arr xs) = some v := by
  rw [follow, step_arr, hk]
  exact follow_member h

theorem PieceAt.readAt {v : Json} (h : PieceAt mode levels c v p) : ReadAt v p := by
  induction h with
  | text => exact ⟨_, rfl, rfl⟩
  | prose hk htype htext hne hoff => exact ⟨_, follow_block hk htext, rfl⟩
  | result hk htype hcontent hoff hq ih => exact ih.under (follow_block hk hcontent)
  | @use levels c blocks k ms input t ts hk htype hinput hoff hvalues =>
    refine ⟨_, follow_block hk hinput, levels, ?_⟩
    rw [hvalues]

theorem mem_turnPieces {item : Json} :
    p ∈ turnPieces mode roles item ↔ ∃ ms content q, item = .obj ms ∧
      roles.scans (asString (Json.memberAt "role" ms)) = true ∧
      Json.memberAt "content" ms = some content ∧
      q ∈ contentPieces mode (blockNestDepthCap + 1) .full content ∧ p = q.under ["content"] := by
  constructor
  · fun_cases turnPieces mode roles item <;> intro h
    next ms hrole content hcontent =>
      obtain ⟨q, hq, rfl⟩ := mem_map.mp h
      exact ⟨ms, content, q, rfl, hrole, hcontent, hq, rfl⟩
    all_goals cases h
  · rintro ⟨ms, content, q, rfl, hrole, hcontent, hq, rfl⟩
    rw [turnPieces, if_pos hrole, hcontent]
    exact mem_map_of_mem hq

theorem readAt_turnPieces {item : Json} (h : p ∈ turnPieces mode roles item) : ReadAt item p := by
  obtain ⟨ms, content, q, rfl, -, hcontent, hq, rfl⟩ := mem_turnPieces.mp h
  exact (mem_contentPieces.mp hq).readAt.under (follow_member hcontent)

theorem readAt_collectUserTurns (h : p ∈ collectUserTurns mode roles items) :
    ReadAt (.arr items) p := by
  obtain ⟨k, item, q, hk, hq, rfl⟩ := mem_eachItem.mp h
  rw [Nat.zero_add]
  exact (readAt_turnPieces hq).under (follow_position hk)

/-- **A piece is what stands at its path in the body.** -/
theorem readAt_extractUserContent (h : extractUserContent mode roles members = some pieces)
    (hp : p ∈ pieces) : ReadAt (.obj members) p := by
  revert h
  fun_cases extractUserContent mode roles members <;> intro h <;> cases h
  next msgs hmsgs =>
    obtain ⟨q, hq, rfl⟩ := mem_map.mp hp
    exact (readAt_collectUserTurns hq).under (follow_member hmsgs)
  next s hs _ =>
    obtain ⟨-, rfl⟩ := mem_textPiece.mp hp
    exact ⟨_, follow_member hs, rfl⟩
  next items hitems _ =>
    obtain ⟨q, hq, rfl⟩ := mem_map.mp hp
    exact (readAt_collectUserTurns hq).under (follow_member hitems)

theorem unmarshalObject_print {number : List Char → Option (List Char)} {ms' : Json.Members}
    (hvalid : Json.Valid (.obj ms)) (hmaps : Json.asMaps number (.obj ms) = some (.obj ms')) :
    unmarshalObject number (Json.print (.obj ms)) = some ms' := by
  rw [unmarshalObject, parse_print hvalid, bind_some, hmaps]

/-! ## Tool blocks -/

theorem tighten_tighten (c other : ActionCeiling) :
    (c.tighten other).tighten other = c.tighten other := by
  cases c <;> cases other <;> rfl

theorem PieceAt.rank_le {v : Json} (h : PieceAt mode levels c v p) : p.ceiling.rank ≤ c.rank := by
  induction h with
  | text | prose => exact Nat.le_refl _
  | result hk htype hcontent hoff hq ih => exact ih.trans (tighten_le_left _ _)
  | use => exact tighten_le_left _ _

def IsToolBlock (v : Json) : Prop :=
  ∃ ms, v = .obj ms ∧ (blockType ms = "tool_result" ∨ blockType ms = "tool_use")

/-- On the way to the piece, counted from the content of a turn, there is a tool block. -/
def BelowTool (content : Json) (path : List String) : Prop :=
  ∃ q block, q <+: path ∧ Json.follow q content = some block ∧ IsToolBlock block

theorem PieceAt.le_rank {v : Json} (h : PieceAt mode levels c v p) :
    (c.tighten mode.ceiling).rank ≤ p.ceiling.rank := by
  induction h with
  | text | prose => exact tighten_le_left _ _
  | result hk htype hcontent hoff hq ih =>
    -- a second tool block on the way makes no difference
    rw [tighten_tighten] at ih
    exact ih
  | use => exact Nat.le_refl _

theorem PieceAt.rank_belowTool {content : Json} (h : PieceAt mode levels c content p)
    (hbelow : BelowTool content p.path) : p.ceiling.rank ≤ (c.tighten mode.ceiling).rank := by
  obtain ⟨q, block, hq, hfollow, ms, rfl, htool⟩ := hbelow
  cases h with
  | text =>
    rw [prefix_nil.mp hq] at hfollow
    cases hfollow
  | result hk htype hcontent hoff hnested => exact hnested.rank_le
  | use => exact Nat.le_refl _
  | @prose _ _ _ k bs s hk htype htext hne hoff =>
    -- on the way are only the array, the block itself and its text
    exfalso
    rcases prefix_cons_iff.mp hq with rfl | ⟨t, rfl, ht⟩
    · cases hfollow
    · rcases prefix_cons_iff.mp ht with rfl | ⟨t', rfl, ht'⟩
      · rw [follow_position hk] at hfollow
        cases hfollow
        rcases htool with heq | heq <;> exact absurd (heq ▸ htype) (by decide)
      · rw [prefix_nil.mp ht', follow_block hk htext] at hfollow
        cases hfollow

def InToolBlock (root : Json) (path : List String) : Prop :=
  ∃ field position content rest, path = field :: position :: "content" :: rest ∧
    Json.follow [field, position, "content"] root = some content ∧ BelowTool content rest

theorem mem_turns :
    p ∈ (collectUserTurns mode roles items).map (.under [field]) ↔
      ∃ (k : Nat) (item : Json) (q : ContentPiece), items[k]? = some item ∧
        q ∈ turnPieces mode roles item ∧ p = q.under [field, toString k] := by
  unfold collectUserTurns
  rw [List.mem_map]
  constructor
  · rintro ⟨r, hr, rfl⟩
    obtain ⟨k, item, q, hk, hq, rfl⟩ := mem_eachItem.mp hr
    rw [Nat.zero_add]
    exact ⟨k, item, q, hk, hq, rfl⟩
  · rintro ⟨k, item, q, hk, hq, rfl⟩
    refine ⟨q.under [toString (0 + k)], mem_eachItem.mpr ⟨k, item, q, hk, hq, rfl⟩, ?_⟩
    rw [Nat.zero_add]
    rfl

theorem rank_turns (hfield : Json.memberAt field members = some (.arr items))
    (h : p ∈ (collectUserTurns mode roles items).map (.under [field]))
    (htool : InToolBlock (.obj members) p.path) : p.ceiling.rank ≤ ActionCeiling.audit.rank := by
  obtain ⟨k, item, r, hk, hr, rfl⟩ := mem_turns.mp h
  obtain ⟨ms, content, q, rfl, -, hcontent, hq, rfl⟩ := mem_turnPieces.mp hr
  obtain ⟨field', position, content', rest, hpath, hfollow, hbelow⟩ := htool
  have hheads : field = field' ∧ toString k = position ∧ q.path = rest := by
    simpa [ContentPiece.under] using hpath
  obtain ⟨rfl, rfl, rfl⟩ := hheads
  have hsame : content' = content := by
    rw [follow, Json.step, hfield, bind_some, follow, step_arr, hk,
      bind_some, follow_member hcontent] at hfollow
    exact (some.inj hfollow).symm
  rw [hsame] at hbelow
  have hrank := (mem_contentPieces.mp hq).rank_belowTool hbelow
  exact hrank.trans ((tighten_le_right _ _).trans (mode_rank_le mode))

/-- **Tool content is for the record only**, in whatever turn of a request it lies. -/
theorem rank_inToolBlock (h : extractUserContent mode roles members = some pieces) (hp : p ∈ pieces)
    (htool : InToolBlock (.obj members) p.path) : p.ceiling.rank ≤ ActionCeiling.audit.rank := by
  revert h
  fun_cases extractUserContent mode roles members <;> intro h <;> cases h
  next msgs hmsgs => exact rank_turns hmsgs hp htool
  next =>
    obtain ⟨-, rfl⟩ := mem_textPiece.mp hp
    obtain ⟨field, position, content, rest, hpath, -⟩ := htool
    cases hpath
  next items hitems _ => exact rank_turns hitems hp htool

/-! ## Nesting -/

theorem jsonStringValues_mono :
    ∀ {levels' : Nat} {v : Json} {s : String}, levels ≤ levels' →
      s ∈ jsonStringValues levels v → s ∈ jsonStringValues levels' v := by
  induction levels with
  | zero => intro levels' v s _ h; cases h
  | succ levels ih =>
    intro levels' v s hle h
    obtain ⟨levels', rfl⟩ := Nat.exists_eq_add_of_lt hle
    have hle' : levels ≤ levels + levels' := Nat.le_add_right _ _
    cases v with
    | obj ms =>
      obtain ⟨m, hm, hs⟩ := mem_flatMap.mp h
      exact mem_flatMap.mpr ⟨m, hm, ih hle' hs⟩
    | arr xs =>
      obtain ⟨x, hx, hs⟩ := mem_flatMap.mp h
      exact mem_flatMap.mpr ⟨x, hx, ih hle' hs⟩
    | _ => exact h

theorem PieceAt.mono {v : Json} (h : PieceAt mode levels c v p) :
    ∀ {levels' : Nat} {c' : ActionCeiling}, levels ≤ levels' → c.rank ≤ c'.rank →
      ∃ q, PieceAt mode levels' c' v q ∧ q.path = p.path ∧ p.ceiling.rank ≤ q.ceiling.rank := by
  -- a block that is open under the lower ceiling is open under the higher one
  have hoff : ∀ {d d' : ActionCeiling}, d.rank ≤ d'.rank → d ≠ .off → d' ≠ .off := by
    intro d d'
    cases d <;> cases d' <;> decide
  induction h with
  | text hne =>
    intro levels' c' hle hc
    obtain ⟨levels', rfl⟩ := Nat.exists_eq_add_of_lt hle
    exact ⟨_, .text hne, rfl, hc⟩
  | prose hk htype htext hne hopen =>
    intro levels' c' hle hc
    obtain ⟨levels', rfl⟩ := Nat.exists_eq_add_of_lt hle
    exact ⟨_, .prose hk htype htext hne (hoff hc hopen), rfl, hc⟩
  | result hk htype hcontent hopen hq ih =>
    intro levels' c' hle hc
    obtain ⟨levels', rfl⟩ := Nat.exists_eq_add_of_lt hle
    have htight := tighten_mono hc mode.ceiling
    obtain ⟨q, hq, hpath, hrank⟩ := ih (Nat.le_add_right _ levels') htight
    refine ⟨_, .result hk htype hcontent (hoff htight hopen) hq, ?_, hrank⟩
    rw [ContentPiece.under, ContentPiece.under, hpath]
  | @use levels c blocks k ms input t ts hk htype hinput hopen hvalues =>
    intro levels' c' hle hc
    obtain ⟨levels', rfl⟩ := Nat.exists_eq_add_of_lt hle
    have htight := tighten_mono hc mode.ceiling
    -- more levels may find more strings in the input, but the piece is still there
    have hmem : t ∈ jsonStringValues (levels + levels') input :=
      jsonStringValues_mono (Nat.le_add_right _ _) (by rw [hvalues]; exact mem_cons_self)
    cases hvalues' : jsonStringValues (levels + levels') input with
    | nil =>
      rw [hvalues'] at hmem
      cases hmem
    | cons t' ts' => exact ⟨_, .use hk htype hinput (hoff htight hopen) hvalues', rfl, htight⟩

/-- A content that lies inside another one, under tool results, and the way to it. -/
inductive Nested : Json → List String → Json → Prop
  | here (content : Json) : Nested content [] content
  | deeper {blocks : List Json} {k : Nat} {ms : Json.Members} {content inner : Json}
      {path : List String} :
      blocks[k]? = some (.obj ms) → blockType ms = "tool_result" →
      Json.memberAt "content" ms = some content → Nested content path inner →
      Nested (.arr blocks) (toString k :: "content" :: path) inner

/-- What is scanned of a content that lies under
tool results is scanned of it on its own as well, at a ceiling that is no lower. -/
theorem nested_rank {outer inner : Json} (h : Nested outer path inner) :
    ∀ {levels : Nat} {c : ActionCeiling} {p : ContentPiece} {rest : List String},
      PieceAt mode levels c outer p → p.path = path ++ rest →
      ∃ q, PieceAt mode levels c inner q ∧ q.path = rest ∧ p.ceiling.rank ≤ q.ceiling.rank := by
  induction h with
  | here content =>
    intro levels c p rest hp hpath
    exact ⟨p, hp, hpath, Nat.le_refl _⟩
  | @deeper blocks k ms content inner path hk htype hcontent hnested ih =>
    intro levels c p rest hp hpath
    rw [cons_append, cons_append] at hpath
    -- the path goes on with `content`, which only a result does
    cases hp with
    | prose | use => exact absurd (List.cons.inj (List.cons.inj hpath).2).1 (by decide)
    | @result _ _ _ _ _ _ r hk' htype' hcontent' hoff hr =>
      obtain ⟨hpos, hrest⟩ := List.cons.inj hpath
      cases position_injective hpos
      rw [hk] at hk'
      cases hk'
      rw [hcontent] at hcontent'
      cases hcontent'
      obtain ⟨q, hq, hqpath, hrank⟩ := ih hr (List.cons.inj hrest).2
      obtain ⟨q', hq', hpath', hrank'⟩ :=
        hq.mono (Nat.le_succ _) (tighten_le_left c mode.ceiling)
      exact ⟨q', hq', hpath'.trans hqpath, hrank.trans hrank'⟩

end AikeyProxy.Proxy
