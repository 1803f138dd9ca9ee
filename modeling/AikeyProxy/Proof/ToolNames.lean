import AikeyProxy.Proxy.ToolNames

/-!
# Tool names come back

Raising the first letter of a name that has a small one loses nothing, so the table has for each
raised name the one it comes from. What it cannot tell is a name that had a capital letter to begin
with: it comes back with a small letter if the request has that name too.
-/

namespace AikeyProxy.Proxy

open Lib List Json

/-! ## Raised names -/

def sentName (name : String) : String := (titleCaseLeadingASCII name).1

variable {name cased : String} {names : List String} {i : Nat} {body : Bytes}

theorem titleCase_eq_true :
    titleCaseLeadingASCII name = (cased, true) ↔
      ∃ c rest, name.toList = c :: rest ∧ 'a' ≤ c ∧ c ≤ 'z' ∧
        cased = String.ofList (Char.ofNat (c.toNat - 32) :: rest) := by
  fun_cases titleCaseLeadingASCII name with
  | case1 hname => simp [hname]
  | case2 c rest hname hc =>
    rw [← Char.not_le, ← Char.not_le, ← not_and_or] at hc
    refine iff_of_false nofun ?_
    rintro ⟨c', rest', hcons, hlo, hhi, -⟩
    cases hname.symm.trans hcons
    exact hc ⟨hlo, hhi⟩
  | case3 c rest hname hc =>
    rw [not_or, Char.not_lt, Char.not_lt] at hc
    constructor
    · rintro ⟨⟩
      exact ⟨c, rest, hname, hc.1, hc.2, rfl⟩
    · rintro ⟨c', rest', hcons, -, -, rfl⟩
      cases hname.symm.trans hcons
      rfl

theorem raised_toNat {c : Char} (hlo : 'a' ≤ c) (hhi : c ≤ 'z') :
    97 ≤ c.toNat ∧ c.toNat ≤ 122 ∧ (Char.ofNat (c.toNat - 32)).toNat = c.toNat - 32 := by
  have h97 : 97 ≤ c.toNat := hlo
  have h122 : c.toNat ≤ 122 := hhi
  refine ⟨h97, h122, ?_⟩
  have hvalid : (c.toNat - 32).isValidChar := .inl (by omega)
  rw [Char.ofNat, dif_pos hvalid]
  rfl

/-- **A raised name comes from one name.** -/
theorem titleCase_injective {a b : String} (ha : titleCaseLeadingASCII a = (cased, true))
    (hb : titleCaseLeadingASCII b = (cased, true)) : a = b := by
  obtain ⟨c, rest, hname, hlo, hhi, hcased⟩ := titleCase_eq_true.mp ha
  obtain ⟨c', rest', hname', hlo', hhi', hcased'⟩ := titleCase_eq_true.mp hb
  have hcons := String.ofList_injective (hcased.symm.trans hcased')
  obtain ⟨hhead, rfl⟩ := List.cons.inj hcons
  obtain ⟨h97, -, hnat⟩ := raised_toNat hlo hhi
  obtain ⟨h97', -, hnat'⟩ := raised_toNat hlo' hhi'
  have hc : c = c' := by
    apply Char.toNat_inj.mp
    have := congrArg Char.toNat hhead
    omega
  apply String.toList_injective
  rw [hname, hname', hc]

theorem sentName_raised (h : titleCaseLeadingASCII name = (cased, true)) :
    sentName cased = cased := by
  obtain ⟨c, rest, -, hlo, hhi, rfl⟩ := titleCase_eq_true.mp h
  obtain ⟨h97, h122, hnat⟩ := raised_toNat hlo hhi
  have hsmall : Char.ofNat (c.toNat - 32) < 'a' := by
    have hlt : (Char.ofNat (c.toNat - 32)).toNat < 97 := by omega
    exact hlt
  unfold sentName titleCaseLeadingASCII
  rw [String.toList_ofList]
  dsimp only
  rw [if_pos (.inl hsmall)]

theorem sentName_cases (name : String) :
    titleCaseLeadingASCII name = (sentName name, true) ∨
      sentName name = name ∧ ∀ cased, titleCaseLeadingASCII name ≠ (cased, true) := by
  unfold sentName
  fun_cases titleCaseLeadingASCII name
  case case3 => exact .inl rfl
  all_goals exact .inr ⟨rfl, nofun⟩

theorem raised_ne (h : titleCaseLeadingASCII name = (cased, true)) : name ≠ cased := by
  rintro rfl
  rcases sentName_cases name with hcase | ⟨-, hno⟩
  · obtain ⟨c, rest, hname, hlo, hhi, hcased⟩ := titleCase_eq_true.mp h
    have hlist := congrArg String.toList hcased
    rw [hname, String.toList_ofList] at hlist
    obtain ⟨h97, -, hnat⟩ := raised_toNat hlo hhi
    have := congrArg Char.toNat (List.cons.inj hlist).1
    omega
  · exact hno _ h

/-! ## The table -/

def Maps (mapping : Table String String) (names : List String) : Prop :=
  ∀ cased name, mapping.lookup cased = some name ↔
    name ∈ names ∧ titleCaseLeadingASCII name = (cased, true)

theorem maps_empty : Maps ∅ [] := by
  intro cased name
  simp

variable {mapping : Table String String}

theorem Maps.of_mem_iff {names' : List String}
    (h : Maps mapping names) (hmem : ∀ name, name ∈ names ↔ name ∈ names') :
    Maps mapping names' := by
  intro cased name
  rw [h cased name, hmem name]

theorem mem_cons_raised {other : String} (hno : titleCaseLeadingASCII name ≠ (cased, true)) :
    other ∈ name :: names ∧ titleCaseLeadingASCII other = (cased, true) ↔
      other ∈ names ∧ titleCaseLeadingASCII other = (cased, true) := by
  refine and_congr_left fun hother => ⟨fun hmem => ?_, mem_cons_of_mem _⟩
  rcases mem_cons.mp hmem with rfl | hmem
  · exact absurd hother hno
  · exact hmem

theorem Maps.insert (h : Maps mapping names) (hcased : titleCaseLeadingASCII name = (cased, true)) :
    Maps (mapping.insert cased name) (name :: names) := by
  intro cased' name'
  by_cases hc : cased' = cased
  · subst hc
    rw [AList.lookup_insert]
    constructor
    · rintro ⟨⟩
      exact ⟨mem_cons_self, hcased⟩
    · rintro ⟨-, hname'⟩
      rw [titleCase_injective hcased hname']
  · rw [AList.lookup_insert_ne hc, h cased' name', mem_cons_raised]
    rw [hcased]
    exact fun heq => hc (Prod.ext_iff.mp heq).1.symm

theorem Maps.cons_other (h : Maps mapping names)
    (hno : ∀ cased, titleCaseLeadingASCII name ≠ (cased, true)) : Maps mapping (name :: names) :=
  fun cased name' => (h cased name').trans (mem_cons_raised (hno cased)).symm

variable (applies : Members → Bool)

def toolNames (tools : List Json) : List String :=
  tools.filterMap fun
    | .obj tool => if applies tool then some (asString (memberAt "name" tool)) else none
    | _ => none

def historyNames (msgs : List Json) : List String :=
  msgs.flatMap fun
    | .obj msg => ((arrayAt "content" msg).map (toolNames isToolUse)).getD []
    | _ => []

def requestNames (body : Members) : List String :=
  ((arrayAt "tools" body).map (toolNames fun _ => true)).getD [] ++
    ((arrayAt "messages" body).map historyNames).getD []

theorem maps_renameTool (h : Maps mapping names) (tool : Members) :
    Maps (renameTool tool mapping).2 (asString (memberAt "name" tool) :: names) := by
  fun_cases renameTool tool mapping
  next hcase => exact h.insert hcase
  next hcase => exact h.cons_other fun _ hraised => by cases hcase.symm.trans hraised

theorem maps_renameTools {applies : Members → Bool} {tools : List Json}
    {mapping : Table String String} (h : Maps mapping names) :
    Maps (renameTools applies tools mapping).2 (names ++ toolNames applies tools) := by
  induction tools generalizing mapping names with
  | nil => simpa [renameTools, toolNames] using h
  | cons x tools ih =>
    cases x with
    | obj tool =>
      rw [renameTools]
      by_cases happlies : applies tool = true
      · rw [if_pos happlies]
        refine (ih (maps_renameTool h tool)).of_mem_iff fun name => ?_
        simp only [toolNames, filterMap_cons, happlies, if_true, mem_append, mem_cons]
        tauto
      · rw [if_neg happlies]
        refine (ih h).of_mem_iff fun name => ?_
        simp [toolNames, happlies]
    | _ => exact ih h

theorem maps_renameHistory {msgs : List Json} {mapping : Table String String}
    (h : Maps mapping names) :
    Maps (renameHistory msgs mapping).2 (names ++ historyNames msgs) := by
  induction msgs generalizing mapping names with
  | nil => simpa [renameHistory, historyNames] using h
  | cons x msgs ih =>
    cases x with
    | obj msg =>
      rw [renameHistory]
      cases hcontent : arrayAt "content" msg with
      | some content =>
        refine (ih (maps_renameTools h)).of_mem_iff fun name => ?_
        simp [historyNames, hcontent]
      | none =>
        refine (ih h).of_mem_iff fun name => ?_
        simp [historyNames, hcontent]
    | _ => exact ih h

theorem arrayAt_putMember_ne {key key' : String} (h : key ≠ key') (v : Json)
    (ms : Members) : arrayAt key' (putMember key v ms) = arrayAt key' ms := by
  unfold arrayAt
  rw [memberAt_putMember_ne h]

theorem arrayAt_putMember (key : String) (items : List Json) (ms : Members) :
    arrayAt key (putMember key (.arr items) ms) = some items := by
  unfold arrayAt
  rw [memberAt_putMember]

theorem maps_renameRequestTools (body : Members) :
    Maps (renameRequestTools body).2 (((arrayAt "tools" body).map (toolNames fun _ => true)).getD []) ∧
      arrayAt "messages" (renameRequestTools body).1 = arrayAt "messages" body := by
  unfold renameRequestTools
  cases htools : arrayAt "tools" body with
  | some tools => exact ⟨maps_renameTools maps_empty, arrayAt_putMember_ne (by decide) _ _⟩
  | none => exact ⟨maps_empty, rfl⟩

/-- **The table of a request** has the raised names of its tools and of its history. -/
theorem maps_renameRequest (body : Members) :
    Maps (renameRequest body).2 (requestNames body) := by
  obtain ⟨hmaps, hmsgs⟩ := maps_renameRequestTools body
  unfold renameRequest requestNames
  dsimp only
  rw [hmsgs]
  cases arrayAt "messages" body with
  | some msgs => exact maps_renameHistory hmaps
  | none => simpa using hmaps

/-! ## The names that are sent -/

def toolNameAt (body : Members) (i : Nat) : Option String :=
  match ((arrayAt "tools" body).getD [])[i]? with
  | some (.obj tool) =>
    match memberAt "name" tool with
    | some (.str name) => some name
    | _ => none
  | _ => none

def renamed : Json → Json
  | .obj tool => .obj (if applies tool then (renameTool tool ∅).1 else tool)
  | other => other

theorem renameTool_fst (tool : Members) (mapping : Table String String) :
    (renameTool tool mapping).1 = (renameTool tool ∅).1 := by
  unfold renameTool
  dsimp only
  split <;> rfl

theorem renameTools_fst (tools : List Json) (mapping : Table String String) :
    (renameTools applies tools mapping).1 = tools.map (renamed applies) := by
  fun_induction renameTools applies tools mapping with
  | case1 => rfl
  | case2 tool rest mapping happlies _ _ htool _ _ hrest ih =>
    have hone := renameTool_fst tool mapping
    simp_all [renamed]
  | case3 tool rest mapping hother _ _ hrest ih => simp_all [renamed]
  | case4 other rest mapping hother _ _ hrest ih => cases other <;> simp_all [renamed]

def nameOf (block : Members) : Option String :=
  match memberAt "name" block with
  | some (.str name) => some name
  | _ => none

variable {block request : Members}

theorem asString_name (block : Members) :
    asString (memberAt "name" block) = (nameOf block).getD "" := by
  fun_cases nameOf block
  next name hmember => rw [hmember]; rfl
  next hother =>
    cases hmember : memberAt "name" block with
    | none => rfl
    | some v => cases v <;> first | exact absurd hmember (hother _) | rfl

theorem nameOf_putMember (name : String) (block : Members) :
    nameOf (putMember "name" (.str name) block) = some name := by
  unfold nameOf
  rw [memberAt_putMember]

theorem toolNameAt_eq_some {body : Members} (h : toolNameAt body i = some name) :
    ∃ tools tool, arrayAt "tools" body = some tools ∧ tools[i]? = some (.obj tool) ∧
      nameOf tool = some name := by
  unfold toolNameAt at h
  split at h
  next tool htool =>
    cases hbody : arrayAt "tools" body with
    | none => simp [hbody] at htool
    | some tools =>
      rw [hbody] at htool
      exact ⟨tools, tool, rfl, htool, h⟩
  · cases h

theorem nameOf_renameTool (tool : Members) :
    nameOf (renameTool tool ∅).1 = (nameOf tool).map sentName := by
  simp only [renameTool, asString_name]
  cases hname : nameOf tool with
  | none => exact hname
  | some name =>
    rw [Option.getD_some, Option.map_some]
    rcases sentName_cases name with hraised | ⟨hsame, hno⟩
    · rw [hraised]
      exact nameOf_putMember _ _
    · split
      next hraised => exact absurd hraised (hno _)
      next => rw [hname, hsame]

theorem tools_renameRequest (body : Members) :
    arrayAt "tools" (renameRequest body).1 =
      (arrayAt "tools" body).map (List.map (renamed fun _ => true)) := by
  have hfirst : arrayAt "tools" (renameRequestTools body).1 =
      (arrayAt "tools" body).map (List.map (renamed fun _ => true)) := by
    unfold renameRequestTools
    cases htools : arrayAt "tools" body with
    | none => exact htools
    | some tools =>
      rw [arrayAt_putMember, renameTools_fst]
      rfl
  unfold renameRequest
  dsimp only
  split
  · rw [arrayAt_putMember_ne (by decide), hfirst]
  · exact hfirst

theorem toolNameAt_renameRequest (body : Members) (i : Nat) :
    toolNameAt (renameRequest body).1 i = (toolNameAt body i).map sentName := by
  unfold toolNameAt
  rw [tools_renameRequest]
  cases arrayAt "tools" body with
  | none => rfl
  | some tools =>
    rw [Option.map_some, Option.getD_some, Option.getD_some, getElem?_map]
    cases tools[i]? with
    | none => rfl
    | some tool =>
      cases tool with
      | obj tool => exact nameOf_renameTool tool
      | _ => rfl

theorem mem_requestNames {body : Members} (h : toolNameAt body i = some name) :
    name ∈ requestNames body := by
  obtain ⟨tools, tool, hbody, htool, hname⟩ := toolNameAt_eq_some h
  unfold requestNames
  rw [hbody]
  refine mem_append_left _ (mem_filterMap.mpr ⟨_, mem_of_getElem? htool, ?_⟩)
  exact congrArg some (by rw [asString_name, hname]; rfl)

/-! ## The way back -/

def backName (mapping : Table String String) (name : String) : String :=
  (mapping.lookup name).getD name

/-- **What the table gives back.** A tool's name comes back unless it is the raised form of another
name of the request. -/
theorem backName_sentName (h : Maps mapping names) (hname : name ∈ names) :
    backName mapping (sentName name) = name ↔
      ∀ other ∈ names, titleCaseLeadingASCII other ≠ (name, true) := by
  unfold backName
  rcases sentName_cases name with hcase | ⟨hsame, hno⟩
  · -- a small letter in front: the name is in the table, and it is no raised form
    have hlookup := (h (sentName name) name).mpr ⟨hname, hcase⟩
    rw [hlookup, Option.getD_some]
    refine iff_of_true rfl fun other _ hother => ?_
    have hraised := sentName_raised hother
    rw [hraised] at hcase
    exact raised_ne hcase rfl
  · rw [hsame]
    cases hlookup : mapping.lookup name with
    | none =>
      refine iff_of_true rfl fun other hother hraised => ?_
      rw [(h name other).mpr ⟨hother, hraised⟩] at hlookup
      cases hlookup
    | some other =>
      obtain ⟨hother, hraised⟩ := (h name other).mp hlookup
      refine iff_of_false ?_ fun hno => hno other hother hraised
      exact raised_ne hraised

theorem Maps.lookup_empty (h : Maps mapping names) : mapping.lookup "" = none := by
  cases hlookup : mapping.lookup "" with
  | none => rfl
  | some name =>
    obtain ⟨c, rest, -, -, -, hempty⟩ := titleCase_eq_true.mp ((h "" name).mp hlookup).2
    have hlist := congrArg String.toList hempty
    simp at hlist

def callName : Json → Option String
  | .obj block => if isToolUse block then nameOf block else none
  | _ => none

theorem isToolUse_putName (v : Json) (block : Members) :
    isToolUse (putMember "name" v block) = isToolUse block := by
  unfold isToolUse
  rw [memberAt_putMember_ne (by decide)]

section Blocks

variable {mapping : Table String String} {orig : String}

theorem back_of_renamed (hempty : mapping.lookup "" = none)
    (h : mapping.lookup (asString (memberAt "name" block)) = some orig) :
    (nameOf block).map (backName mapping) = some orig := by
  rw [asString_name] at h
  cases hname : nameOf block with
  | none =>
    rw [hname] at h
    cases h.symm.trans hempty
  | some name =>
    rw [hname] at h
    exact congrArg some (congrArg (Option.getD · name) h)

theorem back_of_kept
    (h : ∀ orig, mapping.lookup (asString (memberAt "name" block)) = some orig →
      orig = asString (memberAt "name" block)) :
    (nameOf block).map (backName mapping) = nameOf block := by
  rw [asString_name] at h
  cases hname : nameOf block with
  | none => rfl
  | some name =>
    rw [hname] at h
    rw [Option.map_some, backName]
    cases hlookup : mapping.lookup name with
    | none => rfl
    | some orig => exact congrArg some (h orig hlookup)

theorem callName_kept
    (h : isToolUse block → ∀ orig,
      mapping.lookup (asString (memberAt "name" block)) = some orig →
        orig = asString (memberAt "name" block)) :
    callName (.obj block) = (callName (.obj block)).map (backName mapping) := by
  rw [callName]
  split
  next huse => exact (back_of_kept (h huse)).symm
  · rfl

theorem callName_reverseBlock (hempty : mapping.lookup "" = none) (block : Json) :
    callName (reverseBlock mapping block).1 = (callName block).map (backName mapping) := by
  fun_cases reverseBlock mapping block with
  | case1 block _ orig hlookup hcond =>
    simp only [callName, isToolUse_putName, hcond.1, if_true, nameOf_putMember]
    exact (back_of_renamed hempty hlookup).symm
  | case2 block _ orig hlookup hcond =>
    refine callName_kept fun huse orig' horig' => ?_
    cases hlookup.symm.trans horig'
    exact Decidable.not_not.mp fun hne => hcond ⟨huse, hne⟩
  | case3 block _ hlookup =>
    exact callName_kept fun _ orig horig => by cases hlookup.symm.trans horig
  | case4 => cases block <;> simp_all [callName]

end Blocks

def callNames (resp : Members) : List (Option String) :=
  ((arrayAt "content" resp).getD []).map callName

section Responses

variable {number : List Char → Option (List Char)} {mapping : Table String String}

theorem reverseBlock_same {block : Json} (h : (reverseBlock mapping block).2 = false) :
    (reverseBlock mapping block).1 = block := by
  revert h
  fun_cases reverseBlock mapping block <;> intro h
  · cases h
  all_goals rfl

variable {resp : Members}

theorem callNames_same (hempty : mapping.lookup "" = none)
    (h : ∀ content, arrayAt "content" resp = some content → ∀ block ∈ content,
      (reverseBlock mapping block).2 = false) :
    callNames resp = (callNames resp).map (Option.map (backName mapping)) := by
  unfold callNames
  cases hcontent : arrayAt "content" resp with
  | none => rfl
  | some content =>
    rw [Option.getD_some, map_map]
    refine map_congr_left fun block hblock => ?_
    have hrev := callName_reverseBlock hempty block
    rw [reverseBlock_same (h content hcontent block hblock)] at hrev
    exact hrev

theorem unmarshalMap_nil : unmarshalMap number [] = none := by
  have hparse : payloadJson [] = none := by decide
  rw [unmarshalMap, hparse]
  rfl

theorem callNames_reverseJSON (hempty : mapping.lookup "" = none)
    (hbody : unmarshalMap number body = some resp) :
    ∃ resp', (rewriteToolNamesReverseJSON number mapping body).members number = some resp' ∧
      callNames resp' = (callNames resp).map (Option.map (backName mapping)) := by
  unfold rewriteToolNamesReverseJSON
  by_cases hskip : mapping = ∅ ∨ body = []
  · rw [if_pos hskip]
    refine ⟨resp, hbody, ?_⟩
    rcases hskip with rfl | rfl
    · exact callNames_same hempty fun _ _ block _ => by cases block <;> rfl
    · rw [unmarshalMap_nil] at hbody
      cases hbody
  · rw [if_neg hskip, hbody]
    dsimp only
    cases hcontent : arrayAt "content" resp with
    | none =>
      refine ⟨resp, hbody, callNames_same hempty fun content h => ?_⟩
      rw [hcontent] at h
      cases h
    | some content =>
      dsimp only
      by_cases hany : (content.any fun block => (reverseBlock mapping block).2) = true
      · rw [if_pos hany]
        refine ⟨_, rfl, ?_⟩
        unfold callNames
        rw [arrayAt_putMember, hcontent, Option.getD_some, Option.getD_some, map_map,
          map_map]
        exact map_congr_left fun block _ => callName_reverseBlock hempty block
      · rw [if_neg hany]
        refine ⟨resp, hbody, callNames_same hempty fun content' h block hblock => ?_⟩
        rw [hcontent] at h
        cases h
        rw [Bool.not_eq_true, any_eq_false] at hany
        exact Bool.eq_false_iff.mpr (hany block hblock)

def lineCallName (number : List Char → Option (List Char)) : PassedLine → Option String
  | .asCame line => ((linePayload line).bind (unmarshalMap number)).bind fun event =>
    (startedBlock event).bind nameOf
  | .data event _ => (startedBlock event).bind nameOf

theorem startedBlock_putName {event : Members} (h : startedBlock event = some block)
    (v : Json) :
    startedBlock (putMember "content_block" (.obj (putMember "name" v block)) event) =
      some (putMember "name" v block) := by
  revert h
  fun_cases startedBlock event <;> intro h <;> cases h
  next htype hblock huse =>
    unfold startedBlock
    rw [memberAt_putMember_ne (by decide), memberAt_putMember]
    simp [htype, isToolUse_putName, huse]

theorem lineCallName_rewriteSSELine (hempty : mapping.lookup "" = none) (line : Bytes) :
    lineCallName number (rewriteSSELine number mapping line) =
      (lineCallName number (.asCame line)).map (backName mapping) := by
  fun_cases rewriteSSELine number mapping line with
  | case1 hevent => simp [lineCallName, hevent]
  | case2 event hevent hblock => simp [lineCallName, hevent, hblock]
  | case3 event hevent block hblock name hlookup =>
    have hkept := back_of_kept fun _ horig => by cases hlookup.symm.trans horig
    simp [lineCallName, hevent, hblock, hkept]
  | case4 event hevent block hblock name hlookup =>
    have hkept := back_of_kept fun _ horig => (Option.some.inj (hlookup.symm.trans horig)).symm
    simp [lineCallName, hevent, hblock, hkept]
  | case5 event hevent block hblock name orig hlookup hne =>
    simp [lineCallName, hevent, hblock, startedBlock_putName hblock, nameOf_putMember,
      back_of_renamed hempty hlookup]

theorem rewriteStream_lines (buf : Bytes) (chunks : List Bytes)
    (hbuf : takeLines newline buf = ([], buf)) :
    rewriteStream number mapping buf chunks =
      ((takeLines newline (buf ++ chunks.flatten)).1.map (rewriteSSELine number mapping),
        (takeLines newline (buf ++ chunks.flatten)).2) := by
  induction chunks generalizing buf with
  | nil =>
    rw [rewriteStream, flatten_nil, append_nil, hbuf]
    rfl
  | cons chunk chunks ih =>
    have hrest := @takeLines_rest _ _ newline (buf ++ chunk)
    rw [rewriteStream, flatten_cons, ← append_assoc,
      takeLines_append (buf ++ chunk) chunks.flatten, map_append]
    dsimp only
    rw [ih _ hrest]

end Responses

/-! ## The result -/

variable (number : List Char → Option (List Char))

/-- Every tool's name is sent as some name that comes back as the tool's: in each block of a
response that comes at once, and on each line of a stream, however cut. -/
def NamesSurvive (body : Bytes) : Prop :=
  ∀ request, unmarshalMap number body = some request → ∀ i name, toolNameAt request i = some name →
    ∃ sent sentAs, (rewriteToolNamesForward number body).1.members number = some sent ∧
      toolNameAt sent i = some sentAs ∧
      (∀ (respBody : Bytes) resp (k : Nat), unmarshalMap number respBody = some resp →
        (callNames resp)[k]? = some (some sentAs) →
        ∃ resp', (rewriteToolNamesReverseJSON number (rewriteToolNamesForward number body).2
            respBody).members number = some resp' ∧ (callNames resp')[k]? = some (some name)) ∧
      ∀ (chunks : List Bytes) (k : Nat) line, (takeLines newline chunks.flatten).1[k]? = some line →
        lineCallName number (.asCame line) = some sentAs →
        ∃ out, (rewriteStream number (rewriteToolNamesForward number body).2 [] chunks).1[k]? =
            some out ∧ lineCallName number out = some name

theorem forward_of_unmarshal {number : List Char → Option (List Char)}
    (h : unmarshalMap number body = some request) :
    (rewriteToolNamesForward number body).2 = (renameRequest request).2 ∧
      ∀ i name, toolNameAt request i = some name →
        ∃ sent, (rewriteToolNamesForward number body).1.members number = some sent ∧
          toolNameAt sent i = some (sentName name) := by
  unfold rewriteToolNamesForward
  rw [h]
  dsimp only
  by_cases hempty : (renameRequest request).2 = ∅
  · rw [if_pos hempty]
    refine ⟨hempty.symm, fun i name hname => ⟨request, h, ?_⟩⟩
    -- nothing is in the table, so no name of the request is raised
    have hmaps := maps_renameRequest request
    rcases sentName_cases name with hcase | ⟨hsame, -⟩
    · have hlookup := (hmaps (sentName name) name).mpr ⟨mem_requestNames hname, hcase⟩
      rw [hempty] at hlookup
      cases hlookup
    · rw [hsame]
      exact hname
  · rw [if_neg hempty]
    exact ⟨rfl, fun i name hname => ⟨_, rfl, by rw [toolNameAt_renameRequest, hname]; rfl⟩⟩

def callResponse (name : String) : Members :=
  [("content", .arr [.obj [("type", .str "tool_use"), ("name", .str name)]])]

theorem unmarshalMap_callResponse (name : String) :
    unmarshalMap number (payloadBytes (.obj (callResponse name))) = some (callResponse name) := by
  have hvalid : Json.Valid (.obj (callResponse name)) := by
    simp [callResponse, Json.Valid, Json.ValidMembers, Json.ValidItems]
  rw [unmarshalMap, payloadJson_payloadBytes hvalid]
  simp [callResponse, asMaps, membersAsMaps, itemsAsMaps, putMember]

theorem callNames_callResponse (name : String) : callNames (callResponse name) = [some name] := by
  simp [callResponse, callNames, arrayAt, memberAt, callName, isToolUse, asString, nameOf]

theorem back_of_survive {number : List Char → Option (List Char)} (h : NamesSurvive number body)
    (hrequest : unmarshalMap number body = some request)
    (hname : toolNameAt request i = some name) :
    backName (renameRequest request).2 (sentName name) = name := by
  obtain ⟨htable, hsent⟩ := forward_of_unmarshal hrequest
  obtain ⟨sent, hmembers, hsentAs⟩ := hsent i name hname
  obtain ⟨sent', sentAs, hmembers', hsentAs', hjson, -⟩ := h request hrequest i name hname
  cases hmembers'.symm.trans hmembers
  cases hsentAs'.symm.trans hsentAs
  -- a response that calls the tool under the name it was sent as
  have hresp := unmarshalMap_callResponse number (sentName name)
  obtain ⟨resp', hresp', hcalls⟩ := hjson _ _ 0 hresp (by rw [callNames_callResponse]; rfl)
  rw [htable] at hresp'
  obtain ⟨resp'', hresp'', hcalls'⟩ :=
    callNames_reverseJSON (maps_renameRequest request).lookup_empty hresp
  cases hresp'.symm.trans hresp''
  rw [hcalls', callNames_callResponse] at hcalls
  exact Option.some.inj (Option.some.inj hcalls)

theorem survive_of_back {number : List Char → Option (List Char)}
    (h : ∀ request, unmarshalMap number body = some request → ∀ i name,
      toolNameAt request i = some name → backName (renameRequest request).2 (sentName name) = name) :
    NamesSurvive number body := by
  intro request hrequest i name hname
  obtain ⟨htable, hsent⟩ := forward_of_unmarshal hrequest
  obtain ⟨sent, hmembers, hsentAs⟩ := hsent i name hname
  have hback := h request hrequest i name hname
  have hempty := (maps_renameRequest request).lookup_empty
  refine ⟨sent, sentName name, hmembers, hsentAs, ?_, ?_⟩
  · intro respBody resp k hresp hk
    obtain ⟨resp', hresp', hcalls⟩ := callNames_reverseJSON hempty hresp
    refine ⟨resp', htable ▸ hresp', ?_⟩
    rw [hcalls, getElem?_map, hk, Option.map_some, Option.map_some, hback]
  · intro chunks k line hk hline
    rw [htable, rewriteStream_lines [] chunks rfl, nil_append, getElem?_map, hk]
    refine ⟨_, rfl, ?_⟩
    rw [lineCallName_rewriteSSELine hempty, hline, Option.map_some, hback]

/-- **Tool names survive the rewrite** exactly when no tool has as its name the raised form of
another name of the request, of a tool or of a tool call in the history. -/
theorem tool_names_survive_iff (body : Bytes) : NamesSurvive number body ↔
      ∀ request, unmarshalMap number body = some request →
        ∀ i name, toolNameAt request i = some name →
          ∀ other ∈ requestNames request, titleCaseLeadingASCII other ≠ (name, true) := by
  constructor
  · intro h request hrequest i name hname
    have hback := back_of_survive h hrequest hname
    exact (backName_sentName (maps_renameRequest request) (mem_requestNames hname)).mp hback
  · intro h
    refine survive_of_back fun request hrequest i name hname => ?_
    exact (backName_sentName (maps_renameRequest request) (mem_requestNames hname)).mpr
      (h request hrequest i name hname)

def twinTools : Members :=
  [("tools", .arr [.obj [("name", .str "bash")], .obj [("name", .str "Bash")]])]

theorem twin_tools_confused :
    ¬ ∀ (number : List Char → Option (List Char)) (body : Bytes), NamesSurvive number body := by
  intro h
  have hvalid : Json.Valid (.obj twinTools) := by
    simp [twinTools, Json.Valid, Json.ValidMembers, Json.ValidItems]
  have hdecode : unmarshalMap some (payloadBytes (.obj twinTools)) = some twinTools := by
    rw [unmarshalMap, payloadJson_payloadBytes hvalid]
    simp [twinTools, asMaps, membersAsMaps, itemsAsMaps, putMember]
  have hname : toolNameAt twinTools 1 = some "Bash" := by rfl
  have hback := back_of_survive (h some _) hdecode hname
  have htable : backName (renameRequest twinTools).2 (sentName "Bash") = "bash" := by decide
  rw [htable] at hback
  exact absurd hback (by decide)

end AikeyProxy.Proxy
