import AikeyProxy.AppHook.ContentVersion
import AikeyProxy.Lib.JsonPath
import AikeyProxy.Supervisor.Routes

/-!
# What the inbound filter scans

The filter shows the detector pieces of text from the turns of a request. Which content blocks are
opened, and how much may be done about what is found, is one table: prose at full ceiling, tool
traffic for the record only. A piece remembers where in the body it was read, so that a masked text
can be written back. The levels of nesting that are left are counted down.
-/

namespace AikeyProxy.Proxy

open Lib AppHook

/-! ## Roles -/

def knownMessageRoles : List String :=
  ["user", "assistant", "system", "developer", "tool", "function"]

def defaultScanRoles : List String := ["user", "assistant"]

/-- `unicode.ToLower` as far as it can yield a letter of a known role: two characters outside
ASCII have an ASCII letter as their lower case. -/
def lowerRune (c : Char) : Char :=
  if c = '\u0130' then 'i' else if c = '\u212a' then 'k' else c.toLower

/-- `strings.ToLower(strings.TrimSpace(s))`. -/
def normalized (s : String) : String :=
  String.ofList ((Supervisor.trimSpace s.toList).map lowerRune)

/-- The configured roles; without a configuration the default ones. -/
abbrev ScanRoleSet := Option (List String)

def ScanRoleSet.scans (s : ScanRoleSet) (role : String) : Bool :=
  let r := normalized role
  !knownMessageRoles.contains r || (s.getD defaultScanRoles).contains r

/-! ## Ceilings -/

inductive ActionCeiling where
  | audit
  | full
  | off
  deriving DecidableEq

def ActionCeiling.rank : ActionCeiling → Nat
  | .off => 0
  | .audit => 1
  | .full => 2

def ActionCeiling.tighten (c other : ActionCeiling) : ActionCeiling :=
  if other.rank < c.rank then other else c

def ActionCeiling.clamp (c : ActionCeiling) (a : Action) : Action × Bool :=
  if c = .full then (a, false)
  else
    match a with
    | .mask | .block => (.allow, true)
    | .allow | .warn | .unknown _ => (a, false)

/-! ## The table -/

inductive ToolBlockScanMode where
  | off
  | audit

def defaultToolBlockScanMode : ToolBlockScanMode := .audit

def ToolBlockScanMode.ceiling : ToolBlockScanMode → ActionCeiling
  | .off => .off
  | .audit => .audit

inductive BlockExtract where
  | flatText
  | toolResult
  | toolUse

structure BlockScanRule where
  extract : BlockExtract
  ceiling : ActionCeiling

def proseBlockTypes : List String := ["text", "input_text", "output_text"]

variable (mode : ToolBlockScanMode)

/-- `buildBlockScanPolicy`: a type that has no row is not scanned. -/
def blockScanPolicy (blockType : String) : Option BlockScanRule :=
  if blockType ∈ proseBlockTypes then some ⟨.flatText, .full⟩
  else if blockType = "tool_result" then some ⟨.toolResult, mode.ceiling⟩
  else if blockType = "tool_use" then some ⟨.toolUse, mode.ceiling⟩
  else none

/-! ## Pieces -/

/-- A text to scan and where it was read. A piece that was joined from several strings cannot be
written back. -/
structure ContentPiece where
  text : String
  ceiling : ActionCeiling
  path : List String
  writable : Bool

def ContentPiece.under (pre : List String) (p : ContentPiece) : ContentPiece :=
  { p with path := pre ++ p.path }

/-- `x.(string)`, which is empty for a value that is no string. -/
def asString : Option Json → String
  | some (.str s) => s
  | _ => ""

/-- The pieces of the items, the first one having position `i`. -/
def eachItem (f : Json → List ContentPiece) : Nat → List Json → List ContentPiece
  | _, [] => []
  | i, x :: xs => (f x).map (.under [toString i]) ++ eachItem f (i + 1) xs

def textPiece (text : String) (ceiling : ActionCeiling) (path : List String) : List ContentPiece :=
  if text = "" then [] else [⟨text, ceiling, path, true⟩]

/-- The piece of several texts, none of them empty, on lines of their own. -/
def joinedPiece (texts : List String) (ceiling : ActionCeiling) (path : List String) :
    List ContentPiece :=
  match texts with
  | [] => []
  | texts => [⟨"\n".intercalate texts, ceiling, path, false⟩]

/-- `appendJSONStringValues`: the strings inside a value, the members of an object in the order
of their names. -/
def jsonStringValues : Nat → Json → List String
  | 0, _ => []
  | _ + 1, .str s => if s = "" then [] else [s]
  | levels + 1, .obj ms =>
    (ms.insertionSort fun a b => a.1 ≤ b.1).flatMap fun m => jsonStringValues levels m.2
  | levels + 1, .arr xs => xs.flatMap (jsonStringValues levels)
  | _ + 1, _ => []

/-- The pieces of one block. `nested` walks its content and `values` collects its strings, both
one level down. -/
def blockPieces (nested : ActionCeiling → Json → List ContentPiece)
    (values : Json → List String) (inherited : ActionCeiling) : Json → List ContentPiece
  | .obj ms =>
    match blockScanPolicy mode (asString (Json.memberAt "type" ms)) with
    | none => []
    | some rule =>
      let eff := inherited.tighten rule.ceiling
      -- a row that is switched off is as good as absent
      if eff = .off then []
      else
        match rule.extract with
        | .flatText => textPiece (asString (Json.memberAt "text" ms)) eff ["text"]
        | .toolResult =>
          match Json.memberAt "content" ms with
          | some content => (nested eff content).map (.under ["content"])
          | none => []
        | .toolUse =>
          match Json.memberAt "input" ms with
          | some input => joinedPiece (values input) eff ["input"]
          | none => []
  | _ => []

def blockNestDepthCap : Nat := 8

/-- `collectContentFieldCapped`, for the value of the field. -/
def contentPieces (mode : ToolBlockScanMode) : Nat → ActionCeiling → Json → List ContentPiece
  | 0, _, _ => []
  | _ + 1, inherited, .str s => textPiece s inherited []
  | levels + 1, inherited, .arr blocks =>
    eachItem (blockPieces mode (contentPieces mode levels) (jsonStringValues levels) inherited) 0
      blocks
  | _ + 1, _, _ => []

/-- `collectContentField`, for a turn whose role is scanned. -/
def turnPieces (roles : ScanRoleSet) : Json → List ContentPiece
  | .obj ms =>
    if roles.scans (asString (Json.memberAt "role" ms)) then
      match Json.memberAt "content" ms with
      | some content =>
        (contentPieces mode (blockNestDepthCap + 1) .full content).map (.under ["content"])
      | none => []
    else []
  | _ => []

def collectUserTurns (roles : ScanRoleSet) (items : List Json) : List ContentPiece :=
  eachItem (turnPieces mode roles) 0 items

/-- `json.Unmarshal` into a map; `null` leaves an empty one. `number` is what a `float64` keeps of a
literal, nothing if it is out of range. -/
def unmarshalObject (number : List Char → Option (List Char)) (body : List Char) :
    Option Json.Members :=
  match (Json.parse body).bind (Json.asMaps number) with
  | some (.obj ms) => some ms
  | _ => none

/-- `extractUserContent`, of the members of the parsed body: its turns are in `messages` or in
`input`. -/
def extractUserContent (roles : ScanRoleSet)
    (members : Json.Members) : Option (List ContentPiece) :=
  match Json.memberAt "messages" members with
  | some (.arr msgs) => some ((collectUserTurns mode roles msgs).map (.under ["messages"]))
  | _ =>
    match Json.memberAt "input" members with
    | some (.str s) => some (textPiece s .full ["input"])
    | some (.arr items) => some ((collectUserTurns mode roles items).map (.under ["input"]))
    | _ => none

end AikeyProxy.Proxy
