import AikeyProxy.Lib.Utf8
import AikeyProxy.Proxy.FilterContent
import AikeyProxy.Proxy.SseRestore

/-!
# Tool names on the OAuth path

The upstream wants tool names with a capital letter in front. The names of the request's tools and
of the tool calls in its history get their first letter raised, and a table from the new names to
the old ones is kept. In the response the names of tool calls are looked up in it, in a message or
on the lines of a stream. What is not changed is passed on byte by byte.

`number` is what a `float64` keeps of a number's literal. A value that is encoded again is given as
the tree.
-/

namespace AikeyProxy.Proxy

open Lib Json

/-- What is passed on: the bytes as they came, or the encoding of a decoded object. -/
inductive PassedOn where
  | asCame (body : Bytes)
  | encoded (members : Members)

section Decoding

variable (number : List Char → Option (List Char))

def unmarshalMap (body : Bytes) : Option Members :=
  match (payloadJson body).bind (Json.asMaps number) with
  | some (.obj members) => some members
  | _ => none

def PassedOn.members : PassedOn → Option Members
  | .asCame body => unmarshalMap number body
  | .encoded members => some members

end Decoding

/-! ## Forward -/

/-- The name with its first letter raised, and whether it has changed. -/
def titleCaseLeadingASCII (s : String) : String × Bool :=
  match s.toList with
  | [] => (s, false)
  | c :: rest =>
    if c < 'a' ∨ 'z' < c then (s, false)
    else (String.ofList (Char.ofNat (c.toNat - 32) :: rest), true)

def arrayAt (key : String) (members : Members) : Option (List Json) :=
  match memberAt key members with
  | some (.arr items) => some items
  | _ => none

def isToolUse (block : Members) : Bool :=
  asString (memberAt "type" block) == "tool_use"

/-- The name of one tool or tool call is changed, and the table keeps the old one. -/
def renameTool (tool : Members) (mapping : Table String String) :
    Members × Table String String :=
  let name := asString (memberAt "name" tool)
  match titleCaseLeadingASCII name with
  | (cased, true) => (putMember "name" (.str cased) tool, mapping.insert cased name)
  | (_, false) => (tool, mapping)

def renameTools (applies : Members → Bool) :
    List Json → Table String String → List Json × Table String String
  | [], mapping => ([], mapping)
  | .obj tool :: rest, mapping =>
    if applies tool then
      let (tool, mapping) := renameTool tool mapping
      let (rest, mapping) := renameTools applies rest mapping
      (.obj tool :: rest, mapping)
    else
      let (rest, mapping) := renameTools applies rest mapping
      (.obj tool :: rest, mapping)
  | other :: rest, mapping =>
    let (rest, mapping) := renameTools applies rest mapping
    (other :: rest, mapping)

def renameHistory : List Json → Table String String → List Json × Table String String
  | [], mapping => ([], mapping)
  | .obj msg :: rest, mapping =>
    match arrayAt "content" msg with
    | some content =>
      let (content, mapping) := renameTools isToolUse content mapping
      let (rest, mapping) := renameHistory rest mapping
      (.obj (putMember "content" (.arr content) msg) :: rest, mapping)
    | none =>
      let (rest, mapping) := renameHistory rest mapping
      (.obj msg :: rest, mapping)
  | other :: rest, mapping =>
    let (rest, mapping) := renameHistory rest mapping
    (other :: rest, mapping)

def renameRequestTools (body : Members) :
    Members × Table String String :=
  match arrayAt "tools" body with
  | some tools =>
    let (tools, mapping) := renameTools (fun _ => true) tools ∅
    (putMember "tools" (.arr tools) body, mapping)
  | none => (body, ∅)

def renameRequest (body : Members) : Members × Table String String :=
  let (body, mapping) := renameRequestTools body
  match arrayAt "messages" body with
  | some msgs =>
    let (msgs, mapping) := renameHistory msgs mapping
    (putMember "messages" (.arr msgs) body, mapping)
  | none => (body, mapping)

section Rewriting

variable (number : List Char → Option (List Char))

/-- `rewriteToolNamesForward`: the body that goes out, and the table that stays with the request;
without a table nothing was changed. -/
def rewriteToolNamesForward (body : Bytes) : PassedOn × Table String String :=
  match unmarshalMap number body with
  | none => (.asCame body, ∅)
  | some members =>
    let (members, mapping) := renameRequest members
    if mapping = ∅ then (.asCame body, ∅) else (.encoded members, mapping)

/-! ## A response that comes at once -/

end Rewriting

/-- A tool call of the response gets its old name back; also whether it has changed. -/
def reverseBlock (mapping : Table String String) : Json → Json × Bool
  | .obj block =>
    let proxyName := asString (memberAt "name" block)
    match mapping.lookup proxyName with
    | some orig =>
      if isToolUse block ∧ orig ≠ proxyName then
        (.obj (putMember "name" (.str orig) block), true)
      else (.obj block, false)
    | none => (.obj block, false)
  | other => (other, false)

section Rewriting

variable (number : List Char → Option (List Char)) (mapping : Table String String)

def rewriteToolNamesReverseJSON (body : Bytes) : PassedOn :=
  if mapping = ∅ ∨ body = [] then .asCame body
  else
    match unmarshalMap number body with
    | none => .asCame body
    | some resp =>
      match arrayAt "content" resp with
      | some content =>
        if content.any fun block => (reverseBlock mapping block).2 then
          .encoded (putMember "content" (.arr (content.map fun block =>
            (reverseBlock mapping block).1)) resp)
        else .asCame body
      | none => .asCame body

/-! ## A stream -/

/-- A line that is passed on: as it came, or with another event. -/
inductive PassedLine where
  | asCame (line : Bytes)
  | data (event : Members) (trailing : Bytes)

def linePayload (line : Bytes) : Option Bytes :=
  let tail := line.rdropWhile isEOL
  if (asciiBytes "data: ").isPrefixOf tail then
    let payload := tail.drop 6
    if payload.head? = some openBrace then some payload else none
  else none

def startedBlock (event : Members) : Option Members :=
  if asString (memberAt "type" event) = "content_block_start" then
    match memberAt "content_block" event with
    | some (.obj block) => if isToolUse block then some block else none
    | _ => none
  else none

def rewriteSSELine (line : Bytes) : PassedLine :=
  match (linePayload line).bind (unmarshalMap number) with
  | none => .asCame line
  | some event =>
    match startedBlock event with
    | none => .asCame line
    | some block =>
      let proxyName := asString (memberAt "name" block)
      match mapping.lookup proxyName with
      | none => .asCame line
      | some origName =>
        if origName = proxyName then .asCame line
        else
          .data (putMember "content_block" (.obj (putMember "name" (.str origName) block))
            event) (line.rtakeWhile isEOL)

/-- `sseToolNameRewriter`, on the chunks that the upstream sends: the lines it passes on, and the
end without a newline, which it passes on as it is. -/
def rewriteStream (buf : Bytes) : List Bytes → List PassedLine × Bytes
  | [] => ([], buf)
  | chunk :: chunks =>
    let (lines, buf) := takeLines newline (buf ++ chunk)
    let (passed, rest) := rewriteStream buf chunks
    (lines.map (rewriteSSELine number mapping) ++ passed, rest)

end Rewriting

end AikeyProxy.Proxy
