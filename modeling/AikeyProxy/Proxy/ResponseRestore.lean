import AikeyProxy.Proxy.FilterContent
import AikeyProxy.Proxy.MaskRestore

/-!
# Originals in a response that comes at once

`restoreMaskedResponseBody` decodes the body of a response, puts the originals back into its strings
and encodes it again. An original may only go where the next request can mask it, so blocks that
carry reasoning (a list of types) or tool traffic (by the request side's table) are passed over
whole.
-/

namespace AikeyProxy.Proxy

open Lib

def reasoningBlockTypes : List String := ["thinking", "redacted_thinking", "reasoning"]

/-- `buildRestoreSkipBlockTypes`: reasoning, and every type with a row below the full ceiling. -/
def buildRestoreSkipBlockTypes (reasoning : String → Bool)
    (policy : String → Option BlockScanRule) (blockType : String) : Bool :=
  reasoning blockType || (policy blockType).any fun rule => rule.ceiling ≠ .full

def restoreSkips : String → Bool :=
  buildRestoreSkipBlockTypes (reasoningBlockTypes.contains ·)
    (blockScanPolicy defaultToolBlockScanMode)

def reasoningTextFields : List String := ["reasoning_content"]

def MaskRestore.restoreString (st : MaskRestore) (s : String) : String :=
  String.ofList (st.restore s.toList)

mutual

/-- The value with the originals put back, and whether anything changed, for any set of block types
to pass over. -/
def restoreSkipping (skips : String → Bool) (st : MaskRestore) : Json → Json × Bool
  | .str s => if st.restoreString s ≠ s then (.str (st.restoreString s), true) else (.str s, false)
  | .obj ms =>
    if skips (asString (Json.memberAt "type" ms)) then (.obj ms, false)
    else
      let (ms, changed) := restoreMembers skips st ms
      (.obj ms, changed)
  | .arr xs =>
    let (xs, changed) := restoreItems skips st xs
    (.arr xs, changed)
  | v => (v, false)

def restoreMembers (skips : String → Bool) (st : MaskRestore) :
    Json.Members → Json.Members × Bool
  | [] => ([], false)
  | (k, v) :: ms =>
    let (ms, changed) := restoreMembers skips st ms
    if k ∈ reasoningTextFields then ((k, v) :: ms, changed)
    else
      let (v, here) := restoreSkipping skips st v
      ((k, v) :: ms, here || changed)

def restoreItems (skips : String → Bool) (st : MaskRestore) :
    List Json → List Json × Bool
  | [] => ([], false)
  | x :: xs =>
    let (x, here) := restoreSkipping skips st x
    let (xs, changed) := restoreItems skips st xs
    (x :: xs, here || changed)

end

def restoreJSONStrings (st : MaskRestore) : Json → Json × Bool := restoreSkipping restoreSkips st

/-- `Decode` with `UseNumber`: the first value of the body, its numbers kept as they are
written. -/
def decodeResponse (body : List Char) : Option Json :=
  (Json.parseFirst body).bind (Json.asMaps some)

/-- The body for the client: the bytes of upstream, or the decoded body encoded again. -/
inductive RestoredBody where
  | upstream (body : List Char)
  | encoded (tree : Json)

/-- Without a table, without a value to decode or without a change the body is left alone. -/
def restoreMaskedResponseBody (st : Option MaskRestore) (body : List Char) : RestoredBody :=
  match st, decodeResponse body with
  | some st, some root =>
    match restoreJSONStrings st root with
    | (tree, true) => .encoded tree
    | (_, false) => .upstream body
  | _, _ => .upstream body

end AikeyProxy.Proxy
