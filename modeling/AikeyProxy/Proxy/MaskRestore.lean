import AikeyProxy.Lib.Pattern
import AikeyProxy.Lib.Rewrite
import AikeyProxy.Lib.Table
import Mathlib.Data.List.Sort
import Mathlib.Algebra.GroupWithZero.Nat

/-!
# Numbered placeholders and their originals

The detector masks a span of the request with a token that carries no number, `{{ADDR}}`.
`renumberRestorables` gives every occurrence a number, `{{ADDR_1}}`, and remembers the text behind
it; `restore` puts the text back wherever the model echoes the placeholder, in any spelling of
`tolerantPlaceholderRe`, and `holdback` says how much of an arriving text may be the beginning of
one.

Text is a list of characters. Lengths that are compared with that of a label are in bytes
(`byteLen`); offsets count characters.
-/

namespace AikeyProxy.Proxy

open Lib

abbrev Text := List Char

def byteLen (s : Text) : Nat := (s.map Char.utf8Size).sum

/-! ## The placeholder syntax -/

def isGap (c : Char) : Bool := c == ' ' || c == '\t'

def isOpenQuote (c : Char) : Bool :=
  c == '"' || c == '\x27' || c == '\x60' || c == '“' || c == '‘'

def isCloseQuote (c : Char) : Bool :=
  c == '"' || c == '\x27' || c == '\x60' || c == '”' || c == '’'

/-- `^\{\{([A-Za-z][A-Za-z0-9]*)_(\d{1,9})\}\}$`, to be matched up to the end of the text. -/
def canonicalLabelRe : List (Rep Char) :=
  [.one (· == '{'), .one (· == '{'),
    .one Char.isAlpha, .many Char.isAlphanum,
    .one (· == '_'), .within Char.isDigit 1 9,
    .one (· == '}'), .one (· == '}')]

/-- ``\{\{?[ \t]?["'`“‘]?[ \t]?([A-Za-z][A-Za-z0-9]*)[ \t]?_[ \t]?([0-9]{1,9})[ \t]?["'`”’]?[ \t]?\}?\}`` -/
def tolerantPlaceholderRe : List (Rep Char) :=
  [.one (· == '{'), .opt (· == '{'), .opt isGap, .opt isOpenQuote, .opt isGap,
    .one Char.isAlpha, .many Char.isAlphanum,
    .opt isGap, .one (· == '_'), .opt isGap,
    .within Char.isDigit 1 9,
    .opt isGap, .opt isCloseQuote, .opt isGap, .opt (· == '}'), .one (· == '}')]

/-- The four ways to take or leave the two optional groups of
``^\{\{?[ \t]?["'`“‘]?[ \t]?(?:[A-Za-z][A-Za-z0-9]*)?[ \t]?(?:_[ \t]?[0-9]{0,9}[ \t]?["'`”’]?[ \t]?\}?)?$``,
each to be matched up to the end of the text. -/
def tolerantPlaceholderPrefixRe : List (List (Rep Char)) :=
  let opening := [.one (· == '{'), .opt (· == '{'), .opt isGap, .opt isOpenQuote, .opt isGap]
  let code := [.one Char.isAlpha, .many Char.isAlphanum]
  let gap := [.opt isGap]
  let number :=
    [.one (· == '_'), .opt isGap, .within Char.isDigit 0 9,
      .opt isGap, .opt isCloseQuote, .opt isGap, .opt (· == '}')]
  [opening ++ gap, opening ++ code ++ gap, opening ++ gap ++ number,
    opening ++ code ++ gap ++ number]

/-- The code and the number of a label of the shipped shape. -/
def canonicalLabel? (label : Text) : Option (Text × Text) :=
  match matchSeq List.isEmpty canonicalLabelRe label with
  | some ([_, _, c, cs, _, number, _, _], _) => some (c ++ cs, number)
  | _ => none

/-- A placeholder as the model wrote it: its code, its number, and how long it is. -/
structure Placeholder where
  code : Text
  number : Text
  length : Nat

/-- The two groups of `tolerantPlaceholderRe` among what its items have read. -/
def tolerantGroups : List Text → Option (Text × Text)
  | [_, _, _, _, _, c, cs, _, _, _, number, _, _, _, _, _] => some (c ++ cs, number)
  | _ => none

def placeholderAt (s : Text) : Option Placeholder :=
  match matchSeq (fun _ => true) tolerantPlaceholderRe s with
  | some (pieces, rest) =>
    (tolerantGroups pieces).map fun g => ⟨g.1, g.2, s.length - rest.length⟩
  | none => none

/-- The whole of `s` is the beginning of a placeholder. -/
def viablePrefix (s : Text) : Bool :=
  tolerantPlaceholderPrefixRe.any fun re => (matchSeq List.isEmpty re s).isSome

/-- The lookup key of a code and a number: upper case, and no leading zeros. -/
def canonicalID (code number : Text) : Text :=
  code.map Char.toUpper ++
    '_' :: (match number.dropWhile (· == '0') with
      | [] => ['0']
      | n => n)

/-! ## The table of one request -/

structure MaskRestore where
  entries : Table Text Text
  canonical : Table Text Text
  custom : List Text
  keys : List Text
  maxKeyLen : Nat
  nextN : Nat

def newMaskRestore : MaskRestore := ⟨∅, ∅, [], [], 0, 1⟩

namespace MaskRestore

def add (st : MaskRestore) (label original : Text) : MaskRestore :=
  let st :=
    { st with
      entries := st.entries.insert label original
      keys := st.keys ++ [label]
      maxKeyLen := max st.maxKeyLen (byteLen label) }
  match canonicalLabel? label with
  | some (code, number) =>
    { st with canonical := st.canonical.insert (canonicalID code number) original }
  | none => { st with custom := st.custom ++ [label] }

variable (st : MaskRestore) (s : Text)

/-- One hit of the tolerant pattern: an id that is not in the table stands for itself. -/
def placeholderTok : Option (Nat × Text) :=
  (placeholderAt s).map fun m =>
    (m.length, (st.canonical.lookup (canonicalID m.code m.number)).getD (s.take m.length))

def restoreCanonical : Text := rewrite st.placeholderTok 0 s

/-- The pairs of the replacer for custom labels, in the order the labels were issued. -/
def rep (st : MaskRestore) : List (Text × Text) :=
  st.custom.map fun k => (k, (st.entries.lookup k).getD [])

def restore : Text :=
  if st.keys = [] ∨ s = [] then s
  else
    let out := if st.canonical ≠ ∅ ∧ '{' ∈ s then st.restoreCanonical s else s
    if st.custom ≠ [] then rewrite (pairTok st.rep) 0 out else out

/-- Bytes a spelling may be longer than the label it stands for. -/
def tolerantHoldbackSlack : Nat := 16

def holdbackExact : Text :=
  (s.tails.find? fun suf =>
    !suf.isEmpty && byteLen suf ≤ st.maxKeyLen - 1 &&
      st.keys.any fun k => byteLen suf < byteLen k && suf.isPrefixOf k).getD []

def holdbackTolerant : Text :=
  (s.tails.find? fun suf =>
    suf.head? == some '{' && byteLen suf ≤ st.maxKeyLen + tolerantHoldbackSlack - 1 &&
      viablePrefix suf).getD []

/-- The end of `s` that may be the beginning of a placeholder. -/
def holdback : Text :=
  let hold := st.holdbackExact s
  if st.canonical ≠ ∅ ∧ byteLen hold < byteLen (st.holdbackTolerant s) then
    st.holdbackTolerant s
  else hold

end MaskRestore

/-! ## Numbering the masked request -/

/-- One family of masked spans as the detector reports it. -/
structure RestorableMask where
  token : Text
  numberedPrefix : Text
  numberedSuffix : Text
  spans : List (Nat × Nat)

/-- The tokens at the head of every place, each with its position, the first `skip` characters
belonging to a token already found. -/
def scanTokens (ordered : List Text) : Nat → Nat → Text → List (Text × Nat)
  | _, _, [] => []
  | pos, skip + 1, _ :: s => scanTokens ordered (pos + 1) skip s
  | pos, 0, c :: s =>
    match ordered.find? fun t => t.isPrefixOf (c :: s) with
    | some t => (t, pos) :: scanTokens ordered (pos + 1) (t.length - 1) s
    | none => scanTokens ordered (pos + 1) 0 s

/-- The positions of every token, the longest token that fits winning. -/
def scanTokenOccurrences (s : Text) (tokens : List Text) (token : Text) : List Nat :=
  let ordered := tokens.insertionSort fun a b => byteLen b ≤ byteLen a
  ((scanTokens ordered 0 0 s).filter fun o => o.1 = token).map Prod.snd

def restorableWellFormed (r : RestorableMask) : Bool :=
  r.token ≠ [] && (r.numberedPrefix ≠ [] || r.numberedSuffix ≠ []) && r.spans ≠ []

/-- The families that may be numbered: well formed, and alone with their token. -/
def usableRestorables (restorables : List RestorableMask) : List RestorableMask :=
  let formed := restorables.filter restorableWellFormed
  formed.filter fun r => formed.countP (fun q => q.token = r.token) ≤ 1

/-- The spans are not empty, follow each other and lie in a text of length `headLen`. -/
def spansValid (headLen : Nat) : Nat → List (Nat × Nat) → Bool
  | _, [] => true
  | prevEnd, sp :: sps =>
    if sp.1 < prevEnd ∨ sp.2 ≤ sp.1 ∨ headLen < sp.2 then false else spansValid headLen sp.2 sps

def slice (s : Text) (sp : Nat × Nat) : Text := (s.take sp.2).drop sp.1

/-- One occurrence of a token, with the span it stands for. -/
structure Occ where
  pos : Nat
  tokenLen : Nat
  numberedPrefix : Text
  numberedSuffix : Text
  orig : Text
  span : Nat × Nat

/-- The occurrences of one family, or none if they do not line up with its spans. -/
def familyOccs (head : Text) (positions : List Nat) (r : RestorableMask) : List Occ :=
  if spansValid head.length 0 r.spans = false ∨ positions.length ≠ r.spans.length then []
  else
    List.zipWith
      (fun pos sp =>
        ⟨pos, r.token.length, r.numberedPrefix, r.numberedSuffix, slice head sp, sp⟩)
      positions r.spans

def occsApart : List Occ → Bool
  | a :: b :: occs => decide (a.pos + a.tokenLen ≤ b.pos) && occsApart (b :: occs)
  | _ => true

/-- Rewrite the occurrences in order, from position `last` of the masked text on: the new text,
the label of every span, and the table. -/
def rebuild (masked : Text) : List Occ → Nat → MaskRestore →
    Text × List ((Nat × Nat) × Text) × MaskRestore
  | [], last, st => (masked.drop last, [], st)
  | o :: occs, last, st =>
    let label := o.numberedPrefix ++ Nat.toDigits 10 st.nextN ++ o.numberedSuffix
    let st := { st with nextN := st.nextN + 1 }.add label o.orig
    let (text, labels, st) := rebuild masked occs (o.pos + o.tokenLen) st
    (slice masked (last, o.pos) ++ label ++ text, (o.span, label) :: labels, st)

/-- Number the tokens of `masked`, which stands for `head`. The labels come back by the span of
`head` they went upstream for. -/
def renumberRestorables (head masked : Text) (restorables : List RestorableMask)
    (st : MaskRestore) : Text × Table (Nat × Nat) Text × MaskRestore :=
  let usable := usableRestorables restorables
  let positionsByToken := scanTokenOccurrences masked (usable.map (·.token))
  let occs := (usable.flatMap fun r => familyOccs head (positionsByToken r.token) r).insertionSort
    fun a b => a.pos ≤ b.pos
  if occs = [] ∨ occsApart occs = false then (masked, ∅, st)
  else
    let (text, labels, st) := rebuild masked occs 0 st
    (text, assignAll ∅ labels, st)

structure MaskCall where
  head : Text
  masked : Text
  restorables : List RestorableMask

def renumberAll (calls : List MaskCall) : MaskRestore :=
  calls.foldl (fun st c => (renumberRestorables c.head c.masked c.restorables st).2.2)
    newMaskRestore

end AikeyProxy.Proxy
