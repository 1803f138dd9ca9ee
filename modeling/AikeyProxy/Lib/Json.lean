import Mathlib.Data.List.TakeWhile
import Mathlib.Data.Nat.Digits.Defs

/-!
# JSON texts

The values, the text `json.Marshal` writes for them and the values `json.Unmarshal` reads. A number
is kept as its literal and an object as the list of its members. Texts are lists of characters;
reading counts down a fuel that the length of the text bounds. A written value is read back,
whatever follows it (`parseValue_print`).
-/

namespace Lib

open List

inductive Json where
  | null
  | bool (b : Bool)
  | num (literal : List Char)
  | str (s : String)
  | arr (items : List Json)
  | obj (members : List (String × Json))

namespace Json

abbrev Members := List (String × Json)

/-! ### Numbers -/

def isNumberChar (c : Char) : Bool :=
  c.isDigit || c == '-' || c == '+' || c == '.' || c == 'e' || c == 'E'

def isExponent : List Char → Bool
  | [] => true
  | e :: rest =>
    (e == 'e' || e == 'E') &&
      match rest with
      | [] => false
      | s :: digits =>
        if s == '+' || s == '-' then !digits.isEmpty && digits.all Char.isDigit
        else rest.all Char.isDigit

def isFraction : List Char → Bool
  | '.' :: rest =>
    !(rest.takeWhile Char.isDigit).isEmpty && isExponent (rest.dropWhile Char.isDigit)
  | rest => isExponent rest

def isUnsigned (literal : List Char) : Bool :=
  match literal with
  | '0' :: rest => isFraction rest
  | c :: rest => c.isDigit && isFraction (rest.dropWhile Char.isDigit)
  | [] => false

def isNumber : List Char → Bool
  | '-' :: rest => isUnsigned rest
  | literal => isUnsigned literal

def ofInt (n : Int) : Json :=
  if n < 0 then .num ('-' :: Nat.toDigits 10 n.natAbs) else .num (Nat.toDigits 10 n.natAbs)

def digits? (ds : List Char) : Option Nat :=
  if !ds.isEmpty && ds.all Char.isDigit then some (Nat.ofDigitChars 10 ds 0) else none

def literalInt? : List Char → Option Int
  | '-' :: ds => (digits? ds).map fun n : Nat => -(n : Int)
  | ds => (digits? ds).map fun n : Nat => (n : Int)

/-- An integer literal in the range of `int`, as `strconv.ParseInt` reads it. -/
def toInt64? : Json → Option Int64
  | .num literal =>
    match literalInt? literal with
    | some n => if -2 ^ 63 ≤ n ∧ n < 2 ^ 63 then some (Int64.ofInt n) else none
    | none => none
  | _ => none

/-- A value read into a variable that holds `old`. -/
def readString (old : String) : Json → Option String
  | .str s => some s
  | .null => some old
  | _ => none

def readInt (old : Int64) : Json → Option Int64
  | .null => some old
  | v => v.toInt64?

/-! ### Strings -/

def hex4 (n : Nat) : List Char :=
  [Nat.digitChar (n / 4096 % 16), Nat.digitChar (n / 256 % 16), Nat.digitChar (n / 16 % 16),
    Nat.digitChar (n % 16)]

/-- How `json.Marshal` writes a character of a string. -/
def escape (c : Char) : List Char :=
  if c = '"' then ['\\', '"']
  else if c = '\\' then ['\\', '\\']
  else if c = '\x08' then ['\\', 'b']
  else if c = '\x0c' then ['\\', 'f']
  else if c = '\n' then ['\\', 'n']
  else if c = '\r' then ['\\', 'r']
  else if c = '\t' then ['\\', 't']
  else if c.toNat < 0x20 ∨ c = '<' ∨ c = '>' ∨ c = '&' ∨ c = '\u2028' ∨
      c = '\u2029' then
    '\\' :: 'u' :: hex4 c.toNat
  else [c]

def hexVal? (c : Char) : Option Nat :=
  if '0' ≤ c ∧ c ≤ '9' then some (c.toNat - '0'.toNat)
  else if 'a' ≤ c ∧ c ≤ 'f' then some (c.toNat - 'a'.toNat + 10)
  else if 'A' ≤ c ∧ c ≤ 'F' then some (c.toNat - 'A'.toNat + 10)
  else none

def hexVal4? (a b c d : Char) : Option Nat :=
  match hexVal? a, hexVal? b, hexVal? c, hexVal? d with
  | some a, some b, some c, some d => some (a * 4096 + b * 256 + c * 16 + d)
  | _, _, _, _ => none

def unescape? (c : Char) : Option Char :=
  if c = '"' ∨ c = '\\' ∨ c = '/' then some c
  else if c = 'b' then some '\x08'
  else if c = 'f' then some '\x0c'
  else if c = 'n' then some '\n'
  else if c = 'r' then some '\r'
  else if c = 't' then some '\t'
  else none

/-- The characters of a string up to its closing quote, as code points or as the halves of
surrogate pairs, and what follows. -/
def parseUnits : List Char → Option (List Nat × List Char)
  | '"' :: rest => some ([], rest)
  | '\\' :: 'u' :: a :: b :: c :: d :: rest =>
    match hexVal4? a b c d with
    | none => none
    | some unit => (parseUnits rest).map fun p => (unit :: p.1, p.2)
  | '\\' :: e :: rest =>
    match unescape? e with
    | none => none
    | some c => (parseUnits rest).map fun p => (c.toNat :: p.1, p.2)
  | c :: rest =>
    if c.toNat < 0x20 then none else (parseUnits rest).map fun p => (c.toNat :: p.1, p.2)
  | [] => none

/-- Two halves of a surrogate pair are one character; a half on its own is the replacement
character. -/
def joinUnits : List Nat → List Char
  | [] => []
  | [unit] => [if 0xD800 ≤ unit ∧ unit < 0xE000 then '\ufffd' else Char.ofNat unit]
  | unit :: low :: rest =>
    if 0xD800 ≤ unit ∧ unit < 0xDC00 ∧ 0xDC00 ≤ low ∧ low < 0xE000 then
      Char.ofNat (0x10000 + (unit - 0xD800) * 0x400 + (low - 0xDC00)) :: joinUnits rest
    else
      (if 0xD800 ≤ unit ∧ unit < 0xE000 then '\ufffd' else Char.ofNat unit) :: joinUnits (low :: rest)

def parseChars (cs : List Char) : Option (String × List Char) :=
  (parseUnits cs).map fun p => (String.ofList (joinUnits p.1), p.2)

def quote (s : String) : List Char := '"' :: (s.toList.flatMap escape ++ ['"'])

/-! ### Values -/

mutual

def print : Json → List Char
  | .null => ['n', 'u', 'l', 'l']
  | .bool true => ['t', 'r', 'u', 'e']
  | .bool false => ['f', 'a', 'l', 's', 'e']
  | .num literal => literal
  | .str s => quote s
  | .arr [] => ['[', ']']
  | .arr (x :: xs) => '[' :: (print x ++ printItems xs)
  | .obj [] => ['{', '}']
  | .obj ((k, v) :: ms) => '{' :: (quote k ++ ':' :: (print v ++ printMembers ms))

def printItems : List Json → List Char
  | [] => [']']
  | x :: xs => ',' :: (print x ++ printItems xs)

def printMembers : Members → List Char
  | [] => ['}']
  | (k, v) :: ms => ',' :: (quote k ++ ':' :: (print v ++ printMembers ms))

end

def isBlank (c : Char) : Bool := c == ' ' || c == '\t' || c == '\n' || c == '\r'

def skipBlanks (cs : List Char) : List Char := cs.dropWhile isBlank

def parseWord : List Char → Option (Json × List Char)
  | 'n' :: 'u' :: 'l' :: 'l' :: rest => some (.null, rest)
  | 't' :: 'r' :: 'u' :: 'e' :: rest => some (.bool true, rest)
  | 'f' :: 'a' :: 'l' :: 's' :: 'e' :: rest => some (.bool false, rest)
  | _ => none

def parseNumber (cs : List Char) : Option (Json × List Char) :=
  let literal := cs.takeWhile isNumberChar
  if isNumber literal then some (.num literal, cs.dropWhile isNumberChar) else none

mutual

def parseValue : Nat → List Char → Option (Json × List Char)
  | 0, _ => none
  | fuel + 1, cs =>
    match skipBlanks cs with
    | [] => none
    | c :: rest =>
      if c = '"' then (parseChars rest).map fun p => (.str p.1, p.2)
      else if c = '[' then
        match skipBlanks rest with
        | ']' :: rest => some (.arr [], rest)
        | rest => (parseItems fuel rest).map fun p => (.arr p.1, p.2)
      else if c = '{' then
        match skipBlanks rest with
        | '}' :: rest => some (.obj [], rest)
        | rest => (parseMembers fuel rest).map fun p => (.obj p.1, p.2)
      else if isNumberChar c then parseNumber (c :: rest)
      else parseWord (c :: rest)

def parseItems : Nat → List Char → Option (List Json × List Char)
  | 0, _ => none
  | fuel + 1, cs =>
    match parseValue fuel cs with
    | none => none
    | some (x, rest) =>
      match skipBlanks rest with
      | ',' :: rest => (parseItems fuel rest).map fun p => (x :: p.1, p.2)
      | ']' :: rest => some ([x], rest)
      | _ => none

def parseMembers : Nat → List Char → Option (Members × List Char)
  | 0, _ => none
  | fuel + 1, cs =>
    match skipBlanks cs with
    | '"' :: rest =>
      match parseChars rest with
      | none => none
      | some (k, rest) =>
        match skipBlanks rest with
        | ':' :: rest =>
          match parseValue fuel rest with
          | none => none
          | some (v, rest) =>
            match skipBlanks rest with
            | ',' :: rest => (parseMembers fuel rest).map fun p => ((k, v) :: p.1, p.2)
            | '}' :: rest => some ([(k, v)], rest)
            | _ => none
        | _ => none
    | _ => none

end

/-- The value of a text: one value, and nothing but blanks around it. -/
def parse (cs : List Char) : Option Json :=
  match parseValue (2 * cs.length) cs with
  | some (v, rest) => if skipBlanks rest = [] then some v else none
  | none => none

def parseFirst (cs : List Char) : Option Json := (parseValue (2 * cs.length) cs).map Prod.fst

/-! ### What is written is read back -/

theorem hexVal?_digitChar : ∀ n < 16, hexVal? (Nat.digitChar n) = some n := by decide

theorem hexVal4?_hex4 {n : Nat} (h : n < 65536) (rest : List Char) :
    ∃ a b c d, hex4 n ++ rest = a :: b :: c :: d :: rest ∧ hexVal4? a b c d = some n := by
  refine ⟨_, _, _, _, rfl, ?_⟩
  rw [hexVal4?, hexVal?_digitChar _ (Nat.mod_lt _ (by decide)),
    hexVal?_digitChar _ (Nat.mod_lt _ (by decide)), hexVal?_digitChar _ (Nat.mod_lt _ (by decide)),
    hexVal?_digitChar _ (Nat.mod_lt _ (by decide))]
  simp only [Option.some.injEq]
  omega

theorem parseUnits_escape (c : Char) (rest : List Char) :
    parseUnits (escape c ++ rest) = (parseUnits rest).map fun p => (c.toNat :: p.1, p.2) := by
  unfold escape
  split_ifs with h1 h2 h3 h4 h5 h6 h7 h8
  · subst h1; rfl
  · subst h2; rfl
  · subst h3; rfl
  · subst h4; rfl
  · subst h5; rfl
  · subst h6; rfl
  · subst h7; rfl
  · have hn : c.toNat < 65536 := by
      rcases h8 with h | rfl | rfl | rfl | rfl | rfl
      · omega
      all_goals decide
    obtain ⟨a, b, d, e, happ, hval⟩ := hexVal4?_hex4 hn rest
    rw [cons_append, cons_append, happ, parseUnits, hval]
  · rw [not_or] at h8
    rw [singleton_append, parseUnits.eq_def]
    simp [h2, h8.1]

theorem parseUnits_flatMap (cs rest : List Char) :
    parseUnits (cs.flatMap escape ++ '"' :: rest) = some (cs.map Char.toNat, rest) := by
  induction cs with
  | nil => rfl
  | cons c cs ih =>
    rw [List.flatMap_cons, List.append_assoc, parseUnits_escape, ih]
    rfl

theorem not_surrogate (c : Char) : ¬ (0xD800 ≤ c.toNat ∧ c.toNat < 0xE000) := by
  have hv : c.toNat < 0xD800 ∨ 0xDFFF < c.toNat ∧ c.toNat < 0x110000 := c.valid
  omega

theorem joinUnits_toNat (cs : List Char) : joinUnits (cs.map Char.toNat) = cs := by
  induction cs with
  | nil => rfl
  | cons c cs ih =>
    have hc := not_surrogate c
    cases cs with
    | nil => simp [joinUnits, hc]
    | cons d cs =>
      have hpair : ¬ (0xD800 ≤ c.toNat ∧ c.toNat < 0xDC00 ∧ 0xDC00 ≤ d.toNat ∧ d.toNat < 0xE000) :=
        fun h => hc ⟨h.1, by omega⟩
      rw [List.map_cons, List.map_cons, joinUnits, if_neg hpair, if_neg hc, Char.ofNat_toNat,
        ← List.map_cons, ih]

theorem parseChars_quote (s : String) (rest : List Char) :
    parseChars (s.toList.flatMap escape ++ '"' :: rest) = some (s, rest) := by
  rw [parseChars, parseUnits_flatMap, Option.map_some, joinUnits_toNat, String.ofList_toList]

def NoNumber (rest : List Char) : Prop := ∀ c ∈ rest.head?, isNumberChar c = false

variable {literal rest cs : List Char} {c : Char} {v : Json} {fuel : Nat}

theorem takeWhile_append_noNumber (hall : literal.all isNumberChar = true) (hrest : NoNumber rest) :
    (literal ++ rest).takeWhile isNumberChar = literal ∧
      (literal ++ rest).dropWhile isNumberChar = rest := by
  have hin : ∀ c ∈ literal, isNumberChar c = true := all_eq_true.mp hall
  have hout : rest.takeWhile isNumberChar = [] ∧ rest.dropWhile isNumberChar = rest := by
    cases rest with
    | nil => exact ⟨rfl, rfl⟩
    | cons c cs =>
      have hc := hrest c rfl
      simp [hc]
  rw [takeWhile_append_of_pos hin, dropWhile_append_of_pos hin, hout.1, hout.2,
    append_nil]
  exact ⟨rfl, rfl⟩

mutual

def Valid : Json → Prop
  | .num literal => isNumber literal = true ∧ literal.all isNumberChar = true
  | .arr items => ValidItems items
  | .obj members => ValidMembers members
  | _ => True

def ValidItems : List Json → Prop
  | [] => True
  | x :: xs => Valid x ∧ ValidItems xs

def ValidMembers : Members → Prop
  | [] => True
  | (_, v) :: ms => Valid v ∧ ValidMembers ms

end

mutual

/-- The fuel that reading the text of a value takes. -/
def cost : Json → Nat
  | .arr items => 1 + costItems items
  | .obj members => 1 + costMembers members
  | _ => 1

def costItems : List Json → Nat
  | [] => 0
  | x :: xs => 1 + cost x + costItems xs

def costMembers : Members → Nat
  | [] => 0
  | (_, v) :: ms => 1 + cost v + costMembers ms

end

theorem skipBlanks_cons (h : isBlank c = false) (cs : List Char) :
    skipBlanks (c :: cs) = c :: cs := by
  rw [skipBlanks, dropWhile_cons_of_neg (by simp [h])]

theorem isNumber_ne_nil (h : isNumber literal = true) : literal ≠ [] := by
  rintro rfl
  exact absurd h (by decide)

theorem not_isBlank_of_isNumberChar (h : isNumberChar c = true) :
    isBlank c = false ∧ c ≠ ']' ∧ c ≠ '"' ∧ c ≠ '[' ∧ c ≠ '{' := by
  refine ⟨?_, ?_, ?_, ?_, ?_⟩
  · rw [Bool.eq_false_iff]
    intro hb
    simp only [isBlank, Bool.or_eq_true, beq_iff_eq] at hb
    rcases hb with ((rfl | rfl) | rfl) | rfl <;> exact absurd h (by decide)
  all_goals
    rintro rfl
    exact absurd h (by decide)

theorem print_head (h : Valid v) : ∃ c cs, print v = c :: cs ∧ isBlank c = false ∧ c ≠ ']' := by
  cases v with
  | null => exact ⟨_, _, by rw [print], rfl, by decide⟩
  | bool b => cases b <;> exact ⟨_, _, by rw [print], rfl, by decide⟩
  | num literal =>
    rw [Valid] at h
    cases literal with
    | nil => exact absurd h.1 (by decide)
    | cons c cs =>
      have hc : isNumberChar c = true := List.all_eq_true.mp h.2 c List.mem_cons_self
      exact ⟨c, cs, by rw [print], (not_isBlank_of_isNumberChar hc).1,
        (not_isBlank_of_isNumberChar hc).2.1⟩
  | str s => exact ⟨_, _, by rw [print, quote], rfl, by decide⟩
  | arr items =>
    cases items with
    | nil | cons x xs => exact ⟨_, _, by rw [print], rfl, by decide⟩
  | obj members =>
    cases members with
    | nil | cons m ms => exact ⟨_, _, by rw [print], rfl, by decide⟩

theorem noNumber_cons (h : isNumberChar c = false) (cs : List Char) : NoNumber (c :: cs) := by
  intro d hd
  cases hd
  exact h

theorem noNumber_printItems (xs : List Json) (rest : List Char) :
    NoNumber (printItems xs ++ rest) := by
  cases xs with
  | nil => exact noNumber_cons (by decide) _
  | cons x xs => rw [printItems]; exact noNumber_cons (by decide) _

theorem noNumber_printMembers (ms : Members) (rest : List Char) :
    NoNumber (printMembers ms ++ rest) := by
  cases ms with
  | nil => exact noNumber_cons (by decide) _
  | cons m ms => rw [printMembers]; exact noNumber_cons (by decide) _

theorem parseNumber_print (h : Valid (.num literal)) (hrest : NoNumber rest) :
    parseNumber (literal ++ rest) = some (.num literal, rest) := by
  rw [Valid] at h
  obtain ⟨htake, hdrop⟩ := takeWhile_append_noNumber h.2 hrest
  rw [parseNumber, htake, hdrop]
  simp [h.1]

/-- What reading with this fuel gives on the text of a value, of the items of an array and of
the members of an object. -/
structure ReadsBack (fuel : Nat) : Prop where
  value : ∀ (v : Json) (rest : List Char), Valid v → cost v ≤ fuel → NoNumber rest →
    parseValue fuel (print v ++ rest) = some (v, rest)
  items : ∀ (x : Json) (xs : List Json) (rest : List Char), ValidItems (x :: xs) →
    costItems (x :: xs) ≤ fuel →
    parseItems fuel (print x ++ (printItems xs ++ rest)) = some (x :: xs, rest)
  members : ∀ (k : String) (v : Json) (ms : Members) (rest : List Char),
    ValidMembers ((k, v) :: ms) → costMembers ((k, v) :: ms) ≤ fuel →
    parseMembers fuel (quote k ++ ':' :: (print v ++ (printMembers ms ++ rest))) =
      some ((k, v) :: ms, rest)

theorem one_le_cost (v : Json) : 1 ≤ cost v := by
  cases v <;> simp [cost]

theorem readsBack_zero : ReadsBack 0 where
  value v _ _ h := absurd (one_le_cost v) (by omega)
  items x xs _ _ h := by rw [costItems] at h; omega
  members k v ms _ _ h := by rw [costMembers] at h; omega

theorem ReadsBack.value_succ (ih : ReadsBack fuel) (v : Json) (rest : List Char) (hv : Valid v)
    (hcost : cost v ≤ fuel + 1) (hrest : NoNumber rest) :
    parseValue (fuel + 1) (print v ++ rest) = some (v, rest) := by
  cases v with
  | null => rw [print, parseValue]; rfl
  | bool b => cases b <;> rw [print, parseValue] <;> rfl
  | num literal =>
    have hnum := parseNumber_print hv hrest
    rw [Valid] at hv
    cases literal with
    | nil => exact absurd hv.1 (by decide)
    | cons c cs =>
      have hc : isNumberChar c = true := List.all_eq_true.mp hv.2 c List.mem_cons_self
      obtain ⟨hblank, -, hq, hb, ho⟩ := not_isBlank_of_isNumberChar hc
      rw [print, parseValue, List.cons_append, skipBlanks_cons hblank]
      simp only [hq, hb, ho, hc, if_true, if_false]
      exact hnum
  | str s =>
    rw [print, quote, parseValue, List.cons_append, skipBlanks_cons (by decide), List.append_assoc]
    simp only [if_true, List.singleton_append, parseChars_quote, Option.map_some]
  | arr items =>
    cases items with
    | nil => rw [print, parseValue]; rfl
    | cons x xs =>
      rw [cost] at hcost
      rw [Valid] at hv
      obtain ⟨c, cs, hprint, hblank, hclose⟩ := print_head hv.1
      have hitems := ih.items x xs rest hv (by omega)
      rw [print, parseValue, List.cons_append, skipBlanks_cons (by decide), List.append_assoc]
      rw [hprint, List.cons_append] at hitems ⊢
      simp only [if_true, if_false, skipBlanks_cons hblank, show ('[' : Char) ≠ '"' by decide]
      split
      next heq =>
        exact absurd (List.cons.inj heq).1 hclose
      · rw [hitems]
        rfl
  | obj members =>
    cases members with
    | nil => rw [print, parseValue]; rfl
    | cons m ms =>
      obtain ⟨k, v⟩ := m
      rw [cost] at hcost
      rw [Valid] at hv
      have hmembers := ih.members k v ms rest hv (by omega)
      rw [print, parseValue, cons_append, skipBlanks_cons (by decide), append_assoc,
        cons_append, append_assoc]
      simp only [if_true, if_false, show ('{' : Char) ≠ '"' by decide,
        show ('{' : Char) ≠ '[' by decide]
      rw [quote, cons_append] at hmembers ⊢
      rw [skipBlanks_cons (by decide)]
      split
      next heq =>
        exact absurd (List.cons.inj heq).1 (by decide)
      · rw [hmembers]
        rfl

theorem ReadsBack.items_succ (ih : ReadsBack fuel) (x : Json) (xs : List Json) (rest : List Char)
    (hv : ValidItems (x :: xs)) (hcost : costItems (x :: xs) ≤ fuel + 1) :
    parseItems (fuel + 1) (print x ++ (printItems xs ++ rest)) = some (x :: xs, rest) := by
  rw [ValidItems] at hv
  rw [costItems] at hcost
  rw [parseItems, ih.value x _ hv.1 (by omega) (noNumber_printItems xs rest)]
  cases xs with
  | nil => rfl
  | cons y ys =>
    have hrest := ih.items y ys rest hv.2 (by omega)
    rw [printItems, cons_append, append_assoc]
    simp only [skipBlanks_cons (show isBlank ',' = false by decide), hrest, Option.map_some]

theorem ReadsBack.members_succ (ih : ReadsBack fuel) (k : String) (v : Json)
    (ms : Members) (rest : List Char) (hv : ValidMembers ((k, v) :: ms))
    (hcost : costMembers ((k, v) :: ms) ≤ fuel + 1) :
    parseMembers (fuel + 1) (quote k ++ ':' :: (print v ++ (printMembers ms ++ rest))) =
      some ((k, v) :: ms, rest) := by
  rw [ValidMembers] at hv
  rw [costMembers] at hcost
  have hvalue := ih.value v _ hv.1 (by omega) (noNumber_printMembers ms rest)
  rw [quote, cons_append, parseMembers, skipBlanks_cons (by decide), append_assoc]
  simp only [singleton_append, parseChars_quote,
    skipBlanks_cons (show isBlank ':' = false by decide), hvalue]
  cases ms with
  | nil => rfl
  | cons m ms =>
    obtain ⟨k', v'⟩ := m
    have hrest := ih.members k' v' ms rest hv.2 (by omega)
    rw [printMembers, cons_append, append_assoc, cons_append, append_assoc]
    simp only [skipBlanks_cons (show isBlank ',' = false by decide), hrest, Option.map_some]

theorem readsBack (fuel : Nat) : ReadsBack fuel := by
  induction fuel with
  | zero => exact readsBack_zero
  | succ fuel ih => exact ⟨ih.value_succ, ih.items_succ, ih.members_succ⟩

/-- **A written value is read back.** -/
theorem parseValue_print (hv : Valid v) (hfuel : cost v ≤ fuel) (hrest : NoNumber rest) :
    parseValue fuel (print v ++ rest) = some (v, rest) :=
  (readsBack fuel).value v rest hv hfuel hrest

/-! ### The fuel of `parse` -/

mutual

theorem cost_lt_print : ∀ (v : Json), Valid v → cost v < 2 * (print v).length
  | .null, _ => by simp [cost, print]
  | .bool b, _ => by cases b <;> simp [cost, print]
  | .num literal, h => by
    rw [Valid] at h
    have hpos := length_pos_iff.mpr (isNumber_ne_nil h.1)
    simp only [cost, print]
    omega
  | .str s, _ => by simp [cost, print, quote]; omega
  | .arr [], _ => by simp [cost, costItems, print]
  | .arr (x :: xs), h => by
    rw [Valid, ValidItems] at h
    have hx := cost_lt_print x h.1
    have hxs := costItems_le_print xs h.2
    simp only [cost, costItems, print, length_cons, length_append]
    omega
  | .obj [], _ => by simp [cost, costMembers, print]
  | .obj ((k, v) :: ms), h => by
    rw [Valid, ValidMembers] at h
    have hv := cost_lt_print v h.1
    have hms := costMembers_le_print ms h.2
    simp only [cost, costMembers, print, length_cons, length_append]
    omega

theorem costItems_le_print : ∀ (xs : List Json), ValidItems xs →
    costItems xs ≤ 2 * (printItems xs).length
  | [], _ => by simp [costItems]
  | x :: xs, h => by
    rw [ValidItems] at h
    have hx := cost_lt_print x h.1
    have hxs := costItems_le_print xs h.2
    simp only [costItems, printItems, length_cons, length_append]
    omega

theorem costMembers_le_print : ∀ (ms : Members), ValidMembers ms →
    costMembers ms ≤ 2 * (printMembers ms).length
  | [], _ => by simp [costMembers]
  | (k, v) :: ms, h => by
    rw [ValidMembers] at h
    have hv := cost_lt_print v h.1
    have hms := costMembers_le_print ms h.2
    simp only [costMembers, printMembers, length_cons, length_append]
    omega

end

theorem parse_append (hv : Valid v) (hrest : NoNumber rest) :
    parse (print v ++ rest) = if skipBlanks rest = [] then some v else none := by
  have hcost := cost_lt_print v hv
  rw [parse, parseValue_print hv (by rw [length_append]; omega) hrest]

theorem parse_print (hv : Valid v) : parse (print v) = some v := by
  have h : parse (print v ++ []) = _ := parse_append hv (by intro c hc; cases hc)
  rw [append_nil] at h
  rw [h, skipBlanks, dropWhile_nil, if_pos rfl]

theorem parseFirst_print (hv : Valid v) : parseFirst (print v) = some v := by
  have hcost := cost_lt_print v hv
  have h := parseValue_print hv (Nat.le_of_lt hcost) (show NoNumber [] by intro c hc; cases hc)
  rw [append_nil] at h
  rw [parseFirst, h, Option.map_some]

/-! ### Written texts have no control characters -/

def Printable (cs : List Char) : Prop := ∀ c ∈ cs, 0x20 ≤ c.toNat

theorem printable_of_all (h : cs.all (fun c => decide (0x20 ≤ c.toNat)) = true) : Printable cs :=
  fun c hc => of_decide_eq_true (all_eq_true.mp h c hc)

theorem escape_printable (c : Char) : Printable (escape c) := by
  have hhex : ∀ n < 16, 0x20 ≤ (Nat.digitChar n).toNat := by decide
  unfold escape
  split_ifs with h1 h2 h3 h4 h5 h6 h7 h8
  iterate 7 exact printable_of_all (by decide)
  · intro d hd
    simp only [hex4, mem_cons, not_mem_nil, or_false] at hd
    rcases hd with rfl | rfl | rfl | rfl | rfl | rfl
    · decide
    · decide
    all_goals exact hhex _ (Nat.mod_lt _ (by decide))
  · intro d hd
    rw [mem_singleton] at hd
    rw [not_or] at h8
    rw [hd]
    omega

theorem quote_printable (s : String) : ∀ c ∈ quote s, 0x20 ≤ c.toNat := by
  intro c hc
  simp only [quote, mem_cons, mem_append, mem_flatMap, not_mem_nil,
    or_false] at hc
  rcases hc with rfl | ⟨d, -, hd⟩ | rfl
  · decide
  · exact escape_printable d c hd
  · decide

theorem isNumberChar_printable (h : isNumberChar c = true) : 0x20 ≤ c.toNat := by
  simp only [isNumberChar, Bool.or_eq_true, beq_iff_eq] at h
  rcases h with ((((h | rfl) | rfl) | rfl) | rfl) | rfl
  · exact Nat.le_trans (by decide) (Char.isDigit_iff_toNat.mp h).1
  all_goals decide

theorem Printable.cons (hc : 0x20 ≤ c.toNat) (h : Printable cs) : Printable (c :: cs) :=
  forall_mem_cons.mpr ⟨hc, h⟩

theorem Printable.append {ds : List Char} (hc : Printable cs) (hd : Printable ds) :
    Printable (cs ++ ds) :=
  forall_mem_append.mpr ⟨hc, hd⟩

theorem Printable.member {k : String} (hv : Printable (print v)) (h : Printable cs) :
    Printable (quote k ++ ':' :: (print v ++ cs)) :=
  Printable.append (quote_printable k) (.cons (by decide) (hv.append h))

mutual

theorem print_printable : ∀ (v : Json), Valid v → Printable (print v)
  | .null, _ => by rw [print]; exact printable_of_all (by decide)
  | .bool true, _ => by rw [print]; exact printable_of_all (by decide)
  | .bool false, _ => by rw [print]; exact printable_of_all (by decide)
  | .num literal, h => by
    rw [Valid] at h
    rw [print]
    exact fun c hc => isNumberChar_printable (all_eq_true.mp h.2 c hc)
  | .str s, _ => by rw [print]; exact quote_printable s
  | .arr [], _ => by rw [print]; exact printable_of_all (by decide)
  | .arr (x :: xs), h => by
    rw [Valid, ValidItems] at h
    rw [print]
    exact .cons (by decide) ((print_printable x h.1).append (printItems_printable xs h.2))
  | .obj [], _ => by rw [print]; exact printable_of_all (by decide)
  | .obj ((k, v) :: ms), h => by
    rw [Valid, ValidMembers] at h
    rw [print]
    exact .cons (by decide) (.member (print_printable v h.1) (printMembers_printable ms h.2))

theorem printItems_printable : ∀ (xs : List Json), ValidItems xs → Printable (printItems xs)
  | [], _ => by rw [printItems]; exact printable_of_all (by decide)
  | x :: xs, h => by
    rw [ValidItems] at h
    rw [printItems]
    exact .cons (by decide) ((print_printable x h.1).append (printItems_printable xs h.2))

theorem printMembers_printable : ∀ (ms : Members), ValidMembers ms →
    Printable (printMembers ms)
  | [], _ => by rw [printMembers]; exact printable_of_all (by decide)
  | (k, v) :: ms, h => by
    rw [ValidMembers] at h
    rw [printMembers]
    exact .cons (by decide) (.member (print_printable v h.1) (printMembers_printable ms h.2))

end

theorem printMembers_brace (ms : Members) : ∃ cs, printMembers ms = cs ++ ['}'] := by
  induction ms with
  | nil => exact ⟨[], by rw [printMembers]; rfl⟩
  | cons m ms ih =>
    obtain ⟨cs, hcs⟩ := ih
    refine ⟨',' :: (quote m.1 ++ ':' :: (print m.2 ++ cs)), ?_⟩
    rw [printMembers, hcs]
    simp

theorem print_obj (ms : Members) : ∃ cs, print (.obj ms) = '{' :: (cs ++ ['}']) := by
  cases ms with
  | nil => exact ⟨[], by rw [print]; rfl⟩
  | cons m ms =>
    obtain ⟨cs, hcs⟩ := printMembers_brace ms
    refine ⟨quote m.1 ++ ':' :: (print m.2 ++ cs), ?_⟩
    rw [print, hcs]
    simp

/-! ### Integers -/

variable (n : Nat)

theorem toDigits_isDigit : ∀ c ∈ Nat.toDigits 10 n, c.isDigit = true :=
  fun _ hc => Nat.isDigit_of_mem_toDigits (by decide) (by decide) hc

theorem toDigits_head {n : Nat} (hn : 0 < n) : ∃ c cs, Nat.toDigits 10 n = c :: cs ∧ c ≠ '0' := by
  induction n using Nat.strongRecOn with
  | ind n ih =>
    by_cases hlt : n < 10
    · refine ⟨_, _, Nat.toDigits_of_lt_base hlt, ?_⟩
      have hall : ∀ m < 10, 0 < m → Nat.digitChar m ≠ '0' := by decide
      exact hall n hlt hn
    · obtain ⟨c, cs, heq, hc⟩ := ih (n / 10) (by omega) (by omega)
      refine ⟨c, cs ++ [(n % 10).digitChar], ?_, hc⟩
      rw [Nat.toDigits_of_base_le (by decide) (by omega), heq, cons_append]

theorem not_minus_toDigits : (Nat.toDigits 10 n).head? ≠ some '-' := by
  intro h
  exact absurd (toDigits_isDigit n '-' (mem_of_mem_head? h)) (by decide)

theorem isUnsigned_toDigits : isUnsigned (Nat.toDigits 10 n) = true := by
  rcases Nat.eq_zero_or_pos n with rfl | hn
  · decide
  · obtain ⟨c, cs, heq, hc⟩ := toDigits_head hn
    have hall := toDigits_isDigit n
    rw [heq] at hall ⊢
    have hdrop : cs.dropWhile Char.isDigit = [] :=
      dropWhile_eq_nil_iff.mpr fun d hd => hall d (mem_cons_of_mem _ hd)
    rw [isUnsigned.eq_def]
    split
    next h =>
      exact absurd (List.cons.inj h).1 hc
    next h =>
      obtain ⟨rfl, rfl⟩ := List.cons.inj h
      rw [hall c mem_cons_self, hdrop]
      rfl
    next h =>
      cases h

theorem isNumber_toDigits : isNumber (Nat.toDigits 10 n) = true := by
  have hminus := not_minus_toDigits n
  rw [isNumber.eq_def]
  split
  next h =>
    rw [h] at hminus
    exact absurd rfl hminus
  · exact isUnsigned_toDigits n

theorem all_isNumberChar_toDigits : (Nat.toDigits 10 n).all isNumberChar = true := by
  rw [all_eq_true]
  intro c hc
  rw [isNumberChar, toDigits_isDigit n c hc]
  rfl

theorem validItems_iff {xs : List Json} : ValidItems xs ↔ ∀ x ∈ xs, Valid x := by
  induction xs <;> simp_all [ValidItems]

theorem validMembers_iff {ms : Members} :
    ValidMembers ms ↔ ∀ m ∈ ms, Valid m.2 := by
  induction ms <;> simp_all [ValidMembers]

theorem valid_ofInt (n : Int) : Valid (ofInt n) := by
  unfold ofInt
  split
  · rw [Valid, isNumber, all_cons, all_isNumberChar_toDigits]
    exact ⟨isUnsigned_toDigits _, rfl⟩
  · rw [Valid]
    exact ⟨isNumber_toDigits _, all_isNumberChar_toDigits _⟩

theorem digits?_toDigits : digits? (Nat.toDigits 10 n) = some n := by
  have hall : (Nat.toDigits 10 n).all Char.isDigit = true :=
    all_eq_true.mpr (toDigits_isDigit n)
  have hne : (Nat.toDigits 10 n).isEmpty = false := by
    rw [isEmpty_eq_false_iff]
    exact Nat.toDigits_ne_nil
  rw [digits?, hall, hne, Nat.ofDigitChars_ten_toDigits]
  rfl

theorem literalInt?_toDigits : literalInt? (Nat.toDigits 10 n) = some (n : Int) := by
  have hminus := not_minus_toDigits n
  rw [literalInt?.eq_def]
  split
  next h =>
    rw [h] at hminus
    exact absurd rfl hminus
  · rw [digits?_toDigits]
    rfl

theorem toInt64?_ofInt (n : Int64) : toInt64? (ofInt n.toInt) = some n := by
  have hlow := n.le_toInt
  have hhigh := n.toInt_lt
  unfold ofInt
  split
  next hneg =>
    rw [toInt64?, literalInt?, digits?_toDigits, Option.map_some]
    rw [show -((n.toInt.natAbs : Nat) : Int) = n.toInt by omega]
    simp only [hlow, hhigh, and_self, if_true, Int64.ofInt_toInt]
  next hpos =>
    rw [toInt64?, literalInt?_toDigits]
    rw [show ((n.toInt.natAbs : Nat) : Int) = n.toInt by omega]
    simp only [hlow, hhigh, and_self, if_true, Int64.ofInt_toInt]

end Json

end Lib
