import AikeyProxy.Lib.Run
import AikeyProxy.Lib.Utf8
import AikeyProxy.Events.WalFile

/-!
# What a torn line costs

What the scanner has read of a file stays when bytes are added, since finished lines are never
changed. An entry that is appended behind a torn line becomes part of that line.
-/

namespace AikeyProxy.Events

open Lib List

variable {E : Type} {json : EntryJson E}

/-- An entry is appended to a file that ends with a newline, that the scanner can read to its end,
and its own line is not too long. -/
def WalWriteOk (json : EntryJson E) (s : WalLog E) : WalWrite E → Prop
  | .append e => (takeLines walNewline s.file).2 = [] ∧
      (∀ l ∈ (takeLines walNewline s.file).1, l.length ≤ walLineCap) ∧
      (json.line e).length ≤ walLineCap
  | .torn _ _ => True

def finishedEntries (json : EntryJson E) (lines : List (List UInt8)) : List E :=
  (scanLines lines []).1.filterMap json.entry?

theorem scanLines_append (ls ms : List (List UInt8)) (rest : List UInt8) :
    (scanLines ls []).1 <+: (scanLines (ls ++ ms) rest).1 := by
  induction ls with
  | nil => exact nil_prefix
  | cons l ls ih =>
    rw [cons_append, scanLines, scanLines]
    split
    · exact prefix_rfl
    · exact cons_prefix_cons.mpr ⟨rfl, ih⟩

theorem scanLines_short {ls : List (List UInt8)} (h : ∀ l ∈ ls, l.length ≤ walLineCap)
    (ms : List (List UInt8)) :
    (scanLines (ls ++ ms) []).1 = (scanLines ls []).1 ++ (scanLines ms []).1 := by
  induction ls with
  | nil => rfl
  | cons l ls ih =>
    have hl : ¬ walLineCap < l.length := Nat.not_lt.mpr (h l mem_cons_self)
    rw [cons_append, scanLines, scanLines, if_neg hl, if_neg hl,
      ih fun l' hl' => h l' (mem_cons_of_mem _ hl')]
    rfl

theorem dropCR_marshal (e : E) : dropCR (json.marshal e) = json.marshal e := by
  obtain ⟨body, hbody⟩ := json.marshal_brace e
  unfold dropCR
  rw [hbody, getLast?_append_of_ne_nil _ (cons_ne_nil _ _)]
  exact if_neg (by decide)

theorem entry?_marshal (e : E) : json.entry? (json.marshal e) = some e := by
  obtain ⟨body, hbody⟩ := json.marshal_brace e
  have hne : json.marshal e ≠ [] := by
    rw [hbody]
    simp
  unfold EntryJson.entry?
  rw [if_neg hne]
  exact json.unmarshal_marshal e

theorem finishedEntries_line {e : E} (h : (json.line e).length ≤ walLineCap) :
    finishedEntries json [json.line e] = [e] := by
  unfold finishedEntries
  rw [scanLines, if_neg (Nat.not_lt.mpr h)]
  unfold EntryJson.line
  rw [dropLast_concat, dropCR_marshal]
  simp [scanLines, entry?_marshal]

theorem takeLines_line_of (e : E) : takeLines walNewline (json.line e) = ([json.line e], []) :=
  takeLines_line (json.newline_notMem e) []

/-- The invariant: every completed entry is one of a finished line that the scanner gets to. -/
def WalReadable (json : EntryJson E) (s : WalLog E) : Prop :=
  s.completed <+ finishedEntries json (takeLines walNewline s.file).1

variable {s : WalLog E}

theorem WalReadable.torn (h : WalReadable json s) (bytes : List UInt8) :
    WalReadable json { s with file := s.file ++ bytes } := by
  unfold WalReadable
  rw [takeLines_append]
  exact h.trans ((scanLines_append _ _ []).sublist.filterMap _)

theorem WalReadable.append (h : WalReadable json s) {e : E} (hok : WalWriteOk json s (.append e)) :
    WalReadable json ⟨s.file ++ json.line e, s.completed ++ [e]⟩ := by
  obtain ⟨hstart, hshort, hline⟩ := hok
  unfold WalReadable
  rw [takeLines_append, hstart, nil_append, takeLines_line_of]
  have hread : finishedEntries json ((takeLines walNewline s.file).1 ++ [json.line e]) =
      finishedEntries json (takeLines walNewline s.file).1 ++ [e] := by
    rw [← finishedEntries_line hline]
    unfold finishedEntries
    rw [scanLines_short hshort, filterMap_append]
  rw [hread]
  exact List.Sublist.append h (List.Sublist.refl _)

theorem WalReadable.step {s' : WalLog E} {w : WalWrite E} (h : WalReadable json s)
    (hok : WalWriteOk json s w) (hs : walWriteStep json s w = some s') : WalReadable json s' := by
  cases w with
  | append e =>
    cases hs
    exact h.append hok
  | torn e k =>
    cases hs
    exact h.torn _

theorem WalReadable.read (h : WalReadable json s) : s.completed <+ (readWALFile json s.file).1 := by
  have hfront := scanLines_append (takeLines walNewline s.file).1 [] (takeLines walNewline s.file).2
  rw [append_nil] at hfront
  exact h.trans (hfront.sublist.filterMap _)

/-- **Completed appends are read back in order** in every run of appends and torn writes whose steps
meet `WalWriteOk`. -/
theorem completed_appends_read {writes : List (WalWrite E)} {s : WalLog E}
    (hrun : Guarded (walWriteStep json) (WalWriteOk json) WalLog.init writes s) :
    s.completed <+ (readWALFile json s.file).1 :=
  (hrun.invariant (I := WalReadable json) (fun _ _ _ h hok hs => h.step hok hs)
    (nil_sublist _)).read

/-! ## Entries as JSON objects -/

section

variable (fields : List (String × String))

def entryObject : Json :=
  .obj (fields.map fun f => (f.1, .str f.2))

def entryFields : Json → Option (List (String × String))
  | .obj members => members.mapM fun m =>
    match m.2 with
    | .str s => some (m.1, s)
    | _ => none
  | _ => none

theorem entryObject_valid : Json.Valid (entryObject fields) := by
  unfold entryObject
  rw [Json.Valid]
  induction fields with
  | nil => trivial
  | cons f fields ih =>
    rw [map_cons, Json.ValidMembers]
    exact ⟨by simp [Json.Valid], ih⟩

theorem entryFields_entryObject : entryFields (entryObject fields) = some fields := by
  unfold entryObject entryFields
  induction fields with
  | nil => rfl
  | cons f fields ih => simp_all

end

def objectEntries : EntryJson (List (String × String)) where
  marshal fields := payloadBytes (entryObject fields)
  unmarshal line := (payloadJson line).bind entryFields
  unmarshal_marshal fields := by
    rw [payloadJson_payloadBytes (entryObject_valid fields), Option.bind_some,
      entryFields_entryObject]
  marshal_brace fields := by
    obtain ⟨cs, hcs⟩ := Json.print_obj (fields.map fun f => (f.1, .str f.2))
    refine ⟨utf8 ('{' :: cs), ?_⟩
    unfold payloadBytes utf8 entryObject
    rw [hcs, ← cons_append, flatMap_append]
    rfl
  newline_notMem fields hmem := by
    exact absurd (payloadBytes_printable (entryObject_valid fields) _ hmem) (by decide)

/-- An entry that is appended, and one that is cut off behind its opening brace. -/
theorem appended_then_torn_read :
    ∃ s, exec (walWriteStep objectEntries) WalLog.init [.append [], .torn [] 1] = some s ∧
      s.completed = [[]] ∧ s.completed <+ (readWALFile objectEntries s.file).1 := by
  have hok : WalWriteOk objectEntries WalLog.init (.append []) := by
    refine ⟨rfl, ?_, ?_⟩
    · exact nofun
    · have hlength : (objectEntries.line []).length = 3 := by rfl
      rw [hlength]
      decide
  refine ⟨_, rfl, rfl, @completed_appends_read _ _ [.append [], .torn [] 1] _ ?_⟩
  exact .cons hok rfl (.cons trivial rfl (.nil _))

/-- The file of an entry that was cut off behind its opening brace, and one appended after it. -/
def mergedLine : List UInt8 := utf8 ['{', '{', '}']

theorem mergedLine_lost : (readWALFile objectEntries (mergedLine ++ [walNewline])).1 = [] := by
  have hlines : takeLines walNewline (mergedLine ++ [walNewline]) =
      ([mergedLine ++ [walNewline]], []) := by decide
  have hscan : scanLines [mergedLine ++ [walNewline]] [] = ([mergedLine], false) := by
    have hshort : ¬ walLineCap < (mergedLine ++ [walNewline]).length := by decide
    rw [scanLines, if_neg hshort]
    rfl
  have hparse : Json.parse ['{', '{', '}'] = none := by decide
  have hentry : objectEntries.entry? mergedLine = none := by
    simp [EntryJson.entry?, objectEntries, mergedLine, payloadJson, runes_utf8, hparse]
  simp [readWALFile, hlines, hscan, hentry]

theorem torn_line_takes_next :
    ¬ ∀ (writes : List (WalWrite (List (String × String)))) (s : WalLog (List (String × String))),
      exec (walWriteStep objectEntries) WalLog.init writes = some s →
      s.completed <+ (readWALFile objectEntries s.file).1 := by
  intro h
  have hread := h [.torn [] 1, .append []] ⟨mergedLine ++ [walNewline], [[]]⟩ rfl
  rw [mergedLine_lost] at hread
  cases hread

end AikeyProxy.Events
