import Mathlib.Data.List.Sort
import Mathlib.Data.String.Basic

/-!
# A directory of append-only log files

A writer appends to one file at a time, a reader takes the files in the order of their names, and
whole files are dropped. A reader may stop inside a file; one that reads every file to its end sees
the entries some file holds.
-/

namespace Lib

/-- A file of the directory, as the list of its well-formed lines. -/
structure LogFile (E : Type) where
  name : String
  entries : List E
  deriving DecidableEq

variable {E : Type}

def Holds (files : List (LogFile E)) (e : E) : Prop := ∃ f ∈ files, e ∈ f.entries

def touch (name : String) (files : List (LogFile E)) : List (LogFile E) :=
  if files.any (fun f => f.name = name) then files else files ++ [⟨name, []⟩]

def appendToFile (name : String) (e : E) : List (LogFile E) → List (LogFile E)
  | [] => [⟨name, [e]⟩]
  | f :: fs =>
    if f.name = name then { f with entries := f.entries ++ [e] } :: fs
    else f :: appendToFile name e fs

def sortedFiles (files : List (LogFile E)) : List (LogFile E) :=
  files.insertionSort (fun f g => f.name ≤ g.name)

def contents (files : List (LogFile E)) : List E := (sortedFiles files).flatMap (·.entries)

/-- What a reader returns that gets `reach` entries into each file, none into one it cannot open. -/
def readAll (reach : String → Nat) (files : List (LogFile E)) : List E :=
  (sortedFiles files).flatMap fun f => f.entries.take (reach f.name)

def ReadsAll (reach : String → Nat) (files : List (LogFile E)) : Prop :=
  ∀ f ∈ files, f.entries.length ≤ reach f.name
  deriving Decidable

variable {files : List (LogFile E)} {e : E}

theorem mem_sortedFiles {f : LogFile E} : f ∈ sortedFiles files ↔ f ∈ files :=
  (List.perm_insertionSort _ files).mem_iff

theorem mem_contents : e ∈ contents files ↔ Holds files e := by
  simp only [contents, List.mem_flatMap, mem_sortedFiles, Holds]

theorem ReadsAll.eq_contents {reach : String → Nat} (h : ReadsAll reach files) :
    readAll reach files = contents files :=
  List.flatMap_congr fun f hf => List.take_of_length_le (h f (mem_sortedFiles.mp hf))

theorem holds_appendToFile {name : String} {e' : E} {files : List (LogFile E)} :
    Holds (appendToFile name e files) e' ↔ e' = e ∨ Holds files e' := by
  unfold Holds
  fun_induction appendToFile name e files with
  | case1 => simp
  | case2 f fs hname =>
    simp only [List.mem_cons, exists_eq_or_imp, List.mem_append, List.not_mem_nil, or_false]
    tauto
  | case3 f fs hname ih =>
    simp only [List.mem_cons, exists_eq_or_imp, ih]
    tauto

theorem Holds.kept {kept : List (LogFile E)} (h : Holds files e)
    (hdrop : ∀ f ∈ files, f ∉ kept → e ∉ f.entries) : Holds kept e := by
  obtain ⟨f, hf, he⟩ := h
  by_contra hnot
  refine hdrop f hf (fun hk => hnot ⟨f, hk, he⟩) he

end Lib
