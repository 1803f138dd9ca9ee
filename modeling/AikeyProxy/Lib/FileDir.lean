import Mathlib.Logic.Function.Basic

/-!
# Names, inodes and open files

A directory links names to inodes and an inode has lines. Whoever has a name open goes on using its
inode, whatever a rename links the name to. So writing is stated on inodes and reading on names.
-/

namespace Lib

open Function

/-- A directory. No two names are linked to one inode, and new inodes are new. -/
structure FileDir (N L : Type) where
  link : N → Option Nat
  content : Nat → List L
  next : Nat
  link_lt : ∀ n i, link n = some i → i < next
  link_inj : ∀ n m i, link n = some i → link m = some i → n = m

namespace FileDir

variable {N L : Type}

variable (d : FileDir N L)

def lines (n : N) : List L :=
  match d.link n with
  | none => []
  | some i => d.content i

variable {i : Nat} {n : N}

theorem lines_of_link {d : FileDir N L} (h : d.link n = some i) : d.lines n = d.content i := by
  rw [lines, h]

theorem exists_link_of_mem_lines {d : FileDir N L} {l : L} (h : l ∈ d.lines n) :
    ∃ i, d.link n = some i := by
  cases hlink : d.link n with
  | none =>
    rw [lines, hlink] at h
    cases h
  | some i => exact ⟨i, rfl⟩

variable [DecidableEq N]

attribute [local grind =] update_apply

/-- Link an absent name to a new, empty inode. -/
def create (n : N) : FileDir N L where
  link := Function.update d.link n (some d.next)
  content := Function.update d.content d.next []
  next := d.next + 1
  link_lt := by
    intro m i h
    have := d.link_lt m i
    grind
  link_inj := by
    intro m m' i h h'
    have := d.link_lt m i
    have := d.link_lt m' i
    have := d.link_inj m m' i
    grind

def setContent (i : Nat) (ls : List L) : FileDir N L :=
  { d with content := Function.update d.content i ls }

def openCreate (n : N) : FileDir N L × Nat :=
  match d.link n with
  | some i => (d, i)
  | none => (d.create n, d.next)

def openTrunc (n : N) : FileDir N L × Nat :=
  match d.link n with
  | some i => (d.setContent i [], i)
  | none => (d.create n, d.next)

def appendTo (i : Nat) (ls : List L) : FileDir N L :=
  d.setContent i (d.content i ++ ls)

/-- Write from the start of an open file: what is longer stays behind. -/
def overwrite (i : Nat) (ls : List L) : FileDir N L :=
  d.setContent i (ls ++ (d.content i).drop ls.length)

def rename (a b : N) : Option (FileDir N L) :=
  match h : d.link a with
  | none => none
  | some i =>
    some
      { d with
        link := Function.update (Function.update d.link a none) b (some i)
        link_lt := by
          intro m j hm
          have := d.link_lt a j
          have := d.link_lt m j
          grind
        link_inj := by
          intro m m' j hm hm'
          have := d.link_inj m m' j
          have := d.link_inj m a j
          have := d.link_inj m' a j
          grind }

def unlink (n : N) : FileDir N L :=
  { d with
    link := Function.update d.link n none
    link_lt := by
      intro m i h
      have := d.link_lt m i
      grind
    link_inj := by
      intro m m' i h h'
      have := d.link_inj m m' i
      grind }

/-! ## What is read afterwards -/

theorem link_create_self (n : N) : (d.create n).link n = some d.next :=
  update_self ..

theorem link_create_ne {m : N} (h : m ≠ n) : (d.create n).link m = d.link m :=
  update_of_ne h ..

theorem link_unlink_self (n : N) : (d.unlink n).link n = none :=
  update_self ..

theorem link_unlink_ne {m : N} (h : m ≠ n) : (d.unlink n).link m = d.link m :=
  update_of_ne h ..

theorem lines_create (habs : d.link n = none) (m : N) : (d.create n).lines m = d.lines m := by
  by_cases hm : m = n
  · subst hm
    rw [lines_of_link (d.link_create_self m), lines, habs]
    exact update_self ..
  · rw [lines, lines, d.link_create_ne hm]
    cases hlink : d.link m with
    | none => rfl
    | some i =>
      have hlt := d.link_lt m i hlink
      have hne : i ≠ d.next := by omega
      exact update_of_ne hne ..

theorem lines_setContent (hlink : d.link n = some i) (ls : List L) (m : N) :
    (d.setContent i ls).lines m = if m = n then ls else d.lines m := by
  by_cases hm : m = n
  · subst hm
    have hlink' : (d.setContent i ls).link m = some i := hlink
    rw [if_pos rfl, lines_of_link hlink']
    exact update_self ..
  · rw [if_neg hm, lines, lines]
    change (match d.link m with | none => [] | some j => Function.update d.content i ls j) = _
    cases hlink' : d.link m with
    | none => rfl
    | some j =>
      have hne : j ≠ i := by
        rintro rfl
        exact hm (d.link_inj m n j hlink' hlink)
      exact update_of_ne hne ..

theorem lines_openCreate (n m : N) : (d.openCreate n).1.lines m = d.lines m := by
  unfold openCreate
  cases hlink : d.link n with
  | some i => rfl
  | none => exact d.lines_create hlink m

theorem link_openCreate_ne {m : N} (h : m ≠ n) : (d.openCreate n).1.link m = d.link m := by
  unfold openCreate
  cases d.link n with
  | some i => rfl
  | none => exact d.link_create_ne h

theorem link_openCreate_self (n : N) : (d.openCreate n).1.link n = some (d.openCreate n).2 := by
  unfold openCreate
  cases hlink : d.link n with
  | some i => exact hlink
  | none => exact d.link_create_self n

theorem link_openCreate_of_link {d : FileDir N L} {m : N} (h : d.link m = some i) (n : N) :
    (d.openCreate n).1.link m = some i := by
  by_cases hm : m = n
  · subst hm
    rw [openCreate, h]
    exact h
  · rw [d.link_openCreate_ne hm, h]

theorem link_openTrunc_self (n : N) : (d.openTrunc n).1.link n = some (d.openTrunc n).2 := by
  unfold openTrunc
  cases hlink : d.link n with
  | some i => exact hlink
  | none => exact d.link_create_self n

theorem link_openTrunc_ne {m : N} (h : m ≠ n) : (d.openTrunc n).1.link m = d.link m := by
  unfold openTrunc
  cases d.link n with
  | some i => rfl
  | none => exact d.link_create_ne h

theorem lines_openTrunc (n m : N) :
    (d.openTrunc n).1.lines m = if m = n then [] else d.lines m := by
  unfold openTrunc
  cases hlink : d.link n with
  | some i => exact d.lines_setContent hlink [] m
  | none =>
    refine (d.lines_create hlink m).trans ?_
    by_cases hm : m = n
    · subst hm
      rw [if_pos rfl, lines, hlink]
    · rw [if_neg hm]

theorem lines_appendTo (hlink : d.link n = some i) (ls : List L) (m : N) :
    (d.appendTo i ls).lines m = if m = n then d.lines n ++ ls else d.lines m := by
  rw [appendTo, d.lines_setContent hlink, lines_of_link hlink]

theorem lines_overwrite (hlink : d.link n = some i) (hempty : d.lines n = [])
    (ls : List L) (m : N) : (d.overwrite i ls).lines m = if m = n then ls else d.lines m := by
  rw [lines_of_link hlink] at hempty
  rw [overwrite, d.lines_setContent hlink, hempty, List.drop_nil, List.append_nil]

theorem lines_unlink (n m : N) : (d.unlink n).lines m = if m = n then [] else d.lines m := by
  by_cases hm : m = n
  · subst hm
    rw [if_pos rfl, lines, d.link_unlink_self]
  · rw [if_neg hm, lines, lines, d.link_unlink_ne hm]
    rfl

theorem lines_rename {d d' : FileDir N L} {a b : N} (h : d.rename a b = some d') :
    d'.lines b = d.lines a := by
  unfold rename at h
  split at h
  · cases h
  next i hlink =>
    cases h
    rw [lines_of_link hlink]
    exact lines_of_link (update_self ..)

end FileDir

end Lib
