import Mathlib.Data.List.Basic

/-!
# Sweeping a log

A sweep goes through the entries it has read from a log, skips some, selects the others into a batch
and hands the batch over from time to time. Items may be finished meanwhile, and a sweep that skips
what is finished must not skip anything else (`Sound`). An item is found in the log as the entry
that envelopes it.
-/

namespace Lib

open List

variable {E α : Type}

/-- A sweep in progress. `openAtStart` are the items that were open when it started, `selected`
those it put into a batch. -/
structure Sweep (E α : Type) where
  remaining : List E
  pending : List α
  openAtStart : List α
  selected : List α

namespace Sweep

def start (entries : List E) (opens : List α) : Sweep E α := ⟨entries, [], opens, []⟩

section

variable (p : Sweep E α)

def skip (rest : List E) : Sweep E α := { p with remaining := rest }

def select (x : α) (rest : List E) : Sweep E α :=
  { p with remaining := rest, pending := p.pending ++ [x], selected := p.selected ++ [x] }

def handOver : Sweep E α := { p with pending := [] }

def stop : Sweep E α := { p with remaining := [], pending := [] }

def work : Nat := 2 * p.remaining.length + p.pending.length

end

variable {rest : List E} {e : E}

theorem skip_work {p : Sweep E α} (hrem : p.remaining = e :: rest) :
    (p.skip rest).work < p.work := by
  simp only [work, skip, hrem, length_cons]
  omega

theorem select_work {p : Sweep E α} (hrem : p.remaining = e :: rest) (x : α) :
    (p.select x rest).work < p.work := by
  simp only [work, select, hrem, length_cons, length_append, length_nil]
  omega

theorem handOver_work {p : Sweep E α} (hne : p.pending ≠ []) : p.handOver.work < p.work := by
  have hlen : 0 < p.pending.length := length_pos_iff.mpr hne
  simp only [work, handOver, length_nil]
  omega

/-- Nothing that was open at the start has been left behind. -/
structure Sound (entry : α → E) (opened : α → Prop) (p : Sweep E α) : Prop where
  pending : ∀ x ∈ p.pending, x ∈ p.selected
  finishes : ∀ x ∈ p.openAtStart, opened x ∨ x ∈ p.selected
  ahead : ∀ x ∈ p.openAtStart, x ∈ p.selected ∨ entry x ∈ p.remaining

variable {entry : α → E} {opened opened' : α → Prop} {p : Sweep E α}

theorem Sound.start {entries : List E} {opens : List α} (hopen : ∀ x ∈ opens, opened x)
    (hread : ∀ x ∈ opens, entry x ∈ entries) : (Sweep.start entries opens).Sound entry opened where
  pending := nofun
  finishes := fun x hx => Or.inl (hopen x hx)
  ahead := fun x hx => Or.inr (hread x hx)

theorem Sound.skip (h : p.Sound entry opened) (hrem : p.remaining = e :: rest)
    (hskip : ∀ x ∈ p.openAtStart, entry x = e → ¬ opened x) :
    (p.skip rest).Sound entry opened where
  pending := h.pending
  finishes := h.finishes
  ahead := by
    intro x hx
    rcases h.ahead x hx with hsel | hin
    · exact Or.inl hsel
    rw [hrem] at hin
    rcases mem_cons.mp hin with he | hin
    · exact Or.inl ((h.finishes x hx).resolve_left (hskip x hx he))
    · exact Or.inr hin

theorem Sound.select (h : p.Sound entry opened) {e : E} {rest : List E}
    (hrem : p.remaining = e :: rest) {y : α} (hy : ∀ x, entry x = e → x = y) :
    (p.select y rest).Sound entry opened where
  pending := by
    intro x hx
    rcases mem_append.mp hx with hx | hx
    · exact mem_append_left _ (h.pending x hx)
    · exact mem_append_right _ hx
  finishes := by
    intro x hx
    rcases h.finishes x hx with hopen | hsel
    · exact Or.inl hopen
    · exact Or.inr (mem_append_left _ hsel)
  ahead := by
    intro x hx
    rcases h.ahead x hx with hsel | hin
    · exact Or.inl (mem_append_left _ hsel)
    rw [hrem] at hin
    rcases mem_cons.mp hin with he | hin
    · exact Or.inl (mem_append_right _ (mem_singleton.mpr (hy x he)))
    · exact Or.inr hin

theorem Sound.handOver (h : p.Sound entry opened)
    (hfin : ∀ x, opened x → opened' x ∨ x ∈ p.pending) : p.handOver.Sound entry opened' where
  pending := nofun
  finishes := by
    intro x hx
    rcases h.finishes x hx with hopen | hsel
    · rcases hfin x hopen with hstill | hin
      · exact Or.inl hstill
      · exact Or.inr (h.pending x hin)
    · exact Or.inr hsel
  ahead := h.ahead

theorem Sound.stop (h : p.Sound entry opened)
    (hnone : ∀ x ∈ p.openAtStart, entry x ∈ p.remaining → ¬ opened x) :
    p.stop.Sound entry opened where
  pending := nofun
  finishes := h.finishes
  ahead := by
    intro x hx
    rcases h.ahead x hx with hsel | hin
    · exact Or.inl hsel
    · exact Or.inl ((h.finishes x hx).resolve_left (hnone x hx hin))

end Sweep

end Lib
