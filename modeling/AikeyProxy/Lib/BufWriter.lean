import Mathlib.Data.List.Basic

/-!
# A buffered writer over a sink that may stop at any byte

`Write` followed by `Flush` on a buffered writer. A call on the sink takes the bytes piece by piece
and may fail after any of them; after the first failure the writer hands nothing to the sink. As
long as nothing failed, what the sink took and what is still on its way are what was written, in
order.
-/

namespace Lib

open List Option

variable {B : Type}

structure BufWriter (B : Type) where
  cap : Nat
  buf : List B
  failed : Bool

/-- Where a call of `Write` and `Flush` stands: at the head of the loop; in a call on the sink with
bytes the buffer has no room for; in one with the buffer, `next` being what `Write` goes on with; at
the start of `Flush`; returned. -/
inductive BufPc (B : Type) where
  | write (p : List B)
  | direct (p : List B)
  | drain (rest : List B) (next : Option (List B))
  | flush
  | returned (err : Bool)

namespace BufWriter

section

variable (w : BufWriter B)

def available : Nat := w.cap - w.buf.length

variable (isOpen : Bool) (pc : BufPc B)

/-- Begin a call on the sink; a closed sink refuses it. -/
def enter : BufWriter B × BufPc B :=
  if isOpen then (w, pc) else ({ w with failed := true }, .returned true)

def run (isOpen : Bool) : BufPc B → Option (BufWriter B × BufPc B)
  | .write p =>
    if w.failed then some (w, .returned true)
    else if w.available < p.length then
      if w.buf.length = 0 then some (w.enter isOpen (.direct p))
      else
        let w' := { w with buf := w.buf ++ p.take w.available }
        some (w'.enter isOpen (.drain w'.buf (some (p.drop w.available))))
    else some ({ w with buf := w.buf ++ p }, .flush)
  | .flush =>
    if w.failed then some (w, .returned true)
    else if w.buf.length = 0 then some (w, .returned false)
    else some (w.enter isOpen (.drain w.buf none))
  | .direct [] => some (w, .write [])
  | .drain [] (some p) => some ({ w with buf := [] }, .write p)
  | .drain [] none => some ({ w with buf := [] }, .returned false)
  | _ => none

/-- What happens next: the writer goes on, the sink takes some bytes, or it fails. -/
inductive Event where
  | run
  | accept (k : Nat)
  | fail

def step : Event → Option ((BufWriter B × BufPc B) × List B)
  | .run => (w.run isOpen pc).map fun r => (r, [])
  | .accept k =>
    match pc with
    | .direct p =>
      if 0 < k ∧ k ≤ p.length then some ((w, .direct (p.drop k)), p.take k) else none
    | .drain rest next =>
      if 0 < k ∧ k ≤ rest.length then some ((w, .drain (rest.drop k) next), rest.take k) else none
    | _ => none
  | .fail =>
    match pc with
    | .direct _ => some (({ w with failed := true }, .returned true), [])
    | .drain rest _ => some (({ w with buf := rest, failed := true }, .returned true), [])
    | _ => none

def unsent : BufPc B → List B
  | .write p => w.buf ++ p
  | .direct p => p
  | .drain rest next => rest ++ next.getD []
  | .flush => w.buf
  | .returned _ => w.buf

def Placed : BufPc B → Prop
  | .direct _ => w.failed = false ∧ w.buf = []
  | .drain _ _ => w.failed = false
  | .returned err => if err then w.failed = true else w.buf = []
  | _ => True

/-- What one step does: nothing is lost or reordered unless something failed, and a step
after which something has failed hands nothing over. -/
structure StepSpec (w : BufWriter B) (pc : BufPc B) (w' : BufWriter B) (pc' : BufPc B)
    (out : List B) : Prop where
  placed : w'.Placed pc'
  inOrder : w'.failed = false → w.failed = false ∧ w.unsent pc = out ++ w'.unsent pc'
  silent : w'.failed = true → out = []

theorem enter_spec (hplaced : w.Placed pc) :
    StepSpec w pc (w.enter isOpen pc).1 (w.enter isOpen pc).2 [] := by
  cases isOpen with
  | true => exact ⟨hplaced, fun h => ⟨h, rfl⟩, fun _ => rfl⟩
  | false => exact ⟨rfl, nofun, fun _ => rfl⟩

end

variable {pc pc' : BufPc B} {w w' : BufWriter B}

theorem StepSpec.of_unsent {w₁ : BufWriter B} {pc₁ : BufPc B} {out : List B}
    (h : StepSpec w₁ pc₁ w' pc' out) (hfailed : w₁.failed = w.failed)
    (hunsent : w.unsent pc = w₁.unsent pc₁) : StepSpec w pc w' pc' out where
  placed := h.placed
  inOrder := by
    intro hw'
    obtain ⟨hw₁, heq⟩ := h.inOrder hw'
    exact ⟨hfailed ▸ hw₁, hunsent.trans heq⟩
  silent := h.silent

variable {isOpen : Bool}

theorem run_spec (hplaced : w.Placed pc) (h : w.run isOpen pc = some (w', pc')) :
    StepSpec w pc w' pc' [] := by
  revert h
  fun_cases run w isOpen pc <;> intro h
  case case2 p hok _ hempty =>
    have hok' : w.failed = false := by simpa using hok
    have hbuf : w.buf = [] := eq_nil_of_length_eq_zero hempty
    have hent := enter_spec w isOpen (.direct p) ⟨hok', hbuf⟩
    rw [Option.some.inj h] at hent
    exact hent.of_unsent rfl (by simp [unsent, hbuf])
  case case3 p hok _ _ filled => -- the buffer is filled up with the front of `p` and handed over
    have hent := enter_spec filled isOpen (.drain filled.buf (some (p.drop w.available)))
      (Bool.eq_false_iff.mpr hok)
    rw [Option.some.inj h] at hent
    refine hent.of_unsent rfl ?_
    simp only [filled, unsent, getD_some, append_assoc, take_append_drop]
  case case7 hok _ =>
    have hent := enter_spec w isOpen (.drain w.buf none) (Bool.eq_false_iff.mpr hok)
    rw [Option.some.inj h] at hent
    exact hent.of_unsent rfl (by simp [unsent])
  all_goals cases h
  case case1 hfailed | case5 hfailed =>
    exact ⟨hfailed, fun hw => absurd hw (by simp [hfailed]), fun _ => rfl⟩
  case case4 hok _ =>
    have hok' : w.failed = false := by simpa using hok
    exact ⟨trivial, fun _ => ⟨hok', rfl⟩, fun hw => absurd hw (by simp [hok'])⟩
  case case6 hempty =>
    exact ⟨eq_nil_of_length_eq_zero hempty, fun hw => ⟨hw, rfl⟩, fun _ => rfl⟩
  case case8 => exact ⟨trivial, fun hw => ⟨hw, by simp [unsent, hplaced.2]⟩, fun _ => rfl⟩
  case case9 => exact ⟨trivial, fun hw => ⟨hw, rfl⟩, fun _ => rfl⟩
  case case10 => exact ⟨rfl, fun hw => ⟨hw, rfl⟩, fun _ => rfl⟩

/-- **Every step keeps the order of the bytes.** -/
theorem step_spec {ev : Event} {out : List B} (hplaced : w.Placed pc)
    (h : w.step isOpen pc ev = some ((w', pc'), out)) : StepSpec w pc w' pc' out := by
  revert h
  fun_cases step w isOpen pc ev <;> intro h
  case case1 =>
    obtain ⟨r, hrun, heq⟩ := map_eq_some_iff.mp h
    obtain ⟨rfl, rfl⟩ := Prod.mk.inj heq
    exact run_spec hplaced hrun
  all_goals cases h
  case case2 k p _ =>
    refine ⟨hplaced, fun hw => ⟨hw, ?_⟩, fun hw => absurd hw (by simp [hplaced.1])⟩
    exact (take_append_drop k p).symm
  case case4 =>
    have hok : w.failed = false := hplaced
    refine ⟨hplaced, fun hw => ⟨hw, ?_⟩, fun hw => absurd hw (by simp [hok])⟩
    simp only [unsent, ← append_assoc, take_append_drop]
  all_goals exact ⟨rfl, nofun, fun _ => rfl⟩

end BufWriter

/-! ## Whole frames and a cut one -/

def WholeThenCut (frames : List (List B)) (bytes : List B) : Prop :=
  ∃ k rest, bytes = (frames.take k).flatten ++ rest ∧
    (rest = [] ∨ ∃ frame, frames[k]? = some frame ∧ rest <+: frame ∧ rest ≠ frame)

theorem wholeThenCut_of_prefix {frames : List (List B)} {bytes : List B}
    (h : bytes <+: frames.flatten) : WholeThenCut frames bytes := by
  induction frames generalizing bytes with
  | nil => exact ⟨0, [], eq_nil_of_prefix_nil h, Or.inl rfl⟩
  | cons frame frames ih =>
    rw [flatten_cons] at h
    have hcmp := prefix_or_prefix_of_prefix h (prefix_append frame frames.flatten)
    rcases hcmp with hcut | ⟨more, hmore⟩
    · by_cases hwhole : bytes = frame
      · exact ⟨1, [], by simp [hwhole], Or.inl rfl⟩
      · exact ⟨0, bytes, rfl, Or.inr ⟨frame, rfl, hcut, hwhole⟩⟩
    · subst hmore
      obtain ⟨k, rest, heq, hrest⟩ := ih ((prefix_append_right_inj frame).mp h)
      refine ⟨k + 1, rest, ?_, hrest⟩
      rw [heq, take_succ_cons, flatten_cons, append_assoc]

end Lib
