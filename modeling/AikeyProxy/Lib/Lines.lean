/-!
# Lines, and blocks of lines

A stream of characters is cut into lines at a terminator, and the lines into blocks. A reader that
gets the stream in parts keeps the unfinished line; by `takeLines_append` it sees the same lines
however the stream is cut.
-/

namespace Lib

open List

variable {α β : Type} [DecidableEq α]

def takeLines (nl : α) : List α → List (List α) × List α
  | [] => ([], [])
  | c :: s =>
    if c = nl then ([c] :: (takeLines nl s).1, (takeLines nl s).2)
    else
      match (takeLines nl s).1 with
      | [] => ([], c :: (takeLines nl s).2)
      | l :: ls => ((c :: l) :: ls, (takeLines nl s).2)

def IsLine (nl : α) (l : List α) : Prop := ∃ body, nl ∉ body ∧ l = body ++ [nl]

variable {nl : α}

/-- **The lines of a stream do not depend on how it is cut.** -/
theorem takeLines_append (a b : List α) :
    takeLines nl (a ++ b) =
      ((takeLines nl a).1 ++ (takeLines nl ((takeLines nl a).2 ++ b)).1,
        (takeLines nl ((takeLines nl a).2 ++ b)).2) := by
  induction a with
  | nil => rfl
  | cons c a ih =>
    by_cases hc : c = nl
    · simp only [cons_append, takeLines, if_pos hc, ih]
    · cases hl : (takeLines nl a).1 with
      | nil =>
        rw [hl, nil_append] at ih
        simp only [cons_append, takeLines, if_neg hc, hl, ih, nil_append]
      | cons l ls =>
        rw [hl, cons_append] at ih
        simp only [cons_append, takeLines, if_neg hc, hl, ih]

theorem takeLines_rest (s : List α) :
    takeLines nl (takeLines nl s).2 = ([], (takeLines nl s).2) := by
  fun_induction takeLines nl s <;> simp_all [takeLines]

theorem takeLines_line {body : List α} (h : nl ∉ body) (s : List α) :
    takeLines nl (body ++ nl :: s) =
      ((body ++ [nl]) :: (takeLines nl s).1, (takeLines nl s).2) := by
  induction body with
  | nil => simp [takeLines]
  | cons c body ih =>
    rw [mem_cons, not_or] at h
    rw [cons_append, takeLines, if_neg (Ne.symm h.1), ih h.2]
    rfl

theorem takeLines_flatten {ls : List (List α)} (h : ∀ l ∈ ls, IsLine nl l) (s : List α) :
    takeLines nl (ls.flatten ++ s) = (ls ++ (takeLines nl s).1, (takeLines nl s).2) := by
  induction ls with
  | nil => rfl
  | cons l ls ih =>
    obtain ⟨body, hbody, rfl⟩ := h l mem_cons_self
    rw [flatten_cons, append_assoc, append_assoc, singleton_append,
      takeLines_line hbody, ih fun l' hl' => h l' (mem_cons_of_mem _ hl')]
    rfl

/-- The blocks of a list, each with the element that ends it; `cur` is the beginning of the
first one, and an unfinished block is left out. -/
def blocks (ends : β → Bool) : List β → List β → List (List β)
  | _, [] => []
  | cur, x :: xs =>
    if ends x then (cur ++ [x]) :: blocks ends [] xs else blocks ends (cur ++ [x]) xs

def IsBlock (ends : β → Bool) (b : List β) : Prop :=
  ∃ body last, b = body ++ [last] ∧ (∀ x ∈ body, ends x = false) ∧ ends last = true

variable {ends : β → Bool}

theorem blocks_append {body : List β} (h : ∀ x ∈ body, ends x = false) (xs : List β) :
    ∀ cur : List β, blocks ends cur (body ++ xs) = blocks ends (cur ++ body) xs := by
  induction body with
  | nil => intro cur; rw [append_nil]; rfl
  | cons x body ih =>
    intro cur
    have hx : ends x = false := h x mem_cons_self
    rw [cons_append, blocks, hx, if_neg Bool.false_ne_true,
      ih (fun y hy => h y (mem_cons_of_mem _ hy)), append_assoc]
    rfl

theorem blocks_flatten {bs : List (List β)} (h : ∀ b ∈ bs, IsBlock ends b) :
    blocks ends [] bs.flatten = bs := by
  induction bs with
  | nil => rfl
  | cons b bs ih =>
    obtain ⟨body, last, rfl, hbody, hlast⟩ := h b mem_cons_self
    rw [flatten_cons, append_assoc, blocks_append hbody, singleton_append,
      nil_append, blocks, hlast, if_pos rfl,
      ih fun b' hb' => h b' (mem_cons_of_mem _ hb')]

end Lib
