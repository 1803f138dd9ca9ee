import AikeyProxy.Lib.Region
import AikeyProxy.Lib.Table

/-!
# One mutex per key

A table gives every key in use a lock object that counts its users. A user takes a reference under
the table's mutex, waits for the lock, unlocks, and gives the reference back. An entry is removed
only while its object has no user, so all users of a key have the same object and no two of them are
inside at once.
-/

namespace Lib

open AList

structure LockObj where
  refs : Int
  locked : Bool

/-- The objects made so far and the table of those in use. -/
structure KeyLocks (K : Type) where
  objs : Nat → LockObj
  made : Nat
  table : Table K Nat

/-- It has a reference and waits, it has the lock, or it has given the lock back and still has the
reference. -/
inductive Grip where
  | out
  | waits (o : Nat)
  | inside (o : Nat)
  | leaves (o : Nat)

def Grip.holds (o : Nat) : Grip → Bool
  | .out => false
  | .waits o' | .inside o' | .leaves o' => o' == o

def Grip.isIn (o : Nat) : Grip → Bool
  | .inside o' => o' == o
  | _ => false

def Grip.inAny : Grip → Bool
  | .inside _ => true
  | _ => false

theorem Grip.holds_of_isIn {g : Grip} {o : Nat} (h : g.isIn o = true) : g.holds o = true := by
  cases g with
  | inside o' => exact h
  | out | waits | leaves => cases h

variable {K : Type} [DecidableEq K]

def KeyLocks.init : KeyLocks K where
  objs := fun _ => ⟨0, false⟩
  made := 0
  table := ∅

variable (l : KeyLocks K)

def KeyLocks.setObj (o : Nat) (x : LockObj) : KeyLocks K :=
  { l with objs := Function.update l.objs o x }

omit [DecidableEq K] in
@[simp] theorem KeyLocks.setObj_self (o : Nat) (x : LockObj) : (l.setObj o x).objs o = x :=
  Function.update_self ..

omit [DecidableEq K] in
theorem KeyLocks.setObj_ne {o o' : Nat} (x : LockObj) (h : o' ≠ o) :
    (l.setObj o x).objs o' = l.objs o' :=
  Function.update_of_ne h ..

def KeyLocks.find (k : K) : KeyLocks K × Nat :=
  match l.table.lookup k with
  | some o => (l, o)
  | none =>
    ({ objs := Function.update l.objs l.made ⟨0, false⟩
       made := l.made + 1
       table := l.table.insert k l.made }, l.made)

def KeyLocks.acquire (k : K) : KeyLocks K × Nat :=
  let (l, o) := l.find k
  (l.setObj o { l.objs o with refs := (l.objs o).refs + 1 }, o)

def KeyLocks.lock (o : Nat) : Option (KeyLocks K) :=
  if (l.objs o).locked then none else some (l.setObj o { l.objs o with locked := true })

def KeyLocks.unlock (o : Nat) : KeyLocks K :=
  l.setObj o { l.objs o with locked := false }

def KeyLocks.prune (k : K) : KeyLocks K :=
  match l.table.lookup k with
  | some o => if (l.objs o).refs = 0 then { l with table := l.table.erase k } else l
  | none => l

/-- Give a reference back; the last user removes the entry if nothing else needs it. -/
def KeyLocks.unref (k : K) (o : Nat) (idle : Bool) : KeyLocks K :=
  let l := l.setObj o { l.objs o with refs := (l.objs o).refs - 1 }
  if (l.objs o).refs = 0 ∧ idle then { l with table := l.table.erase k } else l

/-! ## The invariant -/

section Inv

variable {P : Type} (key : P → K) (grip : P → Grip)

structure KeyLocks.Inv (l : KeyLocks K) (ts : List P) : Prop where
  refs : ∀ o, Counts (fun t => (grip t).holds o) ts (l.objs o).refs
  locks : ∀ o, Counts (fun t => (grip t).isIn o) ts (l.objs o).locked.toNat
  mapped : ∀ t ∈ ts, ∀ o, (grip t).holds o = true → l.table.lookup (key t) = some o
  fresh : ∀ k o, l.table.lookup k = some o → o < l.made

variable {key grip} {l l' : KeyLocks K} {ts : List P} {i : Nat} {old new : P}

theorem KeyLocks.Inv.init : KeyLocks.Inv key grip (KeyLocks.init : KeyLocks K) [] where
  refs _ := rfl
  locks _ := rfl
  mapped := by simp
  fresh k o h := by cases h

theorem mem_set_or {t : P} (ht : t ∈ ts.set i new) : t = new ∨ t ∈ ts := by
  rcases List.mem_or_eq_of_mem_set ht with h | h
  · exact .inr h
  · exact .inl h

/-- **Mutual exclusion**: while a thread is inside, no other thread is inside for its key. -/
theorem KeyLocks.Inv.alone (h : KeyLocks.Inv key grip l ts) (hi : ts[i]? = some old)
    (hin : (grip old).inAny = true) (new : P) :
    ∀ t ∈ ts.set i new, t = new ∨ (t ∈ ts ∧ (key t = key old → (grip t).inAny = false)) := by
  obtain ⟨o, hg⟩ : ∃ o, grip old = .inside o := by cases hg : grip old <;> simp_all [Grip.inAny]
  have hold : (grip old).isIn o = true := by rw [hg]; simp [Grip.isIn]
  have hothers := (h.locks o).lock_others hi hold new
  have hmap := h.mapped old (List.mem_of_getElem? hi) o (Grip.holds_of_isIn hold)
  intro t ht
  rcases mem_set_or ht with hnew | hmem
  · exact .inl hnew
  · refine (hothers t ht).imp_right fun hout => ⟨hmem, fun hkey => ?_⟩
    cases hgt : grip t with
    | out | waits | leaves => rfl
    | inside o' =>
      have hmap' := h.mapped t hmem o' (by rw [hgt]; simp [Grip.holds])
      grind -linarith [Grip.isIn]

theorem KeyLocks.Inv.alone_mem (h : KeyLocks.Inv key grip l ts) (hi : ts[i]? = some old)
    (hin : (grip old).inAny = true) {t : P} (ht : t ∈ ts) :
    t = old ∨ (key t = key old → (grip t).inAny = false) := by
  rcases mem_set_of_mem hi old ht with heq | hset
  · exact .inl heq
  · rcases h.alone hi hin old t hset with heq | ⟨-, hout⟩
    · exact .inl heq
    · exact .inr hout

theorem KeyLocks.Inv.spawn (h : KeyLocks.Inv key grip l ts) (hnew : grip new = .out) :
    KeyLocks.Inv key grip l (ts ++ [new]) := by
  refine ⟨fun o => (h.refs o).spawn (by rw [hnew]; rfl),
    fun o => (h.locks o).spawn (by rw [hnew]; rfl), ?_, h.fresh⟩
  have hmapped := h.mapped
  grind -linarith [Grip.holds]

theorem KeyLocks.Inv.stay (h : KeyLocks.Inv key grip l ts) (hi : ts[i]? = some old)
    (hkey : key new = key old) (hgrip : grip new = grip old) :
    KeyLocks.Inv key grip l (ts.set i new) := by
  have hmapped := h.mapped
  exact ⟨fun o => (h.refs o).stay hi (by rw [hgrip]), fun o => (h.locks o).stay hi (by rw [hgrip]),
    by grind -linarith [mem_set_or], h.fresh⟩

variable {o : Nat}

theorem KeyLocks.Inv.regrip {x : LockObj} (h : KeyLocks.Inv key grip l ts) (hi : ts[i]? = some old)
    (hrefs : Counts (fun t => (grip t).holds o) (ts.set i new) x.refs)
    (hlocks : Counts (fun t => (grip t).isIn o) (ts.set i new) x.locked.toNat)
    (hsame : ∀ o' ≠ o, (grip old).holds o' = (grip new).holds o' ∧ (grip old).isIn o' = (grip new).isIn o')
    (hnew : ∀ o', (grip new).holds o' = true → l.table.lookup (key new) = some o') :
    KeyLocks.Inv key grip (l.setObj o x) (ts.set i new) := by
  obtain ⟨hrefs', hlocks', hmapped, hfresh⟩ := h
  refine ⟨fun o' => ?_, fun o' => ?_, by grind -linarith [KeyLocks.setObj, mem_set_or], hfresh⟩
  · by_cases hoo : o' = o
    · rw [hoo, KeyLocks.setObj_self]
      exact hrefs
    · rw [l.setObj_ne x hoo]
      exact (hrefs' o').stay hi (hsame o' hoo).1
  · by_cases hoo : o' = o
    · rw [hoo, KeyLocks.setObj_self]
      exact hlocks
    · rw [l.setObj_ne x hoo]
      exact (hlocks' o').stay hi (hsame o' hoo).2

theorem KeyLocks.Inv.unused (h : KeyLocks.Inv key grip l ts) :
    ∀ t ∈ ts, (grip t).holds l.made = false := by
  intro t ht
  by_contra hto
  have hlt := h.fresh _ _ (h.mapped t ht l.made (by simpa using hto))
  omega

theorem KeyLocks.Inv.make {k : K} (h : KeyLocks.Inv key grip l ts) (hk : l.table.lookup k = none) :
    KeyLocks.Inv key grip
      { objs := Function.update l.objs l.made ⟨0, false⟩
        made := l.made + 1
        table := l.table.insert k l.made } ts := by
  have hunused := h.unused
  have hin : ∀ t ∈ ts, (grip t).isIn l.made = false := by grind -linarith [Grip.holds_of_isIn]
  have hzero : ∀ {q : P → Bool}, (∀ t ∈ ts, q t = false) → Counts q ts 0 := by
    intro q hq
    rw [Counts, List.countP_eq_zero.mpr (by simpa using hq)]
    rfl
  obtain ⟨hrefs, hlocks, hmapped, hfresh⟩ := h
  refine ⟨fun o => ?_, fun o => ?_, by grind -linarith [lookup_insert_ne],
    by grind -linarith [lookup_insert, lookup_insert_ne]⟩
  · by_cases ho : o = l.made
    · simpa [ho] using hzero hunused
    · simpa [ho] using hrefs o
  · by_cases ho : o = l.made
    · simpa [ho] using hzero hin
    · simpa [ho] using hlocks o

theorem KeyLocks.Inv.find (h : KeyLocks.Inv key grip l ts) (k : K) :
    KeyLocks.Inv key grip (l.find k).1 ts ∧ (l.find k).1.table.lookup k = some (l.find k).2 := by
  unfold KeyLocks.find
  cases hk : l.table.lookup k with
  | some o => exact ⟨h, hk⟩
  | none => exact ⟨h.make hk, lookup_insert _⟩

section

variable (h : KeyLocks.Inv key grip l ts) (hi : ts[i]? = some old)

include h hi

theorem KeyLocks.Inv.acquire
    (hout : grip old = .out) (hgrip : grip new = .waits (l.acquire (key new)).2) :
    KeyLocks.Inv key grip (l.acquire (key new)).1 (ts.set i new) := by
  obtain ⟨hfind, hmap⟩ := h.find (key new)
  unfold KeyLocks.acquire at hgrip ⊢
  generalize l.find (key new) = found at hfind hmap hgrip ⊢
  obtain ⟨l₁, o⟩ := found
  dsimp only at hfind hmap hgrip ⊢
  refine hfind.regrip hi ?_ ?_ ?_ ?_
  · exact (hfind.refs o).enter hi (by rw [hout]; rfl) (by rw [hgrip]; simp [Grip.holds])
  · exact (hfind.locks o).stay hi (by rw [hout, hgrip]; rfl)
  · intro o' hoo
    rw [hout, hgrip]
    exact ⟨by simp [Grip.holds, Ne.symm hoo], rfl⟩
  · intro o' hto
    rw [hgrip] at hto
    rw [hmap, show o = o' by simpa [Grip.holds] using hto]

theorem KeyLocks.Inv.mapped_new
    (hkey : key new = key old) (hsub : ∀ o, (grip new).holds o = true → (grip old).holds o = true) :
    ∀ o, (grip new).holds o = true → l.table.lookup (key new) = some o := by
  intro o ho
  rw [hkey]
  exact h.mapped old (List.mem_of_getElem? hi) o (hsub o ho)

theorem KeyLocks.Inv.lock
    (hwait : grip old = .waits o) (hkey : key new = key old) (hgrip : grip new = .inside o)
    (hl : l.lock o = some l') : KeyLocks.Inv key grip l' (ts.set i new) := by
  unfold KeyLocks.lock at hl
  obtain ⟨hfree, ⟨⟩⟩ := Option.ite_none_left_eq_some.mp hl
  refine h.regrip hi ?_ ?_ ?_ (h.mapped_new hi hkey ?_)
  · exact (h.refs o).stay hi (by rw [hwait, hgrip]; rfl)
  · exact (h.locks o).lock_acquire (by simpa using hfree) hi (by rw [hwait]; rfl)
      (by rw [hgrip]; simp [Grip.isIn])
  · intro o' hoo
    rw [hwait, hgrip]
    exact ⟨rfl, by simp [Grip.isIn, Ne.symm hoo]⟩
  · rw [hwait, hgrip]
    exact fun _ h => h

theorem KeyLocks.Inv.unlock
    (hin : grip old = .inside o) (hkey : key new = key old) (hgrip : grip new = .leaves o) :
    KeyLocks.Inv key grip (l.unlock o) (ts.set i new) := by
  refine h.regrip hi ?_ ?_ ?_ (h.mapped_new hi hkey ?_)
  · exact (h.refs o).stay hi (by rw [hin, hgrip]; rfl)
  · exact (h.locks o).lock_release hi (by rw [hin]; simp [Grip.isIn]) (by rw [hgrip]; rfl)
  · intro o' hoo
    rw [hin, hgrip]
    exact ⟨rfl, by simp [Grip.isIn, Ne.symm hoo]⟩
  · rw [hin, hgrip]
    exact fun _ h => h

end

theorem KeyLocks.Inv.erase {k : K} (h : KeyLocks.Inv key grip l ts) (ho : l.table.lookup k = some o)
    (hrefs : (l.objs o).refs = 0) :
    KeyLocks.Inv key grip { l with table := l.table.erase k } ts := by
  obtain ⟨hcount, hlocks, hmapped, hfresh⟩ := h
  have hnone : ∀ t ∈ ts, (grip t).holds o = false := (hrefs ▸ hcount o).none_inside
  refine ⟨hcount, hlocks, ?_, ?_⟩
  · grind -linarith [lookup_erase_ne]
  · grind -linarith [lookup_erase, lookup_erase_ne]

theorem KeyLocks.Inv.prune (h : KeyLocks.Inv key grip l ts) (k : K) :
    KeyLocks.Inv key grip (l.prune k) ts := by
  unfold KeyLocks.prune
  cases ho : l.table.lookup k with
  | none => exact h
  | some o =>
    dsimp only
    split
    next hrefs => exact h.erase ho hrefs
    next => exact h

theorem KeyLocks.Inv.unref (h : KeyLocks.Inv key grip l ts) (hi : ts[i]? = some old)
    (hleave : grip old = .leaves o) (hgrip : grip new = .out) (idle : Bool) :
    KeyLocks.Inv key grip (l.unref (key old) o idle) (ts.set i new) := by
  have hmap := h.mapped old (List.mem_of_getElem? hi) o (by rw [hleave]; simp [Grip.holds])
  have hgiven : KeyLocks.Inv key grip
      (l.setObj o { l.objs o with refs := (l.objs o).refs - 1 }) (ts.set i new) := by
    refine h.regrip hi ?_ ?_ ?_ ?_
    · exact (h.refs o).leave hi (by rw [hleave]; simp [Grip.holds]) (by rw [hgrip]; rfl)
    · exact (h.locks o).stay hi (by rw [hleave, hgrip]; rfl)
    · intro o' hoo
      rw [hleave, hgrip]
      exact ⟨by simp [Grip.holds, Ne.symm hoo], rfl⟩
    · intro o' hto
      rw [hgrip] at hto
      cases hto
  unfold KeyLocks.unref
  dsimp only
  split
  next hlast => exact hgiven.erase hmap hlast.1
  next => exact hgiven

end Inv

end Lib
