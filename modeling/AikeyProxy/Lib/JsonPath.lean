import AikeyProxy.Lib.Json

/-!
# Reading and writing a value inside a JSON document

A path is a list of names of members and positions of items. `setAt` writes the value at the end of
a path, opening objects where members are missing, and changes nothing that is reached on another
way (`follow_setAt_apart`).
-/

namespace Lib

open List Option

namespace Json

def memberAt (key : String) : Members → Option Json
  | [] => none
  | (k, v) :: ms => if k = key then some v else memberAt key ms

def putMember (key : String) (v : Json) : Members → Members
  | [] => [(key, v)]
  | (k, w) :: ms => if k = key then (k, v) :: ms else (k, w) :: putMember key v ms

def itemAt (key : String) : Nat → List Json → Option Json
  | _, [] => none
  | i, x :: xs => if toString i = key then some x else itemAt key (i + 1) xs

def putItem (key : String) (v : Json) : Nat → List Json → List Json
  | _, [] => []
  | i, x :: xs => if toString i = key then v :: xs else x :: putItem key v (i + 1) xs

def step (key : String) : Json → Option Json
  | .obj ms => memberAt key ms
  | .arr xs => itemAt key 0 xs
  | _ => none

def put (key : String) (v : Json) : Json → Json
  | .obj ms => .obj (putMember key v ms)
  | .arr xs => .arr (putItem key v 0 xs)
  | j => j

def follow : List String → Json → Option Json
  | [], j => some j
  | k :: ks, j => (step k j).bind (follow ks)

/-- What a step that is about to be written through leads to; an object gets the member it
lacks. -/
def child (key : String) (j : Json) : Option Json :=
  match step key j, j with
  | some c, _ => some c
  | none, .obj _ => some (.obj [])
  | none, _ => none

def setAt : List String → Json → Json → Option Json
  | [], v, _ => some v
  | k :: ks, v, j => ((child k j).bind (setAt ks v)).map fun c => put k c j

/-! ### Objects as maps -/

mutual

/-- The value as a decoder that fills maps leaves it: of members with one name the last wins, and
a number is what `number` makes of its literal, if anything. -/
def asMaps (number : List Char → Option (List Char)) : Json → Option Json
  | .num literal => (number literal).map .num
  | .arr items => (itemsAsMaps number items).map .arr
  | .obj members => (membersAsMaps number [] members).map .obj
  | v => some v

def itemsAsMaps (number : List Char → Option (List Char)) : List Json → Option (List Json)
  | [] => some []
  | x :: xs => (asMaps number x).bind fun y => (itemsAsMaps number xs).map (y :: ·)

def membersAsMaps (number : List Char → Option (List Char)) (filled : Members) :
    Members → Option Members
  | [] => some filled
  | (k, v) :: ms =>
    (asMaps number v).bind fun w => membersAsMaps number (putMember k w filled) ms

end

/-! ### Members and items -/

theorem memberAt_putMember (key : String) (v : Json) (ms : Members) :
    memberAt key (putMember key v ms) = some v := by
  fun_induction putMember key v ms <;> simp_all [memberAt]

variable {key key' k : String} {j c v : Json} {ks : List String} {ms : Members}

theorem memberAt_putMember_ne (h : key ≠ key') (v : Json) (ms : Members) :
    memberAt key' (putMember key v ms) = memberAt key' ms := by
  fun_induction putMember key v ms <;> simp_all [memberAt]

theorem itemAt_putItem (key : String) (v : Json) (xs : List Json) (i : Nat)
    (h : (itemAt key i xs).isSome = true) : itemAt key i (putItem key v i xs) = some v := by
  fun_induction putItem key v i xs with
  | case1 => cases h
  | case2 i x xs hi => rw [itemAt, if_pos hi]
  | case3 i x xs hi ih =>
    rw [itemAt, if_neg hi] at h ⊢
    exact ih h

theorem itemAt_putItem_ne (h : key ≠ key') (v : Json) (xs : List Json) (i : Nat) :
    itemAt key' i (putItem key v i xs) = itemAt key' i xs := by
  fun_induction putItem key v i xs with
  | case1 => rfl
  | case2 i x xs hi =>
    have hi' : toString i ≠ key' := fun heq => h (hi.symm.trans heq)
    rw [itemAt, itemAt, if_neg hi', if_neg hi']
  | case3 i x xs hi ih => rw [itemAt, itemAt, ih]

theorem itemAt_eq_none (h : key.toList.all Char.isDigit = false) (xs : List Json) :
    ∀ i, itemAt key i xs = none := by
  induction xs with
  | nil => intro i; rfl
  | cons x xs ih =>
    intro i
    have hi : toString i ≠ key := by
      rintro rfl
      have hdigits : (toString i).toList = Nat.toDigits 10 i := by
        rw [Nat.toString_eq_ofList_toDigits, String.toList_ofList]
      rw [hdigits, all_eq_true.mpr (toDigits_isDigit i)] at h
      cases h
    rw [itemAt, if_neg hi, ih]

theorem position_injective {i j : Nat} (h : toString i = toString j) : i = j := by
  rw [Nat.toString_eq_ofList_toDigits, Nat.toString_eq_ofList_toDigits] at h
  have hdigits := String.ofList_injective h
  rw [← Nat.ofDigitChars_ten_toDigits (n := i), hdigits, Nat.ofDigitChars_ten_toDigits]

theorem itemAt_position (xs : List Json) :
    ∀ i k : Nat, itemAt (toString (i + k)) i xs = xs[k]? := by
  induction xs with
  | nil => intro i k; rfl
  | cons x xs ih =>
    intro i k
    cases k with
    | zero => rw [Nat.add_zero, itemAt, if_pos rfl, List.getElem?_cons_zero]
    | succ k =>
      have hne : toString i ≠ toString (i + (k + 1)) := fun h => by
        have heq := position_injective h
        omega
      rw [itemAt, if_neg hne, List.getElem?_cons_succ, ← ih (i + 1) k, Nat.add_right_comm,
        Nat.add_assoc]

theorem itemAt_map (f : Json → Json) (key : String) (xs : List Json) (i : Nat) :
    itemAt key i (xs.map f) = (itemAt key i xs).map f := by
  fun_induction itemAt key i xs <;> simp_all [itemAt]

/-! ### One step -/

theorem step_obj (key : String) (ms : Members) :
    step key (.obj ms) = memberAt key ms := rfl

theorem step_first (x : Json) (xs : List Json) : step "0" (.arr (x :: xs)) = some x := by
  rw [step, itemAt, if_pos (by decide)]

theorem step_arr (xs : List Json) (k : Nat) : step (toString k) (.arr xs) = xs[k]? := by
  rw [step, ← itemAt_position xs 0 k, Nat.zero_add]

theorem step_put (h : child key j = some c) (v : Json) : step key (put key v j) = some v := by
  unfold child at h
  cases j with
  | obj ms => exact memberAt_putMember key v ms
  | arr xs =>
    cases hs : step key (.arr xs) with
    | none => simp [hs] at h
    | some c' =>
      refine itemAt_putItem key v xs 0 ?_
      rw [step] at hs
      rw [hs]
      rfl
  | _ => simp [step] at h

theorem step_put_ne (h : key ≠ key') (v j : Json) : step key' (put key v j) = step key' j := by
  cases j with
  | obj ms => exact memberAt_putMember_ne h v ms
  | arr xs => exact itemAt_putItem_ne h v xs 0
  | _ => rfl

theorem step_eq_none_or_child (h : child key j = some c) :
    step key j = some c ∨ (step key j = none ∧ c = .obj []) := by
  unfold child at h
  cases hs : step key j with
  | some c' =>
    rw [hs] at h
    exact .inl h
  | none =>
    right
    rw [hs] at h
    cases j with
    | obj ms => exact ⟨rfl, (some.inj h).symm⟩
    | _ => cases h

/-! ### Paths -/

theorem setAt_cons {j' : Json} (h : setAt (k :: ks) v j = some j') :
    ∃ c c', child k j = some c ∧ setAt ks v c = some c' ∧ j' = put k c' j := by
  rw [setAt] at h
  obtain ⟨c', hc', rfl⟩ := map_eq_some_iff.mp h
  obtain ⟨c, hc, hset⟩ := bind_eq_some_iff.mp hc'
  exact ⟨c, c', hc, hset, rfl⟩

theorem follow_append (ks ks' : List String) :
    ∀ j : Json, follow (ks ++ ks') j = (follow ks j).bind (follow ks') := by
  induction ks with
  | nil => intro j; rfl
  | cons k ks ih =>
    intro j
    rw [cons_append, follow, follow, bind_assoc]
    exact congrArg (Option.bind (step k j)) (funext ih)

theorem follow_setAt : ∀ {v j j' : Json}, setAt ks v j = some j' → follow ks j' = some v := by
  induction ks with
  | nil => intro v j j' h; cases h; rfl
  | cons k ks ih =>
    intro v j j' h
    obtain ⟨c, c', hc, hset, rfl⟩ := setAt_cons h
    rw [follow, step_put hc, bind_some, ih hset]

theorem follow_empty (h : ks ≠ []) : follow ks (.obj []) = none := by
  cases ks with
  | nil => exact absurd rfl h
  | cons k ks => rfl

/-- **Writing is local.** -/
theorem follow_setAt_apart :
    ∀ {ks' : List String} {v j j' : Json}, setAt ks v j = some j' → ¬ ks <+: ks' → ¬ ks' <+: ks →
      follow ks' j' = follow ks' j := by
  induction ks with
  | nil => intro ks' v j j' _ h; exact absurd nil_prefix h
  | cons k ks ih =>
    intro ks' v j j' h hpre hpre'
    obtain ⟨c, c', hc, hset, rfl⟩ := setAt_cons h
    cases ks' with
    | nil => exact absurd nil_prefix hpre'
    | cons k' ks' =>
      by_cases hk : k = k'
      · subst hk
        rw [cons_prefix_cons, not_and] at hpre hpre'
        have hrest := ih hset (hpre rfl) (hpre' rfl)
        rw [follow, follow, step_put hc, bind_some, hrest]
        rcases step_eq_none_or_child hc with hs | ⟨hs, rfl⟩
        · rw [hs, bind_some]
        · rw [hs, bind_none]
          refine follow_empty ?_
          rintro rfl
          exact hpre' rfl nil_prefix
      · rw [follow, follow, step_put_ne hk]

theorem setAt_of_follow :
    ∀ {j x : Json} (v : Json), follow ks j = some x → ∃ j', setAt ks v j = some j' := by
  induction ks with
  | nil => intro j x v _; exact ⟨v, rfl⟩
  | cons k ks ih =>
    intro j x v h
    obtain ⟨c, hc, hrest⟩ := bind_eq_some_iff.mp h
    obtain ⟨c', hset⟩ := ih v hrest
    have hchild : child k j = some c := by simp only [child, hc]
    exact ⟨put k c' j, by rw [setAt, hchild, bind_some, hset, map_some]⟩

theorem setAt_sibling {m n : String} {x : Json} (v : Json) (hm : m.toList.all Char.isDigit = false)
    (h : follow [k, m] j = some x) : ∃ j', setAt [k, n] v j = some j' := by
  obtain ⟨c, hc, hrest⟩ := bind_eq_some_iff.mp h
  have hstep : ∃ y, step m c = some y := by
    obtain ⟨y, hy, -⟩ := bind_eq_some_iff.mp hrest
    exact ⟨y, hy⟩
  obtain ⟨y, hy⟩ := hstep
  have hobj : ∃ ms, c = .obj ms := by
    cases c with
    | obj ms => exact ⟨ms, rfl⟩
    | arr xs =>
      rw [step, itemAt_eq_none hm] at hy
      cases hy
    | _ => cases hy
  obtain ⟨ms, rfl⟩ := hobj
  have hchild : child k j = some (.obj ms) := by simp only [child, hc]
  have hinner : ∃ c', setAt [n] v (.obj ms) = some c' := by
    cases hs : step n (.obj ms) with
    | some z | none => exact ⟨_, by simp only [setAt, child, hs, bind_some, map_some]; rfl⟩
  obtain ⟨c', hset⟩ := hinner
  exact ⟨put k c' j, by rw [setAt, hchild, bind_some, hset, map_some]⟩

theorem setAt_obj {j' : Json} (h : setAt (k :: ks) v (.obj ms) = some j') :
    ∃ ms', j' = .obj ms' := by
  obtain ⟨c, c', -, -, rfl⟩ := setAt_cons h
  exact ⟨_, rfl⟩

/-! ### Valid documents -/

theorem valid_memberAt (h : ValidMembers ms) {v : Json} (hv : memberAt key ms = some v) :
    Valid v := by
  fun_induction memberAt key ms with
  | case1 => cases hv
  | case2 => cases hv; exact h.1
  | case3 k w ms hk ih => exact ih h.2 hv

theorem validMembers_putMember (hv : Valid v) (h : ValidMembers ms) :
    ValidMembers (putMember key v ms) := by
  fun_induction putMember key v ms with
  | case1 => exact ⟨hv, trivial⟩
  | case2 => exact ⟨hv, h.2⟩
  | case3 k w ms hk ih => exact ⟨h.1, ih h.2⟩

variable {xs : List Json}

theorem valid_itemAt (h : ValidItems xs) {i : Nat} {v : Json} (hv : itemAt key i xs = some v) :
    Valid v := by
  fun_induction itemAt key i xs with
  | case1 => cases hv
  | case2 => cases hv; exact h.1
  | case3 i x xs hi ih => exact ih h.2 hv

theorem validItems_putItem (hv : Valid v) (h : ValidItems xs) (i : Nat) :
    ValidItems (putItem key v i xs) := by
  fun_induction putItem key v i xs with
  | case1 => trivial
  | case2 => exact ⟨hv, h.2⟩
  | case3 i x xs hi ih => exact ⟨h.1, ih h.2⟩

theorem valid_child (hj : Valid j) (h : child key j = some c) : Valid c := by
  rcases step_eq_none_or_child h with hs | ⟨-, rfl⟩
  · cases j with
    | obj ms => exact valid_memberAt hj hs
    | arr xs => exact valid_itemAt hj hs
    | _ => cases hs
  · exact trivial

theorem valid_put (hv : Valid v) (hj : Valid j) : Valid (put key v j) := by
  cases j with
  | obj ms => exact validMembers_putMember hv hj
  | arr xs => exact validItems_putItem hv hj 0
  | _ => exact hj

theorem valid_setAt (hv : Valid v) :
    ∀ {j j' : Json}, Valid j → setAt ks v j = some j' → Valid j' := by
  induction ks with
  | nil => intro j j' _ h; cases h; exact hv
  | cons k ks ih =>
    intro j j' hj h
    obtain ⟨c, c', hc, hset, rfl⟩ := setAt_cons h
    exact valid_put (ih (valid_child hj hc) hset) hj

end Json

end Lib
