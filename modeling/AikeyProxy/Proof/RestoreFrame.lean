import AikeyProxy.Proxy.ResponseRestore

/-!
# What the walk over a response leaves alone

The strings the walk reaches are those on paths that lead neither into a block it passes over nor
through a reasoning field (`reached`). They are replaced by their restored text, and nothing else
is changed, for any set of block types to pass over.
-/

namespace AikeyProxy.Proxy

open Lib Json

variable {skips : String → Bool} {st : MaskRestore} {ms : Json.Members} {v w : Json}
  {key s : String} {path : List String}

mutual

/-- The value without its texts. -/
def shape : Json → Json
  | .str _ => .str ""
  | .arr xs => .arr (shapeItems xs)
  | .obj ms => .obj (shapeMembers ms)
  | v => v

def shapeItems : List Json → List Json
  | [] => []
  | x :: xs => shape x :: shapeItems xs

def shapeMembers : Json.Members → Json.Members
  | [] => []
  | (k, v) :: ms => (k, shape v) :: shapeMembers ms

end

mutual

theorem shape_restoreSkipping : ∀ v : Json, shape (restoreSkipping skips st v).1 = shape v
  | .str s => by rw [restoreSkipping]; split <;> rfl
  | .arr xs => by simp only [restoreSkipping, shape, shapeItems_restoreSkipping xs]
  | .obj ms => by
    rw [restoreSkipping]
    split
    · rfl
    · simp only [shape, shapeMembers_restoreSkipping ms]
  | .null | .bool _ | .num _ => rfl

theorem shapeItems_restoreSkipping :
    ∀ xs : List Json, shapeItems (restoreItems skips st xs).1 = shapeItems xs
  | [] => rfl
  | x :: xs => by
    simp only [restoreItems, shapeItems, shape_restoreSkipping x,
      shapeItems_restoreSkipping xs]

theorem shapeMembers_restoreSkipping : ∀ ms : Json.Members,
    shapeMembers (restoreMembers skips st ms).1 = shapeMembers ms
  | [] => rfl
  | (k, v) :: ms => by
    rw [restoreMembers]
    dsimp only
    split <;> simp only [shapeMembers, shape_restoreSkipping v, shapeMembers_restoreSkipping ms]

end

/-- The step into a value that the walk takes as well. -/
def reachedStep (skips : String → Bool) (key : String) : Json → Option Json
  | .obj ms =>
    if skips (asString (Json.memberAt "type" ms)) = true ∨ key ∈ reasoningTextFields then none
    else Json.memberAt key ms
  | v => Json.step key v

def reached (skips : String → Bool) : List String → Json → Option Json
  | [], v => some v
  | k :: ks, v => (reachedStep skips k v).bind (reached skips ks)

theorem memberAt_restoreSkipping (key : String) (ms : Json.Members) :
    Json.memberAt key (restoreMembers skips st ms).1 = (Json.memberAt key ms).map fun v =>
      if key ∈ reasoningTextFields then v else (restoreSkipping skips st v).1 := by
  induction ms with
  | nil => rfl
  | cons m ms ih =>
    obtain ⟨k, v⟩ := m
    rw [restoreMembers]
    dsimp only
    by_cases hk : k = key
    · subst hk
      split <;> simp_all [memberAt]
    · split <;> simp [memberAt, hk, ih]

theorem restoreItems_map (xs : List Json) :
    (restoreItems skips st xs).1 = xs.map fun x => (restoreSkipping skips st x).1 := by
  induction xs with
  | nil => rfl
  | cons x xs ih => rw [restoreItems, List.map_cons, ← ih]

theorem step_restoreSkipping (skips : String → Bool) (st : MaskRestore) (key : String) (v : Json) :
    Json.step key (restoreSkipping skips st v).1 =
      match reachedStep skips key v with
      | some w => some (restoreSkipping skips st w).1
      | none => Json.step key v := by
  cases v with
  | obj ms =>
    rw [restoreSkipping, reachedStep]
    by_cases hskip : skips (asString (memberAt "type" ms)) = true
    · simp [hskip]
    · by_cases hkey : key ∈ reasoningTextFields <;>
        cases hmember : memberAt key ms <;>
        simp [hskip, hkey, hmember, Json.step, memberAt_restoreSkipping]
  | arr xs =>
    simp only [restoreSkipping, reachedStep, Json.step, restoreItems_map, itemAt_map]
    cases itemAt key 0 xs <;> rfl
  | str s => rw [restoreSkipping]; split <;> rfl
  | null | bool | num => rfl

theorem reachedStep_some (h : reachedStep skips key v = some w) : Json.step key v = some w := by
  cases v with
  | obj ms =>
    rw [reachedStep] at h
    split at h
    · cases h
    · exact h
  | _ => exact h

theorem reached_some (h : reached skips path v = some w) : Json.follow path v = some w := by
  induction path generalizing v with
  | nil => exact h
  | cons k ks ih =>
    obtain ⟨u, hstep, hrest⟩ := Option.bind_eq_some_iff.mp h
    rw [follow, reachedStep_some hstep]
    exact ih hrest

theorem follow_restoreSkipping (skips : String → Bool) (st : MaskRestore) (path : List String) :
    ∀ v : Json, Json.follow path (restoreSkipping skips st v).1 =
      match reached skips path v with
      | some w => some (restoreSkipping skips st w).1
      | none => Json.follow path v := by
  induction path with
  | nil => intro v; rfl
  | cons k ks ih =>
    intro v
    rw [follow, follow, step_restoreSkipping, reached]
    cases hstep : reachedStep skips k v with
    | none => rfl
    | some u =>
      rw [reachedStep_some hstep]
      exact ih u

structure ExactFrame (skips : String → Bool) (st : MaskRestore) (v v' : Json) : Prop where
  /-- Keys, numbers, booleans, nulls and the lengths of arrays are as they were. -/
  shape : shape v' = shape v
  /-- Below a block that is passed over and below a reasoning field nothing changes. -/
  kept : ∀ path, reached skips path v = none → Json.follow path v' = Json.follow path v
  text : ∀ path s, reached skips path v = some (.str s) →
    Json.follow path v' = some (.str (st.restoreString s))

/-- **The walk replaces the strings it reaches, and nothing else**, for any set of block types to
pass over. -/
theorem restore_exact_frame (st : MaskRestore) (v : Json) :
    restoreJSONStrings st v = restoreSkipping (buildRestoreSkipBlockTypes
        (reasoningBlockTypes.contains ·) (blockScanPolicy defaultToolBlockScanMode)) st v ∧
      ∀ skips, ExactFrame skips st v (restoreSkipping skips st v).1 := by
  refine ⟨rfl, fun skips => ⟨shape_restoreSkipping v, ?_, ?_⟩⟩
  · intro path h
    rw [follow_restoreSkipping, h]
  · intro path s h
    rw [follow_restoreSkipping, h]
    simp only [restoreSkipping]
    split
    · rfl
    next hsame => rw [not_not.mp hsame]

end AikeyProxy.Proxy
