import Mathlib.Data.List.Perm.Subperm
import AikeyProxy.Lib.Table

/-!
# An outbox with a journal

An outbox keeps the pending values in memory, at most one for a key and at most `cap` in all, and a
journal of `put` and `del` entries on disk. `durable` is its own book of what it takes to be on
disk. Entries are written in batches, each whole or not at all; `events` is the history of them. A
value is *due* when its `put` was written and nothing after it replaced or removed it, and *settled*
when its `del` was written after its last `put`. Every operation keeps memory, book and disk holding
what is due and nothing that is settled.
-/

namespace Lib

open List AList

/-! ### The last of a kind -/

section After

variable {E : Type}

def After (p : E) (q : E → Prop) (l : List E) : Prop :=
  ∃ before after, l = before ++ p :: after ∧ ∀ e ∈ after, q e

theorem After.mem {p : E} {q : E → Prop} {l : List E} (h : After p q l) : p ∈ l := by
  obtain ⟨before, after, rfl, -⟩ := h
  simp

theorem After.append {p : E} {q : E → Prop} {l l' : List E} (h : After p q (l ++ l')) :
    After p q l' ∨ (After p q l ∧ ∀ e ∈ l', q e) := by
  obtain ⟨before, after, heq, hq⟩ := h
  rcases append_eq_append_iff.mp heq with ⟨mid, -, hl'⟩ | ⟨mid, hl, hp⟩
  · exact .inl ⟨mid, after, hl', hq⟩
  · cases mid with
    | nil => exact .inl ⟨[], after, by simpa using hp.symm, hq⟩
    | cons c mid =>
      obtain ⟨rfl, rfl⟩ := List.cons.inj hp
      refine .inr ⟨⟨before, mid, hl, fun e he => hq e (mem_append_left _ he)⟩, ?_⟩
      exact fun e he => hq e (mem_append_right _ he)

end After

variable {K V : Type}

/-! ### Tables inside one another -/

theorem Table.length_le {t m : Table K V} (h : ∀ k ∈ t, k ∈ m) :
    t.entries.length ≤ m.entries.length := by
  have hsub : t.keys ⊆ m.keys := fun k hk => AList.mem_keys.mp (h k (AList.mem_keys.mpr hk))
  have hle := (subperm_of_subset t.keys_nodup hsub).length_le
  simpa [AList.keys, List.keys] using hle

theorem Table.length_lt [DecidableEq K] {t m : Table K V} (h : ∀ k ∈ t, k ∈ m) {k₀ : K}
    (hm : k₀ ∈ m) (ht : k₀ ∉ t) : t.entries.length < m.entries.length := by
  obtain ⟨v, -⟩ := Table.mem_iff.mp hm
  have hle : (t.insert k₀ v).entries.length ≤ m.entries.length :=
    Table.length_le fun k hk => ((mem_insert t).mp hk).elim (fun heq => heq ▸ hm) (h k)
  rwa [entries_insert_of_notMem ht] at hle

/-! ### Entries -/

inductive Entry (V : Type) where
  | put (v : V)
  | del (v : V)

section Rows

variable (key : V → K)

def rows (vs : List V) : List (K × V) := vs.map fun v => (key v, v)

variable {k : K} {vs : List V}

theorem mem_rows {v : V} : (k, v) ∈ rows key vs ↔ v ∈ vs ∧ key v = k := by
  grind -linarith [rows]

theorem mem_keys_rows : k ∈ (rows key vs).map Prod.fst ↔ ∃ v ∈ vs, key v = k := by
  simp [rows]

variable [DecidableEq K]

theorem lookup_assignAll_rows_ne (h : ∀ v ∈ vs, key v ≠ k) (t : Table K V) :
    (assignAll t (rows key vs)).lookup k = t.lookup k := by
  rw [lookup_assignAll_eq, find?_eq_none.mpr]
  · rfl
  · grind -linarith [mem_rows]

theorem lookup_assignAll_rows_mem (h : ∃ v ∈ vs, key v = k) (t t' : Table K V) :
    (assignAll t (rows key vs)).lookup k = (assignAll t' (rows key vs)).lookup k ∧
      ∃ v ∈ vs, key v = k ∧ (assignAll t (rows key vs)).lookup k = some v := by
  rw [lookup_assignAll_eq, lookup_assignAll_eq]
  cases hfind : (rows key vs).reverse.find? (fun row => decide (row.1 = k)) with
  | none =>
    rw [find?_eq_none] at hfind
    obtain ⟨v, hv, hk⟩ := h
    have hno := hfind (k, v) (mem_reverse.mpr ((mem_rows key).mpr ⟨hv, hk⟩))
    simp at hno
  | some row =>
    obtain ⟨k', v⟩ := row
    have hmem := (mem_rows key).mp (mem_reverse.mp (mem_of_find?_eq_some hfind))
    have hk : k' = k := by simpa using find?_some hfind
    exact ⟨rfl, v, hmem.1, hmem.2.trans hk, rfl⟩

theorem lookup_assignAll_rows_last (before : List V) {after : List V} {v : V}
    (h : ∀ x ∈ after, key x ≠ key v) (t : Table K V) :
    (assignAll t (rows key (before ++ v :: after))).lookup (key v) = some v := by
  have hrows : rows key (before ++ v :: after) =
      rows key (before ++ [v]) ++ rows key after := by simp [rows]
  rw [hrows, assignAll, foldl_append]
  refine (lookup_assignAll_rows_ne key h _).trans ?_
  simp [rows]

end Rows

section Removed

variable [DecidableEq K] {key : V → K}

def Removed (key : V → K) (vs : List V) (t t' : Table K V) : Prop :=
  ∀ k, ((∃ v ∈ vs, key v = k) → t'.lookup k = none) ∧
    ((∀ v ∈ vs, key v ≠ k) → t'.lookup k = t.lookup k)

theorem Removed.nil (t : Table K V) : Removed key [] t t :=
  fun _ => ⟨fun ⟨_, hv, _⟩ => absurd hv not_mem_nil, fun _ => rfl⟩

theorem Removed.cons {v : V} {vs : List V} {t t₁ t' : Table K V}
    (hgone : t₁.lookup (key v) = none) (hkeep : ∀ k, k ≠ key v → t₁.lookup k = t.lookup k)
    (h : Removed key vs t₁ t') : Removed key (v :: vs) t t' := by
  intro k
  have hk := h k
  grind -linarith

theorem Removed.lookup {vs : List V} {t t' : Table K V} (h : Removed key vs t t') {k : K} {v : V}
    (hv : t'.lookup k = some v) : (∀ x ∈ vs, key x ≠ k) ∧ t.lookup k = some v := by
  have hk := h k
  grind -linarith

theorem Removed.mem {vs : List V} {t t' : Table K V} (h : Removed key vs t t') {k : K}
    (hk : k ∈ t') : (∀ x ∈ vs, key x ≠ k) ∧ k ∈ t := by
  obtain ⟨v, hv⟩ := Table.mem_iff.mp hk
  exact ⟨(h.lookup hv).1, Table.mem_iff.mpr ⟨v, (h.lookup hv).2⟩⟩

theorem Removed.congr {vs vs' : List V} {t t' : Table K V} (h : Removed key vs t t')
    (hvs : ∀ v, v ∈ vs ↔ v ∈ vs') : Removed key vs' t t' := by
  intro k
  have hk := h k
  grind -linarith

end Removed

/-! ### The outbox -/

structure Outbox (K V : Type) where
  disk : Table K V
  mem : Table K V
  durable : Table K V
  events : List (Bool × Entry V)

/-- A written put that no later put of its key replaced and no written del removed. -/
def Due (key : V → K) (events : List (Bool × Entry V)) (v : V) : Prop :=
  After (true, .put v)
    (fun e => (∀ x, e.2 = .put x → key x ≠ key v) ∧ e ≠ (true, .del v)) events

/-- A written del that no later put of the value undid. -/
def Settled (events : List (Bool × Entry V)) (v : V) : Prop :=
  After (true, .del v) (fun e => e.2 ≠ .put v) events

variable [DecidableEq K]

structure Outbox.Inv (key : V → K) (cap : Nat) (b : Outbox K V) : Prop where
  inside : ∀ k ∈ b.disk, k ∈ b.mem
  room : b.mem.entries.length ≤ cap
  keyed : ∀ k v, b.mem.lookup k = some v → key v = k
  diskKeyed : ∀ k v, b.disk.lookup k = some v → key v = k
  durable : ∀ k v, b.durable.lookup k = some v → b.disk.lookup k = some v
  due : ∀ v, Due key b.events v →
    b.mem.lookup (key v) = some v ∧ b.durable.lookup (key v) = some v
  settled : ∀ v, Settled b.events v →
    b.mem.lookup (key v) ≠ some v ∧ b.disk.lookup (key v) ≠ some v

def Outbox.Fresh (b : Outbox K V) : Prop :=
  ∀ k v, b.durable.lookup k = some v → b.mem.lookup k = some v

namespace Outbox.Inv

variable {key : V → K} {cap : Nat} {b : Outbox K V}

theorem failed (h : Inv key cap b) (es : List (Entry V)) :
    Inv key cap { b with events := b.events ++ es.map fun e => (false, e) } where
  inside := h.inside
  room := h.room
  keyed := h.keyed
  diskKeyed := h.diskKeyed
  durable := h.durable
  due v hv := by
    rcases hv.append with hnew | ⟨hold, -⟩
    · have hmem := hnew.mem
      simp at hmem
    · exact h.due v hold
  settled v hv := by
    rcases hv.append with hnew | ⟨hold, -⟩
    · have hmem := hnew.mem
      simp at hmem
    · exact h.settled v hold

theorem mem_puts (h : Inv key cap b) (vs : List V) (ok : Bool) :
    (∀ k v, (assignAll b.mem (rows key vs)).lookup k = some v → key v = k) ∧
    (∀ v, Settled (b.events ++ vs.map fun v => (ok, .put v)) v →
      Settled b.events v ∧ v ∉ vs) ∧
    ∀ v, Settled (b.events ++ vs.map fun v => (ok, .put v)) v →
      (assignAll b.mem (rows key vs)).lookup (key v) ≠ some v := by
  have hsettled : ∀ v, Settled (b.events ++ vs.map fun v => (ok, .put v)) v →
      Settled b.events v ∧ v ∉ vs := by
    intro v hv
    rcases hv.append with hnew | ⟨hold, hno⟩
    · have hmem := hnew.mem
      simp at hmem
    · refine ⟨hold, fun hin => ?_⟩
      exact hno _ (mem_map.mpr ⟨v, hin, rfl⟩) rfl
  refine ⟨fun k v hv => ?_, hsettled, fun v hv hlook => ?_⟩
  · rcases lookup_assignAll hv with hrow | hold
    · exact ((mem_rows key).mp hrow).2
    · exact h.keyed k v hold
  · obtain ⟨hold, hnot⟩ := hsettled v hv
    rcases lookup_assignAll hlook with hrow | hmem
    · exact hnot ((mem_rows key).mp hrow).1
    · exact (h.settled v hold).1 hmem

theorem putFails (h : Inv key cap b) (vs : List V)
    (hroom : (assignAll b.mem (rows key vs)).entries.length ≤ cap) :
    Inv key cap { b with
      mem := assignAll b.mem (rows key vs)
      events := b.events ++ vs.map fun v => (false, .put v) } where
  inside k hk := mem_assignAll.mpr (.inr (h.inside k hk))
  room := hroom
  keyed := (h.mem_puts vs false).1
  diskKeyed := h.diskKeyed
  durable := h.durable
  due v hv := by
    rcases hv.append with hnew | ⟨hold, hno⟩
    · have hmem := hnew.mem
      simp at hmem
    · obtain ⟨hmem, hdur⟩ := h.due v hold
      refine ⟨?_, hdur⟩
      rw [lookup_assignAll_rows_ne key (fun x hx => ?_), hmem]
      exact (hno _ (mem_map.mpr ⟨x, hx, rfl⟩)).1 x rfl
  settled v hv :=
    ⟨(h.mem_puts vs false).2.2 v hv, (h.settled v ((h.mem_puts vs false).2.1 v hv).1).2⟩

def BookedPuts (key : V → K) (b : Outbox K V) (vs : List V) (mem durable : Table K V) : Prop :=
  (∀ k, (∃ v ∈ vs, key v = k) → durable.lookup k = mem.lookup k) ∧
    ∀ k, (∀ v ∈ vs, key v ≠ k) → durable.lookup k = b.durable.lookup k

theorem putDone (h : Inv key cap b) (vs : List V) {durable : Table K V}
    (hroom : (assignAll b.mem (rows key vs)).entries.length ≤ cap)
    (hbook : BookedPuts key b vs (assignAll b.mem (rows key vs)) durable) :
    Inv key cap
      { disk := assignAll b.disk (rows key vs)
        mem := assignAll b.mem (rows key vs)
        durable := durable
        events := b.events ++ vs.map fun v => (true, .put v) } where
  inside k hk := by
    rcases mem_assignAll.mp hk with hk | hk
    · exact mem_assignAll.mpr (.inl hk)
    · exact mem_assignAll.mpr (.inr (h.inside k hk))
  room := hroom
  keyed := (h.mem_puts vs true).1
  diskKeyed k v hv := by
    rcases lookup_assignAll hv with hrow | hold
    · exact ((mem_rows key).mp hrow).2
    · exact h.diskKeyed k v hold
  durable k v hv := by
    by_cases hin : ∃ x ∈ vs, key x = k
    · rw [← hv, hbook.1 k hin]
      exact (lookup_assignAll_rows_mem key hin _ _).1
    · have hno : ∀ x ∈ vs, key x ≠ k := fun x hx hk => hin ⟨x, hx, hk⟩
      rw [hbook.2 k hno] at hv
      show (assignAll b.disk (rows key vs)).lookup k = some v
      rw [lookup_assignAll_rows_ne key hno]
      exact h.durable k v hv
  due v hv := by
    rcases hv.append with hnew | ⟨hold, hno⟩
    · obtain ⟨before, after, heq, hlast⟩ := hnew
      obtain ⟨vs₁, vs₂, rfl, -, hvs₂⟩ := map_eq_append_iff.mp heq
      obtain ⟨v', vs₃, rfl, hv', rfl⟩ := map_eq_cons_iff.mp hvs₂
      obtain rfl : v' = v := by simpa using hv'
      have hmem := lookup_assignAll_rows_last key vs₁
        (fun x hx => (hlast _ (mem_map.mpr ⟨x, hx, rfl⟩)).1 x rfl) b.mem
      exact ⟨hmem, (hbook.1 _ ⟨v', by simp, rfl⟩).trans hmem⟩
    · obtain ⟨hmem, hdur⟩ := h.due v hold
      have hne : ∀ x ∈ vs, key x ≠ key v := fun x hx =>
        (hno _ (mem_map.mpr ⟨x, hx, rfl⟩)).1 x rfl
      exact ⟨(lookup_assignAll_rows_ne key hne _).trans hmem, (hbook.2 _ hne).trans hdur⟩
  settled v hv := by
    obtain ⟨hold, hnot⟩ := (h.mem_puts vs true).2.1 v hv
    refine ⟨(h.mem_puts vs true).2.2 v hv, fun hlook => ?_⟩
    rcases lookup_assignAll hlook with hrow | hdisk
    · exact hnot ((mem_rows key).mp hrow).1
    · exact (h.settled v hold).2 hdisk

/-- A compaction writes the memory anew; the book must not be out of date. -/
theorem compact (h : Inv key cap b) (hfresh : b.Fresh) {disk : Table K V}
    (hdisk : ∀ k, disk.lookup k = b.mem.lookup k) : Inv key cap { b with disk := disk } where
  inside k hk := by
    rw [← lookup_isSome] at hk ⊢
    rwa [← hdisk k]
  room := h.room
  keyed := h.keyed
  diskKeyed k v hv := h.keyed k v ((hdisk k).symm.trans hv)
  durable k v hv := (hdisk k).trans (hfresh k v hv)
  due := h.due
  settled v hv := by
    obtain ⟨hmem, -⟩ := h.settled v hv
    exact ⟨hmem, fun hlook => hmem ((hdisk _).symm.trans hlook)⟩

theorem restart (h : Inv key cap b) : Inv key cap { b with mem := b.disk, durable := b.disk } where
  inside _ hk := hk
  room := Nat.le_trans (Table.length_le h.inside) h.room
  keyed := h.diskKeyed
  diskKeyed := h.diskKeyed
  durable _ _ hv := hv
  due v hv := by
    have hdisk := h.durable _ _ (h.due v hv).2
    exact ⟨hdisk, hdisk⟩
  settled v hv := ⟨(h.settled v hv).2, (h.settled v hv).2⟩

end Outbox.Inv

/-! ### Replaying the entries -/

section Replay

variable [DecidableEq V] (key : V → K) (cap : Nat)

/-- Replay an entry: a new key finds no room in a full table, and only the value itself is
removed. -/
def Entry.apply (t : Table K V) : Entry V → Table K V
  | .put v => if key v ∉ t ∧ cap ≤ t.entries.length then t else t.insert (key v) v
  | .del v => if t.lookup (key v) = some v then t.erase (key v) else t

variable {key cap}

variable {v : V} {m durable : Table K V}

theorem apply_put {t : Table K V} (hcap : m.entries.length ≤ cap) (ht : ∀ k ∈ t, k ∈ m)
    (hv : key v ∈ m) : Entry.apply key cap t (.put v) = t.insert (key v) v := by
  rw [Entry.apply, if_neg]
  rintro ⟨hnot, hfull⟩
  have hlt := Table.length_lt ht hv hnot
  omega

theorem foldl_apply_put (hcap : m.entries.length ≤ cap) :
    ∀ {vs : List V} {t : Table K V}, (∀ k ∈ t, k ∈ m) → (∀ v ∈ vs, key v ∈ m) →
      (vs.map Entry.put).foldl (Entry.apply key cap) t = assignAll t (rows key vs) := by
  intro vs
  induction vs with
  | nil => intro t _ _; rfl
  | cons v vs ih =>
    intro t ht hvs
    have hv : key v ∈ m := hvs v mem_cons_self
    rw [map_cons, foldl_cons, apply_put hcap ht hv]
    exact ih (by grind -linarith [mem_insert]) (by grind -linarith)

/-- The entries that acknowledge a value: one that the book does not have is put first, so that
its del finds it. -/
def ackEntries (key : V → K) (durable : Table K V) (v : V) : List (Entry V) :=
  (if durable.lookup (key v) = some v then [] else [.put v]) ++ [.del v]

theorem apply_ackEntries {t : Table K V} (hcap : m.entries.length ≤ cap) (ht : ∀ k ∈ t, k ∈ m)
    (hv : key v ∈ m)
    (hbook : durable.lookup (key v) = some v →
      t.lookup (key v) = some v ∨ t.lookup (key v) = none) :
    ((ackEntries key durable v).foldl (Entry.apply key cap) t).lookup (key v) = none ∧
      ∀ k, k ≠ key v →
        ((ackEntries key durable v).foldl (Entry.apply key cap) t).lookup k = t.lookup k := by
  have hput := apply_put (t := t) hcap ht hv
  unfold ackEntries
  split <;>
    simp only [nil_append, singleton_append, foldl_cons, foldl_nil, hput] <;>
    grind -linarith [Entry.apply, lookup_erase, lookup_erase_ne, lookup_insert,
      lookup_insert_ne]

theorem removed_ackEntries (hcap : m.entries.length ≤ cap) :
    ∀ {vs : List V} {t : Table K V}, (∀ k ∈ t, k ∈ m) → (∀ v ∈ vs, m.lookup (key v) = some v) →
      (∀ v ∈ vs, durable.lookup (key v) = some v →
        t.lookup (key v) = some v ∨ t.lookup (key v) = none) →
      Removed key vs t
        ((vs.flatMap (ackEntries key durable)).foldl (Entry.apply key cap) t) := by
  intro vs
  induction vs with
  | nil =>
    intro t _ _ _
    exact .nil t
  | cons v vs ih =>
    intro t ht hm hbook
    obtain ⟨hgone, hkeep⟩ := apply_ackEntries hcap ht
      (Table.mem_iff.mpr ⟨v, hm v mem_cons_self⟩) (hbook v mem_cons_self)
    rw [flatMap_cons, foldl_append]
    generalize (ackEntries key durable v).foldl (Entry.apply key cap) t = t₁ at hgone hkeep
    -- What is left lies inside the old table, so the rest of the values go the same way.
    have hsub : ∀ k ∈ t₁, k ∈ t := by
      simp only [Table.mem_iff]
      grind -linarith
    refine .cons hgone hkeep (ih (fun k hk => ht k (hsub k hk))
      (fun x hx => hm x (mem_cons_of_mem _ hx)) fun x hx hdur => ?_)
    by_cases hk : key x = key v
    · exact .inr (hk ▸ hgone)
    · rw [hkeep _ hk]
      exact hbook x (mem_cons_of_mem _ hx) hdur

theorem not_due_ackEntries {vs : List V} :
    ¬ Due key ((vs.flatMap (ackEntries key durable)).map fun e => (true, e)) v := by
  induction vs with
  | nil => intro h; exact absurd h.mem (by simp)
  | cons x vs ih =>
    intro h
    rw [flatMap_cons, map_append] at h
    rcases h.append with hrest | ⟨hblock, -⟩
    · exact ih hrest
    · rw [ackEntries, map_append] at hblock
      rcases hblock.append with hdel | ⟨hput, hno⟩
      · exact absurd hdel.mem (by simp)
      · have hmem := hput.mem
        have hdel := (hno (true, .del x) (by simp)).2
        grind -linarith

/-- A written batch of acknowledgements of values in memory. -/
theorem Outbox.Inv.ackDone {b : Outbox K V} (h : Outbox.Inv key cap b) {vs : List V}
    (hvs : ∀ v ∈ vs, b.mem.lookup (key v) = some v) {mem : Table K V}
    (hmem : Removed key vs b.mem mem) (hdurable : Removed key vs b.durable durable) :
    Outbox.Inv key cap
      { disk := (vs.flatMap (ackEntries key b.durable)).foldl (Entry.apply key cap) b.disk
        mem := mem
        durable := durable
        events := b.events ++ (vs.flatMap (ackEntries key b.durable)).map fun e => (true, e) } := by
  have hdisk := removed_ackEntries h.room h.inside hvs fun v _ hv => .inl (h.durable _ v hv)
  generalize (vs.flatMap (ackEntries key b.durable)).foldl (Entry.apply key cap) b.disk = disk
    at hdisk
  refine ⟨?_, ?_, ?_, ?_, ?_, ?_, ?_⟩
  · intro k hk
    obtain ⟨hno, hold⟩ := hdisk.mem hk
    rw [Table.mem_iff, (hmem k).2 hno]
    exact Table.mem_iff.mp (h.inside k hold)
  · exact Nat.le_trans (Table.length_le fun k hk => (hmem.mem hk).2) h.room
  · exact fun k v hv => h.keyed k v (hmem.lookup hv).2
  · exact fun k v hv => h.diskKeyed k v (hdisk.lookup hv).2
  · intro k v hv
    obtain ⟨hno, hold⟩ := hdurable.lookup hv
    exact ((hdisk k).2 hno).trans (h.durable k v hold)
  · intro v hv
    rcases hv.append with hnew | ⟨hold, hnot⟩
    · exact absurd hnew not_due_ackEntries
    · obtain ⟨hm, hd⟩ := h.due v hold
      -- A value with the same key would be this one, and its del is in the batch.
      have hno : ∀ x ∈ vs, key x ≠ key v := by
        intro x hx hk
        have hxv : x = v := Option.some.inj ((hvs x hx).symm.trans (hk ▸ hm))
        refine (hnot (true, .del x) ?_).2 (by rw [hxv])
        refine mem_map.mpr ⟨.del x, mem_flatMap.mpr ⟨x, hx, ?_⟩, rfl⟩
        simp [ackEntries]
      exact ⟨((hmem _).2 hno).trans hm, ((hdurable _).2 hno).trans hd⟩
  · intro v hv
    rcases hv.append with hnew | ⟨hold, -⟩
    · have hin : v ∈ vs := by
        have hmem := hnew.mem
        simp only [mem_map, mem_flatMap, ackEntries] at hmem
        grind -linarith
      rw [(hmem _).1 ⟨v, hin, rfl⟩, (hdisk _).1 ⟨v, hin, rfl⟩]
      simp
    · obtain ⟨hm, hd⟩ := h.settled v hold
      exact ⟨fun hlook => hm (hmem.lookup hlook).2, fun hlook => hd (hdisk.lookup hlook).2⟩

end Replay

end Lib
