import AikeyProxy.Quota.Counter
import Mathlib.Data.List.Induction
import Mathlib.Tactic.Linarith

/-!
# What a restart keeps of the used amounts

A flush writes a row for each bucket with an increment. A bucket whose increment was absorbed by a
baseline writes none, and the row of an earlier flush stays; so does the row of another bucket with
the same map key. A restart is exact just when the flush leaves no such row that differs.
-/

namespace AikeyProxy.Quota

open Lib List AList Counter

/-! ## The property and its condition -/

def Current (now : UtcTime) (k : BucketKey) : Prop := ∃ period, k.periodKey = periodKey period now

def Counter.baselineAt (c : Counter) (k : BucketKey) : ℚ := (c.cellAt k).baseline

def Counter.incrementAt (c : Counter) (k : BucketKey) : ℚ := (c.cellAt k).increment

/-- The baselines handed to a starting process: one for each map key, and at every bucket of the
current period the one the counter has. -/
structure BaselinesInForce (subjects : List Subject) (now : UtcTime) (c : Counter) : Prop where
  once : ((baselineRows subjects now).map fun row => counterKey row.1).Nodup
  same : ∀ k, Current now k → ∀ row ∈ baselineRows subjects now, counterKey row.1 = counterKey k →
    row.2 = c.baselineAt k
  unreported : ∀ k, Current now k →
    (∀ row ∈ baselineRows subjects now, counterKey row.1 ≠ counterKey k) → c.baselineAt k = 0

/-- In whatever order the table is read, every bucket of the current period has the same used
amount after the restart as before it. -/
def RestartExact (subjects : List Subject) (now : UtcTime) (s : QuotaWorld) : Prop :=
  ∀ rows, rows.Perm s.localUsage.rows → ∀ k, Current now k →
    (startCounter subjects now rows).get k = s.counter.get k

/-- What the last flush meets. A row under the bucket's map key is the bucket's own and is going to be
overwritten, or carries its increment as it is; and the baseline of a bucket that has no increment
and no row is not below zero. -/
structure FlushReady (s : QuotaWorld) (k : BucketKey) : Prop where
  rows : ∀ r ∈ s.localUsage.rows, counterKey r.key = counterKey k →
    (r.key = (s.counter.cellAt k).key ∧ s.counter.incrementAt k ≠ 0) ∨
      r.increment = s.counter.incrementAt k
  baseline : s.counter.incrementAt k = 0 →
    (∀ r ∈ s.localUsage.rows, counterKey r.key ≠ counterKey k) → 0 ≤ s.counter.baselineAt k

/-! ## Cells -/

variable {c : Counter} {k k' : BucketKey} {x : Cell}

theorem get_eq : c.get k = c.baselineAt k + c.incrementAt k := by
  unfold Counter.get baselineAt incrementAt Counter.cellAt
  cases AList.lookup (counterKey k) c with
  | none => simp
  | some x => rfl

theorem cellAt_setCell (h : counterKey k = counterKey k') : (c.setCell k' x).cellAt k = x := by
  unfold Counter.cellAt Counter.setCell
  rw [h, lookup_insert]
  rfl

theorem cellAt_setCell_ne (h : counterKey k ≠ counterKey k') :
    (c.setCell k' x).cellAt k = c.cellAt k := by
  unfold Counter.cellAt Counter.setCell
  rw [lookup_insert_ne h]

theorem amounts_congr (h : counterKey k = counterKey k') :
    c.baselineAt k = c.baselineAt k' ∧ c.incrementAt k = c.incrementAt k' := by
  unfold baselineAt incrementAt Counter.cellAt
  rw [h]
  cases AList.lookup (counterKey k') c with
  | none | some x => exact ⟨rfl, rfl⟩

def CellsNamed (c : Counter) : Prop :=
  ∀ ck x, AList.lookup ck c = some x → counterKey x.key = ck

theorem cellsNamed_empty : CellsNamed ∅ := by
  intro ck x h
  rw [lookup_empty] at h
  cases h

theorem CellsNamed.cellAt (h : CellsNamed c) (k : BucketKey) :
    counterKey (c.cellAt k).key = counterKey k := by
  unfold Counter.cellAt
  cases hc : AList.lookup (counterKey k) c with
  | none => rfl
  | some x => exact h _ _ hc

theorem CellsNamed.setCell (h : CellsNamed c) (hx : counterKey x.key = counterKey k) :
    CellsNamed (c.setCell k x) := by
  intro ck y hy
  unfold Counter.setCell at hy
  by_cases hck : ck = counterKey k
  · subst hck
    rw [lookup_insert] at hy
    cases hy
    exact hx
  · rw [lookup_insert_ne hck] at hy
    exact h ck y hy

theorem adopt_key (x : Cell) (baseline : ℚ) : (x.adopt baseline).key = x.key := by
  unfold Cell.adopt
  split <;> rfl

theorem CellsNamed.seedBaselines (h : CellsNamed c) (subjects : List Subject) (now : UtcTime) :
    CellsNamed (Quota.seedBaselines c subjects now) := by
  unfold Quota.seedBaselines
  generalize baselineRows subjects now = rows
  induction rows generalizing c with
  | nil => exact h
  | cons row rows ih =>
    apply ih
    exact h.setCell ((congrArg counterKey (adopt_key _ _)).trans (h.cellAt row.1))

theorem CellsNamed.seedLocalIncrements (h : CellsNamed c) (rows : List LocalUsageRow) :
    CellsNamed (Quota.seedLocalIncrements c rows) := by
  unfold Quota.seedLocalIncrements
  induction rows generalizing c with
  | nil => exact h
  | cons r rows ih =>
    apply ih
    exact h.setCell (h.cellAt r.key)

variable {s : QuotaWorld} {now : UtcTime} {subjects : List Subject}

theorem CellsNamed.step {s' : QuotaWorld} {op : QuotaOp} (h : CellsNamed s.counter)
    (hs : quotaStep s op = some s') : CellsNamed s'.counter := by
  cases op with
  | add k delta =>
    cases hs
    exact h.setCell (h.cellAt k)
  | setBaseline k baseline =>
    cases hs
    exact h.setCell ((congrArg counterKey (adopt_key _ _)).trans (h.cellAt k))
  | flush =>
    cases hs
    exact h
  | restart subjects now rows =>
    simp only [quotaStep] at hs
    split at hs
    · cases hs
      exact (cellsNamed_empty.seedBaselines subjects now).seedLocalIncrements rows
    · cases hs

/-! ## A flush -/

theorem mem_incrementRows {r : LocalUsageRow} :
    r ∈ c.incrementRows ↔ ∃ ck x, AList.lookup ck c = some x ∧ x.increment ≠ 0 ∧
      r = ⟨x.key, x.increment⟩ := by
  unfold incrementRows
  rw [mem_filterMap]
  constructor
  · rintro ⟨e, he, hr⟩
    split at hr
    next hne =>
      cases hr
      exact ⟨e.1, e.2, mem_lookup_iff.mpr he, hne, rfl⟩
    · cases hr
  · rintro ⟨ck, x, hx, hne, rfl⟩
    exact ⟨⟨ck, x⟩, mem_lookup_iff.mp hx, if_pos hne⟩

theorem mem_rows {t : LocalUsage} {r : LocalUsageRow} :
    r ∈ t.rows ↔ AList.lookup r.key t = some r.increment := by
  unfold LocalUsage.rows
  rw [mem_map]
  constructor
  · rintro ⟨e, he, rfl⟩
    exact mem_lookup_iff.mpr he
  · intro h
    exact ⟨⟨r.key, r.increment⟩, mem_lookup_iff.mp h, rfl⟩

theorem lookup_of_increment (hne : c.incrementAt k ≠ 0) :
    AList.lookup (counterKey k) c = some (c.cellAt k) := by
  unfold incrementAt Counter.cellAt at hne
  unfold Counter.cellAt
  cases hx : AList.lookup (counterKey k) c with
  | none => simp [hx] at hne
  | some x => rfl

theorem cellAt_congr (h : counterKey k' = counterKey k) (hne : c.incrementAt k ≠ 0) :
    c.cellAt k' = c.cellAt k := by
  have hne' : c.incrementAt k' ≠ 0 := (amounts_congr h).2 ▸ hne
  have hsome := lookup_of_increment hne'
  rw [h, lookup_of_increment hne] at hsome
  exact (Option.some_inj.mp hsome).symm

theorem incrementRows_keys_nodup (h : CellsNamed c) :
    ((c.incrementRows.map fun r => (r.key, r.increment)).map Prod.fst).Nodup := by
  have hcells : (c.entries.map fun e => e.2.key).Nodup := by
    have hkeys : (c.entries.map fun e => counterKey e.2.key) = c.entries.map Sigma.fst :=
      map_congr_left fun e he => h _ _ (mem_lookup_iff.mpr he)
    refine List.Nodup.of_map counterKey ?_
    rw [map_map]
    exact hkeys ▸ c.nodupKeys
  refine hcells.sublist ?_
  rw [map_map, incrementRows, map_filterMap]
  generalize c.entries = es
  induction es with
  | nil => exact .slnil
  | cons e es ih =>
    rw [filterMap_cons, map_cons]
    by_cases hne : e.2.increment ≠ 0
    · rw [if_pos hne]
      exact ih.cons_cons _
    · rw [if_neg hne]
      exact ih.cons _

/-- **What the upsert writes:** the increment of a cell to the row of the bucket it was made for. -/
theorem lookup_writeLocalUsage (h : CellsNamed c) (t : LocalUsage) (key : BucketKey) :
    AList.lookup key (writeLocalUsage t c.incrementRows) =
      if key = (c.cellAt key).key ∧ c.incrementAt key ≠ 0 then some (c.incrementAt key)
      else AList.lookup key t := by
  unfold writeLocalUsage
  split
  next hown =>
    have hrow : (⟨key, c.incrementAt key⟩ : LocalUsageRow) ∈ c.incrementRows :=
      mem_incrementRows.mpr ⟨_, _, lookup_of_increment hown.2, hown.2, by rw [← hown.1]; rfl⟩
    exact lookup_assignAll_of_nodup (incrementRows_keys_nodup h) (mem_map_of_mem hrow)
  next hother =>
    rw [lookup_assignAll_eq]
    have hnone : ((c.incrementRows.map fun r => (r.key, r.increment)).reverse.find?
        fun row => decide (row.1 = key)) = none := by
      refine find?_eq_none.mpr fun row hrow heq => hother ?_
      obtain ⟨r, hr, rfl⟩ := mem_map.mp (mem_reverse.mp hrow)
      obtain ⟨ck, x, hx, hne, rfl⟩ := mem_incrementRows.mp hr
      obtain rfl : x.key = key := of_decide_eq_true heq
      have hcell : c.cellAt x.key = x := by
        unfold Counter.cellAt
        rw [h _ _ hx, hx]
        rfl
      unfold incrementAt
      rw [hcell]
      exact ⟨rfl, hne⟩
    rw [hnone]
    rfl

theorem row_of_flush (h : CellsNamed c) (t : LocalUsage) (hne : c.incrementAt k ≠ 0) :
    ∃ r ∈ LocalUsage.rows (writeLocalUsage t c.incrementRows), counterKey r.key = counterKey k := by
  have hkey := h.cellAt k
  refine ⟨⟨(c.cellAt k).key, c.incrementAt (c.cellAt k).key⟩, mem_rows.mpr ?_, hkey⟩
  rw [lookup_writeLocalUsage h, if_pos ⟨by rw [cellAt_congr hkey hne], (amounts_congr hkey).2 ▸ hne⟩]

/-! ## A start -/

theorem seedIncrement_baselineAt (r : LocalUsageRow) :
    (c.seedIncrement r.key r.increment).baselineAt k = c.baselineAt k := by
  unfold baselineAt seedIncrement
  by_cases hk : counterKey k = counterKey r.key
  · rw [cellAt_setCell hk]
    exact (amounts_congr hk).1.symm
  · rw [cellAt_setCell_ne hk]

theorem seedLocalIncrements_baselineAt (rows : List LocalUsageRow) :
    (seedLocalIncrements c rows).baselineAt k = c.baselineAt k := by
  unfold seedLocalIncrements
  induction rows generalizing c with
  | nil => rfl
  | cons r rows ih => exact ih.trans (seedIncrement_baselineAt r)

theorem seedLocalIncrements_last (rows : List LocalUsageRow) (r : LocalUsageRow)
    (hr : counterKey r.key = counterKey k) :
    (seedLocalIncrements c (rows ++ [r])).incrementAt k = r.increment := by
  unfold seedLocalIncrements incrementAt
  rw [foldl_append, foldl_cons, foldl_nil]
  unfold seedIncrement
  rw [cellAt_setCell hr.symm]

theorem seedLocalIncrements_agree {v : ℚ} (rows : List LocalUsageRow)
    (hrows : ∀ r ∈ rows, counterKey r.key = counterKey k → r.increment = v)
    (hc : (∀ r ∈ rows, counterKey r.key ≠ counterKey k) → c.incrementAt k = v) :
    (seedLocalIncrements c rows).incrementAt k = v := by
  -- the last row decides; before it, rows of other buckets change nothing here
  induction rows using List.reverseRecOn with
  | nil => exact hc (nofun)
  | append_singleton rows r ih =>
    by_cases hk : counterKey r.key = counterKey k
    · rw [seedLocalIncrements_last rows r hk]
      exact hrows r (by simp) hk
    · have hrest : (seedLocalIncrements c rows).incrementAt k = v := by
        refine ih (fun r' hr' => hrows r' (by simp [hr'])) ?_
        intro hnone
        refine hc ?_
        intro r' hr'
        rcases mem_append.mp hr' with hin | hlast
        · exact hnone r' hin
        · obtain rfl := mem_singleton.mp hlast
          exact hk
      rw [← hrest]
      unfold seedLocalIncrements incrementAt
      rw [foldl_append, foldl_cons, foldl_nil]
      unfold seedIncrement
      rw [cellAt_setCell_ne (Ne.symm hk)]

theorem adopt_fresh (hbase : x.baseline = 0) (hinc : x.increment = 0) (b : ℚ) :
    (x.adopt b).increment = max 0 (-(x.adopt b).baseline) := by
  unfold Cell.adopt
  rw [hbase, hinc, add_zero]
  by_cases hzero : (0 : ℚ) = b
  · rw [if_pos hzero, hbase, hinc]
    simp
  · rw [if_neg hzero]
    by_cases hle : 0 ≤ b
    · simp only [if_pos hle]
      exact (max_eq_left (by linarith)).symm
    · simp only [if_neg hle]
      rw [zero_sub]
      exact (max_eq_right (by linarith)).symm

theorem adopt_baseline (x : Cell) (b : ℚ) : (x.adopt b).baseline = b := by
  unfold Cell.adopt
  split
  next h => exact h
  next => rfl

theorem foldl_setBaseline_other {rows : List (BucketKey × ℚ)}
    (h : ∀ row ∈ rows, counterKey row.1 ≠ counterKey k) :
    (rows.foldl (fun c row => c.setBaseline row.1 row.2) c).cellAt k = c.cellAt k := by
  induction rows generalizing c with
  | nil => rfl
  | cons row rows ih =>
    rw [foldl_cons, ih fun r hr => h r (mem_cons_of_mem _ hr)]
    exact cellAt_setCell_ne (Ne.symm (h row mem_cons_self))

theorem foldl_setBaseline_row {rows : List (BucketKey × ℚ)} {row : BucketKey × ℚ}
    (honce : (rows.map fun row => counterKey row.1).Nodup) (hrow : row ∈ rows)
    (hkey : counterKey row.1 = counterKey k) :
    let c := rows.foldl (fun c row => c.setBaseline row.1 row.2) (∅ : Counter)
    c.baselineAt k = row.2 ∧ c.incrementAt k = max 0 (-row.2) := by
  intro c
  obtain ⟨before, after, rfl⟩ := append_of_mem hrow
  rw [map_append, map_cons] at honce
  -- the other rows are of other map keys
  have hother : ∀ r ∈ before ++ after, counterKey r.1 ≠ counterKey row.1 := by
    intro r hr heq
    refine (nodup_cons.mp (nodup_middle.mp honce)).1 ?_
    rw [← heq, ← map_append]
    exact mem_map_of_mem hr
  have hbefore : (before.foldl (fun c row => c.setBaseline row.1 row.2) (∅ : Counter)).cellAt row.1 =
      ⟨row.1, 0, 0⟩ := foldl_setBaseline_other fun r hr => hother r (mem_append_left _ hr)
  have hafter : ∀ c : Counter, (after.foldl (fun c row => c.setBaseline row.1 row.2) c).cellAt k =
      c.cellAt k := fun c => foldl_setBaseline_other fun r hr =>
    hkey ▸ hother r (mem_append_right _ hr)
  have hcell : c.cellAt k = Cell.adopt ⟨row.1, 0, 0⟩ row.2 := by
    rw [show c = _ from foldl_append, foldl_cons, hafter, Counter.setBaseline,
      cellAt_setCell hkey.symm, hbefore]
  unfold baselineAt incrementAt
  rw [hcell, adopt_fresh rfl rfl, adopt_baseline]
  exact ⟨rfl, rfl⟩

/-- A start takes the baselines in force over, and an increment only against a negative one. -/
theorem seedBaselines_amounts (hforce : BaselinesInForce subjects now c) (hk : Current now k) :
    (seedBaselines ∅ subjects now).baselineAt k = c.baselineAt k ∧
      (seedBaselines ∅ subjects now).incrementAt k = max 0 (-c.baselineAt k) := by
  unfold seedBaselines
  by_cases hrow : ∃ row ∈ baselineRows subjects now, counterKey row.1 = counterKey k
  · obtain ⟨row, hrow, hkey⟩ := hrow
    rw [← hforce.same k hk row hrow hkey]
    exact foldl_setBaseline_row hforce.once hrow hkey
  · have hother : ∀ row ∈ baselineRows subjects now, counterKey row.1 ≠ counterKey k :=
      fun row hmem hkey => hrow ⟨row, hmem, hkey⟩
    unfold baselineAt incrementAt
    rw [foldl_setBaseline_other hother]
    have hzero : (c.cellAt k).baseline = 0 := hforce.unreported k hk hother
    rw [hzero]
    exact ⟨rfl, by rw [neg_zero, max_self]; rfl⟩

/-! ## The main result -/

theorem startCounter_get (hforce : BaselinesInForce subjects now c) (hk : Current now k)
    (rows : List LocalUsageRow) :
    (startCounter subjects now rows).get k =
      c.baselineAt k + (startCounter subjects now rows).incrementAt k := by
  rw [get_eq]
  unfold startCounter
  rw [seedLocalIncrements_baselineAt, (seedBaselines_amounts hforce hk).1]

/-- The rows under the bucket's map key carry its increment; where there is none the baseline is not
below zero. -/
def RowsAgree (s : QuotaWorld) (k : BucketKey) : Prop :=
  (∀ r ∈ s.localUsage.rows, counterKey r.key = counterKey k →
    r.increment = s.counter.incrementAt k) ∧
  ((∀ r ∈ s.localUsage.rows, counterKey r.key ≠ counterKey k) → 0 ≤ s.counter.baselineAt k)

/-- The flush makes the table agree with the counter exactly if it was ready for it. -/
theorem rowsAgree_flush {s₀ : QuotaWorld} (hnamed : CellsNamed s₀.counter)
    (hflush : quotaStep s₀ .flush = some s) : RowsAgree s k ↔ FlushReady s₀ k := by
  cases hflush
  have hlookup := lookup_writeLocalUsage hnamed s₀.localUsage
  have hrow := row_of_flush hnamed s₀.localUsage (k := k)
  -- a row that is written is under the key of the cell it comes from
  have hown : ∀ {key : BucketKey}, counterKey key = counterKey k →
      ((key = (s₀.counter.cellAt key).key ∧ s₀.counter.incrementAt key ≠ 0) ↔
        (key = (s₀.counter.cellAt k).key ∧ s₀.counter.incrementAt k ≠ 0)) := by
    intro key hkey
    rw [(amounts_congr hkey).2]
    refine and_congr_left fun hne => ?_
    rw [cellAt_congr hkey hne]
  constructor
  · rintro ⟨hrows, hbase⟩
    refine ⟨fun r hr hkey => ?_, fun hzero hnone => hbase fun r hr hkey => ?_⟩
    · refine or_iff_not_imp_left.mpr fun hnot => hrows r ?_ hkey
      rw [mem_rows, hlookup, if_neg (mt (hown hkey).mp hnot)]
      exact mem_rows.mp hr
    · rw [mem_rows, hlookup, if_neg fun hwrite => ((hown hkey).mp hwrite).2 hzero] at hr
      exact hnone r (mem_rows.mpr hr) hkey
  · intro hready
    refine ⟨fun r hr hkey => ?_, fun hnone => hready.baseline ?_ fun r hr hkey => ?_⟩
    · rw [mem_rows, hlookup] at hr
      split at hr
      · rw [← Option.some_inj.mp hr]
        exact (amounts_congr hkey).2
      next hnot =>
        exact (hready.rows r (mem_rows.mpr hr) hkey).resolve_left (mt (hown hkey).mpr hnot)
    · by_contra hne
      obtain ⟨r, hr, hkey⟩ := hrow hne
      exact hnone r hr hkey
    · refine hnone ⟨r.key, if r.key = (s₀.counter.cellAt r.key).key ∧
        s₀.counter.incrementAt r.key ≠ 0 then s₀.counter.incrementAt r.key else r.increment⟩ ?_ hkey
      rw [mem_rows, hlookup, mem_rows.mp hr]
      split <;> rfl

/-- **A restart keeps the used amounts exactly when the last flush met no row that it would leave
differing**, for every run and every order of reading the table. -/
theorem restart_exact_iff (ops : List QuotaOp) (s₀ s : QuotaWorld) (subjects : List Subject)
    (now : UtcTime) (hrun : exec quotaStep QuotaWorld.init ops = some s₀)
    (hflush : quotaStep s₀ .flush = some s)
    (hforce : BaselinesInForce subjects now s₀.counter) :
    RestartExact subjects now s ↔ ∀ k, Current now k → FlushReady s₀ k := by
  have hnamed : CellsNamed s₀.counter :=
    exec_invariant (I := fun s => CellsNamed s.counter) (fun _ _ _ h hs => h.step hs) hrun
      cellsNamed_empty
  have hrow : ∀ k, s.counter.incrementAt k ≠ 0 →
      ∃ r ∈ s.localUsage.rows, counterKey r.key = counterKey k := by
    cases hflush
    exact fun k hne => row_of_flush hnamed s₀.localUsage hne
  simp only [← rowsAgree_flush hnamed hflush]
  replace hforce : BaselinesInForce subjects now s.counter := by
    cases hflush
    exact hforce
  constructor
  · intro hexact k hk
    refine ⟨?_, ?_⟩
    · -- read the row last
      intro r hr hkey
      have hperm : (s.localUsage.rows.erase r ++ [r]).Perm s.localUsage.rows :=
        (perm_append_singleton r _).trans (perm_cons_erase hr).symm
      have hget := hexact _ hperm k hk
      rw [startCounter_get hforce hk, get_eq] at hget
      have hlast : (startCounter subjects now (s.localUsage.rows.erase r ++ [r])).incrementAt k =
          r.increment := seedLocalIncrements_last _ r hkey
      rw [hlast] at hget
      exact add_left_cancel hget
    · intro hnone
      have hzero : s.counter.incrementAt k = 0 := by
        by_contra hne
        obtain ⟨r, hr, hkey⟩ := hrow k hne
        exact hnone r hr hkey
      have hget := hexact _ (List.Perm.refl _) k hk
      have hinc : (startCounter subjects now s.localUsage.rows).incrementAt k =
          max 0 (-s.counter.baselineAt k) := by
        refine seedLocalIncrements_agree _ (fun r hr hkey => absurd hkey (hnone r hr)) ?_
        intro _
        exact (seedBaselines_amounts hforce hk).2
      rw [startCounter_get hforce hk, get_eq, hinc, hzero] at hget
      have hmax := add_left_cancel hget
      have hle := le_max_right 0 (-s.counter.baselineAt k)
      linarith
  · intro hagree rows hperm k hk
    obtain ⟨hsame, hneg⟩ := hagree k hk
    have hinc : (startCounter subjects now rows).incrementAt k = s.counter.incrementAt k := by
      refine seedLocalIncrements_agree _ (fun r hr => hsame r (hperm.mem_iff.mp hr)) ?_
      intro hnone
      have hnone' : ∀ r ∈ s.localUsage.rows, counterKey r.key ≠ counterKey k :=
        fun r hr => hnone r (hperm.mem_iff.mpr hr)
      rw [(seedBaselines_amounts hforce hk).2]
      have hbase := hneg hnone'
      rw [max_eq_left (by linarith)]
      by_contra hne
      obtain ⟨r, hr, hkey⟩ := hrow k (fun hzero => hne hzero.symm)
      exact hnone' r hr hkey
    rw [startCounter_get hforce hk, hinc, get_eq]

/-! ## Two runs of one bucket -/

def juneThird : UtcTime := ⟨2026, 6, 3, 2026, 23⟩

def monthlyTokens : BucketKey := ⟨"seat-a", "tokens", "monthly:2026-06"⟩

def reported (used : ℚ) : List Subject := [⟨"seat-a", [⟨"tokens", "monthly", used⟩]⟩]

theorem reported_inForce (used : ℚ) (hat : c.baselineAt monthlyTokens = used)
    (hother : ∀ k, counterKey k ≠ counterKey monthlyTokens → c.baselineAt k = 0) :
    BaselinesInForce (reported used) juneThird c := by
  have hrows : baselineRows (reported used) juneThird = [(monthlyTokens, used)] := rfl
  refine ⟨by simp [baselineRows, reported], fun k _ row hrow hkey => ?_, fun k _ hnone => ?_⟩
  · rw [hrows, mem_singleton] at hrow
    subst hrow
    rw [← (amounts_congr hkey).1, hat]
  · rw [hrows] at hnone
    exact hother k fun hk => hnone (monthlyTokens, used) (mem_singleton_self _) hk.symm

def oneBucket (used baseline : ℚ) : Counter :=
  Counter.setBaseline (Counter.add ∅ monthlyTokens used) monthlyTokens baseline

theorem oneBucket_other {used baseline : ℚ} (hk : counterKey k ≠ counterKey monthlyTokens) :
    (oneBucket used baseline).baselineAt k = 0 := by
  unfold oneBucket Counter.setBaseline Counter.add baselineAt
  rw [cellAt_setCell_ne hk, cellAt_setCell_ne hk]
  rfl

theorem partly_reported_restart :
    ∃ s₀ s, exec quotaStep QuotaWorld.init
        [.add monthlyTokens 5, .setBaseline monthlyTokens 3] = some s₀ ∧
      quotaStep s₀ .flush = some s ∧ s.counter.get monthlyTokens = 5 ∧
      RestartExact (reported 3) juneThird s := by
  have hrun : exec quotaStep QuotaWorld.init
      [.add monthlyTokens 5, .setBaseline monthlyTokens 3] = some ⟨oneBucket 5 3, ∅⟩ := rfl
  have hforce : BaselinesInForce (reported 3) juneThird (oneBucket 5 3) :=
    reported_inForce 3 (by decide +kernel) (fun k => oneBucket_other)
  refine ⟨_, _, hrun, rfl, by decide +kernel,
    (restart_exact_iff _ _ _ _ _ hrun rfl hforce).mpr fun k _ => ⟨nofun, fun hzero _ => ?_⟩⟩
  have hk : counterKey k ≠ counterKey monthlyTokens := by
    intro hk
    rw [(amounts_congr hk).2] at hzero
    revert hzero
    decide +kernel
  exact (oneBucket_other hk).ge

/-- Control reports ten tokens, which cover the five written out; the row stays, and the restart
counts the five once more. -/
theorem absorbed_increment_counted_again :
    ¬ ∀ (ops : List QuotaOp) (s₀ s : QuotaWorld) (subjects : List Subject) (now : UtcTime),
      exec quotaStep QuotaWorld.init ops = some s₀ → quotaStep s₀ .flush = some s →
      BaselinesInForce subjects now s₀.counter → RestartExact subjects now s := by
  intro hall
  have hforce : BaselinesInForce (reported 10) juneThird (oneBucket 5 10) :=
    reported_inForce 10 (by decide +kernel) (fun k => oneBucket_other)
  have hused := hall [.add monthlyTokens 5, .flush, .setBaseline monthlyTokens 10] _ _ _ _ rfl rfl
    hforce _ (List.Perm.refl _) monthlyTokens ⟨"monthly", rfl⟩
  revert hused
  decide +kernel

end AikeyProxy.Quota
