import AikeyProxy.Lib.Run
import AikeyProxy.Lib.Table
import Mathlib.Data.Rat.Defs
import Mathlib.Algebra.Order.Ring.Rat

/-!
# Quota counters and their checkpoint

The used amount of a bucket has two parts: the baseline that the control plane last reported, and
what this process has added. A new baseline absorbs the part of the increment that it covers. The
increments that are not zero are written to a table of the vault every few seconds, and no row is
ever deleted. A process that starts sets the baselines in force and then every increment of the
table. Amounts are exact numbers here.
-/

namespace AikeyProxy.Quota

open Lib

/-! ## Buckets -/

structure BucketKey where
  subjectID : String
  metric : String
  periodKey : String
  deriving DecidableEq

/-- The key of the in-memory map. Two buckets may share it if a column has a `|`. -/
def counterKey (k : BucketKey) : String := k.subjectID ++ "|" ++ k.metric ++ "|" ++ k.periodKey

structure Cell where
  key : BucketKey
  baseline : ℚ
  increment : ℚ

abbrev Counter := Table String Cell

section

variable (c : Counter) (k : BucketKey)

def Counter.cellAt : Cell :=
  (AList.lookup (counterKey k) c).getD ⟨k, 0, 0⟩

def Counter.setCell (x : Cell) : Counter :=
  AList.insert (counterKey k) x c

def Counter.add (delta : ℚ) : Counter :=
  let x := c.cellAt k
  c.setCell k { x with increment := x.increment + delta }

/-- `Get`: what is used, nothing for a bucket without a cell. -/
def Counter.get : ℚ :=
  match AList.lookup (counterKey k) c with
  | none => 0
  | some x => x.baseline + x.increment

def Cell.adopt (x : Cell) (baseline : ℚ) : Cell :=
  if x.baseline = baseline then x
  else
    let oldUsed := x.baseline + x.increment
    { x with baseline, increment := if oldUsed ≤ baseline then 0 else oldUsed - baseline }

def Counter.setBaseline (baseline : ℚ) : Counter :=
  c.setCell k ((c.cellAt k).adopt baseline)

def Counter.seedIncrement (increment : ℚ) : Counter :=
  c.setCell k { c.cellAt k with increment }

end

/-! ## The table of the vault -/

structure LocalUsageRow where
  key : BucketKey
  increment : ℚ
  deriving DecidableEq

/-- `IncrementRows`: the cells that carry an increment, in some order. -/
def Counter.incrementRows (c : Counter) : List LocalUsageRow :=
  c.entries.filterMap fun e =>
    if e.2.increment ≠ 0 then some ⟨e.2.key, e.2.increment⟩ else none

abbrev LocalUsage := Table BucketKey ℚ

/-- `WriteLocalUsage`: one transaction that inserts the rows or updates those that are there. -/
def writeLocalUsage (t : LocalUsage) (rows : List LocalUsageRow) : LocalUsage :=
  assignAll t (rows.map fun r => (r.key, r.increment))

/-- `LoadLocalUsage`, in the order of the table; a query without an order may return any. -/
def LocalUsage.rows (t : LocalUsage) : List LocalUsageRow :=
  t.entries.map fun e => ⟨e.1, e.2⟩

def seedLocalIncrements (c : Counter) (rows : List LocalUsageRow) : Counter :=
  rows.foldl (fun c r => c.seedIncrement r.key r.increment) c

/-! ## Periods and baselines -/

/-- A moment in UTC, by the parts of it that a period key shows. -/
structure UtcTime where
  year : Nat
  month : Nat
  day : Nat
  isoYear : Nat
  isoWeek : Nat

def padded (width n : Nat) : String :=
  let digits := toString n
  "".pushn '0' (width - digits.length) ++ digits

def periodKey (period : String) (t : UtcTime) : String :=
  if period = "daily" then
    "daily:" ++ padded 4 t.year ++ "-" ++ padded 2 t.month ++ "-" ++ padded 2 t.day
  else if period = "weekly" then "weekly:" ++ padded 4 t.isoYear ++ "-W" ++ padded 2 t.isoWeek
  else if period = "monthly" then "monthly:" ++ padded 4 t.year ++ "-" ++ padded 2 t.month
  else period ++ ":all"

structure Baseline where
  metric : String
  period : String
  used : ℚ

/-- A subject of the quota snapshot with the baselines control reported for it. -/
structure Subject where
  subjectID : String
  baselines : List Baseline

def baselineRows (subjects : List Subject) (now : UtcTime) : List (BucketKey × ℚ) :=
  subjects.flatMap fun s =>
    s.baselines.map fun b => (⟨s.subjectID, b.metric, periodKey b.period now⟩, b.used)

def seedBaselines (c : Counter) (subjects : List Subject) (now : UtcTime) : Counter :=
  (baselineRows subjects now).foldl (fun c row => c.setBaseline row.1 row.2) c

/-- The counter of a process that starts: a fresh store, the baselines, the rows loaded. -/
def startCounter (subjects : List Subject) (now : UtcTime) (rows : List LocalUsageRow) : Counter :=
  seedLocalIncrements (seedBaselines ∅ subjects now) rows

/-! ## Runs -/

structure QuotaWorld where
  counter : Counter
  localUsage : LocalUsage

def QuotaWorld.init : QuotaWorld := ⟨∅, ∅⟩

inductive QuotaOp where
  | add (k : BucketKey) (delta : ℚ)
  | setBaseline (k : BucketKey) (baseline : ℚ)
  /-- `flushLocalUsage`; one that fails leaves the table as it is -/
  | flush
  /-- the process ends and another one starts -/
  | restart (subjects : List Subject) (now : UtcTime) (rows : List LocalUsageRow)

def quotaStep (s : QuotaWorld) : QuotaOp → Option QuotaWorld
  | .add k delta => some { s with counter := s.counter.add k delta }
  | .setBaseline k baseline => some { s with counter := s.counter.setBaseline k baseline }
  | .flush =>
    some { s with localUsage := writeLocalUsage s.localUsage s.counter.incrementRows }
  | .restart subjects now rows =>
    if rows.Perm s.localUsage.rows then some { s with counter := startCounter subjects now rows }
    else none

end AikeyProxy.Quota
