import Mathlib.Algebra.Order.Group.Int
import Mathlib.Algebra.Ring.Int.Defs
import Mathlib.Data.List.Dedup
import QuantproCollector.Lib.Run
import QuantproCollector.Lib.Table

/-!
# The quota reconcile

`auto_reconcile_quota.py`: a run reads the subscription cycle, the stored watermark of the cycle and
the provider's meters, and writes, for every dimension, the larger of what is stored and what is
measured. Each HTTP request (a REST read, a GraphQL query, a D1 statement) is one operation, which can
fail before or after it takes effect; any failure ends the run without a further request.

Arithmetic in binary floating point is the runtime's: the rounding of a sum of microseconds, the
storage integral, and the rule for the tail are parameters.
-/

namespace QuantproCollector.QuotaReconcile

open Relational Async

/-- The start and the end of a subscription cycle. -/
structure Cycle where
  start : String
  finish : String
deriving DecidableEq

/-- What a run takes from its runtime; `none` is an exception. -/
structure Runtime where
  /-- `start <= now < end`, of the times that the texts name. -/
  within : Cycle → String → Option Bool
  /-- `round(us / 1000)`. -/
  cpuMs : ℤ → ℤ
  /-- `floor(bytes / 1e9 * 1000.0 * (elapsed_days / 30.44))`. -/
  storageUnits : ℤ → Cycle → String → Option ℤ
  /-- `ceil(max(daily * remaining_days * 3.0, used * 0.25))`, where `daily = fresh / elapsed_days`. -/
  ruleTail : ℤ → ℤ → Cycle → String → Option ℤ

/-- The dimensions, in write order. -/
def DIMENSIONS : List String :=
  ["workers.requests", "workers.cpu_ms", "d1.rows_read", "d1.rows_written", "d1.storage_gb_month",
    "kv.reads", "kv.writes", "kv.deletes", "kv.lists", "kv.storage_gb_month", "r2.class_a",
    "r2.class_b", "r2.storage_gb_month", "vectorize.queried_dims"]

/-! ## The store -/

/-- A row of `quota_period_baselines`. -/
structure BaselineRow where
  dimension_key : String
  period_key : String
  state : String
  used : ℤ
  unobserved_upper_bound : ℤ
  source : String
  source_version : String
  as_of : String
  coverage_end : String
  recorded_at : String
deriving DecidableEq

def BaselineRow.key (r : BaselineRow) : String × String := (r.dimension_key, r.period_key)

abbrev World := Table BaselineRow (String × String) [fun r => some r.key]

/-- What a run computes for a dimension. -/
structure Computed where
  dimension_key : String
  observed : ℤ
  used : ℤ
  unobserved_upper_bound : ℤ
deriving DecidableEq

/-- The row that a run writes for a dimension. -/
def baselineRow (periodKey now : String) (c : Computed) : BaselineRow where
  dimension_key := c.dimension_key
  period_key := periodKey
  state := "VERIFIED"
  used := c.used
  unobserved_upper_bound := c.unobserved_upper_bound
  source := "auto-reconcile " ++ now ++ " (official Cloudflare meters; monotonic fail-closed)"
  source_version := "auto_reconcile_quota " ++ now
  as_of := now
  coverage_end := now
  recorded_at := now

/-- `ON CONFLICT(dimension_key, period_key) DO UPDATE SET …=excluded.…`. -/
def upsertRow (w : World) (row : BaselineRow) : World :=
  w.upsert row (fun old => { row with
    dimension_key := old.dimension_key
    period_key := old.period_key }) fun _ => rfl

/-- The one statement of a run's write. -/
def upsertRows (w : World) (rows : List BaselineRow) : World :=
  rows.foldl upsertRow w

/-- `SELECT dimension_key, used, unobserved_upper_bound … WHERE period_key = ?`. -/
def watermark (w : World) (periodKey : String) : List (String × ℤ × ℤ) :=
  (w.rows.filter fun r => decide (r.period_key = periodKey)).map fun r =>
    (r.dimension_key, r.used, r.unobserved_upper_bound)

/-! ## Operations -/

/-- The datasets of the provider's GraphQL face. -/
inductive Dataset where
  | workersInvocations
  | d1Analytics
  | d1Queries
  | d1Storage
  | kvOperations
  | kvStorage
  | r2Operations
  | r2Storage
  | vectorizeQueries
deriving DecidableEq

/-- A group of a dataset: its action, and the one or two sums or maxima that the query names. -/
structure MeterRow where
  action : Option String
  first : ℤ
  second : ℤ

inductive Op where
  | clock
  | subscriptions
  | selectWatermark (periodKey : String)
  | meters (dataset : Dataset) (start now : String)
  | upsert (periodKey : String) (rows : List BaselineRow)
  | verify (periodKey : String)

/-- `subscriptions` answers the period of each entry, or none where it was no success; `meters` none
where there is no account block; `verify` counts the rows that do not hold integers. -/
abbrev Res : Op → Type
  | .clock => String
  | .subscriptions => Option (List (Option String × Option String))
  | .selectWatermark _ => List (String × ℤ × ℤ)
  | .meters .. => Option (List MeterRow)
  | .upsert .. => Unit
  | .verify _ => ℕ

/-- A condition that aborts the run, or any other exception. -/
inductive Thrown where
  | reconcile (message : String)
  | unexpected
deriving DecidableEq

abbrev Program (α : Type) := Script Thrown Op Res α

inductive Fault where
  | none
  | before
  | after
deriving DecidableEq

/-- What a step does not decide. -/
structure Choice where
  now : String
  fault : Fault
  subscriptions : Option (List (Option String × Option String))
  meters : Option (List MeterRow)
  unreadable : ℕ

def transportFailed : Thrown := .reconcile "transport failure"

/-- The answer of a request that only reads. -/
def Choice.reads {α : Type} (ch : Choice) (a : α) (w : World) : Except Thrown α × World :=
  (if ch.fault = .none then .ok a else .error transportFailed, w)

def perform (ch : Choice) : (op : Op) → World → Except Thrown (Res op) × World
  | .clock, w => (.ok ch.now, w)
  | .subscriptions, w => ch.reads ch.subscriptions w
  | .selectWatermark periodKey, w => ch.reads (watermark w periodKey) w
  | .meters .., w => ch.reads ch.meters w
  | .upsert _ rows, w =>
    match ch.fault with
    | .none => (.ok (), upsertRows w rows)
    | .before => (.error transportFailed, w)
    | .after => (.error transportFailed, upsertRows w rows)
  | .verify _, w => ch.reads ch.unreadable w

def machine : Machine Thrown Op Res World Choice := ⟨perform⟩

/-! ## Reads -/

def orRaise {α : Type} (t : Thrown) : Option α → Program α
  | some a => pure a
  | none => throw t

/-- The current subscription cycle, where the answers agree on one. -/
def read_cycle_anchor : Program Cycle := do
  let entries ← orRaise (.reconcile "subscriptions read was not successful")
    (← Script.perform Op.subscriptions)
  let windows := (entries.filterMap fun entry =>
    match entry with
    | (some start, some finish) =>
      if start.toList.contains 'T' && finish.toList.contains 'T' then some (⟨start, finish⟩ : Cycle)
      else none
    | _ => none).dedup
  match windows with
  | [] => throw (.reconcile "no subscription with a parseable current period")
  | [window] => return window
  | _ => throw (.reconcile "ambiguous subscription windows")

/-- The rows of one dataset. -/
def gql (dataset : Dataset) (start now : String) : Program (List MeterRow) := do
  orRaise (.reconcile "dataset returned no account block")
    (← Script.perform (Op.meters dataset start now))

def sumOf (f : MeterRow → ℤ) (rows : List MeterRow) : ℤ := (rows.map f).sum

/-- `max` of the rows, which raises where there are none. -/
def maxOf (f : MeterRow → ℤ) : List MeterRow → Program ℤ
  | [] => throw .unexpected
  | row :: rows => return (rows.map f).foldl max (f row)

/-- The requests of an action. -/
def actionSum (action : String) (rows : List MeterRow) : ℤ :=
  sumOf MeterRow.first (rows.filter fun r => decide (r.action = some action))

def CLASS_B_ACTIONS : List (Option String) :=
  [some "GetObject", some "HeadObject", some "HeadBucket"]

/-- Every official meter of the cycle, in admission units; the byte peaks as storage units. -/
def observe (P : Runtime) (cycle : Cycle) (now : String) : Program (List (String × ℤ)) := do
  let workers ← gql .workersInvocations cycle.start now
  let analytics ← gql .d1Analytics cycle.start now
  let queries ← gql .d1Queries cycle.start now
  let d1Bytes ← maxOf MeterRow.first (← gql .d1Storage cycle.start now)
  let kv ← gql .kvOperations cycle.start now
  let kvBytes ← maxOf MeterRow.first (← gql .kvStorage cycle.start now)
  let r2 ← gql .r2Operations cycle.start now
  let r2Bytes ← maxOf (fun r => r.first + r.second) (← gql .r2Storage cycle.start now)
  let vectorize ← gql .vectorizeQueries cycle.start now
  let d1Storage ← orRaise .unexpected (P.storageUnits d1Bytes cycle now)
  let kvStorage ← orRaise .unexpected (P.storageUnits kvBytes cycle now)
  let r2Storage ← orRaise .unexpected (P.storageUnits r2Bytes cycle now)
  return [("workers.requests", sumOf MeterRow.first workers),
    ("workers.cpu_ms", P.cpuMs (sumOf MeterRow.second workers)),
    ("d1.rows_read", max (sumOf MeterRow.first analytics) (sumOf MeterRow.first queries)),
    ("d1.rows_written", max (sumOf MeterRow.second analytics) (sumOf MeterRow.second queries)),
    ("kv.reads", actionSum "read" kv), ("kv.writes", actionSum "write" kv),
    ("kv.deletes", actionSum "delete" kv), ("kv.lists", actionSum "list" kv),
    ("r2.class_a", sumOf MeterRow.first (r2.filter fun r => !CLASS_B_ACTIONS.contains r.action)),
    ("r2.class_b", sumOf MeterRow.first (r2.filter fun r => CLASS_B_ACTIONS.contains r.action)),
    ("vectorize.queried_dims", sumOf MeterRow.first vectorize), ("d1.storage_gb_month", d1Storage),
    ("kv.storage_gb_month", kvStorage), ("r2.storage_gb_month", r2Storage)]

/-! ## The write -/

/-- A text that has a digit where the template has a `d`, and the template's characters elsewhere. -/
def matchesTemplate : List Char → List Char → Bool
  | [], [] => true
  | c :: template, a :: text =>
    (if c = 'd' then a.isDigit else decide (a = c)) && matchesTemplate template text
  | _, _ => false

/-- `ISO_INSTANT`. -/
def isInstant (s : String) : Bool :=
  ["dddd-dd-ddTdd:dd:ddZ", "dddd-dd-ddTdd:dd:dd.dZ", "dddd-dd-ddTdd:dd:dd.ddZ",
    "dddd-dd-ddTdd:dd:dd.dddZ"].any fun template => matchesTemplate template.toList s.toList

/-- `PERIOD_KEY_PATTERN`. -/
def isPeriodKey (s : String) : Bool :=
  matchesTemplate "cycle:dddd-dd-ddTdd:dd:ddZ..dddd-dd-ddTdd:dd:ddZ".toList s.toList

def Cycle.key (cycle : Cycle) : String :=
  "cycle:" ++ cycle.start ++ ".." ++ cycle.finish

/-- The watermark of a dimension, or zero where there is none. -/
def previousOf (previous : List (String × ℤ × ℤ)) (key : String) : ℤ × ℤ :=
  (previous.lookup key).getD (0, 0)

/-- What a run writes for a dimension that it measured. -/
def computeRow (P : Runtime) (cycle : Cycle) (now : String) (previous : List (String × ℤ × ℤ))
    (key : String) (fresh : ℤ) : Option Computed := do
  let used := max (previousOf previous key).1 fresh
  let ruleTail ← P.ruleTail fresh used cycle now
  return ⟨key, fresh, used, max (previousOf previous key).2 ruleTail⟩

/-- The rows of the dimensions, in write order; one that was not measured is skipped. -/
def computeRows (P : Runtime) (cycle : Cycle) (now : String) (previous : List (String × ℤ × ℤ))
    (observed : List (String × ℤ)) : List String → Option (List Computed)
  | [] => some []
  | key :: keys =>
    match observed.lookup key with
    | none => computeRows P cycle now previous observed keys
    | some fresh => do
      let row ← computeRow P cycle now previous key fresh
      let rows ← computeRows P cycle now previous observed keys
      return row :: rows

/-- The conservative rows. -/
def build_upsert (P : Runtime) (cycle : Cycle) (now : String) (previous : List (String × ℤ × ℤ))
    (observed : List (String × ℤ)) : Program (List Computed) := do
  if !isInstant now then throw (.reconcile "refusing to inline a non-ISO timestamp")
  if !isPeriodKey cycle.key then throw (.reconcile "refusing to inline a malformed period key")
  orRaise .unexpected (computeRows P cycle now previous observed DIMENSIONS)

/-- A run up to its exit or its exception. -/
def reconcile (P : Runtime) (dryRun : Bool) : Program Unit := do
  let now ← Script.perform Op.clock
  let cycle ← read_cycle_anchor
  let within ← orRaise .unexpected (P.within cycle now)
  if !within then throw (.reconcile "now is outside the subscription cycle; refusing to write")
  let previous ← Script.perform (Op.selectWatermark cycle.key)
  let observed ← observe P cycle now
  let computed ← build_upsert P cycle now previous observed
  if computed.length ≠ DIMENSIONS.length then
    throw (.reconcile "refusing to write a partial refresh")
  if !dryRun then
    Script.perform (Op.upsert cycle.key (computed.map (baselineRow cycle.key now)))
    let bad ← Script.perform (Op.verify cycle.key)
    if bad ≠ 0 then throw (.reconcile "post-write verification found non-integer watermark rows")

/-- `main`: the exit code of a run. -/
def main (P : Runtime) (hasToken dryRun : Bool) : Program ℕ :=
  if !hasToken then pure 2
  else tryCatch (do reconcile P dryRun; return 0) fun _ => pure 1

end QuantproCollector.QuotaReconcile
