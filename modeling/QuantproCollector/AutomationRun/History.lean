import QuantproCollector.AutomationRun.LegacyEvents
import QuantproCollector.Lib.NewestWindow
import QuantproCollector.StateGateway.Envelope

/-!
# Run history

`getAutomationRunHistory` takes of each of the two run tables the first thousand rows by one column, as a
text, and merges them by the instant of another. The answer has the newest runs where texts and instants
are in the same order (`history_newest_iff`).

Of the columns of `automation_runs_v2` the model has those that the history reads.
-/

namespace QuantproCollector.AutomationRun

open NewestWindow
open StateGateway (StoredRunV3Row RunEnvelopeOutcome Timeliness computeTimeliness isProductionRef)

/-! ## Rows -/

/-- A row of `automation_runs_v2`. -/
structure RunV2Row where
  task_name : String
  run_id : String
  scheduled_for : Option String
  started_at : Option String
  finished_at : Option String
  outcome : Option AutomationRunOutcome
  fresh_delta_count : Option ℕ
  notification_intended : Option Bool
  notification_sent_legacy : Option Bool
  reason : Option String
  prompt_version : Option String
  collector_build_sha : Option String
  cloudflare_version_id : Option String
  source_contract : SourceContract
  legacy_trace_id : Option String
  updated_at : String
deriving DecidableEq

/-- The two tables, with the keys that are unique in them. -/
structure RunTables where
  v2 : List RunV2Row
  v3 : List StoredRunV3Row
  v2_keys : (v2.map fun r => (r.task_name, r.run_id)).Nodup
  v3_keys : (v3.map fun r => (r.task_name, r.run_id)).Nodup
  v3_envelopes : (v3.map fun r => (r.task_name, r.envelope_key)).Nodup

/-- The columns of a row that its time is taken from. -/
inductive Stamp where
  | v2 (finished_at started_at : Option String) (updated_at : String)
  | v3 (received_at : String)
deriving DecidableEq

/-- A run of one table or the other. -/
inductive HistoryRun where
  | v2 (row : RunV2Row)
  | v3 (row : StoredRunV3Row)
deriving DecidableEq

def HistoryRun.stamp : HistoryRun → Stamp
  | .v2 row => .v2 row.finished_at row.started_at row.updated_at
  | .v3 row => .v3 row.received_at

def HistoryRun.task_name : HistoryRun → String
  | .v2 row => row.task_name
  | .v3 row => row.task_name

def RunTables.v2Runs (tables : RunTables) : List HistoryRun := tables.v2.map .v2

def RunTables.v3Runs (tables : RunTables) : List HistoryRun := tables.v3.map .v3

/-- The union of the tables. -/
def RunTables.runs (tables : RunTables) : List HistoryRun := tables.v2Runs ++ tables.v3Runs

def Stamp.isV2 : Stamp → Bool
  | .v2 .. => true
  | .v3 _ => false

/-! ## The two orders -/

def timeKeyMs (P : StateGateway.Runtime) (value : Option String) : ℤ :=
  match value with
  | none => 0
  | some text => if text = "" then 0 else (P.dateParse text).getD 0

/-- What the statements compare: `COALESCE(finished_at, started_at, updated_at)` and `received_at`. -/
def Stamp.column : Stamp → String
  | .v2 finished_at started_at updated_at => (finished_at.or started_at).getD updated_at
  | .v3 received_at => received_at

/-- What the merge compares. -/
def Stamp.key (P : StateGateway.Runtime) : Stamp → ℤ
  | .v2 finished_at started_at _ => timeKeyMs P (finished_at.or started_at)
  | .v3 received_at => timeKeyMs P (some received_at)

/-! ## Entries -/

def numberOrNull : Option ℕ → Json
  | some n => .num (.ofInt n)
  | none => .null

def envelopeOutcomeText : RunEnvelopeOutcome → String
  | .COMPLETED => "COMPLETED"
  | .SILENT => "SILENT"
  | .BLOCKED => "BLOCKED"
  | .FAILED => "FAILED"
  | .UNKNOWN => "UNKNOWN"

def SourceContract.text : SourceContract → String
  | .runV2 => "run-v2"
  | .legacyEventV1 => "legacy-event-v1"

def timelinessText : Timeliness → String
  | .FRESH => "FRESH"
  | .STALE => "STALE"

def receiptPromptVersion (row : StoredRunV3Row) : Option String :=
  if row.envelope_key.startsWith "E:MARKET:" then row.prompt_version.filter isProductionRef else none

def v2Entry (row : RunV2Row) : Json :=
  let legacy := row.source_contract = .legacyEventV1
  .obj [("task_name", .str row.task_name),
    ("run_id", .str row.run_id),
    ("scheduled_for", textOrNull row.scheduled_for),
    ("started_at", textOrNull row.started_at),
    ("finished_at", textOrNull row.finished_at),
    ("effective_status", .str ((row.outcome.map AutomationRunOutcome.text).getD "IN_PROGRESS")),
    ("final_recorded", .bool row.outcome.isSome),
    ("result_semantics", .str (if row.outcome = none then "RESULT_UNKNOWN" else "TERMINAL_RECORDED")),
    ("notification_sent", if legacy then boolOrNull row.notification_sent_legacy else .null),
    ("notification_intended", if legacy then .null else boolOrNull row.notification_intended),
    ("notification_semantics", .str (if legacy then "CALLER_REPORTED_SENT" else "INTENDED_ONLY")),
    ("fresh_delta_count", numberOrNull row.fresh_delta_count),
    ("fresh_delta_semantics", .str "CALLER_REPORTED"),
    ("blocker_code",
      if row.outcome = some .BLOCKED ∨ row.outcome = some .FAILED then textOrNull row.reason else .null),
    ("trace_id", if legacy then textOrNull row.legacy_trace_id else .str row.run_id),
    ("collector_build_sha", textOrNull row.collector_build_sha),
    ("cloudflare_version_id", textOrNull row.cloudflare_version_id),
    ("prompt_version", textOrNull row.prompt_version),
    ("safe_summary", textOrNull row.reason),
    ("source_contract", .str row.source_contract.text)]

def v3Entry (P : StateGateway.Runtime) (row : StoredRunV3Row) : Json :=
  let timeliness := (present row.as_of).map fun asOf =>
    computeTimeliness P (some asOf) (P.dateParse row.received_at)
  .obj [("task_name", .str row.task_name),
    ("run_id", .str row.run_id),
    ("scheduled_for", .null),
    ("started_at", .null),
    ("finished_at", .null),
    ("received_at", .str row.received_at),
    ("effective_status", .str (envelopeOutcomeText row.outcome)),
    ("final_recorded", .bool (decide (row.outcome ≠ .UNKNOWN))),
    ("result_semantics", .str (if row.outcome = .UNKNOWN then "RESULT_UNKNOWN" else "TERMINAL_RECORDED")),
    ("notification_sent", .null),
    ("notification_intended", .null),
    ("notification_required", .bool (decide (0 < row.fresh_delta_count.getD 0))),
    ("notification_semantics", .str "SERVER_DERIVED_FLOOR"),
    ("delivery", .str "MODEL_DELIVERY_UNVERIFIED"),
    ("fresh_delta_count", numberOrNull row.fresh_delta_count),
    ("fresh_delta_semantics", .str "SERVER_COUNTED"),
    ("event_count", numberOrNull row.event_count),
    ("blocker_code",
      if row.outcome = .BLOCKED ∨ row.outcome = .FAILED then textOrNull row.blocker_code else .null),
    ("trace_id", .str row.run_id),
    ("collector_build_sha", textOrNull row.collector_build_sha),
    ("cloudflare_version_id", textOrNull row.cloudflare_version_id),
    ("prompt_version", textOrNull (receiptPromptVersion row)),
    ("safe_summary", textOrNull row.summary),
    ("as_of", textOrNull row.as_of),
    ("as_of_stale", boolOrNull (timeliness.map fun t => decide (t = .STALE))),
    ("timeliness", textOrNull (timeliness.map timelinessText)),
    ("slot", .null),
    ("slot_date", .null),
    ("source_contract", .str "run-v3")]

def HistoryRun.entry (P : StateGateway.Runtime) : HistoryRun → Json
  | .v2 row => v2Entry row
  | .v3 row => v3Entry P row

/-! ## The history -/

def HISTORY_READ_CAP : ℕ := 1000

structure HistoryInput where
  taskName : Option String
  since : Option String
  limit : Option ℤ
  now : Option String
  requestId : String

structure History where
  status : String
  task_name : Option String
  since : Option String
  runs : List Json
deriving DecidableEq

/-- `value?.trim() || null`. -/
def trimmedOrNull (value : Option String) : Option String :=
  present (value.map fun text => String.ofList (Json.trimChars isSpace text.toList))

/-- The `WHERE` of a statement. -/
def clauses (taskName since : Option String) (task column : String) : Bool :=
  decide (∀ t ∈ taskName, task = t) && decide (∀ s ∈ since, s ≤ column)

/-- The rows of the answer. Each is put in its form at the end here, and before the merge there. -/
def historyRuns (P : StateGateway.Runtime) (taskName since : Option String) (limit : ℕ)
    (tables : RunTables) : List HistoryRun :=
  let v2Raw := (byDescending (fun r => (HistoryRun.v2 r).stamp.column) (tables.v2.filter fun r =>
    clauses taskName since r.task_name (HistoryRun.v2 r).stamp.column)).take HISTORY_READ_CAP
  let v3Raw := (byDescending (fun r => r.received_at) (tables.v3.filter fun r =>
    clauses taskName since r.task_name r.received_at)).take HISTORY_READ_CAP
  let merged := v2Raw.map HistoryRun.v2 ++ v3Raw.map HistoryRun.v3
  (byDescending (fun run => run.stamp.key P) merged).take limit

/-- `none` stands for a store that does not answer. -/
def getAutomationRunHistory (P : StateGateway.Runtime) (input : HistoryInput)
    (db : Option RunTables) : Except AutomationRunLedgerError History :=
  let taskName := trimmedOrNull input.taskName
  let since := trimmedOrNull input.since
  let limit := max 1 (min 100 (input.limit.getD 20))
  if since.any fun s => (P.dateParse s).isNone then
    .error ⟨.AUTOMATION_RUN_VALIDATION_FAILED, "since must be a valid ISO date-time", false,
      some input.requestId⟩
  else
    match db with
    | none => .error ⟨.AUTOMATION_RUN_UNAVAILABLE, "automation run audit storage is unavailable", true,
        some input.requestId⟩
    | some tables =>
      if (present input.now).any fun now => (P.dateParse now).isNone then
        .error ⟨.AUTOMATION_RUN_VALIDATION_FAILED, "server run timestamp is invalid", false,
          some input.requestId⟩
      else
        .ok ⟨"OK", taskName, since,
          (historyRuns P taskName since limit.toNat tables).map (HistoryRun.entry P)⟩

/-! ## The newest runs -/

/-- The instant of a run. -/
def Stamp.time (P : StateGateway.Runtime) (a : Stamp) : ℤ := timeKeyMs P (some a.column)

def Stamp.NotBefore (P : StateGateway.Runtime) (since : Option String) (a : Stamp) : Prop :=
  ∀ s ∈ since, timeKeyMs P (some s) ≤ a.time P

instance (P : StateGateway.Runtime) (since : Option String) (a : Stamp) : Decidable (a.NotBefore P since) :=
  inferInstanceAs (Decidable (∀ s ∈ since, _))

/-- The runs of the union that are asked for. -/
def askedRuns (P : StateGateway.Runtime) (taskName since : Option String) (tables : RunTables) :
    List HistoryRun :=
  tables.runs.filter fun run =>
    decide (∀ t ∈ taskName, run.task_name = t) && decide (run.stamp.NotBefore P since)

/-- The answer has the `n` newest of the runs that are asked for, newest first. -/
def NewestRuns (P : StateGateway.Runtime) (input : HistoryInput) (n : ℕ) (tables : RunTables) : Prop :=
  ∃ window : List HistoryRun,
    getAutomationRunHistory P input (some tables) =
      .ok ⟨"OK", trimmedOrNull input.taskName, trimmedOrNull input.since,
        window.map (HistoryRun.entry P)⟩ ∧
    Window (fun run => run.stamp.time P) n
      (askedRuns P (trimmedOrNull input.taskName) (trimmedOrNull input.since) tables) window

/-- A stamp that there can be, of a run that is not before `since`. -/
def Shown (P : StateGateway.Runtime) (stamps : Stamp → Prop) (since : Option String) (a : Stamp) : Prop :=
  stamps a ∧ a.NotBefore P since

/-- The columns and the keys of stamps follow their instants. -/
structure Faithful (P : StateGateway.Runtime) (stamps : Stamp → Prop) (since : Option String) :
    Prop where
  clause : ∀ a, stamps a → ∀ s ∈ since, (s ≤ a.column ↔ timeKeyMs P (some s) ≤ a.time P)
  columns : ∀ a b, Shown P stamps since a → Shown P stamps since b → a.isV2 = b.isV2 →
    a.time P < b.time P → a.column < b.column
  keys : ∀ a b, Shown P stamps since a → Shown P stamps since b → a.time P < b.time P →
    a.key P ≤ b.key P
  ties : ∀ a b, Shown P stamps since a → Shown P stamps since b → a.isV2 = true → b.isV2 = false →
    a.time P < b.time P → a.key P < b.key P

end QuantproCollector.AutomationRun
