import Mathlib.Data.List.ReduceOption
import Mathlib.Data.String.Basic
import QuantproCollector.AutomationRun.Ledger

/-!
# Events of legacy runs

`recordAutomationRunEvent`, as calls that come one after the other, and the backfill, which makes a
run's row of the events that the legacy table has.

Of the table's columns the model leaves out those that are `NULL` in every row of legacy events.
-/

namespace QuantproCollector.AutomationRun

/-! ## Events -/

inductive AutomationRunPhase where
  | STARTED
  | FINAL
deriving DecidableEq

def AutomationRunPhase.text : AutomationRunPhase → String
  | .STARTED => "STARTED"
  | .FINAL => "FINAL"

def AUTOMATION_RUN_STATUSES : List String :=
  ["STARTED", "COMPLETED", "SILENT", "BLOCKED", "FAILED"]

/-- `/^[A-Za-z0-9:._-]+$/`. -/
def isRunId (s : String) : Bool :=
  decide (s.toList ≠ []) && s.toList.all fun c =>
    isAsciiLetter c || c.isDigit || [':', '.', '_', '-'].contains c

def AUTOMATION_RUN_EVENT_INPUT_SCHEMA : Schema :=
  Schema.object true
    [⟨"task_name", true, boundedText 1 128⟩,
      ⟨"run_id", true, Schema.text fun s =>
        decide (8 ≤ Utf16.length s) && decide (Utf16.length s ≤ 192) && isRunId s⟩,
      ⟨"phase", true, Schema.oneOf ["STARTED", "FINAL"]⟩,
      ⟨"status", true, Schema.oneOf AUTOMATION_RUN_STATUSES⟩,
      ⟨"scheduled_for", false, Schema.orNull (boundedText 1 128)⟩,
      ⟨"occurred_at", true, boundedText 1 128⟩,
      ⟨"notification_sent", false, Schema.orNull Schema.boolean⟩,
      ⟨"fresh_delta_count", false, Schema.orNull (Schema.number fun x =>
        x.isInteger && decide (0 ≤ x.toInt) && decide (x.toInt ≤ 10000))⟩,
      ⟨"blocker_code", false, Schema.orNull (boundedText 1 128)⟩,
      ⟨"trace_id", false, Schema.orNull (boundedText 1 128)⟩,
      ⟨"prompt_version", false, Schema.orNull (boundedText 1 256)⟩,
      ⟨"safe_summary", false, Schema.orNull (boundedText 1 1200)⟩]

/-- An event; `null` and an absent value are alike. -/
structure AutomationRunEventInput where
  task_name : String
  run_id : String
  phase : AutomationRunPhase
  status : String
  scheduled_for : Option String
  occurred_at : String
  notification_sent : Option Bool
  fresh_delta_count : Option (Fin 10001)
  blocker_code : Option String
  trace_id : Option String
  prompt_version : Option String
  safe_summary : Option String
deriving DecidableEq

def boolOf : Option Json → Option Bool
  | some (.bool b) => some b
  | _ => none

/-- A number that is there. -/
def countOf? : Option Json → Option (Fin 10001)
  | some (.num x) => some (countOf (some (.num x)))
  | _ => none

def eventOf (data : Json) : AutomationRunEventInput where
  task_name := (textOf data "task_name").getD ""
  run_id := (textOf data "run_id").getD ""
  phase := if textOf data "phase" = some "STARTED" then .STARTED else .FINAL
  status := (textOf data "status").getD ""
  scheduled_for := textOf data "scheduled_for"
  occurred_at := (textOf data "occurred_at").getD ""
  notification_sent := boolOf (data.get? "notification_sent")
  fresh_delta_count := countOf? (data.get? "fresh_delta_count")
  blocker_code := textOf data "blocker_code"
  trace_id := textOf data "trace_id"
  prompt_version := textOf data "prompt_version"
  safe_summary := textOf data "safe_summary"

def validationFailed (message : String) : Thrown :=
  .ledger ⟨.AUTOMATION_RUN_VALIDATION_FAILED, message, false, none⟩

/-- What the phase asks of an event: the message of the first rule that it breaks. -/
def phaseComplaint (e : AutomationRunEventInput) : Option String :=
  match e.phase with
  | .STARTED =>
    if e.status ≠ "STARTED" then some "STARTED phase requires status=STARTED"
    else if e.notification_sent ≠ none ∨ e.fresh_delta_count ≠ none ∨ e.blocker_code ≠ none then
      some "STARTED phase cannot declare final outcome fields"
    else none
  | .FINAL =>
    if e.status = "STARTED" then some "FINAL phase requires a terminal status"
    else if e.notification_sent = none then some "FINAL phase requires notification_sent"
    else if e.fresh_delta_count = none then some "FINAL phase requires fresh_delta_count"
    else if (e.status = "BLOCKED" ∨ e.status = "FAILED") ∧ e.blocker_code = none then
      some "BLOCKED/FAILED final status requires blocker_code"
    else if e.safe_summary = none then some "FINAL phase requires safe_summary"
    else none

def parseLegacyEvent (P : Runtime) (input : Json) : Except Thrown AutomationRunEventInput :=
  match AUTOMATION_RUN_EVENT_INPUT_SCHEMA input with
  | none => .error (validationFailed ("automation run event does not match exact schema: " ++
      P.validationSummary AUTOMATION_RUN_EVENT_INPUT_SCHEMA input))
  | some data =>
    let value := eventOf data
    if !validIso P value.occurred_at || value.scheduled_for.any fun time => !validIso P time then
      .error (validationFailed "automation run timestamps must be valid ISO date-times")
    else
      match phaseComplaint value with
      | some message => .error (validationFailed message)
      | none => .ok value

def textOrNull : Option String → Json
  | some s => .str s
  | none => .null

def boolOrNull : Option Bool → Json
  | some b => .bool b
  | none => .null

def countOrNull : Option (Fin 10001) → Json
  | some n => .num (.ofInt n)
  | none => .null

/-- The object that is digested: what the caller gave, with `null` for what is absent. -/
def AutomationRunEventInput.callerPayload (e : AutomationRunEventInput) : Json :=
  .obj [("task_name", .str e.task_name), ("run_id", .str e.run_id), ("phase", .str e.phase.text),
    ("status", .str e.status), ("scheduled_for", textOrNull e.scheduled_for),
    ("occurred_at", .str e.occurred_at),
    ("notification_sent", boolOrNull e.notification_sent),
    ("fresh_delta_count", countOrNull e.fresh_delta_count),
    ("blocker_code", textOrNull e.blocker_code), ("trace_id", textOrNull e.trace_id),
    ("prompt_version", textOrNull e.prompt_version), ("safe_summary", textOrNull e.safe_summary)]

/-- `sha256Hex(callerPayload)`. -/
def AutomationRunEventInput.digest (P : Runtime) (e : AutomationRunEventInput) : String :=
  P.sha256Hex e.callerPayload.rebuiltText

/-! ## Rows -/

/-- A row of `automation_runs_v2`, with the columns that legacy events write. -/
structure LegacyRun where
  task_name : String
  run_id : String
  scheduled_for : Option String
  started_at : Option String
  finished_at : Option String
  outcome : Option String
  fresh_delta_count : Option (Fin 10001)
  notification_sent_legacy : Option Bool
  reason : Option String
  prompt_version : Option String
  collector_build_sha : Option String
  cloudflare_version_id : Option String
  source_contract : SourceContract
  legacy_trace_id : Option String
  legacy_started_sha256 : Option String
  legacy_final_sha256 : Option String
  created_at : String
  updated_at : String
deriving DecidableEq

/-- The digest column of a phase. -/
def LegacyRun.phaseHash (r : LegacyRun) : AutomationRunPhase → Option String
  | .STARTED => r.legacy_started_sha256
  | .FINAL => r.legacy_final_sha256

def LegacyRun.IsOf (r : LegacyRun) (task run : String) : Prop :=
  r.task_name = task ∧ r.run_id = run

instance (r : LegacyRun) (task run : String) : Decidable (r.IsOf task run) :=
  inferInstanceAs (Decidable (_ ∧ _))

abbrev RunTable := List LegacyRun

def readLegacyRun (table : RunTable) (task run : String) : Option LegacyRun :=
  table.find? fun r => decide (r.IsOf task run)

/-- `INSERT OR IGNORE`, and whether it inserted. -/
def insertLegacyRun (table : RunTable) (row : LegacyRun) : RunTable × Bool :=
  if (readLegacyRun table row.task_name row.run_id).isSome then (table, false)
  else (table ++ [row], true)

/-- An `UPDATE` of the rows that it applies to, and whether it changed any. -/
def updateLegacyRuns (table : RunTable) (applies : LegacyRun → Bool) (update : LegacyRun → LegacyRun) :
    RunTable × Bool :=
  (table.map fun r => if applies r then update r else r, table.any applies)

/-! ## The ledger -/

/-- An event as it arrives, with the stamps of the server. -/
structure EventArrival where
  event : Json
  collectorBuildSha : Option String
  cloudflareVersionId : Option String
  now : String
  requestId : String

structure EventResult where
  status : AuditStatus
  task_name : String
  run_id : String
  phase : AutomationRunPhase
  event_status : String
  payload_sha256 : String
deriving DecidableEq

/-- The row of a run's first event. -/
def insertedRow (a : EventArrival) (e : AutomationRunEventInput) (payloadSha256 : String) :
    LegacyRun where
  task_name := e.task_name
  run_id := e.run_id
  scheduled_for := e.scheduled_for
  started_at := if e.phase = .STARTED then some e.occurred_at else none
  finished_at := if e.phase = .FINAL then some e.occurred_at else none
  outcome := if e.phase = .FINAL then some e.status else none
  fresh_delta_count := if e.phase = .FINAL then e.fresh_delta_count else none
  notification_sent_legacy := if e.phase = .FINAL then e.notification_sent else none
  reason := if e.phase = .FINAL then e.blocker_code.or e.safe_summary else none
  prompt_version := e.prompt_version
  collector_build_sha := a.collectorBuildSha
  cloudflare_version_id := a.cloudflareVersionId
  source_contract := .legacyEventV1
  legacy_trace_id := e.trace_id
  legacy_started_sha256 := if e.phase = .STARTED then some payloadSha256 else none
  legacy_final_sha256 := if e.phase = .FINAL then some payloadSha256 else none
  created_at := a.now
  updated_at := a.now

/-- The `SET` of a started event. -/
def startedUpdate (a : EventArrival) (e : AutomationRunEventInput) (payloadSha256 : String)
    (r : LegacyRun) : LegacyRun :=
  { r with
    scheduled_for := r.scheduled_for.or e.scheduled_for
    started_at := r.started_at.or (some e.occurred_at)
    prompt_version := r.prompt_version.or e.prompt_version
    collector_build_sha := r.collector_build_sha.or a.collectorBuildSha
    cloudflare_version_id := r.cloudflare_version_id.or a.cloudflareVersionId
    legacy_trace_id := r.legacy_trace_id.or e.trace_id
    legacy_started_sha256 := some payloadSha256
    updated_at := a.now }

/-- The `SET` of a final event. -/
def finalUpdate (a : EventArrival) (e : AutomationRunEventInput) (payloadSha256 : String)
    (r : LegacyRun) : LegacyRun :=
  { r with
    scheduled_for := r.scheduled_for.or e.scheduled_for
    finished_at := some e.occurred_at
    outcome := some e.status
    fresh_delta_count := e.fresh_delta_count
    notification_sent_legacy := some (e.notification_sent.getD false)
    reason := e.blocker_code.or e.safe_summary
    prompt_version := e.prompt_version.or r.prompt_version
    collector_build_sha := a.collectorBuildSha.or r.collector_build_sha
    cloudflare_version_id := a.cloudflareVersionId.or r.cloudflare_version_id
    legacy_trace_id := e.trace_id.or r.legacy_trace_id
    legacy_final_sha256 := some payloadSha256
    updated_at := a.now }

/-- The write of an event that has no digest in its run's row yet. -/
def writeEvent (a : EventArrival) (e : AutomationRunEventInput) (payloadSha256 : String)
    (existing : Option LegacyRun) (table : RunTable) : RunTable × Bool :=
  match existing with
  | none => insertLegacyRun table (insertedRow a e payloadSha256)
  | some _ =>
    updateLegacyRuns table
      (fun r => decide (r.IsOf e.task_name e.run_id ∧ r.source_contract = .legacyEventV1 ∧
        r.phaseHash e.phase = none))
      (match e.phase with
        | .STARTED => startedUpdate a e payloadSha256
        | .FINAL => finalUpdate a e payloadSha256)

def eventResult (status : AuditStatus) (e : AutomationRunEventInput) (payloadSha256 : String) :
    EventResult :=
  ⟨status, e.task_name, e.run_id, e.phase, e.status, payloadSha256⟩

def differentPayload (requestId : String) : Thrown :=
  conflict "automation run event key already exists with different payload" requestId

def recordAutomationRunEvent (P : Runtime) (a : EventArrival) (table : RunTable) :
    Except Thrown EventResult × RunTable :=
  match parseLegacyEvent P a.event with
  | .error t => (.error t, table)
  | .ok e =>
    let payloadSha256 := e.digest P
    let existing := readLegacyRun table e.task_name e.run_id
    if existing.any fun r => decide (r.source_contract ≠ .legacyEventV1) then
      (.error (conflict "legacy run key collides with a v2 run" a.requestId), table)
    else
      match present (existing.bind (·.phaseHash e.phase)) with
      | some hash =>
        if hash ≠ payloadSha256 then (.error (differentPayload a.requestId), table)
        else (.ok (eventResult .IDEMPOTENT_REPLAY e payloadSha256), table)
      | none =>
        let written := writeEvent a e payloadSha256 existing table
        let persisted := (readLegacyRun written.1 e.task_name e.run_id).bind (·.phaseHash e.phase)
        if persisted ≠ some payloadSha256 then
          (match present persisted with
            | some _ => .error (differentPayload a.requestId)
            | none =>
              .error (unavailable "automation run event insert/read failed" a.requestId), written.1)
        else
          (.ok (eventResult (if written.2 then .RECORDED else .IDEMPOTENT_REPLAY) e payloadSha256),
            written.1)

/-- The table after events that arrive one after the other. -/
def deliver (P : Runtime) (arrivals : List EventArrival) (table : RunTable) : RunTable :=
  arrivals.foldl (fun table a => (recordAutomationRunEvent P a table).2) table

/-! ## The backfill -/

/-- A row of `automation_run_events_v1`. -/
structure LegacyEventRow where
  event : AutomationRunEventInput
  collector_build_sha : Option String
  cloudflare_version_id : Option String
  payload_sha256 : String
  created_at : String
deriving DecidableEq

/-- `MAX` of an expression over the rows of a group, without the rows where it is `NULL`. -/
def sqlMax {α : Type} [Max α] (values : List (Option α)) : Option α :=
  values.reduceOption.max?

/-- `MAX(CASE WHEN phase=... THEN ... END)`. -/
def maxOfPhase {α : Type} [Max α] (phase : AutomationRunPhase) (rows : List LegacyEventRow)
    (f : LegacyEventRow → Option α) : Option α :=
  sqlMax (rows.map fun r => if r.event.phase = phase then f r else none)

/-- The row that the backfill makes of the group of a run. -/
def backfillRow (task run : String) (rows : List LegacyEventRow) : LegacyRun where
  task_name := task
  run_id := run
  scheduled_for := sqlMax (rows.map (·.event.scheduled_for))
  started_at := maxOfPhase .STARTED rows fun r => some r.event.occurred_at
  finished_at := maxOfPhase .FINAL rows fun r => some r.event.occurred_at
  outcome := maxOfPhase .FINAL rows fun r => some r.event.status
  fresh_delta_count := maxOfPhase .FINAL rows (·.event.fresh_delta_count)
  notification_sent_legacy := maxOfPhase .FINAL rows (·.event.notification_sent)
  reason := (maxOfPhase .FINAL rows (·.event.blocker_code)).or
    (maxOfPhase .FINAL rows (·.event.safe_summary))
  prompt_version := (maxOfPhase .FINAL rows (·.event.prompt_version)).or
    (maxOfPhase .STARTED rows (·.event.prompt_version))
  collector_build_sha := (maxOfPhase .FINAL rows (·.collector_build_sha)).or
    (maxOfPhase .STARTED rows (·.collector_build_sha))
  cloudflare_version_id := (maxOfPhase .FINAL rows (·.cloudflare_version_id)).or
    (maxOfPhase .STARTED rows (·.cloudflare_version_id))
  source_contract := .legacyEventV1
  legacy_trace_id := (maxOfPhase .FINAL rows (·.event.trace_id)).or
    (maxOfPhase .STARTED rows (·.event.trace_id))
  legacy_started_sha256 := maxOfPhase .STARTED rows fun r => some r.payload_sha256
  legacy_final_sha256 := maxOfPhase .FINAL rows fun r => some r.payload_sha256
  created_at := ((rows.map (·.created_at)).min?).getD ""
  updated_at := ((rows.map (·.created_at)).max?).getD ""

/-! ## The row after an event -/

/-- The row of a run after an event of it. -/
def nextRow (a : EventArrival) (e : AutomationRunEventInput) (payloadSha256 : String) :
    Option LegacyRun → LegacyRun
  | none => insertedRow a e payloadSha256
  | some r =>
    if r.source_contract = .legacyEventV1 ∧ r.phaseHash e.phase = none then
      match e.phase with
      | .STARTED => startedUpdate a e payloadSha256 r
      | .FINAL => finalUpdate a e payloadSha256 r
    else r

theorem isOf_of_read {table : RunTable} {task run : String} {r : LegacyRun}
    (h : readLegacyRun table task run = some r) : r.IsOf task run := by
  unfold readLegacyRun at h
  have hfound := List.find?_some h
  exact of_decide_eq_true hfound

theorem readLegacyRun_insert {table : RunTable} {row : LegacyRun}
    (h : readLegacyRun table row.task_name row.run_id = none) :
    readLegacyRun (insertLegacyRun table row).1 row.task_name row.run_id = some row := by
  unfold insertLegacyRun
  rw [h, if_neg (by simp)]
  dsimp only
  rw [readLegacyRun, List.find?_append, ← readLegacyRun, h, Option.none_or, List.find?_cons_of_pos]
  exact decide_eq_true ⟨rfl, rfl⟩

theorem readLegacyRun_update {table : RunTable} {task run : String} {applies : LegacyRun → Bool}
    {update : LegacyRun → LegacyRun}
    (hkeys : ∀ r, (update r).task_name = r.task_name ∧ (update r).run_id = r.run_id) :
    readLegacyRun (updateLegacyRuns table applies update).1 task run =
      (readLegacyRun table task run).map fun r => if applies r then update r else r := by
  have hsame : ∀ r, (if applies r then update r else r).IsOf task run ↔ r.IsOf task run := by
    intro r
    split_ifs
    · rw [LegacyRun.IsOf, (hkeys r).1, (hkeys r).2, LegacyRun.IsOf]
    · exact Iff.rfl
  unfold readLegacyRun updateLegacyRuns
  dsimp only
  rw [List.find?_map]
  congr 2
  funext r
  exact decide_eq_decide.2 (hsame r)

/-- What an event makes of its run's row, whichever way the call ends. -/
theorem readLegacyRun_record {P : Runtime} {a : EventArrival} {e : AutomationRunEventInput}
    (hparse : parseLegacyEvent P a.event = .ok e) (table : RunTable) :
    readLegacyRun (recordAutomationRunEvent P a table).2 e.task_name e.run_id =
      some (nextRow a e (e.digest P) (readLegacyRun table e.task_name e.run_id)) := by
  have hwritten : readLegacyRun (writeEvent a e (e.digest P)
      (readLegacyRun table e.task_name e.run_id) table).1 e.task_name e.run_id =
        some (nextRow a e (e.digest P) (readLegacyRun table e.task_name e.run_id)) := by
    cases hrow : readLegacyRun table e.task_name e.run_id with
    | none =>
      have hinserted : readLegacyRun table (insertedRow a e (e.digest P)).task_name
          (insertedRow a e (e.digest P)).run_id = none := hrow
      exact readLegacyRun_insert hinserted
    | some r =>
      have hof := isOf_of_read hrow
      unfold writeEvent nextRow
      dsimp only
      rw [readLegacyRun_update (by cases e.phase <;> exact fun r => ⟨rfl, rfl⟩), hrow, Option.map_some]
      simp only [decide_eq_true_eq, hof, true_and]
      cases e.phase <;> rfl
  unfold recordAutomationRunEvent
  rw [hparse]
  dsimp only
  by_cases hcollides : (readLegacyRun table e.task_name e.run_id).any
      (fun r => decide (r.source_contract ≠ .legacyEventV1)) = true
  · rw [if_pos hcollides]
    cases hrow : readLegacyRun table e.task_name e.run_id with
    | none =>
      rw [hrow] at hcollides
      cases hcollides
    | some r =>
      rw [hrow, Option.any_some, decide_eq_true_eq] at hcollides
      rw [nextRow, if_neg fun h => hcollides h.1]
  · rw [if_neg hcollides]
    cases hpresent : present ((readLegacyRun table e.task_name e.run_id).bind
        (·.phaseHash e.phase)) with
    | some hash =>
      have hunchanged : readLegacyRun table e.task_name e.run_id =
          some (nextRow a e (e.digest P) (readLegacyRun table e.task_name e.run_id)) := by
        cases hrow : readLegacyRun table e.task_name e.run_id with
        | none =>
          rw [hrow] at hpresent
          cases hpresent
        | some r =>
          rw [nextRow, if_neg]
          rintro ⟨-, hnone⟩
          rw [hrow, Option.bind_some, hnone] at hpresent
          cases hpresent
      dsimp only
      split_ifs
      · exact hunchanged
      · exact hunchanged
    | none =>
      dsimp only
      split_ifs
      · exact hwritten
      · exact hwritten
      · exact hwritten

end QuantproCollector.AutomationRun
