import QuantproCollector.Lib.JsonNumber
import QuantproCollector.Lib.Run
import QuantproCollector.Lib.Schema
import QuantproCollector.Lib.Table
import QuantproCollector.Platform

/-!
# Automation runs

`beginAutomationRun` and `endAutomationRun`: a begin looks for the row of its invocation, inserts one
where there is none, and looks again where the insert was ignored; an end looks for the row of its
run, finishes it where it is not finished, and reads it back. Each D1 statement is one operation,
which can fail before or after it takes effect.

Of the table's columns the model has those that the two functions read or write with more than `NULL`.
-/

namespace QuantproCollector.AutomationRun

open Relational Async

/-- What the ledger takes from its runtime beyond the platform. -/
structure Runtime extends Platform where
  /-- The paths and codes of a schema's first eight complaints. -/
  validationSummary : Schema → Json → String

/-! ## Inputs -/

inductive AutomationRunOutcome where
  | COMPLETED
  | SILENT
  | BLOCKED
  | FAILED
deriving DecidableEq

def AutomationRunOutcome.text : AutomationRunOutcome → String
  | .COMPLETED => "COMPLETED"
  | .SILENT => "SILENT"
  | .BLOCKED => "BLOCKED"
  | .FAILED => "FAILED"

def AUTOMATION_RUN_OUTCOMES : List AutomationRunOutcome := [.COMPLETED, .SILENT, .BLOCKED, .FAILED]

def AUTOMATION_REGISTRY_KEYS : List String :=
  ["holding-assistant-intraday", "holding-assistant-preclose", "industry-research", "company-facts",
    "central-policy", "ai-financing-rates"]

/-- A text of `min` to `max` UTF-16 units. -/
def boundedText (min max : ℕ) : Schema :=
  Schema.text fun s => decide (min ≤ Utf16.length s) && decide (Utf16.length s ≤ max)

def AUTOMATION_RUN_BEGIN_INPUT_SCHEMA : Schema :=
  Schema.object false
    [⟨"task", true, Schema.oneOf AUTOMATION_REGISTRY_KEYS⟩,
      ⟨"invocation_key", false, Schema.orNull (boundedText 1 192)⟩,
      ⟨"prompt_version", false, Schema.orNull (boundedText 1 256)⟩]

def AUTOMATION_RUN_END_INPUT_SCHEMA : Schema :=
  Schema.object false
    [⟨"run_id", true, boundedText 8 192⟩,
      ⟨"outcome", true, Schema.oneOf (AUTOMATION_RUN_OUTCOMES.map (·.text))⟩,
      ⟨"fresh_delta_count", true, Schema.number fun x =>
        x.isInteger && decide (0 ≤ x.toInt) && decide (x.toInt ≤ 10000)⟩,
      ⟨"notification_intended", true, Schema.boolean⟩,
      ⟨"reason", false, Schema.orNull (boundedText 1 1200)⟩]

structure AutomationRunBeginInput where
  task : String
  invocation_key : Option String
  prompt_version : Option String
deriving DecidableEq

instance neZero_countBound : NeZero 10001 := ⟨by decide⟩

/-- What an end records of its run; the count is at most ten thousand. -/
structure FinalPayload where
  outcome : AutomationRunOutcome
  fresh_delta_count : Fin 10001
  notification_intended : Bool
  reason : Option String
deriving DecidableEq

structure AutomationRunEndInput where
  run_id : String
  payload : FinalPayload
deriving DecidableEq

inductive ErrorCode where
  | AUTOMATION_RUN_VALIDATION_FAILED
  | AUTOMATION_RUN_NOT_FOUND
  | AUTOMATION_RUN_CONFLICT
  | AUTOMATION_RUN_UNAVAILABLE
deriving DecidableEq

structure AutomationRunLedgerError where
  code : ErrorCode
  message : String
  retryable : Bool
  requestId : Option String
deriving DecidableEq

/-- An error of the ledger, or any other. -/
inductive Thrown where
  | ledger (e : AutomationRunLedgerError)
  | raw
deriving DecidableEq

def textOf (v : Json) (k : String) : Option String := (v.get? k).bind Json.str?

def parseBegin (P : Runtime) (input : Json) : Except Thrown AutomationRunBeginInput :=
  match AUTOMATION_RUN_BEGIN_INPUT_SCHEMA input with
  | none => .error (.ledger ⟨.AUTOMATION_RUN_VALIDATION_FAILED,
      "begin_run does not match schema: " ++
        P.validationSummary AUTOMATION_RUN_BEGIN_INPUT_SCHEMA input, false, none⟩)
  | some data => .ok
      { task := (textOf data "task").getD ""
        invocation_key := textOf data "invocation_key"
        prompt_version := textOf data "prompt_version" }

def outcomeOf (text : String) : AutomationRunOutcome :=
  (AUTOMATION_RUN_OUTCOMES.find? fun o => decide (o.text = text)).getD .FAILED

def countOf : Option Json → Fin 10001
  | some (.num x) => Fin.ofNat 10001 x.toInt.toNat
  | _ => 0

def parseEnd (P : Runtime) (input : Json) : Except Thrown AutomationRunEndInput :=
  match AUTOMATION_RUN_END_INPUT_SCHEMA input with
  | none => .error (.ledger ⟨.AUTOMATION_RUN_VALIDATION_FAILED,
      "end_run does not match schema: " ++
        P.validationSummary AUTOMATION_RUN_END_INPUT_SCHEMA input, false, none⟩)
  | some data => .ok
      { run_id := (textOf data "run_id").getD ""
        payload :=
          { outcome := outcomeOf ((textOf data "outcome").getD "")
            fresh_delta_count := countOf (data.get? "fresh_delta_count")
            notification_intended := decide (data.get? "notification_intended" = some (.bool true))
            reason := textOf data "reason" } }

/-- The object that is digested. -/
def FinalPayload.json (p : FinalPayload) : Json :=
  .obj [("outcome", .str p.outcome.text), ("fresh_delta_count", .num (.ofInt p.fresh_delta_count)),
    ("notification_intended", .bool p.notification_intended),
    ("reason", match p.reason with
      | some reason => .str reason
      | none => .null)]

/-- `sha256Hex(finalPayload)`. -/
def FinalPayload.digest (P : Runtime) (p : FinalPayload) : String :=
  P.sha256Hex p.json.rebuiltText

/-! ## Rows -/

inductive SourceContract where
  | runV2
  | legacyEventV1
deriving DecidableEq

/-- A row of `automation_runs_v2`. -/
structure StoredAutomationRun where
  task_name : String
  run_id : String
  principal : Option String
  invocation_key : Option String
  started_at : Option String
  finished_at : Option String
  outcome : Option AutomationRunOutcome
  fresh_delta_count : Option ℕ
  notification_intended : Option Bool
  reason : Option String
  prompt_version : Option String
  collector_build_sha : Option String
  cloudflare_version_id : Option String
  source_contract : SourceContract
  final_payload_sha256 : Option String
  created_at : String
  updated_at : String
deriving DecidableEq

/-- The keys of the two unique indexes. -/
inductive Key where
  | primary (task run : String)
  | invocation (principal task key : String)
deriving DecidableEq

def StoredAutomationRun.primaryKey (r : StoredAutomationRun) : Option Key :=
  some (.primary r.task_name r.run_id)

/-- `automation_runs_v2_invocation`, over the rows that have both columns. -/
def StoredAutomationRun.invocation (r : StoredAutomationRun) : Option Key :=
  match r.principal, r.invocation_key with
  | some principal, some key => some (.invocation principal r.task_name key)
  | _, _ => none

def runIndexes : List (StoredAutomationRun → Option Key) :=
  [StoredAutomationRun.primaryKey, StoredAutomationRun.invocation]

abbrev World := Table StoredAutomationRun Key runIndexes

def begunRow (begin : AutomationRunBeginInput) (runId principal now : String)
    (collectorBuildSha cloudflareVersionId : Option String) : StoredAutomationRun where
  task_name := begin.task
  run_id := runId
  principal := some principal
  invocation_key := begin.invocation_key
  started_at := some now
  finished_at := none
  outcome := none
  fresh_delta_count := none
  notification_intended := none
  reason := none
  prompt_version := begin.prompt_version
  collector_build_sha := collectorBuildSha
  cloudflare_version_id := cloudflareVersionId
  source_contract := .runV2
  final_payload_sha256 := none
  created_at := now
  updated_at := now

/-- The UPDATE of an end. -/
structure Finish where
  task_name : String
  run_id : String
  now : String
  payload : FinalPayload
  final_payload_sha256 : String

def Finish.applies (f : Finish) (r : StoredAutomationRun) : Bool :=
  decide (r.task_name = f.task_name ∧ r.run_id = f.run_id ∧ r.source_contract = .runV2 ∧
    r.final_payload_sha256 = none)

def Finish.apply (f : Finish) (r : StoredAutomationRun) : StoredAutomationRun :=
  { r with
    finished_at := some f.now
    outcome := some f.payload.outcome
    fresh_delta_count := some f.payload.fresh_delta_count
    notification_intended := some f.payload.notification_intended
    reason := f.payload.reason
    final_payload_sha256 := some f.final_payload_sha256
    updated_at := f.now }

def finishRun (w : World) (f : Finish) : World :=
  w.modify f.applies f.apply fun ix hix r => by
    simp only [runIndexes, List.mem_cons, List.not_mem_nil, or_false] at hix
    rcases hix with rfl | rfl
    · rfl
    · rfl

def invocationRow (w : World) (principal task key : String) : Option StoredAutomationRun :=
  w.find? fun r => decide (r.principal = some principal ∧ r.task_name = task ∧
    r.invocation_key = some key)

def runRows (w : World) (runId : String) : List StoredAutomationRun :=
  w.rows.filter fun r => decide (r.run_id = runId ∧ r.source_contract = .runV2)

def readRun (w : World) (task runId : String) : Option StoredAutomationRun :=
  w.find? fun r => decide (r.task_name = task ∧ r.run_id = runId)

/-! ## Operations -/

inductive Op where
  | clock
  | randomUUID
  | ensureTable
  | selectInvocation (principal task key : String)
  | insertRun (row : StoredAutomationRun)
  | selectRuns (runId : String)
  | finishRun (f : Finish)
  | readRun (task runId : String)

/-- `insertRun` tells whether it inserted the row; `randomUUID` answers without the dashes. -/
abbrev Res : Op → Type
  | .clock => String
  | .randomUUID => String
  | .ensureTable => Unit
  | .selectInvocation .. => Option StoredAutomationRun
  | .insertRun _ => Bool
  | .selectRuns _ => List StoredAutomationRun
  | .finishRun _ => Unit
  | .readRun .. => Option StoredAutomationRun

abbrev Program (α : Type) := Script Thrown Op Res α

inductive Fault where
  | none
  | before
  | after
deriving DecidableEq

/-- What a step does not decide. -/
structure Choice where
  now : String
  uuid : String
  fault : Fault

/-- A statement that makes `w'` of the world. -/
def Fault.statement {α : Type} (f : Fault) (a : α) (w w' : World) : Except Thrown α × World :=
  match f with
  | .none => (.ok a, w')
  | .before => (.error .raw, w)
  | .after => (.error .raw, w')

/-- `INSERT OR IGNORE`. -/
def insertRun (w : World) (row : StoredAutomationRun) : World :=
  (w.insert? row).getD w

def perform (ch : Choice) : (op : Op) → World → Except Thrown (Res op) × World
  | .clock, w => (.ok ch.now, w)
  | .randomUUID, w => (.ok ch.uuid, w)
  | .ensureTable, w => ch.fault.statement () w w
  | .selectInvocation principal task key, w =>
    ch.fault.statement (invocationRow w principal task key) w w
  | .insertRun row, w => ch.fault.statement (w.insert? row).isSome w (insertRun w row)
  | .selectRuns runId, w => ch.fault.statement (runRows w runId) w w
  | .finishRun f, w => ch.fault.statement () w (finishRun w f)
  | .readRun task runId, w => ch.fault.statement (readRun w task runId) w w

def machine : Machine Thrown Op Res World Choice := ⟨perform⟩

/-! ## The two operations of the ledger -/

inductive AuditStatus where
  | RECORDED
  | IDEMPOTENT_REPLAY
deriving DecidableEq

structure BeginInput where
  begin : Json
  principal : String
  collectorBuildSha : Option String
  cloudflareVersionId : Option String
  now : Option String
  requestId : Option String

structure BeginResult where
  status : AuditStatus
  run_id : String
  task_name : String
deriving DecidableEq

structure EndInput where
  finish : Json
  now : Option String
  requestId : Option String

structure EndResult where
  status : AuditStatus
  run_id : String
  task_name : String
  outcome : Option AutomationRunOutcome
deriving DecidableEq

/-- A given value, or what the operation answers. -/
def givenOr (given : Option String) (s : Program String) : Program String :=
  match given with
  | some value => pure value
  | none => s

def unavailable (message requestId : String) : Thrown :=
  .ledger ⟨.AUTOMATION_RUN_UNAVAILABLE, message, true, some requestId⟩

def conflict (message requestId : String) : Thrown :=
  .ledger ⟨.AUTOMATION_RUN_CONFLICT, message, false, some requestId⟩

/-- Errors that are not the ledger's become its own. -/
def guarded {α : Type} (requestId : String) (s : Program α) : Program α :=
  tryCatch s fun t =>
    match t with
    | .ledger e => throw (.ledger e)
    | .raw => throw (unavailable "automation run audit storage is unavailable" requestId)

/-- The replay of a row that a begin found. -/
def replayBegin (row : StoredAutomationRun) : BeginResult :=
  ⟨.IDEMPOTENT_REPLAY, row.run_id, row.task_name⟩

/-- The insert of a begin that found no row. -/
def insertBegin (input : BeginInput) (begin : AutomationRunBeginInput) (requestId now : String) :
    Program BeginResult := do
  let uuid ← Script.perform Op.randomUUID
  let runId := "run_" ++ uuid
  let inserted ← Script.perform (Op.insertRun (begunRow begin runId input.principal now
    input.collectorBuildSha input.cloudflareVersionId))
  if inserted then return ⟨.RECORDED, runId, begin.task⟩
  else
    match begin.invocation_key with
    | none => throw (unavailable "begin_run insert/read failed" requestId)
    | some key =>
      match ← Script.perform (Op.selectInvocation input.principal begin.task key) with
      | some replay => return replayBegin replay
      | none => throw (unavailable "begin_run insert/read failed" requestId)

def beginRow (input : BeginInput) (begin : AutomationRunBeginInput) (requestId now : String) :
    Program BeginResult := do
  Script.perform Op.ensureTable
  match begin.invocation_key with
  | none => insertBegin input begin requestId now
  | some key =>
    match ← Script.perform (Op.selectInvocation input.principal begin.task key) with
    | some existing => return replayBegin existing
    | none => insertBegin input begin requestId now

/-- `validIso` of a text. -/
def validIso (P : Runtime) (value : String) : Bool :=
  (P.isoOfText value).isSome

def beginAutomationRun (P : Runtime) (input : BeginInput) : Program BeginResult := do
  let requestId ← givenOr input.requestId (Script.perform Op.randomUUID)
  match parseBegin P input.begin with
  | .error t => throw t
  | .ok begin =>
    let now ← givenOr input.now (Script.perform Op.clock)
    if validIso P now then guarded requestId (beginRow input begin requestId now)
    else throw (.ledger ⟨.AUTOMATION_RUN_VALIDATION_FAILED, "server run timestamp is invalid", false,
      some requestId⟩)

/-- A digest that a condition takes for present. -/
def present (sha : Option String) : Option String :=
  sha.filter fun s => decide (s ≠ "")

/-- The check of a row that is finished. -/
def endResult (status : AuditStatus) (row : StoredAutomationRun) : EndResult :=
  ⟨status, row.run_id, row.task_name, row.outcome⟩

def differentOutcome (requestId : String) : Thrown :=
  conflict "run already has a different terminal outcome" requestId

/-- From the one row of the run on. -/
def endRow (finish : AutomationRunEndInput) (finalHash requestId now : String)
    (existing : StoredAutomationRun) : Program EndResult :=
  match present existing.final_payload_sha256 with
  | some sha =>
    if sha ≠ finalHash then throw (differentOutcome requestId)
    else return endResult .IDEMPOTENT_REPLAY existing
  | none => do
    Script.perform (Op.finishRun ⟨existing.task_name, existing.run_id, now, finish.payload, finalHash⟩)
    let finished ← Script.perform (Op.readRun existing.task_name existing.run_id)
    match finished.bind fun row => (present row.final_payload_sha256).map (row, ·) with
    | none => throw (unavailable "end_run update/read failed" requestId)
    | some (row, sha) =>
      if sha ≠ finalHash then throw (differentOutcome requestId)
      else return endResult .RECORDED row

def endRows (finish : AutomationRunEndInput) (finalHash requestId now : String) :
    Program EndResult := do
  Script.perform Op.ensureTable
  match ← Script.perform (Op.selectRuns finish.run_id) with
  | [] => throw (.ledger ⟨.AUTOMATION_RUN_NOT_FOUND, "run_id was not found", false, some requestId⟩)
  | [existing] => endRow finish finalHash requestId now existing
  | _ => throw (conflict "run_id is not unique" requestId)

def endAutomationRun (P : Runtime) (input : EndInput) : Program EndResult := do
  let requestId ← givenOr input.requestId (Script.perform Op.randomUUID)
  match parseEnd P input.finish with
  | .error t => throw t
  | .ok finish =>
    let now ← givenOr input.now (Script.perform Op.clock)
    guarded requestId (endRows finish (finish.payload.digest P) requestId now)

/-- A call of the ledger. -/
inductive Request where
  | begin (input : BeginInput)
  | finish (input : EndInput)

inductive Answer where
  | begun (result : BeginResult)
  | ended (result : EndResult)
deriving DecidableEq

def Request.program (P : Runtime) : Request → Program Answer
  | .begin input => .begun <$> beginAutomationRun P input
  | .finish input => .ended <$> endAutomationRun P input

end QuantproCollector.AutomationRun
