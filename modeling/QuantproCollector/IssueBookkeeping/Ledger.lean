import QuantproCollector.Lib.JsonText
import QuantproCollector.Lib.Run
import QuantproCollector.Lib.Schema
import QuantproCollector.Lib.Table
import QuantproCollector.Platform

/-!
# Issue bookkeeping

`submitIssueBookkeeping`: a command is checked, its dedupe key is reserved by an insert that ignores
a row that is there, the row is read back, and the request that takes the row for its own delivers to
GitHub and records the outcome. Each D1 statement and the GitHub request is one operation, which can
fail before or after it takes effect.

`occurred_at` of a stored row is its `updated_at`, which the table requires.
-/

namespace QuantproCollector.IssueBookkeeping

open Relational Async

/-! ## Commands -/

inductive Operation where
  | COMMENT
  | CLOSE
deriving DecidableEq

inductive IssueBookkeepingStatus where
  | PERSISTED
  | IDEMPOTENT_REPLAY
  | DELIVERY_BLOCKED
  | OUTCOME_UNKNOWN
  | REJECTED_TARGET
deriving DecidableEq

structure Command where
  source_task : String
  target_key : String
  operation : Operation
  dedupe_key : String
  body : Option String
  evidence_refs : Option (List String)
deriving DecidableEq

def AUTOMATION_REGISTRY_KEYS : List String :=
  ["holding-assistant-intraday", "holding-assistant-preclose", "industry-research", "company-facts",
    "central-policy", "ai-financing-rates"]

/-- `/^[a-z0-9_-]{1,64}$/`. -/
def isTargetKey (s : String) : Bool :=
  decide (1 ≤ s.toList.length) && decide (s.toList.length ≤ 64) &&
    s.toList.all fun c => c.isDigit || ('a' ≤ c && c ≤ 'z') || c = '_' || c = '-'

/-- `/^[A-Za-z0-9:._-]{8,128}$/`. -/
def isDedupeKey (s : String) : Bool :=
  decide (8 ≤ s.toList.length) && decide (s.toList.length ≤ 128) &&
    s.toList.all fun c => c.isDigit || isAsciiLetter c || [':', '.', '_', '-'].contains c

/-- A text of `min` to `max` UTF-16 units. -/
def boundedText (min max : ℕ) : Schema :=
  Schema.text fun s => decide (min ≤ Utf16.length s) && decide (Utf16.length s ≤ max)

def ISSUE_BOOKKEEPING_INPUT_SCHEMA : Schema :=
  Schema.object true
    [⟨"source_task", true, Schema.oneOf (AUTOMATION_REGISTRY_KEYS ++ ["production-observer"])⟩,
      ⟨"target_key", true, Schema.text isTargetKey⟩,
      ⟨"operation", true, Schema.oneOf ["COMMENT", "CLOSE"]⟩,
      ⟨"dedupe_key", true, Schema.text isDedupeKey⟩,
      ⟨"body", false, boundedText 1 8000⟩,
      ⟨"evidence_refs", false, Schema.array (boundedText 1 128) 0 16⟩]

def textOf (v : Json) (k : String) : String :=
  ((v.get? k).bind Json.str?).getD ""

/-- The parsed command, as it is typed. -/
def commandOf (v : Json) : Command where
  source_task := textOf v "source_task"
  target_key := textOf v "target_key"
  operation := if textOf v "operation" = "CLOSE" then .CLOSE else .COMMENT
  dedupe_key := textOf v "dedupe_key"
  body := (v.get? "body").bind Json.str?
  evidence_refs := match v.get? "evidence_refs" with
    | some (.arr refs) => some (refs.filterMap Json.str?)
    | _ => none

/-! ## Targets -/

structure BookkeepingTarget where
  repo : String
  issue : ℕ
deriving DecidableEq

/-- Characters of `[A-Za-z0-9_.-]`. -/
def isRepoChar (c : Char) : Bool :=
  c.isDigit || isAsciiLetter c || ['_', '.', '-'].contains c

/-- `/^[A-Za-z0-9_.-]+\/[A-Za-z0-9_.-]+$/`. -/
def isRepo (s : String) : Bool :=
  let owner := s.toList.takeWhile isRepoChar
  match s.toList.drop owner.length with
  | '/' :: name => !owner.isEmpty && !name.isEmpty && name.all isRepoChar
  | _ => false

/-- One entry of the whitelist, where it is well formed. -/
def parseTarget (key : String) (value : Json) : Option (String × BookkeepingTarget) :=
  if !isTargetKey key then none
  else
    match value.get? "repo", value.get? "issue" with
    | some (.str repo), some (.num issue) =>
      if isRepo repo && issue.isInteger && decide (1 ≤ issue.toInt) then
        some (key, ⟨repo, issue.toInt.toNat⟩)
      else none
    | _, _ => none

/-- The whitelist; `none` where it is absent or malformed. -/
def parseTargets (raw : Option String) : Option (List (String × BookkeepingTarget)) :=
  match raw with
  | none => none
  | some text =>
    if text = "" then none
    else
      match Json.parse text.toList with
      | some (.obj entries) => entries.mapM fun entry => parseTarget entry.1 entry.2
      | _ => none

/-- What `targets[key]` is: an entry of the whitelist, or what every object inherits, of which no
field that is read is defined. -/
inductive TargetEntry where
  | listed (target : BookkeepingTarget)
  | inherited
deriving DecidableEq

/-- The names matching `isTargetKey` that an object inherits. -/
def INHERITED_KEYS : List String := ["constructor", "__proto__"]

/-- The names that the object of the whitelist inherits: an entry under `__proto__` becomes its
prototype, and the fields of the entry are inherited with it. -/
def inheritedKeys (targets : List (String × BookkeepingTarget)) : List String :=
  if (targets.lookup "__proto__").isSome then INHERITED_KEYS ++ ["repo", "issue"] else INHERITED_KEYS

def lookupTarget (targets : List (String × BookkeepingTarget)) (key : String) : Option TargetEntry :=
  match targets.lookup key with
  | some target => some (.listed target)
  | none => if (inheritedKeys targets).contains key then some .inherited else none

/-- The repository of a target in a URL. -/
def TargetEntry.repo : TargetEntry → String
  | .listed target => target.repo
  | .inherited => "undefined"

def TargetEntry.issue : TargetEntry → String
  | .listed target => toString target.issue
  | .inherited => "undefined"

/-! ## Rows and receipts -/

/-- A row of `issue_bookkeeping`. -/
structure StoredRow where
  dedupe_key : String
  source_task : String
  target_key : String
  operation : Operation
  status : IssueBookkeepingStatus
  issue_comment_id : Option String
  url : Option String
  detail : Option String
  created_at : String
  updated_at : String
deriving DecidableEq

def StoredRow.occurred_at (r : StoredRow) : String := r.updated_at

structure IssueBookkeepingReceipt where
  status : IssueBookkeepingStatus
  dedupe_key : String
  source_task : String
  target_key : String
  operation : Operation
  target : Option TargetEntry
  issue_comment_id : Option String
  url : Option String
  detail : Option String
  occurred_at : String
deriving DecidableEq

def replayReceipt (row : StoredRow) : IssueBookkeepingReceipt where
  status := .IDEMPOTENT_REPLAY
  dedupe_key := row.dedupe_key
  source_task := row.source_task
  target_key := row.target_key
  operation := row.operation
  target := none
  issue_comment_id := row.issue_comment_id
  url := row.url
  detail := row.detail
  occurred_at := row.occurred_at

def rejected (command : Command) (detail occurredAt : String) : IssueBookkeepingReceipt where
  status := .REJECTED_TARGET
  dedupe_key := command.dedupe_key
  source_task := command.source_task
  target_key := command.target_key
  operation := command.operation
  target := none
  issue_comment_id := none
  url := none
  detail := some detail
  occurred_at := occurredAt

/-- The outcome of a delivery, as `updateRow` writes it. -/
structure RowUpdate where
  dedupe_key : String
  status : IssueBookkeepingStatus
  issue_comment_id : Option String
  url : Option String
  detail : Option String
  occurred_at : String
deriving DecidableEq

def RowUpdate.apply (u : RowUpdate) (r : StoredRow) : StoredRow :=
  { r with
    status := u.status
    issue_comment_id := u.issue_comment_id
    url := u.url
    detail := u.detail
    updated_at := u.occurred_at }

/-- The receipt of the request that delivers, or is blocked from it. -/
def outcomeReceipt (command : Command) (target : TargetEntry) (u : RowUpdate) :
    IssueBookkeepingReceipt where
  status := u.status
  dedupe_key := command.dedupe_key
  source_task := command.source_task
  target_key := command.target_key
  operation := command.operation
  target := some target
  issue_comment_id := u.issue_comment_id
  url := u.url
  detail := u.detail
  occurred_at := u.occurred_at

/-- The row that reserves a dedupe key. -/
def reservedRow (command : Command) (occurredAt : String) : StoredRow where
  dedupe_key := command.dedupe_key
  source_task := command.source_task
  target_key := command.target_key
  operation := command.operation
  status := .OUTCOME_UNKNOWN
  issue_comment_id := none
  url := none
  detail := none
  created_at := occurredAt
  updated_at := occurredAt

/-! ## Operations -/

/-- The dedupe table. -/
abbrev World := Table StoredRow String [fun r => some r.dedupe_key]

/-- A GitHub request. -/
structure Request where
  method : String
  url : String
  body : Json

/-- A GitHub response; `body` is `none` where it is not JSON. -/
structure Response where
  status : ℕ
  body : Option Json

def Response.ok (r : Response) : Bool :=
  decide (200 ≤ r.status) && decide (r.status ≤ 299)

/-- `deliver` also names the dedupe key, for the statements about runs. -/
inductive Op where
  | clock
  | ensureTable
  | selectRow (dedupeKey : String)
  | insertRow (row : StoredRow)
  | updateRow (u : RowUpdate)
  | deliver (dedupeKey : String) (request : Request)

abbrev Res : Op → Type
  | .clock => String
  | .ensureTable => Unit
  | .selectRow _ => Option StoredRow
  | .insertRow _ => Unit
  | .updateRow _ => Unit
  | .deliver .. => Response

structure StateGatewayError where
  code : String
  phase : String
  message : String
  retryable : Bool
  requestId : Option String
deriving DecidableEq

inductive Thrown where
  | gateway (e : StateGatewayError)
  | raw
deriving DecidableEq

abbrev Program (α : Type) := Script Thrown Op Res α

/-- Whether an operation fails, and whether it has then taken effect. -/
inductive Fault where
  | none
  | before
  | after
deriving DecidableEq

/-- What a step does not decide: the clock, whether a statement fails and whether it took effect then,
and what GitHub answers. -/
structure Choice where
  now : String
  fault : Fault
  /-- `none` where the transport fails. -/
  response : Option Response

def rowFor (w : World) (dedupeKey : String) : Option StoredRow :=
  w.find? fun r => decide (r.dedupe_key = dedupeKey)

/-- `INSERT … ON CONFLICT(dedupe_key) DO NOTHING`. -/
def insertRow (w : World) (row : StoredRow) : World :=
  w.upsert row id fun _ => rfl

def updateRow (w : World) (u : RowUpdate) : World :=
  w.modify (fun r => decide (r.dedupe_key = u.dedupe_key)) u.apply fun _ hix _ => by
    rw [List.mem_singleton.1 hix]
    rfl

/-- A statement that changes the table as `f` does. -/
def statement (f : Fault) (a : Except Thrown Unit) (w w' : World) : Except Thrown Unit × World :=
  match f with
  | .none => (a, w')
  | .before => (.error .raw, w)
  | .after => (.error .raw, w')

def perform (ch : Choice) : (op : Op) → World → Except Thrown (Res op) × World
  | .clock, w => (.ok ch.now, w)
  | .ensureTable, w => statement ch.fault (.ok ()) w w
  | .selectRow key, w => (if ch.fault = .none then .ok (rowFor w key) else .error .raw, w)
  | .insertRow row, w => statement ch.fault (.ok ()) w (insertRow w row)
  | .updateRow u, w => statement ch.fault (.ok ()) w (updateRow w u)
  | .deliver _ _, w =>
    (match ch.response with
      | some response => .ok response
      | none => .error .raw, w)

def machine : Machine Thrown Op Res World Choice := ⟨perform⟩

/-! ## Requests -/

/-- A request to the bookkeeping tool. -/
structure Input where
  command : Json
  token : Option String
  targetsRaw : Option String
  now : Option String
  requestId : Option String

def validationFailed (requestId : Option String) (message : String) : Thrown :=
  .gateway ⟨"STATE_VALIDATION_FAILED", "VALIDATE", message, false, requestId⟩

def reservationFailed (requestId : Option String) : Thrown :=
  .gateway ⟨"STATE_UNAVAILABLE", "WRITE", "bookkeeping dedupe row could not be reserved", true,
    requestId⟩

/-- The command, where it is accepted. -/
def parseCommand (input : Input) : Except Thrown Command :=
  match ISSUE_BOOKKEEPING_INPUT_SCHEMA input.command with
  | none =>
    .error (validationFailed input.requestId
      "issue bookkeeping command does not match the submit_issue_bookkeeping schema")
  | some parsed =>
    let command := commandOf parsed
    if command.operation = .COMMENT ∧ command.body.getD "" = "" then
      .error (validationFailed input.requestId "operation COMMENT requires body")
    else .ok command

def assembleBody (body : String) (evidenceRefs : Option (List String)) : String :=
  match evidenceRefs with
  | none | some [] => body
  | some refs => body ++ "\n\n" ++ String.intercalate "\n" (refs.map fun ref => "- " ++ ref)

/-- The GitHub side effect of a command. -/
def deliveryRequest (command : Command) (target : TargetEntry) : Request :=
  let issueUrl := "https://api.github.com/repos/" ++ target.repo ++ "/issues/" ++ target.issue
  match command.operation with
  | .COMMENT =>
    ⟨"POST", issueUrl ++ "/comments",
      .obj [("body", .str (assembleBody (command.body.getD "") command.evidence_refs))]⟩
  | .CLOSE => ⟨"PATCH", issueUrl, .obj [("state", .str "closed")]⟩

/-- What is recorded of a delivery; `none` where the transport failed. -/
def deliveryOutcome (dedupeKey : String) (response : Option Response) (occurredAt : String) :
    RowUpdate :=
  match response with
  | none => ⟨dedupeKey, .OUTCOME_UNKNOWN, none, none, some "transport_failed", occurredAt⟩
  | some response =>
    if response.ok then
      ⟨dedupeKey, .PERSISTED, (response.body.bind (·.get? "id")).map Json.text,
        (response.body.bind (·.get? "html_url")).bind Json.str?, none, occurredAt⟩
    else if response.status = 429 ∨ 500 ≤ response.status then
      ⟨dedupeKey, .OUTCOME_UNKNOWN, none, none, some ("github_http_" ++ toString response.status),
        occurredAt⟩
    else
      ⟨dedupeKey, .DELIVERY_BLOCKED, none, none,
        some ("github_refused_http_" ++ toString response.status), occurredAt⟩

/-- The result, or `none` where the program raises. -/
def attempt {α : Type} (s : Program α) : Program (Option α) :=
  tryCatch (some <$> s) fun _ => pure none

/-- The delivery of the request that holds the row, and its recording. -/
def deliverAndRecord (input : Input) (command : Command) (target : TargetEntry)
    (occurredAt : String) : Program IssueBookkeepingReceipt := do
  let outcome ←
    if input.token.getD "" = "" then
      pure ⟨command.dedupe_key, .DELIVERY_BLOCKED, none, none, some "token_not_configured",
        occurredAt⟩
    else do
      let response ←
        attempt (Script.perform (Op.deliver command.dedupe_key (deliveryRequest command target)))
      pure (deliveryOutcome command.dedupe_key response occurredAt)
  Script.perform (Op.updateRow outcome)
  return outcomeReceipt command target outcome

/-- From the table on. -/
def bookkeep (input : Input) (command : Command) (target : TargetEntry) (occurredAt : String) :
    Program IssueBookkeepingReceipt := do
  Script.perform Op.ensureTable
  match ← Script.perform (Op.selectRow command.dedupe_key) with
  | some existing => return replayReceipt existing
  | none =>
    Script.perform (Op.insertRow (reservedRow command occurredAt))
    match ← Script.perform (Op.selectRow command.dedupe_key) with
    | none => throw (reservationFailed input.requestId)
    | some raced =>
      if raced.occurred_at ≠ occurredAt then return replayReceipt raced
      else deliverAndRecord input command target occurredAt

def submitIssueBookkeeping (input : Input) : Program IssueBookkeepingReceipt := do
  let occurredAt ←
    match input.now with
    | some now => pure now
    | none => Script.perform Op.clock
  match parseCommand input with
  | .error e => throw e
  | .ok command =>
    match parseTargets input.targetsRaw with
    | none => return rejected command "bookkeeping targets not configured" occurredAt
    | some targets =>
      match lookupTarget targets command.target_key with
      | none => return rejected command "target_key is not whitelisted" occurredAt
      | some target => bookkeep input command target occurredAt

end QuantproCollector.IssueBookkeeping
