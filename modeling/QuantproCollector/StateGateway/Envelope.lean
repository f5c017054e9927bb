import QuantproCollector.StateGateway.Commands

/-!
# Run envelopes

`processRunEnvelope`: one submission registers a run and lands its channel content. The run's row is
reserved as `UNKNOWN` under the envelope's key, the content is appended, and the terminal outcome is
derived from what the append answered and written where the row is still `UNKNOWN`. An envelope
whose row is settled is answered from the row.
-/

namespace QuantproCollector.StateGateway

open Async

/-! ## Schemas -/

def AUTOMATION_REGISTRY_KEYS : List String :=
  ["holding-assistant-intraday", "holding-assistant-preclose", "industry-research",
    "company-facts", "central-policy", "ai-financing-rates"]

def READ_ONLY_TASKS : List String := ["central-policy", "ai-financing-rates"]

def PRE_WRITE_BLOCKERS : List String :=
  ["PORTFOLIO_NOT_CONFIRMED", "DATA_UNAVAILABLE", "UPSTREAM_UNAVAILABLE"]

def ENVELOPE_SUMMARY_SCHEMA : Schema := boundedString 1 1200

/-- A member of the channel union. -/
def channelMember (channel : StateWriteChannel) (shape : List Schema.Field) : Schema :=
  .object true (⟨"channel", true, .oneOf [channel.name]⟩ :: shape)

def investmentChannelMember (P : Runtime) (channel : InvestmentCommandChannel) : Schema :=
  channelMember channel.channel
    [⟨"as_of", true, AS_OF_SCHEMA P⟩,
      ⟨"events", true, .array (eventCommandSchema channel true) 1 128⟩]

def marketChannelMember (P : Runtime) : Schema :=
  channelMember .MARKET
    [⟨"trading_date", true, .text isTradingDate⟩,
      ⟨"as_of", true, AS_OF_SCHEMA P⟩,
      ⟨"scheduled_slot", true, MARKET_LEDGER_SLOT_SCHEMA⟩,
      ⟨"production_ref", true, .text isProductionRef⟩,
      ⟨"records", true, .array CHECKPOINT_RECORD_SCHEMA 0 512⟩]

/-- The channel that a payload names. -/
def payloadChannel (payload : Json) : Option StateWriteChannel :=
  [.INDUSTRY, .COMPANY, .CLOSE, .MARKET].find? fun c =>
    decide ((payload.get? "channel").bind Json.str? = some c.name)

/-- The union of the channels' payloads, told apart by `channel`. -/
def CHANNEL_PAYLOAD_SCHEMA (P : Runtime) : Schema := fun payload =>
  match payloadChannel payload with
  | some .INDUSTRY => investmentChannelMember P .INDUSTRY payload
  | some .COMPANY => investmentChannelMember P .COMPANY payload
  | some .CLOSE => investmentChannelMember P .CLOSE payload
  | some .MARKET => marketChannelMember P payload
  | none => none

/-- `z.number().int().min(0).max(512)`. -/
def freshCountSchema : Schema :=
  .number fun x => x.isInteger && decide (0 ≤ x.value) && decide (x.value ≤ 512)

def SUBMIT_RUN_ENVELOPE_INPUT_SCHEMA (P : Runtime) : Schema :=
  .object true
    [⟨"task_name", true, .oneOf AUTOMATION_REGISTRY_KEYS⟩,
      ⟨"summary", true, ENVELOPE_SUMMARY_SCHEMA⟩,
      ⟨"blocked_by", false, .oneOf PRE_WRITE_BLOCKERS⟩,
      ⟨"observations", false, .object true [⟨"fresh_count", true, freshCountSchema⟩]⟩,
      ⟨"channel_payload", false, CHANNEL_PAYLOAD_SCHEMA P⟩]

/-! ## Receipts -/

inductive RunEnvelopeLedgerStatus where
  | PERSISTED
  | IDEMPOTENT_REPLAY
  | SKIPPED_HEARTBEAT
deriving DecidableEq

structure EnvelopeLedger where
  status : Option RunEnvelopeLedgerStatus
  channel : Option StateWriteChannel
  write_key : Option String
  comment_id : Option String
  url : Option String
deriving DecidableEq

inductive RunEnvelopeStatus where
  | ENVELOPE_RECORDED
  | ENVELOPE_REPLAY
deriving DecidableEq

inductive Timeliness where
  | FRESH
  | STALE
deriving DecidableEq

structure RunEnvelopeReceipt where
  status : RunEnvelopeStatus
  run_id : String
  task_name : String
  outcome : RunEnvelopeOutcome
  blocker_code : Option String
  envelope_key : String
  slot : Option String
  slot_date : Option String
  ledger : Option EnvelopeLedger
  fresh_delta_count : Option ℕ
  event_count : Option ℕ
  notification_required : Bool
  notification_semantics : String
  delivery : String
  timeliness : Timeliness
deriving DecidableEq

/-- The age of the data in milliseconds: at most 40 minutes old, at most 5 minutes ahead. -/
def computeTimeliness (P : Runtime) (asOf : Option String) (receivedAtMs : Option ℤ) :
    Timeliness :=
  match asOf with
  | none => .FRESH
  | some asOf =>
    if asOf = "" then .FRESH
    else match P.dateParse asOf, receivedAtMs with
      | some asOfMs, some receivedAtMs =>
        if receivedAtMs - asOfMs > 40 * 60 * 1000 ∨ asOfMs - receivedAtMs > 5 * 60 * 1000 then .STALE
        else .FRESH
      | _, _ => .STALE

def selectRun (taskName envelopeKey : String) : Program (Option StoredRunV3Row) :=
  Script.perform (Op.selectRun taskName envelopeKey)

def insertRun (row : StoredRunV3Row) : Program Bool :=
  Script.perform (Op.insertRun row)

def updateRun (update : RunUpdate) : Program Unit :=
  Script.perform (Op.updateRun update)

/-- `row.write_key`, where it is there and not empty. -/
def StoredRunV3Row.writeKey? (row : StoredRunV3Row) : Option String :=
  row.write_key.filter (· ≠ "")

def ledgerFromReceipt (row : StoredRunV3Row) (receipt : Option StateWriteReceipt) :
    Option EnvelopeLedger :=
  match row.writeKey? with
  | none =>
    if row.channel = none ∧ row.envelope_key.startsWith "HB:" = true then
      some ⟨some .SKIPPED_HEARTBEAT, none, none, none, none⟩
    else none
  | some writeKey =>
    let status := match receipt.map StateWriteReceipt.status with
      | some .PERSISTED => some RunEnvelopeLedgerStatus.PERSISTED
      | some .IDEMPOTENT_REPLAY => some .IDEMPOTENT_REPLAY
      | _ => none
    some ⟨status, row.channel, some writeKey, receipt.bind StateWriteReceipt.comment_id,
      receipt.bind StateWriteReceipt.comment_url⟩

def receiptFromRow (P : Runtime) (row : StoredRunV3Row) : Program RunEnvelopeReceipt := do
  let receipt ← match row.writeKey? with
    | none => pure none
    | some writeKey => selectReceipt writeKey
  return {
    status := .ENVELOPE_REPLAY
    run_id := row.run_id
    task_name := row.task_name
    outcome := row.outcome
    blocker_code := row.blocker_code
    envelope_key := row.envelope_key
    slot := none
    slot_date := none
    ledger := ledgerFromReceipt row receipt
    fresh_delta_count := row.fresh_delta_count
    event_count := row.event_count
    notification_required := decide (row.fresh_delta_count.getD 0 > 0)
    notification_semantics := "SERVER_DERIVED_FLOOR"
    delivery := "MODEL_DELIVERY_UNVERIFIED"
    timeliness := computeTimeliness P row.as_of (P.dateParse row.received_at) }

/-! ## Rows -/

structure EnvelopeInput where
  token : String
  envelope : Json
  /-- Whether `resolveOwnerContext` is configured. -/
  resolver : Bool
  collectorBuildSha : Option String
  cloudflareVersionId : Option String
  now : Option String
  requestId : Option String

def newRunId : Program String := do
  return "run_" ++ (← randomHex)

/-- A fresh row of a run. -/
def freshRow (input : EnvelopeInput) (taskName runId envelopeKey receivedAt nowIso : String)
    (outcome : RunEnvelopeOutcome) (blockerCode summary promptVersion : Option String) :
    StoredRunV3Row where
  task_name := taskName
  run_id := runId
  envelope_key := envelopeKey
  channel := none
  write_key := none
  as_of := none
  received_at := receivedAt
  slot := none
  slot_date := none
  fresh_delta_count := none
  event_count := none
  outcome := outcome
  blocker_code := blockerCode
  summary := summary
  prompt_version := promptVersion
  collector_build_sha := input.collectorBuildSha
  cloudflare_version_id := input.cloudflareVersionId
  created_at := nowIso
  updated_at := nowIso

/-- Record a rejected envelope; the row of the same rejection, where there is one. -/
def insertInvalidRunRow (input : EnvelopeInput) (taskName envelopeKey receivedAt : String)
    (blockerCode : String) (summary : Option String) : Program (Option StoredRunV3Row) := do
  let runId ← newRunId
  let nowIso ← clock
  let inserted ← insertRun
    (freshRow input taskName runId envelopeKey receivedAt nowIso .FAILED (some blockerCode) summary
      none)
  if inserted then return none else selectRun taskName envelopeKey

def insertUnknownRunRow (input : EnvelopeInput)
    (taskName runId envelopeKey receivedAt : String) (promptVersion : Option String) :
    Program Bool := do
  let nowIso ← clock
  insertRun (freshRow input taskName runId envelopeKey receivedAt nowIso .UNKNOWN none none
    promptVersion)

/-! ## Rejections -/

def invalidEnvelope (message : String) (run : RunFields) : Thrown :=
  .envelope ⟨.STATE_VALIDATION_FAILED, .VALIDATE, message, false, none⟩ run

def INVALID_BLOCKER : String := "STATE_VALIDATION_FAILED:VALIDATE"

/-- Record a rejected envelope and answer with its row, or else with the error. -/
def rejectEnvelope (P : Runtime) (input : EnvelopeInput) (taskName receivedAt message : String)
    (rejected : Json) (summary : Option String) : Program RunEnvelopeReceipt := do
  let envelopeKey := "E:INVALID:" ++ sha256HexOf P rejected
  match ← insertInvalidRunRow input taskName envelopeKey receivedAt INVALID_BLOCKER summary with
  | some row => receiptFromRow P row
  | none => throw (invalidEnvelope message
      ⟨none, some .FAILED, some envelopeKey, some INVALID_BLOCKER⟩)

/-- `value.slice(0, length)`; half of a surrogate pair is stored as the replacement character. -/
def sliceUnits (s : String) (length : ℕ) : String :=
  String.ofList (Json.ofUnits ((Utf16.units s).take length))

/-- Reject an envelope that the schema refused. -/
def rejectSchema (P : Runtime) (input : EnvelopeInput) (receivedAt : String) :
    Program RunEnvelopeReceipt :=
  let message := "run envelope does not match the submit_run_envelope schema"
  match AUTOMATION_REGISTRY_KEYS.find? fun key =>
      decide ((input.envelope.get? "task_name").bind Json.str? = some key) with
  | none => throw (invalidEnvelope message ⟨none, none, none, none⟩)
  | some taskName =>
    rejectEnvelope P input taskName receivedAt message input.envelope
      (((input.envelope.get? "summary").bind Json.str?).map fun s => sliceUnits s 1200)

/-- The rule on combined fields that a parsed envelope breaks, if any. -/
def comboViolation (envelope : Json) : Option String :=
  let blockedBy := (envelope.get? "blocked_by").isSome
  let observations := (envelope.get? "observations").isSome
  if (envelope.get? "channel_payload").isSome && (blockedBy || observations) then
    some "blocked_by/observations are mutually exclusive with channel_payload"
  else if blockedBy && observations then
    some "blocked_by is mutually exclusive with observations"
  else if observations && !READ_ONLY_TASKS.contains (textField envelope "task_name") then
    some "observations is restricted to READ_ONLY tasks (central-policy, ai-financing-rates)"
  else none

/-! ## Envelope identity -/

/-- What a submission asks for. -/
inductive Submission where
  | blocked (code : String)
  | observation (freshCount : ℕ)
  | heartbeat
  | market (payload : Json)
  | investment (channel : InvestmentCommandChannel) (payload : Json)

/-- The submission of a parsed envelope. -/
def submissionOf (envelope : Json) : Submission :=
  match (envelope.get? "blocked_by").bind Json.str?, envelope.get? "observations",
      envelope.get? "channel_payload" with
  | some code, _, _ => .blocked code
  | none, some observations, _ =>
    .observation (match observations.get? "fresh_count" with
      | some (.num x) => x.toInt.toNat
      | _ => 0)
  | none, none, none => .heartbeat
  | none, none, some payload =>
    match payloadChannel payload with
    | some .INDUSTRY => .investment .INDUSTRY payload
    | some .COMPANY => .investment .COMPANY payload
    | some .CLOSE => .investment .CLOSE payload
    | _ => .market payload

namespace Submission

def channel : Submission → Option StateWriteChannel
  | market _ => some .MARKET
  | investment channel _ => some channel.channel
  | _ => none

def payload? : Submission → Option Json
  | market payload | investment _ payload => some payload
  | _ => none

def asOf (s : Submission) : Option String :=
  s.payload?.map fun payload => textField payload "as_of"

/-- The number of the payload's records or events. -/
def eventCount : Submission → Option ℕ
  | market payload => some (checkpointRecords payload).length
  | investment _ payload => some (batchEvents payload).length
  | _ => none

def promptVersion : Submission → Option String
  | market payload => some (textField payload "production_ref")
  | _ => none

/-- The command in an investment payload. -/
def investmentCommand (payload : Json) : Json :=
  .obj [requiredField payload "as_of", requiredField payload "events"]

/-- The command in a market payload. -/
def marketCommand (payload : Json) : Json :=
  .obj [requiredField payload "trading_date", requiredField payload "as_of",
    requiredField payload "scheduled_slot", requiredField payload "production_ref",
    requiredField payload "records"]

/-- What a market envelope's digest covers. -/
def marketIdentity (payload : Json) : Json :=
  .obj [requiredField payload "trading_date", requiredField payload "scheduled_slot",
    requiredField payload "production_ref", requiredField payload "records"]

/-- The hour of a time, as ISO text. -/
def hourOf (P : Runtime) (receivedAt : String) : Except Thrown String :=
  match P.isoOfText receivedAt with
  | none => .error .raw
  | some iso => .ok (String.ofList (iso.toList.take 13))

def envelopeKey (P : Runtime) (receivedAt : String) : Submission → Except Thrown String
  | blocked code => do return "BL:" ++ code ++ ":" ++ (← hourOf P receivedAt)
  | observation n => do
    return "OB:" ++ String.ofList (Decimal.ofInt n).text ++ ":" ++ (← hourOf P receivedAt)
  | heartbeat => do return "HB:" ++ (← hourOf P receivedAt)
  | market payload => .ok ("E:MARKET:" ++ sha256HexOf P (marketIdentity payload))
  | investment channel payload => do
    let prepared ← buildInvestmentCommandBatch P channel (investmentCommand payload)
      "envelope-key-derivation"
    return "E:" ++ channel.channel.name ++ ":" ++ prepared.payloadSha256

end Submission

/-! ## Execution -/

inductive LedgerOutcome where
  | heartbeat
  | preWriteBlock (code : String)
  | observation (freshCount : ℕ)
  | executed (result : CommandAppendResult)
  | error (e : StateGatewayError) (eventCount : Option ℕ)
deriving DecidableEq

/-- An error of the execution as a gateway error. -/
def gatewayErrorOf : Thrown → StateGatewayError
  | .gateway e | .envelope e _ => e
  | _ => ⟨.STATE_OUTCOME_UNKNOWN, .WRITE,
      "run envelope execution failed with an unclassified error", true, none⟩

/-- Resolve the owner's context and append. -/
def executeAppend (input : EnvelopeInput) (eventCount : Option ℕ)
    (append : OwnerContext → Program CommandAppendResult) : Program LedgerOutcome :=
  tryCatch (do
    if !input.resolver then
      throw (.gateway ⟨.STATE_UNAVAILABLE, .READ, "LIVE universe context resolver is not configured",
        true, none⟩)
    let context ← ownerContext
    -- once the append starts, its error carries the event count
    tryCatch (LedgerOutcome.executed <$> append context)
      fun t => return .error (gatewayErrorOf t) eventCount)
    fun t => return .error (gatewayErrorOf t) none

def execute (P : Runtime) (input : EnvelopeInput) (requestId envelopeKey : String)
    (submission : Submission) : Program LedgerOutcome :=
  let commandInput (command : Json) (context : OwnerContext) : CommandInput :=
    { token := input.token, command := command, portfolioVersion := context.portfolioVersion,
      now := input.now, requestId := some requestId, envelopeKey := some envelopeKey,
      eventCount := submission.eventCount }
  match submission with
  | .blocked code => return .preWriteBlock code
  | .observation freshCount => return .observation freshCount
  | .heartbeat => return .heartbeat
  | .market payload =>
    executeAppend input submission.eventCount fun context =>
      appendMarketObservation P (commandInput (Submission.marketCommand payload) context)
        context.liveUniverseHash
  | .investment channel payload =>
    executeAppend input submission.eventCount fun context =>
      appendInvestmentCommand P channel
        (commandInput (Submission.investmentCommand payload) context)

/-! ## Terminal outcome -/

def outcomeForGatewayError (e : StateGatewayError) : RunEnvelopeOutcome :=
  if e.retryable then .UNKNOWN
  else if e.code = .STATE_CONFLICT ∨ e.code = .STATE_CHAIN_MISMATCH then .BLOCKED
  else .FAILED

/-- `code:phase` of an error. -/
def errorBlocker (e : StateGatewayError) : String :=
  e.code.name ++ ":" ++ e.phase.name

structure Terminal where
  outcome : RunEnvelopeOutcome
  freshDeltaCount : Option ℕ
  eventCount : Option ℕ
  writeKey : Option String
  commentId : Option String
  commentUrl : Option String
  ledgerStatus : Option RunEnvelopeLedgerStatus
  blockerCode : Option String
deriving DecidableEq

/-- The terminal fields of a run; `eventCount` is the submission's. -/
def terminalOf (eventCount : Option ℕ) : LedgerOutcome → Terminal
  | .preWriteBlock code =>
    ⟨.BLOCKED, some 0, some 0, none, none, none, none, some ("PRE_WRITE:" ++ code)⟩
  | .observation freshCount =>
    ⟨.SILENT, some freshCount, some 0, none, none, none, none, none⟩
  | .heartbeat =>
    ⟨.SILENT, some 0, some 0, none, none, none, some .SKIPPED_HEARTBEAT, none⟩
  | .executed result =>
    match result.status with
    | .PERSISTED =>
      ⟨.COMPLETED, some 1, eventCount, some result.write_key, some result.comment_id,
        some result.url, some .PERSISTED, none⟩
    | .IDEMPOTENT_REPLAY =>
      ⟨.SILENT, some 0, eventCount, some result.write_key, some result.comment_id,
        some result.url, some .IDEMPOTENT_REPLAY, none⟩
  | .error e executedEventCount =>
    ⟨outcomeForGatewayError e, none, executedEventCount, none, none, none, none,
      some (errorBlocker e)⟩

/-- The `UPDATE` that records a run's terminal fields. -/
def terminalUpdate (input : EnvelopeInput) (taskName runId summary updatedAt : String)
    (submission : Submission) (terminal : Terminal) : RunUpdate where
  task_name := taskName
  run_id := runId
  channel := submission.channel
  write_key := terminal.writeKey
  as_of := submission.asOf
  slot := none
  slot_date := none
  fresh_delta_count := terminal.freshDeltaCount
  event_count := terminal.eventCount
  outcome := terminal.outcome
  blocker_code := terminal.blockerCode
  summary := some summary
  collector_build_sha := input.collectorBuildSha
  cloudflare_version_id := input.cloudflareVersionId
  updated_at := updatedAt

def recordedReceipt (P : Runtime) (taskName runId envelopeKey receivedAt : String)
    (submission : Submission) (terminal : Terminal) : RunEnvelopeReceipt where
  status := .ENVELOPE_RECORDED
  run_id := runId
  task_name := taskName
  outcome := terminal.outcome
  blocker_code := terminal.blockerCode
  envelope_key := envelopeKey
  slot := none
  slot_date := none
  ledger := some ⟨terminal.ledgerStatus, submission.channel, terminal.writeKey, terminal.commentId,
    terminal.commentUrl⟩
  fresh_delta_count := terminal.freshDeltaCount
  event_count := terminal.eventCount
  notification_required := decide (terminal.freshDeltaCount.getD 0 > 0)
  notification_semantics := "SERVER_DERIVED_FLOOR"
  delivery := "MODEL_DELIVERY_UNVERIFIED"
  timeliness := computeTimeliness P submission.asOf (P.dateParse receivedAt)

/-- Derive the terminal outcome, write it where the row is still `UNKNOWN`, and answer. -/
def finishRun (P : Runtime) (input : EnvelopeInput)
    (taskName runId envelopeKey receivedAt summary : String) (submission : Submission)
    (ledgerOutcome : LedgerOutcome) : Program RunEnvelopeReceipt := do
  let terminal := terminalOf submission.eventCount ledgerOutcome
  let updatedAt ← clock
  updateRun (terminalUpdate input taskName runId summary updatedAt submission terminal)
  match ledgerOutcome with
  | .error e _ =>
    throw (.envelope e ⟨some runId, some terminal.outcome, some envelopeKey, some (errorBlocker e)⟩)
  | _ => return recordedReceipt P taskName runId envelopeKey receivedAt submission terminal

/-! ## The processor -/

def notReserved (runId envelopeKey : String) : Thrown :=
  .envelope ⟨.STATE_UNAVAILABLE, .WRITE, "run envelope row could not be reserved", true, none⟩
    ⟨some runId, none, some envelopeKey, none⟩

/-- The row that a submission goes on with: settled and to be replayed, or `UNKNOWN` with its run. -/
inductive ReservedRun where
  | replay (row : StoredRunV3Row)
  | unknown (runId : String)

/-- The replay gate and the reservation of the `UNKNOWN` row. -/
def reserveRun (input : EnvelopeInput) (taskName envelopeKey receivedAt : String)
    (promptVersion : Option String) : Program ReservedRun := do
  let existing ← selectRun taskName envelopeKey
  match existing.filter fun row => row.outcome ≠ .UNKNOWN with
  | some row => return .replay row
  | none =>
    let runId ← match existing with
      | some row => pure row.run_id
      | none => newRunId
    match ← attempt
      (insertUnknownRunRow input taskName runId envelopeKey receivedAt promptVersion) with
    | none => throw (notReserved runId envelopeKey)
    | some true => return .unknown runId
    | some false =>
      match ← selectRun taskName envelopeKey with
      | none => throw (notReserved runId envelopeKey)
      | some winner =>
        -- the loser of the insert race adopts the winner's row
        return if winner.outcome = .UNKNOWN then .unknown winner.run_id else .replay winner

/-- An accepted envelope, under its key. -/
def processSubmission (P : Runtime) (input : EnvelopeInput)
    (taskName requestId receivedAt summary : String) (submission : Submission) :
    Program RunEnvelopeReceipt := do
  let envelopeKey ← Script.halt (submission.envelopeKey P receivedAt)
  match ← reserveRun input taskName envelopeKey receivedAt submission.promptVersion with
  | .replay row => receiptFromRow P row
  | .unknown runId =>
    let ledgerOutcome ← execute P input requestId envelopeKey submission
    finishRun P input taskName runId envelopeKey receivedAt summary submission ledgerOutcome

def processRunEnvelope (P : Runtime) (input : EnvelopeInput) : Program RunEnvelopeReceipt := do
  let requestId ← givenOr input.requestId randomHex
  let receivedAt ← givenOr input.now clock
  match SUBMIT_RUN_ENVELOPE_INPUT_SCHEMA P input.envelope with
  | none => rejectSchema P input receivedAt
  | some envelope =>
    let taskName := textField envelope "task_name"
    let summary := textField envelope "summary"
    match comboViolation envelope with
    | some violation =>
      rejectEnvelope P input taskName receivedAt
        ("run envelope field combination rejected: " ++ violation) envelope (some summary)
    | none =>
      processSubmission P input taskName requestId receivedAt summary (submissionOf envelope)

end QuantproCollector.StateGateway
