import QuantproCollector.StateGateway.MarketLedger

/-!
# The state gateway

`appendStateBatch`: validate a batch, check what a close batch depends on, reserve the write under a
lease, append to the ledger and finalise the receipt. A receipt that is settled answers the write
again without an append; what an error leaves of the receipt is decided by the error's code.
-/

namespace QuantproCollector.StateGateway

open Async

/-! ## Errors -/

/-- The gateway's form of an error of a ledger. -/
def mapDomainError : Thrown → StateGatewayError
  | .gateway e => e
  | .envelope e _ => e
  | .market code message httpStatus =>
    match code with
    | .CHECKPOINT_CONFLICT => ⟨.STATE_CONFLICT, .VALIDATE, message, false, none⟩
    | .CHECKPOINT_CHAIN_MISMATCH => ⟨.STATE_CHAIN_MISMATCH, .VALIDATE, message, false, none⟩
    | .CHECKPOINT_VALIDATION_FAILED => ⟨.STATE_VALIDATION_FAILED, .VALIDATE, message, false, none⟩
    | .CHECKPOINT_READBACK_FAILED => ⟨.STATE_READBACK_FAILED, .READBACK, message, true, httpStatus⟩
    | .MARKET_LEDGER_UNAVAILABLE =>
      ⟨.STATE_OUTCOME_UNKNOWN, .WRITE, message,
        decide (httpStatus ≠ some 401 ∧ httpStatus ≠ some 403), httpStatus⟩
  | .investment code message httpStatus =>
    match code with
    | .INVESTMENT_LEDGER_VALIDATION_FAILED =>
      ⟨.STATE_VALIDATION_FAILED, .VALIDATE, message, false, none⟩
    | .INVESTMENT_LEDGER_EVENT_ID_CONFLICT => ⟨.STATE_CONFLICT, .VALIDATE, message, false, none⟩
    | .INVESTMENT_LEDGER_READBACK_FAILED =>
      ⟨.STATE_READBACK_FAILED, .READBACK, message, true, httpStatus⟩
    | .INVESTMENT_LEDGER_UNAVAILABLE =>
      ⟨.STATE_OUTCOME_UNKNOWN, .WRITE, message,
        decide (httpStatus ≠ some 401 ∧ httpStatus ≠ some 403), httpStatus⟩
  | .raw => ⟨.STATE_UNAVAILABLE, .WRITE, "state gateway operation failed", true, none⟩

/-- What a caller is told of an error: the gateway's own, or `STATE_UNAVAILABLE`. -/
def normalizeStateGatewayError (t : Thrown) (phase : StateGatewayPhase) (retryable : Bool) :
    StateGatewayError :=
  match t with
  | .gateway e | .envelope e _ => e
  | _ => ⟨.STATE_UNAVAILABLE, phase, "state gateway operation failed", retryable, none⟩

/-! ## Validation -/

structure ValidatedStateBatch where
  write_key : String
  payload_sha256 : String
  schema_version : String
  normalized_batch : Json
deriving DecidableEq

/-- `sha256Hex` of a value: the digest of its serialisation with sorted keys. -/
def sha256HexOf (P : Runtime) (v : Json) : String :=
  P.sha256Hex v.rebuiltText

def roleForChannel : StateWriteChannel → Option InvestmentLedgerRole
  | .INDUSTRY => some .industry
  | .COMPANY => some .company
  | .CLOSE => some .close
  | .MARKET => none

def validateMarketBatch (P : Runtime) (batch : Json) : Except Thrown ValidatedStateBatch :=
  match MARKET_CHECKPOINT_INPUT_SCHEMA batch with
  | none => .error (.refusal .STATE_VALIDATION_FAILED .VALIDATE
      ("market batch does not match exact schema: " ++
        validationSummary 10 true (P.issues "MARKET_CHECKPOINT_INPUT_SCHEMA" batch)))
  | some data =>
    match validateCheckpointRelations P data with
    | .error (.market code message httpStatus) =>
      let code := match code with
        | .CHECKPOINT_CHAIN_MISMATCH => StateGatewayErrorCode.STATE_CHAIN_MISMATCH
        | .CHECKPOINT_CONFLICT => .STATE_CONFLICT
        | _ => .STATE_VALIDATION_FAILED
      .error (.gateway ⟨code, .VALIDATE, message, false, httpStatus⟩)
    | .error t => .error t
    | .ok () =>
      if textField data "prompt_id" ≠ HOLDING_ASSISTANT ∨
          textField data "producer" ≠ HOLDING_ASSISTANT ∨
          textField data "source_task" ≠ "持仓助手" then
        .error (.refusal .STATE_VALIDATION_FAILED .VALIDATE
          "MARKET profile identity fields do not match the fixed producer contract")
      else
        .ok ⟨textField data "idempotency_key", sha256HexOf P data,
          textField data "schema_version", data⟩

def validateInvestmentBatch (P : Runtime) (role : InvestmentLedgerRole) (batch : Json) :
    Except Thrown ValidatedStateBatch :=
  match INVESTMENT_LEDGER_BATCH_INPUT_SCHEMA batch with
  | none => .error (.refusal .STATE_VALIDATION_FAILED .VALIDATE
      ("investment batch does not match exact schema: " ++
        validationSummary 10 true (P.issues "INVESTMENT_LEDGER_BATCH_INPUT_SCHEMA" batch)))
  | some data =>
    match validateRoleSemantics P role data with
    | .error (.investment code message httpStatus) =>
      let code := match code with
        | .INVESTMENT_LEDGER_EVENT_ID_CONFLICT => StateGatewayErrorCode.STATE_CONFLICT
        | _ => .STATE_VALIDATION_FAILED
      .error (.gateway ⟨code, .VALIDATE, message, false, httpStatus⟩)
    | .error t => .error t
    | .ok () =>
      .ok ⟨textField data "event_id", sha256HexOf P data, textField data "schema_version", data⟩

def validateStateBatch (P : Runtime) (channel : StateWriteChannel) (batch : Json) :
    Except Thrown ValidatedStateBatch :=
  match roleForChannel channel with
  | none => validateMarketBatch P batch
  | some role => validateInvestmentBatch P role batch

/-! ## What a close batch depends on -/

def marketRecordCanonicalSymbol (record : Json) : Option String :=
  let symbol := textField record "symbol"
  if isInstrumentKey symbol then some symbol
  else
    let raw := match record.get? "subject_key", record.get? "instrument_key" with
      | some (.str s), _ => s
      | _, some (.str s) => s
      | _, _ => ""
    let cs := raw.toList
    let digits := cs.takeWhile Char.isDigit
    let suffix := (cs.dropWhile Char.isDigit).map Char.toLower
    if raw = "" then none
    else if isInstrumentKey raw then some raw
    else if digits.length = 6 ∧ (suffix = ".sz".toList ∨ suffix = ".sh".toList) then
      some ("CN:" ++ String.ofList digits)
    else if 1 ≤ digits.length ∧ digits.length ≤ 5 ∧ suffix = ".hk".toList then
      some ("HK:" ++ String.ofList (List.replicate (5 - digits.length) '0' ++ digits))
    else none

def isTrue (v : Json) (k : String) : Bool :=
  match v.get? k with
  | some (.bool true) => true
  | _ => false

def marketRecordHasSustainedConfirmation (record : Json) : Bool :=
  (match record.get? "continuous_market_structure" with
    | some (.obj fields) => textField (.obj fields) "status" = "CONFIRMED"
    | _ => false) || isTrue record "r4_candidate"

def checkpointHasConfirmedSymbol (records : List Json) (symbol : String) : Bool :=
  records.any fun record =>
    marketRecordCanonicalSymbol record = some symbol && marketRecordHasSustainedConfirmation record

def chainMismatch (message : String) : Thrown :=
  .refusal .STATE_CHAIN_MISMATCH .VALIDATE message

def effectiveState (event : Json) : String := textField event "effective_r_state"

/-- The events that an earlier INDUSTRY R1 must back. -/
def industryDependents (batch : Json) : List Json :=
  (batchEvents batch).filter fun event => effectiveState event = "R1"

/-- The events that an earlier COMPANY R2 must back. -/
def companyDependents (batch : Json) : List Json :=
  (batchEvents batch).filter fun event =>
    effectiveState event = "R2" || effectiveState event = "R3" || effectiveState event = "R4" ||
      isTrue event "r4_candidate"

/-- The events that the market's close must confirm. -/
def marketDependents (batch : Json) : List Json :=
  (batchEvents batch).filter fun event =>
    effectiveState event = "R4" || isTrue event "r4_candidate"

/-- The latest event about each dependent's symbol proposes the state. -/
def checkProposals (events dependents : List Json) (proposal : String)
    (message : String → String) : Except Thrown Unit :=
  match dependents.find? fun event =>
      !(latestBySymbol events (textField event "symbol")).any fun latest =>
        textField latest "r_proposal" = proposal with
  | none => .ok ()
  | some event => .error (chainMismatch (message (textField event "symbol")))

/-- The market error of one dependent, if any. -/
def marketDependencyError (current : Json) (previousClose : Option Json) (event : Json) :
    Option Thrown :=
  let symbol := textField event "symbol"
  if !checkpointHasConfirmedSymbol (checkpointRecords current) symbol then
    some (chainMismatch ("R4 candidate/confirmation for " ++ symbol ++
      " requires same-day sustained MARKET confirmation"))
  else if effectiveState event ≠ "R4" then none
  else if previousClose.any fun close =>
      checkpointHasConfirmedSymbol (checkpointRecords close) symbol then none
  else some (chainMismatch ("formal R4 for " ++ symbol ++
    " requires sustained MARKET confirmation across two closes"))

def checkMarketDependents (state : MarketCheckpointState) (dependents : List Json) :
    Except Thrown Unit :=
  match state.currentSlot.map LedgerComment.payload with
  | some current =>
    if textField current "observation_type" ≠ "CLOSE" then
      .error (chainMismatch "R4 candidate/confirmation requires the same-day MARKET close checkpoint")
    else
      match dependents.findSome?
          (marketDependencyError current (state.previousClose.map LedgerComment.payload)) with
      | none => .ok ()
      | some t => .error t
  | none =>
    .error (chainMismatch "R4 candidate/confirmation requires the same-day MARKET close checkpoint")

def symbolsOf (events : List Json) : List String :=
  (events.map fun event => textField event "symbol").eraseDups

def tradingDateOf (batch : Json) : String :=
  String.ofList ((textField batch "as_of").toList.take 10)

def industryMessage (symbol : String) : String :=
  "CLOSE R1 for " ++ symbol ++ " requires an existing INDUSTRY R1"

def companyMessage (symbol : String) : String :=
  "CLOSE state for " ++ symbol ++ " requires an existing COMPANY R2"

/-- The dependents of a close batch against what the role proposed. -/
def validateProposals (P : Runtime) (token : String) (role : InvestmentLedgerRole)
    (dependents : List Json) (proposal : String) (message : String → String) : Program Unit := do
  if dependents ≠ [] then
    let events ← getInvestmentLedgerState P token role (symbolsOf dependents)
    Script.halt (checkProposals events dependents proposal message)

/-- The dependents of a close batch against the market's close of its day. -/
def validateMarketDependents (P : Runtime) (token : String) (batch : Json) : Program Unit := do
  if marketDependents batch ≠ [] then
    let state ← getMarketCheckpoints P token (tradingDateOf batch) "16:45"
    Script.halt (checkMarketDependents state (marketDependents batch))

def validateCloseDependencies (P : Runtime) (token : String) (batch : Json) : Program Unit := do
  validateProposals P token .industry (industryDependents batch) "R1" industryMessage
  validateProposals P token .company (companyDependents batch) "R2" companyMessage
  validateMarketDependents P token batch

/-! ## Receipts -/

structure Reservation where
  acquired : Bool
  receipt : StateWriteReceipt
deriving DecidableEq

def LEASE_SECONDS : ℕ := 120

def insertReceipt (writeKey : String) (channel : StateWriteChannel) (payloadSha256 now : String) :
    Program Unit :=
  Script.perform (Op.insertReceipt writeKey channel payloadSha256 now)

/-- `getStateWriteReceipt`. -/
def selectReceipt (writeKey : String) : Program (Option StateWriteReceipt) :=
  Script.perform (Op.selectReceipt writeKey)

def leaseReceipt (request : LeaseRequest) : Program Unit :=
  Script.perform (Op.leaseReceipt request)

def finalizeReceipt (request : FinalizeRequest) : Program Unit :=
  Script.perform (Op.finalizeReceipt request)

/-- A receipt that is there. -/
def storedReceipt (receipt : Option StateWriteReceipt) : Program StateWriteReceipt :=
  match receipt with
  | none => throw .raw
  | some receipt => pure receipt

def StateWriteReceipt.settled (r : StateWriteReceipt) : Bool :=
  r.status = .PERSISTED || r.status = .IDEMPOTENT_REPLAY

def reserveStateWrite (P : Runtime) (writeKey : String) (channel : StateWriteChannel)
    (payloadSha256 requestId now : String) : Program Reservation := do
  insertReceipt writeKey channel payloadSha256 now
  let receipt ← storedReceipt (← selectReceipt writeKey)
  if receipt.payload_sha256 ≠ payloadSha256 ∨ receipt.channel ≠ channel then
    return ⟨false, { receipt with status := .CONFLICT }⟩
  if receipt.settled then return ⟨false, receipt⟩
  match P.addSeconds now LEASE_SECONDS with
  | none => throw .raw
  | some leaseUntil =>
    leaseReceipt ⟨writeKey, channel, payloadSha256, requestId, leaseUntil, now⟩
    let receipt ← storedReceipt (← selectReceipt writeKey)
    return ⟨receipt.lease_owner = some requestId, receipt⟩

def finalizeStateWriteReceipt (request : FinalizeRequest) : Program StateWriteReceipt := do
  finalizeReceipt request
  storedReceipt (← selectReceipt request.writeKey)

/-! ## Appending -/

structure StateAppendResult where
  status : AppendStatus
  channel : StateWriteChannel
  write_key : String
  payload_sha256 : String
  comment_id : String
  url : String
  receipt : StateWriteReceipt
deriving DecidableEq

structure StateAppendInput where
  token : String
  channel : StateWriteChannel
  batch : Json
  now : Option String
  requestId : Option String
  writeKey : Option String
  payloadSha256 : Option String
  envelopeKey : Option String
  eventCount : Option ℕ

/-- The given value, or a drawn one. -/
def givenOr (value : Option String) (draw : Program String) : Program String :=
  match value with
  | some v => pure v
  | none => draw

/-- The append of the channel's ledger. -/
def appendLedger (P : Runtime) (token : String) (channel : StateWriteChannel) (batch : Json) :
    Program AppendResult :=
  match roleForChannel channel with
  | none => appendMarketCheckpoint P token batch
  | some role => appendInvestmentLedgerBatch P token role batch

/-- The status of the receipt of a write that failed with the code. -/
def failedStatus : StateGatewayErrorCode → StateReceiptStatus
  | .STATE_CONFLICT => .CONFLICT
  | .STATE_OUTCOME_UNKNOWN | .STATE_READBACK_FAILED => .OUTCOME_UNKNOWN
  | _ => .FAILED

def AppendStatus.receiptStatus : AppendStatus → StateReceiptStatus
  | .PERSISTED => .PERSISTED
  | .IDEMPOTENT_REPLAY => .IDEMPOTENT_REPLAY

/-- Validation, with the dependencies of a close batch. -/
def validateAppend (P : Runtime) (input : StateAppendInput) : Program ValidatedStateBatch := do
  let validated ← Script.halt (validateStateBatch P input.channel input.batch)
  if input.channel = .CLOSE then
    validateCloseDependencies P input.token validated.normalized_batch
  return validated

/-- Append and finalise, of a write that holds its lease. -/
def settle (P : Runtime) (input : StateAppendInput) (validated : ValidatedStateBatch)
    (requestId writeKey payloadSha256 : String) : Program StateAppendResult :=
  tryCatch (do
    let result ← appendLedger P input.token input.channel validated.normalized_batch
    let updatedAt ← clock
    let receipt ← finalizeStateWriteReceipt
      { writeKey := writeKey, requestId := requestId, status := result.status.receiptStatus,
        updatedAt := updatedAt, commentId := some result.comment_id,
        commentUrl := some result.url, lastErrorCode := none, lastErrorPhase := none,
        lastHttpStatus := none, envelopeKey := input.envelopeKey,
        eventCount := input.eventCount }
    return ⟨result.status, input.channel, writeKey, payloadSha256, result.comment_id, result.url,
      receipt⟩)
    fun t => do
      let mapped := mapDomainError t
      let updatedAt ← clock
      let _ ← finalizeStateWriteReceipt
        { writeKey := writeKey, requestId := requestId, status := failedStatus mapped.code,
          updatedAt := updatedAt, commentId := none, commentUrl := none,
          lastErrorCode := some mapped.code, lastErrorPhase := some mapped.phase,
          lastHttpStatus := mapped.httpStatus, envelopeKey := input.envelopeKey,
          eventCount := input.eventCount }
      throw (.gateway mapped)

/-- What follows the reservation. -/
def continueReserved (P : Runtime) (input : StateAppendInput) (validated : ValidatedStateBatch)
    (requestId writeKey payloadSha256 : String) (reservation : Reservation) :
    Program StateAppendResult :=
  if reservation.receipt.status = .CONFLICT then
    throw (.refusal .STATE_CONFLICT .RECONCILE
      "write_key already exists with different channel or payload")
  else if !reservation.acquired then
    if reservation.receipt.settled then
      return ⟨.IDEMPOTENT_REPLAY, input.channel, writeKey, payloadSha256,
        reservation.receipt.comment_id.getD "", reservation.receipt.comment_url.getD "",
        reservation.receipt⟩
    else
      throw (.gateway ⟨.STATE_UNAVAILABLE, .RECONCILE, "state write is already in progress", true,
        none⟩)
  else settle P input validated requestId writeKey payloadSha256

def appendStateBatch (P : Runtime) (input : StateAppendInput) : Program StateAppendResult := do
  let requestId ← givenOr input.requestId randomHex
  let now ← givenOr input.now clock
  let validated ← tryCatch (validateAppend P input) fun t => throw (.gateway (mapDomainError t))
  let writeKey := input.writeKey.getD validated.write_key
  let payloadSha256 := input.payloadSha256.getD validated.payload_sha256
  let reservation ← reserveStateWrite P writeKey input.channel payloadSha256 requestId now
  continueReserved P input validated requestId writeKey payloadSha256 reservation

end QuantproCollector.StateGateway
