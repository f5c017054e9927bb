import QuantproCollector.StateGateway.Gateway

/-!
# Owned commands

The narrow write surface of the gateway: a caller submits events or an observation, and the server
builds the ledger batch around it. An investment command is named by the digest of its channel and
events alone; a market observation by its trading day and slot.
-/

namespace QuantproCollector.StateGateway

open Async

/-! ## Schemas -/

/-- A text of 1 to 128 units that reads as a date. -/
def AS_OF_SCHEMA (P : Runtime) : Schema :=
  .text fun s => decide (1 ≤ Utf16.length s) && decide (Utf16.length s ≤ 128) &&
    (P.dateParse s).isSome

def RUN_ID_SCHEMA : Schema := boundedString 1 192

def COMPANY_EVENT_SHAPE : List Schema.Field :=
  COMMON_EVENT_SHAPE ++
    [⟨"company_thesis", false, OPTIONAL_TEXT⟩,
      ⟨"company_validation", false, OPTIONAL_TEXT⟩,
      ⟨"r_proposal", false, .orNull (.oneOf ["R2"])⟩]

def INDUSTRY_EVENT_SHAPE : List Schema.Field :=
  COMMON_EVENT_SHAPE ++
    [⟨"research_priority", false, .orNull (.oneOf ["P0", "P1", "P2"])⟩,
      ⟨"industry_thesis", false, OPTIONAL_TEXT⟩,
      ⟨"r_proposal", false, .orNull (.oneOf ["R0", "R1"])⟩]

def CLOSE_EVENT_SHAPE : List Schema.Field :=
  COMMON_EVENT_SHAPE ++
    [⟨"effective_r_state", false, .orNull (.oneOf ["R0", "R1", "R2", "R3", "R4"])⟩,
      ⟨"market_confirmation", false, OPTIONAL_TEXT⟩,
      ⟨"r4_candidate", false, .orNull .boolean⟩,
      ⟨"close_thesis_view", false, OPTIONAL_TEXT⟩]

/-- The channels of investment commands. -/
inductive InvestmentCommandChannel where
  | INDUSTRY
  | COMPANY
  | CLOSE
deriving DecidableEq

namespace InvestmentCommandChannel

def channel : InvestmentCommandChannel → StateWriteChannel
  | INDUSTRY => .INDUSTRY
  | COMPANY => .COMPANY
  | CLOSE => .CLOSE

def role : InvestmentCommandChannel → InvestmentLedgerRole
  | INDUSTRY => .industry
  | COMPANY => .company
  | CLOSE => .close

@[simp] theorem roleForChannel_channel (c : InvestmentCommandChannel) :
    roleForChannel c.channel = some c.role := by
  cases c <;> rfl

/-- `PRODUCER_BY_CHANNEL`. -/
def producer : InvestmentCommandChannel → String
  | INDUSTRY => "industry_trend"
  | COMPANY => "company_validation"
  | CLOSE => "close_review"

/-- The command names the producer that the ledger's role expects. -/
theorem producer_role (c : InvestmentCommandChannel) : c.role.producer = c.producer := by
  cases c <;> rfl

def eventShape : InvestmentCommandChannel → List Schema.Field
  | INDUSTRY => INDUSTRY_EVENT_SHAPE
  | COMPANY => COMPANY_EVENT_SHAPE
  | CLOSE => CLOSE_EVENT_SHAPE

end InvestmentCommandChannel

/-- The events of a channel; a strict schema refuses unknown keys, the other drops them. -/
def eventCommandSchema (channel : InvestmentCommandChannel) (strict : Bool) : Schema :=
  .object strict channel.eventShape

def investmentCommandSchema (P : Runtime) (eventSchema : Schema) : Schema :=
  .object false
    [⟨"as_of", true, AS_OF_SCHEMA P⟩,
      ⟨"events", true, .array eventSchema 1 128⟩,
      ⟨"run_id", false, RUN_ID_SCHEMA⟩]

def schemaForChannel (P : Runtime) (channel : InvestmentCommandChannel) : Schema :=
  investmentCommandSchema P (eventCommandSchema channel false)

def MARKET_OBSERVATION_COMMAND_SCHEMA (P : Runtime) : Schema :=
  .object false
    [⟨"trading_date", true, .text isTradingDate⟩,
      ⟨"as_of", true, AS_OF_SCHEMA P⟩,
      ⟨"scheduled_slot", true, MARKET_LEDGER_SLOT_SCHEMA⟩,
      ⟨"production_ref", true, .text isProductionRef⟩,
      ⟨"records", true, .array CHECKPOINT_RECORD_SCHEMA 0 512⟩,
      ⟨"run_id", false, RUN_ID_SCHEMA⟩]

/-- Parse a command, or refuse it with the issues of the named schema. -/
def parseCommand (P : Runtime) (schema : Schema) (schemaName : String) (value : Json)
    (label : String) : Except Thrown Json :=
  match schema value with
  | some parsed => .ok parsed
  | none => .error (.refusal .STATE_VALIDATION_FAILED .VALIDATE
      (label ++ " does not match the owned command schema: " ++
        validationSummary 8 false (P.issues schemaName value)))

/-! ## Events -/

/-- The texts of an array field. -/
def textsOf (v : Json) (k : String) : List String :=
  match v.get? k with
  | some (.arr xs) => xs.filterMap Json.str?
  | _ => []

def normalizeEvidenceTypes (values : List String) : List String :=
  EVIDENCE_TYPES.filter values.contains

def normalizeEvidenceKeys (values : List String) : List String :=
  values.eraseDups.insertionSort fun a b => Json.keyLe a b = true

/-- A required field of a parsed value. -/
def requiredField (v : Json) (k : String) : String × Json :=
  (k, (v.get? k).getD .null)

/-- An optional field of a parsed value, where it is there. -/
def optionalField (v : Json) (k : String) : List (String × Json) :=
  match v.get? k with
  | none => []
  | some x => [(k, x)]

def commonEvent (event : Json) : List (String × Json) :=
  [requiredField event "symbol",
    requiredField event "event_type",
    ("evidence_types", .arr ((normalizeEvidenceTypes (textsOf event "evidence_types")).map Json.str)),
    ("evidence_keys", .arr ((normalizeEvidenceKeys (textsOf event "evidence_keys")).map Json.str)),
    requiredField event "counter_evidence",
    requiredField event "confidence",
    requiredField event "next_validation"]

def projectCompanyEvent (event : Json) : Json :=
  .obj (commonEvent event ++ optionalField event "company_thesis" ++
    optionalField event "company_validation" ++ optionalField event "r_proposal")

def projectIndustryEvent (event : Json) : Json :=
  .obj (commonEvent event ++ optionalField event "research_priority" ++
    optionalField event "industry_thesis" ++ optionalField event "r_proposal")

def projectCloseEvent (event : Json) : Json :=
  .obj (commonEvent event ++ optionalField event "effective_r_state" ++
    optionalField event "market_confirmation" ++ optionalField event "r4_candidate" ++
    optionalField event "close_thesis_view")

def projectEvent (channel : InvestmentCommandChannel) (event : Json) : Json :=
  match channel with
  | .INDUSTRY => projectIndustryEvent event
  | .COMPANY => projectCompanyEvent event
  | .CLOSE => projectCloseEvent event

def projectEvents (P : Runtime) (channel : InvestmentCommandChannel) (events : List Json) :
    Except Thrown (List Json) :=
  events.mapM fun event => do
    let parsed ← parseCommand P (eventCommandSchema channel false)
      (channel.channel.name ++ "_EVENT_COMMAND_SCHEMA") event (channel.channel.name ++ " event")
    return projectEvent channel parsed

/-! ## Investment commands -/

structure PreparedCommand where
  batch : Json
  writeKey : String
  payloadSha256 : String
  runId : Option String

/-- What an investment command's digest covers. -/
def normalizedCommand (channel : InvestmentCommandChannel) (events : List Json) : Json :=
  .obj [("contract", .str "owned-state-command-v1"), ("channel", .str channel.channel.name),
    ("events", .arr events)]

def commandDigest (P : Runtime) (channel : InvestmentCommandChannel) (events : List Json) :
    String :=
  sha256HexOf P (normalizedCommand channel events)

/-- The batch of a command's events. -/
def commandBatch (P : Runtime) (channel : InvestmentCommandChannel) (portfolioVersion asOf : String)
    (events : List Json) : Json :=
  .obj [("schema_version", .str INVESTMENT_STATE_BATCH_V1),
    ("portfolio_version", .str portfolioVersion),
    ("event_id", .str ("CMD:" ++ commandDigest P channel events ++ "|" ++ channel.producer ++
      "|BATCH")),
    ("as_of", .str asOf),
    ("events", .arr events)]

def buildInvestmentCommandBatch (P : Runtime) (channel : InvestmentCommandChannel) (command : Json)
    (portfolioVersion : String) : Except Thrown PreparedCommand := do
  let parsed ← parseCommand P (schemaForChannel P channel) (channel.channel.name ++ "_COMMAND_SCHEMA")
    command channel.channel.name
  let events ← projectEvents P channel (batchEvents parsed)
  -- `as_of` stays in the batch and out of the digest
  let digest := commandDigest P channel events
  return { batch := commandBatch P channel portfolioVersion (textField parsed "as_of") events
           writeKey := "CMD:" ++ channel.channel.name ++ ":" ++ digest
           payloadSha256 := digest
           runId := (parsed.get? "run_id").bind Json.str? }

/-- A command with what the server adds to it. -/
structure CommandInput where
  token : String
  command : Json
  portfolioVersion : String
  now : Option String
  requestId : Option String
  envelopeKey : Option String
  eventCount : Option ℕ

structure CommandAppendResult extends StateAppendResult where
  run_id : Option String
deriving DecidableEq

def appendInvestmentCommand (P : Runtime) (channel : InvestmentCommandChannel)
    (input : CommandInput) : Program CommandAppendResult := do
  let prepared ← Script.halt
    (buildInvestmentCommandBatch P channel input.command input.portfolioVersion)
  let result ← appendStateBatch P
    { token := input.token, channel := channel.channel, batch := prepared.batch, now := input.now,
      requestId := input.requestId, writeKey := some prepared.writeKey,
      payloadSha256 := some prepared.payloadSha256, envelopeKey := input.envelopeKey,
      eventCount := input.eventCount }
  return { result with run_id := prepared.runId }

/-! ## Market observations -/

def marketObservationType (slot : String) : String :=
  if slot = "09:10" then "PREMARKET" else if slot = "16:45" then "CLOSE" else "INTRADAY"

def marketEventId (tradingDate slot : String) : String :=
  String.ofList (tradingDate.toList.filter (· ≠ '-')) ++ "T" ++
    String.ofList (slot.toList.erase ':') ++ "00+08|holding-assistant|BATCH"

/-- The checkpoint of an observation, linked to the state of the ledger. -/
def marketBatch (parsed : Json) (portfolioVersion liveUniverseHash : String)
    (state : MarketCheckpointState) : Json :=
  let slot := textField parsed "scheduled_slot"
  let tradingDate := textField parsed "trading_date"
  let premarket := decide (slot = "09:10")
  .obj [("schema_version",
      .str (if premarket then "premarket_plan_batch_v1" else "market_observation_batch_v1")),
    ("prompt_id", .str HOLDING_ASSISTANT),
    requiredField parsed "production_ref",
    ("portfolio_version", .str portfolioVersion),
    ("event_id", .str (marketEventId tradingDate slot)),
    ("idempotency_key", .str (slotKey tradingDate slot)),
    ("trading_date", .str tradingDate),
    requiredField parsed "as_of",
    ("scheduled_slot", .str slot),
    ("producer", .str HOLDING_ASSISTANT),
    ("observation_type", .str (marketObservationType slot)),
    ("previous_checkpoint_comment_id",
      if premarket then .null else linkOf state.previousCheckpoint),
    ("preopen_comment_id", if premarket then .null else linkOf state.preopen),
    ("live_universe_hash", .str liveUniverseHash),
    ("source_task", .str "持仓助手"),
    requiredField parsed "records"]

def buildMarketObservationBatch (P : Runtime) (token : String) (command : Json)
    (portfolioVersion liveUniverseHash : String) : Program (Json × Option String) := do
  let parsed ← Script.halt (parseCommand P (MARKET_OBSERVATION_COMMAND_SCHEMA P)
    "MARKET_OBSERVATION_COMMAND_SCHEMA" command "MARKET observation")
  let state ← getMarketCheckpoints P token (textField parsed "trading_date")
    (textField parsed "scheduled_slot")
  if state.conflict then
    throw (.refusal .STATE_CONFLICT .VALIDATE
      "market ledger already contains duplicate checkpoint keys")
  return (marketBatch parsed portfolioVersion liveUniverseHash state,
    (parsed.get? "run_id").bind Json.str?)

def appendMarketObservation (P : Runtime) (input : CommandInput) (liveUniverseHash : String) :
    Program CommandAppendResult := do
  let (batch, runId) ← buildMarketObservationBatch P input.token input.command
    input.portfolioVersion liveUniverseHash
  let result ← appendStateBatch P
    { token := input.token, channel := .MARKET, batch := batch, now := input.now,
      requestId := input.requestId, writeKey := none, payloadSha256 := none,
      envelopeKey := input.envelopeKey, eventCount := input.eventCount }
  return { result with run_id := runId }

end QuantproCollector.StateGateway
