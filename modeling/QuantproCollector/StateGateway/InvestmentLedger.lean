import QuantproCollector.Lib.Schema
import QuantproCollector.StateGateway.Github

/-!
# The investment ledger

Batches of state events that the industry, company and close roles append to the investment ledger:
their schema and role rules, how a comment is read back as a batch, the latest event of each symbol
under a role, and the append.
-/

namespace QuantproCollector.StateGateway

open Async

/-! ## Roles -/

inductive InvestmentLedgerRole where
  | industry
  | company
  | close
deriving DecidableEq

namespace InvestmentLedgerRole

def producer : InvestmentLedgerRole → String
  | industry => "industry_trend"
  | company => "company_validation"
  | close => "close_review"

def dimension : InvestmentLedgerRole → String
  | industry => "INDUSTRY"
  | company => "COMPANY"
  | close => "CLOSE"

def sourceTask : InvestmentLedgerRole → String
  | industry => "产业趋势与研究"
  | company => "公司事实监控"
  | close => "持仓助手｜收盘"

def allowedRProposals : InvestmentLedgerRole → List String
  | industry => ["R0", "R1"]
  | company => ["R2"]
  | close => []

end InvestmentLedgerRole

/-! ## Schemas -/

/-- `z.string().min(min).max(max)`. -/
def boundedString (min max : ℕ) : Schema :=
  .text fun s => decide (min ≤ Utf16.length s) && decide (Utf16.length s ≤ max)

/-- `/^(?:CN:\d{6}|HK:\d{5})$/`. -/
def isInstrumentKey (s : String) : Bool :=
  let cs := s.toList
  (cs.take 3 = "CN:".toList && decide (cs.length = 9) && (cs.drop 3).all Char.isDigit) ||
    (cs.take 3 = "HK:".toList && decide (cs.length = 8) && (cs.drop 3).all Char.isDigit)

def EVIDENCE_TYPES : List String := ["D", "S", "M", "E", "P", "C"]

def EVENT_TYPES : List String :=
  ["STATE_SET", "STATE_CHANGE", "COUNTER_EVIDENCE", "CONFIRMATION", "EVIDENCE_ADD",
    "EVIDENCE_UPDATE", "CORRECTION"]

/-- A text of at most 16000 units, or `null`. -/
def OPTIONAL_TEXT : Schema := .orNull (boundedString 0 16000)

/-- `z.number().min(0).max(1)`. -/
def unitInterval : Schema :=
  .number fun x => decide (0 ≤ x.value) && decide (x.value ≤ 1)

/-- The fields of an event that every channel has, in the order of the command schemas. -/
def COMMON_EVENT_SHAPE : List Schema.Field :=
  [⟨"symbol", true, .text isInstrumentKey⟩,
    ⟨"event_type", true, .oneOf EVENT_TYPES⟩,
    ⟨"evidence_types", true, .array (.oneOf EVIDENCE_TYPES) 0 6⟩,
    ⟨"evidence_keys", true, .array (boundedString 1 512) 0 100⟩,
    ⟨"counter_evidence", true, .array (boundedString 1 4000) 0 20⟩,
    ⟨"confidence", true, unitInterval⟩,
    ⟨"next_validation", true, .orNull (boundedString 0 8000)⟩]

def INVESTMENT_LEDGER_EVENT_SHAPE : List Schema.Field :=
  [⟨"symbol", true, .text isInstrumentKey⟩,
    ⟨"event_type", true, .oneOf EVENT_TYPES⟩,
    ⟨"research_priority", false, .orNull (.oneOf ["P0", "P1", "P2"])⟩,
    ⟨"industry_thesis", false, OPTIONAL_TEXT⟩,
    ⟨"company_thesis", false, OPTIONAL_TEXT⟩,
    ⟨"company_validation", false, OPTIONAL_TEXT⟩,
    ⟨"r_proposal", false, .orNull (.oneOf ["R0", "R1", "R2"])⟩,
    ⟨"effective_r_state", false, .orNull (.oneOf ["R0", "R1", "R2", "R3", "R4"])⟩,
    ⟨"market_confirmation", false, OPTIONAL_TEXT⟩,
    ⟨"r4_candidate", false, .orNull .boolean⟩,
    ⟨"close_thesis_view", false, OPTIONAL_TEXT⟩,
    ⟨"evidence_types", true, .array (.oneOf EVIDENCE_TYPES) 0 6⟩,
    ⟨"evidence_keys", true, .array (boundedString 1 512) 0 100⟩,
    ⟨"counter_evidence", true, .array (boundedString 1 4000) 0 20⟩,
    ⟨"confidence", true, unitInterval⟩,
    ⟨"next_validation", true, .orNull (boundedString 0 8000)⟩]

def INVESTMENT_LEDGER_EVENT_INPUT_SCHEMA : Schema :=
  .object true INVESTMENT_LEDGER_EVENT_SHAPE

def INVESTMENT_STATE_BATCH_V1 : String := "investment_state_batch_v1"

def INVESTMENT_LEDGER_BATCH_SHAPE : List Schema.Field :=
  [⟨"schema_version", true, .oneOf [INVESTMENT_STATE_BATCH_V1]⟩,
    ⟨"portfolio_version", true, boundedString 1 512⟩,
    ⟨"event_id", true, boundedString 1 512⟩,
    ⟨"as_of", true, boundedString 1 128⟩,
    ⟨"events", true, .array INVESTMENT_LEDGER_EVENT_INPUT_SCHEMA 1 128⟩]

def INVESTMENT_LEDGER_BATCH_INPUT_SCHEMA : Schema :=
  .object true INVESTMENT_LEDGER_BATCH_SHAPE

theorem stable_boundedString (min max : ℕ) : (boundedString min max).Stable :=
  Schema.stable_text _

theorem stable_OPTIONAL_TEXT : OPTIONAL_TEXT.Stable :=
  Schema.stable_orNull (stable_boundedString 0 16000)

theorem stable_eventSchema : INVESTMENT_LEDGER_EVENT_INPUT_SCHEMA.Stable := by
  refine Schema.stable_object (by decide) fun f hf => ?_
  simp only [INVESTMENT_LEDGER_EVENT_SHAPE, List.mem_cons, List.not_mem_nil, or_false] at hf
  rcases hf with rfl | rfl | rfl | rfl | rfl | rfl | rfl | rfl | rfl | rfl | rfl | rfl | rfl |
    rfl | rfl | rfl
  · exact Schema.stable_text _
  · exact Schema.stable_oneOf _
  · exact Schema.stable_orNull (Schema.stable_oneOf _)
  · exact stable_OPTIONAL_TEXT
  · exact stable_OPTIONAL_TEXT
  · exact stable_OPTIONAL_TEXT
  · exact Schema.stable_orNull (Schema.stable_oneOf _)
  · exact Schema.stable_orNull (Schema.stable_oneOf _)
  · exact stable_OPTIONAL_TEXT
  · exact Schema.stable_orNull Schema.stable_boolean
  · exact stable_OPTIONAL_TEXT
  · exact Schema.stable_array (Schema.stable_oneOf _) 0 6
  · exact Schema.stable_array (stable_boundedString 1 512) 0 100
  · exact Schema.stable_array (stable_boundedString 1 4000) 0 20
  · exact Schema.stable_number _
  · exact Schema.stable_orNull (stable_boundedString 0 8000)

/-- A batch that was parsed is parsed to itself. -/
theorem stable_batchSchema : INVESTMENT_LEDGER_BATCH_INPUT_SCHEMA.Stable := by
  refine Schema.stable_object (by decide) fun f hf => ?_
  simp only [INVESTMENT_LEDGER_BATCH_SHAPE, List.mem_cons, List.not_mem_nil, or_false] at hf
  rcases hf with rfl | rfl | rfl | rfl | rfl
  · exact Schema.stable_oneOf _
  · exact stable_boundedString 1 512
  · exact stable_boundedString 1 512
  · exact stable_boundedString 1 128
  · exact Schema.stable_array stable_eventSchema 1 128

/-- The symbol of a parsed event is an instrument key. -/
theorem symbol_of_eventSchema {v event : Json}
    (h : INVESTMENT_LEDGER_EVENT_INPUT_SCHEMA v = some event) :
    ∃ symbol, event.get? "symbol" = some (.str symbol) ∧ isInstrumentKey symbol = true := by
  obtain ⟨hget, hsome⟩ := Schema.get?_of_object (by decide) h ⟨"symbol", true, .text isInstrumentKey⟩
    List.mem_cons_self
  obtain ⟨x, hx⟩ := Option.isSome_iff_exists.1 (hsome rfl)
  rw [hget] at hx
  obtain ⟨y, -, hy⟩ := Option.bind_eq_some_iff.1 hx
  cases y with
  | str symbol =>
    simp only [Schema.text] at hy
    split_ifs at hy with hkey
    obtain rfl := Option.some.inj hy
    exact ⟨symbol, hget.trans hx, hkey⟩
  | _ => cases hy

/-- The summary of a schema's issues in an error text. -/
def validationSummary (count : ℕ) (withKeys : Bool) (issues : List SchemaIssue) : String :=
  "; ".intercalate ((issues.take count).map fun issue =>
    let path := if issue.path.length > 0 then ".".intercalate issue.path else "<root>"
    let keys := if withKeys && issue.code = "unrecognized_keys" then
      " keys=" ++ ",".intercalate issue.keys else ""
    path ++ ":" ++ issue.code ++ keys)

/-! ## Role rules -/

def investmentErrors : LedgerErrors where
  ledger := .investment
  unavailable := .investment .INVESTMENT_LEDGER_UNAVAILABLE
  readbackFailed := .investment .INVESTMENT_LEDGER_READBACK_FAILED
  subject := "investment ledger"
  mismatch := "persisted investment batch does not match the submitted batch"

/-- `value != null`. -/
def present (v : Json) (k : String) : Bool :=
  match v.get? k with
  | none | some .null => false
  | some _ => true

def batchEvents (batch : Json) : List Json :=
  match batch.get? "events" with
  | some (.arr events) => events
  | _ => []

/-- A parsed batch has at most 128 events, each about an instrument key. -/
theorem batchEvents_of_batchSchema {v batch : Json}
    (h : INVESTMENT_LEDGER_BATCH_INPUT_SCHEMA v = some batch) :
    (batchEvents batch).length ≤ 128 ∧
      ∀ event ∈ batchEvents batch, isInstrumentKey (textField event "symbol") = true := by
  obtain ⟨hget, hsome⟩ := Schema.get?_of_object (by decide) h
    ⟨"events", true, .array INVESTMENT_LEDGER_EVENT_INPUT_SCHEMA 1 128⟩
    (by simp [INVESTMENT_LEDGER_BATCH_SHAPE])
  obtain ⟨x, hx⟩ := Option.isSome_iff_exists.1 (hsome rfl)
  obtain ⟨y, -, hy⟩ := Option.bind_eq_some_iff.1 (hget ▸ hx)
  obtain ⟨events, rfl, -, hlen, hparsed⟩ := Schema.elements_of_array hy
  have hevents : batchEvents batch = events := by
    unfold batchEvents
    rw [hx]
  rw [hevents]
  refine ⟨hlen, fun event hevent => ?_⟩
  obtain ⟨u, hu⟩ := hparsed event hevent
  obtain ⟨symbol, hsymbol, hkey⟩ := symbol_of_eventSchema hu
  have htext : textField event "symbol" = symbol := by
    unfold textField
    rw [hsymbol]
    rfl
  rwa [htext]

/-- The text has `prefix`, then a body, then the producer's suffix. -/
def matchesEventId (producer eventId : String) : Bool :=
  let suffix := ("|" ++ producer ++ "|BATCH").toList
  let cs := eventId.toList
  let body := cs.take (cs.length - suffix.length)
  decide (suffix <:+ cs) &&
    -- `\d{8}T\d{6}\+08`, or `CMD:[0-9a-f]{64}`
    ((decide (body.length = 18) && (body.take 8).all Char.isDigit &&
        decide ((body.drop 8).take 1 = ['T']) && ((body.drop 9).take 6).all Char.isDigit &&
        decide (body.drop 15 = "+08".toList)) ||
      (decide (body.take 4 = "CMD:".toList) && isHexSha256 (String.ofList (body.drop 4))))

def validationFailed (message : String) : Thrown :=
  .investment .INVESTMENT_LEDGER_VALIDATION_FAILED message none

/-- The role rule that an event breaks, if any. -/
def eventRoleError (role : InvestmentLedgerRole) (event : Json) : Option String :=
  if present event "r_proposal" &&
      !role.allowedRProposals.contains (textField event "r_proposal") then
    some "r_proposal is outside the role write boundary"
  else match role with
    | .industry =>
      if ["company_thesis", "company_validation", "effective_r_state", "market_confirmation",
          "r4_candidate", "close_thesis_view"].any (present event) then
        some "industry writer cannot persist company or close fields"
      else none
    | .company =>
      if ["industry_thesis", "effective_r_state", "market_confirmation", "r4_candidate",
          "close_thesis_view"].any (present event) then
        some "company writer cannot persist industry or close fields"
      else none
    | .close =>
      if ["research_priority", "industry_thesis", "company_thesis", "company_validation",
          "r_proposal"].any (present event) then
        some "close writer cannot persist industry/company ownership fields"
      else if !(["effective_r_state", "market_confirmation", "r4_candidate", "close_thesis_view",
          "next_validation"].any (present event)) then
        some "close writer must persist at least one close-owned field"
      else none

def validateRoleSemantics (P : Runtime) (role : InvestmentLedgerRole) (batch : Json) :
    Except Thrown Unit :=
  if (P.dateParse (textField batch "as_of")).isNone then
    .error (validationFailed "as_of is not a valid ISO date-time")
  else if !matchesEventId role.producer (textField batch "event_id") then
    .error (validationFailed "event_id does not match the fixed producer contract")
  else match (batchEvents batch).findSome? (eventRoleError role) with
    | some message => .error (validationFailed message)
    | none => .ok ()

/-! ## Persisted batches -/

/-- The object with one key set. -/
def withField (v : Json) (k : String) (x : Json) : Json :=
  match v with
  | .obj fields => .obj (Json.setField fields k x)
  | v => v

/-- The batch with its producer and the dimension of each event. -/
def enrichBatch (role : InvestmentLedgerRole) (input : Json) : Json :=
  withField (withField (withField input "events"
      (.arr ((batchEvents input).map fun event => withField event "dimension" (.str role.dimension))))
    "producer" (.str role.producer)) "source_task" (.str role.sourceTask)

/-- An event that a comment may hold. -/
def isPersistedEvent (event : Json) : Bool :=
  match event with
  | .obj _ => ((event.get? "symbol").bind Json.str?).isSome &&
      ["INDUSTRY", "COMPANY", "CLOSE"].contains (textField event "dimension")
  | _ => false

/-- The batch in a text: its first `json` block, or else the whole text. -/
def payloadOfText (text : List Char) : Option Json := do
  let block := (Json.fenced? isSpace text).getD (Json.trimChars isSpace text)
  let value ← Json.parse block
  if textField value "schema_version" ≠ INVESTMENT_STATE_BATCH_V1 then none
  else if !(["industry_trend", "company_validation", "close_review"].contains
      (textField value "producer")) then none
  else match value.get? "events" with
    | some (.arr all) =>
      let events := all.filter isPersistedEvent
      if events = [] then none else some (withField value "events" (.arr events))
    | _ => none

def parseExistingPayload (body : Option String) : Option Json :=
  body.bind fun body => payloadOfText body.toList

def toLedgerComment : Json → Except Thrown (Option LedgerComment) :=
  toComment parseExistingPayload

/-! ## Reading -/

/-- The order of role comments: by `as_of`, then creation, then id. -/
def compareLedgerComments (P : Runtime) (left right : LedgerComment) : Ordering :=
  let asOf (c : LedgerComment) : String :=
    match c.payload.get? "as_of" with
    | none | some .null => ""
    | some v => v.text
  ((P.localeCompare (asOf left) (asOf right)).then
    (P.localeCompare left.created_at right.created_at)).then
      (P.localeCompare left.comment_id right.comment_id)

/-- The comments of a role, in order. -/
def validRoleComments (P : Runtime) (comments : List Json) (role : InvestmentLedgerRole) :
    Except Thrown (List LedgerComment) := do
  let parsed ← comments.mapM toLedgerComment
  let valid := (parsed.filterMap id).filter fun c => textField c.payload "producer" = role.producer
  return valid.insertionSort fun a b => (compareLedgerComments P a b).isLE = true

/-- The role's events, in the order in which they apply. -/
def roleEvents (role : InvestmentLedgerRole) (comments : List LedgerComment) : List Json :=
  (comments.flatMap fun c => batchEvents c.payload).filter fun event =>
    textField event "dimension" = role.dimension

/-- `latest_by_symbol[symbol]`. -/
def latestBySymbol (events : List Json) (symbol : String) : Option Json :=
  (events.filter fun event => textField event "symbol" = symbol).getLast?

/-- The role's events about the symbols, oldest first. -/
def getInvestmentLedgerState (P : Runtime) (token : String) (role : InvestmentLedgerRole)
    (symbols : List String) : Program (List Json) := do
  if token = "" then
    throw (investmentErrors.unavailable "RESEARCH GitHub credential is unavailable" none)
  let symbols := symbols.eraseDups
  if symbols.length < 1 || symbols.length > 512 || symbols.any (!isInstrumentKey ·) then
    throw (validationFailed "symbols must contain 1-512 canonical CN:/HK: instrument keys")
  let raw ← fetchAllComments investmentErrors none
  let comments ← Script.halt (validRoleComments P raw role)
  return (roleEvents role comments).filter fun event => symbols.contains (textField event "symbol")

/-! ## Appending -/

def appendInvestmentLedgerBatch (P : Runtime) (token : String) (role : InvestmentLedgerRole)
    (batch : Json) : Program AppendResult := do
  match INVESTMENT_LEDGER_BATCH_INPUT_SCHEMA batch with
  | none =>
    throw (validationFailed ("batch does not match the exact investment ledger schema: " ++
      validationSummary 10 true (P.issues "INVESTMENT_LEDGER_BATCH_INPUT_SCHEMA" batch)))
  | some parsed =>
    Script.halt (validateRoleSemantics P role parsed)
    if token = "" then
      throw (investmentErrors.unavailable "RESEARCH GitHub credential is unavailable" none)
    let batch := enrichBatch role parsed
    let raw ← fetchAllComments investmentErrors none
    let comments ← Script.halt (validRoleComments P raw role)
    match comments.filter fun c =>
        textField c.payload "event_id" = textField batch "event_id" with
    | [] => createAndReadBack investmentErrors toLedgerComment batch
    | [existing] =>
      if samePayload existing.payload batch then
        return ⟨.IDEMPOTENT_REPLAY, existing.comment_id, existing.url, existing.created_at,
          existing.payload⟩
      else
        throw (.investment .INVESTMENT_LEDGER_EVENT_ID_CONFLICT
          "event_id already exists with different or duplicate content" none)
    | _ =>
      throw (.investment .INVESTMENT_LEDGER_EVENT_ID_CONFLICT
        "event_id already exists with different or duplicate content" none)

end QuantproCollector.StateGateway
