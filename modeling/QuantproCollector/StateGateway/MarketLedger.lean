import QuantproCollector.StateGateway.InvestmentLedger

/-!
# The market ledger

Market checkpoints, one for each slot of a trading day: their schema and relations, the state of the
ledger around a slot, the server-owned record of how the universe changed, and the append.
-/

namespace QuantproCollector.StateGateway

open Async

/-! ## Schemas -/

def MARKET_LEDGER_SLOTS : List String :=
  ["09:10", "09:50", "10:50", "11:50", "13:50", "14:50", "16:45"]

def MARKET_LEDGER_SLOT_SCHEMA : Schema := .oneOf MARKET_LEDGER_SLOTS

/-- `/^\d{4}-\d{2}-\d{2}$/`. -/
def isTradingDate (s : String) : Bool :=
  let cs := s.toList
  decide (cs.length = 10) && (cs.take 4).all Char.isDigit && decide ((cs.drop 4).take 1 = ['-']) &&
    ((cs.drop 5).take 2).all Char.isDigit && decide ((cs.drop 7).take 1 = ['-']) &&
    (cs.drop 8).all Char.isDigit

/-- `/^[0-9a-f]{40}$/i`. -/
def isProductionRef (s : String) : Bool :=
  decide (s.toList.length = 40) && s.toList.all fun c => isLowerHex c || ('A' ≤ c && c ≤ 'F')

/-- `z.record(z.string().min(1), z.unknown())`. -/
def CHECKPOINT_RECORD_SCHEMA : Schema := .record fun k => k ≠ ""

def UNIVERSE_TRANSITION_SCHEMA : Schema :=
  .object true
    [⟨"status", true, .oneOf ["BASELINE", "UNCHANGED", "MEMBERSHIP_CHANGED", "METADATA_CHANGED"]⟩,
      ⟨"previous_live_universe_hash", true, .orNull (boundedString 1 256)⟩,
      ⟨"current_live_universe_hash", true, boundedString 1 256⟩,
      ⟨"hash_changed", true, .boolean⟩,
      ⟨"membership_changed", true, .boolean⟩,
      ⟨"added_active", true, .array (boundedString 1 128) 0 512⟩,
      ⟨"removed_active", true, .array (boundedString 1 128) 0 512⟩]

def HOLDING_ASSISTANT : String := "holding-assistant"

def MARKET_CHECKPOINT_BASE_SHAPE : List Schema.Field :=
  [⟨"schema_version", true, .oneOf ["premarket_plan_batch_v1", "market_observation_batch_v1"]⟩,
    ⟨"prompt_id", true, .oneOf [HOLDING_ASSISTANT]⟩,
    ⟨"production_ref", true, .text isProductionRef⟩,
    ⟨"portfolio_version", true, boundedString 1 512⟩,
    ⟨"event_id", true, boundedString 1 512⟩,
    ⟨"idempotency_key", true, boundedString 1 256⟩,
    ⟨"trading_date", true, .text isTradingDate⟩,
    ⟨"as_of", true, boundedString 1 128⟩,
    ⟨"scheduled_slot", true, MARKET_LEDGER_SLOT_SCHEMA⟩,
    ⟨"producer", true, .oneOf [HOLDING_ASSISTANT]⟩,
    ⟨"observation_type", true, .oneOf ["PREMARKET", "INTRADAY", "CLOSE"]⟩,
    ⟨"previous_checkpoint_comment_id", true, .orNull (boundedString 1 64)⟩,
    ⟨"preopen_comment_id", true, .orNull (boundedString 1 64)⟩,
    ⟨"live_universe_hash", true, boundedString 1 256⟩,
    ⟨"source_task", true, boundedString 1 128⟩,
    ⟨"records", true, .array CHECKPOINT_RECORD_SCHEMA 0 512⟩]

def MARKET_CHECKPOINT_INPUT_SCHEMA : Schema :=
  .object true MARKET_CHECKPOINT_BASE_SHAPE

/-- Stored checkpoints may carry the server's universe transition; submitted ones may not. -/
def MARKET_CHECKPOINT_SCHEMA : Schema :=
  .object true
    (MARKET_CHECKPOINT_BASE_SHAPE ++ [⟨"universe_transition", false, UNIVERSE_TRANSITION_SCHEMA⟩])

theorem stable_baseShape : ∀ f ∈ MARKET_CHECKPOINT_BASE_SHAPE, f.schema.Stable := by
  intro f hf
  simp only [MARKET_CHECKPOINT_BASE_SHAPE, List.mem_cons, List.not_mem_nil, or_false] at hf
  rcases hf with rfl | rfl | rfl | rfl | rfl | rfl | rfl | rfl | rfl | rfl | rfl | rfl | rfl |
    rfl | rfl | rfl
  all_goals first
    | exact Schema.stable_text _
    | exact Schema.stable_orNull (stable_boundedString 1 64)
    | exact Schema.stable_array (Schema.stable_record _) _ _

/-- A checkpoint that was parsed is parsed to itself. -/
theorem stable_checkpointSchema : MARKET_CHECKPOINT_INPUT_SCHEMA.Stable :=
  Schema.stable_object (by decide) stable_baseShape

/-! ## Errors and relations -/

def marketErrors : LedgerErrors where
  ledger := .market
  unavailable := .market .MARKET_LEDGER_UNAVAILABLE
  readbackFailed := .market .CHECKPOINT_READBACK_FAILED
  subject := "checkpoint"
  mismatch := "persisted checkpoint does not match the submitted checkpoint"

def checkpointInvalid (message : String) : Thrown :=
  .market .CHECKPOINT_VALIDATION_FAILED message none

/-- The key of a slot of a day. -/
def slotKey (tradingDate slot : String) : String :=
  "holding-assistant:" ++ tradingDate ++ ":" ++ slot

/-- `value === null`. -/
def isNull (v : Json) (k : String) : Bool :=
  match v.get? k with
  | some .null => true
  | _ => false

def validateCheckpointRelations (P : Runtime) (checkpoint : Json) : Except Thrown Unit :=
  let slot := textField checkpoint "scheduled_slot"
  if textField checkpoint "idempotency_key" ≠ slotKey (textField checkpoint "trading_date") slot then
    .error (checkpointInvalid "idempotency_key does not match trading_date and scheduled_slot")
  else if (P.dateParse (textField checkpoint "as_of")).isNone then
    .error (checkpointInvalid "as_of is not a valid ISO date-time")
  else if slot = "09:10" then
    if textField checkpoint "schema_version" ≠ "premarket_plan_batch_v1" ||
        textField checkpoint "observation_type" ≠ "PREMARKET" then
      .error (checkpointInvalid "09:10 checkpoint must use PREMARKET contract")
    else if !isNull checkpoint "previous_checkpoint_comment_id" ||
        !isNull checkpoint "preopen_comment_id" then
      .error (checkpointInvalid "PREMARKET checkpoint cannot reference earlier same-day comments")
    else .ok ()
  else if textField checkpoint "schema_version" ≠ "market_observation_batch_v1" then
    .error (checkpointInvalid "non-PREMARKET checkpoint must use market_observation_batch_v1")
  else
    let expected := if slot = "16:45" then "CLOSE" else "INTRADAY"
    if textField checkpoint "observation_type" ≠ expected then
      .error (checkpointInvalid s!"{slot} checkpoint observation_type must be {expected}")
    else .ok ()

/-! ## Reading -/

/-- The checkpoint in a text's `json` block. -/
def checkpointOfText (P : Runtime) (text : List Char) : Option Json := do
  let block ← Json.fenced? isSpace text
  let value ← Json.parse block
  let parsed ← MARKET_CHECKPOINT_SCHEMA value
  match validateCheckpointRelations P parsed with
  | .ok () => some parsed
  | .error _ => none

def parseCheckpointPayload (P : Runtime) (body : Option String) : Option Json :=
  body.bind fun body => checkpointOfText P body.toList

def toCheckpointComment (P : Runtime) : Json → Except Thrown (Option LedgerComment) :=
  toComment (parseCheckpointPayload P)

def slotIndex (slot : String) : ℕ :=
  MARKET_LEDGER_SLOTS.idxOf slot

namespace LedgerComment

def slot (c : LedgerComment) : String := textField c.payload "scheduled_slot"

def tradingDate (c : LedgerComment) : String := textField c.payload "trading_date"

end LedgerComment

/-- The order of checkpoints: by day, slot, creation and id. -/
def compareCheckpointOrder (P : Runtime) (a b : LedgerComment) : Ordering :=
  (((P.localeCompare a.tradingDate b.tradingDate).then
    (compare (slotIndex a.slot) (slotIndex b.slot))).then
      (P.localeCompare a.created_at b.created_at)).then
        (P.localeCompare a.comment_id b.comment_id)

def sortCheckpoints (P : Runtime) (cs : List LedgerComment) : List LedgerComment :=
  cs.insertionSort fun a b => (compareCheckpointOrder P a b).isLE = true

structure MarketCheckpointState where
  /-- Some key has more than one checkpoint. -/
  conflict : Bool
  preopen : Option LedgerComment
  previousCheckpoint : Option LedgerComment
  previousClose : Option LedgerComment
  currentSlot : Option LedgerComment

/-- The state around a slot, from the checkpoints in order. -/
def checkpointState (P : Runtime) (valid : List LedgerComment) (tradingDate slot : String) :
    MarketCheckpointState :=
  let key (c : LedgerComment) : String := textField c.payload "idempotency_key"
  let currentDay := valid.filter fun c => c.tradingDate = tradingDate
  { conflict := valid.any fun c => decide ((valid.filter fun d => key d = key c).length > 1)
    preopen := currentDay.find? fun c => c.slot = "09:10"
    previousCheckpoint := (sortCheckpoints P (currentDay.filter fun c =>
      slotIndex c.slot < slotIndex slot)).getLast?
    previousClose := (sortCheckpoints P (valid.filter fun c =>
      decide (c.tradingDate < tradingDate) &&
        textField c.payload "observation_type" = "CLOSE")).getLast?
    currentSlot := valid.find? fun c => key c = slotKey tradingDate slot }

def buildState (P : Runtime) (rawComments : List Json) (tradingDate slot : String) :
    Except Thrown MarketCheckpointState := do
  let parsed ← rawComments.mapM (toCheckpointComment P)
  return checkpointState P (sortCheckpoints P (parsed.filterMap id)) tradingDate slot

def RECENT_LOOKBACK_DAYS : ℕ := 60

def recentSince (P : Runtime) (tradingDate : String) : Except Thrown String :=
  match P.daysBefore (tradingDate ++ "T00:00:00+08:00") RECENT_LOOKBACK_DAYS with
  | none => .error (checkpointInvalid "trading_date is not a valid calendar date")
  | some since => .ok since

/-- The state around a slot from the recent comments, or from all where they hold no close. -/
def getMarketCheckpoints (P : Runtime) (token tradingDate slot : String) :
    Program MarketCheckpointState := do
  if token = "" then
    throw (marketErrors.unavailable "GitHub ledger credential is not configured" none)
  let since ← Script.halt (recentSince P tradingDate)
  let recent ← fetchAllComments marketErrors (some since)
  let state ← Script.halt (buildState P recent tradingDate slot)
  if state.previousClose.isSome then return state
  let all ← fetchAllComments marketErrors none
  Script.halt (buildState P all tradingDate slot)

/-! ## The universe transition -/

def checkpointRecords (checkpoint : Json) : List Json :=
  match checkpoint.get? "records" with
  | some (.arr records) => records
  | _ => []

/-- A text field that is not blank, trimmed. -/
def trimmedField? (record : Json) (k : String) : Option String :=
  match record.get? k with
  | some (.str s) =>
    let t := String.ofList (Json.trimChars isSpace s.toList)
    if t = "" then none else some t
  | _ => none

/-- The key of an active record. -/
def activeKey (record : Json) : Except Thrown String :=
  match trimmedField? record "subject_key", trimmedField? record "instrument_key" with
  | some s, some i =>
    if s ≠ i then
      .error (checkpointInvalid "ACTIVE record subject_key conflicts with instrument_key")
    else .ok s
  | some s, none => .ok s
  | none, some i => .ok i
  | none, none =>
    .error (checkpointInvalid "ACTIVE record is missing subject_key/instrument_key")

/-- The distinct keys of the active records, sorted. -/
def activeInstrumentKeys (checkpoint : Json) : Except Thrown (List String) := do
  let active := (checkpointRecords checkpoint).filter fun r =>
    textField r "holding_status" = "ACTIVE"
  let keys ← active.mapM activeKey
  return keys.eraseDups.insertionSort fun a b => Json.keyLe a b = true

def universeTransition (status : String) (previousHash : Json) (currentHash : String)
    (hashChanged membershipChanged : Bool) (added removed : List String) : Json :=
  .obj [("status", .str status), ("previous_live_universe_hash", previousHash),
    ("current_live_universe_hash", .str currentHash), ("hash_changed", .bool hashChanged),
    ("membership_changed", .bool membershipChanged), ("added_active", .arr (added.map Json.str)),
    ("removed_active", .arr (removed.map Json.str))]

def withUniverseTransition (checkpoint : Json) (previous : Option Json) : Except Thrown Json :=
  let current := textField checkpoint "live_universe_hash"
  match previous with
  | none => .ok (withField checkpoint "universe_transition"
      (universeTransition "BASELINE" .null current false false [] []))
  | some previous =>
    if textField checkpoint "scheduled_slot" = "09:10" then
      .ok (withField checkpoint "universe_transition"
        (universeTransition "BASELINE" .null current false false [] []))
    else do
      let previousActive ← activeInstrumentKeys previous
      let currentActive ← activeInstrumentKeys checkpoint
      let added := currentActive.filter fun k => !previousActive.contains k
      let removed := previousActive.filter fun k => !currentActive.contains k
      let membershipChanged := added.length > 0 || removed.length > 0
      let previousHash := textField previous "live_universe_hash"
      let hashChanged := decide (current ≠ previousHash)
      if membershipChanged && !hashChanged then
        throw (checkpointInvalid
          "ACTIVE membership changed without a corresponding live_universe_hash change")
      let status := if membershipChanged then "MEMBERSHIP_CHANGED"
        else if hashChanged then "METADATA_CHANGED" else "UNCHANGED"
      return withField checkpoint "universe_transition"
        (universeTransition status (.str previousHash) current hashChanged membershipChanged added
          removed)

/-! ## Appending -/

/-- A comment id as a link of a checkpoint. -/
def linkOf (c : Option LedgerComment) : Json :=
  match c with
  | none => .null
  | some c => .str c.comment_id

/-- `left !== right` of two links, each a text or `null`. -/
def sameLink (v : Json) (k : String) (expected : Option LedgerComment) : Bool :=
  match v.get? k, expected with
  | some .null, none => true
  | some (.str s), some c => s = c.comment_id
  | _, _ => false

def appendMarketCheckpoint (P : Runtime) (token : String) (checkpoint : Json) :
    Program AppendResult := do
  match MARKET_CHECKPOINT_INPUT_SCHEMA checkpoint with
  | none =>
    throw (checkpointInvalid ("checkpoint does not match the exact market ledger schema: " ++
      validationSummary 8 true (P.issues "MARKET_CHECKPOINT_INPUT_SCHEMA" checkpoint)))
  | some submitted =>
    Script.halt (validateCheckpointRelations P submitted)
    let slot := textField submitted "scheduled_slot"
    let state ← getMarketCheckpoints P token (textField submitted "trading_date") slot
    if state.conflict then
      throw (.market .CHECKPOINT_CONFLICT "market ledger already contains duplicate checkpoint keys"
        none)
    let checkpoint ← Script.halt
      (withUniverseTransition submitted (state.previousCheckpoint.map LedgerComment.payload))
    Script.halt (validateCheckpointRelations P checkpoint)
    match state.currentSlot with
    | some current =>
      if samePayload submitted current.payload || samePayload checkpoint current.payload then
        return ⟨.IDEMPOTENT_REPLAY, current.comment_id, current.url, current.created_at,
          current.payload⟩
      else
        throw (.market .CHECKPOINT_CONFLICT
          "same checkpoint idempotency key already exists with different content" none)
    | none =>
      if !sameLink checkpoint "previous_checkpoint_comment_id" state.previousCheckpoint then
        throw (.market .CHECKPOINT_CHAIN_MISMATCH
          "previous_checkpoint_comment_id does not match the server-side ledger state" none)
      if !sameLink checkpoint "preopen_comment_id"
          (if slot = "09:10" then none else state.preopen) then
        throw (.market .CHECKPOINT_CHAIN_MISMATCH
          "preopen_comment_id does not match the server-side ledger state" none)
      createAndReadBack marketErrors (toCheckpointComment P) checkpoint

end QuantproCollector.StateGateway
