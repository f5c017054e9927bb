import QuantproCollector.Lib.Fallible
import QuantproCollector.ResearchWorkflow.Proposal

/-!
# The outbound contract

`validateOutboundV2Record`: the keys and the fields of an envelope, the scan of its payload for hidden keys
and local paths, and the rules of the payload's record type, of which some depend on the schema version.

`Date.parse` is a parameter. A number is one that JSON has, and so finite.
-/

namespace QuantproCollector.ResearchOutbound

open ResearchWorkflow (HIDDEN_KEYS isLocalPath assertOutboundV2PayloadSafe exactKeys)

/-- `Date.parse`, `none` for `NaN`. -/
abbrev DateParse := String → Option ℤ

variable (dateParse : DateParse)

/-! ## Constants -/

def OUTBOUND_V2_SCHEMA_VERSION : String := "collector-outbound-v2"
def OUTBOUND_V3_SCHEMA_VERSION : String := "collector-outbound-v3"
def OUTBOUND_V4_SCHEMA_VERSION : String := "collector-outbound-v4"
def MARKET_SIGNAL_SCHEMA_VERSION : String := "collector-market-signal-v1"

def ACCEPTED_OUTBOUND_SCHEMA_VERSIONS : List String :=
  [OUTBOUND_V2_SCHEMA_VERSION, OUTBOUND_V3_SCHEMA_VERSION, OUTBOUND_V4_SCHEMA_VERSION,
    MARKET_SIGNAL_SCHEMA_VERSION]

def RECORD_TYPES : List String :=
  ["source", "document_version", "evidence", "coverage", "accumulator", "job", "object"]

def MARKET_SIGNAL_RECORD_TYPE : String := "market_signal"

def V3_RECORD_TYPES : List String := ["source_health"]

def SOURCE_HEALTH_OUTCOMES : List String :=
  ["OK", "NO_NEW_CONTENT", "PARTIAL", "BLOCKED", "AUTH_REQUIRED", "RATE_LIMITED", "UNAVAILABLE",
    "UNSUPPORTED"]

def SOURCE_HEALTH_FAILURE_CLASSES : List String :=
  ["HTTP_401", "HTTP_403", "HTTP_429", "CAPTCHA", "LOGIN_EXPIRED", "ROBOTS_TOS", "TLS", "TIMEOUT", "DNS",
    "CONNECT", "HTTP_5XX", "HTTP_404_ROUTE_MISSING", "UNSUPPORTED_MEDIA", "TRUNCATED"]

def VISIBILITIES : List String := ["PUBLIC", "PRIVATE"]

def ENVELOPE_KEYS : List String :=
  ["record_type", "message_id", "schema_version", "policy_version", "visibility", "payload",
    "generated_at"]

def SOURCE_HEALTH_KEYS : List String :=
  ["source_id", "provider", "checked_at", "reachable", "outcome", "failure_class",
    "consecutive_failures", "last_success_at", "last_error_code", "visibility"]

def JOB_V2_KEYS : List String :=
  ["job_id", "dedupe_key", "status", "priority", "theme", "company", "question",
    "missing_dimensions_json", "counter_evidence_request", "accumulator_snapshot_id",
    "coverage_gap_json", "priority_reason", "deadline", "recheck_at", "budget_hint",
    "historical_backfill", "created_at", "updated_at", "policy_version", "visibility"]

def JOB_V3_KEYS : List String := JOB_V2_KEYS ++ ["trigger_evidence_ids"]

def SOURCE_KEYS : List String :=
  ["source_id", "name", "provider", "source_kind", "canonical_base", "visibility", "lifecycle",
    "check_frequency_seconds", "policy_version", "last_health_at"]

def COVERAGE_KEYS : List String :=
  ["coverage_id", "source_id", "subject", "metric_type", "rule_key", "status",
    "alternative_coverage_id", "next_check_at", "visibility", "updated_at"]

def ACCUMULATOR_KEYS : List String :=
  ["snapshot_id", "subject_key", "evidence_ids", "total_weight", "dimensions",
    "independent_cluster_count", "unknown_cluster_count", "conflict_count", "last_evidence_at",
    "rule_version", "status", "created_at", "visibility"]

def OBJECT_KEYS : List String :=
  ["object_id", "content_sha256", "media_type", "byte_size", "visibility", "encoding", "chunking",
    "manifest_message_id"]

def DOCUMENT_KEYS : List String :=
  ["document_id", "source_id", "source_identity_key", "canonical_locator", "origin_locator",
    "first_seen_at", "title", "source_kind", "visibility", "historical_backfill"]

def VERSION_KEYS : List String :=
  ["version_id", "document_id", "version_number", "content_sha256", "byte_size", "media_type",
    "ingested_at", "published_at", "event_time", "source_updated_at", "response_headers",
    "revision_kind", "corrects_version_id", "historical_backfill", "readable"]

def ATTACHMENT_KEYS : List String :=
  ["attachment_id", "attachment_locator", "content_sha256", "byte_size", "media_type", "display_name",
    "role", "attachment_status", "outcome", "failure_class"]

def EVIDENCE_KEYS : List String :=
  ["evidence_id", "claim_id", "evidence_type", "direction", "fact_root_id",
    "independence_cluster_id", "duplicate_of_evidence_id", "source_id", "theme", "company",
    "confidence", "visibility", "decay_policy", "validity", "created_at", "policy_version",
    "independence_status", "historical_backfill", "claim"]

def EVIDENCE_V4_KEYS : List String :=
  EVIDENCE_KEYS ++ ["source_reference", "event_time", "published_at", "first_seen_at", "ingested_at"]

def SOURCE_REFERENCE_KEYS : List String :=
  ["document_id", "document_version_id", "attachment_id", "content_sha256", "byte_start", "byte_end",
    "span_sha256"]

def CLAIM_KEYS : List String :=
  ["subject", "predicate", "value", "unit", "scope", "methodology", "event_time",
    "extraction_method", "extraction_confidence", "source_span_hash"]

def MARKET_SIGNAL_KEYS : List String :=
  ["subject_key", "as_of", "status", "benchmark_mapping_version", "mapping_id", "primary_benchmark",
    "secondary_benchmark", "source", "quality", "returns", "relative_strength",
    "volume_price_structure", "continuous_market_structure", "visibility"]

def MARKET_SIGNAL_SOURCE_KEYS : List String := ["provider", "snapshot_hash", "snapshot_as_of"]

def MARKET_SIGNAL_QUALITY_KEYS : List String :=
  ["valid_trading_days", "required_trading_days", "future_rows_dropped", "missing_sessions"]

def MARKET_SIGNAL_RETURN_KEYS : List String :=
  ["window_complete", "valid_trading_days", "subject_return", "primary_benchmark_return",
    "secondary_benchmark_return"]

def MARKET_SIGNAL_RELATIVE_KEYS : List String := ["primary_pct_points", "secondary_pct_points"]

def MARKET_SIGNAL_VOLUME_KEYS : List String :=
  ["up_volume_ratio_5d", "pullback_volume_ratio_5d", "volume_up", "pullback_volume_contraction"]

def MARKET_SIGNAL_CONTINUOUS_KEYS : List String :=
  ["required_sessions", "observed_sessions", "relative_positive_sessions", "status"]

def MARKET_SIGNAL_STATUSES : List String :=
  ["READY", "INSUFFICIENT_HISTORY", "NO_VALID_BENCHMARK", "QUALITY_FAILED"]

/-! ## Fields -/

inductive ResearchErrorCode where
  | INTEGRITY_FAILED
  | FILTERED
  | UNSUPPORTED_OPERATION
deriving DecidableEq

abbrev Check := Except ResearchErrorCode

def check (ok : Prop) [Decidable ok] (code : ResearchErrorCode) : Check Unit :=
  if ok then .ok () else .error code

/-- The check is made of some records only. -/
def checkWhen (applies : Prop) [Decidable applies] (c : Check Unit) : Check Unit :=
  if applies then c else .ok ()

/-- `if (!ok) fail("INTEGRITY_FAILED")`. -/
abbrev intact (ok : Prop) [Decidable ok] : Check Unit := check ok .INTEGRITY_FAILED

def stringField (value : Option Json) : Check String :=
  match value with
  | some (.str s) => if s = "" then .error .INTEGRITY_FAILED else .ok s
  | _ => .error .INTEGRITY_FAILED

def visibilityField (value : Option Json) : Check String :=
  match value with
  | some (.str s) => if VISIBILITIES.contains s then .ok s else .error .FILTERED
  | _ => .error .FILTERED

def hexField (value : Option Json) : Check Unit := do
  let text ← stringField value
  intact (isHexSha256 text = true)

def isText (value : Option Json) : Bool :=
  match value with
  | some (.str _) => true
  | _ => false

def isNull (value : Option Json) : Bool := decide (value = some .null)

def isBoolean (value : Option Json) : Bool :=
  match value with
  | some (.bool _) => true
  | _ => false

def textIn (texts : List String) (value : Option Json) : Bool :=
  match value with
  | some (.str s) => texts.contains s
  | _ => false

/-- A text that `Date.parse` reads. -/
def isDate (value : Option Json) : Bool :=
  match value with
  | some (.str s) => (dateParse s).isSome
  | _ => false

def nullableIsoField (value : Option Json) : Check Unit :=
  intact (isNull value = true ∨ isDate dateParse value = true)

/-- An integer that is not negative. -/
def count? (value : Option Json) : Option ℤ :=
  match value with
  | some (.num x) => if x.isInteger && decide (0 ≤ x.toInt) then some x.toInt else none
  | _ => none

def finiteOrNull (value : Option Json) : Check Unit :=
  match value with
  | some .null | some (.num _) => .ok ()
  | _ => .error .INTEGRITY_FAILED

/-- The value where it is an object. -/
def recordField (value : Option Json) : Check Json :=
  match value with
  | some (.obj fields) => .ok (.obj fields)
  | _ => .error .INTEGRITY_FAILED

def arrayField (value : Option Json) : Check (List Json) :=
  match value with
  | some (.arr items) => .ok items
  | _ => .error .INTEGRITY_FAILED

def hasKeys (value : Json) (expected : List String) : Check Unit :=
  intact (exactKeys value expected = true)

/-- `a === b`, which two objects or arrays of a payload never are. -/
def strictEqual (a b : Option Json) : Bool :=
  match a with
  | some (.arr _) | some (.obj _) => false
  | _ => decide (a = b)

/-! ## Records -/

structure OutboundV2Record where
  record_type : String
  message_id : String
  schema_version : String
  policy_version : String
  visibility : String
  payload : Json
  generated_at : Option String
deriving DecidableEq

def validateSourceHealthPayload (payload : Json) : Check Unit := do
  hasKeys payload SOURCE_HEALTH_KEYS
  let _ ← stringField (payload.get? "source_id")
  let _ ← stringField (payload.get? "provider")
  let _ ← stringField (payload.get? "checked_at")
  intact (isBoolean (payload.get? "reachable") = true)
  intact (textIn SOURCE_HEALTH_OUTCOMES (payload.get? "outcome") = true)
  intact (isNull (payload.get? "failure_class") = true ∨
    textIn SOURCE_HEALTH_FAILURE_CLASSES (payload.get? "failure_class") = true)
  intact ((count? (payload.get? "consecutive_failures")).isSome = true)
  intact (isNull (payload.get? "last_success_at") = true ∨ isText (payload.get? "last_success_at") = true)
  intact (isNull (payload.get? "last_error_code") = true ∨
    isText (payload.get? "last_error_code") = true ∧ payload.get? "last_error_code" ≠ some (.str ""))

/-- One window of the returns and of the two relative maps. -/
def validateWindow (payload primary secondary : Json) (window : String) : Check Unit := do
  let legacyNoBenchmark := payload.get? "status" = some (.str "NO_VALID_BENCHMARK")
  let value ← recordField (((payload.get? "returns").getD .null).get? window)
  hasKeys value MARKET_SIGNAL_RETURN_KEYS
  intact (isBoolean (value.get? "window_complete") = true ∧
    (count? (value.get? "valid_trading_days")).isSome = true)
  ["subject_return", "primary_benchmark_return", "secondary_benchmark_return"].forM fun key =>
    finiteOrNull (value.get? key)
  checkWhen (¬ (legacyNoBenchmark ∧ primary.get? window = none)) (finiteOrNull (primary.get? window))
  checkWhen (¬ (legacyNoBenchmark ∧ secondary.get? window = none)) (finiteOrNull (secondary.get? window))

def validateMarketSignalPayload (payload : Json) : Check Unit := do
  hasKeys payload MARKET_SIGNAL_KEYS
  let subjectKey ← stringField (payload.get? "subject_key")
  intact ("market:".toList <+: subjectKey.toList)
  intact (isNull (payload.get? "as_of") = true ∨ isDate dateParse (payload.get? "as_of") = true)
  intact (textIn MARKET_SIGNAL_STATUSES (payload.get? "status") = true)
  ["benchmark_mapping_version", "mapping_id", "primary_benchmark", "secondary_benchmark"].forM fun key =>
    intact (isNull (payload.get? key) = true ∨ isText (payload.get? key) = true)
  let source ← recordField (payload.get? "source")
  let quality ← recordField (payload.get? "quality")
  let _ ← recordField (payload.get? "returns")
  let relative ← recordField (payload.get? "relative_strength")
  let volume ← recordField (payload.get? "volume_price_structure")
  let continuous ← recordField (payload.get? "continuous_market_structure")
  hasKeys source MARKET_SIGNAL_SOURCE_KEYS
  hasKeys quality MARKET_SIGNAL_QUALITY_KEYS
  hasKeys relative MARKET_SIGNAL_RELATIVE_KEYS
  hasKeys volume MARKET_SIGNAL_VOLUME_KEYS
  hasKeys continuous MARKET_SIGNAL_CONTINUOUS_KEYS
  intact (isText (source.get? "provider") = true)
  ["snapshot_hash", "snapshot_as_of"].forM fun key =>
    intact (isNull (source.get? key) = true ∨ isText (source.get? key) = true)
  MARKET_SIGNAL_QUALITY_KEYS.forM fun key => intact ((count? (quality.get? key)).isSome = true)
  let primary ← recordField (relative.get? "primary_pct_points")
  let secondary ← recordField (relative.get? "secondary_pct_points")
  ["1D", "3D", "5D", "10D"].forM (validateWindow payload primary secondary)
  ["up_volume_ratio_5d", "pullback_volume_ratio_5d"].forM fun key => finiteOrNull (volume.get? key)
  ["volume_up", "pullback_volume_contraction"].forM fun key =>
    intact (isNull (volume.get? key) = true ∨ isBoolean (volume.get? key) = true)
  ["required_sessions", "observed_sessions", "relative_positive_sessions"].forM fun key =>
    intact ((count? (continuous.get? key)).isSome = true)
  intact (["CONFIRMED", "NOT_CONFIRMED", "INSUFFICIENT_HISTORY"].contains
    ((continuous.get? "status").getD .null).text = true)

def validateDocumentPayload (record : OutboundV2Record) : Check Unit := do
  hasKeys record.payload ["document", "version", "attachments"]
  let document ← recordField (record.payload.get? "document")
  let version ← recordField (record.payload.get? "version")
  let attachments ← arrayField (record.payload.get? "attachments")
  hasKeys document DOCUMENT_KEYS
  hasKeys version VERSION_KEYS
  attachments.forM fun attachment => do
    let attachment ← recordField (some attachment)
    hasKeys attachment ATTACHMENT_KEYS
  let visibility ← visibilityField (document.get? "visibility")
  check (visibility = record.visibility) .FILTERED

def validateSourceReference (reference : Json) : Check Unit := do
  hasKeys reference SOURCE_REFERENCE_KEYS
  let _ ← stringField (reference.get? "document_id")
  let _ ← stringField (reference.get? "document_version_id")
  intact (isNull (reference.get? "attachment_id") = true ∨ isText (reference.get? "attachment_id") = true)
  hexField (reference.get? "content_sha256")
  match count? (reference.get? "byte_start"), count? (reference.get? "byte_end") with
  | some byteStart, some byteEnd => intact (byteStart < byteEnd)
  | _, _ => .error .INTEGRITY_FAILED
  hexField (reference.get? "span_sha256")

def validateEvidencePayload (record : OutboundV2Record) : Check Unit := do
  let v4 := record.schema_version = OUTBOUND_V4_SCHEMA_VERSION
  hasKeys record.payload (if v4 then EVIDENCE_V4_KEYS else EVIDENCE_KEYS)
  let claim ← recordField (record.payload.get? "claim")
  hasKeys claim CLAIM_KEYS
  checkWhen v4 do
    let reference ← recordField (record.payload.get? "source_reference")
    validateSourceReference reference
    ["event_time", "published_at", "first_seen_at", "ingested_at"].forM fun key =>
      nullableIsoField dateParse (record.payload.get? key)

def validateAccumulatorPayload (payload : Json) : Check Unit := do
  hasKeys payload ACCUMULATOR_KEYS
  let dimensions ← recordField (payload.get? "dimensions")
  hasKeys dimensions ["D", "S", "M", "E", "P", "C"]

def validateJobPayload (record : OutboundV2Record) : Check Unit := do
  let v2 := record.schema_version = OUTBOUND_V2_SCHEMA_VERSION
  hasKeys record.payload (if v2 then JOB_V2_KEYS else JOB_V3_KEYS)
  check (record.payload.get? "status" = some (.str "QUEUED")) .FILTERED
  checkWhen (¬ v2) do
    let triggerEvidenceIds ← arrayField (record.payload.get? "trigger_evidence_ids")
    triggerEvidenceIds.forM fun id => intact (isText (some id) = true ∧ id ≠ .str "")

def validateObjectPayload (record : OutboundV2Record) : Check Unit := do
  let payload := record.payload
  hasKeys payload OBJECT_KEYS
  intact (strictEqual (payload.get? "object_id") (payload.get? "content_sha256") = true ∧
    payload.get? "encoding" = some (.str "identity"))
  let chunking ← recordField (payload.get? "chunking")
  hasKeys chunking ["chunked", "chunk_size", "total_chunks", "chunk_sha256"]
  let chunks ← arrayField (chunking.get? "chunk_sha256")
  intact (chunking.get? "total_chunks" = some (.num (.ofInt chunks.length)))
  intact (payload.get? "manifest_message_id" = some (.str record.message_id))

def validateNestedPayload (record : OutboundV2Record) : Check Unit :=
  if record.record_type = "document_version" then validateDocumentPayload record
  else do
    checkWhen (record.record_type = "evidence") (validateEvidencePayload dateParse record)
    checkWhen (record.record_type = "accumulator") (validateAccumulatorPayload record.payload)
    checkWhen (record.record_type = "job") (validateJobPayload record)
    checkWhen (record.record_type = "source_health") (validateSourceHealthPayload record.payload)
    checkWhen (record.record_type = MARKET_SIGNAL_RECORD_TYPE)
      (validateMarketSignalPayload dateParse record.payload)
    checkWhen (record.record_type = "object") (validateObjectPayload record)
    checkWhen (record.record_type = "source") (hasKeys record.payload SOURCE_KEYS)
    checkWhen (record.record_type = "coverage") (hasKeys record.payload COVERAGE_KEYS)
    let visibility ← visibilityField (record.payload.get? "visibility")
    check (visibility = record.visibility) .FILTERED

/-- `/^outbound_[0-9a-f]{40}$/`. -/
def isMessageId (s : String) : Bool :=
  decide ("outbound_".toList <+: s.toList) && (s.toList.drop 9).all isLowerHex &&
    decide ((s.toList.drop 9).length = 40)

def recordTypeAllowed (schemaVersion : String) (recordType : Option Json) : Bool :=
  textIn RECORD_TYPES recordType ||
    (decide (schemaVersion ≠ OUTBOUND_V2_SCHEMA_VERSION) && textIn V3_RECORD_TYPES recordType)

def marketSignalAllowed (schemaVersion : String) (recordType : Option Json) : Bool :=
  decide (schemaVersion = MARKET_SIGNAL_SCHEMA_VERSION) &&
    decide (recordType = some (.str MARKET_SIGNAL_RECORD_TYPE))

/-- `null` or a text. -/
def generatedAt (value : Option Json) : Check (Option String) :=
  match value with
  | some .null => .ok none
  | some (.str s) => .ok (some s)
  | _ => .error .INTEGRITY_FAILED

def schemaVersionField (value : Option Json) : Check String :=
  match value with
  | some (.str s) =>
    if ACCEPTED_OUTBOUND_SCHEMA_VERSIONS.contains s then .ok s else .error .UNSUPPORTED_OPERATION
  | _ => .error .UNSUPPORTED_OPERATION

def validateOutboundV2Record (value : Json) : Check OutboundV2Record := do
  let value ← recordField (some value)
  hasKeys value ENVELOPE_KEYS
  let schemaVersion ← schemaVersionField (value.get? "schema_version")
  check (recordTypeAllowed schemaVersion (value.get? "record_type") = true ∨
    marketSignalAllowed schemaVersion (value.get? "record_type") = true) .UNSUPPORTED_OPERATION
  let messageId ← stringField (value.get? "message_id")
  intact (isMessageId messageId = true)
  let policyVersion ← stringField (value.get? "policy_version")
  let generated ← generatedAt (value.get? "generated_at")
  let payload ← recordField (value.get? "payload")
  let recordType ← stringField (value.get? "record_type")
  let visibility ← visibilityField (value.get? "visibility")
  let record : OutboundV2Record :=
    ⟨recordType, messageId, schemaVersion, policyVersion, visibility, payload, generated⟩
  intact (assertOutboundV2PayloadSafe record.payload = true)
  validateNestedPayload dateParse record
  return record

end QuantproCollector.ResearchOutbound
