import QuantproCollector.Lib.Keyset
import QuantproCollector.Lib.Table
import QuantproCollector.Platform
import Mathlib.Data.Prod.Lex
import Mathlib.Data.String.Basic
import Mathlib.Order.WithBot

/-!
# The semantic index's store

The replica's records and the semantic index's state rows, as the ingest of an outbound record
writes them (`ingestResearchReplicaRecord`) and as the index's readers see them:
`currentVersionCandidate` is the version that the search path serves, `listPendingSemanticVersions`
the work queue of versions to embed.

An ingest here is one whose record passed the boundary's validation and whose journal write
succeeded. The statements of its batch that write the full-text table, object links and health
counters touch nothing that these readers read, and are left out.
-/

namespace QuantproCollector.SemanticIndex

open Relational

def SEMANTIC_MODEL_ID : String := "@cf/baai/bge-m3"
def SEMANTIC_SUPERSEDED_CODE : String := "SUPERSEDED"
def TEXT_EXTRACTION_ROLE : String := "text_extraction"

inductive Visibility where
  | PUBLIC
  | PRIVATE
deriving DecidableEq

/-- A validated outbound record. -/
structure OutboundV2Record where
  record_type : String
  message_id : String
  schema_version : String
  policy_version : String
  visibility : Visibility
  payload : Json
  generated_at : Option String

/-! ## Servable versions -/

/-- `readableMediaType`; the parameters of a media type do not count. -/
def readableMediaType (value : Option Json) : Bool :=
  let mediaType := (toLowerCase (match value with
    | none | some .null => ""
    | some v => v.text)).toList
  let mediaType := if ';' ∈ mediaType then trimEnd (mediaType.takeWhile (· ≠ ';')) else mediaType
  decide ("text/".toList <+: mediaType) ||
    ["application/json", "application/xml", "application/xhtml+xml"].contains
      (String.ofList mediaType)

/-- The text of a value that is a SHA-256 digest. -/
def hexSha256? (value : Option Json) : Option String :=
  match value with
  | some (.str s) => if isHexSha256 s then some s else none
  | _ => none

inductive BodySource where
  | own
  | projection
deriving DecidableEq

structure ServableBody where
  bodySource : BodySource
  contentSha256 : String
deriving DecidableEq

/-- The body of a text-extraction attachment that was fetched. -/
def projectionBody (attachment : Json) : Option ServableBody :=
  if attachment.get? "role" |>.bind Json.str? |>.any (· = TEXT_EXTRACTION_ROLE) then
    if attachment.get? "attachment_status" |>.bind Json.str? |>.any (· = "FETCHED") then
      if readableMediaType (attachment.get? "media_type") then
        (hexSha256? (attachment.get? "content_sha256")).map (⟨.projection, ·⟩)
      else none
    else none
  else none

/-- The version's own bytes, or else its text-extraction projection. -/
def servableBody (payload : Json) : Option ServableBody :=
  match payload.get? "version" with
  | some (.obj fields) =>
    let version := Json.obj fields
    if (version.get? "revision_kind").bind Json.str? = some "WITHDRAWAL" then none
    else
      let attachments := match payload.get? "attachments" with
        | some (.arr xs) => xs
        | _ => []
      match hexSha256? (version.get? "content_sha256") with
      | some sha256 =>
        if readableMediaType (version.get? "media_type") then some ⟨.own, sha256⟩
        else attachments.findSome? projectionBody
      | none => attachments.findSome? projectionBody
  | _ => none

def isVersionServable (payload : Json) : Bool :=
  (servableBody payload).isSome

/-! ## Rows -/

structure IngestMessageRow where
  message_id : String
  record_type : String
  record_key : String
  visibility : Visibility
  payload_sha256 : String
  generated_at : Option String
  received_at : String

/-- A row of `research_records`; `payload` is the value that its `payload_json` parses to. -/
structure ReplicaRecordRow where
  record_type : String
  record_key : String
  message_id : String
  visibility : Visibility
  schema_version : String
  payload : Json
  generated_at : Option String
  updated_at : String

inductive SemanticState where
  | PENDING
  | READY
  | FAILED
deriving DecidableEq

/-- A row of `research_semantic_index_state`, which admits PUBLIC rows only. -/
structure SemanticIndexStateRow where
  document_id : String
  version_id : String
  state : SemanticState
  content_sha256 : Option String
  model_id : String
  title_only : Bool
  truncated : Bool
  expected_chunks : ℕ
  confirmed_chunks : ℕ
  attempts : ℕ
  last_error_code : Option String
  retired_at : Option String
  vector_deleted_at : Option String
  registered_at : String
  updated_at : String
deriving DecidableEq

inductive RetentionStatus where
  | EXPIRED
  | PURGED
deriving DecidableEq

structure RetentionRow where
  document_id : String
  status : RetentionStatus
deriving DecidableEq

/-- The primary key of `research_records`. -/
def ReplicaRecordRow.key (r : ReplicaRecordRow) : String × String := (r.record_type, r.record_key)

/-- The primary key of `research_semantic_index_state`, in the order of the work queue. -/
def SemanticIndexStateRow.key (r : SemanticIndexStateRow) : String ×ₗ String :=
  toLex (r.document_id, r.version_id)

theorem key_eq {r : SemanticIndexStateRow} {d v : String} :
    r.key = toLex (d, v) ↔ r.document_id = d ∧ r.version_id = v := by
  simp [SemanticIndexStateRow.key]

/-- The tables that an ingest writes and the index reads. -/
structure Replica where
  messages : Table IngestMessageRow String [fun r => some r.message_id]
  records : Table ReplicaRecordRow (String × String) [fun r => some r.key]
  semantic : Table SemanticIndexStateRow (String ×ₗ String) [fun r => some r.key]
  retention : Table RetentionRow String [fun r => some r.document_id]

theorem recordKey_id : ∀ r : ReplicaRecordRow, (id r).key = r.key := fun _ => rfl

theorem semanticKey_id : ∀ r : SemanticIndexStateRow, (id r).key = r.key := fun _ => rfl

/-- The replica before any ingest. -/
def Replica.empty : Replica := ⟨.empty, .empty, .empty, .empty⟩

/-! ## Ingest -/

structure SemanticIndexTarget where
  documentId : String
  versionId : String
deriving DecidableEq

/-- The document version that a record registers, if it is a PUBLIC one. -/
def semanticIndexIngestTarget (record : OutboundV2Record) : Option SemanticIndexTarget :=
  if record.record_type ≠ "document_version" ∨ record.visibility ≠ .PUBLIC then none
  else
    match (record.payload.get? "document").bind (·.get? "document_id"),
        (record.payload.get? "version").bind (·.get? "version_id") with
    | some (.str documentId), some (.str versionId) =>
      if documentId = "" ∨ versionId = "" then none else some ⟨documentId, versionId⟩
    | _, _ => none

/-- `KEEP_READY_CONDITION`: the row is complete for the same content and model. -/
def keepReady (row excluded : SemanticIndexStateRow) : Bool :=
  decide (row.state = .READY ∧ row.confirmed_chunks = row.expected_chunks ∧
    row.confirmed_chunks > 0 ∧ row.content_sha256 = excluded.content_sha256 ∧
    row.model_id = excluded.model_id)

/-- The row of a version that is registered for the first time. -/
def pendingRow (target : SemanticIndexTarget) (contentSha256 : Option String) (now : String) :
    SemanticIndexStateRow where
  document_id := target.documentId
  version_id := target.versionId
  state := .PENDING
  content_sha256 := contentSha256
  model_id := SEMANTIC_MODEL_ID
  title_only := false
  truncated := false
  expected_chunks := 0
  confirmed_chunks := 0
  attempts := 0
  last_error_code := none
  retired_at := none
  vector_deleted_at := none
  registered_at := now
  updated_at := now

/-- What becomes of the row of a version that is registered again. -/
def refreshedRow (excluded row : SemanticIndexStateRow) : SemanticIndexStateRow :=
  { row with
    content_sha256 := excluded.content_sha256
    model_id := excluded.model_id
    retired_at := none
    vector_deleted_at := none
    state := if keepReady row excluded then .READY else .PENDING
    expected_chunks := if keepReady row excluded then row.expected_chunks else 0
    confirmed_chunks := if keepReady row excluded then row.confirmed_chunks else 0
    attempts := if keepReady row excluded then row.attempts else 0
    last_error_code := if keepReady row excluded then row.last_error_code else none
    updated_at := excluded.updated_at }

/-- What becomes of the row of a version that another one supersedes. -/
def supersededRow (now : String) (row : SemanticIndexStateRow) : SemanticIndexStateRow :=
  { row with
    state := .FAILED
    expected_chunks := 0
    confirmed_chunks := 0
    last_error_code := some SEMANTIC_SUPERSEDED_CODE
    retired_at := some now
    updated_at := now }

/-- The rows that an arriving servable version supersedes. -/
def supersedes (target : SemanticIndexTarget) (row : SemanticIndexStateRow) : Bool :=
  decide (row.document_id = target.documentId ∧ row.version_id ≠ target.versionId ∧
    row.retired_at = none)

/-- The effect of `semanticIndexIngestStatements`: register the version, and when it is servable
retire the document's other rows. -/
def semanticIndexIngestStatements
    (rows : Table SemanticIndexStateRow (String ×ₗ String) [fun r => some r.key])
    (record : OutboundV2Record) (now : String) :
    Table SemanticIndexStateRow (String ×ₗ String) [fun r => some r.key] :=
  match semanticIndexIngestTarget record with
  | none => rows
  | some target =>
    let contentSha256 :=
      hexSha256? ((record.payload.get? "version").bind (·.get? "content_sha256"))
    let row := pendingRow target contentSha256 now
    let registered := rows.upsert row (refreshedRow row) fun _ => rfl
    if isVersionServable record.payload then
      registered.modify (supersedes target) (supersededRow now) (by
        intro ix hix r
        rw [List.mem_singleton.1 hix]
        rfl)
    else registered

/-- A non-empty text. -/
def stringField (value : Option Json) : Option String :=
  match value with
  | some (.str s) => if s = "" then none else some s
  | _ => none

/-- The key of a record, or `none` where it is refused (`INTEGRITY_FAILED` for a missing field,
`UNSUPPORTED_OPERATION` for an unknown type). -/
def outboundV2RecordKey (record : OutboundV2Record) : Option String :=
  let payload := record.payload
  match record.record_type with
  | "object" => hexSha256? (payload.get? "content_sha256")
  | "source" => stringField (payload.get? "source_id")
  | "document_version" => stringField ((payload.get? "version").bind (·.get? "version_id"))
  | "evidence" => stringField (payload.get? "evidence_id")
  | "coverage" => stringField (payload.get? "coverage_id")
  | "accumulator" => stringField (payload.get? "snapshot_id")
  | "job" => stringField (payload.get? "job_id")
  | "source_health" => stringField (payload.get? "source_id")
  | "market_signal" => stringField (payload.get? "subject_key")
  | _ => none

/-- Whether the message was ingested before. -/
def isReplay (s : Replica) (messageId : String) : Bool :=
  s.messages.rows.any fun r => r.message_id = messageId

inductive IngestStatus where
  | APPLIED
  | REPLAY
deriving DecidableEq

structure ReplicaIngestResult where
  status : IngestStatus
  message_id : String
  record_type : String
  semantic_target : Option SemanticIndexTarget
deriving DecidableEq

/-- The row of `research_records` that a record leaves, unless it would overwrite version 4 evidence
by an older form of it. -/
def mergeRecord (excluded row : ReplicaRecordRow) : ReplicaRecordRow :=
  if row.record_type = "evidence" ∧ row.schema_version = "collector-outbound-v4" ∧
      excluded.schema_version ≠ "collector-outbound-v4" then row
  else { excluded with record_type := row.record_type, record_key := row.record_key }

theorem mergeRecord_key (excluded row : ReplicaRecordRow) :
    (mergeRecord excluded row).key = row.key := by
  unfold mergeRecord
  split_ifs <;> rfl

theorem mergeRecord_of_ne {row : ReplicaRecordRow} (h : row.record_type ≠ "evidence")
    (excluded : ReplicaRecordRow) : mergeRecord excluded row =
      { excluded with record_type := row.record_type, record_key := row.record_key } :=
  if_neg fun hev => h hev.1

/-- The transaction of an ingest of a record with the key `key`. -/
def ingestBatch (P : Platform) (s : Replica) (record : OutboundV2Record) (key now : String) :
    Replica :=
  let message : IngestMessageRow :=
    { message_id := record.message_id, record_type := record.record_type, record_key := key,
      visibility := record.visibility, payload_sha256 := P.sha256Hex record.payload.canonicalText,
      generated_at := record.generated_at, received_at := now }
  let row : ReplicaRecordRow :=
    { record_type := record.record_type, record_key := key, message_id := record.message_id,
      visibility := record.visibility, schema_version := record.schema_version,
      payload := record.payload, generated_at := record.generated_at, updated_at := now }
  { s with
    messages := s.messages.upsert message id fun _ => rfl
    records := s.records.upsert row (mergeRecord row) (mergeRecord_key row)
    semantic := semanticIndexIngestStatements s.semantic record now }

/-- Store one verified message; `none` where its record has no key. -/
def ingestResearchReplicaRecord (P : Platform) (s : Replica) (record : OutboundV2Record)
    (now : String) : Option ReplicaIngestResult × Replica :=
  match outboundV2RecordKey record with
  | none => (none, s)
  | some key =>
    if isReplay s record.message_id then
      (some ⟨.REPLAY, record.message_id, record.record_type, none⟩, s)
    else
      (some ⟨.APPLIED, record.message_id, record.record_type, semanticIndexIngestTarget record⟩,
        ingestBatch P s record key now)

/-! ## The work queue -/

structure SemanticPendingVersion where
  document_id : String
  version_id : String
  updated_at : String
  content_sha256 : Option String
deriving DecidableEq

structure SemanticPendingPage where
  items : List SemanticPendingVersion
  next : Option (String ×ₗ String)
deriving DecidableEq

/-- `clampInt`; the value is `none` where it is absent or not finite. -/
def clampInt (value : Option Decimal) (fallback min max : ℕ) : ℕ :=
  match value with
  | none => fallback
  | some x => Min.min (Max.max x.trunc min) max |>.toNat

/-- The document is marked EXPIRED by retention. -/
def expiredByRetention (s : Replica) (documentId : String) : Bool :=
  s.retention.rows.any fun r => decide (r.document_id = documentId ∧ r.status = .EXPIRED)

/-- The rows of the work queue in one state. -/
def queuedRows (s : Replica) (state : SemanticState) : List SemanticIndexStateRow :=
  s.semantic.rows.filter fun r =>
    decide (r.state = state ∧ r.retired_at = none) && !expiredByRetention s r.document_id

def SemanticIndexStateRow.pendingVersion (r : SemanticIndexStateRow) : SemanticPendingVersion :=
  ⟨r.document_id, r.version_id, r.updated_at, r.content_sha256⟩

/-- One page of the work queue. -/
def listPendingSemanticVersions (s : Replica) (limit : Option Decimal) (state : SemanticState)
    (after : Option (String ×ₗ String)) : SemanticPendingPage :=
  let state := if state = .READY then .READY else .PENDING
  let page := Keyset.page SemanticIndexStateRow.key (clampInt limit 128 1 128)
    (queuedRows s state) after
  ⟨page.items.map SemanticIndexStateRow.pendingVersion, page.next⟩

/-- The items of at most `fuel` pages, following the cursors. -/
def followPages (s : Replica) (limit : Option Decimal) (state : SemanticState) :
    ℕ → Option (String ×ₗ String) → List SemanticPendingVersion
  | 0, _ => []
  | fuel + 1, after =>
    let page := listPendingSemanticVersions s limit state after
    match page.next with
    | none => page.items
    | some cursor => page.items ++ followPages s limit state fuel (some cursor)

/-! ## The current version -/

structure VersionCandidate where
  versionId : String
  payload : Json
  version : Json
  document : Json

/-- `Number(version.version_number)`, where what is not finite counts as negative infinity. -/
def versionNumber (P : Platform) (version : Json) : WithBot ℚ :=
  match (version.get? "version_number").bind (numberOf P) with
  | none => ⊥
  | some x => (x.value : ℚ)

/-- The comparator of `versionOrdering` does not put `b` before `a`. -/
def precedes (P : Platform) (a b : VersionCandidate) : Bool :=
  let leftValue := versionNumber P a.version
  let rightValue := versionNumber P b.version
  if rightValue ≠ leftValue then decide (rightValue < leftValue)
  else Utf16.le (Utf16.units a.versionId) (Utf16.units b.versionId)

def versionOrdering (P : Platform) (candidates : List VersionCandidate) : List VersionCandidate :=
  candidates.insertionSort fun a b => precedes P a b = true

/-- The `WHERE` clause of `documentVersions`. -/
def ReplicaRecordRow.isVersionOf (row : ReplicaRecordRow) (documentId : String) : Bool :=
  decide (row.record_type = "document_version" ∧ row.visibility = .PUBLIC) &&
    ((row.payload.get? "document").bind (·.get? "document_id")).any fun v =>
      v.str? = some documentId

/-- `payload.field ?? {}`. -/
def objectField (payload : Json) (field : String) : Json :=
  match payload.get? field with
  | none | some .null => .obj []
  | some v => v

/-- The candidate of a stored payload. -/
def versionCandidate (payload : Json) : Option VersionCandidate :=
  match payload with
  | .obj _ =>
    match (objectField payload "version").get? "version_id" with
    | some (.str versionId) =>
      some ⟨versionId, payload, objectField payload "version", objectField payload "document"⟩
    | _ => none
  | _ => none

/-- The versions of a document, in the order in which the search path considers them. -/
def documentVersions (P : Platform) (s : Replica) (documentId : String) : List VersionCandidate :=
  versionOrdering P
    ((s.records.rows.filter (·.isVersionOf documentId)).filterMap (versionCandidate ·.payload))

structure CurrentVersion where
  candidate : Option VersionCandidate
  servable : Bool

/-- The current version: the first servable one, or the first one where none is. -/
def currentVersionCandidate (P : Platform) (s : Replica) (documentId : String) : CurrentVersion :=
  let candidates := documentVersions P s documentId
  match candidates.find? (isVersionServable ·.payload) with
  | some servable => ⟨some servable, true⟩
  | none => ⟨candidates.head?, false⟩

end QuantproCollector.SemanticIndex
