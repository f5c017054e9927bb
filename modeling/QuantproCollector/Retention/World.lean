import QuantproCollector.Lib.Run
import QuantproCollector.SemanticIndex.Store

/-!
# The retention job's world

The replica's tables, the object links of its records and the bucket of their bytes, as ingests and
retention sweeps change them: each D1 statement or batch and each R2 or Vectorize request is one
operation, which can fail before or after it takes effect.

A row's `payload` is the value that its `payload_json` parses to, and the id lists of a retention
row are the lists that its JSON columns hold. The vectors, the health counters, the full-text table
and the audit rows are written and never read here: the operations that write them can fail, and
leave the world as it is.
-/

namespace QuantproCollector.Retention

open Relational Async SemanticIndex

/-! ## The runtime -/

/-- What the retention job takes from its runtime beyond the platform. -/
structure Runtime extends Platform where
  /-- `Date.parse(text)`, or `none` where it is `NaN`. -/
  dateParse : String → Option ℤ
  /-- `new Date(Date.parse(now) - days * 86400000).toISOString()`; `none` where it is invalid. -/
  daysBefore : String → ℕ → Option String

/-! ## SQL values -/

/-- A value that `json_extract` returns, `NULL` apart. -/
inductive SqlValue where
  | number (x : Decimal)
  | text (s : String)
deriving DecidableEq

/-- `json_extract`, of a path that is missing or leads to a value. -/
def jsonExtract : Option Json → Option SqlValue
  | none | some .null => none
  | some (.bool b) => some (.number (.ofInt (if b then 1 else 0)))
  | some (.num x) => some (.number x)
  | some (.str s) => some (.text s)
  | some v => some (.text v.canonicalText)

/-- The order of values: numbers come before texts. -/
def SqlValue.le : SqlValue → SqlValue → Bool
  | .number x, .number y => decide (x.value ≤ y.value)
  | .number _, .text _ => true
  | .text _, .number _ => false
  | .text s, .text t => decide (s ≤ t)

/-- `MIN`, which skips `NULL`. -/
def sqlMin (values : List (Option SqlValue)) : Option SqlValue :=
  (values.filterMap id).foldl (fun acc v =>
    match acc with
    | none => some v
    | some m => if m.le v then some m else some v) none

/-- The text of a value, where it is one. -/
def SqlValue.text? : SqlValue → Option String
  | .number _ => none
  | .text s => some s

/-- The value as JavaScript writes it. -/
def SqlValue.jsText : SqlValue → String
  | .number x => String.ofList x.text
  | .text s => s

/-! ## Rows -/

/-- `json_extract(payload_json, '$.document.document_id')` where it is a text. -/
def documentIdOf (payload : Json) : Option String :=
  (jsonExtract ((payload.get? "document").bind (·.get? "document_id"))).bind SqlValue.text?

/-- A row of `research_record_objects`. -/
structure RecordObjectRow where
  record_type : String
  record_key : String
  role : String
  content_sha256 : String
  visibility : Visibility
deriving DecidableEq

def RecordObjectRow.key (r : RecordObjectRow) : String × String × String × String :=
  (r.record_type, r.record_key, r.role, r.content_sha256)

/-- A row of `research_objects`. -/
structure ObjectRow where
  content_sha256 : String
  message_id : String
  visibility : Visibility
deriving DecidableEq

inductive RetentionReason where
  | AGE_90D
  | SOURCE_E02_GELONGHUI_LIVE
deriving DecidableEq

structure RetentionPurgeDetail where
  document_id : String
  reason : RetentionReason
  versions_deleted : ℕ
  record_object_rows_deleted : ℕ
  object_rows_deleted : ℕ
  object_record_rows_deleted : ℕ
  state_rows_deleted : ℕ
  r2_objects_deleted : ℕ
  r2_journals_deleted : ℕ
  vectors_deleted : ℕ
  objects_kept_shared : ℕ
  versions : List String
  objects_deleted : List String
  objects_kept_shared_hashes : List String
  journals : List String
deriving DecidableEq

/-- A row of `research_document_retention`. -/
structure RetentionRow where
  document_id : String
  source_id : Option SqlValue
  reason : RetentionReason
  first_ingested_at : Option SqlValue
  version_ids : List String
  journal_message_ids : List String
  content_sha256s : List String
  status : RetentionStatus
  marked_at : String
  purged_at : Option String
  purge_detail : Option RetentionPurgeDetail
deriving DecidableEq

/-- The row of `research_replica_usage`. -/
structure ReplicaUsage where
  usage_period : String
  stored_bytes : ℕ
  r2_write_ops : ℕ
deriving DecidableEq

structure World where
  messages : Table IngestMessageRow String [fun r => some r.message_id]
  records : Table ReplicaRecordRow (String × String) [fun r => some r.key]
  semantic : Table SemanticIndexStateRow (String ×ₗ String) [fun r => some r.key]
  links : Table RecordObjectRow (String × String × String × String) [fun r => some r.key]
  objects : Table ObjectRow String [fun r => some r.content_sha256]
  retention : Table RetentionRow String [fun r => some r.document_id]
  /-- The keys of the objects in the bucket. -/
  bucket : List String
  usage : Option ReplicaUsage

/-- Nothing ingested and nothing marked. -/
def World.empty : World := ⟨.empty, .empty, .empty, .empty, .empty, .empty, [], none⟩

/-- The world as the semantic index sees it. -/
def World.replica (w : World) : Replica where
  messages := w.messages
  records := w.records
  semantic := w.semantic
  retention :=
    { rows := w.retention.rows.map fun r => ⟨r.document_id, r.status⟩
      unique := fun ix hix => by
        have h := w.retention.unique _ (List.mem_singleton_self _)
        rw [List.mem_singleton.1 hix]
        exact List.pairwise_map.2 h }

def objectKey (contentSha256 : String) : String :=
  "research-objects/sha256/" ++ contentSha256

def journalKey (messageId : String) : String :=
  "research-replica-journal/v2/" ++ messageId ++ ".json"

theorem objectKey_ne_journalKey (h m : String) : objectKey h ≠ journalKey m := by
  intro heq
  unfold objectKey journalKey at heq
  have hlist := congrArg String.toList heq
  rw [String.toList_append, String.toList_append, String.toList_append, List.append_assoc] at hlist
  -- the two prefixes differ in their tenth character
  have hchar := congrArg (fun l : List Char => l[9]?) hlist
  rw [List.getElem?_append_left (by decide), List.getElem?_append_left (by decide)] at hchar
  exact absurd hchar (by decide)

/-! ## Operations -/

/-- A document of a scan page. -/
structure ScanRow where
  document_id : String
  first_ingested_at : Option SqlValue
  source_id : Option SqlValue
  version_count : ℕ
deriving DecidableEq

structure RetentionCandidate where
  document_id : String
  source_id : Option SqlValue
  first_ingested_at : Option SqlValue
  reason : RetentionReason
  version_count : ℕ
deriving DecidableEq

/-- A document that a dry run reports as awaiting its purge. -/
structure PendingPurge where
  document_id : String
  reason : RetentionReason
  marked_at : String
  version_count : ℕ
deriving DecidableEq

inductive RetentionTrigger where
  | scheduled
  | manual
deriving DecidableEq

structure RetentionRunReport where
  trigger : RetentionTrigger
  dry_run : Bool
  cutoff : String
  scanned_documents : ℕ
  would_mark : List RetentionCandidate
  already_expired_pending_purge : List PendingPurge
  marked_expired : ℕ
  purge_candidates : ℕ
  purged_documents : ℕ
  purge : List RetentionPurgeDetail
  purge_skipped : Option String
deriving DecidableEq

/-- A row of `research_retention_audit`. -/
structure AuditRow where
  run_at : String
  trigger_source : RetentionTrigger
  dry_run : Bool
  document_count : ℕ
  version_count : ℕ
  r2_object_count : ℕ
  vector_count : ℕ
  detail : RetentionRunReport
deriving DecidableEq

/-- Everything that ingests and sweeps ask of D1, R2 and Vectorize. The operations of a purge that
touch shared objects also name the document that is purged, for the statements about runs. -/
inductive Op where
  | scanPage (cursor : String) (limit : ℕ)
  | selectVersions (documentId : String)
  | selectJournals (versionIds : List String)
  | selectHashes (versionIds : List String)
  | insertRetention (row : RetentionRow)
  | retireSemantic (documentId now : String)
  | listExpired (limit : ℕ)
  | countReferences (documentId contentSha256 : String) (versionIds : List String)
  | deleteObject (documentId contentSha256 : String)
  | deleteJournal (messageId : String)
  | deleteLinks (versionIds : List String)
  | deleteVersions (versionIds : List String)
  | deleteObjectRecords (contentSha256s : List String)
  | deleteObjectRow (documentId contentSha256 : String)
  | deleteSemantic (documentId : String)
  | deleteVectors (documentId versionId : String)
  | markPurged (documentId now : String) (detail : RetentionPurgeDetail)
  | insertAudit (row : AuditRow)
  | selectMessage (messageId : String)
  | insertUsage (period : String)
  | resetUsage (period : String)
  | bookUsage (bytes writes : ℕ)
  | putObject (key : String)
  | ingestBatch (record : OutboundV2Record) (key now : String)
  | healthSuccess (messageId now : String) (inserted : Bool)
  | healthFailure (now : String)

/-- What each operation answers; `insertRetention`, `bookUsage` and `ingestBatch` tell whether their
statement changed a row, the deletes and `markPurged` how many rows they changed. -/
abbrev Res : Op → Type
  | .scanPage .. => List ScanRow
  | .selectVersions _ => List (String × String)
  | .selectJournals _ => List String
  | .selectHashes _ => List String
  | .insertRetention _ => Bool
  | .retireSemantic .. => Unit
  | .listExpired _ => List RetentionRow
  | .countReferences .. => ℕ
  | .deleteObject .. => Unit
  | .deleteJournal _ => Unit
  | .deleteLinks _ => ℕ
  | .deleteVersions _ => ℕ
  | .deleteObjectRecords _ => ℕ
  | .deleteObjectRow .. => ℕ
  | .deleteSemantic _ => ℕ
  | .deleteVectors .. => Unit
  | .markPurged .. => ℕ
  | .insertAudit _ => Unit
  | .selectMessage _ => Bool
  | .insertUsage _ => Unit
  | .resetUsage _ => Unit
  | .bookUsage .. => Bool
  | .putObject _ => Unit
  | .ingestBatch .. => Bool
  | .healthSuccess .. => Unit
  | .healthFailure _ => Unit

inductive BoundaryCode where
  | INTEGRITY_FAILED
  | RATE_LIMITED
  | STORE_UNAVAILABLE
deriving DecidableEq

/-- What ingests and sweeps can throw; `raw` is any error of the runtime or of its stores. -/
inductive Thrown where
  | boundary (code : BoundaryCode)
  | raw
deriving DecidableEq

/-- A program of the replica's ingest or of the retention job. -/
abbrev Program (α : Type) := Script Thrown Op Res α

/-! ## The scan -/

/-- A stored PUBLIC document version. -/
def publicVersion (r : ReplicaRecordRow) : Bool :=
  decide (r.record_type = "document_version" ∧ r.visibility = .PUBLIC)

/-- The PUBLIC versions that name a document. -/
def versionsOf (w : World) (documentId : String) : List ReplicaRecordRow :=
  w.records.rows.filter fun r => publicVersion r && decide (documentIdOf r.payload = some documentId)

def expired (w : World) (documentId : String) : Bool :=
  w.retention.rows.any fun r => decide (r.document_id = documentId ∧ r.status = .EXPIRED)

/-- The documents of PUBLIC versions, in order, those marked EXPIRED left out. -/
def scannedDocuments (w : World) : List String :=
  ((w.records.rows.filter publicVersion).filterMap (documentIdOf ·.payload)).dedup.insertionSort
    (· ≤ ·) |>.filter fun d => !expired w d

/-- `FIRST_INGESTED_AT_SQL` of a version joined with its ingest messages. -/
def ingestedAt (w : World) (r : ReplicaRecordRow) : List (Option SqlValue) :=
  let declared := jsonExtract ((r.payload.get? "version").bind (·.get? "ingested_at"))
  match w.messages.rows.filter fun m =>
      decide (m.record_type = "document_version" ∧ m.record_key = r.record_key) with
  | [] => [declared <|> some (.text r.updated_at)]
  | ingests => ingests.map fun m => declared <|> some (.text m.received_at)

/-- The group of a document. -/
def scanRow (w : World) (documentId : String) : ScanRow :=
  let joined := (versionsOf w documentId).flatMap fun r => (ingestedAt w r).map (r, ·)
  { document_id := documentId
    first_ingested_at := sqlMin (joined.map (·.2))
    source_id := sqlMin (joined.map fun x =>
      jsonExtract ((x.1.payload.get? "document").bind (·.get? "source_id")))
    version_count := joined.length }

/-- One page of the scan. -/
def scanPage (w : World) (cursor : String) (limit : ℕ) : List ScanRow :=
  (((scannedDocuments w).filter fun d => decide (cursor < d)).take limit).map (scanRow w)

/-! ## Statements -/

/-- The EXPIRED rows, oldest mark first. -/
def expiredRows (w : World) : List RetentionRow :=
  (w.retention.rows.filter fun r => decide (r.status = .EXPIRED)).insertionSort fun a b =>
    a.marked_at < b.marked_at ∨ a.marked_at = b.marked_at ∧ a.document_id ≤ b.document_id

/-- The rows that link a content hash to a record outside a list of versions. -/
def foreignLinks (w : World) (contentSha256 : String) (versionIds : List String) :
    List RecordObjectRow :=
  w.links.rows.filter fun l =>
    decide (l.content_sha256 = contentSha256 ∧ l.record_key ∉ versionIds)

/-- The links of document versions with one of the keys. -/
def linkOf (versionIds : List String) (l : RecordObjectRow) : Bool :=
  decide (l.record_type = "document_version" ∧ l.record_key ∈ versionIds)

/-- The PUBLIC document versions with one of the keys. -/
def versionIn (versionIds : List String) (r : ReplicaRecordRow) : Bool :=
  decide (r.record_type = "document_version" ∧ r.visibility = .PUBLIC ∧ r.record_key ∈ versionIds)

def objectRecordIn (contentSha256s : List String) (r : ReplicaRecordRow) : Bool :=
  decide (r.record_type = "object" ∧ r.record_key ∈ contentSha256s)

def RETENTION_EXPIRED_ERROR_CODE : String := "EXPIRED_RETENTION"

/-- What becomes of the semantic row of an expired document. -/
def retiredRow (now : String) (r : SemanticIndexStateRow) : SemanticIndexStateRow :=
  { r with
    state := .FAILED
    expected_chunks := 0
    confirmed_chunks := 0
    last_error_code := some RETENTION_EXPIRED_ERROR_CODE
    retired_at := r.retired_at <|> some now
    updated_at := now }

def World.retireSemantic (w : World) (documentId now : String) : World :=
  { w with
    semantic := w.semantic.modify (fun r => decide (r.document_id = documentId)) (retiredRow now) (by
      intro ix hix r
      rw [List.mem_singleton.1 hix]
      rfl) }

/-- `INSERT … ON CONFLICT(document_id) DO NOTHING`. -/
def World.insertRetention (w : World) (row : RetentionRow) : World :=
  { w with retention := w.retention.upsert row id fun _ => rfl }

def pendingPurge (documentId : String) (r : RetentionRow) : Bool :=
  decide (r.document_id = documentId ∧ r.status = .EXPIRED)

def World.markPurged (w : World) (documentId now : String) (detail : RetentionPurgeDetail) : World :=
  { w with
    retention := w.retention.modify (pendingPurge documentId)
      (fun r => { r with status := .PURGED, purged_at := some now, purge_detail := some detail }) (by
        intro ix hix r
        rw [List.mem_singleton.1 hix]) }

/-! ## Ingest -/

/-- The objects that a document version refers to, with the role of each. -/
def documentObjectLinks (record : OutboundV2Record) : List (String × String) :=
  if record.record_type ≠ "document_version" then []
  else
    let jsString := fun (v : Option Json) => match v with
      | none => "undefined"
      | some v => v.text
    let attachments := match record.payload.get? "attachments" with
      | some (.arr xs) => xs
      | _ => []
    ("document_body", jsString ((record.payload.get? "version").bind (·.get? "content_sha256"))) ::
      attachments.map fun attachment =>
        ("attachment:" ++ jsString (attachment.get? "attachment_id"),
          jsString (attachment.get? "content_sha256"))

def objectContentHash (record : OutboundV2Record) : Option String :=
  if record.record_type = "object" then
    match record.payload.get? "content_sha256" with
    | none => some "undefined"
    | some v => some v.text
  else none

def linkRow (record : OutboundV2Record) (key : String) (link : String × String) : RecordObjectRow :=
  ⟨record.record_type, key, link.1, link.2, record.visibility⟩

def World.insertLink (w : World) (row : RecordObjectRow) : World :=
  { w with
    links := w.links.upsert row (fun r => { r with visibility := row.visibility }) fun _ => rfl }

/-- The row of an ingested object, in place of an older one. -/
def World.insertObject (w : World) (row : ObjectRow) : World :=
  { w with
    objects := w.objects.upsert row
      (fun r => { r with message_id := row.message_id, visibility := row.visibility }) fun _ => rfl }

/-- The transaction of an ingest: the message, the record, its object, its links and its semantic
row. -/
def World.ingestBatch (P : Runtime) (w : World) (record : OutboundV2Record) (key now : String) :
    World :=
  let s := SemanticIndex.ingestBatch P.toPlatform w.replica record key now
  let stored :=
    { w with messages := s.messages, records := s.records, semantic := s.semantic }
  let withObject := match objectContentHash record with
    | none => stored
    | some hash => stored.insertObject ⟨hash, record.message_id, record.visibility⟩
  (documentObjectLinks record).foldl (fun w link => w.insertLink (linkRow record key link)) withObject

def RESEARCH_REPLICA_MAX_STORED_BYTES : ℕ := 9800000000
def RESEARCH_REPLICA_MAX_MONTHLY_R2_WRITES : ℕ := 990000

/-- The usage leaves room for the bytes and the writes. -/
def ReplicaUsage.admits (u : ReplicaUsage) (bytes writes : ℕ) : Bool :=
  decide (u.stored_bytes + bytes ≤ RESEARCH_REPLICA_MAX_STORED_BYTES ∧
    u.r2_write_ops + writes ≤ RESEARCH_REPLICA_MAX_MONTHLY_R2_WRITES)

def ReplicaUsage.book (u : ReplicaUsage) (bytes writes : ℕ) : ReplicaUsage :=
  if u.admits bytes writes then
    { u with stored_bytes := u.stored_bytes + bytes, r2_write_ops := u.r2_write_ops + writes }
  else u

/-! ## The machine -/

/-- What an operation answers. -/
def answer : (op : Op) → World → Res op
  | .scanPage cursor limit, w => scanPage w cursor limit
  | .selectVersions documentId, w => (versionsOf w documentId).map fun r => (r.record_key, r.message_id)
  | .selectJournals versionIds, w =>
    ((w.messages.rows.filter fun m =>
      decide (m.record_type = "document_version" ∧ m.record_key ∈ versionIds)).map
        (·.message_id)).dedup
  | .selectHashes versionIds, w => ((w.links.rows.filter (linkOf versionIds)).map (·.content_sha256)).dedup
  | .insertRetention row, w => !w.retention.rows.any fun r => r.document_id = row.document_id
  | .retireSemantic .., _ => ()
  | .listExpired limit, w => (expiredRows w).take limit
  | .countReferences _ contentSha256 versionIds, w => (foreignLinks w contentSha256 versionIds).length
  | .deleteObject .., _ => ()
  | .deleteJournal _, _ => ()
  | .deleteLinks versionIds, w => (w.links.rows.filter (linkOf versionIds)).length
  | .deleteVersions versionIds, w => (w.records.rows.filter (versionIn versionIds)).length
  | .deleteObjectRecords hashes, w => (w.records.rows.filter (objectRecordIn hashes)).length
  | .deleteObjectRow _ hash, w => (w.objects.rows.filter fun r => r.content_sha256 = hash).length
  | .deleteSemantic documentId, w =>
    (w.semantic.rows.filter fun r => r.document_id = documentId).length
  | .deleteVectors .., _ => ()
  | .markPurged documentId .., w => (w.retention.rows.filter (pendingPurge documentId)).length
  | .insertAudit _, _ => ()
  | .selectMessage messageId, w => w.messages.rows.any fun r => r.message_id = messageId
  | .insertUsage _, _ => ()
  | .resetUsage _, _ => ()
  | .bookUsage bytes writes, w => w.usage.any (·.admits bytes writes)
  | .putObject _, _ => ()
  | .ingestBatch record .., w => !w.messages.rows.any fun r => r.message_id = record.message_id
  | .healthSuccess .., _ => ()
  | .healthFailure _, _ => ()

/-- What an operation makes of the world. -/
def effect (P : Runtime) : Op → World → World
  | .insertRetention row, w => w.insertRetention row
  | .retireSemantic documentId now, w => w.retireSemantic documentId now
  | .deleteObject _ hash, w => { w with bucket := w.bucket.filter (· ≠ objectKey hash) }
  | .deleteJournal messageId, w => { w with bucket := w.bucket.filter (· ≠ journalKey messageId) }
  | .deleteLinks versionIds, w => { w with links := w.links.deleteWhere (linkOf versionIds) }
  | .deleteVersions versionIds, w =>
    { w with records := w.records.deleteWhere (versionIn versionIds) }
  | .deleteObjectRecords hashes, w =>
    { w with records := w.records.deleteWhere (objectRecordIn hashes) }
  | .deleteObjectRow _ hash, w =>
    { w with objects := w.objects.deleteWhere fun r => r.content_sha256 = hash }
  | .deleteSemantic documentId, w =>
    { w with semantic := w.semantic.deleteWhere fun r => r.document_id = documentId }
  | .markPurged documentId now detail, w => w.markPurged documentId now detail
  | .insertUsage period, w => { w with usage := some (w.usage.getD ⟨period, 0, 0⟩) }
  | .resetUsage period, w =>
    { w with
      usage := w.usage.map fun u =>
        if u.usage_period = period then u else { u with usage_period := period, r2_write_ops := 0 } }
  | .bookUsage bytes writes, w => { w with usage := w.usage.map (·.book bytes writes) }
  | .putObject key, w => { w with bucket := key :: w.bucket.filter (· ≠ key) }
  | .ingestBatch record key now, w => w.ingestBatch P record key now
  | _, w => w

/-- Whether and where an operation fails. -/
inductive Fault where
  | none
  | before
  | after
deriving DecidableEq

def perform (P : Runtime) (f : Fault) (op : Op) (w : World) : Except Thrown (Res op) × World :=
  match f with
  | .none => (.ok (answer op w), effect P op w)
  | .before => (.error .raw, w)
  | .after => (.error .raw, effect P op w)

def machine (P : Runtime) : Machine Thrown Op Res World Fault where
  perform := perform P

@[simp] theorem machine_perform (P : Runtime) (f : Fault) (op : Op) (w : World) :
    (machine P).perform f op w = perform P f op w := rfl

/-- An operation leaves the world, or has its effect. -/
theorem perform_world (P : Runtime) (f : Fault) (op : Op) (w : World) :
    (perform P f op w).2 = w ∨ (perform P f op w).2 = effect P op w := by
  cases f
  · exact .inr rfl
  · exact .inl rfl
  · exact .inr rfl

end QuantproCollector.Retention
