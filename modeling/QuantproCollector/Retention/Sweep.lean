import QuantproCollector.Retention.World

/-!
# Ingests and retention sweeps

`ingestResearchReplicaRecord` and `runRetentionSweep` as programs over the operations of the
retention world. A sweep takes its time as a parameter, and so does an ingest; both read the clock
once, before their first operation, when their caller gives none.
-/

namespace QuantproCollector.Retention

open Relational Async SemanticIndex

def PARAM_CHUNK : ℕ := 50
def RETENTION_DAYS : ℕ := 90
def RETENTION_SCAN_PAGE : ℕ := 200
def RETENTION_SCAN_MAX_PAGES : ℕ := 10
def RETENTION_MARK_PAGE : ℕ := 100
def RETENTION_MARK_PAGE_MAX : ℕ := 500
def RETENTION_PURGE_PAGE : ℕ := 20
def RETENTION_PURGE_PAGE_MAX : ℕ := 100
def SEMANTIC_MAX_CHUNKS : ℕ := 32
def RETENTION_FORCE_EXPIRED_SOURCE_IDS : List String := ["E02-gelonghui-live"]

def integrityFailure {α : Type} : Program α := throw (Thrown.boundary .INTEGRITY_FAILED)

/-! ## Statements in chunks -/

/-- The slices of `PARAM_CHUNK` values, in order. -/
def slices (values : List String) : List (List String) :=
  (List.range ((values.length + PARAM_CHUNK - 1) / PARAM_CHUNK)).map fun i =>
    (values.drop (i * PARAM_CHUNK)).take PARAM_CHUNK

/-- The rows of one statement after the other. -/
def gather {α : Type} (statement : List String → Program (List α)) :
    List (List String) → Program (List α)
  | [] => pure []
  | slice :: rest => do
    let rows ← statement slice
    let more ← gather statement rest
    pure (rows ++ more)

def chunkedAll {α : Type} (statement : List String → Program (List α)) (values : List String) :
    Program (List α) :=
  gather statement (slices values)

/-- The rows that one statement after the other changed. -/
def runSlices (statement : List String → Program ℕ) : List (List String) → Program ℕ
  | [] => pure 0
  | slice :: rest => do
    let changes ← statement slice
    let more ← runSlices statement rest
    pure (changes + more)

/-! ## The scan -/

def retentionCutoff (P : Runtime) (now : String) : Except Thrown String :=
  match P.daysBefore now RETENTION_DAYS with
  | none => .error (.boundary .INTEGRITY_FAILED)
  | some cutoff => .ok cutoff

/-- Why a document is expired at a cutoff, if it is. -/
def retentionExpiryReason (P : Runtime) (sourceId firstIngestedAt : Option SqlValue)
    (cutoff : String) : Option RetentionReason :=
  if ∃ s ∈ sourceId.bind SqlValue.text?, s ∈ RETENTION_FORCE_EXPIRED_SOURCE_IDS then
    some .SOURCE_E02_GELONGHUI_LIVE
  else
    match P.dateParse ((firstIngestedAt.map SqlValue.jsText).getD "") with
    | none => none
    | some timestamp =>
      match P.dateParse cutoff with
      | none => none
      | some limit => if timestamp < limit then some .AGE_90D else none

/-- The candidate of a scanned document that is expired. -/
def candidateOf (P : Runtime) (cutoff : String) (row : ScanRow) : Option RetentionCandidate :=
  (retentionExpiryReason P row.source_id row.first_ingested_at cutoff).map fun reason =>
    ⟨row.document_id, row.source_id, row.first_ingested_at, reason, row.version_count⟩

structure ScanResult where
  candidates : List RetentionCandidate
  scanned : ℕ
deriving DecidableEq

/-- The remaining pages of a scan, after the candidates that the earlier ones gave. -/
def scanPages (P : Runtime) (cutoff : String) (limit : ℕ) :
    ℕ → String → List RetentionCandidate → ℕ → Program ScanResult
  | 0, _, candidates, scanned => pure ⟨candidates, scanned⟩
  | pages + 1, cursor, candidates, scanned => do
    let rows ← Script.perform (Op.scanPage cursor RETENTION_SCAN_PAGE)
    match rows.getLast? with
    | none => pure ⟨candidates, scanned⟩
    | some last =>
      let scanned := scanned + rows.length
      let found := candidates ++ rows.filterMap (candidateOf P cutoff)
      if limit ≤ found.length then pure ⟨found.take limit, scanned⟩
      else if rows.length < RETENTION_SCAN_PAGE then pure ⟨found, scanned⟩
      else scanPages P cutoff limit pages last.document_id found scanned

def scanRetentionCandidates (P : Runtime) (now : String) (limit : Option Decimal) :
    Program ScanResult := do
  let cutoff ← match retentionCutoff P now with
    | .ok cutoff => pure cutoff
    | .error e => throw e
  scanPages P cutoff (clampInt limit RETENTION_MARK_PAGE 1 RETENTION_MARK_PAGE_MAX)
    RETENTION_SCAN_MAX_PAGES "" [] 0

/-! ## Marking -/

structure MarkedVersionCapture where
  version_ids : List String
  journal_message_ids : List String
  content_sha256s : List String

def captureVersions (documentId : String) : Program MarkedVersionCapture := do
  let versionRows ← Script.perform (Op.selectVersions documentId)
  let versionIds := versionRows.map (·.1)
  let journalRows ← chunkedAll (fun slice => Script.perform (Op.selectJournals slice)) versionIds
  let hashRows ← chunkedAll (fun slice => Script.perform (Op.selectHashes slice)) versionIds
  pure ⟨versionIds, journalRows, hashRows⟩

/-- The retention row of a candidate. -/
def retentionRow (candidate : RetentionCandidate) (capture : MarkedVersionCapture) (now : String) :
    RetentionRow where
  document_id := candidate.document_id
  source_id := candidate.source_id
  reason := candidate.reason
  first_ingested_at := candidate.first_ingested_at
  version_ids := capture.version_ids
  journal_message_ids := capture.journal_message_ids
  content_sha256s := capture.content_sha256s
  status := .EXPIRED
  marked_at := now
  purged_at := none
  purge_detail := none

def markExpiredDocument (candidate : RetentionCandidate) (now : String) : Program Bool := do
  let capture ← captureVersions candidate.document_id
  let inserted ← Script.perform (Op.insertRetention (retentionRow candidate capture now))
  Script.perform (Op.retireSemantic candidate.document_id now)
  pure inserted

/-- Mark the candidates; the number of those whose row was inserted. -/
def markCandidates (now : String) : List RetentionCandidate → Program ℕ
  | [] => pure 0
  | candidate :: rest => do
    let marked ← markExpiredDocument candidate now
    let more ← markCandidates now rest
    pure ((if marked then 1 else 0) + more)

/-! ## Purging -/

structure ObjectPurge where
  deleted : List String
  kept : List String

/-- Delete the content objects that no record outside the purged versions refers to. -/
def purgeObjects (documentId : String) (versionIds : List String) :
    List String → Program ObjectPurge
  | [] => pure ⟨[], []⟩
  | contentSha256 :: rest => do
    let references ← chunkedAll (fun slice => do
      let count ← Script.perform (Op.countReferences documentId contentSha256 slice)
      pure [count]) versionIds
    if 0 < references.sum then
      let more ← purgeObjects documentId versionIds rest
      pure { more with kept := contentSha256 :: more.kept }
    else
      Script.perform (Op.deleteObject documentId contentSha256)
      let more ← purgeObjects documentId versionIds rest
      pure { more with deleted := contentSha256 :: more.deleted }

def purgeJournals : List String → Program Unit
  | [] => pure ()
  | messageId :: rest => do
    Script.perform (Op.deleteJournal messageId)
    purgeJournals rest

/-- Delete the metadata rows of the deleted objects; the number of rows deleted. -/
def purgeObjectRows (documentId : String) : List String → Program ℕ
  | [] => pure 0
  | contentSha256 :: rest => do
    let changes ← Script.perform (Op.deleteObjectRow documentId contentSha256)
    let more ← purgeObjectRows documentId rest
    pure (changes + more)

/-- Reclaim the vectors of the versions; the number of vector ids. -/
def purgeVectors (documentId : String) : List String → Program ℕ
  | [] => pure 0
  | versionId :: rest => do
    Script.perform (Op.deleteVectors documentId versionId)
    let more ← purgeVectors documentId rest
    pure (SEMANTIC_MAX_CHUNKS + more)

/-- The rest of a purge, after its content objects. -/
def purgeRecords (row : RetentionRow) (now : String) (objects : ObjectPurge) :
    Program RetentionPurgeDetail := do
  purgeJournals row.journal_message_ids
  let links ← runSlices (fun slice => Script.perform (Op.deleteLinks slice)) (slices row.version_ids)
  let versions ←
    runSlices (fun slice => Script.perform (Op.deleteVersions slice)) (slices row.version_ids)
  let records ←
    runSlices (fun slice => Script.perform (Op.deleteObjectRecords slice)) (slices objects.deleted)
  let rows ← purgeObjectRows row.document_id objects.deleted
  let states ← Script.perform (Op.deleteSemantic row.document_id)
  let vectors ← purgeVectors row.document_id row.version_ids
  let detail : RetentionPurgeDetail :=
    { document_id := row.document_id
      reason := row.reason
      versions_deleted := versions
      record_object_rows_deleted := links
      object_rows_deleted := rows
      object_record_rows_deleted := records
      state_rows_deleted := states
      r2_objects_deleted := objects.deleted.length
      r2_journals_deleted := row.journal_message_ids.length
      vectors_deleted := vectors
      objects_kept_shared := objects.kept.length
      versions := row.version_ids
      objects_deleted := objects.deleted
      objects_kept_shared_hashes := objects.kept
      journals := row.journal_message_ids }
  let flipped ← Script.perform (Op.markPurged row.document_id now detail)
  if flipped ≠ 1 then integrityFailure
  pure detail

def purgeExpiredDocument (row : RetentionRow) (now : String) : Program RetentionPurgeDetail := do
  let objects ← purgeObjects row.document_id row.version_ids row.content_sha256s
  purgeRecords row now objects

def purgeDocuments (now : String) : List RetentionRow → Program (List RetentionPurgeDetail)
  | [] => pure []
  | row :: rest => do
    let detail ← purgeExpiredDocument row now
    let more ← purgeDocuments now rest
    pure (detail :: more)

/-! ## One run -/

/-- The audit row of a report. -/
def auditRow (report : RetentionRunReport) (now : String) : AuditRow where
  run_at := now
  trigger_source := report.trigger
  dry_run := report.dry_run
  document_count :=
    if report.dry_run then
      report.would_mark.length + report.already_expired_pending_purge.length
    else report.marked_expired + report.purged_documents
  version_count :=
    if report.dry_run then
      (report.would_mark.map (·.version_count)).sum +
        (report.already_expired_pending_purge.map (·.version_count)).sum
    else (report.purge.map (·.versions_deleted)).sum
  r2_object_count := (report.purge.map (·.r2_objects_deleted)).sum
  vector_count := (report.purge.map (·.vectors_deleted)).sum
  detail := report

structure SweepOptions where
  trigger : RetentionTrigger
  dryRun : Bool
  maxMark : Option Decimal
  maxPurge : Option Decimal
  /-- The Vectorize binding is there. -/
  index : Bool

/-- `boundaryFailure`: a boundary error as it is, any other as `STORE_UNAVAILABLE`. -/
def boundaryFailure {α : Type} : Thrown → Program α
  | .boundary code => throw (Thrown.boundary code)
  | .raw => throw (Thrown.boundary .STORE_UNAVAILABLE)

/-- The body of a run at a cutoff. -/
def sweep (P : Runtime) (options : SweepOptions) (now cutoff : String) :
    Program RetentionRunReport := do
  let maxMark := clampInt options.maxMark RETENTION_MARK_PAGE 1 RETENTION_MARK_PAGE_MAX
  let maxPurge := clampInt options.maxPurge RETENTION_PURGE_PAGE 1 RETENTION_PURGE_PAGE_MAX
  let report : RetentionRunReport :=
    { trigger := options.trigger
      dry_run := options.dryRun
      cutoff := cutoff
      scanned_documents := 0
      would_mark := []
      already_expired_pending_purge := []
      marked_expired := 0
      purge_candidates := 0
      purged_documents := 0
      purge := []
      purge_skipped := none }
  let scan ← scanRetentionCandidates P now (some (.ofInt maxMark))
  let report := { report with scanned_documents := scan.scanned }
  if options.dryRun then
    let pending ← Script.perform (Op.listExpired maxPurge)
    let report :=
      { report with
        would_mark := scan.candidates
        already_expired_pending_purge :=
          pending.map fun r => ⟨r.document_id, r.reason, r.marked_at, r.version_ids.length⟩ }
    Script.perform (Op.insertAudit (auditRow report now))
    pure report
  else
    let marked ← markCandidates now scan.candidates
    let purgeable ← Script.perform (Op.listExpired maxPurge)
    let report :=
      { report with marked_expired := marked, purge_candidates := purgeable.length }
    let report ←
      if options.index then do
        let purged ← purgeDocuments now purgeable
        pure { report with purge := purged, purged_documents := purged.length }
      else pure { report with purge_skipped := some "VECTORIZE_BINDING_UNAVAILABLE" }
    Script.perform (Op.insertAudit (auditRow report now))
    pure report

/-- One bounded retention run. -/
def runRetentionSweep (P : Runtime) (options : SweepOptions) (now : String) :
    Program RetentionRunReport :=
  match retentionCutoff P now with
  | .error e => throw e
  | .ok cutoff => tryCatch (sweep P options now cutoff) boundaryFailure

/-! ## Ingest -/

/-- Four digits, a dash, two digits, a dash, two digits and a `T`. -/
def isDatePrefix (cs : List Char) : Bool :=
  match cs with
  | y1 :: y2 :: y3 :: y4 :: d1 :: m1 :: m2 :: d2 :: a :: b :: t :: _ =>
    [y1, y2, y3, y4, m1, m2, a, b].all Char.isDigit && d1 = '-' && d2 = '-' && t = 'T'
  | _ => false

/-- The month of a timestamp. -/
def usagePeriod (now : String) : Program String :=
  if isDatePrefix now.toList then pure (String.ofList (now.toList.take 7)) else integrityFailure

def reserveR2Quota (bytes writes : ℕ) (now : String) : Program Unit := do
  let period ← usagePeriod now
  Script.perform (Op.insertUsage period)
  Script.perform (Op.resetUsage period)
  let booked ← Script.perform (Op.bookUsage bytes writes)
  if booked then pure () else throw (Thrown.boundary .RATE_LIMITED)

def visibilityName : Visibility → String
  | .PUBLIC => "PUBLIC"
  | .PRIVATE => "PRIVATE"

/-- The envelope of a record. -/
def envelopeJson (record : OutboundV2Record) : Json :=
  .obj [("record_type", .str record.record_type), ("message_id", .str record.message_id),
    ("schema_version", .str record.schema_version), ("policy_version", .str record.policy_version),
    ("visibility", .str (visibilityName record.visibility)), ("payload", record.payload),
    ("generated_at", record.generated_at.elim .null .str)]

/-- The length of the journal, the canonical text of the envelope, in bytes. -/
def journalBytes (record : OutboundV2Record) : ℕ :=
  (((envelopeJson record).canonicalize Json.keyLe).chars.map Char.utf8Size).sum

structure IngestResult where
  status : IngestStatus
  message_id : String
  record_type : String
  content_sha256 : Option String
  semantic_target : Option SemanticIndexTarget
deriving DecidableEq

/-- The writes of an ingest, under its key. -/
def ingestWrites (record : OutboundV2Record) (bodyBytes : ℕ) (key now : String) :
    Program IngestResult := do
  let contentSha256 := objectContentHash record
  let replay ← Script.perform (Op.selectMessage record.message_id)
  if replay then
    pure ⟨.REPLAY, record.message_id, record.record_type, contentSha256, none⟩
  else
    reserveR2Quota (journalBytes record + bodyBytes) (if contentSha256.isSome then 2 else 1) now
    Script.perform (Op.putObject (journalKey record.message_id))
    match contentSha256 with
    | none => pure ()
    | some hash => Script.perform (Op.putObject (objectKey hash))
    let inserted ← Script.perform (Op.ingestBatch record key now)
    Script.perform (Op.healthSuccess record.message_id now inserted)
    pure ⟨if inserted then .APPLIED else .REPLAY, record.message_id, record.record_type,
      contentSha256, semanticIndexIngestTarget record⟩

/-- A boundary error as it is; any other is noted in the health row and becomes
`STORE_UNAVAILABLE`. -/
def ingestFailure (now : String) : Thrown → Program IngestResult
  | .boundary code => throw (Thrown.boundary code)
  | .raw => do
    tryCatch (Script.perform (Op.healthFailure now)) fun _ => pure ()
    throw (Thrown.boundary .STORE_UNAVAILABLE)

/-- Store one verified record whose object body, if it has one, has the given length. -/
def ingestResearchReplicaRecord (record : OutboundV2Record) (bodyBytes : ℕ) (now : String) :
    Program IngestResult :=
  match outboundV2RecordKey record with
  | none => integrityFailure
  | some key => tryCatch (ingestWrites record bodyBytes key now) (ingestFailure now)

/-! ## Threads -/

/-- What one caller runs. -/
inductive Task where
  | ingest (record : OutboundV2Record) (bodyBytes : ℕ) (now : String)
  | sweep (options : SweepOptions) (now : String)

def Task.program (P : Runtime) : Task → Program Unit
  | .ingest record bodyBytes now => do
    let _ ← ingestResearchReplicaRecord record bodyBytes now
    pure ()
  | .sweep options now => do
    let _ ← runRetentionSweep P options now
    pure ()

end QuantproCollector.Retention
