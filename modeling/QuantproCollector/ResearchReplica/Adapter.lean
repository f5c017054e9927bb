import QuantproCollector.ResearchReplica.Accumulators
import QuantproCollector.SemanticIndex.Search

/-!
# The PUBLIC read adapter

The reads of `CollectorResearchRemoteAdapter` for PUBLIC visibility, over the tables of the replica, the
objects, the search index and the tables of the jobs.
-/

namespace QuantproCollector.ResearchReplica

open SemanticIndex Relational Calendar

/-- What the adapter takes from its runtime and from D1. -/
structure AdapterRuntime extends DateRuntime, Search.SearchRuntime where
  /-- `text MATCH query` of the trigram index. -/
  ftsMatch : String → String → Bool
  /-- `lower(title) LIKE pattern`, on the title of a payload. -/
  titleLike : Option Json → String → Bool
  toLocaleLowerCase : String → String

def AdapterRuntime.toReadRuntime (R : AdapterRuntime) : ReadRuntime where
  toPlatform := R.toPlatform
  digest := R.digest
  decode := R.decode

/-- A row of `research_documents_fts`. -/
structure FtsRow where
  record_key : String
  document_id : String
  text : String
deriving DecidableEq

structure LeaseRow where
  job_id : String
  lease_owner : String
  lease_expires_at : String
deriving DecidableEq

structure ProposalRow where
  job_id : String
  proposal_id : String
  origin : String
  status : String
  created_at : String
  payload : Json
deriving DecidableEq

/-- The tables of the jobs, which no ingest writes. -/
structure JobTables where
  /-- `job_id` and `terminal_status`. -/
  terminals : List (String × String)
  leases : List LeaseRow
  proposals : List ProposalRow

/-- What the adapter reads. -/
structure ReplicaWorld where
  replica : Replica
  objects : String → Option (List UInt8)
  fts : List FtsRow
  jobs : JobTables

/-- The error of a read of the adapter. -/
abbrev AdapterError := SemanticIndex.ReadError

/-! ## Rows -/

def boundedLimit (value : Option Decimal) : Except AdapterError ℕ :=
  match value with
  | none => .ok 50
  | some x =>
    if !x.isInteger || decide (x.toInt < 1) || decide (100 < x.toInt) then .error .INTEGRITY_FAILED
    else .ok x.toInt.toNat

/-- `recordView`, which adds no more than the name of the replica to the row. -/
def recordView (row : ReplicaRecordRow) : Except AdapterError ReplicaRecordRow :=
  match row.payload with
  | .obj _ => .ok row
  | _ => .error .INTEGRITY_FAILED

/-- `ORDER BY updated_at DESC LIMIT`; rows of one time stay as they are stored. -/
def newestFirst (rows : List ReplicaRecordRow) (limit : ℕ) : List ReplicaRecordRow :=
  (rows.insertionSort fun a b => b.updated_at ≤ a.updated_at).take limit

def isPublicOf (recordType : String) (row : ReplicaRecordRow) : Bool :=
  decide (row.record_type = recordType) && decide (row.visibility = .PUBLIC)

def records (w : ReplicaWorld) (recordType : String) (limit : Option Decimal) :
    Except AdapterError (List ReplicaRecordRow) := do
  let limit ← boundedLimit limit
  return newestFirst (w.replica.records.rows.filter (isPublicOf recordType)) limit

def recordByKey (w : ReplicaWorld) (recordType recordKey : String) :
    Except AdapterError ReplicaRecordRow :=
  if recordKey = "" then .error .INTEGRITY_FAILED
  else
    match w.replica.records.rows.find? fun row =>
        isPublicOf recordType row && decide (row.record_key = recordKey) with
    | none => .error .NOT_FOUND
    | some row => .ok row

/-! ## Documents -/

def FTS_TRIGRAM_MIN : ℕ := 3

/-- The needle as a quoted phrase. -/
def ftsPhraseQuery (needle : String) : String :=
  let trimmed := trim needle
  if trimmed = "" then ""
  else
    String.ofList
      ('"' :: trimmed.toList.flatMap (fun c => if c = '"' then ['"', '"'] else [c]) ++ ['"'])

/-- The document of the row is not EXPIRED. -/
def notExpired (w : ReplicaWorld) (row : ReplicaRecordRow) : Bool :=
  !((row.payload.get? "document").bind (·.get? "document_id")).any fun v =>
    v.str?.any (expiredByRetention w.replica)

/-- The condition of a search on a row: the trigram index, or the title. -/
def matchesNeedle (R : AdapterRuntime) (w : ReplicaWorld) (needle : String)
    (row : ReplicaRecordRow) : Bool :=
  if FTS_TRIGRAM_MIN ≤ (Utf16.units needle).length then
    w.fts.any fun f => decide (f.record_key = row.record_key) && R.ftsMatch f.text (ftsPhraseQuery needle)
  else if needle ≠ "" then
    R.titleLike ((row.payload.get? "document").bind (·.get? "title"))
      ("%" ++ R.toLocaleLowerCase needle ++ "%")
  else true

/-- The view of a version says whether it is servable. -/
def documentView (row : ReplicaRecordRow) : Except AdapterError ReplicaRecordRow := do
  let view ← recordView row
  match view.payload.get? "version" with
  | some (.obj fields) =>
    return { view with
      payload := view.payload.set "version"
        ((Json.obj fields).set "readable" (.bool (isVersionServable view.payload))) }
  | _ => return view

def searchDocuments (R : AdapterRuntime) (w : ReplicaWorld) (query : Option String)
    (limit : Option Decimal) : Except AdapterError (List ReplicaRecordRow) := do
  let needle := trim (query.getD "")
  let limit ← boundedLimit limit
  let rows := w.replica.records.rows.filter fun row =>
    isPublicOf "document_version" row && (notExpired w row && matchesNeedle R w needle row)
  (newestFirst rows limit).mapM documentView

/-! ## Evidence -/

inductive ReferenceStatus where
  | UNAVAILABLE_LEGACY
  | VERIFIED
deriving DecidableEq

def isRecord : Option Json → Bool
  | some (.obj _) => true
  | _ => false

/-- The reference of version 4 evidence. -/
structure SourceReference where
  documentId : String
  versionId : String
  contentSha256 : String
  byteStart : ℕ
  byteEnd : ℕ
  spanSha256 : String
  attachmentId : Option Json

/-- An integer that is not negative. -/
def naturalOf : Option Json → Option ℕ
  | some (.num x) => if x.isInteger && decide (0 ≤ x.toInt) then some x.toInt.toNat else none
  | _ => none

def sourceReference (payload : Json) : Option SourceReference := do
  guard (isRecord (payload.get? "source_reference"))
  let reference ← payload.get? "source_reference"
  let start ← naturalOf (reference.get? "byte_start")
  let stop ← naturalOf (reference.get? "byte_end")
  let documentId := textOrEmpty (reference.get? "document_id")
  let versionId := textOrEmpty (reference.get? "document_version_id")
  let contentSha256 := textOrEmpty (reference.get? "content_sha256")
  let spanSha256 := textOrEmpty (reference.get? "span_sha256")
  guard (documentId ≠ "" ∧ versionId ≠ "" ∧ isHexSha256 contentSha256 = true ∧
    isHexSha256 spanSha256 = true ∧ start < stop)
  return ⟨documentId, versionId, contentSha256, start, stop, spanSha256, reference.get? "attachment_id"⟩

/-- The attachment of a version with an id. -/
def attachmentOf (payload : Json) (attachmentId : String) : Option Json :=
  (Push.arrayOf (payload.get? "attachments")).find? fun attachment =>
    isRecord (some attachment) &&
      decide ((attachment.get? "attachment_id").bind Json.str? = some attachmentId)

/-- The hash that a version has for the reference: its own, or that of the attachment. -/
def referencedHash (reference : SourceReference) (payload : Json) : Option String := do
  let document ← payload.get? "document"
  let version ← payload.get? "version"
  guard (Push.truthyValue (some document) = true ∧ Push.truthyValue (some version) = true ∧
    (document.get? "document_id").bind Json.str? = some reference.documentId ∧
    (version.get? "version_id").bind Json.str? = some reference.versionId ∧
    (version.get? "document_id").bind Json.str? = some reference.documentId)
  match reference.attachmentId with
  | some .null => return textOrEmpty (version.get? "content_sha256")
  | some (.str attachmentId) =>
    let attachment ← attachmentOf payload attachmentId
    return textOrEmpty (attachment.get? "content_sha256")
  | _ => none

/-- The check of a reference against the version and the object that it names. -/
def verifyReference (R : AdapterRuntime) (w : ReplicaWorld) (reference : SourceReference) :
    Except AdapterError Unit := do
  let versionRow ← recordByKey w "document_version" reference.versionId
  let versionRow ← recordView versionRow
  if referencedHash reference versionRow.payload ≠ some reference.contentSha256 then
    throw .INTEGRITY_FAILED
  match w.objects (objectKey reference.contentSha256) with
  | none => throw .STORE_UNAVAILABLE
  | some bytes =>
    let slice := (bytes.take reference.byteEnd).drop reference.byteStart
    if R.digest bytes ≠ reference.contentSha256 ∨
        slice.length ≠ reference.byteEnd - reference.byteStart ∨ R.digest slice ≠ reference.spanSha256 then
      throw .INTEGRITY_FAILED

def getEvidence (R : AdapterRuntime) (w : ReplicaWorld) (evidenceId : String) :
    Except AdapterError (ReplicaRecordRow × ReferenceStatus) := do
  let row ← recordByKey w "evidence" evidenceId
  let view ← recordView row
  if row.schema_version ≠ "collector-outbound-v4" then return (view, .UNAVAILABLE_LEGACY)
  match sourceReference view.payload with
  | none => throw .INTEGRITY_FAILED
  | some reference =>
    verifyReference R w reference
    return (view, .VERIFIED)

/-! ## States -/

def searchEvidence (w : ReplicaWorld) (limit : Option Decimal) :
    Except AdapterError (List ReplicaRecordRow) := do
  (← records w "evidence" limit).mapM recordView

def getCoverageStatus (w : ReplicaWorld) (limit : Option Decimal) :
    Except AdapterError (List ReplicaRecordRow) := do
  (← records w "coverage" limit).mapM recordView

def getSourceHealth (w : ReplicaWorld) (limit : Option Decimal) :
    Except AdapterError (List ReplicaRecordRow) := do
  (← records w "source_health" limit).mapM recordView

/-- `none` is the answer `NO_DATA`. -/
def getMarketSignalState (w : ReplicaWorld) (subjectKey : String) :
    Except AdapterError (Option ReplicaRecordRow) :=
  if trim subjectKey = "" then .error .INTEGRITY_FAILED
  else
    let normalized :=
      if "market:".toList <+: subjectKey.toList then subjectKey else "market:" ++ trim subjectKey
    match recordByKey w "market_signal" normalized with
    | .error .NOT_FOUND => .ok none
    | .error e => .error e
    | .ok row => (recordView row).map some

/-! ## Jobs -/

inductive EffectiveStatus where
  | QUEUED
  | CLAIMED
  | COMPLETED
deriving DecidableEq

structure JobServerState where
  effective_status : EffectiveStatus
  lease_owner : Option String
  lease_expires_at : Option String

def jobServerState (jobs : JobTables) (now jobId : String) : JobServerState :=
  match jobs.terminals.find? fun t => decide (t.1 = jobId) with
  | some t => ⟨if t.2 = "COMPLETED" then .COMPLETED else .QUEUED, none, none⟩
  | none =>
    match jobs.leases.find? fun l => decide (l.job_id = jobId) with
    | some lease =>
      if now < lease.lease_expires_at then
        ⟨.CLAIMED, some lease.lease_owner, some lease.lease_expires_at⟩
      else ⟨.QUEUED, none, none⟩
    | none => ⟨.QUEUED, none, none⟩

def proposalView (row : ProposalRow) : Except AdapterError ProposalRow :=
  match row.payload with
  | .obj _ => .ok row
  | _ => .error .INTEGRITY_FAILED

/-- The proposals of a job, in the order of their times. -/
def jobProposals (jobs : JobTables) (jobId : String) : Except AdapterError (List ProposalRow) :=
  ((jobs.proposals.filter fun p => decide (p.job_id = jobId)).insertionSort
    fun a b => a.created_at ≤ b.created_at).mapM proposalView

def listResearchJobs (w : ReplicaWorld) (now : String) (limit : Option Decimal) (claimableOnly : Bool) :
    Except AdapterError (List (ReplicaRecordRow × JobServerState)) := do
  let rows ← records w "job" limit
  let views ← rows.mapM recordView
  let jobs := views.map fun view => (view, jobServerState w.jobs now view.record_key)
  return jobs.filter fun job => !claimableOnly || decide (job.2.effective_status = .QUEUED)

def getResearchJobContext (w : ReplicaWorld) (now jobId : String) :
    Except AdapterError (ReplicaRecordRow × JobServerState × List ProposalRow) := do
  let row ← recordByKey w "job" jobId
  let view ← recordView row
  let proposals ← jobProposals w.jobs jobId
  return (view, jobServerState w.jobs now jobId, proposals)

end QuantproCollector.ResearchReplica
