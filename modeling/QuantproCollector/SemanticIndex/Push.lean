import QuantproCollector.Lib.Run
import QuantproCollector.SemanticIndex.Store

/-!
# The push of precomputed vectors

The steps of `ingestPrecomputedVectors` and of the ingest that stores a version again, each a D1
statement or batch or a Vectorize request that can fail before or after it takes effect. A vector's
id is a digest of its document, its version and its ordinal; here it is the three themselves. An
ingest is modelled from its look for the message on, as in the store.
-/

namespace QuantproCollector.SemanticIndex.Push

open Relational Async

/-- What the push takes from its runtime beyond the platform. -/
structure Runtime extends Platform where
  /-- `text.normalize("NFC")`. -/
  nfc : String → String
  /-- The cosine of two vectors of one length, or `none` where a norm is zero. -/
  cosine : List Decimal → List Decimal → Option Decimal

/-! ## The payload -/

def SEMANTIC_VECTOR_DIMENSIONS : ℕ := 1024
def SEMANTIC_MAX_CHUNKS : ℕ := 32
def SEMANTIC_TITLE_CHARS : ℕ := 200

structure PrecomputedVectorIngestPayload where
  document_id : String
  version_id : String
  /-- `none` where the field is absent, `some none` where it is null. -/
  content_sha256 : Option (Option String)
  vectors : List (List Decimal)
  consistency_check : Bool

def isNonEmptyText : Option Json → Bool
  | some (.str s) => decide (s ≠ "")
  | _ => false

def arrayOf : Option Json → List Json
  | some (.arr xs) => xs
  | _ => []

def numbersOf (values : List Json) : List Decimal :=
  values.filterMap fun v => match v with
    | .num x => some x
    | _ => none

def isNumber : Json → Bool
  | .num _ => true
  | _ => false

/-- The complaint about a vector, from an index on. -/
def vectorError : ℕ → List Json → Option String
  | _, [] => none
  | index, vector :: vectors =>
    if vector.get? "ordinal" ≠ some (.num (.ofInt index)) then
      some ("vectors[" ++ toString index ++ "].ordinal must be " ++ toString index ++
        " (dense, ordered)")
    else
      match vector.get? "values" with
      | some (.arr values) =>
        if values.length ≠ SEMANTIC_VECTOR_DIMENSIONS ∨ !values.all isNumber then
          some ("vectors[" ++ toString index ++ "].values must be " ++
            toString SEMANTIC_VECTOR_DIMENSIONS ++ " finite numbers")
        else vectorError (index + 1) vectors
      | _ =>
        some ("vectors[" ++ toString index ++ "].values must be " ++
          toString SEMANTIC_VECTOR_DIMENSIONS ++ " finite numbers")

def contentHashError : Option Json → Option String
  | none | some .null => none
  | some (.str s) =>
    if isHexSha256 s then none
    else some "content_sha256 must be a hex sha256 or null (title-only)"
  | some _ => some "content_sha256 must be a hex sha256 or null (title-only)"

def precomputedPayloadError (payload : Json) : Option String :=
  match payload with
  | .obj _ =>
    if !isNonEmptyText (payload.get? "document_id") then some "document_id is required"
    else if !isNonEmptyText (payload.get? "version_id") then some "version_id is required"
    else if (arrayOf (payload.get? "vectors")).isEmpty then some "vectors must be a non-empty array"
    else if SEMANTIC_MAX_CHUNKS < (arrayOf (payload.get? "vectors")).length then
      some ("at most " ++ toString SEMANTIC_MAX_CHUNKS ++ " vectors per document")
    else
      match vectorError 0 (arrayOf (payload.get? "vectors")) with
      | some error => some error
      | none => contentHashError (payload.get? "content_sha256")
  | _ => some "body must be an object"

/-- What a condition makes of a value. -/
def truthyValue : Option Json → Bool
  | some (.bool b) => b
  | some (.num x) => decide (x ≠ .ofInt 0)
  | some (.str s) => decide (s ≠ "")
  | some (.arr _) | some (.obj _) => true
  | _ => false

/-- A payload without a complaint, as it is typed. -/
def payloadOf (payload : Json) : PrecomputedVectorIngestPayload where
  document_id := ((payload.get? "document_id").bind Json.str?).getD ""
  version_id := ((payload.get? "version_id").bind Json.str?).getD ""
  content_sha256 := (payload.get? "content_sha256").map Json.str?
  vectors := (arrayOf (payload.get? "vectors")).map fun vector =>
    numbersOf (arrayOf (vector.get? "values"))
  consistency_check := truthyValue (payload.get? "consistency_check")

/-! ## Titles -/

/-- The control characters that `normalizeSemanticText` blanks, and the tab. -/
def isBlanked (c : Char) : Bool :=
  decide (c.toNat ≤ 0x8) || decide (c.toNat = 0x9) || decide (c.toNat = 0xB) ||
    decide (c.toNat = 0xC) || (decide (0xE ≤ c.toNat) && decide (c.toNat ≤ 0x1F)) ||
    (decide (0x7F ≤ c.toNat) && decide (c.toNat ≤ 0x9F)) || decide (c.toNat = 0x2028) ||
    decide (c.toNat = 0x2029)

/-- Each maximal run of at least `min` characters of a class, replaced. -/
def replaceRuns (inClass : Char → Bool) (min : ℕ) (replacement : List Char) :
    List Char → List Char → List Char
  | run, [] => if min ≤ run.length then replacement else run.reverse
  | run, c :: cs =>
    if inClass c then replaceRuns inClass min replacement (c :: run) cs
    else (if min ≤ run.length then replacement else run.reverse) ++
      c :: replaceRuns inClass min replacement [] cs

/-- The spaces around each line break, removed. -/
def trimLines : List Char → List Char → List Char
  | spaces, [] => spaces
  | spaces, ' ' :: cs => trimLines (' ' :: spaces) cs
  | _, '\n' :: cs => '\n' :: trimLines [] (cs.dropWhile (· = ' '))
  | spaces, c :: cs => spaces ++ c :: trimLines [] cs
termination_by _ cs => cs.length
decreasing_by
  · simp
  · have := (List.dropWhile_suffix (l := cs) (p := (· = ' '))).length_le
    simp only [List.length_cons]
    omega
  · simp

def normalizeSemanticText (R : Runtime) (value : String) : List Char :=
  let blanked := (R.nfc value).toList.map fun c => if isBlanked c then ' ' else c
  let spaced := replaceRuns (fun c => c = ' ' || c.toNat = 0xA0) 2 [' '] [] blanked
  let lines := replaceRuns (· = '\n') 3 ['\n', '\n'] [] (trimLines [] spaced)
  trimEnd (lines.dropWhile isSpace)

/-- The title of a candidate, in UTF-16 units. -/
def documentTitle (R : Runtime) (candidate : VersionCandidate) : List ℕ :=
  match candidate.document.get? "title" with
  | some (.str title) =>
    ((normalizeSemanticText R title).flatMap Utf16.ofChar).take SEMANTIC_TITLE_CHARS
  | _ => []

/-! ## Operations -/

/-- A vector's document, version and ordinal. -/
abbrev VectorId := String × String × ℕ

structure IndexWorld where
  replica : Replica
  vectors : List (VectorId × List Decimal)

def IndexWorld.empty : IndexWorld := ⟨.empty, []⟩

inductive Op where
  | selectRow (documentId versionId : String)
  | selectVersions (documentId : String)
  | reviveRow (documentId versionId now : String)
  | getByIds (id : VectorId)
  | upsertVectors (entries : List (VectorId × List Decimal))
  | markRow (row : SemanticIndexStateRow) (contentSha256 : Option String) (titleOnly : Bool)
      (chunks : ℕ) (now : String)
  | selectMessage (messageId : String)
  | ingestBatch (record : OutboundV2Record) (key now : String)

/-- What each operation answers; `selectRow` tells also whether the document is EXPIRED, and the
updates how many rows they changed. -/
abbrev Res : Op → Type
  | .selectRow .. => Option (SemanticIndexStateRow × Bool)
  | .selectVersions _ => CurrentVersion
  | .reviveRow .. => ℕ
  | .getByIds _ => Option (List Decimal)
  | .upsertVectors _ => Unit
  | .markRow .. => ℕ
  | .selectMessage _ => Bool
  | .ingestBatch .. => Unit

inductive Thrown where
  | integrityFailed
  | raw
deriving DecidableEq

abbrev Program (α : Type) := Script Thrown Op Res α

def isRow (documentId versionId : String) (r : SemanticIndexStateRow) : Bool :=
  decide (r.document_id = documentId ∧ r.version_id = versionId)

/-- The rows that the row update of a version changes. -/
def isLiveRow (row r : SemanticIndexStateRow) : Bool :=
  isRow row.document_id row.version_id r && decide (r.retired_at = none)

def revivedRow (now : String) (r : SemanticIndexStateRow) : SemanticIndexStateRow :=
  { r with
    retired_at := none
    vector_deleted_at := none
    state := .PENDING
    expected_chunks := 0
    confirmed_chunks := 0
    attempts := 0
    updated_at := now }

/-- The row of a version whose vectors are stored; what the push does not set is as it was read. -/
def readyRow (row : SemanticIndexStateRow) (contentSha256 : Option String) (titleOnly : Bool)
    (chunks : ℕ) (now : String) (r : SemanticIndexStateRow) : SemanticIndexStateRow :=
  { r with
    state := .READY
    content_sha256 := contentSha256
    title_only := titleOnly
    truncated := row.truncated
    expected_chunks := chunks
    confirmed_chunks := chunks
    attempts := row.attempts
    last_error_code := none
    model_id := SEMANTIC_MODEL_ID
    updated_at := now }

theorem revivedRow_keys {now : String} :
    ∀ ix ∈ [fun r : SemanticIndexStateRow => some r.key], ∀ r, ix (revivedRow now r) = ix r := by
  intro ix hix r
  rw [List.mem_singleton.1 hix]
  rfl

theorem readyRow_keys {row : SemanticIndexStateRow} {contentSha256 : Option String}
    {titleOnly : Bool} {chunks : ℕ} {now : String} :
    ∀ ix ∈ [fun r : SemanticIndexStateRow => some r.key], ∀ r,
      ix (readyRow row contentSha256 titleOnly chunks now r) = ix r := by
  intro ix hix r
  rw [List.mem_singleton.1 hix]
  rfl

def answer (P : Platform) : (op : Op) → IndexWorld → Res op
  | .selectRow documentId versionId, w =>
    (w.replica.semantic.rows.find? (isRow documentId versionId)).map fun r =>
      (r, expiredByRetention w.replica documentId)
  | .selectVersions documentId, w => currentVersionCandidate P w.replica documentId
  | .reviveRow documentId versionId _, w =>
    (w.replica.semantic.rows.filter (isRow documentId versionId)).length
  | .getByIds id, w => w.vectors.lookup id
  | .upsertVectors _, _ => ()
  | .markRow row .., w => (w.replica.semantic.rows.filter (isLiveRow row)).length
  | .selectMessage messageId, w => isReplay w.replica messageId
  | .ingestBatch .., _ => ()

def effect (P : Platform) : Op → IndexWorld → IndexWorld
  | .reviveRow documentId versionId now, w =>
    { w with replica := { w.replica with
        semantic := w.replica.semantic.modify (isRow documentId versionId) (revivedRow now)
          revivedRow_keys } }
  | .upsertVectors entries, w =>
    { w with vectors := entries ++ w.vectors.filter fun v => !(entries.map Prod.fst).contains v.1 }
  | .markRow row contentSha256 titleOnly chunks now, w =>
    { w with replica := { w.replica with
        semantic := w.replica.semantic.modify (isLiveRow row)
          (readyRow row contentSha256 titleOnly chunks now) readyRow_keys } }
  | .ingestBatch record key now, w => { w with replica := ingestBatch P w.replica record key now }
  | _, w => w

/-- Whether and where an operation fails. -/
inductive Fault where
  | none
  | before
  | after
deriving DecidableEq

def perform (P : Platform) (f : Fault) (op : Op) (w : IndexWorld) :
    Except Thrown (Res op) × IndexWorld :=
  match f with
  | .none => (.ok (answer P op w), effect P op w)
  | .before => (.error .raw, w)
  | .after => (.error .raw, effect P op w)

def machine (P : Platform) : Machine Thrown Op Res IndexWorld Fault where
  perform := perform P

/-! ## Programs -/

inductive PrecomputedVectorIngestResult where
  | READY (upserted : ℕ)
  | CONSISTENCY (score : Option Decimal) (comparisons missing : ℕ)
  | REJECTED (reason : String)

/-- The least of some scores. -/
def leastScore : List Decimal → Option Decimal
  | [] => none
  | x :: xs => some (xs.foldl (fun m y => if y.value < m.value then y else m) x)

/-- The stored vectors compared with the pushed ones, from an ordinal on. -/
def probeVectors (R : Runtime) (documentId versionId : String) :
    ℕ → List (List Decimal) → List Decimal → ℕ → Program PrecomputedVectorIngestResult
  | _, [], scores, missing => pure (.CONSISTENCY (leastScore scores) scores.length missing)
  | ordinal, values :: vectors, scores, missing => do
    let stored ← Script.perform (Op.getByIds (documentId, versionId, ordinal))
    match stored with
    | none => probeVectors R documentId versionId (ordinal + 1) vectors scores (missing + 1)
    | some stored =>
      if stored.length ≠ values.length then
        probeVectors R documentId versionId (ordinal + 1) vectors scores (missing + 1)
      else
        probeVectors R documentId versionId (ordinal + 1) vectors
          ((R.cosine values stored).elim scores fun score => scores ++ [score]) missing

/-- The vectors of a checked payload, compared or stored. -/
def storeVectors (R : Runtime) (payload : PrecomputedVectorIngestPayload)
    (row : SemanticIndexStateRow) (contentSha256 : Option String) (titleOnly : Bool) (now : String) :
    Program PrecomputedVectorIngestResult :=
  if payload.consistency_check then
    probeVectors R payload.document_id payload.version_id 0 payload.vectors [] 0
  else do
    Script.perform (Op.upsertVectors (payload.vectors.mapIdx fun ordinal values =>
      ((payload.document_id, payload.version_id, ordinal), values)))
    let outcome ← Script.perform
      (Op.markRow row contentSha256 titleOnly payload.vectors.length now)
    if outcome = 0 then pure (.REJECTED "state row retired during upsert")
    else pure (.READY payload.vectors.length)

/-- The content hash of a payload, checked against the candidate's body. -/
def pushVectors (R : Runtime) (payload : PrecomputedVectorIngestPayload)
    (row : SemanticIndexStateRow) (servable : Bool) (candidate : VersionCandidate) (now : String) :
    Program PrecomputedVectorIngestResult :=
  match if servable then servableBody candidate.payload else none with
  | some body =>
    if payload.content_sha256 ≠ some (some body.contentSha256) then
      pure (.REJECTED "content_sha256 does not match the current body")
    else storeVectors R payload row (some body.contentSha256) false now
  | none =>
    if documentTitle R candidate = [] ∨ payload.content_sha256 ≠ some none then
      pure (.REJECTED "title-only document requires content_sha256 null")
    else storeVectors R payload row none true now

/-- The candidate of a payload's document, for a row that has been read. -/
def pushCurrent (R : Runtime) (payload : PrecomputedVectorIngestPayload)
    (row : SemanticIndexStateRow) (now : String) : Program PrecomputedVectorIngestResult := do
  let current ← Script.perform (Op.selectVersions payload.document_id)
  match current.candidate with
  | none => pure (.REJECTED "version is not the current servable version")
  | some candidate =>
    if candidate.versionId ≠ payload.version_id then
      pure (.REJECTED "version is not the current servable version")
    else if row.retired_at.isSome then do
      let revived ← Script.perform (Op.reviveRow payload.document_id payload.version_id now)
      if revived ≠ 1 then pure (.REJECTED "state row retired during revival")
      else
        pushVectors R payload { row with retired_at := none, state := .PENDING } current.servable
          candidate now
    else pushVectors R payload row current.servable candidate now

def ingestPrecomputedVectors (R : Runtime) (payload : Json) (now : String) :
    Program PrecomputedVectorIngestResult :=
  match precomputedPayloadError payload with
  | some reason => pure (.REJECTED reason)
  | none => do
    let p := payloadOf payload
    let found ← Script.perform (Op.selectRow p.document_id p.version_id)
    match found with
    | none => pure (.REJECTED "no registered state row for this version")
    | some (row, expired) =>
      if expired then
        pure (.REJECTED "document is EXPIRED by retention; vectors are never attached")
      else pushCurrent R p row now

/-- The ingest of a verified message. -/
def storeRecord (record : OutboundV2Record) (now : String) : Program IngestStatus :=
  match outboundV2RecordKey record with
  | none => throw Thrown.integrityFailed
  | some key => do
    let replay ← Script.perform (Op.selectMessage record.message_id)
    if replay then pure .REPLAY
    else do
      Script.perform (Op.ingestBatch record key now)
      pure .APPLIED

inductive Task where
  | ingest (record : OutboundV2Record) (now : String)
  | push (payload : Json) (now : String)

def Task.program (R : Runtime) : Task → Program Unit
  | .ingest record now => do
    let _ ← storeRecord record now
    pure ()
  | .push payload now => do
    let _ ← ingestPrecomputedVectors R payload now
    pure ()

/-- The threads of some tasks, on an empty replica. -/
def start (R : Runtime) (tasks : List Task) : Config Thrown Op Res IndexWorld Fault Unit :=
  Config.start IndexWorld.empty fun t => (tasks[t]?).elim (pure ()) (Task.program R)

end QuantproCollector.SemanticIndex.Push
