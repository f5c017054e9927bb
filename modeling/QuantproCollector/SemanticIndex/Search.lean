import QuantproCollector.Lib.JsonText
import QuantproCollector.SemanticIndex.Documents

/-!
# Semantic search

`searchPublicDocumentsSemantic`: the answer of the vector index, each match of which is looked up again
in the tables and the objects before it is returned. Texts that are cut are lists of UTF-16 units; half
of a surrogate pair at the cut of a title is read as the replacement character where the title is
composed with a body.
-/

namespace QuantproCollector.SemanticIndex.Search

open Push

/-- What the search takes from its runtime beyond the push. -/
structure SearchRuntime extends Push.Runtime where
  /-- The SHA-256 digest of the bytes of an object. -/
  digest : List UInt8 → String
  /-- `new TextDecoder().decode(bytes)`. -/
  decode : List UInt8 → String

def SEMANTIC_CHUNK_CHARS : ℕ := 1200
def SEMANTIC_CHUNK_OVERLAP_CHARS : ℕ := 150
def SEMANTIC_QUERY_MAX_LIMIT : ℕ := 20
def SEMANTIC_QUERY_MAX_QUERY_CHARS : ℕ := 500
def SEMANTIC_SNIPPET_CHARS : ℕ := 240

/-- A text in UTF-16 units. -/
abbrev Units := List ℕ

def isSpaceUnit (u : ℕ) : Bool :=
  isSpace (Char.ofNat u)

/-! ## Chunks -/

/-- `[。！？；!?;.\n]` -/
def isBoundary (u : ℕ) : Bool :=
  [0x3002, 0xFF01, 0xFF1F, 0xFF1B, 0x21, 0x3F, 0x3B, 0x2E, 0xA].contains u

/-- `["'”’）)】\]」』]` -/
def isClosing (u : ℕ) : Bool :=
  [0x22, 0x27, 0x201D, 0x2019, 0xFF09, 0x29, 0x3011, 0x5D, 0x300D, 0x300F].contains u

/-- The text is cut after each boundary that ends a piece of at most `maxSegment` units; `current` is
what has been read since the last cut. -/
def cutSegments (maxSegment : ℕ) : Units → Units → List Units
  | current, [] => if current = [] then [] else [current]
  | current, [u] => [current ++ [u]]
  | current, u :: v :: rest =>
    if isBoundary u then
      if isClosing v then
        if (current ++ [u, v]).length ≤ maxSegment then
          (current ++ [u, v]) :: cutSegments maxSegment [] rest
        else cutSegments maxSegment (current ++ [u, v]) rest
      else if (current ++ [u]).length ≤ maxSegment then
        (current ++ [u]) :: cutSegments maxSegment [] (v :: rest)
      else cutSegments maxSegment (current ++ [u]) (v :: rest)
    else cutSegments maxSegment (current ++ [u]) (v :: rest)

/-- The pieces of a segment that is too long, in at most `n` cuts. -/
def chop (maxSegment : ℕ) : ℕ → Units → List Units
  | 0, value => if value = [] then [] else [value]
  | n + 1, value =>
    if maxSegment < value.length then
      value.take maxSegment :: chop maxSegment n (value.drop maxSegment)
    else if value = [] then [] else [value]

def segmentText (text : Units) (maxSegment : ℕ) : List Units :=
  (cutSegments maxSegment [] text).flatMap fun segment => chop maxSegment segment.length segment

def overlapTail (text : Units) : Units :=
  if text.length ≤ SEMANTIC_CHUNK_OVERLAP_CHARS then text
  else
    let tail := text.drop (text.length - SEMANTIC_CHUNK_OVERLAP_CHARS)
    match tail.findIdx? (· = 0xA) with
    | some boundary =>
      if boundary ≤ SEMANTIC_CHUNK_OVERLAP_CHARS / 2 then tail.drop (boundary + 1) else tail
    | none => tail

/-- The chunks of the segments, `current` being the one that is built. -/
def joinSegments : Units → List Units → List Units
  | current, [] => if current = [] then [] else [current]
  | current, segment :: rest =>
    if current ≠ [] ∧ SEMANTIC_CHUNK_CHARS < current.length + segment.length then
      current :: joinSegments (overlapTail current ++ segment) rest
    else joinSegments (current ++ segment) rest

/-- Where there are too many chunks, the first and the last of them. -/
def sampleChunks (chunks : List Units) : List Units :=
  if SEMANTIC_MAX_CHUNKS < chunks.length then
    chunks.take ((SEMANTIC_MAX_CHUNKS + 1) / 2) ++
      chunks.drop (chunks.length - (SEMANTIC_MAX_CHUNKS - (SEMANTIC_MAX_CHUNKS + 1) / 2))
  else chunks

/-- The normalised text, in units. -/
def normalizedUnits (R : Push.Runtime) (text : List Char) : Units :=
  (normalizeSemanticText R (String.ofList text)).flatMap Utf16.ofChar

/-- The texts of the chunks. -/
def chunkSemanticDocument (R : Push.Runtime) (text : List Char) : List Units :=
  sampleChunks (joinSegments []
    (segmentText (normalizedUnits R text) (SEMANTIC_CHUNK_CHARS - SEMANTIC_CHUNK_OVERLAP_CHARS)))

/-! ## Texts -/

/-- `composeSemanticText` of a title and a body, where the body is not empty. -/
def composeSemanticText (R : Push.Runtime) (title : Units) (bodyText : String) : Option (List Char) :=
  match normalizeSemanticText R bodyText with
  | [] => none
  | c :: cs => some (if title = [] then c :: cs else Json.ofUnits title ++ ['\n', '\n'] ++ c :: cs)

/-- Each run of white space is one space. -/
def collapseSpaces : Units → Units
  | [] => []
  | u :: rest =>
    if isSpaceUnit u then
      match rest with
      | [] => [0x20]
      | v :: _ => if isSpaceUnit v then collapseSpaces rest else 0x20 :: collapseSpaces rest
    else u :: collapseSpaces rest

def trimUnits (text : Units) : Units :=
  ((text.dropWhile isSpaceUnit).reverse.dropWhile isSpaceUnit).reverse

/-- The first units of a text, with an ellipsis where there are more. -/
def ellipsized (text : Units) (limit : ℕ) : Units :=
  if limit < text.length then text.take limit ++ [0x2026] else text

def boundedText (value : Units) (limit : ℕ) : Units :=
  ellipsized (trimUnits (collapseSpaces value)) limit

/-! ## Hits -/

structure ValidatedHit where
  title : Units
  snippet : Units
  source_kind : Option String
  published_at : Option String
deriving DecidableEq

structure MatchMetadata where
  document_id : String
  version_id : String
  chunk : ℕ

inductive SearchError where
  | MODEL_RESPONSE_INVALID
  | INDEX_UNAVAILABLE
  | INTEGRITY_FAILED
  | embedding
deriving DecidableEq

def textField (v : Json) (field : String) : Option String :=
  (v.get? field).bind Json.str?

/-- The row of a hit's version, unless the document is EXPIRED. -/
def hitRow (s : Replica) (hit : MatchMetadata) : Option SemanticIndexStateRow :=
  if expiredByRetention s hit.document_id then none
  else s.semantic.rows.find? (isRow hit.document_id hit.version_id)

/-- The row stands for vectors that are all stored. -/
def isLiveReady (row : SemanticIndexStateRow) : Bool :=
  decide (row.state = .READY) && decide (row.retired_at = none) &&
    decide (row.model_id = SEMANTIC_MODEL_ID) && decide (1 ≤ row.expected_chunks) &&
    decide (row.confirmed_chunks = row.expected_chunks)

def hitOf (R : Push.Runtime) (current : VersionCandidate) (snippet : Units) : ValidatedHit where
  title := documentTitle R current
  snippet := snippet
  source_kind := textField current.document "source_kind"
  published_at := textField current.version "published_at"

/-- A hit on a title: the version has no readable body, and the row agrees. -/
def titleHit (R : Push.Runtime) (row : SemanticIndexStateRow) (current : VersionCandidate)
    (servable : Bool) : Option ValidatedHit :=
  if servable || decide (documentTitle R current = []) || decide (row.content_sha256 ≠ none) then none
  else some (hitOf R current (ellipsized (documentTitle R current) SEMANTIC_SNIPPET_CHARS))

/-- A hit on a body: the bytes are there and have the digest that was indexed. -/
def bodyHit (R : SearchRuntime) (objects : String → Option (List UInt8)) (row : SemanticIndexStateRow)
    (current : VersionCandidate) (servable : Bool) (chunk : ℕ) :
    Except SearchError (Option ValidatedHit) :=
  match if servable then servableBody current.payload else none with
  | none => .ok none
  | some body =>
    if some body.contentSha256 ≠ row.content_sha256 then .ok none
    else
      match objects (objectKey body.contentSha256) with
      | none => .ok none
      | some bytes =>
        if R.digest bytes ≠ body.contentSha256 then .error .INTEGRITY_FAILED
        else
          match composeSemanticText R.toRuntime (documentTitle R.toRuntime current) (R.decode bytes) with
          | none => .ok none
          | some text =>
            let chunks := chunkSemanticDocument R.toRuntime text
            match chunks[min chunk (chunks.length - 1)]? with
            | none => .ok none
            | some value =>
              .ok (some (hitOf R.toRuntime current (boundedText value SEMANTIC_SNIPPET_CHARS)))

def validateSemanticHit (R : SearchRuntime) (s : Replica) (objects : String → Option (List UInt8))
    (hit : MatchMetadata) : Except SearchError (Option ValidatedHit) :=
  match hitRow s hit with
  | none => .ok none
  | some row =>
    if !isLiveReady row then .ok none
    else
      match currentVersionCandidate R.toPlatform s hit.document_id with
      | ⟨none, _⟩ => .ok none
      | ⟨some current, servable⟩ =>
        if current.versionId ≠ hit.version_id then .ok none
        else if row.title_only then .ok (titleHit R.toRuntime row current servable)
        else bodyHit R objects row current servable hit.chunk

/-! ## The answer of the vector index -/

structure SemanticVectorMatch where
  score : Decimal
  metadata : Option Json

/-- A match of the answer, unless it has no id. -/
def vectorMatch (v : Json) : Option SemanticVectorMatch :=
  (textField v "id").map fun _ =>
    { score := match v.get? "score" with
        | some (.num x) => x
        | _ => .ofInt 0
      metadata := match v.get? "metadata" with
        | some (.obj fields) => some (.obj fields)
        | _ => none }

def queryVectorIndex (raw : Option Json) : Except SearchError (List SemanticVectorMatch) :=
  match raw.bind (·.get? "matches") with
  | some (.arr found) => .ok (found.filterMap vectorMatch)
  | _ => .error .INDEX_UNAVAILABLE

def parseMatchMetadata (P : Platform) (value : Option Json) : Option MatchMetadata := do
  let value ← value
  let documentId ← stringField (value.get? "document_id")
  let versionId ← stringField (value.get? "version_id")
  let chunk ← (value.get? "chunk").bind (numberOf P)
  if !chunk.isInteger || chunk.isNeg || decide (SEMANTIC_MAX_CHUNKS ≤ chunk.toInt.toNat) then none
  else if textField value "model_id" ≠ some SEMANTIC_MODEL_ID then none
  else some ⟨documentId, versionId, chunk.toInt.toNat⟩

/-! ## The search -/

structure SemanticSearchMatch where
  document_id : String
  version_id : String
  score : Decimal
  hit : ValidatedHit
deriving DecidableEq

inductive IndexStatus where
  | READY
  | PARTIAL
deriving DecidableEq

structure SemanticSearchResult where
  hits : List SemanticSearchMatch
  index_status : IndexStatus
deriving DecidableEq

/-- The rows that are not retired, of documents that are not EXPIRED. -/
def activeRows (s : Replica) (state : SemanticState) : ℕ :=
  s.semantic.rows.countP fun r => decide (r.retired_at = none) && decide (r.state = state) &&
    !expiredByRetention s r.document_id

def semanticIndexStatus (s : Replica) : IndexStatus :=
  if 0 < activeRows s .PENDING ∨ activeRows s .READY = 0 then .PARTIAL else .READY

/-- The loop over the candidates: one hit for a document, and no more than `limit`. -/
def collectHits (R : SearchRuntime) (s : Replica) (objects : String → Option (List UInt8))
    (limit : ℕ) : List SemanticSearchMatch → List SemanticVectorMatch →
      Except SearchError (List SemanticSearchMatch)
  | found, [] => .ok found
  | found, candidate :: rest =>
    match parseMatchMetadata R.toPlatform candidate.metadata with
    | none => collectHits R s objects limit found rest
    | some hit =>
      if (found.map (·.document_id)).contains hit.document_id then
        collectHits R s objects limit found rest
      else
        match validateSemanticHit R s objects hit with
        | .error e => .error e
        | .ok none => collectHits R s objects limit found rest
        | .ok (some validated) =>
          let found' := found ++ [⟨hit.document_id, hit.version_id, candidate.score, validated⟩]
          if limit ≤ found'.length then .ok found' else collectHits R s objects limit found' rest

/-- What the providers answer: the embedding, or its error, and the vector index. -/
structure ProviderAnswers where
  embedding : Option SearchError
  raw : Option Json

def searchPublicDocumentsSemantic (R : SearchRuntime) (s : Replica)
    (objects : String → Option (List UInt8)) (providers : ProviderAnswers) (query : String)
    (limit : Option Decimal) : Except SearchError SemanticSearchResult :=
  let trimmed := trimUnits (Utf16.units query)
  let limit := limit.getD (.ofInt 10)
  if trimmed = [] ∨ SEMANTIC_QUERY_MAX_QUERY_CHARS < trimmed.length then
    .error .MODEL_RESPONSE_INVALID
  else if !limit.isInteger || limit.isNeg || decide (limit.toInt < 1) ||
      decide (SEMANTIC_QUERY_MAX_LIMIT < limit.toInt.toNat) then
    .error .MODEL_RESPONSE_INVALID
  else
    match providers.embedding with
    | some e => .error e
    | none => do
      let candidates ← queryVectorIndex providers.raw
      let hits ← collectHits R s objects limit.toInt.toNat [] candidates
      return ⟨hits, semanticIndexStatus s⟩

end QuantproCollector.SemanticIndex.Search
