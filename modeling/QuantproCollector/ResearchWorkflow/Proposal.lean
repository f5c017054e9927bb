import QuantproCollector.Platform

/-!
# Result proposals

What the queue checks of a submitted proposal before it touches the store: the structural rules in
their order (`validateProposalStructure`), the hidden-key and path scan shared with the outbound
boundary (`assertOutboundV2PayloadSafe`), and the text and digest that are stored
(`prepareProposal`).
-/

namespace QuantproCollector.ResearchWorkflow

def RESEARCH_LEASE_TTL_SECONDS : ℕ := 3600
def RESEARCH_CLAIM_JOB_ID_MAX_LENGTH : ℕ := 256
def RESEARCH_PROPOSAL_MAX_BYTES : ℕ := 65536
def RESEARCH_PROPOSAL_SUMMARY_MAX_CHARS : ℕ := 4000
def RESEARCH_PROPOSAL_FINDINGS_MAX : ℕ := 50
def RESEARCH_PROPOSAL_FINDING_CLAIM_MAX_CHARS : ℕ := 2000
def RESEARCH_PROPOSAL_SOURCES_MAX : ℕ := 100
def RESEARCH_PROPOSAL_SOURCE_MAX_CHARS : ℕ := 500

/-- `/^[A-Za-z0-9:_-]{8,128}$/`. -/
def matchesIdempotencyKeyPattern (key : String) : Bool :=
  key.toList.all (fun c => isAsciiLetter c || c.isDigit || c = ':' || c = '_' || c = '-') &&
    decide (8 ≤ key.toList.length ∧ key.toList.length ≤ 128)

def FORMAL_OWNER_PREFIX : String := "oauth-client:"

/-- The prefix followed by 64 lower-case hexadecimal digits. -/
def isFormalResearchOwner (value : String) : Bool :=
  decide (FORMAL_OWNER_PREFIX.toList <+: value.toList) &&
    (value.toList.drop FORMAL_OWNER_PREFIX.length).all isLowerHex &&
    decide ((value.toList.drop FORMAL_OWNER_PREFIX.length).length = 64)

/-! ## The outbound boundary's scan -/

def HIDDEN_KEYS : List String :=
  ["object_key", "path", "absolute_path", "local_path", "file_path", "text", "excerpt",
    "raw_content", "content", "token", "access_token", "refresh_token", "cookie", "set-cookie",
    "authorization", "chatgpt_identity", "lease_owner_hash"]

def RESPONSE_HEADERS : List String :=
  ["content-type", "etag", "last-modified", "content-length"]

/-- A drive path, or a path below a home directory. -/
def isLocalPath (value : String) : Bool :=
  (match value.toList with
    | c :: ':' :: s :: _ => isAsciiLetter c && (s = '\\' || s = '/')
    | _ => false) || includes value "/home/" || includes value "/Users/"

/-- The check of one key of an object, with its value. -/
def keySafe (key : String) (item : Json) : Bool :=
  let normalized := toLowerCase key
  !HIDDEN_KEYS.contains normalized &&
    match item with
    | .obj headers => normalized != "response_headers" ||
        headers.all fun header => RESPONSE_HEADERS.contains (toLowerCase header.1)
    | _ => true

mutual

/-- Whether `assertOutboundV2PayloadSafe` lets the value pass. -/
def assertOutboundV2PayloadSafe : Json → Bool
  | .arr items => elementsSafe items
  | .obj fields => fieldsSafe fields
  | .str value => !isLocalPath value
  | _ => true

def elementsSafe : List Json → Bool
  | [] => true
  | x :: xs => assertOutboundV2PayloadSafe x && elementsSafe xs

def fieldsSafe : List (String × Json) → Bool
  | [] => true
  | (k, x) :: fs => keySafe k x && assertOutboundV2PayloadSafe x && fieldsSafe fs

end

/-! ## Structural validation -/

def PROPOSAL_REQUIRED_KEYS : List String :=
  ["job_id", "summary", "findings", "recommendation_hint", "sources_consulted", "completed_at"]

def PROPOSAL_OPTIONAL_KEYS : List String := ["tokens_used"]

def PROPOSAL_FINDING_KEYS : List String :=
  ["claim", "evidence_ids", "confidence", "counter_evidence"]

def PROPOSAL_HINTS : List String :=
  ["NONE", "THESIS_REVIEW", "COUNTER_EVIDENCE_FOUND", "NO_SECOND_SOURCE", "INSUFFICIENT_DATA"]

def PROPOSAL_CONFIDENCES : List String := ["HIGH", "MEDIUM", "LOW"]

/-- The same keys, in any order. -/
def exactKeys (value : Json) (expected : List String) : Bool :=
  decide (value.keys.length = expected.length) && value.keys.all expected.contains &&
    expected.all value.keys.contains

/-- A text of bounded length. -/
def boundedText (value : Option Json) (max : ℕ) (allowEmpty : Bool) : Bool :=
  match value with
  | some (.str s) => (allowEmpty || decide (1 ≤ Utf16.length s)) && decide (Utf16.length s ≤ max)
  | _ => false

/-- A text other than the empty one. -/
def nonemptyText : Json → Bool
  | .str s => s != ""
  | _ => false

/-- A text among the listed ones. -/
def oneOf (value : Option Json) (texts : List String) : Bool :=
  match value with
  | some (.str s) => texts.contains s
  | _ => false

/-- The rule that a finding breaks, if any. -/
def findingError (finding : Json) : Option String :=
  if !exactKeys finding PROPOSAL_FINDING_KEYS then some "finding_keys"
  else if !boundedText (finding.get? "claim") RESEARCH_PROPOSAL_FINDING_CLAIM_MAX_CHARS true then
    some "finding_claim"
  else if !(match finding.get? "evidence_ids" with
      | some (.arr ids) => ids.all nonemptyText
      | _ => false) then some "finding_evidence_ids"
  else if !oneOf (finding.get? "confidence") PROPOSAL_CONFIDENCES then some "finding_confidence"
  else if !(match finding.get? "counter_evidence" with
      | some .null => true
      | value => boundedText value RESEARCH_PROPOSAL_FINDING_CLAIM_MAX_CHARS true) then
    some "finding_counter_evidence"
  else none

/-- The rule of a proposal for the job `jobId` that is broken first, if any. -/
def validateProposalStructure (P : Platform) (proposal : Json) (jobId : String) : Option String :=
  match proposal with
  | .obj _ =>
    if PROPOSAL_REQUIRED_KEYS.any (fun key => (proposal.get? key).isNone) ||
        proposal.keys.any fun key =>
          !PROPOSAL_REQUIRED_KEYS.contains key && !PROPOSAL_OPTIONAL_KEYS.contains key then
      some "keys"
    else if (proposal.get? "job_id").bind Json.str? ≠ some jobId then some "job_binding"
    else if !boundedText (proposal.get? "summary") RESEARCH_PROPOSAL_SUMMARY_MAX_CHARS false then
      some "summary"
    else match proposal.get? "findings" with
      | some (.arr findings) =>
        if findings.length > RESEARCH_PROPOSAL_FINDINGS_MAX then some "findings"
        else match findings.findSome? findingError with
          | some error => some error
          | none =>
            if !oneOf (proposal.get? "recommendation_hint") PROPOSAL_HINTS then
              some "recommendation_hint"
            else if !(match proposal.get? "sources_consulted" with
                | some (.arr sources) => decide (sources.length ≤ RESEARCH_PROPOSAL_SOURCES_MAX) &&
                    sources.all fun source =>
                      boundedText (some source) RESEARCH_PROPOSAL_SOURCE_MAX_CHARS true
                | _ => false) then some "sources_consulted"
            else if !(match proposal.get? "tokens_used" with
                | none => true
                | some (.num x) => x.isInteger && !x.isNeg
                | some _ => false) then some "tokens_used"
            else if !(match proposal.get? "completed_at" with
                | some (.str text) => (P.isoOfText text).isSome
                | _ => false) then some "completed_at"
            else none
      | _ => some "findings"
  | _ => some "not_object"

/-! ## What is stored -/

structure PreparedProposal where
  payloadJson : String
  payloadSha256 : String
  oversize : Bool
  structureError : Option String
deriving DecidableEq

/-- The audit row of a refused body carries the text `{}` in place of the body. -/
def emptyBody : String := "\x7b\x7d"

def prepareProposal (P : Platform) (proposal : Json) (jobId : String) : PreparedProposal :=
  let structureError := validateProposalStructure P proposal jobId
  if !assertOutboundV2PayloadSafe proposal then
    { payloadJson := emptyBody, payloadSha256 := P.sha256Hex emptyBody, oversize := false,
      structureError := some "unsafe_payload" }
  else
    let payloadJson := proposal.canonicalText
    if utf8Length payloadJson > RESEARCH_PROPOSAL_MAX_BYTES then
      { payloadJson := emptyBody, payloadSha256 := P.sha256Hex emptyBody, oversize := true,
        structureError := structureError }
    else
      { payloadJson := payloadJson, payloadSha256 := P.sha256Hex payloadJson, oversize := false,
        structureError := structureError }

end QuantproCollector.ResearchWorkflow
