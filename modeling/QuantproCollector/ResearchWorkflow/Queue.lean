import QuantproCollector.ResearchWorkflow.Store

/-!
# The operations of the research queue

`claimResearchJob`, `submitResearchResultProposal` and `deferResearchJob`, as programs over the
store's requests. Each of them reads the store first and writes in one batch later; between the two
any other caller may act. The batches are named (`claimBatch`, `rejectBatch`, `formalBatch`,
`syntheticBatch`, `deferBatch`) because what the queue guarantees is decided by them alone.
-/

namespace QuantproCollector.ResearchWorkflow

open Async

/-! ## Requests to the store -/

def fail {α : Type} (code : BoundaryCode) : Query α := throw (.boundary code)

def randomHex32 : Query String := Script.perform Op.randomHex32
def selectJob (jobId : String) : Query Bool := Script.perform (Op.selectJob jobId)
def selectTerminal (jobId : String) : Query Bool := Script.perform (Op.selectTerminal jobId)

def terminalMatchesProposal (jobId proposalId : String) : Query Bool :=
  Script.perform (Op.terminalMatchesProposal jobId proposalId)

def selectDeferral (jobId : String) : Query (Option DeferralRow) :=
  Script.perform (Op.selectDeferral jobId)

def selectDeferralByIdempotencyKey (key : String) : Query (Option DeferralRow) :=
  Script.perform (Op.selectDeferralByIdempotencyKey key)

def selectLease (jobId : String) : Query (Option LeaseRow) := Script.perform (Op.selectLease jobId)

def selectProposalByIdempotencyKey (key : String) : Query (Option ProposalRow) :=
  Script.perform (Op.selectProposalByIdempotencyKey key)

def selectFormal (jobId : String) : Query (Option ProposalRow) :=
  Script.perform (Op.selectFormal jobId)

def batch (statements : List Statement) : Query (List ℕ) := Script.perform (Op.batch statements)

/-- `normalizedIso`: the canonical text of a date, or `INTEGRITY_FAILED`. -/
def normalizedIso (P : Platform) (value : String) : Query String :=
  match P.isoOfText value with
  | some iso => return iso
  | none => fail .INTEGRITY_FAILED

/-- An event row with a drawn `event_id`, as `eventStatement` binds it. -/
def eventRow (jobId : String) (eventType : EventType) (actor : String) (proposalId : Option String)
    (origin : Option ResearchOrigin) (detail : EventDetail) (requestId createdAt : String) :
    Query EventRow := do
  let hex ← randomHex32
  return ⟨"evt_" ++ hex, jobId, eventType, actor, proposalId, origin, detail, requestId, createdAt⟩

/-- The job id is a text of 1 to 256 code units. -/
def jobIdBounded (jobId : String) : Bool :=
  decide (1 ≤ Utf16.length jobId ∧ Utf16.length jobId ≤ RESEARCH_CLAIM_JOB_ID_MAX_LENGTH)

/-! ## Claim -/

structure ClaimInput where
  jobId : String
  leaseOwner : String
  requestId : String
  now : String
deriving DecidableEq

inductive ClaimOutcome where
  | CLAIMED (jobId leaseOwner claimedAt leaseExpiresAt : String) (claimCount leaseGeneration : ℕ)
      (requestId : String)
  | ALREADY_CLAIMED (jobId leaseOwner leaseExpiresAt requestId : String)
  | NOT_CLAIMABLE (jobId : String) (reason : ClaimReason) (requestId : String)
deriving DecidableEq

/-- The lease that a claim writes where the job has none. -/
def claimedLease (input : ClaimInput) (now expiresAt claimToken : String) : LeaseRow :=
  ⟨input.jobId, input.leaseOwner, claimToken, now, expiresAt, 1⟩

/-- The batch of a claim: the expiry receipt, the preemption, the claim receipt. -/
def claimBatch (input : ClaimInput) (now expiresAt claimToken eventId expiredEventId : String) :
    List Statement :=
  [.insertExpiredEvent expiredEventId input.requestId input.jobId now,
    .preempt (claimedLease input now expiresAt claimToken),
    .insertClaimedEvent eventId input.leaseOwner input.requestId now input.jobId claimToken]

/-- The answer of a claim that finds itself the holder of the lease `l`. -/
def claimedOutcome (input : ClaimInput) (l : LeaseRow) : ClaimOutcome :=
  .CLAIMED input.jobId l.leaseOwner l.claimedAt l.leaseExpiresAt l.claimCount l.claimCount
    input.requestId

/-- The denial of a claim on a terminal job, with its receipt. -/
def denyTerminal (input : ClaimInput) (now : String) : Query ClaimOutcome := do
  let event ← eventRow input.jobId .CLAIM_DENIED input.leaseOwner none none
    ⟨some "TERMINAL", none⟩ input.requestId now
  let _ ← batch [.insertEvent event]
  return .NOT_CLAIMABLE input.jobId .TERMINAL input.requestId

/-- The attempts of a claim to preempt the lease, at most `attempts` of them. -/
def claimAttempts (input : ClaimInput) (now expiresAt : String) : ℕ → Query ClaimOutcome
  | 0 => fail .STORE_UNAVAILABLE
  | attempts + 1 => do
    let tokenHex ← randomHex32
    let claimToken := "clt_" ++ tokenHex
    let eventHex ← randomHex32
    let expiredHex ← randomHex32
    let _ ← batch (claimBatch input now expiresAt claimToken ("evt_" ++ eventHex)
      ("evt_" ++ expiredHex))
    let lease ← selectLease input.jobId
    match lease.filter fun l => l.leaseOwner = input.leaseOwner && l.claimToken = claimToken with
    | some l => return claimedOutcome input l
    | none =>
      if ← selectTerminal input.jobId then denyTerminal input now
      else
        let deferred ← selectDeferral input.jobId
        if deferred.any fun d => decide (now < d.recheckAt) then
          return .NOT_CLAIMABLE input.jobId .DEFERRED input.requestId
        else
          let current ← selectLease input.jobId
          match current.filter fun l => decide (now < l.leaseExpiresAt) with
          | none => claimAttempts input now expiresAt attempts
          | some l =>
            if l.leaseOwner = input.leaseOwner then return claimedOutcome input l
            else return .ALREADY_CLAIMED input.jobId l.leaseOwner l.leaseExpiresAt input.requestId

def claimResearchJob (P : Platform) (input : ClaimInput) : Query ClaimOutcome :=
  if !jobIdBounded input.jobId then fail .FILTERED
  else if input.leaseOwner = "" then fail .INTEGRITY_FAILED
  else do
    let now ← normalizedIso P input.now
    if !(← selectJob input.jobId) then
      return .NOT_CLAIMABLE input.jobId .NOT_FOUND input.requestId
    else if ← selectTerminal input.jobId then denyTerminal input now
    else
      let activeDeferral ← selectDeferral input.jobId
      if activeDeferral.any fun d => decide (now < d.recheckAt) then
        return .NOT_CLAIMABLE input.jobId .DEFERRED input.requestId
      else match P.addSeconds now RESEARCH_LEASE_TTL_SECONDS with
        | none => throw .range
        | some expiresAt => claimAttempts input now expiresAt 2

/-! ## Submit -/

structure SubmitInput where
  jobId : String
  expectedGeneration : ℚ
  idempotencyKey : String
  origin : Option String
  proposal : Json
  callerPrincipal : String
  requestId : String
  now : String

inductive SubmitOutcome where
  | ACCEPTED (jobId proposalId requestId : String)
  | ACCEPTED_SYNTHETIC (jobId proposalId requestId : String)
  | IDEMPOTENT_REPLAY (jobId proposalId originalCreatedAt requestId : String)
  | REJECTED (jobId : String) (reason : SubmitReason) (subReason : Option LeaseSubReason)
      (requestId : String)
deriving DecidableEq

/-- `Number.isInteger(g) && g >= 1`. -/
def generationValid (g : ℚ) : Bool := decide (g.den = 1 ∧ 1 ≤ g.num)

/-- What a submission carries through its batches. -/
structure Race where
  jobId : String
  idempotencyKey : String
  prepared : PreparedProposal
  callerPrincipal : String
  requestId : String
  now : String

def Race.rejected (r : Race) (reason : SubmitReason) (subReason : Option LeaseSubReason) :
    SubmitOutcome :=
  .REJECTED r.jobId reason subReason r.requestId

/-- The row of a submission, before its status is decided. -/
def Race.row (r : Race) (proposalId : String) (origin : ResearchOrigin) (status : ProposalStatus)
    (rejectReason : Option SubmitReason) : ProposalRow :=
  { proposalId := proposalId, jobId := r.jobId, idempotencyKey := r.idempotencyKey,
    callerPrincipal := r.callerPrincipal, origin := origin, status := status,
    rejectReason := rejectReason, payloadJson := r.prepared.payloadJson,
    payloadSha256 := r.prepared.payloadSha256, createdAt := r.now, requestId := r.requestId }

/-- The verdict on a row with the submission's idempotency key; `none` is a conflict. -/
def outcomeForExistingProposal (existing : ProposalRow) (r : Race) : Option SubmitOutcome :=
  if existing.payloadSha256 = r.prepared.payloadSha256 then
    if existing.status = .RECEIVED then
      some (.IDEMPOTENT_REPLAY r.jobId existing.proposalId existing.createdAt r.requestId)
    else some (r.rejected (existing.rejectReason.getD .VALIDATION_FAILED) none)
  else none

def writeConflictEvent (r : Race) (existingProposalId : String) : Query Unit := do
  let event ← eventRow r.jobId .SUBMIT_CONFLICT r.callerPrincipal (some existingProposalId) none
    ⟨some "CONFLICT", none⟩ r.requestId r.now
  let _ ← batch [.insertEvent event]
  return ()

/-- Re-read the idempotency row after a batch of unknown fate; `none` where there is none, or where
it could not be read. -/
def resolveProposalRace (r : Race) : Query (Option SubmitOutcome) := do
  let existing ← tryCatch (selectProposalByIdempotencyKey r.idempotencyKey) fun _ => return none
  match existing with
  | none => return none
  | some row =>
    match outcomeForExistingProposal row r with
    | some verdict => return some verdict
    | none => do
      tryCatch (writeConflictEvent r row.proposalId) fun _ => fail .STORE_UNAVAILABLE
      return some (r.rejected .CONFLICT none)

def runProposalBatch (statements : List Statement) (r : Race) : Query (Option SubmitOutcome) :=
  tryCatch (do let _ ← batch statements; return none) fun _ => resolveProposalRace r

/-- The batch of a refused submission. -/
def rejectBatch (row : ProposalRow) (event : EventRow) : List Statement :=
  [.insertProposal row, .insertEvent event]

/-- The batch of an accepted formal result. -/
def formalBatch (row : ProposalRow) (f : Fence) (received completed : EventRow) : List Statement :=
  [.insertFencedProposal row f,
    .insertFencedTerminal ⟨row.jobId, row.proposalId, row.createdAt⟩ f,
    .deleteFencedLease f,
    .insertCompletionEvent received row.jobId row.proposalId,
    .insertCompletionEvent completed row.jobId row.proposalId]

/-- The batch of an accepted synthetic or replayed result. -/
def syntheticBatch (row : ProposalRow) (event : EventRow) : List Statement :=
  [.insertProposal row, .deleteLease row.jobId, .insertEvent event]

/-- Store a refused submission and answer it. -/
def rejectProposal (r : Race) (origin : ResearchOrigin) (reason : SubmitReason) (tag : EventDetail)
    (subReason : Option LeaseSubReason) : Query SubmitOutcome := do
  let hex ← randomHex32
  let proposalId := "prp_" ++ hex
  let event ← eventRow r.jobId .SUBMIT_REJECTED r.callerPrincipal (some proposalId) (some origin)
    tag r.requestId r.now
  let outcome ← runProposalBatch
    (rejectBatch (r.row proposalId origin .REJECTED (some reason)) event) r
  match outcome with
  | some verdict => return verdict
  | none => return r.rejected reason subReason

/-- The answer of a formal submission whose batch left no row of its own. -/
def formalLost (r : Race) : Query SubmitOutcome := do
  match ← resolveProposalRace r with
  | some verdict => return verdict
  | none =>
    if ← selectTerminal r.jobId then return r.rejected .SECOND_RESULT none
    else return r.rejected .LEASE_INVALID none

/-- Accept a formal result under the presented lease. -/
def acceptFormal (r : Race) (generation : ℕ) : Query SubmitOutcome := do
  let hex ← randomHex32
  let proposalId := "prp_" ++ hex
  let _ ← randomHex32
  let receivedHex ← randomHex32
  let completedHex ← randomHex32
  let event (hex : String) (eventType : EventType) : EventRow :=
    ⟨"evt_" ++ hex, r.jobId, eventType, r.callerPrincipal, some proposalId, some .CHATGPT,
      ⟨none, none⟩, r.requestId, r.now⟩
  let committed ← tryCatch (do
      let _ ← batch (formalBatch (r.row proposalId .CHATGPT .RECEIVED none)
        ⟨r.jobId, r.callerPrincipal, generation, r.now⟩ (event receivedHex .SUBMIT_RECEIVED)
        (event completedHex .COMPLETED))
      return true) fun _ => return false
  if !committed then formalLost r
  else
    let committedProposal ← selectProposalByIdempotencyKey r.idempotencyKey
    if committedProposal.any fun p => p.proposalId = proposalId && p.status = .RECEIVED then
      if ← terminalMatchesProposal r.jobId proposalId then
        return .ACCEPTED r.jobId proposalId r.requestId
      else formalLost r
    else formalLost r

/-- Accept a synthetic or replayed result, and release the job's lease. -/
def acceptSynthetic (r : Race) (origin : ResearchOrigin) : Query SubmitOutcome := do
  let hex ← randomHex32
  let proposalId := "prp_" ++ hex
  let event ← eventRow r.jobId .SUBMIT_RECEIVED r.callerPrincipal (some proposalId) (some origin)
    ⟨none, none⟩ r.requestId r.now
  let outcome ← runProposalBatch
    (syntheticBatch (r.row proposalId origin .RECEIVED none) event) r
  match outcome with
  | some verdict => return verdict
  | none => return .ACCEPTED_SYNTHETIC r.jobId proposalId r.requestId

/-- The first lease rule that the lease breaks: existence, expiry, owner, generation. -/
def leaseSubReason (lease : Option LeaseRow) (owner : String) (generation : ℕ) (now : String) :
    Option LeaseSubReason :=
  match lease with
  | none => some .NO_LEASE
  | some l =>
    if l.leaseExpiresAt ≤ now then some .EXPIRED
    else if l.leaseOwner ≠ owner then some .OWNER_MISMATCH
    else if l.claimCount ≠ generation then some .GENERATION_STALE
    else none

def LeaseSubReason.text : LeaseSubReason → String
  | NO_LEASE => "NO_LEASE"
  | EXPIRED => "EXPIRED"
  | OWNER_MISMATCH => "OWNER_MISMATCH"
  | GENERATION_STALE => "GENERATION_STALE"

/-- The declared origin; a submission without one declares a formal result. -/
def declaredOrigin : Option String → Option ResearchOrigin
  | none => some .CHATGPT
  | some "CHATGPT" => some .CHATGPT
  | some "SYNTHETIC" => some .SYNTHETIC
  | some "REPLAY" => some .REPLAY
  | some _ => none

/-- The declared origin, downgraded for a caller that can file no formal result. -/
def effectiveOrigin (callerPrincipal : String) (declared : ResearchOrigin) : ResearchOrigin :=
  if !isFormalResearchOwner callerPrincipal && declared = .CHATGPT then .SYNTHETIC else declared

/-- A formal owner declares another origin than its own. -/
def productionOriginViolation (callerPrincipal : String) (declared : ResearchOrigin) : Bool :=
  isFormalResearchOwner callerPrincipal && declared ≠ .CHATGPT

/-- The tag of the structural rule that fired, for the audit event. -/
def structureTag (violation : Bool) (prepared : PreparedProposal) : String :=
  if violation then "origin_not_chatgpt"
  else if prepared.oversize then prepared.structureError.getD "oversize"
  else prepared.structureError.getD "structure_invalid"

/-- A submission past the idempotency check, with its origin settled. -/
def submitFresh (r : Race) (generation : ℕ) (violation : Bool) (origin : ResearchOrigin) :
    Query SubmitOutcome :=
  if violation || r.prepared.oversize || r.prepared.structureError.isSome then
    rejectProposal r origin .VALIDATION_FAILED
      ⟨some "VALIDATION_FAILED", some (structureTag violation r.prepared)⟩ none
  else do
    let lease ← selectLease r.jobId
    match leaseSubReason lease r.callerPrincipal generation r.now with
    | some subReason =>
      rejectProposal r origin .LEASE_INVALID ⟨some "LEASE_INVALID", some subReason.text⟩
        (some subReason)
    | none =>
      if origin = .CHATGPT then
        match ← selectFormal r.jobId with
        | some _ => rejectProposal r .CHATGPT .SECOND_RESULT ⟨some "SECOND_RESULT", none⟩ none
        | none => acceptFormal r generation
      else acceptSynthetic r origin

def submitResearchResultProposal (P : Platform) (input : SubmitInput) : Query SubmitOutcome :=
  if !jobIdBounded input.jobId then fail .FILTERED
  else if input.callerPrincipal = "" then fail .INTEGRITY_FAILED
  else if !generationValid input.expectedGeneration then
    return .REJECTED input.jobId .VALIDATION_FAILED none input.requestId
  else do
    let now ← normalizedIso P input.now
    if !matchesIdempotencyKeyPattern input.idempotencyKey then
      return .REJECTED input.jobId .VALIDATION_FAILED none input.requestId
    else
      let r : Race :=
        { jobId := input.jobId, idempotencyKey := input.idempotencyKey,
          prepared := prepareProposal P input.proposal input.jobId,
          callerPrincipal := input.callerPrincipal, requestId := input.requestId, now := now }
      match ← selectProposalByIdempotencyKey input.idempotencyKey with
      | some existing =>
        match outcomeForExistingProposal existing r with
        | some verdict => return verdict
        | none => do
          writeConflictEvent r existing.proposalId
          return r.rejected .CONFLICT none
      | none =>
        match declaredOrigin input.origin with
        | none => return r.rejected .VALIDATION_FAILED none
        | some declared =>
          submitFresh r input.expectedGeneration.num.toNat
            (productionOriginViolation input.callerPrincipal declared)
            (effectiveOrigin input.callerPrincipal declared)

/-! ## Defer -/

structure DeferInput where
  jobId : String
  expectedGeneration : ℚ
  idempotencyKey : String
  reason : Option DeferReason
  recheckAt : String
  callerPrincipal : String
  requestId : String
  now : String

inductive DeferStatus where
  | DEFERRED
  | CLAIMED
  | COMPLETED
  | QUEUED
deriving DecidableEq

inductive DeferOutcome where
  | DEFERRED (jobId recheckAt requestId : String)
  | IDEMPOTENT_REPLAY (jobId recheckAt : String) (currentStatus : DeferStatus) (requestId : String)
  | REJECTED (jobId : String) (reason : SubmitReason) (subReason : Option LeaseSubReason)
      (requestId : String)
deriving DecidableEq

def DeferReason.text : DeferReason → String
  | RECHECK_REQUIRED => "RECHECK_REQUIRED"
  | UPSTREAM_UNAVAILABLE => "UPSTREAM_UNAVAILABLE"
  | NEEDS_OWNER_INPUT => "NEEDS_OWNER_INPUT"

/-- The canonical action payload that an idempotency key of a deferral is bound to. -/
def deferPayload (jobId owner : String) (generation : ℕ) (reason : DeferReason)
    (recheckAt : String) : Json :=
  .obj [("job_id", .str jobId), ("lease_owner", .str owner),
    ("expected_generation", .num (.ofInt generation)), ("reason", .str reason.text),
    ("recheck_at", .str recheckAt)]

/-- The batch of a deferral: the recheck gate and the fenced release. -/
def deferBatch (row : DeferralRow) (f : Fence) : List Statement :=
  [.insertFencedDeferral row f, .deleteFencedLease f]

def deferredCurrentStatus (jobId now : String) : Query DeferStatus := do
  if ← selectTerminal jobId then return .COMPLETED
  else
    let lease ← selectLease jobId
    if lease.any fun l => decide (now < l.leaseExpiresAt) then return .CLAIMED
    else
      let deferral ← selectDeferral jobId
      if deferral.any fun d => decide (now < d.recheckAt) then return .DEFERRED
      else return .QUEUED

/-- The verdict on a deferral row with the same idempotency key. -/
def deferReplayOutcome (jobId requestId now payloadSha256 : String) (existing : DeferralRow) :
    Query DeferOutcome :=
  if existing.payloadSha256 ≠ payloadSha256 then
    return .REJECTED jobId .CONFLICT none requestId
  else do
    let status ← deferredCurrentStatus jobId now
    return .IDEMPOTENT_REPLAY jobId existing.recheckAt status requestId

/-- Write the deferral and answer what became of it. -/
def deferFenced (row : DeferralRow) (f : Fence) : Query DeferOutcome := do
  let replay := deferReplayOutcome row.jobId row.requestId row.deferredAt row.payloadSha256
  let result ← tryCatch (do let ns ← batch (deferBatch row f); return some ns) fun _ => return none
  match result with
  | none =>
    let concurrent ← tryCatch (selectDeferralByIdempotencyKey row.idempotencyKey)
      fun _ => return none
    match concurrent with
    | some existing => replay existing
    | none => fail .STORE_UNAVAILABLE
  | some ns =>
    if ns.headD 0 = 1 then return .DEFERRED row.jobId row.recheckAt row.requestId
    else match ← selectDeferralByIdempotencyKey row.idempotencyKey with
      | some existing => replay existing
      | none =>
        if (← selectDeferral row.jobId).isSome then
          return .REJECTED row.jobId .CONFLICT none row.requestId
        else if ← selectTerminal row.jobId then
          return .REJECTED row.jobId .SECOND_RESULT none row.requestId
        else
          let lease ← selectLease row.jobId
          return .REJECTED row.jobId .LEASE_INVALID
            (some ((leaseSubReason lease f.owner f.generation f.now).getD .NO_LEASE)) row.requestId

def deferResearchJob (P : Platform) (input : DeferInput) : Query DeferOutcome :=
  if !jobIdBounded input.jobId then fail .FILTERED
  else if input.callerPrincipal = "" then fail .INTEGRITY_FAILED
  else if !generationValid input.expectedGeneration then
    return .REJECTED input.jobId .VALIDATION_FAILED none input.requestId
  else if !matchesIdempotencyKeyPattern input.idempotencyKey then
    return .REJECTED input.jobId .VALIDATION_FAILED none input.requestId
  else match input.reason with
    | none => return .REJECTED input.jobId .VALIDATION_FAILED none input.requestId
    | some reason => do
      let now ← normalizedIso P input.now
      let recheckAt ← normalizedIso P input.recheckAt
      let generation := input.expectedGeneration.num.toNat
      let payloadSha256 := P.sha256Hex
        (deferPayload input.jobId input.callerPrincipal generation reason recheckAt).canonicalText
      match ← selectDeferralByIdempotencyKey input.idempotencyKey with
      | some sameKey =>
        deferReplayOutcome input.jobId input.requestId now payloadSha256 sameKey
      | none =>
        if recheckAt ≤ now then
          return .REJECTED input.jobId .VALIDATION_FAILED none input.requestId
        else if (← selectDeferral input.jobId).isSome then
          return .REJECTED input.jobId .CONFLICT none input.requestId
        else
          deferFenced
            { jobId := input.jobId, idempotencyKey := input.idempotencyKey,
              leaseOwner := input.callerPrincipal, reason := reason, recheckAt := recheckAt,
              deferredAt := now, requestId := input.requestId, payloadSha256 := payloadSha256,
              expectedGeneration := generation }
            ⟨input.jobId, input.callerPrincipal, generation, now⟩

/-! ## Callers -/

/-- One call of a queue operation. -/
inductive Request where
  | claim (input : ClaimInput)
  | submit (input : SubmitInput)
  | defer (input : DeferInput)

/-- The answer of a queue operation. -/
inductive Response where
  | claim (outcome : ClaimOutcome)
  | submit (outcome : SubmitOutcome)
  | defer (outcome : DeferOutcome)
deriving DecidableEq

/-- Serve one request. -/
def serve (P : Platform) : Request → Query Response
  | .claim input => Response.claim <$> claimResearchJob P input
  | .submit input => Response.submit <$> submitResearchResultProposal P input
  | .defer input => Response.defer <$> deferResearchJob P input

/-- The state of a run: the callers' requests, by caller, served on one store. -/
abbrev Run := Config Raised Op Res Db Choice Response

/-- The queue over some job records, before any of the requests has taken a step. -/
def start (P : Platform) (records : List JobRecord) (requests : ℕ → Request) : Run :=
  .start (.initial records) fun t => serve P (requests t)

end QuantproCollector.ResearchWorkflow
