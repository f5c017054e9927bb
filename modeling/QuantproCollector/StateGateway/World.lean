import QuantproCollector.Lib.JsonText
import QuantproCollector.Lib.Run
import QuantproCollector.Lib.Table
import QuantproCollector.Platform

/-!
# The state gateway's world

The rows of the two D1 tables of the gateway, the issue comments of the two GitHub ledgers, the
requests a caller can make of them, and what each request does.

A D1 statement is atomic; it can fail before or after it takes effect, and its caller sees the same
error either way. GitHub may answer a request truthfully, with any response at all, or not at all,
and it may accept a POST whatever it answers; a response with a 2xx status to a POST means that it
was accepted. Creating a table that may exist, and looking for it before a read, fail together with
the statement that follows.
-/

namespace QuantproCollector.StateGateway

open Relational Async

/-! ## The runtime -/

/-- An issue that the schema library reports of a refused value. -/
structure SchemaIssue where
  path : List String
  code : String
  keys : List String

/-- What the gateway takes from its runtime beyond the platform. -/
structure Runtime extends Platform where
  /-- `a.localeCompare(b)`. -/
  localeCompare : String → String → Ordering
  /-- `Date.parse(text)`, or `none` where it is `NaN`. -/
  dateParse : String → Option ℤ
  /-- The date of a text less a number of days, as an ISO text; `none` where it is invalid. -/
  daysBefore : String → ℕ → Option String
  /-- The issues of a value that the named schema refuses. -/
  issues : String → Json → List SchemaIssue

/-- A runtime that knows the listed digests and times; it compares texts by their code units. -/
def tableRuntime (digests : List (String × String)) (times : List (String × ℤ))
    (leaseEnds : List (String × String)) : Runtime where
  sha256Hex text := (digests.lookup text).getD ""
  isoOfText text := (times.lookup text).map fun _ => text
  addSeconds text _ := leaseEnds.lookup text
  numberOfText _ := none
  localeCompare a b := if a = b then .eq else if Json.keyLe a b then .lt else .gt
  dateParse text := times.lookup text
  daysBefore _ _ := none
  issues _ _ := []

/-! ## Errors -/

inductive StateWriteChannel where
  | MARKET
  | INDUSTRY
  | COMPANY
  | CLOSE
deriving DecidableEq

def StateWriteChannel.name : StateWriteChannel → String
  | .MARKET => "MARKET"
  | .INDUSTRY => "INDUSTRY"
  | .COMPANY => "COMPANY"
  | .CLOSE => "CLOSE"

inductive StateGatewayPhase where
  | AUTH
  | VALIDATE
  | READ
  | RECONCILE
  | WRITE
  | READBACK
deriving DecidableEq

def StateGatewayPhase.name : StateGatewayPhase → String
  | .AUTH => "AUTH"
  | .VALIDATE => "VALIDATE"
  | .READ => "READ"
  | .RECONCILE => "RECONCILE"
  | .WRITE => "WRITE"
  | .READBACK => "READBACK"

inductive StateGatewayErrorCode where
  | STATE_FORBIDDEN
  | STATE_VALIDATION_FAILED
  | STATE_CONFLICT
  | STATE_CHAIN_MISMATCH
  | STATE_UNAVAILABLE
  | STATE_OUTCOME_UNKNOWN
  | STATE_READBACK_FAILED
deriving DecidableEq

def StateGatewayErrorCode.name : StateGatewayErrorCode → String
  | .STATE_FORBIDDEN => "STATE_FORBIDDEN"
  | .STATE_VALIDATION_FAILED => "STATE_VALIDATION_FAILED"
  | .STATE_CONFLICT => "STATE_CONFLICT"
  | .STATE_CHAIN_MISMATCH => "STATE_CHAIN_MISMATCH"
  | .STATE_UNAVAILABLE => "STATE_UNAVAILABLE"
  | .STATE_OUTCOME_UNKNOWN => "STATE_OUTCOME_UNKNOWN"
  | .STATE_READBACK_FAILED => "STATE_READBACK_FAILED"

structure StateGatewayError where
  code : StateGatewayErrorCode
  phase : StateGatewayPhase
  message : String
  retryable : Bool
  httpStatus : Option ℕ
deriving DecidableEq

inductive MarketLedgerErrorCode where
  | MARKET_LEDGER_UNAVAILABLE
  | CHECKPOINT_VALIDATION_FAILED
  | CHECKPOINT_CONFLICT
  | CHECKPOINT_CHAIN_MISMATCH
  | CHECKPOINT_READBACK_FAILED
deriving DecidableEq

inductive InvestmentLedgerErrorCode where
  | INVESTMENT_LEDGER_UNAVAILABLE
  | INVESTMENT_LEDGER_VALIDATION_FAILED
  | INVESTMENT_LEDGER_EVENT_ID_CONFLICT
  | INVESTMENT_LEDGER_READBACK_FAILED
deriving DecidableEq

inductive RunEnvelopeOutcome where
  | COMPLETED
  | SILENT
  | BLOCKED
  | FAILED
  | UNKNOWN
deriving DecidableEq

/-- The recorded run that a `RunEnvelopeError` carries. -/
structure RunFields where
  runId : Option String
  outcome : Option RunEnvelopeOutcome
  envelopeKey : Option String
  blockerCode : Option String
deriving DecidableEq

/-- What the gateway's code can throw; `raw` is any error of the runtime or of D1. -/
inductive Thrown where
  | gateway (e : StateGatewayError)
  | envelope (e : StateGatewayError) (run : RunFields)
  | market (code : MarketLedgerErrorCode) (message : String) (httpStatus : Option ℕ)
  | investment (code : InvestmentLedgerErrorCode) (message : String) (httpStatus : Option ℕ)
  | raw
deriving DecidableEq

/-- A gateway error that is not worth a retry. -/
def Thrown.refusal (code : StateGatewayErrorCode) (phase : StateGatewayPhase) (message : String) :
    Thrown :=
  .gateway ⟨code, phase, message, false, none⟩

/-! ## Rows -/

inductive StateReceiptStatus where
  | PENDING
  | PERSISTED
  | IDEMPOTENT_REPLAY
  | OUTCOME_UNKNOWN
  | CONFLICT
  | FAILED
deriving DecidableEq

structure StateWriteReceipt where
  write_key : String
  channel : StateWriteChannel
  payload_sha256 : String
  status : StateReceiptStatus
  comment_id : Option String
  comment_url : Option String
  attempt_count : ℕ
  lease_owner : Option String
  lease_until : Option String
  created_at : String
  updated_at : String
  last_error_code : Option StateGatewayErrorCode
  last_error_phase : Option StateGatewayPhase
  last_http_status : Option ℕ
  envelope_key : Option String
  event_count : Option ℕ
deriving DecidableEq

structure StoredRunV3Row where
  task_name : String
  run_id : String
  envelope_key : String
  channel : Option StateWriteChannel
  write_key : Option String
  as_of : Option String
  received_at : String
  slot : Option String
  slot_date : Option String
  fresh_delta_count : Option ℕ
  event_count : Option ℕ
  outcome : RunEnvelopeOutcome
  blocker_code : Option String
  summary : Option String
  prompt_version : Option String
  collector_build_sha : Option String
  cloudflare_version_id : Option String
  created_at : String
  updated_at : String
deriving DecidableEq

/-- The two ledgers: issue 2 for market checkpoints, issue 3 for investment batches. -/
inductive Ledger where
  | market
  | investment
deriving DecidableEq

/-- An issue comment. -/
structure Comment where
  id : ℕ
  url : String
  created_at : String
  body : String
deriving DecidableEq

def receiptIndexes : List (StateWriteReceipt → Option String) :=
  [fun r => some r.write_key]

def runIndexes : List (StoredRunV3Row → Option (String × String)) :=
  [fun r => some (r.task_name, r.run_id), fun r => some (r.task_name, r.envelope_key)]

structure World where
  receipts : Table StateWriteReceipt String receiptIndexes
  runs : Table StoredRunV3Row (String × String) runIndexes
  market : List Comment
  investment : List Comment
  nextCommentId : ℕ

/-- No receipts, no runs and no comments. -/
def World.empty : World := ⟨Table.empty, Table.empty, [], [], 1⟩

/-- The comments of a ledger, oldest first. -/
def World.comments (w : World) : Ledger → List Comment
  | .market => w.market
  | .investment => w.investment

def World.addComment (w : World) (l : Ledger) (c : Comment) : World :=
  match l with
  | .market => { w with market := w.market ++ [c], nextCommentId := w.nextCommentId + 1 }
  | .investment => { w with investment := w.investment ++ [c], nextCommentId := w.nextCommentId + 1 }

@[simp] theorem World.addComment_receipts (w : World) (l : Ledger) (c : Comment) :
    (w.addComment l c).receipts = w.receipts := by
  cases l <;> rfl

@[simp] theorem World.addComment_runs (w : World) (l : Ledger) (c : Comment) :
    (w.addComment l c).runs = w.runs := by
  cases l <;> rfl

/-! ## Requests -/

/-- A page of a ledger's comments, of those created at `since` or later. -/
structure Page where
  ledger : Ledger
  since : Option String
  page : ℕ
deriving DecidableEq

inductive Request where
  | list (page : Page)
  | create (ledger : Ledger) (body : List Char)
  | get (ledger : Ledger) (id : String)
deriving DecidableEq

/-- A response: its body as JSON where it is JSON, and the next page that its `Link` header names. -/
structure HttpResponse where
  status : ℕ
  body : Option Json
  next : Option Page

/-- `response.ok`. -/
def HttpResponse.ok (r : HttpResponse) : Bool :=
  decide (200 ≤ r.status ∧ r.status ≤ 299)

structure OwnerContext where
  portfolioVersion : String
  liveUniverseHash : String
deriving DecidableEq

structure LeaseRequest where
  writeKey : String
  channel : StateWriteChannel
  payloadSha256 : String
  requestId : String
  leaseUntil : String
  now : String
deriving DecidableEq

structure FinalizeRequest where
  writeKey : String
  requestId : String
  status : StateReceiptStatus
  updatedAt : String
  commentId : Option String
  commentUrl : Option String
  lastErrorCode : Option StateGatewayErrorCode
  lastErrorPhase : Option StateGatewayPhase
  lastHttpStatus : Option ℕ
  envelopeKey : Option String
  eventCount : Option ℕ
deriving DecidableEq

structure RunUpdate where
  task_name : String
  run_id : String
  channel : Option StateWriteChannel
  write_key : Option String
  as_of : Option String
  slot : Option String
  slot_date : Option String
  fresh_delta_count : Option ℕ
  event_count : Option ℕ
  outcome : RunEnvelopeOutcome
  blocker_code : Option String
  summary : Option String
  collector_build_sha : Option String
  cloudflare_version_id : Option String
  updated_at : String
deriving DecidableEq

/-- Everything the gateway's code asks of the outside. -/
inductive Op where
  | clock
  | randomHex
  | ownerContext
  | fetch (request : Request)
  | insertReceipt (writeKey : String) (channel : StateWriteChannel) (payloadSha256 now : String)
  | selectReceipt (writeKey : String)
  | leaseReceipt (request : LeaseRequest)
  | finalizeReceipt (request : FinalizeRequest)
  | selectRun (taskName envelopeKey : String)
  | insertRun (row : StoredRunV3Row)
  | updateRun (update : RunUpdate)
deriving DecidableEq

/-- What each operation answers; `insertRun` tells whether a row was inserted. -/
abbrev Res : Op → Type
  | .clock => String
  | .randomHex => String
  | .ownerContext => OwnerContext
  | .fetch _ => HttpResponse
  | .insertReceipt .. => Unit
  | .selectReceipt _ => Option StateWriteReceipt
  | .leaseReceipt _ => Unit
  | .finalizeReceipt _ => Unit
  | .selectRun .. => Option StoredRunV3Row
  | .insertRun _ => Bool
  | .updateRun _ => Unit

/-- A program of the gateway. -/
abbrev Program (α : Type) := Script Thrown Op Res α

/-- `new Date().toISOString()`. -/
def clock : Program String := Script.perform Op.clock

/-- `crypto.randomUUID().replaceAll("-", "")`. -/
def randomHex : Program String := Script.perform Op.randomHex

/-- `resolveOwnerContext()`. -/
def ownerContext : Program OwnerContext := Script.perform Op.ownerContext

def fetch (request : Request) : Program HttpResponse := Script.perform (Op.fetch request)

/-- What a program returns, or `none` where it raises. -/
def attempt {α : Type} (s : Program α) : Program (Option α) :=
  tryCatch (some <$> s) fun _ => pure none

/-! ## Statements -/

def receiptFor (w : World) (writeKey : String) : Option StateWriteReceipt :=
  w.receipts.find? fun r => r.write_key = writeKey

/-- A receipt before its first attempt. -/
def freshReceipt (writeKey : String) (channel : StateWriteChannel) (payloadSha256 now : String) :
    StateWriteReceipt where
  write_key := writeKey
  channel := channel
  payload_sha256 := payloadSha256
  status := .PENDING
  comment_id := none
  comment_url := none
  attempt_count := 0
  lease_owner := none
  lease_until := none
  created_at := now
  updated_at := now
  last_error_code := none
  last_error_phase := none
  last_http_status := none
  envelope_key := none
  event_count := none

/-- `INSERT OR IGNORE` of a fresh receipt. -/
def World.insertReceipt (w : World) (writeKey : String) (channel : StateWriteChannel)
    (payloadSha256 now : String) : World :=
  { w with
    receipts := w.receipts.upsert (freshReceipt writeKey channel payloadSha256 now) id fun _ => rfl }

/-- The lease of a receipt is free for the request: unset, run out, or the request's own. -/
def StateWriteReceipt.leaseFree (r : StateWriteReceipt) (requestId now : String) : Prop :=
  r.lease_owner = none ∨ r.lease_until = none ∨ (∃ t ∈ r.lease_until, t < now) ∨
    r.lease_owner = some requestId

instance (r : StateWriteReceipt) (requestId now : String) :
    Decidable (r.leaseFree requestId now) :=
  inferInstanceAs (Decidable (_ ∨ _ ∨ _ ∨ _))

/-- The `WHERE` clause of the lease. -/
def LeaseRequest.applies (l : LeaseRequest) (r : StateWriteReceipt) : Bool :=
  decide (r.write_key = l.writeKey ∧ r.payload_sha256 = l.payloadSha256 ∧ r.channel = l.channel ∧
    (r.status ≠ .PERSISTED ∧ r.status ≠ .IDEMPOTENT_REPLAY ∧ r.status ≠ .CONFLICT) ∧
    r.leaseFree l.requestId l.now)

def LeaseRequest.apply (l : LeaseRequest) (r : StateWriteReceipt) : StateWriteReceipt :=
  { r with
    status := .PENDING
    attempt_count := r.attempt_count + 1
    lease_owner := some l.requestId
    lease_until := some l.leaseUntil
    updated_at := l.now }

def World.leaseReceipt (w : World) (l : LeaseRequest) : World :=
  { w with
    receipts := w.receipts.modify l.applies l.apply (by
      intro ix hix r
      rw [List.mem_singleton.1 hix]
      rfl) }

def FinalizeRequest.applies (f : FinalizeRequest) (r : StateWriteReceipt) : Bool :=
  decide (r.write_key = f.writeKey ∧ r.lease_owner = some f.requestId)

def FinalizeRequest.apply (f : FinalizeRequest) (r : StateWriteReceipt) : StateWriteReceipt :=
  { r with
    status := f.status
    comment_id := f.commentId
    comment_url := f.commentUrl
    lease_owner := none
    lease_until := none
    updated_at := f.updatedAt
    last_error_code := f.lastErrorCode
    last_error_phase := f.lastErrorPhase
    last_http_status := f.lastHttpStatus
    envelope_key := f.envelopeKey
    event_count := f.eventCount }

def World.finalizeReceipt (w : World) (f : FinalizeRequest) : World :=
  { w with
    receipts := w.receipts.modify f.applies f.apply (by
      intro ix hix r
      rw [List.mem_singleton.1 hix]
      rfl) }

def runFor (w : World) (taskName envelopeKey : String) : Option StoredRunV3Row :=
  w.runs.find? fun r => r.task_name = taskName && r.envelope_key = envelopeKey

/-- `INSERT … ON CONFLICT(task_name, envelope_key) DO NOTHING`; a taken run id is an error. -/
def World.insertRun (w : World) (row : StoredRunV3Row) : Except Thrown Bool × World :=
  match runFor w row.task_name row.envelope_key with
  | some _ => (.ok false, w)
  | none =>
    match w.runs.insert? row with
    | some runs => (.ok true, { w with runs := runs })
    | none => (.error .raw, w)

/-- The `WHERE` clause of the run update. -/
def RunUpdate.applies (u : RunUpdate) (r : StoredRunV3Row) : Bool :=
  decide (r.task_name = u.task_name ∧ r.run_id = u.run_id ∧ r.outcome = .UNKNOWN)

def RunUpdate.apply (u : RunUpdate) (r : StoredRunV3Row) : StoredRunV3Row :=
  { r with
    channel := u.channel
    write_key := u.write_key
    as_of := u.as_of
    slot := u.slot
    slot_date := u.slot_date
    fresh_delta_count := u.fresh_delta_count
    event_count := u.event_count
    outcome := u.outcome
    blocker_code := u.blocker_code
    summary := u.summary
    collector_build_sha := u.collector_build_sha <|> r.collector_build_sha
    cloudflare_version_id := u.cloudflare_version_id <|> r.cloudflare_version_id
    updated_at := u.updated_at }

def World.updateRun (w : World) (u : RunUpdate) : World :=
  { w with
    runs := w.runs.modify u.applies u.apply (by
      intro ix hix r
      rcases List.mem_cons.1 hix with rfl | hix
      · rfl
      · rw [List.mem_singleton.1 hix]
        rfl) }

/-! ## GitHub -/

def Comment.json (c : Comment) : Json :=
  .obj [("id", .num (.ofInt c.id)), ("html_url", .str c.url), ("created_at", .str c.created_at),
    ("body", .str c.body)]

/-- The comments that a listing covers. -/
def listed (P : Runtime) (w : World) (l : Ledger) (since : Option String) : List Comment :=
  (w.comments l).filter fun c =>
    match since with
    | none => true
    | some since => match P.dateParse since, P.dateParse c.created_at with
      | some s, some t => decide (s ≤ t)
      | _, _ => false

def PAGE_SIZE : ℕ := 100

/-- One page of a listing; the first page is page 1. -/
def listPage (P : Runtime) (w : World) (p : Page) : HttpResponse :=
  let rest := (listed P w p.ledger p.since).drop ((p.page - 1) * PAGE_SIZE)
  { status := 200
    body := some (.arr ((rest.take PAGE_SIZE).map Comment.json))
    next := if PAGE_SIZE < rest.length then some { p with page := p.page + 1 } else none }

def commentUrl (l : Ledger) (id : ℕ) : String :=
  let issue := match l with
    | .market => "2"
    | .investment => "3"
  "https://github.com/zhushihao/quantpro-collector/issues/" ++ issue ++ "#issuecomment-" ++
    String.ofList (Decimal.ofInt id).text

/-- The comment that a POST creates. -/
def newComment (w : World) (l : Ledger) (body : List Char) (clock : String) : Comment :=
  ⟨w.nextCommentId, commentUrl l w.nextCommentId, clock, String.ofList body⟩

/-- The truthful answer of GitHub. -/
def githubAnswer (P : Runtime) (clock : String) (w : World) : Request → HttpResponse
  | .list p => listPage P w p
  | .create l body => ⟨201, some (newComment w l body clock).json, none⟩
  | .get l id =>
    match (w.comments l).find? fun c => String.ofList (Decimal.ofInt c.id).text = id with
    | some c => ⟨200, some c.json, none⟩
    | none => ⟨404, some (.obj [("message", .str "Not Found")]), none⟩

/-! ## The machine -/

/-- Whether and where a D1 statement fails. -/
inductive Fault where
  | none
  | before
  | after
deriving DecidableEq

/-- How GitHub answers: with the truth, not at all, or with some other response. -/
inductive HttpAnswer where
  | honest
  | lost
  | respond (response : HttpResponse)

/-- What the code does not decide. -/
structure Choice where
  clock : String
  hex : String
  owner : Except Thrown OwnerContext
  fault : Fault
  http : HttpAnswer
  /-- Whether a POST is accepted that is not answered truthfully. -/
  accepts : Bool

/-- Whether GitHub accepts the POST it is sent. -/
def Choice.accepted (ch : Choice) : Bool :=
  match ch.http with
  | .honest => true
  | .lost => ch.accepts
  | .respond r => ch.accepts || r.ok

/-- A D1 statement with its answer and effect. -/
def Fault.statement {α : Type} (f : Fault) (w : World) (r : Except Thrown α × World) :
    Except Thrown α × World :=
  match f with
  | .none => r
  | .before => (.error .raw, w)
  | .after => (.error .raw, r.2)

/-- What GitHub answers to a request. -/
def Choice.response (P : Runtime) (ch : Choice) (w : World) (request : Request) :
    Except Thrown HttpResponse :=
  match ch.http with
  | .honest => .ok (githubAnswer P ch.clock w request)
  | .lost => .error .raw
  | .respond r => .ok r

/-- What a request leaves of the world. -/
def Choice.afterRequest (ch : Choice) (w : World) : Request → World
  | .create l body => if ch.accepted then w.addComment l (newComment w l body ch.clock) else w
  | _ => w

/-- What an operation answers and does. -/
def perform (P : Runtime) (ch : Choice) : (op : Op) → World → Except Thrown (Res op) × World
  | .clock, w => (.ok ch.clock, w)
  | .randomHex, w => (.ok ch.hex, w)
  | .ownerContext, w => (ch.owner, w)
  | .fetch request, w => (ch.response P w request, ch.afterRequest w request)
  | .insertReceipt key channel sha now, w =>
    ch.fault.statement w (.ok (), w.insertReceipt key channel sha now)
  | .selectReceipt key, w => ch.fault.statement w (.ok (receiptFor w key), w)
  | .leaseReceipt l, w => ch.fault.statement w (.ok (), w.leaseReceipt l)
  | .finalizeReceipt f, w => ch.fault.statement w (.ok (), w.finalizeReceipt f)
  | .selectRun task key, w => ch.fault.statement w (.ok (runFor w task key), w)
  | .insertRun row, w => ch.fault.statement w (w.insertRun row)
  | .updateRun u, w => ch.fault.statement w (.ok (), w.updateRun u)

def machine (P : Runtime) : Machine Thrown Op Res World Choice where
  perform := perform P

end QuantproCollector.StateGateway
