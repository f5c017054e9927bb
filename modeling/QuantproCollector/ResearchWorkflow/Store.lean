import QuantproCollector.Lib.Run
import QuantproCollector.Lib.Table
import QuantproCollector.ResearchWorkflow.Proposal

/-!
# The research queue's store

The D1 tables of the queue with their unique indexes, the SQL statements the queue issues, and what
one request to D1 does. A batch runs its statements in order in one transaction: a constraint error
in any of them undoes the whole batch (`runBatch`). A request can also fail in transport, before or
after its transaction commits; the caller sees the same error either way.

`machine` is the queue's instance of the general machine. The only operation that reaches no store
is `randomHex32`, which the choice answers with any text at all: nothing here assumes that drawn
identifiers differ.
-/

namespace QuantproCollector.ResearchWorkflow

open Relational Async

/-! ## Rows -/

inductive ResearchOrigin where
  | CHATGPT
  | SYNTHETIC
  | REPLAY
deriving DecidableEq, Inhabited

inductive ProposalStatus where
  | RECEIVED
  | REJECTED
deriving DecidableEq

inductive ClaimReason where
  | NOT_FOUND
  | TERMINAL
  | DEFERRED
deriving DecidableEq

inductive SubmitReason where
  | CONFLICT
  | SECOND_RESULT
  | LEASE_INVALID
  | VALIDATION_FAILED
deriving DecidableEq

inductive LeaseSubReason where
  | NO_LEASE
  | EXPIRED
  | OWNER_MISMATCH
  | GENERATION_STALE
deriving DecidableEq

inductive EventType where
  | CLAIMED
  | CLAIM_DENIED
  | LEASE_EXPIRED
  | SUBMIT_RECEIVED
  | SUBMIT_REJECTED
  | SUBMIT_CONFLICT
  | COMPLETED
deriving DecidableEq

inductive DeferReason where
  | RECHECK_REQUIRED
  | UPSTREAM_UNAVAILABLE
  | NEEDS_OWNER_INPUT
deriving DecidableEq

/-- The reason of an event, and the tag of the rule behind it. -/
structure EventDetail where
  reason : Option String
  subReason : Option String
deriving DecidableEq

structure JobRecord where
  recordKey : String
  isPublic : Bool
deriving DecidableEq

structure LeaseRow where
  jobId : String
  leaseOwner : String
  claimToken : String
  claimedAt : String
  leaseExpiresAt : String
  claimCount : ℕ
deriving DecidableEq

structure TerminalRow where
  jobId : String
  proposalId : String
  completedAt : String
deriving DecidableEq

structure ProposalRow where
  proposalId : String
  jobId : String
  idempotencyKey : String
  callerPrincipal : String
  origin : ResearchOrigin
  status : ProposalStatus
  rejectReason : Option SubmitReason
  payloadJson : String
  payloadSha256 : String
  createdAt : String
  requestId : String
deriving DecidableEq

structure DeferralRow where
  jobId : String
  idempotencyKey : String
  leaseOwner : String
  reason : DeferReason
  recheckAt : String
  deferredAt : String
  requestId : String
  payloadSha256 : String
  expectedGeneration : ℕ
deriving DecidableEq

structure EventRow where
  eventId : String
  jobId : String
  eventType : EventType
  actor : String
  proposalId : Option String
  origin : Option ResearchOrigin
  detail : EventDetail
  requestId : String
  createdAt : String
deriving DecidableEq

/-- A formal result: the rows of the partial index `research_proposals_one_formal`. -/
def ProposalRow.Formal (p : ProposalRow) : Prop :=
  p.origin = .CHATGPT ∧ p.status = .RECEIVED

instance (p : ProposalRow) : Decidable p.Formal :=
  inferInstanceAs (Decidable (_ ∧ _))

def leaseIndexes : List (LeaseRow → Option String) :=
  [fun l => some l.jobId, fun l => some l.claimToken]

def terminalIndexes : List (TerminalRow → Option String) :=
  [fun r => some r.jobId]

def proposalIndexes : List (ProposalRow → Option String) :=
  [fun p => some p.proposalId, fun p => some p.idempotencyKey,
    fun p => if p.Formal then some p.jobId else none]

def deferralIndexes : List (DeferralRow → Option String) :=
  [fun d => some d.jobId, fun d => some d.idempotencyKey]

def eventIndexes : List (EventRow → Option String) :=
  [fun e => some e.eventId]

/-- The queue's part of the database. -/
structure Db where
  records : List JobRecord
  leases : Table LeaseRow String leaseIndexes
  terminal : Table TerminalRow String terminalIndexes
  proposals : Table ProposalRow String proposalIndexes
  deferrals : Table DeferralRow String deferralIndexes
  events : Table EventRow String eventIndexes

/-- The queue before its first request: some job records, every other table empty. -/
def Db.initial (records : List JobRecord) : Db :=
  ⟨records, .empty, .empty, .empty, .empty, .empty⟩

namespace Db

variable (db : Db)

def lease? (jobId : String) : Option LeaseRow :=
  db.leases.find? fun l => l.jobId = jobId

def isTerminal (jobId : String) : Bool :=
  (db.terminal.find? fun r => r.jobId = jobId).isSome

def deferral? (jobId : String) : Option DeferralRow :=
  db.deferrals.find? fun d => d.jobId = jobId

/-- `EXISTS (SELECT 1 FROM research_job_deferrals WHERE job_id=? AND recheck_at > ?)`. -/
def isDeferred (jobId now : String) : Bool :=
  (db.deferrals.find? fun d => d.jobId = jobId && decide (now < d.recheckAt)).isSome

def proposalByIdempotencyKey? (key : String) : Option ProposalRow :=
  db.proposals.find? fun p => p.idempotencyKey = key

end Db

/-! ## Statements -/

/-- The lease predicate that a fenced statement repeats. -/
structure Fence where
  jobId : String
  owner : String
  generation : ℕ
  now : String
deriving DecidableEq

/-- The lease is the one presented, and has not expired. -/
def Fence.Admits (f : Fence) (l : LeaseRow) : Prop :=
  l.jobId = f.jobId ∧ l.leaseOwner = f.owner ∧ l.claimCount = f.generation ∧
    f.now < l.leaseExpiresAt

instance (f : Fence) (l : LeaseRow) : Decidable (f.Admits l) :=
  inferInstanceAs (Decidable (_ ∧ _ ∧ _ ∧ _))

/-- `EXISTS (… live lease of the fence …) AND NOT EXISTS (… terminal row of the job …)`. -/
def Db.fenceHolds (db : Db) (f : Fence) : Bool :=
  (db.leases.find? fun l => decide (f.Admits l)).isSome && !db.isTerminal f.jobId

/-- The SQL statements of the queue, with their bound values. -/
inductive Statement where
  | insertEvent (e : EventRow)
  | insertExpiredEvent (eventId requestId jobId now : String)
  | preempt (l : LeaseRow)
  | insertClaimedEvent (eventId leaseOwner requestId now jobId claimToken : String)
  | insertProposal (p : ProposalRow)
  | insertFencedProposal (p : ProposalRow) (f : Fence)
  | insertFencedTerminal (r : TerminalRow) (f : Fence)
  | deleteLease (jobId : String)
  | deleteFencedLease (f : Fence)
  | insertCompletionEvent (e : EventRow) (jobId proposalId : String)
  | insertFencedDeferral (d : DeferralRow) (f : Fence)

/-- A write and the number of rows it changed. -/
abbrev Write := Option (Db × ℕ)

namespace Db

variable (db : Db)

def insertEvent (e : EventRow) : Write :=
  (db.events.insert? e).map fun t => ({ db with events := t }, 1)

def insertProposal (p : ProposalRow) : Write :=
  (db.proposals.insert? p).map fun t => ({ db with proposals := t }, 1)

def insertTerminal (r : TerminalRow) : Write :=
  (db.terminal.insert? r).map fun t => ({ db with terminal := t }, 1)

def insertDeferral (d : DeferralRow) : Write :=
  (db.deferrals.insert? d).map fun t => ({ db with deferrals := t }, 1)

def deleteLeases (p : LeaseRow → Bool) : Db × ℕ :=
  ({ db with leases := db.leases.deleteWhere p }, db.leases.rows.countP p)

/-- The upsert of a claim: it inserts the lease, or takes over a lease that `l.claimedAt` finds
expired with the next `claim_count`; a terminal job or an active deferral stops either. -/
def preempt (l : LeaseRow) : Write :=
  if db.isTerminal l.jobId || db.isDeferred l.jobId l.claimedAt then some (db, 0)
  else match db.lease? l.jobId with
    | none => (db.leases.insert? l).map fun t => ({ db with leases := t }, 1)
    | some current =>
      if current.leaseExpiresAt ≤ l.claimedAt then
        (db.leases.update? (fun r => r.jobId = l.jobId)
          fun r => { l with claimCount := r.claimCount + 1 }).map
            fun t => ({ db with leases := t }, 1)
      else some (db, 0)

/-- Run one statement; `none` is a constraint error. -/
def exec : Statement → Write
  | .insertEvent e => db.insertEvent e
  | .insertExpiredEvent eventId requestId jobId now =>
    match db.lease? jobId with
    | some l =>
      if l.leaseExpiresAt ≤ now && !db.isTerminal jobId && !db.isDeferred jobId now then
        db.insertEvent ⟨eventId, jobId, .LEASE_EXPIRED, l.leaseOwner, none, none, ⟨none, none⟩,
          requestId, now⟩
      else some (db, 0)
    | none => some (db, 0)
  | .preempt l => db.preempt l
  | .insertClaimedEvent eventId leaseOwner requestId now jobId claimToken =>
    match db.leases.find? fun l => l.jobId = jobId && l.leaseOwner = leaseOwner &&
        l.claimToken = claimToken with
    | some _ => db.insertEvent ⟨eventId, jobId, .CLAIMED, leaseOwner, none, none, ⟨none, none⟩,
        requestId, now⟩
    | none => some (db, 0)
  | .insertProposal p => db.insertProposal p
  | .insertFencedProposal p f => if db.fenceHolds f then db.insertProposal p else some (db, 0)
  | .insertFencedTerminal r f => if db.fenceHolds f then db.insertTerminal r else some (db, 0)
  | .deleteLease jobId => some (db.deleteLeases fun l => l.jobId = jobId)
  | .deleteFencedLease f => some (db.deleteLeases fun l => decide (f.Admits l))
  | .insertCompletionEvent e jobId proposalId =>
    if (db.terminal.find? fun r => r.jobId = jobId && r.proposalId = proposalId).isSome then
      db.insertEvent e
    else some (db, 0)
  | .insertFencedDeferral d f => if db.fenceHolds f then db.insertDeferral d else some (db, 0)

end Db

/-- Run the statements in order; the rows that each of them changed. -/
def runBatch : List Statement → Db → Option (Db × List ℕ)
  | [], db => some (db, [])
  | s :: ss, db => do
    let (db', n) ← db.exec s
    let (db'', ns) ← runBatch ss db'
    return (db'', n :: ns)

/-! ## Requests -/

inductive BoundaryCode where
  | FILTERED
  | STORE_UNAVAILABLE
  | INTEGRITY_FAILED
deriving DecidableEq

/-- What a queue function can raise: a boundary error of its own, an error of D1, or the
`RangeError` of a date out of range. -/
inductive Raised where
  | boundary (code : BoundaryCode)
  | store
  | range
deriving DecidableEq

inductive Op where
  | randomHex32
  | selectJob (jobId : String)
  | selectTerminal (jobId : String)
  | terminalMatchesProposal (jobId proposalId : String)
  | selectDeferral (jobId : String)
  | selectDeferralByIdempotencyKey (key : String)
  | selectLease (jobId : String)
  | selectProposalByIdempotencyKey (key : String)
  | selectFormal (jobId : String)
  | batch (statements : List Statement)

abbrev Res : Op → Type
  | .randomHex32 => String
  | .selectJob _ => Bool
  | .selectTerminal _ => Bool
  | .terminalMatchesProposal _ _ => Bool
  | .selectDeferral _ => Option DeferralRow
  | .selectDeferralByIdempotencyKey _ => Option DeferralRow
  | .selectLease _ => Option LeaseRow
  | .selectProposalByIdempotencyKey _ => Option ProposalRow
  | .selectFormal _ => Option ProposalRow
  | .batch _ => List ℕ

/-- How a request to D1 goes: it is answered, or it is lost before or after it takes effect. -/
inductive Fault where
  | none
  | lostBefore
  | lostAfter
deriving DecidableEq

/-- What the environment decides at one operation. -/
structure Choice where
  fault : Fault
  hex : String

/-- A read: it answers, or it fails. -/
def Choice.read {α : Type} (ch : Choice) (db : Db) (a : α) : Except Raised α × Db :=
  if ch.fault = .none then (.ok a, db) else (.error .store, db)

@[simp] theorem Choice.read_snd {α : Type} (ch : Choice) (db : Db) (a : α) :
    (ch.read db a).2 = db := by
  unfold Choice.read
  split <;> rfl

/-- A batch: all of it takes effect, or none of it. -/
def Choice.write (ch : Choice) (db : Db) (ss : List Statement) : Except Raised (List ℕ) × Db :=
  match ch.fault, runBatch ss db with
  | .none, some (db', ns) => (.ok ns, db')
  | .lostAfter, some (db', _) => (.error .store, db')
  | _, _ => (.error .store, db)

def perform (ch : Choice) (op : Op) (db : Db) : Except Raised (Res op) × Db :=
  match op with
  | .randomHex32 => (.ok ch.hex, db)
  | .selectJob jobId => ch.read db (db.records.any fun r => r.recordKey = jobId && r.isPublic)
  | .selectTerminal jobId => ch.read db (db.isTerminal jobId)
  | .terminalMatchesProposal jobId proposalId => ch.read db
      (db.terminal.find? fun r => r.jobId = jobId && r.proposalId = proposalId).isSome
  | .selectDeferral jobId => ch.read db (db.deferral? jobId)
  | .selectDeferralByIdempotencyKey key => ch.read db
      (db.deferrals.find? fun d => d.idempotencyKey = key)
  | .selectLease jobId => ch.read db (db.lease? jobId)
  | .selectProposalByIdempotencyKey key => ch.read db (db.proposalByIdempotencyKey? key)
  | .selectFormal jobId => ch.read db
      (db.proposals.find? fun p => p.jobId = jobId && decide p.Formal)
  | .batch ss => ch.write db ss

/-- The queue's store as a machine. -/
def machine : Machine Raised Op Res Db Choice := ⟨perform⟩

/-- A queue program. -/
abbrev Query := Script Raised Op Res

end QuantproCollector.ResearchWorkflow
