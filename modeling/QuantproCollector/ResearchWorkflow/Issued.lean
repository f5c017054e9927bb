import QuantproCollector.ResearchWorkflow.Effects

/-!
# The operations of a request

`MayIssue` lists the operations a request can ever issue, with the values it binds in them: a
formal or a deferral batch carries the caller's own owner, generation and clock reading in its
fence, a synthetic batch carries no fence at all. `MayRecord` says besides which events the batches
carry. `serve_records` proves that list complete, by one lemma for each program in the order in
which they call each other; `serve_issues` forgets the events.
-/

namespace QuantproCollector.ResearchWorkflow

open Async

/-- The lease that a submission or a deferral says it holds, and the caller's clock reading. -/
structure Presented where
  jobId : String
  owner : String
  generation : ℚ
  now : String

/-- A claim presents no lease. -/
def Request.presented : Request → Option Presented
  | .claim _ => none
  | .submit input =>
    some ⟨input.jobId, input.callerPrincipal, input.expectedGeneration, input.now⟩
  | .defer input =>
    some ⟨input.jobId, input.callerPrincipal, input.expectedGeneration, input.now⟩

/-- The lease has the presented owner and generation. -/
def Presented.Names (q : Presented) (l : LeaseRow) : Prop :=
  l.leaseOwner = q.owner ∧ (l.claimCount : ℚ) = q.generation

instance (q : Presented) (l : LeaseRow) : Decidable (q.Names l) :=
  inferInstanceAs (Decidable (_ ∧ _))

/-- The lease is the presented one and has not expired at the caller's clock reading. -/
def Presented.Holds (P : Platform) (q : Presented) (l : LeaseRow) : Prop :=
  l.jobId = q.jobId ∧ q.Names l ∧ ∃ now, P.isoOfText q.now = some now ∧ now < l.leaseExpiresAt

theorem generation_eq {g : ℚ} (hg : generationValid g = true) (n : ℕ) :
    n = g.num.toNat ↔ (n : ℚ) = g := by
  obtain ⟨hden, hnum⟩ := of_decide_eq_true hg
  have hg' : ((g.num.toNat : ℤ) : ℚ) = g := by
    rw [Int.toNat_of_nonneg (by omega)]
    exact Rat.coe_int_num_of_den_eq_one hden
  constructor
  · rintro rfl
    exact_mod_cast hg'
  · intro h
    rw [← hg'] at h
    exact_mod_cast h

/-- The fence that a batch repeats admits exactly the live lease that the caller presents. -/
theorem admits_iff {P : Platform} {q : Presented} {now : String} (l : LeaseRow)
    (hg : generationValid q.generation = true) (hnow : P.isoOfText q.now = some now) :
    (Fence.mk q.jobId q.owner q.generation.num.toNat now).Admits l ↔ q.Holds P l := by
  simp only [Fence.Admits, Presented.Holds, Presented.Names, generation_eq hg, hnow,
    Option.some.injEq, exists_eq_left', and_assoc]

/-- The values a submission carries are those of its input, read at `now`. -/
structure Race.Of (P : Platform) (input : SubmitInput) (r : Race) : Prop where
  jobId : r.jobId = input.jobId
  callerPrincipal : r.callerPrincipal = input.callerPrincipal
  now : P.isoOfText input.now = some r.now
  generation : generationValid input.expectedGeneration = true

/-- The operations that a request can issue. -/
inductive MayIssue (P : Platform) : Request → Op → Prop
  | read {req : Request} {op : Op} (h : ∀ ss, op ≠ .batch ss) : MayIssue P req op
  | event {req : Request} (e : EventRow) : MayIssue P req (.batch [.insertEvent e])
  | claim {input : ClaimInput} {now expiresAt : String} (token eventId expiredId : String)
      (hnow : P.isoOfText input.now = some now) :
      MayIssue P (.claim input) (.batch (claimBatch input now expiresAt token eventId expiredId))
  | reject {input : SubmitInput} {row : ProposalRow} (event : EventRow)
      (hrow : row.status = .REJECTED) :
      MayIssue P (.submit input) (.batch (rejectBatch row event))
  | formal {input : SubmitInput} {r : Race} (proposalId : String) (received completed : EventRow)
      (hr : r.Of P input) :
      MayIssue P (.submit input) (.batch (formalBatch (r.row proposalId .CHATGPT .RECEIVED none)
        ⟨r.jobId, r.callerPrincipal, input.expectedGeneration.num.toNat, r.now⟩ received completed))
  | synthetic {input : SubmitInput} {r : Race} {origin : ResearchOrigin} (proposalId : String)
      (event : EventRow) (hr : r.Of P input) (ho : origin ≠ .CHATGPT) :
      MayIssue P (.submit input)
        (.batch (syntheticBatch (r.row proposalId origin .RECEIVED none) event))
  | defer {input : DeferInput} {row : DeferralRow} {now : String}
      (hg : generationValid input.expectedGeneration = true)
      (hnow : P.isoOfText input.now = some now) (hrow : row.jobId = input.jobId) :
      MayIssue P (.defer input) (.batch (deferBatch row
        ⟨input.jobId, input.callerPrincipal, input.expectedGeneration.num.toNat, now⟩))

/-- An event of a type that reports neither a lease nor a result. -/
structure EventRow.Unaudited (e : EventRow) : Prop where
  claimed : e.eventType ≠ .CLAIMED
  expired : e.eventType ≠ .LEASE_EXPIRED
  received : e.eventType ≠ .SUBMIT_RECEIVED
  completed : e.eventType ≠ .COMPLETED

/-- The event is of the type and names the job and the id of the proposal. -/
structure EventRow.Reports (e : EventRow) (eventType : EventType) (row : ProposalRow) : Prop where
  eventType : e.eventType = eventType
  jobId : e.jobId = row.jobId
  proposalId : e.proposalId = some row.proposalId

/-- The operations that a request can issue, with the events that their batches carry. -/
inductive MayRecord (P : Platform) : Request → Op → Prop
  | read {req : Request} {op : Op} (h : ∀ ss, op ≠ .batch ss) : MayRecord P req op
  | event {req : Request} {e : EventRow} (he : e.Unaudited) :
      MayRecord P req (.batch [.insertEvent e])
  | claim {input : ClaimInput} {now expiresAt : String} (token eventId expiredId : String)
      (hnow : P.isoOfText input.now = some now) :
      MayRecord P (.claim input)
        (.batch (claimBatch input now expiresAt token eventId expiredId))
  | reject {input : SubmitInput} {row : ProposalRow} {event : EventRow}
      (hrow : row.status = .REJECTED) (he : event.Unaudited) :
      MayRecord P (.submit input) (.batch (rejectBatch row event))
  | formal {input : SubmitInput} {r : Race} {proposalId : String} {received completed : EventRow}
      (hr : r.Of P input)
      (hreceived : received.Reports .SUBMIT_RECEIVED (r.row proposalId .CHATGPT .RECEIVED none))
      (hcompleted : completed.Reports .COMPLETED (r.row proposalId .CHATGPT .RECEIVED none)) :
      MayRecord P (.submit input) (.batch (formalBatch (r.row proposalId .CHATGPT .RECEIVED none)
        ⟨r.jobId, r.callerPrincipal, input.expectedGeneration.num.toNat, r.now⟩ received completed))
  | synthetic {input : SubmitInput} {r : Race} {origin : ResearchOrigin} {proposalId : String}
      {event : EventRow} (hr : r.Of P input) (ho : origin ≠ .CHATGPT)
      (he : event.Reports .SUBMIT_RECEIVED (r.row proposalId origin .RECEIVED none)) :
      MayRecord P (.submit input)
        (.batch (syntheticBatch (r.row proposalId origin .RECEIVED none) event))
  | defer {input : DeferInput} {row : DeferralRow} {now : String}
      (hg : generationValid input.expectedGeneration = true)
      (hnow : P.isoOfText input.now = some now) (hrow : row.jobId = input.jobId) :
      MayRecord P (.defer input) (.batch (deferBatch row
        ⟨input.jobId, input.callerPrincipal, input.expectedGeneration.num.toNat, now⟩))

theorem MayRecord.mayIssue {P : Platform} {req : Request} {op : Op} (h : MayRecord P req op) :
    MayIssue P req op := by
  cases h with
  | read h => exact .read h
  | event _ => exact .event _
  | claim token eventId expiredId hnow => exact .claim _ _ _ hnow
  | reject hrow _ => exact .reject _ hrow
  | formal hr _ _ => exact .formal _ _ _ hr
  | synthetic hr ho _ => exact .synthetic _ _ hr ho
  | defer hg hnow hrow => exact .defer hg hnow hrow

section Issues

variable {P : Platform} {req : Request} {S : Op → Prop}

theorem issues_eventRow (hread : ∀ op, (∀ ss, op ≠ .batch ss) → S op) {j : String} {ty : EventType}
    {a : String} {p : Option String} {o : Option ResearchOrigin} {d : EventDetail} {q c : String} :
    (eventRow j ty a p o d q c).Issues S :=
  (Script.issues_perform.2 (hread _ (by simp))).bind fun _ => trivial

/-- Past the draw of its id, a program has the event that it described. -/
theorem issues_eventRow_bind {α : Type} {f : EventRow → Query α} (hread : S .randomHex32) {j : String}
    {ty : EventType} {a : String} {p : Option String} {o : Option ResearchOrigin} {d : EventDetail}
    {q c : String} (hf : ∀ hex, (f ⟨"evt_" ++ hex, j, ty, a, p, o, d, q, c⟩).Issues S) :
    (eventRow j ty a p o d q c >>= f).Issues S := by
  unfold eventRow
  rw [Script.bind_assoc']
  exact (Script.issues_perform.2 hread).bind fun hex => hf hex

theorem denyTerminal_records {input : ClaimInput} {now : String} :
    (denyTerminal input now).Issues (MayRecord P req) :=
  issues_eventRow_bind (.read (by simp)) fun _ =>
    (Script.issues_perform.2 (.event ⟨by simp, by simp, by simp, by simp⟩)).bind fun _ => trivial

theorem claimAttempts_records {input : ClaimInput} {now expiresAt : String}
    (hnow : P.isoOfText input.now = some now) (n : ℕ) :
    (claimAttempts input now expiresAt n).Issues (MayRecord P (.claim input)) := by
  induction n with
  | zero => trivial
  | succ n ih =>
    unfold claimAttempts
    have hread : ∀ op : Op, (∀ ss, op ≠ .batch ss) →
        (Script.perform op : Query _).Issues (MayRecord P (.claim input)) :=
      fun op h => Script.issues_perform.2 (.read h)
    refine (hread _ (by simp)).bind fun tokenHex => (hread _ (by simp)).bind fun eventHex =>
      (hread _ (by simp)).bind fun expiredHex => ?_
    refine (Script.issues_perform.2 (.claim _ _ _ hnow)).bind fun _ => ?_
    refine (hread _ (by simp)).bind fun lease => ?_
    split
    · trivial
    · refine (hread _ (by simp)).bind fun isTerminal => ?_
      split
      · exact denyTerminal_records
      · refine (hread _ (by simp)).bind fun deferred => ?_
        split
        · trivial
        · refine (hread _ (by simp)).bind fun current => ?_
          split
          · exact ih
          · split <;> trivial

theorem claimResearchJob_records (input : ClaimInput) :
    (claimResearchJob P input).Issues (MayRecord P (.claim input)) := by
  unfold claimResearchJob
  split_ifs
  · trivial
  · trivial
  · cases hnow : P.isoOfText input.now with
    | none => simp [normalizedIso, hnow, fail]
    | some now =>
      simp only [normalizedIso, hnow, pure_bind]
      have hread : ∀ op : Op, (∀ ss, op ≠ .batch ss) →
          (Script.perform op : Query _).Issues (MayRecord P (.claim input)) :=
        fun op h => Script.issues_perform.2 (.read h)
      refine (hread _ (by simp)).bind fun visible => ?_
      split
      · trivial
      · refine (hread _ (by simp)).bind fun isTerminal => ?_
        split
        · exact denyTerminal_records
        · refine (hread _ (by simp)).bind fun deferral => ?_
          split
          · trivial
          · split
            · trivial
            · exact claimAttempts_records hnow 2

theorem writeConflictEvent_records {r : Race} {p : String} :
    (writeConflictEvent r p).Issues (MayRecord P req) :=
  issues_eventRow_bind (.read (by simp)) fun _ =>
    (Script.issues_perform.2 (.event ⟨by simp, by simp, by simp, by simp⟩)).bind fun _ => trivial

theorem resolveProposalRace_records {r : Race} :
    (resolveProposalRace r).Issues (MayRecord P req) := by
  unfold resolveProposalRace
  refine ((Script.issues_perform.2 (.read (by simp))).tryCatch fun _ => by trivial).bind
    fun existing => ?_
  split
  · trivial
  · split
    · trivial
    · exact (writeConflictEvent_records.tryCatch fun _ => by trivial).bind fun _ => trivial

theorem runProposalBatch_records {r : Race} {ss : List Statement}
    (hss : MayRecord P req (.batch ss)) : (runProposalBatch ss r).Issues (MayRecord P req) :=
  ((Script.issues_perform.2 hss).bind fun _ => by trivial).tryCatch fun _ => resolveProposalRace_records

variable {input : SubmitInput} {r : Race}

theorem rejectProposal_records {origin : ResearchOrigin} {reason : SubmitReason} {tag : EventDetail}
    {sub : Option LeaseSubReason} :
    (rejectProposal r origin reason tag sub).Issues (MayRecord P (.submit input)) := by
  unfold rejectProposal
  refine (Script.issues_perform.2 (.read (by simp))).bind fun hex => ?_
  refine issues_eventRow_bind (.read (by simp)) fun eventHex => ?_
  refine (runProposalBatch_records
    (.reject rfl ⟨by simp, by simp, by simp, by simp⟩)).bind fun outcome => ?_
  split <;> trivial

theorem formalLost_records : (formalLost r).Issues (MayRecord P req) := by
  unfold formalLost
  refine resolveProposalRace_records.bind fun outcome => ?_
  split
  · trivial
  · refine (Script.issues_perform.2 (.read (by simp))).bind fun isTerminal => ?_
    split <;> trivial

theorem acceptFormal_records (hr : r.Of P input) :
    (acceptFormal r input.expectedGeneration.num.toNat).Issues (MayRecord P (.submit input)) := by
  unfold acceptFormal
  have hread : ∀ op : Op, (∀ ss, op ≠ .batch ss) →
      (Script.perform op : Query _).Issues (MayRecord P (.submit input)) :=
    fun op h => Script.issues_perform.2 (.read h)
  refine (hread _ (by simp)).bind fun hex => (hread _ (by simp)).bind fun _ =>
    (hread _ (by simp)).bind fun receivedHex => (hread _ (by simp)).bind fun completedHex => ?_
  refine (((Script.issues_perform.2 (.formal hr ⟨rfl, rfl, rfl⟩ ⟨rfl, rfl, rfl⟩)).bind
    fun _ => by trivial).tryCatch fun _ => by trivial).bind fun committed => ?_
  split
  · exact formalLost_records
  · refine (hread _ (by simp)).bind fun committedProposal => ?_
    split
    · refine (hread _ (by simp)).bind fun isMatch => ?_
      split
      · trivial
      · exact formalLost_records
    · exact formalLost_records

theorem acceptSynthetic_records (hr : r.Of P input) {origin : ResearchOrigin}
    (ho : origin ≠ .CHATGPT) : (acceptSynthetic r origin).Issues (MayRecord P (.submit input)) := by
  unfold acceptSynthetic
  refine (Script.issues_perform.2 (.read (by simp))).bind fun hex => ?_
  refine issues_eventRow_bind (.read (by simp)) fun eventHex => ?_
  refine (runProposalBatch_records (.synthetic hr ho ⟨rfl, rfl, rfl⟩)).bind fun outcome => ?_
  split <;> trivial

theorem submitFresh_records (hr : r.Of P input) (violation : Bool) (origin : ResearchOrigin) :
    (submitFresh r input.expectedGeneration.num.toNat violation origin).Issues
      (MayRecord P (.submit input)) := by
  unfold submitFresh
  split
  · exact rejectProposal_records
  · refine (Script.issues_perform.2 (.read (by simp))).bind fun lease => ?_
    split
    · exact rejectProposal_records
    · split
      · refine (Script.issues_perform.2 (.read (by simp))).bind fun formal => ?_
        split
        · exact rejectProposal_records
        · exact acceptFormal_records hr
      · exact acceptSynthetic_records hr ‹_›

theorem submitResearchResultProposal_records (input : SubmitInput) :
    (submitResearchResultProposal P input).Issues (MayRecord P (.submit input)) := by
  unfold submitResearchResultProposal
  split
  · trivial
  split
  · trivial
  split
  · trivial
  · rename_i hgen
    cases hnow : P.isoOfText input.now with
    | none => simp [normalizedIso, hnow, fail]
    | some now =>
      simp only [normalizedIso, hnow, pure_bind]
      split
      · trivial
      · refine (Script.issues_perform.2 (.read (by simp))).bind fun existing => ?_
        split
        · split
          · trivial
          · exact writeConflictEvent_records.bind fun _ => trivial
        · split
          · trivial
          · exact submitFresh_records ⟨rfl, rfl, hnow, by simpa using hgen⟩ _ _

theorem deferReplayOutcome_records {j q now sha : String} {d : DeferralRow} :
    (deferReplayOutcome j q now sha d).Issues (MayRecord P req) := by
  have hread : ∀ op : Op, (∀ ss, op ≠ .batch ss) →
      (Script.perform op : Query _).Issues (MayRecord P req) :=
    fun op h => Script.issues_perform.2 (.read h)
  unfold deferReplayOutcome
  split
  · trivial
  · refine Script.Issues.bind ?_ fun _ => trivial
    refine (hread _ (by simp)).bind fun isTerminal => ?_
    split
    · trivial
    · refine (hread _ (by simp)).bind fun lease => ?_
      split
      · trivial
      · refine (hread _ (by simp)).bind fun deferral => ?_
        split <;> trivial

theorem deferFenced_records {row : DeferralRow} {f : Fence}
    (h : MayRecord P req (.batch (deferBatch row f))) :
    (deferFenced row f).Issues (MayRecord P req) := by
  have hread : ∀ op : Op, (∀ ss, op ≠ .batch ss) →
      (Script.perform op : Query _).Issues (MayRecord P req) :=
    fun op h => Script.issues_perform.2 (.read h)
  unfold deferFenced
  refine (((Script.issues_perform.2 h).bind fun _ => by trivial).tryCatch fun _ => by trivial).bind
    fun result => ?_
  split
  · refine ((hread _ (by simp)).tryCatch fun _ => by trivial).bind fun concurrent => ?_
    split
    · exact deferReplayOutcome_records
    · trivial
  · split
    · trivial
    · refine (hread _ (by simp)).bind fun existing => ?_
      split
      · exact deferReplayOutcome_records
      · refine (hread _ (by simp)).bind fun deferral => ?_
        split
        · trivial
        · refine (hread _ (by simp)).bind fun isTerminal => ?_
          split
          · trivial
          · exact (hread _ (by simp)).bind fun _ => trivial

theorem deferResearchJob_records (input : DeferInput) :
    (deferResearchJob P input).Issues (MayRecord P (.defer input)) := by
  unfold deferResearchJob
  split_ifs with _ _ hgen
  · trivial
  · trivial
  · trivial
  · trivial
  · split
    · trivial
    · rename_i reason _
      cases hnow : P.isoOfText input.now with
      | none => simp [normalizedIso, hnow, fail]
      | some now =>
        cases hre : P.isoOfText input.recheckAt with
        | none => simp [normalizedIso, hnow, hre, fail]
        | some recheckAt =>
          simp only [normalizedIso, hnow, hre, pure_bind]
          refine (Script.issues_perform.2 (.read (by simp))).bind fun sameKey => ?_
          split
          · exact deferReplayOutcome_records
          · split
            · trivial
            · refine (Script.issues_perform.2 (.read (by simp))).bind fun deferral => ?_
              split
              · trivial
              · exact deferFenced_records (.defer (by simpa using hgen) hnow rfl)

end Issues

/-- A request issues only what `MayRecord` allows it. -/
theorem serve_records (P : Platform) (req : Request) : (serve P req).Issues (MayRecord P req) := by
  cases req with
  | claim input => exact (claimResearchJob_records input).map _
  | submit input => exact (submitResearchResultProposal_records input).map _
  | defer input => exact (deferResearchJob_records input).map _

/-- A request issues only what `MayIssue` allows it. -/
theorem serve_issues (P : Platform) (req : Request) : (serve P req).Issues (MayIssue P req) :=
  (serve_records P req).mono fun _ => MayRecord.mayIssue

end QuantproCollector.ResearchWorkflow
