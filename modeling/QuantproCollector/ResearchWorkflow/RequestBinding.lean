import QuantproCollector.ResearchWorkflow.Claiming
import QuantproCollector.ResearchWorkflow.SubmitOutcome

/-!
# What an idempotency key is bound to

A submission with a used idempotency key is answered by the stored row: with its outcome where the digests
of the stored texts agree, with a conflict where they differ. The stored text is the canonical payload, or
`{}` for a payload that was refused as unsafe or oversized; neither the caller nor the job is compared.
`bound_iff` says exactly for which pairs of submissions the answer is nevertheless bound to the request.
-/

namespace QuantproCollector.ResearchWorkflow

open Relational Async

/-! ## The row of a submission -/

/-- The values that a submission carries, read at `now`. -/
def raceOf (P : Platform) (input : SubmitInput) (now : String) : Race :=
  { jobId := input.jobId, idempotencyKey := input.idempotencyKey,
    prepared := prepareProposal P input.proposal input.jobId,
    callerPrincipal := input.callerPrincipal, requestId := input.requestId, now := now }

/-- The row is one that the submission stores; it is no conflict that it is refused for. -/
def RowOf (P : Platform) (input : SubmitInput) (row : ProposalRow) : Prop :=
  ∃ now proposalId origin status reason, reason ≠ some .CONFLICT ∧
    row = (raceOf P input now).row proposalId origin status reason

/-- The rows of proposals that an operation inserts. -/
def inserted : Op → List ProposalRow
  | .batch ss => ss.filterMap fun
    | .insertProposal p => some p
    | .insertFencedProposal p _ => some p
    | _ => none
  | _ => []

/-- The proposals that a request inserts are rows of its own. -/
def InsertsOwn (P : Platform) : Request → Op → Prop
  | .submit input, op => ∀ row ∈ inserted op, RowOf P input row
  | _, op => inserted op = []

section Issues

variable {P : Platform} {input : SubmitInput} {now : String} {S : Op → Prop}

theorem issues_of_read (hread : ∀ op, inserted op = [] → S op) {op : Op} (h : inserted op = []) :
    (Script.perform op : Query _).Issues S :=
  Script.issues_perform.2 (hread op h)

theorem insertsOwn_of_nil {req : Request} {op : Op} (h : inserted op = []) : InsertsOwn P req op := by
  cases req with
  | submit input =>
    intro row hrow
    rw [h] at hrow
    cases hrow
  | claim input => exact h
  | defer input => exact h

theorem insertsOwn_of_single {req : Request} {op : Op} (h : ∀ ss, op ≠ .batch ss) :
    InsertsOwn P req op := by
  refine insertsOwn_of_nil ?_
  cases op with
  | batch ss => exact absurd rfl (h ss)
  | _ => rfl

theorem insertsOwn_writeConflictEvent {r : Race} {p : String} {req : Request} :
    (writeConflictEvent r p).Issues (InsertsOwn P req) :=
  (issues_eventRow fun _ => insertsOwn_of_single).bind fun _ =>
    (issues_of_read (fun _ => insertsOwn_of_nil) rfl).bind fun _ => trivial

theorem insertsOwn_resolveProposalRace {r : Race} {req : Request} :
    (resolveProposalRace r).Issues (InsertsOwn P req) := by
  unfold resolveProposalRace
  refine ((issues_of_read (fun _ => insertsOwn_of_nil) rfl).tryCatch fun _ => by trivial).bind
    fun existing => ?_
  split
  · trivial
  · split
    · trivial
    · exact (insertsOwn_writeConflictEvent.tryCatch fun _ => by trivial).bind fun _ => trivial

theorem insertsOwn_runProposalBatch {r : Race} {ss : List Statement}
    (h : ∀ row ∈ inserted (.batch ss), RowOf P input row) :
    (runProposalBatch ss r).Issues (InsertsOwn P (.submit input)) :=
  ((Script.issues_perform.2 h).bind fun _ => by trivial).tryCatch fun _ =>
    insertsOwn_resolveProposalRace

theorem insertsOwn_rejectProposal {origin : ResearchOrigin} {reason : SubmitReason} {tag : EventDetail}
    {sub : Option LeaseSubReason} (hreason : reason ≠ .CONFLICT) :
    (rejectProposal (raceOf P input now) origin reason tag sub).Issues (InsertsOwn P (.submit input)) := by
  unfold rejectProposal
  refine (issues_of_read (fun _ => insertsOwn_of_nil) rfl).bind fun hex => ?_
  refine (issues_eventRow fun _ => insertsOwn_of_single).bind fun event => ?_
  refine (insertsOwn_runProposalBatch ?_).bind fun outcome => ?_
  · intro row hrow
    obtain rfl := List.mem_singleton.1 hrow
    exact ⟨now, _, _, _, _, by simpa using hreason, rfl⟩
  · split <;> trivial

theorem insertsOwn_formalLost {r : Race} {req : Request} :
    (formalLost r).Issues (InsertsOwn P req) := by
  unfold formalLost
  refine insertsOwn_resolveProposalRace.bind fun outcome => ?_
  split
  · trivial
  · refine (issues_of_read (fun _ => insertsOwn_of_nil) rfl).bind fun isTerminal => ?_
    split <;> trivial

theorem insertsOwn_acceptFormal {generation : ℕ} :
    (acceptFormal (raceOf P input now) generation).Issues (InsertsOwn P (.submit input)) := by
  unfold acceptFormal
  have hread : ∀ op : Op, inserted op = [] →
      (Script.perform op : Query _).Issues (InsertsOwn P (.submit input)) :=
    fun op h => issues_of_read (fun _ => insertsOwn_of_nil) h
  refine (hread _ rfl).bind fun hex => (hread _ rfl).bind fun _ => (hread _ rfl).bind fun receivedHex =>
    (hread _ rfl).bind fun completedHex => ?_
  refine (((Script.issues_perform.2 ?_).bind fun _ => by trivial).tryCatch fun _ => by trivial).bind
    fun committed => ?_
  · intro row hrow
    obtain rfl := List.mem_singleton.1 hrow
    exact ⟨now, _, _, _, _, by simp, rfl⟩
  · split
    · exact insertsOwn_formalLost
    · refine (hread _ rfl).bind fun committedProposal => ?_
      split
      · refine (hread _ rfl).bind fun isMatch => ?_
        split
        · trivial
        · exact insertsOwn_formalLost
      · exact insertsOwn_formalLost

theorem insertsOwn_acceptSynthetic {origin : ResearchOrigin} :
    (acceptSynthetic (raceOf P input now) origin).Issues (InsertsOwn P (.submit input)) := by
  unfold acceptSynthetic
  refine (issues_of_read (fun _ => insertsOwn_of_nil) rfl).bind fun hex => ?_
  refine (issues_eventRow fun _ => insertsOwn_of_single).bind fun event => ?_
  refine (insertsOwn_runProposalBatch ?_).bind fun outcome => ?_
  · intro row hrow
    obtain rfl := List.mem_singleton.1 hrow
    exact ⟨now, _, _, _, _, by simp, rfl⟩
  · split <;> trivial

theorem insertsOwn_submitFresh {generation : ℕ} {violation : Bool} {origin : ResearchOrigin} :
    (submitFresh (raceOf P input now) generation violation origin).Issues
      (InsertsOwn P (.submit input)) := by
  unfold submitFresh
  split
  · exact insertsOwn_rejectProposal (by simp)
  · refine (issues_of_read (fun _ => insertsOwn_of_nil) rfl).bind fun lease => ?_
    split
    · exact insertsOwn_rejectProposal (by simp)
    · split
      · refine (issues_of_read (fun _ => insertsOwn_of_nil) rfl).bind fun formal => ?_
        split
        · exact insertsOwn_rejectProposal (by simp)
        · exact insertsOwn_acceptFormal
      · exact insertsOwn_acceptSynthetic

theorem insertsOwn_submit (input : SubmitInput) :
    (submitResearchResultProposal P input).Issues (InsertsOwn P (.submit input)) := by
  unfold submitResearchResultProposal
  split
  · trivial
  split
  · trivial
  split
  · trivial
  · cases hnow : P.isoOfText input.now with
    | none => simp [normalizedIso, hnow, fail]
    | some now =>
      simp only [normalizedIso, hnow, pure_bind]
      split
      · trivial
      · refine (issues_of_read (fun _ => insertsOwn_of_nil) rfl).bind fun existing => ?_
        split
        · split
          · trivial
          · exact insertsOwn_writeConflictEvent.bind fun _ => trivial
        · split
          · trivial
          · exact insertsOwn_submitFresh

/-- A claim and a deferral insert no proposal. -/
theorem insertsOwn_of_mayIssue {req : Request} {op : Op} (hreq : ∀ input, req ≠ .submit input)
    (h : MayIssue P req op) : InsertsOwn P req op := by
  cases h with
  | read hread => exact insertsOwn_of_single hread
  | event e => exact insertsOwn_of_nil rfl
  | claim => exact insertsOwn_of_nil rfl
  | defer => exact insertsOwn_of_nil rfl
  | reject => exact absurd rfl (hreq _)
  | formal => exact absurd rfl (hreq _)
  | synthetic => exact absurd rfl (hreq _)

theorem insertsOwn_serve (P : Platform) (req : Request) :
    (serve P req).Issues (InsertsOwn P req) := by
  cases req with
  | submit input => exact (insertsOwn_submit input).map _
  | claim input =>
    exact (serve_issues P (.claim input)).mono fun op =>
      insertsOwn_of_mayIssue fun _ h => by cases h
  | defer input =>
    exact (serve_issues P (.defer input)).mono fun op =>
      insertsOwn_of_mayIssue fun _ h => by cases h

end Issues

/-! ## The submission of a stored row -/

/-- A row that a statement leaves was there, or the statement inserts it. -/
theorem mem_proposals_of_exec {db db' : Db} {s : Statement} {n : ℕ} (h : db.exec s = some (db', n))
    {row : ProposalRow} (hrow : row ∈ db'.proposals) :
    row ∈ db.proposals ∨ row ∈ inserted (.batch [s]) := by
  have event : (∃ es, db' = { db with events := es }) → row ∈ db.proposals := by
    rintro ⟨es, rfl⟩
    exact hrow
  cases s with
  | insertEvent e => exact .inl (event (exec_event h (.inl ⟨_, rfl⟩)))
  | insertExpiredEvent => exact .inl (event (exec_event h (.inr (.inl ⟨_, _, _, _, rfl⟩))))
  | preempt l =>
    change db.preempt l = some (db', n) at h
    unfold Db.preempt at h
    split_ifs at h
    · cases h
      exact .inl hrow
    · split at h
      · obtain ⟨ls, -, heq⟩ := Option.map_eq_some_iff.1 h
        cases heq
        exact .inl hrow
      · split_ifs at h
        · obtain ⟨ls, -, heq⟩ := Option.map_eq_some_iff.1 h
          cases heq
          exact .inl hrow
        · cases h
          exact .inl hrow
  | insertClaimedEvent =>
    exact .inl (event (exec_event h (.inr (.inr (.inl ⟨_, _, _, _, _, _, rfl⟩)))))
  | insertProposal p =>
    obtain ⟨ps, hps, rfl⟩ := insertProposal_eq h
    exact ((Table.mem_insert? hps).1 hrow).imp_right fun heq => by simp [inserted, heq]
  | insertFencedProposal p f =>
    simp only [Db.exec] at h
    split_ifs at h
    · obtain ⟨ps, hps, rfl⟩ := insertProposal_eq h
      exact ((Table.mem_insert? hps).1 hrow).imp_right fun heq => by simp [inserted, heq]
    · cases h
      exact .inl hrow
  | insertFencedTerminal r f =>
    simp only [Db.exec] at h
    split_ifs at h
    · obtain ⟨ts, -, rfl⟩ := insertTerminal_eq h
      exact .inl hrow
    · cases h
      exact .inl hrow
  | deleteLease j =>
    cases h
    exact .inl hrow
  | deleteFencedLease f =>
    cases h
    exact .inl hrow
  | insertCompletionEvent => exact .inl (event (exec_event h (.inr (.inr (.inr ⟨_, _, _, rfl⟩)))))
  | insertFencedDeferral d f =>
    simp only [Db.exec] at h
    split_ifs at h
    · obtain ⟨ds, -, rfl⟩ := insertDeferral_eq h
      exact .inl hrow
    · cases h
      exact .inl hrow

theorem inserted_cons (s : Statement) (ss : List Statement) :
    inserted (.batch (s :: ss)) = inserted (.batch [s]) ++ inserted (.batch ss) := by
  simp only [inserted, ← List.filterMap_append, List.singleton_append]

theorem mem_proposals_of_runBatch {ss : List Statement} {db db' : Db} {ns : List ℕ}
    (h : runBatch ss db = some (db', ns)) {row : ProposalRow} (hrow : row ∈ db'.proposals) :
    row ∈ db.proposals ∨ row ∈ inserted (.batch ss) := by
  induction ss generalizing db ns with
  | nil =>
    obtain ⟨rfl, -⟩ := runBatch_nil.1 h
    exact .inl hrow
  | cons s ss ih =>
    obtain ⟨d, n, ns', hs, hss, -⟩ := runBatch_cons.1 h
    rw [inserted_cons, List.mem_append]
    rcases ih hss with hd | hins
    · exact (mem_proposals_of_exec hs hd).imp_right .inl
    · exact .inr (.inr hins)

/-- A row that a call leaves was there, or the call inserts it. -/
theorem mem_proposals_of_call {k : Call Op Db Choice} {row : ProposalRow}
    (hrow : row ∈ (machine.after k).proposals) :
    row ∈ k.before.proposals ∨ row ∈ inserted k.op := by
  by_cases hop : ∀ ss, k.op ≠ .batch ss
  · rw [Machine.after, perform_read hop] at hrow
    exact .inl hrow
  · obtain ⟨ss, hss⟩ := not_forall_not.1 hop
    rw [Machine.after, hss] at hrow
    rw [hss]
    by_cases hc : Commits k.choice ss k.before
    · obtain ⟨ns, h⟩ := perform_commits hc
      exact mem_proposals_of_runBatch h hrow
    · rw [perform_not_commits hc] at hrow
      exact .inl hrow

/-- A call of the submission `input`, made by one of the threads, stores the row. -/
def StoredBy (requests : ℕ → Request) (log : List (Call Op Db Choice)) (input : SubmitInput)
    (row : ProposalRow) : Prop :=
  ∃ k ∈ log, requests k.thread = .submit input ∧ row ∉ k.before.proposals ∧
    row ∈ (machine.after k).proposals

section Runs

variable {P : Platform} {records : List JobRecord} {requests : ℕ → Request} {es : List (ℕ × Choice)}

theorem insertsOwn_log : ∀ k ∈ (machine.exec (start P records requests) es).log,
    InsertsOwn P (requests k.thread) k.op := by
  have hissued : Machine.Issued (fun t => InsertsOwn P (requests t)) (start P records requests) :=
    fun t => insertsOwn_serve P (requests t)
  have hkeeps : machine.Keeps (fun t => InsertsOwn P (requests t)) fun _ => True :=
    fun _ _ _ _ _ _ => trivial
  exact fun k hk => (Machine.exec_log hkeeps hissued trivial (by simp [start, Config.start]) es k hk).1

/-- What a submission stores is a row of its own. -/
theorem StoredBy.rowOf {input : SubmitInput} {row : ProposalRow}
    (h : StoredBy requests (machine.exec (start P records requests) es).log input row) :
    RowOf P input row := by
  obtain ⟨k, hk, hrequest, hnew, hrow⟩ := h
  have hown := insertsOwn_log k hk
  rw [hrequest] at hown
  exact hown row ((mem_proposals_of_call hrow).resolve_left hnew)

/-- Every row of a reachable store was stored by a submission of the run. -/
theorem exists_storedBy {row : ProposalRow}
    (hrow : row ∈ (machine.exec (start P records requests) es).world.proposals) :
    ∃ input, StoredBy requests (machine.exec (start P records requests) es).log input row := by
  have hcall : ∃ k ∈ (machine.exec (start P records requests) es).log, row ∉ k.before.proposals ∧
      row ∈ (machine.after k).proposals := by
    refine Machine.exec_induction (M := machine) (P := fun c => row ∈ c.world.proposals →
      ∃ k ∈ c.log, row ∉ k.before.proposals ∧ row ∈ (machine.after k).proposals)
      ?_ es (fun h => absurd h (Table.not_mem_empty row)) hrow
    intro c e hc hmem
    rcases Machine.step_cases (M := machine) c e with hs | ⟨op, next, hcall, hs⟩
    · rw [hs] at hmem ⊢
      exact hc hmem
    · rw [hs] at hmem ⊢
      by_cases hbefore : row ∈ c.world.proposals
      · obtain ⟨k, hk, hrest⟩ := hc hbefore
        exact ⟨k, List.mem_cons_of_mem _ hk, hrest⟩
      · exact ⟨_, List.mem_cons_self, hbefore, hmem⟩
  obtain ⟨k, hk, hnew, hmem⟩ := hcall
  have hown := insertsOwn_log k hk
  have hins := (mem_proposals_of_call hmem).resolve_left hnew
  cases hrequest : requests k.thread with
  | submit input => exact ⟨input, k, hk, hrequest, hnew, hmem⟩
  | claim input =>
    rw [hrequest, InsertsOwn] at hown
    · rw [hown] at hins
      cases hins
    · simp
  | defer input =>
    rw [hrequest, InsertsOwn] at hown
    · rw [hown] at hins
      cases hins
    · simp

end Runs

/-! ## The binding -/

/-- The text that a payload is stored and compared as. -/
def storedText (proposal : Json) : String :=
  if !assertOutboundV2PayloadSafe proposal then emptyBody
  else if utf8Length proposal.canonicalText > RESEARCH_PROPOSAL_MAX_BYTES then emptyBody
  else proposal.canonicalText

theorem payloadSha256_prepareProposal (P : Platform) (proposal : Json) (jobId : String) :
    (prepareProposal P proposal jobId).payloadSha256 = P.sha256Hex (storedText proposal) := by
  unfold prepareProposal storedText
  dsimp only
  split_ifs <;> rfl

/-- The same caller, the same job, and the same payload up to the order of its keys. -/
structure SameRequest (input input' : SubmitInput) : Prop where
  callerPrincipal : input.callerPrincipal = input'.callerPrincipal
  jobId : input.jobId = input'.jobId
  payload : input.proposal.canonicalText = input'.proposal.canonicalText

/-- The submission is well formed: it gets as far as the look-up of its idempotency key. -/
structure WellFormed (P : Platform) (input : SubmitInput) : Prop where
  jobId : jobIdBounded input.jobId = true
  callerPrincipal : input.callerPrincipal ≠ ""
  generation : generationValid input.expectedGeneration = true
  now : (P.isoOfText input.now).isSome = true
  key : matchesIdempotencyKeyPattern input.idempotencyKey = true

/-- The submission meets the stored row of its key in `w` and is answered `o`: by the look-up before it
writes anything, or by the re-read after its batch has lost a race. -/
def Answers (P : Platform) (w : Db) (input : SubmitInput) (o : SubmitOutcome) : Prop :=
  ∃ t choices, (machine.run t choices (submitResearchResultProposal P input) 0 [] w).1 = .ok o ∨
    ∃ now, P.isoOfText input.now = some now ∧
      (machine.run t choices (resolveProposalRace (raceOf P input now)) 0 [] w).1 = .ok (some o)

/-- Every answer is a conflict, unless the stored submission is the same request. -/
def Bound (P : Platform) (w : Db) (input stored : SubmitInput) : Prop :=
  ∀ o, Answers P w input o →
    o = .REJECTED input.jobId .CONFLICT none input.requestId ∨ SameRequest input stored

section Alone

variable {t : ℕ} {choices : ℕ → Choice} {k : ℕ} {tr : List (Call Op Db Choice)} {w : Db} {α β : Type}

/-- A script that ends in a value answers nothing else. -/
theorem run_then {s : Query α} {a b : β} {k : ℕ} {tr : List (Call Op Db Choice)} {w : Db}
    (h : (machine.run t choices (s >>= fun _ => pure a) k tr w).1 = .ok b) : b = a := by
  induction s generalizing k tr w with
  | halt r =>
    cases r with
    | ok x =>
      cases h
      rfl
    | error e => cases h
  | call op next ih => exact ih _ h

/-- Both paths answer by the verdict on the stored row. -/
theorem verdict_of_answers {P : Platform} {input : SubmitInput} {row : ProposalRow} {now : String}
    {o : SubmitOutcome} (hinput : WellFormed P input) (hnow : P.isoOfText input.now = some now)
    (hrow : w.proposalByIdempotencyKey? input.idempotencyKey = some row) :
    Answers P w input o → Verdict (raceOf P input now) row o := by
  rintro ⟨t, choices, h | ⟨now', hnow', h⟩⟩
  · unfold submitResearchResultProposal at h
    rw [if_neg (by simp [hinput.jobId]), if_neg hinput.callerPrincipal,
      if_neg (by simp [hinput.generation])] at h
    simp only [normalizedIso, hnow, pure_bind] at h
    rw [if_neg (by simp [hinput.key])] at h
    obtain ⟨_, h⟩ := run_read (fun ch => rfl) h
    rw [hrow] at h
    dsimp only at h
    cases hverdict : outcomeForExistingProposal row (raceOf P input now) with
    | some verdict =>
      rw [raceOf] at hverdict
      rw [hverdict] at h
      cases h
      exact .inl hverdict
    | none =>
      rw [raceOf] at hverdict
      rw [hverdict] at h
      exact .inr ⟨hverdict, run_then h⟩
  · obtain rfl : now = now' := Option.some.inj (hnow.symm.trans hnow')
    unfold resolveProposalRace selectProposalByIdempotencyKey Script.perform at h
    rw [Script.tryCatch_call, Script.call_bind] at h
    unfold Machine.run at h
    simp only [machine, perform, Choice.read] at h
    by_cases hfault : (choices 0).fault = .none
    · rw [if_pos hfault] at h
      simp only [Script.tryCatch_halt_ok, Script.halt_ok_bind, raceOf, hrow] at h
      cases hverdict : outcomeForExistingProposal row (raceOf P input now) with
      | some verdict =>
        rw [raceOf] at hverdict
        rw [hverdict] at h
        cases h
        exact .inl hverdict
      | none =>
        rw [raceOf] at hverdict
        rw [hverdict] at h
        exact .inr ⟨hverdict, Option.some.inj (run_then h)⟩
    · rw [if_neg hfault] at h
      cases h

/-- Without a fault the look-up answers a verdict that is no conflict. -/
theorem answers_of_outcome {P : Platform} {input : SubmitInput} {row : ProposalRow} {now : String}
    {o : SubmitOutcome} (hinput : WellFormed P input) (hnow : P.isoOfText input.now = some now)
    (hrow : w.proposalByIdempotencyKey? input.idempotencyKey = some row)
    (ho : outcomeForExistingProposal row (raceOf P input now) = some o) : Answers P w input o := by
  refine ⟨0, fun _ => ⟨.none, ""⟩, .inl ?_⟩
  unfold submitResearchResultProposal
  rw [if_neg (by simp [hinput.jobId]), if_neg hinput.callerPrincipal,
    if_neg (by simp [hinput.generation])]
  simp only [normalizedIso, hnow, pure_bind]
  rw [if_neg (by simp [hinput.key]), selectProposalByIdempotencyKey, Script.perform_bind, Machine.run]
  simp only [machine, perform, Choice.read, if_pos, hrow, Script.halt_ok_bind]
  rw [raceOf] at ho
  rw [ho]
  rfl

end Alone

/-- The verdict on a submission's own row is no conflict exactly where the stored texts agree. -/
theorem outcome_eq_none_iff {P : Platform} (hsha : Function.Injective P.sha256Hex)
    {input stored : SubmitInput} {row : ProposalRow} (hrow : RowOf P stored row) (now : String) :
    outcomeForExistingProposal row (raceOf P input now) = none ↔
      storedText input.proposal ≠ storedText stored.proposal := by
  obtain ⟨now', proposalId, origin, status, reason, -, rfl⟩ := hrow
  unfold outcomeForExistingProposal
  simp only [Race.row, raceOf, payloadSha256_prepareProposal, hsha.eq_iff]
  split_ifs with htext hstatus
  · simp [htext]
  · simp [htext]
  · simp [Ne.symm htext]

/-- An outcome of a submission's own row is no conflict. -/
theorem outcome_ne_conflict {P : Platform} {input stored : SubmitInput} {row : ProposalRow}
    (hrow : RowOf P stored row) {now : String} {o : SubmitOutcome}
    (ho : outcomeForExistingProposal row (raceOf P input now) = some o) :
    o ≠ .REJECTED input.jobId .CONFLICT none input.requestId := by
  obtain ⟨now', proposalId, origin, status, reason, hreason, rfl⟩ := hrow
  unfold outcomeForExistingProposal at ho
  split_ifs at ho
  · cases ho
    simp
  · cases ho
    cases reason with
    | none => simp [Race.rejected, Race.row]
    | some reason =>
      intro hconflict
      injection hconflict with _ hconflict
      exact hreason (congrArg some hconflict)

/-- **Request binding.** The answers that meet a stored row are bound to its submission exactly when the
two submissions differ in their stored text or are the same request. -/
theorem bound_iff (P : Platform) (hsha : Function.Injective P.sha256Hex) (records : List JobRecord)
    (requests : ℕ → Request) (es : List (ℕ × Choice)) (stored : SubmitInput) (row : ProposalRow)
    (hrow : row ∈ (machine.exec (start P records requests) es).world.proposals)
    (hstored : StoredBy requests (machine.exec (start P records requests) es).log stored row)
    (input : SubmitInput) (hinput : WellFormed P input)
    (hkey : row.idempotencyKey = input.idempotencyKey) :
    Bound P (machine.exec (start P records requests) es).world input stored ↔
      (storedText input.proposal = storedText stored.proposal → SameRequest input stored) := by
  obtain ⟨now, hnow⟩ := Option.isSome_iff_exists.1 hinput.now
  have hown := hstored.rowOf
  have hfind : (machine.exec (start P records requests) es).world.proposalByIdempotencyKey?
      input.idempotencyKey = some row := by
    refine Table.find?_of_mem (i := fun p => some p.idempotencyKey) (by simp [proposalIndexes]) hrow
      (by simp [hkey]) ?_
    intro a _ ha
    simpa [hkey] using ha
  constructor
  · intro hbound htext
    cases ho : outcomeForExistingProposal row (raceOf P input now) with
    | none => exact absurd htext ((outcome_eq_none_iff hsha hown now).1 ho)
    | some o =>
      exact (hbound o (answers_of_outcome hinput hnow hfind ho)).resolve_left
        (outcome_ne_conflict hown ho)
  · intro hsame o ho
    rcases verdict_of_answers hinput hnow hfind ho with hverdict | ⟨-, rfl⟩
    · refine .inr (hsame ?_)
      by_contra htext
      rw [(outcome_eq_none_iff hsha hown now).2 htext] at hverdict
      cases hverdict
    · exact .inl rfl

/-- Texts serve as their own digests. -/
def plainDigests : Platform :=
  { examplePlatform with sha256Hex := id }

/-- An owner claims a job and submits a result without a model of its own. -/
def syntheticRun : Run :=
  machine.exec (start plainDigests [⟨"job-1", true⟩] (submittingRequests "synthetic-a" "SYNTHETIC"))
    (turns 0 8 0 ++ turns 1 5 8)

/-- The submission of `syntheticRun`. -/
def syntheticSubmission : SubmitInput :=
  ⟨"job-1", 1, "submit-key-1", some "SYNTHETIC", exampleProposal, "synthetic-a", "r1",
    "2026-10-01T00:30:00.000Z"⟩

/-- The same key and payload from another caller. -/
def borrowedSubmission : SubmitInput :=
  { syntheticSubmission with callerPrincipal := "synthetic-b", requestId := "r2" }

theorem wellFormed_borrowedSubmission : WellFormed plainDigests borrowedSubmission :=
  ⟨by decide, by decide, by decide, rfl, by decide⟩

theorem storedBy_syntheticRun : ∃ row ∈ syntheticRun.world.proposals,
    StoredBy (submittingRequests "synthetic-a" "SYNTHETIC") syntheticRun.log syntheticSubmission row ∧
      row.idempotencyKey = borrowedSubmission.idempotencyKey := by
  have h : ∃ row ∈ syntheticRun.world.proposals.rows, row.idempotencyKey = "submit-key-1" := by
    decide +kernel
  obtain ⟨row, hmem, hkey⟩ := h
  have hrow : row ∈ syntheticRun.world.proposals := Table.mem_rows.1 hmem
  refine ⟨row, hrow, ?_, hkey⟩
  unfold syntheticRun at hrow ⊢
  obtain ⟨input, k, hk, hrequest, hrest⟩ := exists_storedBy hrow
  refine ⟨k, hk, ?_, hrest⟩
  cases hthread : k.thread with
  | zero =>
    rw [hthread] at hrequest
    cases hrequest
  | succ n => rfl

/-- Another caller's submission with the key and the payload of a stored one gets the stored outcome. -/
theorem borrowed_replay :
    (∃ row ∈ syntheticRun.world.proposals,
      StoredBy (submittingRequests "synthetic-a" "SYNTHETIC") syntheticRun.log syntheticSubmission row ∧
        row.idempotencyKey = borrowedSubmission.idempotencyKey) ∧
      WellFormed plainDigests borrowedSubmission ∧
      ¬ Bound plainDigests syntheticRun.world borrowedSubmission syntheticSubmission := by
  refine ⟨storedBy_syntheticRun, wellFormed_borrowedSubmission, ?_⟩
  intro hbound
  rcases hbound (.IDEMPOTENT_REPLAY "job-1" ("prp_" ++ exampleHex 10) "2026-10-01T00:30:00.000Z" "r2")
    ⟨0, fun _ => ⟨.none, ""⟩, .inl (by decide +kernel)⟩ with hconflict | hsame
  · cases hconflict
  · exact absurd hsame.callerPrincipal (by decide)

/-- A later submission of `syntheticRun`'s job meets its row. -/
theorem bound_iff_borrowed :
    Bound plainDigests syntheticRun.world borrowedSubmission syntheticSubmission ↔
      (storedText borrowedSubmission.proposal = storedText syntheticSubmission.proposal →
        SameRequest borrowedSubmission syntheticSubmission) := by
  obtain ⟨row, hrow, hstored, hkey⟩ := storedBy_syntheticRun
  unfold syntheticRun at hrow hstored ⊢
  exact bound_iff plainDigests (fun _ _ h => h) [⟨"job-1", true⟩] _ _ syntheticSubmission row hrow
    hstored borrowedSubmission wellFormed_borrowedSubmission hkey

end QuantproCollector.ResearchWorkflow
