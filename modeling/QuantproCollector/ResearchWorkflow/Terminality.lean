import QuantproCollector.ResearchWorkflow.Issued

/-!
# Terminality and single acceptance

`QueueInv` relates the three tables that decide a job's life: a terminal row names a formal result of
its job, every formal result has its terminal row, and a terminal job has no lease. `Effect` is what
one call of a request makes of the store; `call_effect` derives it from the batches, once,
under `QueueInv`, and everything later argues by cases on it.

The main result is `queue_terminality`: in every run, in every order of the callers' steps, with
every fault and every clock reading, the store keeps `Terminality`, and every formal result and
every deferral that enters the store enters it in the batch of a caller that holds the job's live
lease at that moment.
-/

namespace QuantproCollector.ResearchWorkflow

open Relational Async

variable {P : Platform} {db db' : Db} {req : Request}

/-! ## The invariant -/

structure QueueInv (db : Db) : Prop where
  terminal_formal : ∀ r ∈ db.terminal, ∃ p ∈ db.proposals,
    p.proposalId = r.proposalId ∧ p.jobId = r.jobId ∧ p.Formal
  formal_terminal : ∀ p ∈ db.proposals, p.Formal →
    ∃ r ∈ db.terminal, r.jobId = p.jobId ∧ r.proposalId = p.proposalId
  no_terminal_lease : ∀ r ∈ db.terminal, ∀ l ∈ db.leases, l.jobId ≠ r.jobId

theorem queueInv_initial (records : List JobRecord) : QueueInv (Db.initial records) :=
  ⟨fun r hr => absurd hr (Table.not_mem_empty r), fun p hp => absurd hp (Table.not_mem_empty p),
    fun r hr => absurd hr (Table.not_mem_empty r)⟩

/-- A fence that fails admits no lease, so its release deletes nothing. -/
theorem deleteWhere_of_not_fenceHolds (hI : QueueInv db) {f : Fence} (hf : db.fenceHolds f = false) :
    db.leases.deleteWhere (fun l => decide (f.Admits l)) = db.leases := by
  refine Table.deleteWhere_eq_self fun l hl => decide_eq_false fun hadm => ?_
  rw [← Bool.not_eq_true, fenceHolds_iff] at hf
  refine hf ⟨⟨l, hl, hadm⟩, fun r hr hrj => ?_⟩
  exact hI.no_terminal_lease r hr l hl (hadm.1.trans hrj.symm)

/-! ## The effect of one operation -/

/-- What a call of the request makes of the store it finds. -/
inductive Effect (P : Platform) (k : Call Op Db Choice) : Request → Db → Prop
  | quiet {req : Request} (es : Table EventRow String eventIndexes) :
      Effect P k req { k.before with events := es }
  | taken {input : ClaimInput} {now expiresAt token eventId expiredId : String} {count : ℕ}
      {ls : Table LeaseRow String leaseIndexes} (es : Table EventRow String eventIndexes)
      (hop : k.op = .batch (claimBatch input now expiresAt token eventId expiredId))
      (hnow : P.isoOfText input.now = some now)
      (ht : Takes k.before ⟨input.jobId, input.leaseOwner, token, now, expiresAt, count⟩ ls) :
      Effect P k (.claim input) { k.before with leases := ls, events := es }
  | rejected {input : SubmitInput} {row : ProposalRow}
      {ps : Table ProposalRow String proposalIndexes} (es : Table EventRow String eventIndexes)
      (hrow : row.status = .REJECTED) (hps : k.before.proposals.insert? row = some ps) :
      Effect P k (.submit input) { k.before with proposals := ps, events := es }
  | completed {input : SubmitInput} {r : Race} {proposalId : String} {f : Fence}
      {ps : Table ProposalRow String proposalIndexes}
      {ts : Table TerminalRow String terminalIndexes} (es : Table EventRow String eventIndexes)
      (hr : r.Of P input)
      (hf : f = ⟨r.jobId, r.callerPrincipal, input.expectedGeneration.num.toNat, r.now⟩)
      (hfence : k.before.fenceHolds f = true)
      (hps : k.before.proposals.insert? (r.row proposalId .CHATGPT .RECEIVED none) = some ps)
      (hts : k.before.terminal.insert? ⟨r.jobId, proposalId, r.now⟩ = some ts) :
      Effect P k (.submit input)
        { k.before with
          proposals := ps, terminal := ts,
          leases := k.before.leases.deleteWhere fun l => decide (f.Admits l), events := es }
  | synthesized {input : SubmitInput} {r : Race} {origin : ResearchOrigin} {proposalId : String}
      {event : EventRow} {ps : Table ProposalRow String proposalIndexes}
      (es : Table EventRow String eventIndexes) (hr : r.Of P input) (ho : origin ≠ .CHATGPT)
      (hop : k.op = .batch (syntheticBatch (r.row proposalId origin .RECEIVED none) event))
      (hc : Commits k.choice (syntheticBatch (r.row proposalId origin .RECEIVED none) event)
        k.before)
      (hps : k.before.proposals.insert? (r.row proposalId origin .RECEIVED none) = some ps) :
      Effect P k (.submit input)
        { k.before with
          proposals := ps, leases := k.before.leases.deleteWhere fun l => l.jobId = r.jobId,
          events := es }
  | deferred {input : DeferInput} {row : DeferralRow} {now : String} {f : Fence}
      {ds : Table DeferralRow String deferralIndexes}
      (hg : generationValid input.expectedGeneration = true)
      (hnow : P.isoOfText input.now = some now) (hrow : row.jobId = input.jobId)
      (hf : f = ⟨input.jobId, input.callerPrincipal, input.expectedGeneration.num.toNat, now⟩)
      (hfence : k.before.fenceHolds f = true) (hds : k.before.deferrals.insert? row = some ds) :
      Effect P k (.defer input)
        { k.before with
          deferrals := ds, leases := k.before.leases.deleteWhere fun l => decide (f.Admits l) }

/-- Every operation that a request can issue has one of the listed effects. -/
theorem call_effect {k : Call Op Db Choice} (hI : QueueInv k.before) (hop : MayIssue P req k.op) :
    Effect P k req (machine.after k) := by
  obtain ⟨t, op, ch, db⟩ := k
  have same : ∀ {req : Request} {d : Db}, d = db → Effect P ⟨t, op, ch, db⟩ req d := by
    rintro req d rfl
    exact .quiet d.events
  change Effect P ⟨t, op, ch, db⟩ req (machine.perform ch op db).2
  cases hop with
  | read hread => exact same (perform_read hread ch db)
  | event e =>
    by_cases hc : Commits ch [.insertEvent e] db
    · obtain ⟨ns, h⟩ := perform_commits hc
      obtain ⟨es, heq⟩ := runBatch_event h
      exact heq ▸ .quiet es
    · exact same (by rw [perform_not_commits hc])
  | @claim input now expiresAt token eventId expiredId hnow =>
    by_cases hc : Commits ch (claimBatch input now expiresAt token eventId expiredId) db
    · obtain ⟨ns, h⟩ := perform_commits hc
      obtain ⟨ls, es, heq, rfl | ⟨count, ht⟩⟩ := runBatch_claim h
      · exact heq ▸ .quiet es
      · exact heq ▸ .taken es rfl hnow ht
    · exact same (by rw [perform_not_commits hc])
  | @reject input row event hrow =>
    by_cases hc : Commits ch (rejectBatch row event) db
    · obtain ⟨ns, h⟩ := perform_commits hc
      obtain ⟨ps, es, hps, heq⟩ := runBatch_reject h
      exact heq ▸ .rejected es hrow hps
    · exact same (by rw [perform_not_commits hc])
  | @formal input r proposalId received completed hr =>
    by_cases hc : Commits ch (formalBatch (r.row proposalId .CHATGPT .RECEIVED none)
        ⟨r.jobId, r.callerPrincipal, input.expectedGeneration.num.toNat, r.now⟩ received
        completed) db
    · obtain ⟨ns, h⟩ := perform_commits hc
      rcases runBatch_formal h with ⟨hf, es, heq⟩ | ⟨hf, ps, ts, es, hps, hts, heq⟩
      · rw [deleteWhere_of_not_fenceHolds hI hf] at heq
        exact heq ▸ .quiet es
      · exact heq ▸ .completed es hr rfl hf hps hts
    · exact same (by rw [perform_not_commits hc])
  | @synthetic input r origin proposalId event hr ho =>
    by_cases hc : Commits ch (syntheticBatch (r.row proposalId origin .RECEIVED none) event) db
    · obtain ⟨ns, h⟩ := perform_commits hc
      obtain ⟨ps, es, hps, heq⟩ := runBatch_synthetic h
      exact heq ▸ .synthesized es hr ho rfl hc hps
    · exact same (by rw [perform_not_commits hc])
  | @defer input row now hg hnow hrow =>
    by_cases hc : Commits ch (deferBatch row
        ⟨input.jobId, input.callerPrincipal, input.expectedGeneration.num.toNat, now⟩) db
    · obtain ⟨ns, h⟩ := perform_commits hc
      rcases runBatch_defer h with ⟨hf, heq⟩ | ⟨hf, ds, hds, heq⟩
      · rw [deleteWhere_of_not_fenceHolds hI hf] at heq
        exact heq ▸ same rfl
      · exact heq ▸ .deferred hg hnow hrow rfl hf hds
    · exact same (by rw [perform_not_commits hc])

/-- The lease that a holding fence found. -/
theorem lease_of_fenceHolds {f : Fence} (hf : db.fenceHolds f = true) :
    ∃ l, db.lease? f.jobId = some l ∧ f.Admits l := by
  obtain ⟨⟨l, hl, hadm⟩, -⟩ := fenceHolds_iff.1 hf
  exact ⟨l, lease?_eq_some.2 ⟨hl, hadm.1⟩, hadm⟩

/-- After the fenced release the job has no lease. -/
theorem released_of_fenceHolds {f : Fence} (hf : db.fenceHolds f = true) {l : LeaseRow}
    (hl : l ∈ db.leases.deleteWhere fun l => decide (f.Admits l)) : l.jobId ≠ f.jobId := by
  obtain ⟨⟨l', hl', hadm⟩, -⟩ := fenceHolds_iff.1 hf
  obtain ⟨hmem, hnot⟩ := Table.mem_deleteWhere.1 hl
  intro hj
  rw [lease_unique hmem hl' (hj.trans hadm.1.symm)] at hnot
  exact of_decide_eq_false hnot hadm

/-- **Step lemma.** Every effect keeps the invariant. -/
theorem queueInv_effect {k : Call Op Db Choice} (hI : QueueInv k.before)
    (h : Effect P k req db') : QueueInv db' := by
  cases h with
  | quiet es => exact ⟨hI.terminal_formal, hI.formal_terminal, hI.no_terminal_lease⟩
  | taken es hop hnow ht =>
    refine ⟨hI.terminal_formal, hI.formal_terminal, fun r hr l hl => ?_⟩
    rcases (ht.mem l).1 hl with rfl | ⟨hmem, -⟩
    · exact (ht.notTerminal r hr).symm
    · exact hI.no_terminal_lease r hr l hmem
  | rejected es hrow hps =>
    refine ⟨fun r hr => ?_, fun p hp hform => ?_, hI.no_terminal_lease⟩
    · obtain ⟨p, hp, hrest⟩ := hI.terminal_formal r hr
      exact ⟨p, (Table.mem_insert? hps).2 (.inl hp), hrest⟩
    · rcases (Table.mem_insert? hps).1 hp with hp | rfl
      · exact hI.formal_terminal p hp hform
      · exact absurd hform.2 (by simp [hrow])
  | @completed input r proposalId f ps ts es hr hf hfence hps hts =>
    have hj : f.jobId = r.jobId := by rw [hf]
    refine ⟨fun x hx => ?_, fun p hp hform => ?_, fun x hx l hl => ?_⟩
    · rcases (Table.mem_insert? hts).1 hx with hx | rfl
      · obtain ⟨p, hp, hrest⟩ := hI.terminal_formal x hx
        exact ⟨p, (Table.mem_insert? hps).2 (.inl hp), hrest⟩
      · exact ⟨_, (Table.mem_insert? hps).2 (.inr rfl), rfl, rfl, rfl, rfl⟩
    · rcases (Table.mem_insert? hps).1 hp with hp | rfl
      · obtain ⟨x, hx, hrest⟩ := hI.formal_terminal p hp hform
        exact ⟨x, (Table.mem_insert? hts).2 (.inl hx), hrest⟩
      · exact ⟨_, (Table.mem_insert? hts).2 (.inr rfl), rfl, rfl⟩
    · rcases (Table.mem_insert? hts).1 hx with hx | rfl
      · exact hI.no_terminal_lease x hx l (Table.mem_deleteWhere.1 hl).1
      · exact hj ▸ released_of_fenceHolds hfence hl
  | synthesized es hr ho hop hc hps =>
    refine ⟨fun r hr => ?_, fun p hp hform => ?_, fun x hx l hl => ?_⟩
    · obtain ⟨p, hp, hrest⟩ := hI.terminal_formal r hr
      exact ⟨p, (Table.mem_insert? hps).2 (.inl hp), hrest⟩
    · rcases (Table.mem_insert? hps).1 hp with hp | rfl
      · exact hI.formal_terminal p hp hform
      · exact absurd hform.1 ho
    · exact hI.no_terminal_lease x hx l (Table.mem_deleteWhere.1 hl).1
  | deferred hg hnow hrow hf hfence hds =>
    exact ⟨hI.terminal_formal, hI.formal_terminal,
      fun x hx l hl => hI.no_terminal_lease x hx l (Table.mem_deleteWhere.1 hl).1⟩

/-! ## Runs -/

section Runs

variable (P : Platform) (records : List JobRecord) (requests : ℕ → Request)

theorem issued_start :
    Machine.Issued (fun t => MayIssue P (requests t)) (start P records requests) :=
  fun t => serve_issues P (requests t)

theorem queueInv_keeps : machine.Keeps (fun t => MayIssue P (requests t)) QueueInv :=
  fun t ch op w hop hI => queueInv_effect hI (call_effect (k := ⟨t, op, ch, w⟩) hI hop)

/-- The invariant holds in every reachable state. -/
theorem queueInv_run (es : List (ℕ × Choice)) :
    QueueInv (machine.exec (start P records requests) es).world :=
  Machine.exec_inv (queueInv_keeps P requests) (issued_start P records requests)
    (queueInv_initial records) es

/-- Every logged call has an effect of its caller's request, from a state with the invariant. -/
theorem effect_log (es : List (ℕ × Choice)) :
    ∀ k ∈ (machine.exec (start P records requests) es).log,
      QueueInv k.before ∧ Effect P k (requests k.thread) (machine.after k) := by
  intro k hk
  obtain ⟨hop, hI⟩ := Machine.exec_log (queueInv_keeps P requests)
    (issued_start P records requests) (queueInv_initial records) (by simp [start, Config.start])
    es k hk
  exact ⟨hI, call_effect hI hop⟩

end Runs

/-! ## The guarantee -/

/-- What holds of the store: one terminal row and one formal result for each job, the one naming
the other, and no lease beside a terminal row. -/
structure Terminality (db : Db) : Prop where
  one_terminal : ∀ r ∈ db.terminal, ∀ r' ∈ db.terminal, r.jobId = r'.jobId → r = r'
  one_formal : ∀ p ∈ db.proposals, ∀ p' ∈ db.proposals, p.Formal → p'.Formal →
    p.jobId = p'.jobId → p = p'
  terminal_names_formal : ∀ r ∈ db.terminal, ∃ p ∈ db.proposals,
    p.proposalId = r.proposalId ∧ p.jobId = r.jobId ∧ p.Formal
  terminal_or_lease : ∀ r ∈ db.terminal, ∀ l ∈ db.leases, l.jobId ≠ r.jobId

/-- A formal result that the call stores is its caller's, and the caller presents the live lease
that the job has when the batch runs. -/
def FormalFenced (P : Platform) (requests : ℕ → Request) (k : Call Op Db Choice) : Prop :=
  ∀ p ∈ (machine.after k).proposals, ¬ p ∈ k.before.proposals → p.Formal →
    ∃ q l, (requests k.thread).presented = some q ∧ q.jobId = p.jobId ∧
      q.owner = p.callerPrincipal ∧ k.before.lease? p.jobId = some l ∧ q.Holds P l

/-- A deferral that the call stores comes with the removal, in the same batch, of the live lease
that its caller presents. -/
def DeferralFenced (P : Platform) (requests : ℕ → Request) (k : Call Op Db Choice) : Prop :=
  ∀ d ∈ (machine.after k).deferrals, ¬ d ∈ k.before.deferrals →
    ∃ q l, (requests k.thread).presented = some q ∧ q.jobId = d.jobId ∧
      k.before.lease? d.jobId = some l ∧ q.Holds P l ∧ (machine.after k).lease? d.jobId = none

theorem terminality_of_inv (hI : QueueInv db) : Terminality db where
  one_terminal r hr r' hr' hj :=
    Table.unique_of_mem (i := fun r => some r.jobId) (by simp [terminalIndexes]) hr hr' (by simp)
      (by simp [hj])
  one_formal p hp p' hp' hf hf' hj :=
    Table.unique_of_mem (i := fun p => if p.Formal then some p.jobId else none)
      (by simp [proposalIndexes]) hp hp' (by simp [hf]) (by simp [hf, hf', hj])
  terminal_names_formal := hI.terminal_formal
  terminal_or_lease := hI.no_terminal_lease

theorem formalFenced_of_effect {requests : ℕ → Request} {k : Call Op Db Choice}
    (h : Effect P k (requests k.thread) (machine.after k)) : FormalFenced P requests k := by
  intro p hp hnew hform
  generalize machine.after k = db' at h hp
  generalize hreq : requests k.thread = req at h
  cases h with
  | quiet es => exact absurd hp hnew
  | taken es hop hnow ht => exact absurd hp hnew
  | rejected es hrow hps =>
    rcases (Table.mem_insert? hps).1 hp with hp | rfl
    · exact absurd hp hnew
    · exact absurd hform.2 (by simp [hrow])
  | @completed input r proposalId f ps ts es hr hf hfence hps hts =>
    rcases (Table.mem_insert? hps).1 hp with hp | rfl
    · exact absurd hp hnew
    · obtain ⟨l, hl, hadm⟩ := lease_of_fenceHolds hfence
      subst hf
      refine ⟨⟨input.jobId, input.callerPrincipal, input.expectedGeneration, input.now⟩, l, rfl,
        hr.jobId.symm, hr.callerPrincipal.symm, hl, ?_⟩
      rw [hr.jobId, hr.callerPrincipal] at hadm
      exact (admits_iff (q := ⟨_, _, _, input.now⟩) l hr.generation hr.now).1 hadm
  | synthesized es hr ho hop hc hps =>
    rcases (Table.mem_insert? hps).1 hp with hp | rfl
    · exact absurd hp hnew
    · exact absurd hform.1 ho
  | deferred hg hnow hrow hf hfence hds => exact absurd hp hnew

theorem deferralFenced_of_effect {requests : ℕ → Request} {k : Call Op Db Choice}
    (h : Effect P k (requests k.thread) (machine.after k)) :
    DeferralFenced P requests k := by
  intro d hd hnew
  generalize machine.after k = db' at h hd ⊢
  generalize hreq : requests k.thread = req at h
  cases h with
  | @deferred input row now f ds hg hnow hrow hf hfence hds =>
    rcases (Table.mem_insert? hds).1 hd with hd | rfl
    · exact absurd hd hnew
    · obtain ⟨l, hl, hadm⟩ := lease_of_fenceHolds hfence
      have hj : f.jobId = d.jobId := by rw [hf, hrow]
      refine ⟨⟨input.jobId, input.callerPrincipal, input.expectedGeneration, input.now⟩, l, rfl,
        hrow.symm, hj ▸ hl, ?_, ?_⟩
      · subst hf
        exact (admits_iff (q := ⟨_, _, _, input.now⟩) l hg hnow).1 hadm
      · exact lease?_eq_none.2 fun x hx => hj ▸ released_of_fenceHolds hfence hx
  | _ => exact absurd hd hnew

/-- **Terminality and single acceptance.** For every set of callers, every order of their steps,
every fault and every clock reading. -/
theorem queue_terminality (P : Platform) (records : List JobRecord) (requests : ℕ → Request)
    (es : List (ℕ × Choice)) :
    Terminality (machine.exec (start P records requests) es).world ∧
      ∀ k ∈ (machine.exec (start P records requests) es).log,
        FormalFenced P requests k ∧ DeferralFenced P requests k := by
  refine ⟨terminality_of_inv (queueInv_run P records requests es), fun k hk => ?_⟩
  obtain ⟨-, h⟩ := effect_log P records requests es k hk
  exact ⟨formalFenced_of_effect h, deferralFenced_of_effect h⟩

end QuantproCollector.ResearchWorkflow
