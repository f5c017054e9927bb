import QuantproCollector.ResearchWorkflow.Fencing

/-!
# A claim on its own

What `claimResearchJob` and `deferredCurrentStatus` answer where no other caller acts between their
requests: a job that is neither terminal, nor deferred, nor under a live lease is granted
(`claim_granted`), and the status that the queue derives is a function of its tables
(`deferredCurrentStatus_run`).
-/

namespace QuantproCollector.ResearchWorkflow

open Relational Async

variable {db db' : Db} {t k : ℕ} {choices : ℕ → Choice} {tr : List (Call Op Db Choice)}

/-! ## Deferrals -/

/-- A job has one deferral at most, so any active one is its deferral. -/
theorem isDeferred_eq {j now : String} :
    db.isDeferred j now = (db.deferral? j).any fun d => decide (now < d.recheckAt) := by
  have hunique : ∀ d ∈ db.deferrals, ∀ d' ∈ db.deferrals, d.jobId = d'.jobId → d = d' :=
    fun d hd d' hd' hj => Table.unique_of_mem (i := fun d => some d.jobId) (by simp [deferralIndexes])
      hd hd' (by simp) (by simp [hj])
  rw [Bool.eq_iff_iff]
  simp only [Db.isDeferred, Db.deferral?, Option.isSome_iff_exists, Option.any_eq_true]
  constructor
  · rintro ⟨d, hd⟩
    obtain ⟨hmem, hp⟩ := Table.mem_of_find? hd
    obtain ⟨hj, hlt⟩ : d.jobId = j ∧ now < d.recheckAt := by simpa using hp
    refine ⟨d, Table.find?_of_mem (i := fun d => some d.jobId) (by simp [deferralIndexes]) hmem
      (by simp [hj]) ?_, by simpa using hlt⟩
    intro a _ ha
    simpa [hj] using ha
  · rintro ⟨d, hd, hlt⟩
    obtain ⟨hmem, hj⟩ := Table.mem_of_find? hd
    obtain rfl : d.jobId = j := by simpa using hj
    refine ⟨d, Table.find?_of_mem (i := fun d => some d.jobId) (by simp [deferralIndexes]) hmem
      (by simpa using hlt) ?_⟩
    intro a ha hp
    obtain ⟨haj, -⟩ : a.jobId = d.jobId ∧ now < a.recheckAt := by simpa using hp
    simp [haj]

/-! ## The claim -/

/-- The answer grants the job. -/
def ClaimOutcome.Granted : ClaimOutcome → Prop
  | .CLAIMED .. => True
  | _ => False

/-- A job that can be taken is taken. -/
theorem mem_of_preempt {l : LeaseRow} {n : ℕ} (hw : WouldTake db l) (h : db.preempt l = some (db', n)) :
    ∃ count, { l with claimCount := count } ∈ db'.leases := by
  obtain ⟨hterminal, hdeferred, hlease⟩ := hw
  unfold Db.preempt at h
  rw [if_neg (by simp [hterminal, hdeferred])] at h
  split at h
  · obtain ⟨ls, hls, heq⟩ := Option.map_eq_some_iff.1 h
    cases heq
    exact ⟨l.claimCount, (Table.mem_insert? hls).2 (.inr rfl)⟩
  · rename_i current hcur
    obtain ⟨hmem, hjob⟩ := mem_of_lease? hcur
    rw [if_pos (by simpa [hcur] using hlease)] at h
    obtain ⟨ls, hls, heq⟩ := Option.map_eq_some_iff.1 h
    cases heq
    exact ⟨current.claimCount + 1, (Table.mem_update? hls).2 ⟨current, hmem, by simp [hjob]⟩⟩

/-- After its batch a claim that could take the job finds its own lease. -/
theorem lease_of_claimBatch {input : ClaimInput} {now expiresAt token eventId expiredId : String}
    {ns : List ℕ} (hw : WouldTake db (claimedLease input now expiresAt token))
    (h : runBatch (claimBatch input now expiresAt token eventId expiredId) db = some (db', ns)) :
    ∃ l, db'.lease? input.jobId = some l ∧ l.leaseOwner = input.leaseOwner ∧ l.claimToken = token := by
  simp only [claimBatch, runBatch_cons, runBatch_nil] at h
  obtain ⟨d₁, n₁, _, h₁, ⟨d₂, n₂, _, h₂, ⟨d₃, n₃, _, h₃, ⟨rfl, -⟩, -⟩, -⟩, -⟩ := h
  obtain ⟨es₁, rfl⟩ := exec_event h₁ (.inr (.inl ⟨_, _, _, _, rfl⟩))
  have hw₁ : WouldTake { db with events := es₁ } (claimedLease input now expiresAt token) := hw
  obtain ⟨count, hmem⟩ := mem_of_preempt hw₁ h₂
  obtain ⟨es₃, rfl⟩ := exec_event h₃ (.inr (.inr (.inl ⟨_, _, _, _, _, _, rfl⟩)))
  exact ⟨_, lease?_eq_some.2 ⟨hmem, rfl⟩, rfl, rfl⟩

section Alone

variable {α : Type} {outcome : α}

/-- A read: the script goes on with what it finds, or raises. -/
theorem run_read {op : Op} {found : Res op} {f : Res op → Query α}
    (hop : ∀ ch, machine.perform ch op db = Choice.read ch db found)
    (h : (machine.run t choices (Script.perform op >>= f) k tr db).1 = .ok outcome) :
    ∃ tr', (machine.run t choices (f found) (k + 1) tr' db).1 = .ok outcome := by
  rw [Script.perform_bind] at h
  unfold Machine.run at h
  rw [hop, Choice.read] at h
  split_ifs at h
  · exact ⟨_, h⟩
  · cases h

theorem run_hex {f : String → Query α}
    (h : (machine.run t choices (randomHex32 >>= f) k tr db).1 = .ok outcome) :
    ∃ hex tr', (machine.run t choices (f hex) (k + 1) tr' db).1 = .ok outcome :=
  ⟨_, _, h⟩

/-- A batch: the script goes on where it commits and is answered, or raises. -/
theorem run_batch {ss : List Statement} {f : List ℕ → Query α}
    (h : (machine.run t choices (batch ss >>= f) k tr db).1 = .ok outcome) :
    ∃ db' ns tr', runBatch ss db = some (db', ns) ∧
      (machine.run t choices (f ns) (k + 1) tr' db').1 = .ok outcome := by
  rw [batch, Script.perform_bind] at h
  unfold Machine.run at h
  cases hr : runBatch ss db with
  | none =>
    have hno : ¬ Commits (choices k) ss db := by simp [Commits, hr]
    rw [perform_not_commits hno] at h
    cases h
  | some d =>
    cases hfault : (choices k).fault with
    | none =>
      simp only [machine, perform, Choice.write, hfault, hr] at h
      exact ⟨_, _, _, rfl, h⟩
    | lostBefore =>
      simp only [machine, perform, Choice.write, hfault] at h
      cases h
    | lostAfter =>
      simp only [machine, perform, Choice.write, hfault, hr] at h
      cases h

end Alone

/-- The attempts at a job that can be taken end in its grant. -/
theorem claimAttempts_granted {input : ClaimInput} {now expiresAt : String} {attempts : ℕ}
    {outcome : ClaimOutcome} (hw : ∀ token, WouldTake db (claimedLease input now expiresAt token))
    (h : (machine.run t choices (claimAttempts input now expiresAt (attempts + 1)) k tr db).1 =
      .ok outcome) : outcome.Granted := by
  unfold claimAttempts at h
  obtain ⟨tokenHex, _, h⟩ := run_hex h
  obtain ⟨eventHex, _, h⟩ := run_hex h
  obtain ⟨expiredHex, _, h⟩ := run_hex h
  obtain ⟨db', ns, _, hbatch, h⟩ := run_batch h
  obtain ⟨l, hl, howner, htoken⟩ := lease_of_claimBatch (hw _) hbatch
  obtain ⟨_, h⟩ := run_read (fun ch => rfl) h
  have hown : (db'.lease? input.jobId).filter (fun l => l.leaseOwner = input.leaseOwner &&
      l.claimToken = "clt_" ++ tokenHex) = some l := by
    simp [hl, Option.filter, howner, htoken]
  rw [hown] at h
  cases h
  trivial

/-- **The grant.** A claim of a PUBLIC job that is neither terminal, nor deferred, nor under a live
lease is granted whenever it is answered. -/
theorem claim_granted {P : Platform} {input : ClaimInput} {now : String} {outcome : ClaimOutcome}
    (hnow : P.isoOfText input.now = some now)
    (hjob : (db.records.any fun r => r.recordKey = input.jobId && r.isPublic) = true)
    (hw : ∀ expiresAt token, WouldTake db (claimedLease input now expiresAt token))
    (h : (machine.run t choices (claimResearchJob P input) k tr db).1 = .ok outcome) :
    outcome.Granted := by
  obtain ⟨hterminal, hdeferred, -⟩ := hw "" ""
  have hdeferred : ((db.deferral? input.jobId).any fun d => decide (now < d.recheckAt)) = false :=
    isDeferred_eq.symm.trans hdeferred
  unfold claimResearchJob at h
  split_ifs at h
  · cases h
  · cases h
  · simp only [normalizedIso, hnow, pure_bind] at h
    obtain ⟨_, h⟩ := run_read (fun ch => rfl) h
    rw [hjob] at h
    obtain ⟨_, h⟩ := run_read (fun ch => rfl) h
    rw [show db.isTerminal input.jobId = false from hterminal] at h
    obtain ⟨_, h⟩ := run_read (fun ch => rfl) h
    rw [hdeferred] at h
    cases hexpires : P.addSeconds now RESEARCH_LEASE_TTL_SECONDS with
    | none =>
      rw [hexpires] at h
      cases h
    | some expiresAt =>
      rw [hexpires] at h
      exact claimAttempts_granted (hw expiresAt) h

/-! ## The status -/

/-- The status of a job by the tables of the queue. -/
def queueStatus (db : Db) (jobId now : String) : DeferStatus :=
  if db.isTerminal jobId then .COMPLETED
  else if (db.lease? jobId).any fun l => decide (now < l.leaseExpiresAt) then .CLAIMED
  else if db.isDeferred jobId now then .DEFERRED
  else .QUEUED

/-- Without a fault the queue answers the status by its tables. -/
theorem deferredCurrentStatus_run {jobId now : String} (hch : ∀ i, (choices i).fault = .none) :
    (machine.run t choices (deferredCurrentStatus jobId now) k tr db).1 =
      .ok (queueStatus db jobId now) := by
  have read : ∀ {α : Type} (op : Op) {found : Res op} {f : Res op → Query α} {k : ℕ}
      {tr : List (Call Op Db Choice)},
      (∀ ch, machine.perform ch op db = Choice.read ch db found) →
      ∃ tr', machine.run t choices (Script.perform op >>= f) k tr db =
        machine.run t choices (f found) (k + 1) tr' db := by
    intro α op found f k tr hop
    refine ⟨⟨t, op, choices k, db⟩ :: tr, ?_⟩
    rw [Script.perform_bind, Machine.run, hop, Choice.read, if_pos (hch k)]
    rfl
  unfold deferredCurrentStatus queueStatus
  obtain ⟨_, hread⟩ := read (.selectTerminal jobId) (fun ch => rfl)
  rw [selectTerminal, hread]
  by_cases hterminal : db.isTerminal jobId = true
  · rw [if_pos hterminal, if_pos hterminal]
    rfl
  · rw [if_neg hterminal, if_neg hterminal]
    obtain ⟨_, hread⟩ := read (.selectLease jobId) (fun ch => rfl)
    rw [selectLease, hread]
    by_cases hlease : ((db.lease? jobId).any fun l => decide (now < l.leaseExpiresAt)) = true
    · rw [if_pos hlease, if_pos hlease]
      rfl
    · rw [if_neg hlease, if_neg hlease]
      obtain ⟨_, hread⟩ := read (.selectDeferral jobId) (fun ch => rfl)
      rw [selectDeferral, hread, ← isDeferred_eq]
      by_cases hdeferred : db.isDeferred jobId now = true
      · rw [if_pos hdeferred, if_pos hdeferred]
        rfl
      · rw [if_neg hdeferred, if_neg hdeferred]
        rfl

end QuantproCollector.ResearchWorkflow
