import QuantproCollector.ResearchWorkflow.Queue

/-!
# What the batches of the queue do

Said once for each batch, so that no later proof runs SQL again: `runBatch_claim`,
`runBatch_reject`, `runBatch_formal`, `runBatch_synthetic` and `runBatch_defer` give the tables that
a committed batch leaves, and `perform_commits` says when a request commits its batch.
-/

namespace QuantproCollector.ResearchWorkflow

open Relational Async

variable {db db' : Db} {ns : List ℕ}

/-! ## Lookups -/

theorem isTerminal_eq_false {j : String} :
    db.isTerminal j = false ↔ ∀ r ∈ db.terminal, r.jobId ≠ j := by
  simp [Db.isTerminal, Table.find?, Table.mem_rows]

theorem lease?_eq_none {j : String} : db.lease? j = none ↔ ∀ l ∈ db.leases, l.jobId ≠ j := by
  simp [Db.lease?, Table.find?_eq_none]

theorem mem_of_lease? {j : String} {l : LeaseRow} (h : db.lease? j = some l) :
    l ∈ db.leases ∧ l.jobId = j := by
  simpa using Table.mem_of_find? h

theorem lease_unique {l l' : LeaseRow} (h : l ∈ db.leases) (h' : l' ∈ db.leases)
    (hj : l.jobId = l'.jobId) : l = l' :=
  Table.unique_of_mem (i := fun l => some l.jobId) (by simp [leaseIndexes]) h h' (by simp)
    (by simp [hj])

theorem lease?_eq_some {j : String} {l : LeaseRow} :
    db.lease? j = some l ↔ l ∈ db.leases ∧ l.jobId = j := by
  refine ⟨mem_of_lease?, ?_⟩
  rintro ⟨h, rfl⟩
  refine Table.find?_of_mem (i := fun l => some l.jobId) (by simp [leaseIndexes]) h (by simp) ?_
  intro a _ ha
  simpa using ha

theorem fenceHolds_iff {f : Fence} :
    db.fenceHolds f = true ↔ (∃ l ∈ db.leases, f.Admits l) ∧ ∀ r ∈ db.terminal, r.jobId ≠ f.jobId := by
  simp only [Db.fenceHolds, Bool.and_eq_true, Bool.not_eq_true', isTerminal_eq_false]
  simp [Table.find?, Table.mem_rows]

/-! ## Single statements -/

theorem runBatch_cons {s : Statement} {ss : List Statement} :
    runBatch (s :: ss) db = some (db', ns) ↔
      ∃ d n ns', db.exec s = some (d, n) ∧ runBatch ss d = some (db', ns') ∧ ns = n :: ns' := by
  simp only [runBatch, Option.bind_eq_bind, Option.bind_eq_some_iff, Option.pure_def,
    Option.some.injEq, Prod.mk.injEq, Prod.exists]
  constructor
  · rintro ⟨d, n, hs, d', ns', hss, rfl, rfl⟩
    exact ⟨d, n, ns', hs, hss, rfl⟩
  · rintro ⟨d, n, ns', hs, hss, rfl⟩
    exact ⟨d, n, hs, _, _, hss, rfl, rfl⟩

@[simp] theorem runBatch_nil : runBatch [] db = some (db', ns) ↔ db = db' ∧ [] = ns := by
  simp [runBatch]

theorem insertEvent_eq {e : EventRow} {n : ℕ} (h : db.insertEvent e = some (db', n)) :
    ∃ es, db' = { db with events := es } := by
  obtain ⟨es, -, heq⟩ := Option.map_eq_some_iff.1 h
  exact ⟨es, (Prod.mk.inj heq).1.symm⟩

theorem insertProposal_eq {p : ProposalRow} {n : ℕ} (h : db.insertProposal p = some (db', n)) :
    ∃ ps, db.proposals.insert? p = some ps ∧ db' = { db with proposals := ps } := by
  obtain ⟨ps, hps, heq⟩ := Option.map_eq_some_iff.1 h
  exact ⟨ps, hps, (Prod.mk.inj heq).1.symm⟩

theorem insertTerminal_eq {r : TerminalRow} {n : ℕ} (h : db.insertTerminal r = some (db', n)) :
    ∃ ts, db.terminal.insert? r = some ts ∧ db' = { db with terminal := ts } := by
  obtain ⟨ts, hts, heq⟩ := Option.map_eq_some_iff.1 h
  exact ⟨ts, hts, (Prod.mk.inj heq).1.symm⟩

theorem insertDeferral_eq {d : DeferralRow} {n : ℕ} (h : db.insertDeferral d = some (db', n)) :
    ∃ ds, db.deferrals.insert? d = some ds ∧ db' = { db with deferrals := ds } := by
  obtain ⟨ds, hds, heq⟩ := Option.map_eq_some_iff.1 h
  exact ⟨ds, hds, (Prod.mk.inj heq).1.symm⟩

/-- A statement that may only add an event. -/
theorem exec_event {s : Statement} {n : ℕ} (h : db.exec s = some (db', n))
    (hs : (∃ e, s = .insertEvent e) ∨ (∃ a b c d, s = .insertExpiredEvent a b c d) ∨
      (∃ a b c d e f, s = .insertClaimedEvent a b c d e f) ∨
      ∃ e a b, s = .insertCompletionEvent e a b) : ∃ es, db' = { db with events := es } := by
  have same : some (db, 0) = some (db', n) → ∃ es, db' = { db with events := es } := by
    intro h
    cases h
    exact ⟨db.events, rfl⟩
  rcases hs with ⟨e, rfl⟩ | ⟨a, b, c, d, rfl⟩ | ⟨a, b, c, d, e, f, rfl⟩ | ⟨e, a, b, rfl⟩
  · exact insertEvent_eq h
  · simp only [Db.exec] at h
    split at h
    · split_ifs at h
      · exact insertEvent_eq h
      · exact same h
    · exact same h
  · simp only [Db.exec] at h
    split at h
    · exact insertEvent_eq h
    · exact same h
  · simp only [Db.exec] at h
    split_ifs at h
    · exact insertEvent_eq h
    · exact same h

/-- The lease `l` becomes the lease of its job: the job had none, or an expired one. -/
structure Takes (db : Db) (l : LeaseRow) (ls : Table LeaseRow String leaseIndexes) : Prop where
  notTerminal : ∀ r ∈ db.terminal, r.jobId ≠ l.jobId
  notDeferred : db.isDeferred l.jobId l.claimedAt = false
  count : (∀ x ∈ db.leases, x.jobId ≠ l.jobId) ∧ l.claimCount = 1 ∨
    ∃ x ∈ db.leases, x.jobId = l.jobId ∧ x.leaseExpiresAt ≤ l.claimedAt ∧
      l.claimCount = x.claimCount + 1
  mem : ∀ x, x ∈ ls ↔ x = l ∨ x ∈ db.leases ∧ x.jobId ≠ l.jobId

/-- The upsert of a claim leaves the leases alone, or takes the lease with the next count. -/
theorem preempt_eq {l : LeaseRow} {n : ℕ} (hl : l.claimCount = 1)
    (h : db.preempt l = some (db', n)) :
    db' = db ∨ ∃ ls count, db' = { db with leases := ls } ∧
      Takes db { l with claimCount := count } ls := by
  unfold Db.preempt at h
  split_ifs at h with hgate
  · exact .inl (by cases h; rfl)
  · obtain ⟨hterm, hdefer⟩ : db.isTerminal l.jobId = false ∧
        db.isDeferred l.jobId l.claimedAt = false := by simpa using hgate
    have hterm := isTerminal_eq_false.1 hterm
    split at h
    · rename_i hnone
      obtain ⟨ls, hls, heq⟩ := Option.map_eq_some_iff.1 h
      have hfree := lease?_eq_none.1 hnone
      refine .inr ⟨ls, 1, (Prod.mk.inj heq).1.symm, hterm, hdefer, .inl ⟨hfree, rfl⟩,
        fun x => ?_⟩
      rw [Table.mem_insert? hls, ← hl]
      constructor
      · rintro (hx | rfl)
        · exact .inr ⟨hx, hfree x hx⟩
        · exact .inl rfl
      · rintro (rfl | ⟨hx, -⟩)
        · exact .inr rfl
        · exact .inl hx
    · rename_i current hcur
      obtain ⟨hmem, hjob⟩ := mem_of_lease? hcur
      split_ifs at h with hexp
      · obtain ⟨ls, hls, heq⟩ := Option.map_eq_some_iff.1 h
        refine .inr ⟨ls, current.claimCount + 1, (Prod.mk.inj heq).1.symm, hterm, hdefer,
          .inr ⟨current, hmem, hjob, hexp, rfl⟩, fun x => ?_⟩
        rw [Table.mem_update? hls]
        constructor
        · rintro ⟨r, hr, rfl⟩
          by_cases hrj : r.jobId = l.jobId
          · rw [lease_unique hr hmem (hrj.trans hjob.symm)]
            simp [hjob]
          · simp [hrj, hr]
        · rintro (rfl | ⟨hx, hxj⟩)
          · exact ⟨current, hmem, by simp [hjob]⟩
          · exact ⟨x, hx, by simp [hxj]⟩
      · exact .inl (by cases h; rfl)

/-! ## Batches -/

theorem runBatch_event {e : EventRow} (h : runBatch [.insertEvent e] db = some (db', ns)) :
    ∃ es, db' = { db with events := es } := by
  simp only [runBatch_cons, runBatch_nil] at h
  obtain ⟨d, n, ns', he, ⟨rfl, -⟩, -⟩ := h
  exact insertEvent_eq he

/-- A committed claim takes the job's lease, or only writes receipts. -/
theorem runBatch_claim {input : ClaimInput} {now expiresAt token eventId expiredId : String}
    (h : runBatch (claimBatch input now expiresAt token eventId expiredId) db = some (db', ns)) :
    ∃ ls es, db' = { db with leases := ls, events := es } ∧ (ls = db.leases ∨
      ∃ count, Takes db ⟨input.jobId, input.leaseOwner, token, now, expiresAt, count⟩ ls) := by
  simp only [claimBatch, runBatch_cons, runBatch_nil] at h
  obtain ⟨d₁, n₁, _, h₁, ⟨d₂, n₂, _, h₂, ⟨d₃, n₃, _, h₃, ⟨rfl, -⟩, -⟩, -⟩, -⟩ := h
  obtain ⟨es₁, rfl⟩ := exec_event h₁ (.inr (.inl ⟨_, _, _, _, rfl⟩))
  obtain ⟨es₃, rfl⟩ := exec_event h₃ (.inr (.inr (.inl ⟨_, _, _, _, _, _, rfl⟩)))
  rcases preempt_eq (l := claimedLease input now expiresAt token) rfl h₂ with
    rfl | ⟨ls, count, rfl, ht⟩
  · exact ⟨db.leases, es₃, rfl, .inl rfl⟩
  · exact ⟨ls, es₃, rfl, .inr ⟨count, ht.notTerminal, ht.notDeferred, ht.count, ht.mem⟩⟩

/-- A committed refusal adds its row. -/
theorem runBatch_reject {row : ProposalRow} {event : EventRow}
    (h : runBatch (rejectBatch row event) db = some (db', ns)) :
    ∃ ps es, db.proposals.insert? row = some ps ∧
      db' = { db with proposals := ps, events := es } := by
  simp only [rejectBatch, runBatch_cons, runBatch_nil] at h
  obtain ⟨d₁, n₁, _, h₁, ⟨d₂, n₂, _, h₂, ⟨rfl, -⟩, -⟩, -⟩ := h
  obtain ⟨ps, hps, rfl⟩ := insertProposal_eq h₁
  obtain ⟨es, rfl⟩ := insertEvent_eq h₂
  exact ⟨ps, es, hps, rfl⟩

/-- A committed synthetic acceptance adds its row and deletes the job's lease, whoever holds it. -/
theorem runBatch_synthetic {row : ProposalRow} {event : EventRow}
    (h : runBatch (syntheticBatch row event) db = some (db', ns)) :
    ∃ ps es, db.proposals.insert? row = some ps ∧
      db' = { db with
        proposals := ps, leases := db.leases.deleteWhere fun l => l.jobId = row.jobId,
        events := es } := by
  simp only [syntheticBatch, runBatch_cons, runBatch_nil] at h
  obtain ⟨d₁, n₁, _, h₁, ⟨d₂, n₂, _, h₂, ⟨d₃, n₃, _, h₃, ⟨rfl, -⟩, -⟩, -⟩, -⟩ := h
  obtain ⟨ps, hps, rfl⟩ := insertProposal_eq h₁
  cases h₂
  obtain ⟨es, rfl⟩ := insertEvent_eq h₃
  exact ⟨ps, es, hps, rfl⟩

/-- A committed formal acceptance stores the result under the presented lease and releases that
lease; or the lease predicate failed, and only the leases it would admit are gone. -/
theorem runBatch_formal {row : ProposalRow} {f : Fence} {received completed : EventRow}
    (h : runBatch (formalBatch row f received completed) db = some (db', ns)) :
    (db.fenceHolds f = false ∧ ∃ es, db' = { db with
        leases := db.leases.deleteWhere fun l => decide (f.Admits l), events := es }) ∨
      db.fenceHolds f = true ∧ ∃ ps ts es, db.proposals.insert? row = some ps ∧
        db.terminal.insert? ⟨row.jobId, row.proposalId, row.createdAt⟩ = some ts ∧
        db' = { db with
          proposals := ps, terminal := ts,
          leases := db.leases.deleteWhere fun l => decide (f.Admits l), events := es } := by
  simp only [formalBatch, runBatch_cons, runBatch_nil] at h
  obtain ⟨d₁, n₁, _, h₁, ⟨d₂, n₂, _, h₂, ⟨d₃, n₃, _, h₃, ⟨d₄, n₄, _, h₄, ⟨d₅, n₅, _, h₅,
    ⟨rfl, -⟩, -⟩, -⟩, -⟩, -⟩, -⟩ := h
  obtain ⟨es₅, rfl⟩ := exec_event h₅ (.inr (.inr (.inr ⟨_, _, _, rfl⟩)))
  obtain ⟨es₄, rfl⟩ := exec_event h₄ (.inr (.inr (.inr ⟨_, _, _, rfl⟩)))
  cases h₃
  by_cases hf : db.fenceHolds f = true
  · simp only [Db.exec, hf, if_true] at h₁
    obtain ⟨ps, hps, rfl⟩ := insertProposal_eq h₁
    -- the first insert touches neither leases nor terminal rows, so the predicate still holds
    have hf' : Db.fenceHolds { db with proposals := ps } f = true := hf
    simp only [Db.exec, hf', if_true] at h₂
    obtain ⟨ts, hts, rfl⟩ := insertTerminal_eq h₂
    exact .inr ⟨hf, ps, ts, es₅, hps, hts, rfl⟩
  · simp only [Db.exec, hf] at h₁
    cases h₁
    simp only [Db.exec, hf] at h₂
    cases h₂
    exact .inl ⟨by simpa using hf, es₅, rfl⟩

/-- A committed deferral stores its row under the presented lease and releases that lease; or the
lease predicate failed, and only the leases it would admit are gone. -/
theorem runBatch_defer {row : DeferralRow} {f : Fence}
    (h : runBatch (deferBatch row f) db = some (db', ns)) :
    (db.fenceHolds f = false ∧ db' = { db with
        leases := db.leases.deleteWhere fun l => decide (f.Admits l) }) ∨
      db.fenceHolds f = true ∧ ∃ ds, db.deferrals.insert? row = some ds ∧
        db' = { db with
          deferrals := ds, leases := db.leases.deleteWhere fun l => decide (f.Admits l) } := by
  simp only [deferBatch, runBatch_cons, runBatch_nil] at h
  obtain ⟨d₁, n₁, _, h₁, ⟨d₂, n₂, _, h₂, ⟨rfl, -⟩, -⟩, -⟩ := h
  cases h₂
  by_cases hf : db.fenceHolds f = true
  · simp only [Db.exec, hf, if_true] at h₁
    obtain ⟨ds, hds, rfl⟩ := insertDeferral_eq h₁
    exact .inr ⟨hf, ds, hds, rfl⟩
  · simp only [Db.exec, hf] at h₁
    cases h₁
    exact .inl ⟨by simpa using hf, rfl⟩

/-! ## Requests to the store -/

/-- The batch takes effect: it is not lost before it runs, and no constraint stops it. -/
def Commits (ch : Choice) (ss : List Statement) (db : Db) : Prop :=
  ch.fault ≠ .lostBefore ∧ (runBatch ss db).isSome

instance (ch : Choice) (ss : List Statement) (db : Db) : Decidable (Commits ch ss db) :=
  inferInstanceAs (Decidable (_ ∧ _))

/-- Only a batch changes the store. -/
theorem perform_read {op : Op} (h : ∀ ss, op ≠ .batch ss) (ch : Choice) (db : Db) :
    (machine.perform ch op db).2 = db := by
  cases op with
  | batch ss => exact absurd rfl (h ss)
  | randomHex32 => rfl
  | _ => exact Choice.read_snd ch db _

theorem perform_commits {ch : Choice} {ss : List Statement} (h : Commits ch ss db) :
    ∃ ns, runBatch ss db = some ((machine.perform ch (.batch ss) db).2, ns) := by
  obtain ⟨hf, hs⟩ := h
  obtain ⟨⟨d, ns⟩, hd⟩ := Option.isSome_iff_exists.1 hs
  refine ⟨ns, ?_⟩
  cases hc : ch.fault with
  | none => simp [machine, perform, Choice.write, hc, hd]
  | lostBefore => exact absurd hc hf
  | lostAfter => simp [machine, perform, Choice.write, hc, hd]

theorem perform_not_commits {ch : Choice} {ss : List Statement} (h : ¬ Commits ch ss db) :
    machine.perform ch (.batch ss) db = (.error .store, db) := by
  cases hr : runBatch ss db with
  | none =>
    cases hc : ch.fault <;> simp [machine, perform, Choice.write, hr, hc]
  | some d =>
    cases hc : ch.fault with
    | lostBefore => simp [machine, perform, Choice.write, hr, hc]
    | none => exact absurd ⟨by simp [hc], by simp [hr]⟩ h
    | lostAfter => exact absurd ⟨by simp [hc], by simp [hr]⟩ h

end QuantproCollector.ResearchWorkflow
