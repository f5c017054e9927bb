import QuantproCollector.ResearchWorkflow.Terminality

/-!
# Fencing by owner and generation

A caller proves that it holds a job's lease by naming the lease's owner and `claim_count`, its
generation. Two things are asked of this fence, and both hold only under a condition.

* *Only the holder removes a live lease* (`lease_kept_iff`). The formal and the deferral batch repeat
  the fence in every statement, and a claim takes over expired leases only. The synthetic batch
  deletes the job's lease by job id alone, so it removes whatever lease the job has by then. The
  lease stays exactly when the caller's next call is not a synthetic batch that commits.
* *A generation belongs to one lease* (`generations_fence`). `claim_count` lives on the lease row. As
  long as the row is taken over in place, the count grows; but a release deletes the row, and the
  next claim starts again at 1. `released` collects the leases that the job had before a release.
  A run in which no owner is issued a generation again that it held before a release, and in which
  no synthetic batch runs beside a lease other than the presented one, keeps generations unique, and
  accepts nothing under a lease other than the presented one. The argument is `LeaseInv`: an earlier
  lease of a job was released, or is the current one, or has a smaller count than the current one.
-/

namespace QuantproCollector.ResearchWorkflow

open Relational Async

variable {P : Platform} {req : Request}

/-! ## Removal of a live lease -/

/-- The caller's clock. -/
def Request.now : Request → String
  | .claim input => input.now
  | .submit input => input.now
  | .defer input => input.now

/-- The next call of the thread is a synthetic acceptance for the job, and its batch commits. -/
def ReleasesUnfenced (c : Run) (e : ℕ × Choice) (jobId : String) : Prop :=
  ∃ row event next, c.script e.1 = .call (.batch (syntheticBatch row event)) next ∧
    row.jobId = jobId ∧ Commits e.2 (syntheticBatch row event) c.world

/-- A live lease that the caller does not present survives the caller's call, unless the call is a
synthetic batch. -/
theorem lease_kept_call {k : Call Op Db Choice} {l : LeaseRow} {db' : Db}
    (h : Effect P k req db') (hl : k.before.lease? l.jobId = some l)
    (hlive : ∀ now, P.isoOfText req.now = some now → now < l.leaseExpiresAt)
    (hother : ∀ q, req.presented = some q → ¬ q.Names l) :
    db'.lease? l.jobId = some l ∨ ∃ row event, k.op = .batch (syntheticBatch row event) ∧
      row.jobId = l.jobId ∧ Commits k.choice (syntheticBatch row event) k.before := by
  obtain ⟨hmem, -⟩ := mem_of_lease? hl
  have keep : ∀ {f : Fence}, ¬ f.Admits l →
      l ∈ k.before.leases.deleteWhere fun l => decide (f.Admits l) := fun hadm =>
    Table.mem_deleteWhere.2 ⟨hmem, decide_eq_false hadm⟩
  cases h with
  | quiet es => exact .inl hl
  | @taken input now _ _ _ _ _ ls es hop hnow ht =>
    refine .inl (lease?_eq_some.2 ⟨(ht.mem l).2 (.inr ⟨hmem, fun hj => ?_⟩), rfl⟩)
    rcases ht.count with ⟨hfree, -⟩ | ⟨x, hx, hxj, hexp, -⟩
    · exact hfree l hmem hj
    · rw [lease_unique hx hmem (hxj.trans hj.symm)] at hexp
      exact absurd (hlive now hnow) (String.not_lt.2 hexp)
  | rejected es hrow hps => exact .inl hl
  | @completed input r _ f _ _ es hr hf hfence hps hts =>
    refine .inl (lease?_eq_some.2 ⟨keep fun hadm => ?_, rfl⟩)
    subst hf
    rw [hr.jobId, hr.callerPrincipal] at hadm
    exact hother _ rfl ((admits_iff (q := ⟨_, _, _, input.now⟩) l hr.generation hr.now).1 hadm).2.1
  | @synthesized input r origin proposalId event _ es hr ho hop hc hps =>
    by_cases hj : r.jobId = l.jobId
    · exact .inr ⟨_, event, hop, hj, hc⟩
    · exact .inl (lease?_eq_some.2
        ⟨Table.mem_deleteWhere.2 ⟨hmem, decide_eq_false fun h => hj h.symm⟩, rfl⟩)
  | @deferred input _ _ f _ hg hnow hrow hf hfence hds =>
    refine .inl (lease?_eq_some.2 ⟨keep fun hadm => ?_, rfl⟩)
    subst hf
    exact hother _ rfl ((admits_iff (q := ⟨_, _, _, input.now⟩) l hg hnow).1 hadm).2.1

/-- A synthetic batch that commits leaves its job without a lease. -/
theorem lease?_of_synthetic {ch : Choice} {row : ProposalRow} {event : EventRow} {db : Db}
    (hc : Commits ch (syntheticBatch row event) db) :
    (machine.perform ch (.batch (syntheticBatch row event)) db).2.lease? row.jobId = none := by
  obtain ⟨ns, h⟩ := perform_commits hc
  obtain ⟨ps, es, -, heq⟩ := runBatch_synthetic h
  rw [heq, lease?_eq_none]
  intro x hx
  simpa using (Table.mem_deleteWhere.1 hx).2

/-- **A live lease is removed only by its holder, or by a synthetic batch.** In every reachable
state, for every lease that the caller of the next step finds unexpired and does not present: the
step leaves the job's lease row as it is exactly when it is not the commit of a synthetic
acceptance for the job. -/
theorem lease_kept_iff (P : Platform) (records : List JobRecord) (requests : ℕ → Request)
    (es : List (ℕ × Choice)) (e : ℕ × Choice) (l : LeaseRow)
    (hl : (machine.exec (start P records requests) es).world.lease? l.jobId = some l)
    (hlive : ∀ now, P.isoOfText (requests e.1).now = some now → now < l.leaseExpiresAt)
    (hother : ∀ q, (requests e.1).presented = some q → ¬ q.Names l) :
    (machine.step (machine.exec (start P records requests) es) e).world.lease? l.jobId = some l ↔
      ¬ ReleasesUnfenced (machine.exec (start P records requests) es) e l.jobId := by
  have hI := queueInv_run P records requests es
  have hS := Machine.issued_exec (M := machine) (issued_start P records requests) es
  generalize machine.exec (start P records requests) es = c at *
  constructor
  · rintro hkept ⟨row, event, next, hcall, hj, hc⟩
    have hnone := lease?_of_synthetic hc
    rw [Machine.step_call hcall] at hkept
    rw [← hj] at hkept
    exact absurd (hkept.symm.trans hnone) (by simp)
  · intro hnot
    rcases Machine.step_cases (M := machine) c e with hs | ⟨op, next, hcall, hs⟩
    · rwa [hs]
    · have heff := call_effect (k := ⟨e.1, op, e.2, c.world⟩) hI (Machine.issued_next hS hcall)
      rcases lease_kept_call heff hl hlive hother with hkept | ⟨row, event, rfl, hj, hc⟩
      · rw [hs]
        exact hkept
      · exact absurd ⟨row, event, next, hcall, hj, hc⟩ hnot

/-! ### A concrete queue -/

def exampleProposal : Json :=
  .obj [("job_id", .str "job-1"), ("summary", .str "s"), ("findings", .arr []),
    ("recommendation_hint", .str "NONE"), ("sources_consulted", .arr []),
    ("completed_at", .str "2026-10-01T00:00:00.000Z")]

/-- The platform on the texts that the examples hand it: the digests of `exampleProposal` and of the
deferral in `reusedRequests`, canonical dates, and the lease expiries of the claims. -/
def examplePlatform : Platform where
  sha256Hex text :=
    if text = exampleProposal.canonicalText then
      "8d80594f306effcb902d4f0c767645d719e34182c7a66b4f628c33b48b3ba96a"
    else "0dabd4c6d8a114e02c7cb1003ac54297aeb9ecf5ef4c9410fe8cfc6403611947"
  isoOfText := some
  addSeconds now _ :=
    if now = "2026-10-01T00:00:00.000Z" then some "2026-10-01T01:00:00.000Z"
    else if now = "2026-10-01T01:00:00.000Z" then some "2026-10-01T02:00:00.000Z"
    else some "2026-10-02T01:00:00.000Z"
  numberOfText _ := none

/-- The `i`-th drawn identifier of a run. -/
def exampleHex (i : ℕ) : String :=
  String.ofList (List.replicate 30 '0' ++ [Json.hexDigit (i / 16), Json.hexDigit (i % 16)])

/-- The thread `t` takes `n` steps without a fault; its draws are numbered from `i`. -/
def turns (t n i : ℕ) : List (ℕ × Choice) :=
  (List.range n).map fun j => (t, ⟨.none, exampleHex (i + j)⟩)

/-- A synthetic owner's submission, overtaken by the next claim of the job. -/
def overtakenRequests : ℕ → Request
  | 0 => .claim ⟨"job-1", "synthetic-a", "r0", "2026-10-01T00:00:00.000Z"⟩
  | 1 => .submit ⟨"job-1", 1, "submit-key-1", some "SYNTHETIC", exampleProposal, "synthetic-a",
      "r1", "2026-10-01T00:30:00.000Z"⟩
  | _ => .claim ⟨"job-1", "synthetic-b", "r2", "2026-10-01T01:00:00.000Z"⟩

/-- The submission has read its lease and is about to write when the job is claimed anew. -/
def overtakenSchedule : List (ℕ × Choice) :=
  turns 0 8 0 ++ turns 1 4 8 ++ turns 2 8 12

/-- The lease of the second claim. -/
def overtakingLease : LeaseRow :=
  ⟨"job-1", "synthetic-b", "clt_" ++ exampleHex 15, "2026-10-01T01:00:00.000Z",
    "2026-10-01T02:00:00.000Z", 2⟩

/-- An overtaken synthetic submission removes the live lease of another owner. -/
theorem live_lease_removed :
    ¬ ∀ (P : Platform) (records : List JobRecord) (requests : ℕ → Request)
      (es : List (ℕ × Choice)) (e : ℕ × Choice) (l : LeaseRow),
      (machine.exec (start P records requests) es).world.lease? l.jobId = some l →
      (∀ now, P.isoOfText (requests e.1).now = some now → now < l.leaseExpiresAt) →
      (∀ q, (requests e.1).presented = some q → ¬ q.Names l) →
      (machine.step (machine.exec (start P records requests) es) e).world.lease? l.jobId =
        some l := by
  intro h
  have hrun :
      (machine.exec (start examplePlatform [⟨"job-1", true⟩] overtakenRequests)
        overtakenSchedule).world.lease? overtakingLease.jobId = some overtakingLease ∧
      (machine.step (machine.exec (start examplePlatform [⟨"job-1", true⟩] overtakenRequests)
        overtakenSchedule) (1, ⟨.none, exampleHex 0⟩)).world.lease? overtakingLease.jobId ≠
          some overtakingLease := by
    decide +kernel
  exact hrun.2 (h examplePlatform [⟨"job-1", true⟩] overtakenRequests overtakenSchedule
    (1, ⟨.none, exampleHex 0⟩) overtakingLease hrun.1
    (by rintro now ⟨⟩; decide) (by rintro q ⟨⟩; decide))

/-- While the submission is still reading, the other owner's lease stays. -/
theorem lease_kept_while_reading :
    (machine.step (machine.exec (start examplePlatform [⟨"job-1", true⟩] overtakenRequests)
        (turns 0 8 0 ++ turns 1 1 8 ++ turns 2 8 12)) (1, ⟨.none, exampleHex 0⟩)).world.lease?
        overtakingLease.jobId = some overtakingLease ↔
      ¬ ReleasesUnfenced (machine.exec (start examplePlatform [⟨"job-1", true⟩] overtakenRequests)
        (turns 0 8 0 ++ turns 1 1 8 ++ turns 2 8 12)) (1, ⟨.none, exampleHex 0⟩)
        overtakingLease.jobId :=
  lease_kept_iff examplePlatform [⟨"job-1", true⟩] overtakenRequests _ _ overtakingLease
    (by decide) (by rintro now ⟨⟩; decide) (by rintro q ⟨⟩; decide)

/-! ## Generations -/

/-- The leases that the jobs have had, in the states that the calls left. -/
def seen : List (Call Op Db Choice) → List LeaseRow
  | [] => []
  | k :: log => (machine.after k).leases.rows ++ seen log

/-- The leases that a job had before a call that deleted the job's lease row. -/
def released : List (Call Op Db Choice) → List LeaseRow
  | [] => []
  | k :: log => (seen log).filter (fun l => (k.before.lease? l.jobId).isSome &&
      ((machine.after k).lease? l.jobId).isNone) ++ released log

/-- The lease that a claim batch tries to take. -/
def claimOf : Op → Option LeaseRow
  | .batch [.insertExpiredEvent _ _ _ _, .preempt l, .insertClaimedEvent _ _ _ _ _ _] => some l
  | _ => none

/-- The row that a synthetic acceptance stores. -/
def syntheticOf : Op → Option ProposalRow
  | .batch [.insertProposal row, .deleteLease _, .insertEvent _] => some row
  | _ => none

/-- The claim of `l` finds its job open, and without a lease or with an expired one. -/
def WouldTake (db : Db) (l : LeaseRow) : Prop :=
  db.isTerminal l.jobId = false ∧ db.isDeferred l.jobId l.claimedAt = false ∧
    ((db.lease? l.jobId).all fun x => decide (x.leaseExpiresAt ≤ l.claimedAt)) = true

instance (db : Db) (l : LeaseRow) : Decidable (WouldTake db l) :=
  inferInstanceAs (Decidable (_ ∧ _ ∧ _))

/-- The generation that the next claim of the job issues. -/
def nextGeneration (db : Db) (jobId : String) : ℕ :=
  ((db.lease? jobId).map LeaseRow.claimCount).getD 0 + 1

/-- A claim that takes the job issues no generation that the same owner held before a release. -/
def ClaimsFresh (past : List (Call Op Db Choice)) (k : Call Op Db Choice) : Prop :=
  ∀ l ∈ claimOf k.op, WouldTake k.before l → ∀ x ∈ released past, x.jobId = l.jobId →
    x.leaseOwner = l.leaseOwner → x.claimCount ≠ nextGeneration k.before l.jobId

instance (past : List (Call Op Db Choice)) (k : Call Op Db Choice) :
    Decidable (ClaimsFresh past k) :=
  inferInstanceAs (Decidable (∀ l ∈ claimOf k.op, _))

/-- A synthetic batch runs while the job's lease, if it has one, is the presented one. -/
def SynthesizesFenced (requests : ℕ → Request) (k : Call Op Db Choice) : Prop :=
  ∀ row ∈ syntheticOf k.op, ∀ q ∈ (requests k.thread).presented,
    ∀ x ∈ k.before.lease? row.jobId, q.Names x

instance (requests : ℕ → Request) (k : Call Op Db Choice) :
    Decidable (SynthesizesFenced requests k) :=
  inferInstanceAs (Decidable (∀ row ∈ syntheticOf k.op, _))

/-- No two leases of a job share owner and generation. -/
def GenerationsUnique (log : List (Call Op Db Choice)) : Prop :=
  ∀ l ∈ seen log, ∀ l' ∈ seen log, l.jobId = l'.jobId → l.leaseOwner = l'.leaseOwner →
    l.claimCount = l'.claimCount → l.claimToken = l'.claimToken

instance (log : List (Call Op Db Choice)) : Decidable (GenerationsUnique log) :=
  inferInstanceAs (Decidable (∀ l ∈ seen log, _))

/-- The call stores an accepted result or a deferral. -/
def Accepts (k : Call Op Db Choice) : Prop :=
  (∃ p ∈ (machine.after k).proposals.rows, ¬ p ∈ k.before.proposals.rows ∧ p.status = .RECEIVED) ∨
    ∃ d ∈ (machine.after k).deferrals.rows, ¬ d ∈ k.before.deferrals.rows

instance (k : Call Op Db Choice) : Decidable (Accepts k) :=
  inferInstanceAs (Decidable (_ ∨ _))

/-- What the call accepts, it accepts under no other lease than an earlier one that has the
presented owner and generation. -/
def AcceptsUnderOwn (requests : ℕ → Request) (past : List (Call Op Db Choice))
    (k : Call Op Db Choice) : Prop :=
  Accepts k → ∀ q ∈ (requests k.thread).presented, ∀ l ∈ seen past, l.jobId = q.jobId →
    q.Names l → ∀ x ∈ k.before.lease? q.jobId, x.claimToken = l.claimToken

instance (requests : ℕ → Request) (past : List (Call Op Db Choice)) (k : Call Op Db Choice) :
    Decidable (AcceptsUnderOwn requests past k) :=
  inferInstanceAs (Decidable (_ → _))

/-- An earlier lease of a job was released, is the job's lease, or has a smaller generation. -/
structure LeaseInv (log : List (Call Op Db Choice)) (db : Db) : Prop where
  current : ∀ x ∈ db.leases, x ∈ seen log
  earlier : ∀ l ∈ seen log, l ∈ released log ∨
    ∃ x ∈ db.leases, x.jobId = l.jobId ∧ (l = x ∨ l.claimCount < x.claimCount)
  unique : GenerationsUnique log

section Step

variable {log : List (Call Op Db Choice)} {k : Call Op Db Choice}

theorem wouldTake_of_takes {db : Db} {l : LeaseRow} {ls : Table LeaseRow String leaseIndexes}
    (ht : Takes db l ls) : WouldTake db l ∧ l.claimCount = nextGeneration db l.jobId := by
  rcases ht.count with ⟨hfree, hone⟩ | ⟨x, hx, hxj, hexp, hsucc⟩
  · have hnone : db.lease? l.jobId = none := lease?_eq_none.2 hfree
    refine ⟨⟨isTerminal_eq_false.2 ht.notTerminal, ht.notDeferred, ?_⟩, ?_⟩
    · simp [hnone]
    · simp [nextGeneration, hnone, hone]
  · have hsome : db.lease? l.jobId = some x := lease?_eq_some.2 ⟨hx, hxj⟩
    refine ⟨⟨isTerminal_eq_false.2 ht.notTerminal, ht.notDeferred, ?_⟩, ?_⟩
    · simp [hsome, hexp]
    · simp [nextGeneration, hsome, hsucc]

/-- Releasing leases keeps the invariant. -/
theorem leaseInv_delete (hI : LeaseInv log k.before) {p : LeaseRow → Bool}
    (h : (machine.after k).leases = k.before.leases.deleteWhere p) :
    LeaseInv (k :: log) (machine.after k) := by
  have hsub : ∀ x ∈ (machine.after k).leases, x ∈ k.before.leases := by
    rw [h]
    exact fun x hx => (Table.mem_deleteWhere.1 hx).1
  have hseen : ∀ l ∈ seen (k :: log), l ∈ seen log := by
    intro l hl
    rcases List.mem_append.1 hl with hl | hl
    · exact hI.current l (hsub l hl)
    · exact hl
  refine ⟨fun x hx => List.mem_append_left _ hx, fun l hl => ?_,
    fun l hl l' hl' => hI.unique l (hseen l hl) l' (hseen l' hl')⟩
  rcases hI.earlier l (hseen l hl) with hrel | ⟨x, hx, hxj, hcount⟩
  · exact .inl (List.mem_append_right _ hrel)
  · by_cases hp : p x = true
    · -- the job's row is deleted, and with it everything the job has had
      refine .inl (List.mem_append_left _ (List.mem_filter.2 ⟨hseen l hl, ?_⟩))
      have hbefore : k.before.lease? l.jobId = some x := lease?_eq_some.2 ⟨hx, hxj⟩
      have hafter : (machine.after k).lease? l.jobId = none := by
        refine lease?_eq_none.2 fun y hy hyj => ?_
        rw [lease_unique (hsub y hy) hx (hyj.trans hxj.symm), h] at hy
        simp [hp] at hy
      simp [hbefore, hafter]
    · refine .inr ⟨x, ?_, hxj, hcount⟩
      rw [h]
      exact Table.mem_deleteWhere.2 ⟨hx, by simpa using hp⟩

/-- A call that leaves the leases alone keeps the invariant. -/
theorem leaseInv_same (hI : LeaseInv log k.before)
    (h : (machine.after k).leases = k.before.leases) : LeaseInv (k :: log) (machine.after k) :=
  leaseInv_delete (p := fun _ => false) hI
    (h.trans (Table.deleteWhere_eq_self fun _ _ => rfl).symm)

/-- A claim that takes the job with a fresh generation keeps the invariant. -/
theorem leaseInv_take (hI : LeaseInv log k.before) {l : LeaseRow}
    (ht : Takes k.before l (machine.after k).leases)
    (hfresh : ∀ x ∈ released log, x.jobId = l.jobId → x.leaseOwner = l.leaseOwner →
      x.claimCount ≠ l.claimCount) : LeaseInv (k :: log) (machine.after k) := by
  have hmem : l ∈ (machine.after k).leases := (ht.mem l).2 (.inl rfl)
  have hseen : ∀ y ∈ seen (k :: log), y = l ∨ y ∈ seen log := by
    intro y hy
    rcases List.mem_append.1 hy with hy | hy
    · rcases (ht.mem y).1 hy with rfl | ⟨hy, -⟩
      · exact .inl rfl
      · exact .inr (hI.current y hy)
    · exact .inr hy
  -- an earlier lease of the job was released or has a smaller generation than the one it gets now
  have hearlier : ∀ y ∈ seen log, y.jobId = l.jobId →
      y ∈ released log ∨ y.claimCount < l.claimCount := by
    intro y hy hyj
    rcases hI.earlier y hy with hrel | ⟨x, hx, hxj, hcount⟩
    · exact .inl hrel
    · rcases ht.count with ⟨hfree, -⟩ | ⟨z, hz, hzj, -, hsucc⟩
      · exact absurd (hxj.trans hyj) (hfree x hx)
      · have hxz : x = z := lease_unique hx hz ((hxj.trans hyj).trans hzj.symm)
        subst hxz
        refine .inr ?_
        rcases hcount with rfl | hlt <;> omega
  have hclash : ∀ y ∈ seen log, y.jobId = l.jobId → y.leaseOwner = l.leaseOwner →
      y.claimCount ≠ l.claimCount := by
    intro y hy hyj hyo
    rcases hearlier y hy hyj with hrel | hlt
    · exact hfresh y hrel hyj hyo
    · exact Nat.ne_of_lt hlt
  refine ⟨fun x hx => List.mem_append_left _ hx, fun y hy => ?_, fun y hy y' hy' hj ho hc => ?_⟩
  · rcases hseen y hy with rfl | hy
    · exact .inr ⟨y, hmem, rfl, .inl rfl⟩
    · by_cases hyj : y.jobId = l.jobId
      · rcases hearlier y hy hyj with hrel | hlt
        · exact .inl (List.mem_append_right _ hrel)
        · exact .inr ⟨l, hmem, hyj.symm, .inr hlt⟩
      · rcases hI.earlier y hy with hrel | ⟨x, hx, hxj, hcount⟩
        · exact .inl (List.mem_append_right _ hrel)
        · exact .inr ⟨x, (ht.mem x).2 (.inr ⟨hx, fun h => hyj (hxj.symm.trans h)⟩), hxj, hcount⟩
  · rcases hseen y hy with rfl | hy <;> rcases hseen y' hy' with rfl | hy'
    · rfl
    · exact absurd hc.symm (hclash y' hy' hj.symm ho.symm)
    · exact absurd hc (hclash y hy hj ho)
    · exact hI.unique y hy y' hy' hj ho hc

/-- **Step lemma.** -/
theorem leaseInv_call (hI : LeaseInv log k.before) (h : Effect P k req (machine.after k))
    (hfresh : ClaimsFresh log k) : LeaseInv (k :: log) (machine.after k) := by
  generalize hafter : machine.after k = db' at h
  rw [← hafter]
  cases h with
  | quiet es => exact leaseInv_same hI (by rw [hafter])
  | @taken input now expiresAt token eventId expiredId count ls es hop hnow ht =>
    have hls : (machine.after k).leases = ls := by rw [hafter]
    refine leaseInv_take hI (hls ▸ ht) ?_
    obtain ⟨hwould, hcount⟩ := wouldTake_of_takes ht
    have hclaim : claimOf k.op = some (claimedLease input now expiresAt token) := by
      rw [hop]
      rfl
    intro x hx hxj hxo
    rw [hcount]
    exact hfresh _ hclaim hwould x hx hxj hxo
  | rejected es hrow hps => exact leaseInv_same hI (by rw [hafter])
  | completed es hr hf hfence hps hts => exact leaseInv_delete hI (by rw [hafter])
  | synthesized es hr ho hop hc hps => exact leaseInv_delete hI (by rw [hafter])
  | deferred hg hnow hrow hf hfence hds => exact leaseInv_delete hI (by rw [hafter])

/-- With unique generations, and a fence or `SynthesizesFenced` at hand, what is accepted is
accepted under the presented lease. -/
theorem acceptsUnderOwn_call {requests : ℕ → Request} (hI : LeaseInv log k.before)
    (h : Effect P k (requests k.thread) (machine.after k))
    (hfenced : SynthesizesFenced requests k) : AcceptsUnderOwn requests log k := by
  intro hacc q hq l hl hlj hlq x hx
  obtain ⟨hxmem, hxj⟩ := mem_of_lease? hx
  -- it is enough that the job's lease has the presented owner and generation
  suffices hxq : q.Names x by
    refine hI.unique x (hI.current x hxmem) l hl (hxj.trans hlj.symm)
      (hxq.1.trans hlq.1.symm) ?_
    exact_mod_cast hxq.2.trans hlq.2.symm
  have hadm : ∀ {f : Fence}, k.before.fenceHolds f = true → f.jobId = q.jobId → f.Admits x := by
    intro f hf hj
    obtain ⟨y, hy, hyadm⟩ := lease_of_fenceHolds hf
    rw [hj] at hy
    rwa [Option.some.inj (hx.symm.trans hy)]
  generalize hafter : machine.after k = db' at h
  generalize hreq : requests k.thread = req at h hq
  cases h with
  | quiet es => rcases hacc with ⟨p, hp, hnew, -⟩ | ⟨d, hd, hnew⟩ <;> simp_all
  | taken es hop hnow ht => rcases hacc with ⟨p, hp, hnew, -⟩ | ⟨d, hd, hnew⟩ <;> simp_all
  | rejected es hrow hps =>
    rw [Accepts, hafter] at hacc
    rcases hacc with ⟨p, hp, hnew, hstatus⟩ | ⟨d, hd, hnew⟩
    · rcases (Table.mem_insert? hps).1 hp with hp | rfl
      · exact absurd hp hnew
      · exact absurd hstatus (by simp [hrow])
    · exact absurd hd hnew
  | @completed input r proposalId f ps ts es hr hf hfence hps hts =>
    cases hq
    have hf' := hadm hfence (by rw [hf]; exact hr.jobId)
    subst hf
    rw [hr.jobId, hr.callerPrincipal] at hf'
    exact ((admits_iff (q := ⟨_, _, _, input.now⟩) x hr.generation hr.now).1 hf').2.1
  | @synthesized input r origin proposalId event ps es hr ho hop hc hps =>
    cases hq
    have hsyn : syntheticOf k.op = some (r.row proposalId origin .RECEIVED none) := by
      rw [hop]
      rfl
    refine hfenced _ hsyn _ (by rw [hreq]; rfl) x ?_
    exact (congrArg k.before.lease? hr.jobId).trans hx
  | @deferred input row now f ds hg hnow hrow hf hfence hds =>
    cases hq
    have hf' := hadm hfence (by rw [hf])
    subst hf
    exact ((admits_iff (q := ⟨_, _, _, input.now⟩) x hg hnow).1 hf').2.1

end Step

/-- **Generations fence.** In every run whose claims issue no generation again that their owner held
before a release, and whose synthetic batches run beside no other lease than the presented one, no
two leases of a job share owner and generation, and nothing is accepted under a later lease than
the presented one. -/
theorem generations_fence (P : Platform) (records : List JobRecord) (requests : ℕ → Request)
    (es : List (ℕ × Choice))
    (hcond : Along (fun past k => ClaimsFresh past k ∧ SynthesizesFenced requests k)
      (machine.exec (start P records requests) es).log) :
    GenerationsUnique (machine.exec (start P records requests) es).log ∧
      Along (AcceptsUnderOwn requests) (machine.exec (start P records requests) es).log := by
  suffices h : LeaseInv (machine.exec (start P records requests) es).log
      (machine.exec (start P records requests) es).world ∧
        Along (AcceptsUnderOwn requests) (machine.exec (start P records requests) es).log from
    ⟨h.1.unique, h.2⟩
  revert hcond
  refine (Machine.exec_induction (M := machine) (P := fun c : Run =>
    Machine.Issued (fun t => MayIssue P (requests t)) c ∧ QueueInv c.world ∧
      (Along (fun past k => ClaimsFresh past k ∧ SynthesizesFenced requests k) c.log →
        LeaseInv c.log c.world ∧ Along (AcceptsUnderOwn requests) c.log)) ?_ es
    ⟨issued_start P records requests, queueInv_initial records, fun _ => ⟨⟨?_, ?_, ?_⟩, .nil⟩⟩).2.2
  · rintro c e ⟨hS, hI, hrun⟩
    rcases Machine.step_cases (M := machine) c e with hs | ⟨op, next, hcall, hs⟩
    · rw [hs]
      exact ⟨hS, hI, hrun⟩
    · have heff := call_effect (k := ⟨e.1, op, e.2, c.world⟩) hI (Machine.issued_next hS hcall)
      refine ⟨Machine.issued_step hS e, ?_, ?_⟩
      · rw [hs]
        exact queueInv_effect (k := ⟨e.1, op, e.2, c.world⟩) hI heff
      · rw [hs]
        intro hcond
        obtain ⟨⟨hfresh, hfenced⟩, hpast⟩ := along_cons.1 hcond
        obtain ⟨hL, hA⟩ := hrun hpast
        exact ⟨leaseInv_call hL heff hfresh, .cons (acceptsUnderOwn_call hL heff hfenced) hA⟩
  · exact fun x hx => absurd hx (Table.not_mem_empty x)
  · exact fun l hl => absurd hl List.not_mem_nil
  · exact fun l hl => absurd hl List.not_mem_nil

def exampleOwner : String :=
  "oauth-client:0123456789abcdef0123456789abcdef0123456789abcdef0123456789abcdef"

/-- One owner claims a job, defers it, claims it again, and then submits with the generation of its
first lease. -/
def reusedRequests : ℕ → Request
  | 0 => .claim ⟨"job-1", exampleOwner, "r0", "2026-10-01T00:00:00.000Z"⟩
  | 1 => .defer ⟨"job-1", 1, "defer-key-1", some .RECHECK_REQUIRED, "2026-10-01T12:00:00.000Z",
      exampleOwner, "r1", "2026-10-01T00:10:00.000Z"⟩
  | 2 => .claim ⟨"job-1", exampleOwner, "r2", "2026-10-02T00:00:00.000Z"⟩
  | _ => .submit ⟨"job-1", 1, "submit-key-1", some "CHATGPT", exampleProposal, exampleOwner, "r3",
      "2026-10-02T00:01:00.000Z"⟩

def reusedSchedule : List (ℕ × Choice) :=
  turns 0 8 0 ++ turns 1 3 8 ++ turns 2 8 11 ++ turns 3 10 19

/-- A deferral deletes the lease row, so the same owner's next lease has its first generation again,
and a submission of the first lease is accepted under the second. -/
theorem generations_reused :
    (¬ ∀ (P : Platform) (records : List JobRecord) (requests : ℕ → Request)
      (es : List (ℕ × Choice)),
      GenerationsUnique (machine.exec (start P records requests) es).log) ∧
    ¬ ∀ (P : Platform) (records : List JobRecord) (requests : ℕ → Request)
      (es : List (ℕ × Choice)),
      Along (AcceptsUnderOwn requests) (machine.exec (start P records requests) es).log := by
  have hrun :
      ¬ GenerationsUnique (machine.exec (start examplePlatform [⟨"job-1", true⟩] reusedRequests)
        reusedSchedule).log ∧
      ¬ Along (AcceptsUnderOwn reusedRequests)
        (machine.exec (start examplePlatform [⟨"job-1", true⟩] reusedRequests)
          reusedSchedule).log := by
    decide +kernel
  exact ⟨fun h => hrun.1 (h _ _ _ _), fun h => hrun.2 (h _ _ _ _)⟩

/-- Before the second claim, generations still fence. -/
theorem generations_fence_first_lease :
    GenerationsUnique (machine.exec (start examplePlatform [⟨"job-1", true⟩] reusedRequests)
        (turns 0 8 0 ++ turns 1 3 8)).log ∧
      Along (AcceptsUnderOwn reusedRequests)
        (machine.exec (start examplePlatform [⟨"job-1", true⟩] reusedRequests)
          (turns 0 8 0 ++ turns 1 3 8)).log :=
  generations_fence examplePlatform [⟨"job-1", true⟩] reusedRequests _ (by decide)

end QuantproCollector.ResearchWorkflow
