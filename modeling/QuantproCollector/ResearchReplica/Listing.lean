import QuantproCollector.ResearchReplica.Adapter
import QuantproCollector.ResearchWorkflow.Claiming
import Mathlib.Data.List.DropRight

/-!
# The listing of jobs

The listing reads the newest PUBLIC job rows up to its limit and only then leaves out those that are not
queued. So a claimable job can stay out of it: `claimableListed_iff` says exactly when none does.

The listing derives the state of a job from its terminal row and its lease, and the claim path also from
its deferral. Both read one database (`ResearchDatabase`): `listingAgrees_iff` says exactly when the two
derivations agree.
-/

namespace List

variable {α : Type} {p : α → Bool} {l : List α} {n : ℕ}

/-- A window holds an element with the property where fewer elements than it holds precede the first. -/
theorem exists_mem_take_iff :
    (∃ x ∈ l.take n, p x = true) ↔
      (∃ x ∈ l, p x = true) ∧ (l.takeWhile fun x => !p x).length < n := by
  induction l generalizing n with
  | nil => simp
  | cons a l ih =>
    cases n with
    | zero => simp
    | succ n =>
      cases ha : p a with
      | true => simp [ha]
      | false => simp [ha, ih]

/-- A window holds every element with the property where it reaches the last of them. -/
theorem forall_mem_drop_iff :
    (∀ x ∈ l.drop n, p x = false) ↔ (l.rdropWhile fun x => !p x).length ≤ n := by
  induction l using List.reverseRecOn with
  | nil => simp
  | append_singleton l a ih =>
    cases ha : p a with
    | true =>
      rw [List.rdropWhile_concat_neg _ _ _ (by simp [ha])]
      constructor
      · intro h
        by_contra hn
        have hmem : a ∈ (l ++ [a]).drop n := by
          rw [List.drop_append_of_le_length (by simp at hn; omega)]
          simp
        rw [h a hmem] at ha
        cases ha
      · intro h x hx
        rw [List.drop_eq_nil_of_le h] at hx
        cases hx
    | false =>
      rw [List.rdropWhile_concat_pos _ _ _ (by simp [ha]), ← ih, List.drop_append]
      constructor
      · intro h x hx
        exact h x (List.mem_append_left _ hx)
      · intro h x hx
        rcases List.mem_append.1 hx with hx | hx
        · exact h x hx
        · rw [List.mem_singleton.1 (List.mem_of_mem_drop hx)]
          exact ha

end List

namespace QuantproCollector.ResearchReplica

open SemanticIndex Relational Async

/-! ## The window of the listing -/

section Window

variable (w : ReplicaWorld) (now : String) (limit : Option Decimal)

/-- The PUBLIC job rows in the order in which the listing reads them. -/
def queueOrder : List ReplicaRecordRow :=
  (w.replica.records.rows.filter (isPublicOf "job")).insertionSort fun a b => b.updated_at ≤ a.updated_at

/-- The listing shows the job as queued. -/
def isQueued (row : ReplicaRecordRow) : Bool :=
  decide ((jobServerState w.jobs now row.record_key).effective_status = .QUEUED)

/-- The number of rows that a caller asks for. -/
def requestedRows : ℕ :=
  (limit.map fun x => x.toInt.toNat).getD 50

/-- The claimable listing starves no job: it shows a claimable job where there is one, and all of them
where they fit into the limit. -/
def ClaimableListed : Prop :=
  ∃ jobs, listResearchJobs w now limit true = .ok jobs ∧
    ((∃ row ∈ queueOrder w, isQueued w now row = true) → jobs ≠ []) ∧
    ((queueOrder w).countP (isQueued w now) ≤ requestedRows limit →
      ∀ row ∈ queueOrder w, isQueued w now row = true → ∃ job ∈ jobs, job.1 = row)

/-- The claimable jobs stand within reach of the limit. -/
structure WithinReach : Prop where
  accepted : boundedLimit limit = .ok (requestedRows limit)
  objects : ∀ row ∈ (queueOrder w).take (requestedRows limit), ∃ fields, row.payload = .obj fields
  /-- Fewer jobs than the limit precede the newest claimable one. -/
  newest : (∃ row ∈ queueOrder w, isQueued w now row = true) →
    ((queueOrder w).takeWhile fun row => !isQueued w now row).length < requestedRows limit
  /-- Where the claimable jobs fit into the limit, so do all jobs down to the oldest claimable one. -/
  oldest : (queueOrder w).countP (isQueued w now) ≤ requestedRows limit →
    ((queueOrder w).rdropWhile fun row => !isQueued w now row).length ≤ requestedRows limit

end Window

section Window

variable {w : ReplicaWorld} {now : String} {limit : Option Decimal} {n : ℕ}

theorem boundedLimit_eq (h : boundedLimit limit = .ok n) : n = requestedRows limit := by
  unfold boundedLimit at h
  cases limit with
  | none =>
    cases h
    rfl
  | some x =>
    simp only at h
    split_ifs at h
    cases h
    rfl

theorem nodup_queueOrder : (queueOrder w).Nodup := by
  rw [queueOrder, (List.perm_insertionSort _ _).nodup_iff]
  refine List.Nodup.filter _ (List.Pairwise.imp ?_ (w.replica.records.unique _ (List.mem_singleton.2 rfl)))
  intro a b hab heq
  exact hab (by simp) (by rw [heq])

theorem recordView_ok {row : ReplicaRecordRow} {fields : List (String × Json)}
    (h : row.payload = .obj fields) : recordView row = .ok row := by
  unfold recordView
  rw [h]

theorem recordView_error {row : ReplicaRecordRow} (h : ¬ ∃ fields, row.payload = .obj fields) :
    recordView row = .error .INTEGRITY_FAILED := by
  unfold recordView
  split
  · rename_i fields heq
    exact absurd ⟨fields, heq⟩ h
  · rfl

/-- The views of rows are the rows, where each of them carries an object. -/
theorem mapM_recordView {rows views : List ReplicaRecordRow} :
    rows.mapM recordView = .ok views ↔
      views = rows ∧ ∀ row ∈ rows, ∃ fields, row.payload = .obj fields := by
  induction rows generalizing views with
  | nil => simp [pure, Except.pure, eq_comm]
  | cons row rows ih =>
    rw [List.mapM_cons]
    by_cases hobject : ∃ fields, row.payload = .obj fields
    · obtain ⟨fields, hfields⟩ := hobject
      rw [recordView_ok hfields]
      cases hrest : rows.mapM recordView with
      | error e =>
        have hno : ¬ ∀ row ∈ rows, ∃ fields, row.payload = .obj fields := by
          intro hall
          rw [ih.2 ⟨rfl, hall⟩] at hrest
          cases hrest
        simp [bind, Except.bind, hno]
      | ok rest =>
        obtain ⟨rfl, hall⟩ := ih.1 hrest
        simp only [bind, Except.bind, pure, Except.pure, Except.ok.injEq, List.mem_cons,
          forall_eq_or_imp, hfields]
        constructor
        · rintro rfl
          exact ⟨rfl, ⟨fields, rfl⟩, hall⟩
        · rintro ⟨rfl, -⟩
          rfl
    · rw [recordView_error hobject]
      simp [bind, Except.bind, hobject]

theorem records_job (h : boundedLimit limit = .ok n) :
    records w "job" limit = .ok ((queueOrder w).take n) := by
  unfold records
  rw [h]
  rfl

/-- What the listing answers. -/
theorem listResearchJobs_eq_ok {claimableOnly : Bool} {jobs : List (ReplicaRecordRow × JobServerState)} :
    listResearchJobs w now limit claimableOnly = .ok jobs ↔
      boundedLimit limit = .ok (requestedRows limit) ∧
        (∀ row ∈ (queueOrder w).take (requestedRows limit), ∃ fields, row.payload = .obj fields) ∧
        jobs = (((queueOrder w).take (requestedRows limit)).map fun row =>
          (row, jobServerState w.jobs now row.record_key)).filter fun job =>
            !claimableOnly || decide (job.2.effective_status = .QUEUED) := by
  unfold listResearchJobs
  cases hlimit : boundedLimit limit with
  | error e => simp [records, hlimit, bind, Except.bind]
  | ok n =>
    obtain rfl := boundedLimit_eq hlimit
    rw [records_job hlimit]
    simp only [bind, Except.bind, pure, Except.pure]
    cases hviews : ((queueOrder w).take (requestedRows limit)).mapM recordView with
    | error e =>
      have hno : ¬ ∀ row ∈ (queueOrder w).take (requestedRows limit), ∃ fields,
          row.payload = .obj fields := by
        intro hall
        rw [mapM_recordView.2 ⟨rfl, hall⟩] at hviews
        cases hviews
      simp [hno]
    | ok views =>
      obtain ⟨rfl, hall⟩ := mapM_recordView.1 hviews
      simp only [Except.ok.injEq, true_and]
      constructor
      · rintro rfl
        exact ⟨hall, rfl⟩
      · rintro ⟨-, rfl⟩
        rfl

/-- The claimable listing holds the queued jobs of its window. -/
theorem mem_claimable {row : ReplicaRecordRow} {rows : List ReplicaRecordRow} :
    (∃ job ∈ (rows.map fun row => (row, jobServerState w.jobs now row.record_key)).filter fun job =>
        !true || decide (job.2.effective_status = .QUEUED), job.1 = row) ↔
      row ∈ rows ∧ isQueued w now row = true := by
  simp only [List.mem_filter, List.mem_map, Bool.not_true, Bool.false_or, isQueued]
  constructor
  · rintro ⟨job, ⟨⟨row', hrow', rfl⟩, hq⟩, rfl⟩
    exact ⟨hrow', hq⟩
  · rintro ⟨hrow, hq⟩
    exact ⟨_, ⟨⟨row, hrow, rfl⟩, hq⟩, rfl⟩

/-- All claimable jobs lie in the window exactly where none lies behind it. -/
theorem forall_claimable_iff (n : ℕ) :
    (∀ row ∈ queueOrder w, isQueued w now row = true → row ∈ (queueOrder w).take n) ↔
      ∀ row ∈ (queueOrder w).drop n, isQueued w now row = false := by
  have hnodup := nodup_queueOrder (w := w)
  rw [← List.take_append_drop n (queueOrder w)] at hnodup
  constructor
  · intro h row hrow
    by_contra hq
    exact List.disjoint_of_nodup_append hnodup
      (h row (List.mem_of_mem_drop hrow) (by simpa using hq)) hrow
  · intro h row hrow hq
    rw [← List.take_append_drop n (queueOrder w)] at hrow
    rcases List.mem_append.1 hrow with hrow | hrow
    · exact hrow
    · rw [h row hrow] at hq
      cases hq

/-- **The claimable listing.** It starves no claimable job exactly when the claimable jobs stand within
reach of its limit, counted over all PUBLIC jobs. -/
theorem claimableListed_iff (w : ReplicaWorld) (now : String) (limit : Option Decimal) :
    ClaimableListed w now limit ↔ WithinReach w now limit := by
  constructor
  · rintro ⟨jobs, hjobs, hsome, hall⟩
    obtain ⟨haccepted, hobjects, rfl⟩ := listResearchJobs_eq_ok.1 hjobs
    refine ⟨haccepted, hobjects, fun hex => ?_, fun hcount => ?_⟩
    · obtain ⟨job, hjob⟩ := List.exists_mem_of_ne_nil _ (hsome hex)
      obtain ⟨hrow, hq⟩ := mem_claimable.1 ⟨job, hjob, rfl⟩
      exact (List.exists_mem_take_iff.1 ⟨job.1, hrow, hq⟩).2
    · rw [← List.forall_mem_drop_iff, ← forall_claimable_iff]
      intro row hrow hq
      exact (mem_claimable.1 (hall hcount row hrow hq)).1
  · intro h
    refine ⟨_, listResearchJobs_eq_ok.2 ⟨h.accepted, h.objects, rfl⟩, fun hex hnil => ?_, ?_⟩
    · obtain ⟨row, hrow, hq⟩ := List.exists_mem_take_iff.2 ⟨hex, h.newest hex⟩
      obtain ⟨job, hjob, -⟩ := mem_claimable.2 ⟨hrow, hq⟩
      rw [hnil] at hjob
      cases hjob
    · intro hcount row hrow hq
      have hbehind := List.forall_mem_drop_iff.2 (h.oldest hcount)
      exact mem_claimable.2 ⟨(forall_claimable_iff _).2 hbehind row hrow hq, hq⟩

end Window

/-! ### A starved job -/

/-- A PUBLIC job row. -/
def jobRow (jobId updatedAt : String) : ReplicaRecordRow :=
  ⟨"job", jobId, "m-" ++ jobId, .PUBLIC, "collector-outbound-v4", .obj [], none, updatedAt⟩

/-- A replica with two jobs, the newer of them leased. -/
def leasedWorld : ReplicaWorld where
  replica := { Replica.empty with
    records := ⟨[jobRow "job-1" "2026-10-01T00:00:00.000Z", jobRow "job-2" "2026-10-02T00:00:00.000Z"],
      by decide⟩ }
  objects _ := none
  fts := []
  jobs := ⟨[], [⟨"job-2", "research-a", "2026-10-03T01:00:00.000Z"⟩], []⟩

/-- A claimable listing of one job leaves out the claimable job behind a leased one. -/
theorem claimable_starved :
    (∃ row ∈ queueOrder leasedWorld, isQueued leasedWorld "2026-10-03T00:00:00.000Z" row = true) ∧
      ¬ ClaimableListed leasedWorld "2026-10-03T00:00:00.000Z" (some (.ofInt 1)) := by
  refine ⟨by decide, ?_⟩
  rintro ⟨jobs, hjobs, hsome, -⟩
  obtain ⟨-, -, rfl⟩ := listResearchJobs_eq_ok.1 hjobs
  exact hsome (by decide) (by decide)

/-! ## The listing and the claim path -/

/-- The job records of the replica, as the queue reads them. -/
def jobRecords (s : Replica) : List ResearchWorkflow.JobRecord :=
  (s.records.rows.filter fun row => row.record_type = "job").map fun row =>
    ⟨row.record_key, decide (row.visibility = .PUBLIC)⟩

/-- The one database, as the adapter reads it and as the queue does. A terminal row has the one status
that the CHECK of its table admits. -/
structure ResearchDatabase where
  world : ReplicaWorld
  queue : ResearchWorkflow.Db
  records_eq : queue.records = jobRecords world.replica
  terminals_eq : world.jobs.terminals = queue.terminal.rows.map fun r => (r.jobId, "COMPLETED")
  leases_eq : world.jobs.leases =
    queue.leases.rows.map fun l => ⟨l.jobId, l.leaseOwner, l.leaseExpiresAt⟩

/-- The status of the queue that a status of the listing names. -/
def EffectiveStatus.deferStatus : EffectiveStatus → ResearchWorkflow.DeferStatus
  | .QUEUED => .QUEUED
  | .CLAIMED => .CLAIMED
  | .COMPLETED => .COMPLETED

open ResearchWorkflow (machine claimResearchJob deferredCurrentStatus queueStatus ClaimInput ClaimOutcome
  WouldTake)

/-- At `now` the listing agrees with the claim path: a job that it lists as claimable is granted to any
claim that is answered, and the status that it shows is the one that the claim path derives. -/
structure ListingAgrees (P : Platform) (d : ResearchDatabase) (now : String) (limit : Option Decimal) :
    Prop where
  claimable : ∀ jobs, listResearchJobs d.world now limit true = .ok jobs → ∀ job ∈ jobs,
    ∀ input : ClaimInput, input.jobId = job.1.record_key → P.isoOfText input.now = some now →
    ∀ (choices : ℕ → ResearchWorkflow.Choice) (outcome : ClaimOutcome),
      (machine.run 0 choices (claimResearchJob P input) 0 [] d.queue).1 = .ok outcome → outcome.Granted
  status : ∀ claimableOnly jobs, listResearchJobs d.world now limit claimableOnly = .ok jobs →
    ∀ job ∈ jobs, ∀ choices : ℕ → ResearchWorkflow.Choice, (∀ i, (choices i).fault = .none) →
      (machine.run 0 choices (deferredCurrentStatus job.1.record_key now) 0 [] d.queue).1 =
        .ok job.2.effective_status.deferStatus

/-- No open job that the listing reads has an active deferral. -/
def NoneDeferred (d : ResearchDatabase) (now : String) (limit : Option Decimal) : Prop :=
  boundedLimit limit = .ok (requestedRows limit) →
    (∀ row ∈ (queueOrder d.world).take (requestedRows limit), ∃ fields, row.payload = .obj fields) →
    ∀ row ∈ (queueOrder d.world).take (requestedRows limit), d.queue.isTerminal row.record_key = false →
      ((d.queue.lease? row.record_key).all fun l => decide (l.leaseExpiresAt ≤ now)) = true →
      d.queue.isDeferred row.record_key now = false

section Agreement

variable {P : Platform} {d : ResearchDatabase} {now : String} {limit : Option Decimal}

theorem live_eq (lease : Option ResearchWorkflow.LeaseRow) :
    (lease.any fun l => decide (now < l.leaseExpiresAt)) =
      !(lease.all fun l => decide (l.leaseExpiresAt ≤ now)) := by
  cases lease with
  | none => rfl
  | some l =>
    rw [Option.any_some, Option.all_some, Bool.eq_iff_iff]
    simp

/-- The listing derives a status from the terminal row and from the lease. -/
theorem effective_status_eq (jobId : String) :
    (jobServerState d.world.jobs now jobId).effective_status =
      if d.queue.isTerminal jobId then .COMPLETED
      else if (d.queue.lease? jobId).any fun l => decide (now < l.leaseExpiresAt) then .CLAIMED
      else .QUEUED := by
  unfold jobServerState
  rw [d.terminals_eq, d.leases_eq, List.find?_map, List.find?_map]
  unfold ResearchWorkflow.Db.isTerminal ResearchWorkflow.Db.lease? Table.find?
  simp only [Function.comp_def]
  cases d.queue.terminal.rows.find? fun r => decide (r.jobId = jobId) with
  | some r => simp
  | none =>
    cases d.queue.leases.rows.find? fun l => decide (l.jobId = jobId) with
    | none => simp
    | some l =>
      simp only [Option.map_none, Option.map_some, Option.isSome_none, Option.any_some, Bool.false_eq_true,
        if_false]
      by_cases hlive : now < l.leaseExpiresAt
      · rw [if_pos hlive, if_pos (decide_eq_true hlive)]
      · rw [if_neg hlive, if_neg (by simpa using hlive)]

/-- The two statuses differ on an open job with an active deferral, and on no other. -/
theorem queueStatus_eq_iff (jobId : String) :
    queueStatus d.queue jobId now =
        (jobServerState d.world.jobs now jobId).effective_status.deferStatus ↔
      (d.queue.isTerminal jobId = false →
        ((d.queue.lease? jobId).all fun l => decide (l.leaseExpiresAt ≤ now)) = true →
        d.queue.isDeferred jobId now = false) := by
  rw [effective_status_eq, queueStatus, live_eq]
  cases d.queue.isTerminal jobId <;>
    cases (d.queue.lease? jobId).all fun l => decide (l.leaseExpiresAt ≤ now) <;>
    cases d.queue.isDeferred jobId now <;>
    simp [EffectiveStatus.deferStatus]

/-- The rows of the listing are PUBLIC job records of the queue. -/
theorem selected_of_mem {row : ReplicaRecordRow} {n : ℕ} (h : row ∈ (queueOrder d.world).take n) :
    (d.queue.records.any fun r => r.recordKey = row.record_key && r.isPublic) = true := by
  obtain ⟨hrow, hpublic⟩ := List.mem_filter.1 ((List.mem_insertionSort _).1 (List.mem_of_mem_take h))
  obtain ⟨htype, hvisibility⟩ : row.record_type = "job" ∧ row.visibility = .PUBLIC := by
    simpa [isPublicOf] using hpublic
  rw [d.records_eq, List.any_eq_true]
  refine ⟨⟨row.record_key, true⟩, List.mem_map.2 ⟨row, List.mem_filter.2 ⟨hrow, ?_⟩, ?_⟩, ?_⟩
  · simpa using htype
  · simp [hvisibility]
  · simp

/-- **Listing and claiming.** The listing agrees with the claim path exactly when no open job that it reads
has an active deferral. -/
theorem listingAgrees_iff (P : Platform) (d : ResearchDatabase) (now : String) (limit : Option Decimal) :
    ListingAgrees P d now limit ↔ NoneDeferred d now limit := by
  constructor
  · intro h haccepted hobjects row hrow
    have hstatus := h.status false _ (listResearchJobs_eq_ok.2 ⟨haccepted, hobjects, rfl⟩)
      (row, jobServerState d.world.jobs now row.record_key)
      (List.mem_filter.2 ⟨List.mem_map.2 ⟨row, hrow, rfl⟩, rfl⟩) (fun _ => ⟨.none, ""⟩) fun _ => rfl
    rw [ResearchWorkflow.deferredCurrentStatus_run fun _ => rfl] at hstatus
    exact (queueStatus_eq_iff row.record_key).1 (Except.ok.inj hstatus)
  · intro h
    refine ⟨?_, ?_⟩
    · intro jobs hjobs job hjob input hinput hnow choices outcome hrun
      obtain ⟨haccepted, hobjects, rfl⟩ := listResearchJobs_eq_ok.1 hjobs
      obtain ⟨hrow, hqueued⟩ := mem_claimable.1 ⟨job, hjob, rfl⟩
      have hqueued : (jobServerState d.world.jobs now job.1.record_key).effective_status = .QUEUED := by
        simpa [isQueued] using hqueued
      rw [effective_status_eq, live_eq] at hqueued
      have hopen : d.queue.isTerminal job.1.record_key = false ∧
          ((d.queue.lease? job.1.record_key).all fun l => decide (l.leaseExpiresAt ≤ now)) = true := by
        cases hterminal : d.queue.isTerminal job.1.record_key with
        | true => simp [hterminal] at hqueued
        | false =>
          cases hlease : (d.queue.lease? job.1.record_key).all fun l => decide (l.leaseExpiresAt ≤ now) with
          | true => exact ⟨rfl, rfl⟩
          | false => simp [hterminal, hlease] at hqueued
      have hdeferred := h haccepted hobjects job.1 hrow hopen.1 hopen.2
      refine ResearchWorkflow.claim_granted hnow (hinput ▸ selected_of_mem hrow) ?_ hrun
      intro expiresAt token
      simp only [WouldTake, ResearchWorkflow.claimedLease, hinput]
      exact ⟨hopen.1, hdeferred, hopen.2⟩
    · intro claimableOnly jobs hjobs job hjob choices hch
      obtain ⟨haccepted, hobjects, rfl⟩ := listResearchJobs_eq_ok.1 hjobs
      obtain ⟨hjob, -⟩ := List.mem_filter.1 hjob
      obtain ⟨row, hrow, rfl⟩ := List.mem_map.1 hjob
      rw [ResearchWorkflow.deferredCurrentStatus_run hch,
        (queueStatus_eq_iff row.record_key).2 (h haccepted hobjects row hrow)]

end Agreement

/-! ### A deferred job -/

/-- A job is claimed and deferred to the next day. -/
def deferringRequests : ℕ → ResearchWorkflow.Request
  | 0 => .claim ⟨"job-1", "synthetic-a", "r0", "2026-10-01T00:00:00.000Z"⟩
  | _ => .defer ⟨"job-1", 1, "defer-key-1", some .RECHECK_REQUIRED, "2026-10-02T00:00:00.000Z",
      "synthetic-a", "r1", "2026-10-01T00:30:00.000Z"⟩

def deferredDb : ResearchWorkflow.Db :=
  (machine.exec (ResearchWorkflow.start ResearchWorkflow.examplePlatform [⟨"job-1", true⟩]
    deferringRequests) (ResearchWorkflow.turns 0 8 0 ++ ResearchWorkflow.turns 1 8 8)).world

def deferredWorld : ReplicaWorld where
  replica := { Replica.empty with
    records := ⟨[jobRow "job-1" "2026-10-01T00:00:00.000Z"], by decide⟩ }
  objects _ := none
  fts := []
  jobs := ⟨[], [], []⟩

/-- The database after the deferral. -/
def deferredDatabase : ResearchDatabase where
  world := deferredWorld
  queue := deferredDb
  records_eq := by decide
  terminals_eq := by decide
  leases_eq := by decide

/-- The deferred job is listed as queued. -/
theorem listing_disagrees :
    ¬ ListingAgrees ResearchWorkflow.examplePlatform deferredDatabase "2026-10-01T00:45:00.000Z" none := by
  intro h
  have hstatus := h.status true
  have hwindow : (queueOrder deferredDatabase.world).take (requestedRows none) =
      [jobRow "job-1" "2026-10-01T00:00:00.000Z"] := rfl
  have hlisted : listResearchJobs deferredDatabase.world "2026-10-01T00:45:00.000Z" none true =
      .ok [(jobRow "job-1" "2026-10-01T00:00:00.000Z", ⟨.QUEUED, none, none⟩)] := by
    refine listResearchJobs_eq_ok.2 ⟨rfl, ?_, ?_⟩
    · rw [hwindow]
      exact List.forall_mem_singleton.2 ⟨[], rfl⟩
    · rw [hwindow]
      rfl
  have hstatus := hstatus _ hlisted _ (List.mem_singleton.2 rfl) (fun _ => ⟨.none, ""⟩) fun _ => rfl
  rw [ResearchWorkflow.deferredCurrentStatus_run fun _ => rfl] at hstatus
  revert hstatus
  decide

end QuantproCollector.ResearchReplica
