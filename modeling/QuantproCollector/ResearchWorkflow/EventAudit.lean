import QuantproCollector.ResearchWorkflow.Fencing

/-!
# The event log as an audit

Every batch of the queue writes its events beside the transitions that they report, under conditions worded
anew in each statement. `Logged` says what one call appends to the log and that this is what it did to the
other tables; `claim_logged` and `formal_logged` carry the argument, since there the event and its
transition are separate conditional statements. The claim event asks for the token of the claim in the lease
table, and the receipts of a formal result ask for its id in the terminal table, so a batch whose name is in
the store already would report what it did not do. Where no two batches of a run carry the same drawn name,
this never happens, and the log is exactly the history of the run (`event_audit`).
-/

namespace QuantproCollector.ResearchWorkflow

open Relational Async

variable {P : Platform} {req : Request} {db db' : Db} {ns : List ℕ}

/-! ## What an event reports -/

/-- What an event says of a lease: its own type, the job, and the owner of the lease. -/
def EventRow.leaseReport (e : EventRow) : Option (EventType × String × String) :=
  if e.eventType = .CLAIMED ∨ e.eventType = .LEASE_EXPIRED then
    some (e.eventType, e.jobId, e.actor)
  else none

/-- What an event of the type says of a proposal: the job and the proposal's id. -/
def EventRow.proposalReport (eventType : EventType) (e : EventRow) : Option (String × Option String) :=
  if e.eventType = eventType then some (e.jobId, e.proposalId) else none

/-- The leases that the second store has and the first has not. -/
def takenLeases (before after : Db) : List LeaseRow :=
  after.leases.rows.filter fun l => decide (l ∉ before.leases.rows)

/-- The reports of a lease taken in the store: the end of the lease that the job had, then the claim. -/
def leaseReports (before : Db) (l : LeaseRow) : List (EventType × String × String) :=
  ((before.lease? l.jobId).map fun x => (EventType.LEASE_EXPIRED, l.jobId, x.leaseOwner)).toList ++
    [(.CLAIMED, l.jobId, l.leaseOwner)]

/-- The lease reports due between two stores. -/
def dueReports (before after : Db) : List (EventType × String × String) :=
  (takenLeases before after).flatMap (leaseReports before)

/-- The reports due for the accepted proposals of the store. -/
def Db.receivedReports (db : Db) : List (String × Option String) :=
  (db.proposals.rows.filter fun p => decide (p.status = .RECEIVED)).map fun p =>
    (p.jobId, some p.proposalId)

/-- The reports due for the terminal rows of the store. -/
def Db.completedReports (db : Db) : List (String × Option String) :=
  db.terminal.rows.map fun r => (r.jobId, some r.proposalId)

/-- The drawn name that a statement is about to store. -/
def Statement.name : Statement → Option String
  | .preempt l => some l.claimToken
  | .insertFencedProposal p _ => some p.proposalId
  | _ => none

/-- The drawn name that a batch carries. -/
def Op.name : Op → Option String
  | .batch ss => ss.findSome? Statement.name
  | _ => none

/-- What a batch with the name appends to the log, and that this is what it does to the other tables. -/
structure Logged (name : Option String) (before after : Db) (es : List EventRow) : Prop where
  events : after.events.rows = before.events.rows ++ es
  leases : es.filterMap EventRow.leaseReport = dueReports before after
  expired : ∀ l ∈ takenLeases before after, ∀ x, before.lease? l.jobId = some x →
    x.leaseExpiresAt ≤ l.claimedAt
  received : after.receivedReports =
    before.receivedReports ++ es.filterMap (EventRow.proposalReport .SUBMIT_RECEIVED)
  completed : after.completedReports =
    before.completedReports ++ es.filterMap (EventRow.proposalReport .COMPLETED)
  tokens : ∀ l ∈ after.leases, l ∈ before.leases ∨ name = some l.claimToken
  ids : ∀ r ∈ after.terminal, r ∈ before.terminal ∨ name = some r.proposalId

theorem EventRow.Unaudited.leaseReport {e : EventRow} (h : e.Unaudited) : e.leaseReport = none := by
  simp [EventRow.leaseReport, h.claimed, h.expired]

theorem EventRow.Unaudited.proposalReport {e : EventRow} (h : e.Unaudited) :
    e.proposalReport .SUBMIT_RECEIVED = none ∧ e.proposalReport .COMPLETED = none := by
  simp [EventRow.proposalReport, h.received, h.completed]

theorem EventRow.Reports.proposalReport {e : EventRow} {ty ty' : EventType} {row : ProposalRow}
    (h : e.Reports ty row) : e.proposalReport ty' =
      if ty = ty' then some (row.jobId, some row.proposalId) else none := by
  simp [EventRow.proposalReport, h.eventType, h.jobId, h.proposalId]

theorem EventRow.Reports.leaseReport {e : EventRow} {ty : EventType} {row : ProposalRow}
    (h : e.Reports ty row) (hty : ty = .SUBMIT_RECEIVED ∨ ty = .COMPLETED) :
    e.leaseReport = none := by
  rcases hty with rfl | rfl
  · simp [EventRow.leaseReport, h.eventType]
  · simp [EventRow.leaseReport, h.eventType]

theorem takenLeases_of_subset (h : ∀ l ∈ db'.leases, l ∈ db.leases) : takenLeases db db' = [] :=
  List.filter_eq_nil_iff.2 fun l hl => by simp [Table.mem_rows, h l hl]

/-- A call that takes no lease is logged by events that report none. -/
theorem logged_of_subset {name : Option String} {es : List EventRow}
    (hsub : ∀ l ∈ db'.leases, l ∈ db.leases) (hevents : db'.events.rows = db.events.rows ++ es)
    (hleases : ∀ e ∈ es, e.leaseReport = none)
    (hreceived : db'.receivedReports =
      db.receivedReports ++ es.filterMap (EventRow.proposalReport .SUBMIT_RECEIVED))
    (hcompleted : db'.completedReports =
      db.completedReports ++ es.filterMap (EventRow.proposalReport .COMPLETED))
    (hids : ∀ r ∈ db'.terminal, r ∈ db.terminal ∨ name = some r.proposalId) :
    Logged name db db' es where
  events := hevents
  leases := by
    rw [dueReports, takenLeases_of_subset hsub, List.filterMap_eq_nil_iff.2 hleases]
    rfl
  expired l hl := by simp [takenLeases_of_subset hsub] at hl
  received := hreceived
  completed := hcompleted
  tokens l hl := .inl (hsub l hl)
  ids := hids

theorem logged_refl (name : Option String) (db : Db) : Logged name db db [] :=
  logged_of_subset (fun _ hl => hl) (by simp) (by simp) (by simp) (by simp) fun _ hr => .inl hr

/-! ## Statements -/

theorem insertEvent_rows {e : EventRow} {n : ℕ} (h : db.insertEvent e = some (db', n)) :
    ∃ es : Table EventRow String eventIndexes, es.rows = db.events.rows ++ [e] ∧
      db' = { db with events := es } := by
  obtain ⟨es, hes, heq⟩ := Option.map_eq_some_iff.1 h
  exact ⟨es, (Table.insert?_eq_some hes).1, (Prod.mk.inj heq).1.symm⟩

/-- The expiry receipt of a claim is written exactly where the job is open and its lease has expired. -/
theorem exec_expiredEvent {eventId requestId j now : String} {n : ℕ}
    (h : db.exec (.insertExpiredEvent eventId requestId j now) = some (db', n)) :
    (∃ x, ∃ es : Table EventRow String eventIndexes, db.lease? j = some x ∧ x.leaseExpiresAt ≤ now ∧
      db.isTerminal j = false ∧ db.isDeferred j now = false ∧
      es.rows = db.events.rows ++ [⟨eventId, j, .LEASE_EXPIRED, x.leaseOwner, none, none, ⟨none, none⟩,
        requestId, now⟩] ∧ db' = { db with events := es }) ∨
    db' = db ∧ ∀ x, db.lease? j = some x → x.leaseExpiresAt ≤ now → db.isTerminal j = false →
      db.isDeferred j now = true := by
  simp only [Db.exec] at h
  split at h
  · rename_i x hx
    split_ifs at h with hgate
    · obtain ⟨es, hrows, heq⟩ := insertEvent_rows h
      simp only [Bool.and_eq_true, decide_eq_true_eq, Bool.not_eq_true'] at hgate
      exact .inl ⟨x, es, hx, hgate.1.1, hgate.1.2, hgate.2, hrows, heq⟩
    · cases h
      refine .inr ⟨rfl, fun y hy hexp hterm => ?_⟩
      obtain rfl : x = y := Option.some.inj (hx.symm.trans hy)
      simpa [hexp, hterm] using hgate
  · rename_i hnone
    cases h
    exact .inr ⟨rfl, fun x hx => by simp [hnone] at hx⟩

/-- The claim receipt is written where the job's lease has the owner and the token. -/
theorem exec_claimedEvent {eventId owner requestId now j token : String} {n : ℕ}
    (h : db.exec (.insertClaimedEvent eventId owner requestId now j token) = some (db', n)) :
    ((∃ x ∈ db.leases, x.claimToken = token) ∧ ∃ es : Table EventRow String eventIndexes,
      es.rows = db.events.rows ++ [⟨eventId, j, .CLAIMED, owner, none, none, ⟨none, none⟩, requestId,
        now⟩] ∧ db' = { db with events := es }) ∨
    db' = db ∧ ∀ x ∈ db.leases, x.jobId = j → x.leaseOwner = owner → x.claimToken ≠ token := by
  simp only [Db.exec] at h
  split at h
  · rename_i x hx
    obtain ⟨hmem, hx⟩ := Table.mem_of_find? hx
    obtain ⟨es, hrows, heq⟩ := insertEvent_rows h
    simp only [Bool.and_eq_true, decide_eq_true_eq] at hx
    exact .inl ⟨⟨x, hmem, hx.2⟩, es, hrows, heq⟩
  · rename_i hnone
    cases h
    refine .inr ⟨rfl, fun x hx hj howner htoken => ?_⟩
    simpa [hj, howner, htoken] using Table.find?_eq_none.1 hnone x hx

/-- The receipt of a completion is written where the terminal row is. -/
theorem exec_completionEvent {e : EventRow} {j p : String} {n : ℕ}
    (h : db.exec (.insertCompletionEvent e j p) = some (db', n)) :
    ((∃ r ∈ db.terminal, r.proposalId = p) ∧ ∃ es : Table EventRow String eventIndexes,
      es.rows = db.events.rows ++ [e] ∧ db' = { db with events := es }) ∨
    db' = db ∧ ∀ r ∈ db.terminal, r.jobId = j → r.proposalId ≠ p := by
  simp only [Db.exec] at h
  split_ifs at h with hfound
  · obtain ⟨r, hr⟩ := Option.isSome_iff_exists.1 hfound
    obtain ⟨hmem, hr⟩ := Table.mem_of_find? hr
    obtain ⟨es, hrows, heq⟩ := insertEvent_rows h
    simp only [Bool.and_eq_true, decide_eq_true_eq] at hr
    exact .inl ⟨⟨r, hmem, hr.2⟩, es, hrows, heq⟩
  · cases h
    rw [Bool.not_eq_true, Option.isSome_eq_false_iff, Option.isNone_iff_eq_none] at hfound
    refine .inr ⟨rfl, fun r hr hj hp => ?_⟩
    simpa [hj, hp] using Table.find?_eq_none.1 hfound r hr

/-- Where the job is open and its lease has expired, the upsert of a claim stores the new token. -/
theorem preempt_of_expired {l x : LeaseRow} {n : ℕ} (h : db.preempt l = some (db', n))
    (hx : db.lease? l.jobId = some x) (hexp : x.leaseExpiresAt ≤ l.claimedAt)
    (hterm : db.isTerminal l.jobId = false) (hdefer : db.isDeferred l.jobId l.claimedAt = false) :
    ∃ y ∈ db'.leases, y.claimToken = l.claimToken := by
  simp only [Db.preempt, hterm, hdefer, hx, Bool.or_self, Bool.false_eq_true, if_false, hexp,
    if_true] at h
  obtain ⟨ls, hls, heq⟩ := Option.map_eq_some_iff.1 h
  obtain ⟨hmem, hj⟩ := mem_of_lease? hx
  obtain ⟨rfl, -⟩ := Prod.mk.inj heq
  exact ⟨_, (Table.mem_update? hls).2 ⟨x, hmem, rfl⟩, by simp [hj]⟩

/-! ## Batches -/

theorem event_logged {name : Option String} {e : EventRow} (he : e.Unaudited)
    (h : runBatch [.insertEvent e] db = some (db', ns)) : ∃ es, Logged name db db' es := by
  simp only [runBatch_cons, runBatch_nil] at h
  obtain ⟨d, n, _, h₁, ⟨rfl, -⟩, -⟩ := h
  obtain ⟨es, hrows, rfl⟩ := insertEvent_rows h₁
  refine ⟨[e], logged_of_subset (fun _ hl => hl) hrows (by simp [he.leaseReport]) ?_ ?_
    fun _ hr => .inl hr⟩
  · simp [he.proposalReport, Db.receivedReports]
  · simp [he.proposalReport, Db.completedReports]

theorem reject_logged {name : Option String} {row : ProposalRow} {event : EventRow}
    (hrow : row.status = .REJECTED) (he : event.Unaudited)
    (h : runBatch (rejectBatch row event) db = some (db', ns)) : ∃ es, Logged name db db' es := by
  simp only [rejectBatch, runBatch_cons, runBatch_nil] at h
  obtain ⟨d₁, n₁, _, h₁, ⟨d₂, n₂, _, h₂, ⟨rfl, -⟩, -⟩, -⟩ := h
  obtain ⟨ps, hps, rfl⟩ := insertProposal_eq h₁
  obtain ⟨es, hrows, rfl⟩ := insertEvent_rows h₂
  refine ⟨[event], logged_of_subset (fun _ hl => hl) hrows (by simp [he.leaseReport]) ?_ ?_
    fun _ hr => .inl hr⟩
  · simp [he.proposalReport, Db.receivedReports, (Table.insert?_eq_some hps).1, hrow]
  · simp [he.proposalReport, Db.completedReports]

theorem synthetic_logged {name : Option String} {row : ProposalRow} {event : EventRow}
    (hrow : row.status = .RECEIVED) (he : event.Reports .SUBMIT_RECEIVED row)
    (h : runBatch (syntheticBatch row event) db = some (db', ns)) : ∃ es, Logged name db db' es := by
  simp only [syntheticBatch, runBatch_cons, runBatch_nil] at h
  obtain ⟨d₁, n₁, _, h₁, ⟨d₂, n₂, _, h₂, ⟨d₃, n₃, _, h₃, ⟨rfl, -⟩, -⟩, -⟩, -⟩ := h
  obtain ⟨ps, hps, rfl⟩ := insertProposal_eq h₁
  cases h₂
  obtain ⟨es, hrows, rfl⟩ := insertEvent_rows h₃
  refine ⟨[event], logged_of_subset (fun l hl => (Table.mem_deleteWhere.1 hl).1) hrows
    (by simp [he.leaseReport (.inl rfl)]) ?_ ?_ fun _ hr => .inl hr⟩
  · simp [he.proposalReport, Db.receivedReports, (Table.insert?_eq_some hps).1, hrow]
  · simp [he.proposalReport, Db.completedReports]

theorem defer_logged {name : Option String} {row : DeferralRow} {f : Fence}
    (h : runBatch (deferBatch row f) db = some (db', ns)) : ∃ es, Logged name db db' es := by
  rcases runBatch_defer h with ⟨-, rfl⟩ | ⟨-, ds, -, rfl⟩
  all_goals
    exact ⟨[], logged_of_subset (fun l hl => (Table.mem_deleteWhere.1 hl).1) (by simp) (by simp)
      (by simp [Db.receivedReports]) (by simp [Db.completedReports]) fun _ hr => .inl hr⟩

/-- A formal result is stored with both receipts, or the fence fails and there is neither. -/
theorem formal_logged {row : ProposalRow} {f : Fence} {received completed : EventRow}
    (hrow : row.status = .RECEIVED) (hreceived : received.Reports .SUBMIT_RECEIVED row)
    (hcompleted : completed.Reports .COMPLETED row)
    (hfresh : ∀ r ∈ db.terminal, r.proposalId ≠ row.proposalId)
    (h : runBatch (formalBatch row f received completed) db = some (db', ns)) :
    ∃ es, Logged (some row.proposalId) db db' es := by
  simp only [formalBatch, runBatch_cons, runBatch_nil] at h
  obtain ⟨d₁, n₁, _, h₁, ⟨d₂, n₂, _, h₂, ⟨d₃, n₃, _, h₃, ⟨d₄, n₄, _, h₄, ⟨d₅, n₅, _, h₅,
    ⟨rfl, -⟩, -⟩, -⟩, -⟩, -⟩, -⟩ := h
  cases h₃
  by_cases hf : db.fenceHolds f = true
  · simp only [Db.exec, hf, if_true] at h₁
    obtain ⟨ps, hps, rfl⟩ := insertProposal_eq h₁
    have hf' : Db.fenceHolds { db with proposals := ps } f = true := hf
    simp only [Db.exec, hf', if_true] at h₂
    obtain ⟨ts, hts, rfl⟩ := insertTerminal_eq h₂
    have hstored : (⟨row.jobId, row.proposalId, row.createdAt⟩ : TerminalRow) ∈ ts :=
      (Table.mem_insert? hts).2 (.inr rfl)
    -- the terminal row stands when the receipts ask for it
    rcases exec_completionEvent h₄ with ⟨-, es₄, hrows₄, rfl⟩ | ⟨-, hno⟩
    · rcases exec_completionEvent h₅ with ⟨-, es₅, hrows₅, rfl⟩ | ⟨-, hno⟩
      · refine ⟨[received, completed], logged_of_subset
          (fun l hl => (Table.mem_deleteWhere.1 hl).1) ?_ ?_ ?_ ?_ fun r hr => ?_⟩
        · exact hrows₅.trans (by simp [hrows₄])
        · simp [hreceived.leaseReport (.inl rfl), hcompleted.leaseReport (.inr rfl)]
        · simp [Db.receivedReports, (Table.insert?_eq_some hps).1, hrow, hreceived.proposalReport,
            hcompleted.proposalReport]
        · simp [Db.completedReports, (Table.insert?_eq_some hts).1, hreceived.proposalReport,
            hcompleted.proposalReport]
        · rcases (Table.mem_insert? hts).1 hr with hr | rfl
          · exact .inl hr
          · exact .inr rfl
      · exact absurd rfl (hno _ hstored rfl)
    · exact absurd rfl (hno _ hstored rfl)
  · simp only [Db.exec, hf] at h₁
    cases h₁
    simp only [Db.exec, hf] at h₂
    cases h₂
    have none_stored : ∀ {e : EventRow} {d d' : Db} {n : ℕ},
        d.exec (.insertCompletionEvent e row.jobId row.proposalId) = some (d', n) →
          d.terminal = db.terminal → d' = d := by
      intro e d d' n h hd
      rcases exec_completionEvent h with ⟨⟨r, hr, hid⟩, -⟩ | ⟨rfl, -⟩
      · exact absurd hid (hfresh r (hd ▸ hr))
      · rfl
    obtain rfl := none_stored h₄ rfl
    obtain rfl := none_stored h₅ rfl
    exact ⟨[], logged_of_subset (fun l hl => (Table.mem_deleteWhere.1 hl).1) (by simp) (by simp)
      (by simp [Db.receivedReports]) (by simp [Db.completedReports]) fun _ hr => .inl hr⟩

section Claim

variable {l : LeaseRow} {ls : Table LeaseRow String leaseIndexes}

theorem takenLeases_of_takes (ht : Takes db l db'.leases)
    (hfresh : ∀ x ∈ db.leases, x.claimToken ≠ l.claimToken) : takenLeases db db' = [l] := by
  refine Table.filter_eq_singleton (i := fun l => some l.jobId) (by simp [leaseIndexes])
    ((ht.mem l).2 (.inl rfl)) ?_ (by simp) fun a ha hp => ?_
  · exact decide_eq_true fun hl => hfresh l hl rfl
  · rcases (ht.mem a).1 ha with rfl | ⟨hmem, -⟩
    · rfl
    · exact absurd hmem (by simpa [Table.mem_rows] using hp)

/-- The lease that a taken one replaces had expired. -/
theorem expired_of_takes (ht : Takes db l ls) {x : LeaseRow} (hx : db.lease? l.jobId = some x) :
    x.leaseExpiresAt ≤ l.claimedAt := by
  obtain ⟨hmem, hj⟩ := mem_of_lease? hx
  rcases ht.count with ⟨hfree, -⟩ | ⟨y, hy, hyj, hexp, -⟩
  · exact absurd hj (hfree x hmem)
  · rwa [lease_unique hmem hy (hj.trans hyj.symm)]

/-- A lease is taken, and its reports are appended. -/
theorem logged_of_takes {events : Table EventRow String eventIndexes} {es : List EventRow}
    (ht : Takes db l ls) (hfresh : ∀ x ∈ db.leases, x.claimToken ≠ l.claimToken)
    (hrows : events.rows = db.events.rows ++ es)
    (hleases : es.filterMap EventRow.leaseReport = leaseReports db l)
    (hreceived : es.filterMap (EventRow.proposalReport .SUBMIT_RECEIVED) = [])
    (hcompleted : es.filterMap (EventRow.proposalReport .COMPLETED) = []) :
    Logged (some l.claimToken) db { db with leases := ls, events := events } es := by
  have htaken : takenLeases db { db with leases := ls, events := events } = [l] :=
    takenLeases_of_takes ht hfresh
  exact
    { events := hrows
      leases := by rw [hleases, dueReports, htaken, List.flatMap_singleton]
      expired := fun l' hl' x hx => by
        obtain rfl : l' = l := by simpa [htaken] using hl'
        exact expired_of_takes ht hx
      received := by simp [hreceived, Db.receivedReports]
      completed := by simp [hcompleted, Db.completedReports]
      tokens := fun x hx => ((ht.mem x).1 hx).elim (fun h => .inr (h ▸ rfl)) fun h => .inl h.1
      ids := fun _ hr => .inl hr }

/-- A claim that takes the lease reports the end of the expired one, if there is one, and itself; a
claim that takes nothing reports nothing. -/
theorem claim_logged {input : ClaimInput} {now expiresAt token eventId expiredId : String}
    (hfresh : ∀ l ∈ db.leases, l.claimToken ≠ token)
    (h : runBatch (claimBatch input now expiresAt token eventId expiredId) db = some (db', ns)) :
    ∃ es, Logged (some token) db db' es := by
  simp only [claimBatch, runBatch_cons, runBatch_nil] at h
  obtain ⟨d₁, n₁, _, h₁, ⟨d₂, n₂, _, h₂, ⟨d₃, n₃, _, h₃, ⟨rfl, -⟩, -⟩, -⟩, -⟩ := h
  rcases preempt_eq (l := claimedLease input now expiresAt token) rfl h₂ with
    rfl | ⟨ls, count, rfl, ht⟩
  · -- were the expiry receipt written, the upsert would have stored the new token
    rcases exec_expiredEvent h₁ with ⟨x, es, hx, hexp, hterm, hdefer, -, rfl⟩ | ⟨rfl, -⟩
    · obtain ⟨y, hy, htoken⟩ := preempt_of_expired
        (l := claimedLease input now expiresAt token) h₂ hx hexp hterm hdefer
      exact absurd htoken (hfresh y hy)
    · rcases exec_claimedEvent h₃ with ⟨⟨y, hy, htoken⟩, -⟩ | ⟨rfl, -⟩
      · exact absurd htoken (hfresh y hy)
      · exact ⟨[], logged_refl _ _⟩
  · rcases exec_claimedEvent h₃ with ⟨-, es₃, hrows₃, rfl⟩ | ⟨-, hno⟩
    · rcases exec_expiredEvent h₁ with ⟨x, es₁, hx, hexp, -, -, hrows₁, rfl⟩ | ⟨rfl, hidle⟩
      · have ht' : Takes db { claimedLease input now expiresAt token with claimCount := count } ls :=
          ⟨ht.notTerminal, ht.notDeferred, ht.count, ht.mem⟩
        refine ⟨_, logged_of_takes ht' hfresh (hrows₃.trans (by
          rw [hrows₁, List.append_assoc])) ?_ rfl rfl⟩
        simp [EventRow.leaseReport, leaseReports, claimedLease, hx]
      · -- the job had no lease: the receipt of an expired one would have been written
        have hnone : d₁.lease? input.jobId = none := by
          cases hx : d₁.lease? input.jobId with
          | none => rfl
          | some x =>
            have hdefer := hidle x hx (expired_of_takes ht hx) (isTerminal_eq_false.2 ht.notTerminal)
            exact absurd (hdefer.symm.trans ht.notDeferred) (by simp)
        refine ⟨_, logged_of_takes ht hfresh hrows₃ ?_ rfl rfl⟩
        simp [EventRow.leaseReport, leaseReports, claimedLease, hnone]
    · exact absurd rfl (hno _ ((ht.mem _).2 (.inl rfl)) rfl rfl)

end Claim

/-! ## Calls -/

/-- The name that the batch carries is not in the store. -/
def Fresh (k : Call Op Db Choice) : Prop :=
  ∀ name ∈ k.op.name, (∀ l ∈ k.before.leases, l.claimToken ≠ name) ∧
    ∀ r ∈ k.before.terminal, r.proposalId ≠ name

theorem perform_logged {ch : Choice} {ss : List Statement}
    (h : ∀ db' ns, runBatch ss db = some (db', ns) → ∃ es, Logged (Op.batch ss).name db db' es) :
    ∃ es, Logged (Op.batch ss).name db (machine.perform ch (.batch ss) db).2 es := by
  by_cases hc : Commits ch ss db
  · obtain ⟨ns, hrun⟩ := perform_commits hc
    exact h _ ns hrun
  · rw [perform_not_commits hc]
    exact ⟨[], logged_refl _ _⟩

/-- **Step lemma.** A call appends to the log what it does to the other tables. -/
theorem call_logged {k : Call Op Db Choice} (hop : MayRecord P req k.op) (hfresh : Fresh k) :
    ∃ es, Logged k.op.name k.before (machine.after k) es := by
  obtain ⟨t, op, ch, db⟩ := k
  change ∃ es, Logged op.name db (machine.perform ch op db).2 es
  cases hop with
  | read hread =>
    rw [perform_read hread]
    exact ⟨[], logged_refl _ _⟩
  | event he => exact perform_logged fun _ _ h => event_logged he h
  | claim token eventId expiredId hnow =>
    exact perform_logged fun _ _ h => claim_logged (hfresh token rfl).1 h
  | reject hrow he => exact perform_logged fun _ _ h => reject_logged hrow he h
  | formal hr hreceived hcompleted =>
    exact perform_logged fun _ _ h =>
      formal_logged rfl hreceived hcompleted (hfresh _ rfl).2 h
  | synthetic hr ho he => exact perform_logged fun _ _ h => synthetic_logged rfl he h
  | defer hg hnow hrow => exact perform_logged fun _ _ h => defer_logged h

/-! ## Runs -/

/-- The drawn names that the batches of a run carry. -/
def names (log : List (Call Op Db Choice)) : List String :=
  log.filterMap fun k => k.op.name

theorem names_cons {k : Call Op Db Choice} {log : List (Call Op Db Choice)} :
    names (k :: log) = k.op.name.toList ++ names log := by
  cases h : k.op.name <;> simp [names, h]

/-- The events of the store are the history of the calls (newest first): in the calls' order, for each
lease taken its claim, right after the end of the expired lease that it replaced, and nothing else of a
lease; for each accepted proposal its receipt and for each terminal row its completion, in the order of the
tables, and no others. -/
structure EventAudit (log : List (Call Op Db Choice)) (db : Db) : Prop where
  leases : db.events.rows.filterMap EventRow.leaseReport =
    log.reverse.flatMap fun k => dueReports k.before (machine.after k)
  expired : ∀ k ∈ log, ∀ l ∈ takenLeases k.before (machine.after k), ∀ x,
    k.before.lease? l.jobId = some x → x.leaseExpiresAt ≤ l.claimedAt
  received : db.events.rows.filterMap (EventRow.proposalReport .SUBMIT_RECEIVED) = db.receivedReports
  completed : db.events.rows.filterMap (EventRow.proposalReport .COMPLETED) = db.completedReports

/-- The audit, and that the names in the store are names of the run. -/
structure AuditInv (log : List (Call Op Db Choice)) (db : Db) : Prop extends EventAudit log db where
  tokens : ∀ l ∈ db.leases, l.claimToken ∈ names log
  ids : ∀ r ∈ db.terminal, r.proposalId ∈ names log

theorem auditInv_initial (records : List JobRecord) : AuditInv [] (Db.initial records) where
  leases := rfl
  expired := by simp
  received := rfl
  completed := rfl
  tokens l hl := absurd hl (Table.not_mem_empty l)
  ids r hr := absurd hr (Table.not_mem_empty r)

theorem auditInv_call {log : List (Call Op Db Choice)} {k : Call Op Db Choice} {es : List EventRow}
    (hI : AuditInv log k.before) (hl : Logged k.op.name k.before (machine.after k) es) :
    AuditInv (k :: log) (machine.after k) where
  leases := by
    rw [hl.events, List.filterMap_append, hI.leases, hl.leases, List.reverse_cons,
      List.flatMap_append, List.flatMap_singleton]
  expired := by
    intro k' hk'
    rcases List.mem_cons.1 hk' with rfl | hk'
    · exact hl.expired
    · exact hI.expired k' hk'
  received := by rw [hl.events, List.filterMap_append, hI.received, hl.received]
  completed := by rw [hl.events, List.filterMap_append, hI.completed, hl.completed]
  tokens l hmem := by
    rw [names_cons]
    rcases hl.tokens l hmem with hold | hname
    · exact List.mem_append_right _ (hI.tokens l hold)
    · simp [hname]
  ids r hmem := by
    rw [names_cons]
    rcases hl.ids r hmem with hold | hname
    · exact List.mem_append_right _ (hI.ids r hold)
    · simp [hname]

theorem fresh_of_nodup {log : List (Call Op Db Choice)} {k : Call Op Db Choice}
    (hI : AuditInv log k.before) (hnames : (names (k :: log)).Nodup) : Fresh k := by
  intro name hname
  rw [Option.mem_def] at hname
  have hnew : name ∉ names log := by
    rw [names_cons, hname] at hnames
    exact (List.nodup_cons.1 hnames).1
  exact ⟨fun l hl h => hnew (h ▸ hI.tokens l hl), fun r hr h => hnew (h ▸ hI.ids r hr)⟩

theorem auditInv_run (P : Platform) (records : List JobRecord) (requests : ℕ → Request)
    (es : List (ℕ × Choice))
    (hnames : (names (machine.exec (start P records requests) es).log).Nodup) :
    AuditInv (machine.exec (start P records requests) es).log
      (machine.exec (start P records requests) es).world := by
  refine (Machine.exec_induction (P := fun c =>
    Machine.Issued (fun t => MayRecord P (requests t)) c ∧
      ((names c.log).Nodup → AuditInv c.log c.world)) ?_ es
    ⟨fun t => serve_records P (requests t), fun _ => auditInv_initial records⟩).2 hnames
  rintro c e ⟨hS, hI⟩
  refine ⟨Machine.issued_step hS e, fun hnames => ?_⟩
  rcases Machine.step_cases (M := machine) c e with hs | ⟨op, next, hcall, hs⟩
  · rw [hs] at hnames ⊢
    exact hI hnames
  · rw [hs] at hnames ⊢
    have hpast : (names c.log).Nodup := by
      rw [names_cons] at hnames
      exact hnames.of_append_right
    obtain ⟨es, hl⟩ := call_logged (k := ⟨e.1, op, e.2, c.world⟩) (Machine.issued_next hS hcall)
      (fresh_of_nodup (hI hpast) hnames)
    exact auditInv_call (hI hpast) hl

/-- **The event log is an audit.** For every set of callers, every order of their steps, every fault and
every clock reading: where no two batches of the run carry the same drawn name, the events of the store are
the history of the run. -/
theorem event_audit (P : Platform) (records : List JobRecord) (requests : ℕ → Request)
    (es : List (ℕ × Choice))
    (hnames : (names (machine.exec (start P records requests) es).log).Nodup) :
    EventAudit (machine.exec (start P records requests) es).log
      (machine.exec (start P records requests) es).world :=
  (auditInv_run P records requests es hnames).toEventAudit

/-- The run in which an expired lease is taken over. -/
theorem event_audit_overtaken :
    (names (machine.exec (start examplePlatform [⟨"job-1", true⟩] overtakenRequests)
      overtakenSchedule).log).Nodup ∧
    EventAudit (machine.exec (start examplePlatform [⟨"job-1", true⟩] overtakenRequests)
        overtakenSchedule).log
      (machine.exec (start examplePlatform [⟨"job-1", true⟩] overtakenRequests)
        overtakenSchedule).world :=
  ⟨by decide +kernel, event_audit examplePlatform [⟨"job-1", true⟩] overtakenRequests
    overtakenSchedule (by decide +kernel)⟩

end QuantproCollector.ResearchWorkflow
