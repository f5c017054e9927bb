import Mathlib.Data.List.Induction
import QuantproCollector.StateGateway.Delivery
import QuantproCollector.StateGateway.Identity

/-!
# The account of a run envelope

A submission records its outcome in the row of the envelope where the row is still `UNKNOWN`, and else
drops it. Of a submission itself: it reads one row, it posts and updates only under the run that it found or
stored there, and a result that it returns as recorded is what its update wrote (`submitted_processRunEnvelope`).
Of any number of them: where no settling update finds the row settled or another submission's comment, and no
comment is created under a settled row, a comment that is created is counted (`run_accounting`).
-/

namespace QuantproCollector.StateGateway

open Relational Async

/-! ## One submission -/

/-- Of the rows of runs, the operation reads only that of the envelope. -/
def Op.readsOnly (task key : String) (op : Op) : Prop :=
  ∀ task' key', op = .selectRun task' key' → task' = task ∧ key' = key

/-- The calls have read the row of the envelope, and found or stored one with the run. -/
structure Reserved (past : List (Call Op World Choice)) (task key runId : String) : Prop where
  reads : ∃ k ∈ past, k.op = .selectRun task key
  stored : ∃ k ∈ past, ∃ row, (Finds k row ∨ Inserts k row) ∧
    row.task_name = task ∧ row.envelope_key = key ∧ row.run_id = runId

/-- What a submission's calls allow for its next call. -/
structure Lawful (P : Runtime) (past : List (Call Op World Choice)) (k : Call Op World Choice) : Prop where
  post : k.op.posts = true → ∃ task key runId, Reserved past task key runId
  update : ∀ u, k.op = .updateRun u → (∃ key, Reserved past u.task_name key u.run_id) ∧
    ((∃ p ∈ past, Posted p) → (∀ p ∈ past, ¬ Disowned P p) →
      u.outcome = .UNKNOWN ∨ u.outcome = .COMPLETED ∧ u.fresh_delta_count = some 1)

/-- The call is an update that has taken place, with an outcome that settles a row. -/
def Settles (k : Call Op World Choice) (u : RunUpdate) : Prop :=
  k.op = .updateRun u ∧ k.choice.fault = .none ∧ u.outcome ≠ .UNKNOWN

/-- What a submission did and answered. -/
structure Submitted (P : Runtime) (ks : List (Call Op World Choice))
    (r : Except Thrown RunEnvelopeReceipt) : Prop where
  envelope : ∃ task key, ∀ k ∈ ks, k.op.readsOnly task key
  lawful : Along (Lawful P) ks.reverse
  recorded : ∀ receipt, r = .ok receipt → receipt.status = .ENVELOPE_RECORDED →
    (∃ k ∈ ks, k.op = .selectRun receipt.task_name receipt.envelope_key) ∧
      ∃ k ∈ ks, ∃ u, Settles k u ∧ u.outcome = receipt.outcome ∧
        u.fresh_delta_count = receipt.fresh_delta_count

section Submission

variable {P : Runtime} {input : EnvelopeInput} {ks past earlier : List (Call Op World Choice)}
  {k : Call Op World Choice} {r : Except Thrown RunEnvelopeReceipt} {task key runId : String}

theorem Reserved.mono (h : Reserved past task key runId) (hsub : past ⊆ earlier) :
    Reserved earlier task key runId := by
  obtain ⟨⟨k, hk, hop⟩, k', hk', hrow⟩ := h
  exact ⟨⟨k, hsub hk, hop⟩, k', hsub hk', hrow⟩

theorem not_posted_of_quiet (h : k.op.quiet = true) : ¬ Posted k := by
  refine not_posted ?_
  cases hop : k.op with
  | fetch request =>
    rw [hop] at h
    cases h
  | _ => rfl

theorem lawful_of_quiet (h : k.op.quiet = true) : Lawful P past k where
  post hposts := by
    cases hop : k.op with
    | fetch request =>
      rw [hop] at h
      cases h
    | _ =>
      rw [hop] at hposts
      cases hposts
  update u hu := absurd hu (no_update_of_quiet h u)

theorem Lawful.older (h : Lawful P past k) (hnone : ∀ p ∈ earlier, ¬ Posted p) :
    Lawful P (past ++ earlier) k where
  post hposts := by
    obtain ⟨task, key, runId, hreserved⟩ := h.post hposts
    exact ⟨task, key, runId, hreserved.mono (List.subset_append_left _ _)⟩
  update u hu := by
    obtain ⟨⟨key, hreserved⟩, hdelta⟩ := h.update u hu
    refine ⟨⟨key, hreserved.mono (List.subset_append_left _ _)⟩, fun ⟨p, hp, hposted⟩ hallowed => ?_⟩
    have hp := (List.mem_append.1 hp).resolve_right fun hp => hnone p hp hposted
    exact hdelta ⟨p, hp, hposted⟩ fun p hp => hallowed p (List.mem_append_left _ hp)

/-- Calls that are lawful after the earlier ones, whatever stands between. -/
theorem along_lawful_append {later : List (Call Op World Choice)} (hearlier : Along (Lawful P) earlier)
    (h : ∀ k ∈ later, ∀ past, earlier ⊆ past → Lawful P past k) : Along (Lawful P) (later ++ earlier) := by
  induction later with
  | nil => exact hearlier
  | cons k later ih =>
    obtain ⟨hk, hlater⟩ := List.forall_mem_cons.1 h
    exact .cons (hk _ (List.subset_append_right _ _)) (ih hlater)

theorem along_lawful_of_quiet (h : ∀ k ∈ ks, k.op.quiet = true) : Along (Lawful P) ks.reverse := by
  rw [← List.append_nil ks.reverse]
  exact along_lawful_append .nil fun k hk _ _ => lawful_of_quiet (h k (List.mem_reverse.1 hk))

theorem submitted_of_quiet (hquiet : ∀ k ∈ ks, k.op.quiet = true)
    (hreads : ∃ task key, ∀ k ∈ ks, k.op.readsOnly task key)
    (hr : ∀ receipt, r = .ok receipt → receipt.status = .ENVELOPE_REPLAY) : Submitted P ks r where
  envelope := hreads
  lawful := along_lawful_of_quiet hquiet
  recorded receipt hreceipt hstatus := by
    cases (hr receipt hreceipt).symm.trans hstatus

/-- Calls that prepare a submission may come first. -/
theorem Submitted.after {ks₀ : List (Call Op World Choice)} (h : Submitted P ks r)
    (hfirst : ∀ k ∈ ks₀, k.op.preparing) : Submitted P (ks₀ ++ ks) r where
  envelope := by
    obtain ⟨task, key, hreads⟩ := h.envelope
    exact ⟨task, key, List.forall_mem_append.2
      ⟨fun k hk task' key' hop => absurd hop ((hfirst k hk).2 task' key'), hreads⟩⟩
  lawful := by
    have hnone : ∀ p ∈ ks₀.reverse, ¬ Posted p := fun p hp =>
      not_posted_of_quiet (hfirst p (List.mem_reverse.1 hp)).1
    have hold : Along (Lawful P) ks₀.reverse := along_lawful_of_quiet fun k hk => (hfirst k hk).1
    rw [List.reverse_append]
    have hlawful := h.lawful
    generalize ks.reverse = later at hlawful
    induction hlawful with
    | nil => exact hold
    | cons hk _ ih => exact .cons (hk.older hnone) ih
  recorded receipt hreceipt hstatus := by
    obtain ⟨⟨k, hk, hop⟩, k', hk', hupdate⟩ := h.recorded receipt hreceipt hstatus
    exact ⟨⟨k, List.mem_append_right _ hk, hop⟩, k', List.mem_append_right _ hk', hupdate⟩

theorem replay_of_receiptFromRow {row : StoredRunV3Row}
    (h : (machine P).Completes (receiptFromRow P row) ks r) :
    ∀ receipt, r = .ok receipt → receipt.status = .ENVELOPE_REPLAY := by
  intro receipt hreceipt
  rcases completes_receiptFromRow h with ⟨receipt', rfl, hreplays, -⟩ | ⟨rfl, -⟩
  · cases hreceipt
    exact hreplays.status
  · cases hreceipt

/-- A rejected envelope posts and updates nothing, and is not recorded. -/
theorem submitted_rejectEnvelope {received message : String} {rejected : Json} {summary : Option String}
    (h : (machine P).Completes (rejectEnvelope P input task received message rejected summary) ks r) :
    Submitted P ks r := by
  obtain ⟨key, hkey⟩ : ∃ key, key = "E:INVALID:" ++ sha256HexOf P rejected := ⟨_, rfl⟩
  have hother : ∀ op : Op, op.preparing → op.quiet = true ∧ op.readsOnly task key := fun op hop =>
    ⟨hop.1, fun task' key' hread => absurd hread (hop.2 task' key')⟩
  have hissues : (rejectEnvelope P input task received message rejected summary).Issues fun op =>
      op.quiet = true ∧ op.readsOnly task key := by
    refine Script.Issues.bind ?_ fun found => ?_
    · refine (issues_newRunId.mono hother).bind fun runId => ?_
      refine Script.Issues.bind (Script.issues_perform.2 (hother _ ⟨rfl, by simp⟩)) fun now => ?_
      refine Script.Issues.bind (Script.issues_perform.2 (hother _ ⟨rfl, by simp⟩)) fun inserted => ?_
      split_ifs
      · trivial
      · refine Script.issues_perform.2 ⟨rfl, fun task' key' hop => ?_⟩
        rw [hkey]
        cases hop
        exact ⟨rfl, rfl⟩
    · cases found with
      | none => trivial
      | some row => exact (issues_receiptFromRow row).mono hother
  refine submitted_of_quiet (fun k hk => (h.issues hissues k hk).1)
    ⟨task, key, fun k hk => (h.issues hissues k hk).2⟩ ?_
  rcases Machine.completes_bind.1 h with ⟨e, -, rfl⟩ | ⟨found, ks₁, ks₂, rfl, -, hrest⟩
  · simp
  · cases found with
    | none =>
      obtain ⟨-, rfl⟩ := Machine.completes_halt.1 hrest
      simp
    | some row => exact replay_of_receiptFromRow hrest

/-- The reservation begins by reading the row. -/
theorem reads_reserveRun {received : String} {prompt : Option String} {r : Except Thrown ReservedRun}
    (h : (machine P).Completes (reserveRun input task key received prompt) ks r) :
    ∃ k ∈ ks, k.op = .selectRun task key := by
  rcases Machine.completes_bind.1 h with ⟨e, hselect, -⟩ | ⟨existing, ks₁, ks₂, rfl, hselect, -⟩
  · obtain ⟨k, rfl, hop, -⟩ := completes_selectRun hselect
    exact ⟨k, List.mem_cons_self, hop⟩
  · obtain ⟨k, rfl, hop, -⟩ := completes_selectRun hselect
    exact ⟨k, List.mem_append_left _ List.mem_cons_self, hop⟩

/-- A result that is returned as recorded was written by an update. -/
theorem settles_of_finishRun {received summary : String} {submission : Submission} {o : LedgerOutcome}
    {receipt : RunEnvelopeReceipt}
    (h : (machine P).Completes
      (finishRun P input task runId key received summary submission o) ks (.ok receipt)) :
    receipt.task_name = task ∧ receipt.envelope_key = key ∧ ∃ k ∈ ks, ∃ u, Settles k u ∧
      u.outcome = receipt.outcome ∧ u.fresh_delta_count = receipt.fresh_delta_count := by
  rcases Machine.completes_bind.1 h with ⟨e, -, he⟩ | ⟨now, ks₁, ks₂, rfl, -, hrest⟩
  · cases he
  rcases Machine.completes_bind.1 hrest with ⟨e, -, he⟩ | ⟨done, ks₃, ks₄, rfl, hupdate, hend⟩
  · cases he
  obtain ⟨t, ch, w, ks', rfl, hstatement⟩ := Machine.completes_call.1 hupdate
  obtain ⟨-, hanswer⟩ := Machine.completes_halt.1 hstatement
  obtain ⟨hfault, -⟩ := statement_ok hanswer.symm
  have hsettled : (terminalOf submission.eventCount o).outcome ≠ .UNKNOWN ∧
      receipt = recordedReceipt P task runId key received submission (terminalOf submission.eventCount o) := by
    cases o with
    | error e n => cases (Machine.completes_halt.1 hend).2
    | executed result =>
      refine ⟨?_, Except.ok.inj (Machine.completes_halt.1 hend).2⟩
      simp only [terminalOf]
      split
      · simp
      · simp
    | _ => exact ⟨by simp [terminalOf], Except.ok.inj (Machine.completes_halt.1 hend).2⟩
  obtain ⟨hne, rfl⟩ := hsettled
  exact ⟨rfl, rfl, _, List.mem_append_right _ (List.mem_append_left _ List.mem_cons_self), _,
    ⟨rfl, hfault, hne⟩, rfl, rfl⟩

theorem submitted_processSubmission {requestId received summary : String} {submission : Submission}
    (h : (machine P).Completes (processSubmission P input task requestId received summary submission) ks r) :
    Submitted P ks r := by
  rcases Machine.completes_bind.1 h with ⟨e, hkey, rfl⟩ | ⟨key, ks₁, ks₂, rfl, hkey, hrest⟩
  · obtain ⟨rfl, -⟩ := Machine.completes_halt.1 hkey
    exact submitted_of_quiet (by simp) ⟨task, "", by simp⟩ (by simp)
  obtain ⟨rfl, -⟩ := Machine.completes_halt.1 hkey
  rw [List.nil_append]
  have hreads : (reserveRun input task key received submission.promptVersion).Issues
      (Op.readsOnly task key) :=
    issues_reserveRun _ _ _ _ (fun _ _ hop => by cases hop; exact ⟨rfl, rfl⟩) (fun _ _ hop => by cases hop)
      (fun _ _ hop => by cases hop) fun _ _ _ hop => by cases hop
  rcases Machine.completes_bind.1 hrest with ⟨e, hres, rfl⟩ | ⟨reserved, ks₃, ks₄, rfl, hres, hlast⟩
  · exact submitted_of_quiet (hres.issues (quiet_reserveRun _ _ _ _)) ⟨task, key, hres.issues hreads⟩ (by simp)
  have hquiet := hres.issues (quiet_reserveRun _ _ _ _)
  have hreads := hres.issues hreads
  cases reserved with
  | replay row =>
    have hreceipt := hlast.issues (issues_receiptFromRow row)
    refine submitted_of_quiet (List.forall_mem_append.2 ⟨hquiet, fun k hk => (hreceipt k hk).1⟩)
      ⟨task, key, List.forall_mem_append.2 ⟨hreads, fun k hk task' key' hop =>
        absurd hop ((hreceipt k hk).2 task' key')⟩⟩ (replay_of_receiptFromRow hlast)
  | unknown runId =>
    rcases Machine.completes_bind.1 hlast with ⟨e, hexec, -⟩ | ⟨o, ks₅, ks₆, rfl, hexec, hend⟩
    · obtain ⟨o, ho⟩ := completes_execute hexec
      cases ho
    have hledger : ∀ k ∈ ks₅, k.op.onRuns = false :=
      hexec.issues (issues_execute (fun _ hop => hop) _ _ _ _)
    obtain ⟨reading, k₆, rfl, hreading, ⟨now, hk₆⟩, -, -⟩ := completes_finishRun hend
    have hreserved : Reserved ks₃.reverse task key runId := by
      obtain ⟨k, hk, hop⟩ := reads_reserveRun hres
      obtain ⟨k₀, hk₀, row, hrow, hname⟩ := (reserves_reserveRun hres).unknown runId rfl
      exact ⟨⟨k, List.mem_reverse.2 hk, hop⟩, k₀, List.mem_reverse.2 hk₀, row, hrow.imp_right And.left, hname⟩
    have hquietReading : reading.op.quiet = true := by
      rw [hreading]
      rfl
    refine ⟨⟨task, key, ?_⟩, ?_, fun receipt hr hstatus => ?_⟩
    · refine List.forall_mem_append.2 ⟨hreads, List.forall_mem_append.2 ⟨fun k hk task' key' hop => ?_, ?_⟩⟩
      · have hon := hledger k hk
        rw [hop] at hon
        cases hon
      · refine List.forall_mem_cons.2 ⟨fun task' key' hop => ?_,
          List.forall_mem_singleton.2 fun task' key' hop => ?_⟩
        · cases hreading.symm.trans hop
        · cases hk₆.symm.trans hop
    · -- newest first: the update, the clock, the append, and the reservation
      have hsplit : (ks₃ ++ (ks₅ ++ [reading, k₆])).reverse =
          k₆ :: (reading :: (ks₅.reverse ++ ks₃.reverse)) := by simp
      rw [hsplit]
      refine .cons ?_ (.cons (lawful_of_quiet hquietReading) (along_lawful_append
        (along_lawful_of_quiet hquiet) fun k hk past hpast => ?_))
      · refine ⟨fun hposts => ?_, fun u hu => ?_⟩
        · rw [hk₆] at hposts
          cases hposts
        · obtain ⟨rfl⟩ := hk₆.symm.trans hu
          refine ⟨⟨key, hreserved.mono fun k hk => List.mem_cons_of_mem _ (List.mem_append_right _ hk)⟩,
            fun ⟨p, hp, hposted⟩ hallowed => ?_⟩
          have hp₅ : p ∈ ks₅ := by
            rcases List.mem_cons.1 hp with rfl | hp
            · exact absurd hposted (not_posted_of_quiet hquietReading)
            · refine List.mem_reverse.1 ((List.mem_append.1 hp).resolve_right fun hp => ?_)
              exact not_posted_of_quiet (hquiet p (List.mem_reverse.1 hp)) hposted
          exact delivers_execute _ _ _ _ ks₅ _ hexec ⟨p, hp₅, hposted⟩ (fun p hp => hallowed p
            (List.mem_cons_of_mem _ (List.mem_append_left _ (List.mem_reverse.2 hp)))) _
      · refine ⟨fun _ => ⟨task, key, runId, hreserved.mono hpast⟩, fun u hu => ?_⟩
        have hon := hledger k (List.mem_reverse.1 hk)
        rw [hu] at hon
        cases hon
    · subst hr
      obtain ⟨rfl, rfl, k, hk, hupdate⟩ := settles_of_finishRun hend
      obtain ⟨k', hk', hop⟩ := reads_reserveRun hres
      exact ⟨⟨k', List.mem_append_left _ hk', hop⟩, k,
        List.mem_append_right _ (List.mem_append_right _ hk), hupdate⟩

theorem submitted_processRunEnvelope
    (h : (machine P).Completes (processRunEnvelope P input) ks r) : Submitted P ks r := by
  have hhex : randomHex.Issues Op.preparing := Script.issues_perform.2 ⟨rfl, by simp⟩
  have hclock : clock.Issues Op.preparing := Script.issues_perform.2 ⟨rfl, by simp⟩
  have hnothing : ∀ {ks : List (Call Op World Choice)} {e : Thrown}, (∀ k ∈ ks, k.op.preparing) →
      Submitted P ks (.error e) := fun hks =>
    submitted_of_quiet (fun k hk => (hks k hk).1)
      ⟨"", "", fun k hk task' key' hop => absurd hop ((hks k hk).2 task' key')⟩ (by simp)
  rcases Machine.completes_bind.1 h with ⟨e, hid, rfl⟩ | ⟨requestId, ks₁, ks₂, rfl, hid, h⟩
  · exact hnothing (hid.issues (issues_givenOr hhex))
  refine Submitted.after ?_ (hid.issues (issues_givenOr hhex))
  rcases Machine.completes_bind.1 h with ⟨e, hnow, rfl⟩ | ⟨received, ks₃, ks₄, rfl, hnow, h⟩
  · exact hnothing (hnow.issues (issues_givenOr hclock))
  refine Submitted.after ?_ (hnow.issues (issues_givenOr hclock))
  cases hschema : SUBMIT_RUN_ENVELOPE_INPUT_SCHEMA P input.envelope with
  | none =>
    simp only [hschema, rejectSchema] at h
    split at h
    · obtain ⟨rfl, rfl⟩ := Machine.completes_halt.1 h
      exact hnothing (by simp)
    · exact submitted_rejectEnvelope h
  | some envelope =>
    simp only [hschema] at h
    split at h
    · exact submitted_rejectEnvelope h
    · exact submitted_processSubmission h

end Submission

/-! ## Any number of submissions -/

/-- The thread's submission has read the row of the envelope. -/
def Submits (log : List (Call Op World Choice)) (t : ℕ) (task key : String) : Prop :=
  ∃ k ∈ log, k.thread = t ∧ k.op = .selectRun task key

/-- No settled row is stored for the envelope. -/
def Unsettled (w : World) (task key : String) : Prop :=
  ∀ row ∈ w.runs, row.task_name = task → row.envelope_key = key → row.outcome = .UNKNOWN

/-- The call keeps the account of its envelope. An update that settles the run finds the row unsettled, and
no other submission's comment of the envelope; a comment is created while the row is unsettled, and GitHub
does not answer 401 or 403 to it. -/
structure Accountable (P : Runtime) (past : List (Call Op World Choice)) (k : Call Op World Choice) :
    Prop where
  update : ∀ u, k.op = .updateRun u → u.outcome ≠ .UNKNOWN → ∀ task key, Submits past k.thread task key →
    Unsettled k.before task key ∧
      ∀ p ∈ past, Posted p → Submits past p.thread task key → p.thread = k.thread
  post : Posted k → ¬ Disowned P k ∧
    ∀ task key, Submits past k.thread task key → Unsettled k.before task key

/-- The account of the envelopes. Where a submission of an envelope has had a comment created, the row is
`COMPLETED` with one fresh delta once it is settled, and a result that is returned as recorded has the
outcome and the fresh count of the row. -/
structure RunAccounting (c : Config Thrown Op Res World Choice RunEnvelopeReceipt) : Prop where
  fresh : ∀ p ∈ c.log, Posted p → ∀ task key, Submits c.log p.thread task key → ∀ row ∈ c.world.runs,
    row.task_name = task → row.envelope_key = key → row.outcome ≠ .UNKNOWN →
      row.outcome = .COMPLETED ∧ row.fresh_delta_count = some 1
  recorded : ∀ t receipt, c.result? t = some (.ok receipt) → receipt.status = .ENVELOPE_RECORDED →
    ∃ row ∈ c.world.runs, row.task_name = receipt.task_name ∧ row.envelope_key = receipt.envelope_key ∧
      row.outcome = receipt.outcome ∧ row.fresh_delta_count = receipt.fresh_delta_count

/-- What each submission has done so far, and the rows that they have found or stored. -/
structure Underway (P : Runtime) (c : Config Thrown Op Res World Choice RunEnvelopeReceipt) : Prop where
  envelope : ∀ t, ∃ task key, ∀ k ∈ c.trace t, k.op.readsOnly task key
  lawful : ∀ t, Along (Lawful P) (c.trace t)
  stored : ∀ k ∈ c.log, ∀ row, Finds k row ∨ Inserts k row → ∃ row' ∈ c.world.runs,
    row'.task_name = row.task_name ∧ row'.envelope_key = row.envelope_key ∧ row'.run_id = row.run_id

/-- The account as it stands: a comment that was created is counted, and an update that has settled a run
is what the row holds. -/
structure Tallied (c : Config Thrown Op Res World Choice RunEnvelopeReceipt) : Prop where
  fresh : ∀ p ∈ c.log, Posted p → ∀ task key, Submits c.log p.thread task key → ∀ row ∈ c.world.runs,
    row.task_name = task → row.envelope_key = key → row.outcome ≠ .UNKNOWN →
      row.outcome = .COMPLETED ∧ row.fresh_delta_count = some 1
  settled : ∀ k ∈ c.log, ∀ u, Settles k u → ∀ task key, Submits c.log k.thread task key →
    ∃ row ∈ c.world.runs, row.task_name = task ∧ row.envelope_key = key ∧ row.outcome = u.outcome ∧
      row.fresh_delta_count = u.fresh_delta_count

section Rows

variable {P : Runtime} {w : World} {ch : Choice}

theorem runs_perform {op : Op} (hinsert : ∀ row, op ≠ .insertRun row) (hupdate : ∀ u, op ≠ .updateRun u) :
    ((machine P).perform ch op w).2.runs = w.runs := by
  have hstatement : ∀ {α : Type} {r : Except Thrown α × World}, r.2.runs = w.runs →
      (ch.fault.statement w r).2.runs = w.runs := by
    intro α r hr
    rcases statement_world ch.fault w r with hw | hw
    · rw [hw]
    · rw [hw, hr]
  cases op with
  | insertRun row => exact absurd rfl (hinsert row)
  | updateRun u => exact absurd rfl (hupdate u)
  | fetch request =>
    cases request with
    | create l body =>
      change (if ch.accepted then w.addComment l _ else w).runs = w.runs
      split_ifs
      · exact World.addComment_runs ..
      · rfl
    | _ => rfl
  | clock => rfl
  | randomHex => rfl
  | ownerContext => rfl
  | insertReceipt => exact hstatement rfl
  | selectReceipt => exact hstatement rfl
  | leaseReceipt => exact hstatement rfl
  | finalizeReceipt => exact hstatement rfl
  | selectRun => exact hstatement rfl

/-- A row after an insert was there, or is the first of its envelope. -/
theorem mem_perform_insertRun {row r : StoredRunV3Row}
    (h : r ∈ ((machine P).perform ch (.insertRun row) w).2.runs) :
    r ∈ w.runs ∨ ∀ a ∈ w.runs, a.task_name = r.task_name → a.envelope_key ≠ r.envelope_key := by
  change r ∈ (ch.fault.statement w (w.insertRun row)).2.runs at h
  rcases statement_world ch.fault w (w.insertRun row) with hw | hw
  · rw [hw] at h
    exact .inl h
  · rw [hw] at h
    refine (mem_insertRun.1 h).imp_right ?_
    rintro ⟨hok, rfl⟩ a ha htask hkey
    cases hrow : runFor w r.task_name r.envelope_key with
    | none =>
      have hnone := Table.find?_eq_none.1 hrow a ha
      simp [htask, hkey] at hnone
    | some found =>
      rw [World.insertRun, hrow] at hok
      cases hok

/-- A row after an update was there, or is an unsettled row of the run with what the update writes. -/
theorem mem_perform_updateRun {u : RunUpdate} {r : StoredRunV3Row}
    (h : r ∈ ((machine P).perform ch (.updateRun u) w).2.runs) :
    r ∈ w.runs ∨ ∃ a ∈ w.runs, a.task_name = u.task_name ∧ a.run_id = u.run_id ∧ r = u.apply a := by
  change r ∈ (ch.fault.statement w (.ok (), w.updateRun u)).2.runs at h
  rcases statement_world ch.fault w (.ok (), w.updateRun u) with hw | hw
  · rw [hw] at h
    exact .inl h
  · rw [hw] at h
    obtain ⟨a, ha, rfl⟩ := mem_updateRun.1 h
    split_ifs with happ
    · have happ := of_decide_eq_true happ
      exact .inr ⟨a, ha, happ.1, happ.2.1, rfl⟩
    · exact .inl ha

end Rows

section Run

variable {P : Runtime} {c : Config Thrown Op Res World Choice RunEnvelopeReceipt}

theorem exists_of_along {q : List (Call Op World Choice) → Call Op World Choice → Prop}
    {log : List (Call Op World Choice)} (h : Along q log) {k : Call Op World Choice} (hk : k ∈ log) :
    ∃ past, past ⊆ log ∧ q past k := by
  induction h with
  | nil => cases hk
  | cons hq _ ih =>
    obtain rfl | hk := List.mem_cons.1 hk
    · exact ⟨_, List.subset_cons_self _ _, hq⟩
    · obtain ⟨past, hpast, hq⟩ := ih hk
      exact ⟨past, List.subset_cons_of_subset _ hpast, hq⟩

theorem mem_trace_self {k : Call Op World Choice} (hk : k ∈ c.log) : k ∈ c.trace k.thread :=
  List.mem_filter.2 ⟨hk, by simp⟩

/-- A thread that goes on with a run has the envelope of that run. -/
theorem Underway.envelope_eq (hc : Underway P c) {t : ℕ} {task key task' key' runId : String}
    (hsubmits : Submits c.log t task key) (hreserved : Reserved (c.trace t) task' key' runId) :
    task' = task ∧ key' = key := by
  obtain ⟨k, hk, rfl, hop⟩ := hsubmits
  obtain ⟨k', hk', hop'⟩ := hreserved.reads
  obtain ⟨task₀, key₀, hreads⟩ := hc.envelope k.thread
  obtain ⟨rfl, rfl⟩ := hreads k (mem_trace_self hk) _ _ hop
  exact hreads k' hk' _ _ hop'

theorem Underway.submits (hreserved : Reserved (c.trace t) task key runId) : Submits c.log t task key := by
  obtain ⟨k, hk, hop⟩ := hreserved.reads
  obtain ⟨hk, ht⟩ := List.mem_filter.1 hk
  exact ⟨k, hk, of_decide_eq_true ht, hop⟩

/-- The row of a run that a thread goes on with is stored. -/
theorem Underway.row (hc : Underway P c) {t : ℕ} {task key runId : String}
    (hreserved : Reserved (c.trace t) task key runId) :
    ∃ row ∈ c.world.runs, row.task_name = task ∧ row.envelope_key = key ∧ row.run_id = runId := by
  obtain ⟨k, hk, row, hrow, rfl, rfl, rfl⟩ := hreserved.stored
  exact hc.stored k (List.mem_filter.1 hk).1 row hrow

theorem Underway.reserved_of_posted (hc : Underway P c) {p : Call Op World Choice} (hp : p ∈ c.log)
    (hposted : Posted p) : ∃ task key runId, Reserved (c.trace p.thread) task key runId := by
  obtain ⟨past, hpast, hlawful⟩ := exists_of_along (hc.lawful p.thread) (mem_trace_self hp)
  obtain ⟨task, key, runId, hreserved⟩ := hlawful.post hposted.1
  exact ⟨task, key, runId, hreserved.mono hpast⟩

theorem Underway.reserved_of_update (hc : Underway P c) {k : Call Op World Choice} (hk : k ∈ c.log)
    {u : RunUpdate} (hop : k.op = .updateRun u) :
    ∃ key, Reserved (c.trace k.thread) u.task_name key u.run_id := by
  obtain ⟨past, hpast, hlawful⟩ := exists_of_along (hc.lawful k.thread) (mem_trace_self hk)
  obtain ⟨key, hreserved⟩ := (hlawful.update u hop).1
  exact ⟨key, hreserved.mono hpast⟩

theorem not_disowned_of_along {log : List (Call Op World Choice)} (h : Along (Accountable P) log) :
    ∀ p ∈ log, ¬ Disowned P p := by
  intro p hp hdisowned
  obtain ⟨past, -, hp⟩ := exists_of_along h hp
  exact (hp.post hdisowned.1).1 hdisowned

section Step

variable (hc : Underway P c) (ht : Tallied c) {k : Call Op World Choice}

include hc ht

/-- What the rows are after a call of a submission, of which the account was kept. -/
theorem fresh_after (hk : k.before = c.world) (hlawful : Lawful P (c.trace k.thread) k)
    (hallowed : ∀ p ∈ c.log, ¬ Disowned P p) (hcall : Accountable P c.log k) {p : Call Op World Choice}
    (hmem : p ∈ k :: c.log) (hposted : Posted p) {task key : String} (hsubmits : Submits c.log p.thread task key)
    {row : StoredRunV3Row} (hrow : row ∈ ((machine P).after k).runs) (htask : row.task_name = task)
    (hkey : row.envelope_key = key) (hsettled : row.outcome ≠ .UNKNOWN) :
    row.outcome = .COMPLETED ∧ row.fresh_delta_count = some 1 := by
  obtain ⟨t, op, ch, w⟩ := k
  obtain rfl : w = c.world := hk
  obtain rfl | hp := List.mem_cons.1 hmem
  · -- the comment is created under a row that is not settled
    have hruns : ((machine P).perform ch op c.world).2.runs = c.world.runs := by
      refine runs_perform (fun row hop => ?_) fun u hop => ?_
      · have hposts : op.posts = true := hposted.1
        rw [hop] at hposts
        cases hposts
      · have hposts : op.posts = true := hposted.1
        rw [hop] at hposts
        cases hposts
    have hrow' : row ∈ c.world.runs := hruns ▸ hrow
    exact absurd ((hcall.post hposted).2 task key hsubmits row hrow' htask hkey) hsettled
  obtain ⟨task', key', runId, hreserved⟩ := hc.reserved_of_posted hp hposted
  obtain ⟨rfl, rfl⟩ := hc.envelope_eq hsubmits hreserved
  cases hop : op with
  | insertRun inserted =>
    subst hop
    obtain hrow | hfirst := mem_perform_insertRun hrow
    · exact ht.fresh p hp hposted _ _ hsubmits row hrow htask hkey hsettled
    · obtain ⟨a, ha, hatask, hakey, -⟩ := hc.row hreserved
      exact absurd (hakey.trans hkey.symm) (hfirst a ha (hatask.trans htask.symm))
  | updateRun u =>
    subst hop
    obtain hrow | ⟨a, ha, hatask, harun, rfl⟩ := mem_perform_updateRun hrow
    · exact ht.fresh p hp hposted _ _ hsubmits row hrow htask hkey hsettled
    · -- the update is of the envelope, so it is the submission that has posted
      have hne : u.outcome ≠ .UNKNOWN := hsettled
      obtain ⟨⟨key₁, hreserved₁⟩, hdelta⟩ := hlawful.update u rfl
      obtain ⟨b, hb, hbtask, hbkey, hbrun⟩ := hc.row hreserved₁
      have hab : a = b := Table.unique_of_mem (i := fun r => some (r.task_name, r.run_id))
        (by simp [runIndexes]) ha hb (by simp) (by rw [hatask, harun, hbtask, hbrun])
      subst hab
      have hsubmits₁ : Submits c.log t task' key' := by
        have hsame := Underway.submits hreserved₁
        rw [← hbtask, ← hbkey] at hsame
        have htask : a.task_name = task' := htask
        have hkey : a.envelope_key = key' := hkey
        rwa [htask, hkey] at hsame
      have hthread := ((hcall.update u rfl hne _ _ hsubmits₁).2 p hp hposted hsubmits)
      have hmine : p ∈ c.trace t := by
        have hself := mem_trace_self hp
        rwa [hthread] at hself
      exact (hdelta ⟨p, hmine, hposted⟩ fun p hp => hallowed p (List.mem_filter.1 hp).1).resolve_left hne
  | _ =>
    have hruns : ((machine P).perform ch op c.world).2.runs = c.world.runs :=
      runs_perform (by simp [hop]) (by simp [hop])
    exact ht.fresh p hp hposted _ _ hsubmits row (hruns ▸ hrow) htask hkey hsettled

/-- What an update that has settled a run leaves in its row. -/
theorem settled_after (hk : k.before = c.world) (hlawful : Lawful P (c.trace k.thread) k)
    (hcall : Accountable P c.log k) {k' : Call Op World Choice} (hk' : k' ∈ k :: c.log) {u : RunUpdate}
    (hsettles : Settles k' u) {task key : String} (hsubmits : Submits c.log k'.thread task key) :
    ∃ row ∈ ((machine P).after k).runs, row.task_name = task ∧ row.envelope_key = key ∧
      row.outcome = u.outcome ∧ row.fresh_delta_count = u.fresh_delta_count := by
  obtain rfl | hk' := List.mem_cons.1 hk'
  · obtain ⟨t, op, ch, w⟩ := k'
    obtain rfl : w = c.world := hk
    obtain ⟨hop, hfault, hne⟩ := hsettles
    obtain rfl : op = .updateRun u := hop
    obtain ⟨⟨key₁, hreserved⟩, -⟩ := hlawful.update u rfl
    obtain ⟨htask, rfl⟩ := hc.envelope_eq hsubmits hreserved
    obtain ⟨row, hrow, hrtask, hrkey, hrrun⟩ := hc.row hreserved
    have hunsettled := (hcall.update u rfl hne _ _ hsubmits).1 row hrow (hrtask.trans htask) hrkey
    have happlies : u.applies row = true := decide_eq_true ⟨hrtask, hrrun, hunsettled⟩
    have hfault' : ch.fault = .none := hfault
    have hafter : (machine P).after ⟨t, .updateRun u, ch, c.world⟩ = c.world.updateRun u := by
      simp [Machine.after, machine, perform, hfault', Fault.statement]
    refine ⟨u.apply row, ?_, hrtask.trans htask, hrkey, rfl, rfl⟩
    rw [hafter]
    exact mem_updateRun.2 ⟨row, hrow, if_pos happlies⟩
  · obtain ⟨row, hrow, htask, hkey, hout, hfresh⟩ := ht.settled k' hk' u hsettles task key hsubmits
    have hkept := runsKept_perform P k.choice k.op k.before
    rw [hk] at hkept
    refine ⟨row, ?_, htask, hkey, hout, hfresh⟩
    have hmem := hkept.settled row hrow fun hunknown => hsettles.2.2 (hout.symm.trans hunknown)
    rwa [Machine.after, hk]

end Step

/-- One step of a submission keeps the account. -/
theorem Tallied.step {c' : Config Thrown Op Res World Choice RunEnvelopeReceipt} {k : Call Op World Choice}
    (ht : Tallied c) (hc : Underway P c) (hc' : Underway P c') (hk : k.before = c.world)
    (hworld : c'.world = (machine P).after k) (hlog : c'.log = k :: c.log)
    (haccount : Along (Accountable P) c'.log) : Tallied c' := by
  rw [hlog] at haccount
  obtain ⟨hcall, hpast⟩ := along_cons.1 haccount
  have htrace : c'.trace k.thread = k :: c.trace k.thread := by
    rw [Config.trace, hlog, List.filter_cons_of_pos (by simp)]
    rfl
  have hlawful : Lawful P (c.trace k.thread) k := by
    have hall := hc'.lawful k.thread
    rw [htrace] at hall
    exact (along_cons.1 hall).1
  have hsub : ∀ t, c.trace t ⊆ c'.trace t := by
    intro t p hp
    obtain ⟨hp, ht⟩ := List.mem_filter.1 hp
    exact List.mem_filter.2 ⟨hlog ▸ List.mem_cons_of_mem k hp, ht⟩
  -- a submission that has posted or updated had read its row before
  have hold : ∀ {t : ℕ} {task key task' key' runId : String}, Submits c'.log t task key →
      Reserved (c.trace t) task' key' runId → Submits c.log t task key := by
    intro t task key task' key' runId hsubmits hreserved
    obtain ⟨rfl, rfl⟩ := hc'.envelope_eq hsubmits (hreserved.mono (hsub t))
    exact Underway.submits hreserved
  refine ⟨fun p hp hposted task key hsubmits row hrow htask hkey hsettled => ?_,
    fun k' hk' u hsettles task key hsubmits => ?_⟩
  · rw [hlog] at hp
    rw [hworld] at hrow
    have hreserved : ∃ task key runId, Reserved (c.trace p.thread) task key runId := by
      obtain rfl | hp := List.mem_cons.1 hp
      · exact hlawful.post hposted.1
      · exact hc.reserved_of_posted hp hposted
    obtain ⟨task', key', runId, hreserved⟩ := hreserved
    exact fresh_after hc ht hk hlawful (not_disowned_of_along hpast) hcall hp hposted
      (hold hsubmits hreserved) hrow htask hkey hsettled
  · rw [hlog] at hk'
    have hreserved : ∃ key, Reserved (c.trace k'.thread) u.task_name key u.run_id := by
      obtain rfl | hk' := List.mem_cons.1 hk'
      · exact (hlawful.update u hsettles.1).1
      · exact hc.reserved_of_update hk' hsettles.1
    obtain ⟨key', hreserved⟩ := hreserved
    rw [hworld]
    exact settled_after hc ht hk hlawful hcall hk' hsettles (hold hsubmits hreserved)

end Run

section Every

variable (P : Runtime) (inputs : List EnvelopeInput) (w : World)

theorem underway_exec (es : List (ℕ × Choice)) :
    Underway P ((machine P).exec (Config.start w (submissions P inputs)) es) := by
  obtain ⟨c, hc⟩ : ∃ c, (machine P).exec (Config.start w (submissions P inputs)) es = c := ⟨_, rfl⟩
  have hthread : ∀ t, (∃ task key, ∀ k ∈ c.trace t, k.op.readsOnly task key) ∧
      Along (Lawful P) (c.trace t) := by
    intro t
    cases hinput : inputs[t]? with
    | none =>
      rw [← hc, trace_of_none es hinput]
      exact ⟨⟨"", "", by simp⟩, .nil⟩
    | some input =>
      -- the submission is let go on until it ends
      obtain ⟨es', r, hr, later, hlater⟩ := Machine.exists_exec_halt (M := machine P)
        ⟨"", "", .error .raw, .none, .lost, false⟩ c t
      rw [← hc, ← Machine.exec_append] at hr hlater
      have h := Machine.completes_exec (es ++ es') hr
      rw [submissions, hinput] at h
      have hsubmitted := submitted_processRunEnvelope h
      obtain ⟨task, key, hreads⟩ := hsubmitted.envelope
      have hlawful := hsubmitted.lawful
      rw [List.reverse_reverse, hlater, hc] at hlawful
      refine ⟨⟨task, key, fun k hk => hreads k (List.mem_reverse.2 ?_)⟩, hlawful.of_append⟩
      rw [hlater, hc]
      exact List.mem_append_right _ hk
  rw [hc]
  refine ⟨fun t => (hthread t).1, fun t => (hthread t).2, fun k hk row hrow => ?_⟩
  rw [← hc] at hk ⊢
  exact run_at_end es hk hrow

theorem tallied_exec (es : List (ℕ × Choice))
    (h : Along (Accountable P) ((machine P).exec (Config.start w (submissions P inputs)) es).log) :
    Tallied ((machine P).exec (Config.start w (submissions P inputs)) es) := by
  induction es using List.reverseRecOn with
  | nil =>
    exact ⟨fun p hp => absurd hp List.not_mem_nil, fun k hk => absurd hk List.not_mem_nil⟩
  | append_singleton es e ih =>
    have hc := underway_exec P inputs w es
    have hc' := underway_exec P inputs w (es ++ [e])
    rw [Machine.exec_append] at h hc' ⊢
    rcases Machine.step_cases (M := machine P)
      ((machine P).exec (Config.start w (submissions P inputs)) es) e with hs | ⟨op, next, -, hs⟩
    · rw [Machine.exec_cons, Machine.exec_nil, hs] at h ⊢
      exact ih h
    · rw [Machine.exec_cons, Machine.exec_nil] at h hc' ⊢
      have hpast := h
      rw [hs] at hpast
      exact (ih (along_cons.1 hpast).2).step
        (k := ⟨e.1, op, e.2, ((machine P).exec (Config.start w (submissions P inputs)) es).world⟩)
        hc hc' rfl (by rw [hs]; rfl) (by rw [hs]) h

end Every

/-! ## A crash before the row is updated -/

/-- A morning's runtime, with the SHA-256 digests of the observation's identity and of its batch. -/
def morningRuntime : Runtime :=
  { slotRuntime with
    sha256Hex := fun text =>
      if text = (Submission.marketIdentity slotObservation).rebuiltText then
        "fd1b7ce3e4215e3fb6e28c1f1e529e8eeee98a028b938c2b6c8a50cb3ac24992"
      else "d7dad41ddf4c32d340e029427580c0b3ae52febfcb0a9939edd8898c46d07b09" }

/-- The 09:50 observation, submitted by the holding assistant. -/
def morningEnvelope : EnvelopeInput where
  token := "t"
  envelope := .obj [("task_name", .str "holding-assistant-intraday"), ("summary", .str "checkpoint"),
    ("channel_payload", slotObservation)]
  resolver := true
  collectorBuildSha := none
  cloudflareVersionId := none
  now := some "2026-09-30T01:50:00.000Z"
  requestId := some "r1"

/-- The only submission there is: GitHub accepts its POST and answers with a body that is not JSON. -/
def aloneRun : List (ℕ × Choice) :=
  List.replicate 13 (0, calmChoice) ++ [(0, unreadableChoice)] ++ List.replicate 6 (0, calmChoice)

def unsettled (w : World) : Bool :=
  w.runs.rows.all fun row => decide (row.outcome = .UNKNOWN)

/-- A call of the only submission that keeps the account. -/
def keepsAlone (P : Runtime) (k : Call Op World Choice) : Bool :=
  decide (k.thread = 0) && match k.op with
    | .updateRun _ => unsettled k.before
    | .fetch (.create l body) => unsettled k.before &&
      match k.choice.response P k.before (.create l body) with
      | .ok response => decide (response.status ≠ 401 ∧ response.status ≠ 403)
      | .error _ => true
    | _ => true

theorem unsettled_of {w : World} (h : unsettled w = true) (task key : String) : Unsettled w task key :=
  fun row hrow _ _ => of_decide_eq_true (List.all_eq_true.1 h row hrow)

theorem accountable_of_alone {P : Runtime} {past : List (Call Op World Choice)} {k : Call Op World Choice}
    (hpast : ∀ p ∈ past, p.thread = 0) (h : keepsAlone P k = true) : Accountable P past k := by
  obtain ⟨hthread, hcall⟩ := Bool.and_eq_true_iff.1 h
  have hthread : k.thread = 0 := of_decide_eq_true hthread
  refine ⟨fun u hop _ task key _ => ?_, fun hposted => ?_⟩
  · rw [hop] at hcall
    exact ⟨unsettled_of hcall task key, fun p hp _ _ => (hpast p hp).trans hthread.symm⟩
  · obtain ⟨l, body, hop⟩ : ∃ l body, k.op = .fetch (.create l body) := by
      have hposts := hposted.1
      cases hop : k.op with
      | fetch request =>
        cases request with
        | create l body => exact ⟨l, body, rfl⟩
        | _ =>
          rw [hop] at hposts
          cases hposts
      | _ =>
        rw [hop] at hposts
        cases hposts
    rw [hop] at hcall
    obtain ⟨hunsettled, hanswer⟩ := Bool.and_eq_true_iff.1 hcall
    refine ⟨?_, fun task key _ => unsettled_of hunsettled task key⟩
    rintro ⟨-, l', body', response, hop', hresponse, hstatus⟩
    obtain ⟨rfl, rfl⟩ : l = l' ∧ body = body' := by
      rw [hop] at hop'
      cases hop'
      exact ⟨rfl, rfl⟩
    rw [hresponse] at hanswer
    have hallowed := of_decide_eq_true hanswer
    exact hstatus.elim hallowed.1 hallowed.2

theorem along_accountable_of_alone {P : Runtime} {log : List (Call Op World Choice)}
    (h : log.all (keepsAlone P) = true) : Along (Accountable P) log := by
  induction log with
  | nil => exact .nil
  | cons k log ih =>
    obtain ⟨hk, hlog⟩ := Bool.and_eq_true_iff.1 (List.all_cons ▸ h)
    refine .cons (accountable_of_alone (fun p hp => ?_) hk) (ih hlog)
    exact of_decide_eq_true (Bool.and_eq_true_iff.1 (List.all_eq_true.1 hlog p hp)).1

/-- The envelope once more, when the lease of the first submission has run out. -/
def laterEnvelope : EnvelopeInput :=
  { morningEnvelope with
    now := some "2026-09-30T01:55:00.000Z"
    requestId := some "r2" }

/-- GitHub no longer takes the token. -/
def deniedChoice : Choice :=
  { calmChoice with http := .respond ⟨401, none, none⟩ }

/-- The second submission has read the empty ledger before the first one's comment is created. The first
stops there, and the second is refused when it reads the ledger again. -/
def crashedRun : List (ℕ × Choice) :=
  List.replicate 13 (0, calmChoice) ++ List.replicate 7 (1, calmChoice) ++ [(0, calmChoice)] ++
    List.replicate 4 (1, calmChoice) ++ [(1, deniedChoice)] ++ List.replicate 5 (1, calmChoice)

def Op.readsRow (op : Op) (task key : String) : Bool :=
  match op with
  | .selectRun task' key' => decide (task' = task ∧ key' = key)
  | _ => false

theorem Op.readsRow_eq {op : Op} {task key : String} (h : op.readsRow task key = true) :
    op = .selectRun task key := by
  cases op with
  | selectRun task' key' =>
    obtain ⟨rfl, rfl⟩ := of_decide_eq_true h
    rfl
  | _ => cases h

/-- A row is settled as `FAILED` though a submission of its envelope has created a comment. -/
def forgets (c : Config Thrown Op Res World Choice RunEnvelopeReceipt) : Bool :=
  c.world.runs.rows.any fun row => decide (row.outcome = .FAILED) && c.log.any fun p =>
    decide (Posted p) && c.log.any fun k =>
      decide (k.thread = p.thread) && k.op.readsRow row.task_name row.envelope_key

theorem not_accounting_of_forgets {c : Config Thrown Op Res World Choice RunEnvelopeReceipt}
    (h : forgets c = true) : ¬ RunAccounting c := by
  simp only [forgets, List.any_eq_true, Bool.and_eq_true, decide_eq_true_eq] at h
  obtain ⟨row, hrow, hfailed, p, hp, hposted, k, hk, hthread, hreads⟩ := h
  intro haccount
  obtain ⟨hcompleted, -⟩ := haccount.fresh p hp hposted _ _ ⟨k, hk, hthread, Op.readsRow_eq hreads⟩ row hrow
    rfl rfl (by rw [hfailed]; decide)
  cases hfailed.symm.trans hcompleted

end QuantproCollector.StateGateway
