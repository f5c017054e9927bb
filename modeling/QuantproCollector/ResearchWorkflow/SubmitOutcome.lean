import QuantproCollector.ResearchWorkflow.Fencing

/-!
# The answers of a submission

A submission that loses the answer of its batch re-reads the row of its idempotency key, and takes
"there is no row" and "the row could not be read" for the success of the batch. `truthful_iff` says
for every run, every fault and every interference of other callers when the answer is nevertheless
true (`Truthful`): unless

* the synthetic batch did not commit and the re-read found nothing (`SyntheticUnstored`), which is
  answered `ACCEPTED_SYNTHETIC`, or
* the formal batch committed, its answer was lost and the re-read failed (`FormalUnseen`), which is
  answered `REJECTED`.

The proof follows one submission against the interference `Grows`: proposals and terminal rows are
never removed. Up to its accept batch a submission performs only `Plain` calls, which store no
accepted result; `resolveProposalRace_ensures` gives what the re-read can find.
-/

namespace QuantproCollector.ResearchWorkflow

open Relational Async

/-! ## What never goes away -/

/-- Proposals and terminal rows stay. -/
def Grows (w w' : Db) : Prop :=
  (∀ p ∈ w.proposals, p ∈ w'.proposals) ∧ ∀ r ∈ w.terminal, r ∈ w'.terminal

theorem Grows.refl (w : Db) : Grows w w := ⟨fun _ h => h, fun _ h => h⟩

theorem Grows.trans {u v w : Db} (h : Grows u v) (h' : Grows v w) : Grows u w :=
  ⟨fun p hp => h'.1 p (h.1 p hp), fun r hr => h'.2 r (h.2 r hr)⟩

theorem preempt_grows {db db' : Db} {l : LeaseRow} {n : ℕ} (h : db.preempt l = some (db', n)) :
    Grows db db' := by
  unfold Db.preempt at h
  split_ifs at h
  · cases h
    exact Grows.refl db
  · split at h
    · obtain ⟨ls, -, heq⟩ := Option.map_eq_some_iff.1 h
      cases heq
      exact ⟨fun _ h => h, fun _ h => h⟩
    · split_ifs at h
      · obtain ⟨ls, -, heq⟩ := Option.map_eq_some_iff.1 h
        cases heq
        exact ⟨fun _ h => h, fun _ h => h⟩
      · cases h
        exact Grows.refl db

theorem insertProposal_grows {db db' : Db} {p : ProposalRow} {n : ℕ}
    (h : db.insertProposal p = some (db', n)) : Grows db db' := by
  obtain ⟨ps, hps, rfl⟩ := insertProposal_eq h
  exact ⟨fun q hq => (Table.mem_insert? hps).2 (.inl hq), fun _ h => h⟩

theorem insertTerminal_grows {db db' : Db} {r : TerminalRow} {n : ℕ}
    (h : db.insertTerminal r = some (db', n)) : Grows db db' := by
  obtain ⟨ts, hts, rfl⟩ := insertTerminal_eq h
  exact ⟨fun _ h => h, fun q hq => (Table.mem_insert? hts).2 (.inl hq)⟩

/-- No statement removes a proposal or a terminal row. -/
theorem exec_grows {db db' : Db} {s : Statement} {n : ℕ} (h : db.exec s = some (db', n)) :
    Grows db db' := by
  have same : some (db, 0) = some (db', n) → Grows db db' := by
    intro h
    cases h
    exact Grows.refl db
  have event : (∃ es, db' = { db with events := es }) → Grows db db' := by
    rintro ⟨es, rfl⟩
    exact ⟨fun _ h => h, fun _ h => h⟩
  cases s with
  | insertEvent e => exact event (exec_event h (.inl ⟨_, rfl⟩))
  | insertExpiredEvent => exact event (exec_event h (.inr (.inl ⟨_, _, _, _, rfl⟩)))
  | preempt l => exact preempt_grows h
  | insertClaimedEvent => exact event (exec_event h (.inr (.inr (.inl ⟨_, _, _, _, _, _, rfl⟩))))
  | insertProposal p => exact insertProposal_grows h
  | insertFencedProposal p f =>
    simp only [Db.exec] at h
    split_ifs at h
    · exact insertProposal_grows h
    · exact same h
  | insertFencedTerminal r f =>
    simp only [Db.exec] at h
    split_ifs at h
    · exact insertTerminal_grows h
    · exact same h
  | deleteLease j =>
    cases h
    exact ⟨fun _ h => h, fun _ h => h⟩
  | deleteFencedLease f =>
    cases h
    exact ⟨fun _ h => h, fun _ h => h⟩
  | insertCompletionEvent => exact event (exec_event h (.inr (.inr (.inr ⟨_, _, _, rfl⟩))))
  | insertFencedDeferral d f =>
    simp only [Db.exec] at h
    split_ifs at h
    · obtain ⟨ds, -, rfl⟩ := insertDeferral_eq h
      exact ⟨fun _ h => h, fun _ h => h⟩
    · exact same h

theorem runBatch_grows {ss : List Statement} {db db' : Db} {ns : List ℕ}
    (h : runBatch ss db = some (db', ns)) : Grows db db' := by
  induction ss generalizing db ns with
  | nil =>
    obtain ⟨rfl, -⟩ := runBatch_nil.1 h
    exact Grows.refl db
  | cons s ss ih =>
    obtain ⟨d, n, ns', hs, hss, -⟩ := runBatch_cons.1 h
    exact (exec_grows hs).trans (ih hss)

theorem perform_grows (ch : Choice) (op : Op) (db : Db) :
    Grows db (machine.perform ch op db).2 := by
  by_cases hop : ∀ ss, op ≠ .batch ss
  · rw [perform_read hop]
    exact Grows.refl db
  · obtain ⟨ss, rfl⟩ := not_forall_not.1 hop
    by_cases hc : Commits ch ss db
    · obtain ⟨ns, h⟩ := perform_commits hc
      exact runBatch_grows h
    · rw [perform_not_commits hc]
      exact Grows.refl db

/-! ## Truthful answers -/

/-- A received proposal with the id is stored. -/
def StoredReceived (w : Db) (proposalId : String) : Prop :=
  ∃ p ∈ w.proposals, p.proposalId = proposalId ∧ p.status = .RECEIVED

instance (w : Db) (proposalId : String) : Decidable (StoredReceived w proposalId) :=
  inferInstanceAs (Decidable (∃ p ∈ w.proposals.rows, _))

/-- The call stores a received proposal. -/
def StoresReceived (k : Call Op Db Choice) : Prop :=
  ∃ p ∈ (machine.after k).proposals, ¬ p ∈ k.before.proposals ∧ p.status = .RECEIVED

instance (k : Call Op Db Choice) : Decidable (StoresReceived k) :=
  inferInstanceAs (Decidable (∃ p ∈ (machine.after k).proposals.rows,
    ¬ p ∈ k.before.proposals.rows ∧ _))

/-- What an answer says of the store `w` and of the submission's own calls. -/
def Truthful (w : Db) (tr : List (Call Op Db Choice)) : SubmitOutcome → Prop
  | .ACCEPTED jobId proposalId _ => StoredReceived w proposalId ∧
      ∃ r ∈ w.terminal, r.jobId = jobId ∧ r.proposalId = proposalId
  | .ACCEPTED_SYNTHETIC _ proposalId _ => StoredReceived w proposalId
  | .IDEMPOTENT_REPLAY _ proposalId _ _ => StoredReceived w proposalId
  | .REJECTED _ _ _ _ => ∀ k ∈ tr, ¬ StoresReceived k

instance (w : Db) (tr : List (Call Op Db Choice)) : ∀ o, Decidable (Truthful w tr o)
  | .ACCEPTED _ _ _ => inferInstanceAs (Decidable (_ ∧ ∃ r ∈ w.terminal.rows, _))
  | .ACCEPTED_SYNTHETIC _ _ _ => inferInstanceAs (Decidable (StoredReceived _ _))
  | .IDEMPOTENT_REPLAY _ _ _ _ => inferInstanceAs (Decidable (StoredReceived _ _))
  | .REJECTED _ _ _ _ => inferInstanceAs (Decidable (∀ k ∈ tr, _))

/-- The call reads the row of the key and does not get one. -/
def Unread (key : String) (k : Call Op Db Choice) : Prop :=
  k.op = .selectProposalByIdempotencyKey key ∧
    (k.choice.fault ≠ .none ∨ ∀ p ∈ k.before.proposals, p.idempotencyKey ≠ key)

/-- The synthetic batch did not commit, the last call is a re-read that got no row, and the drawn
proposal id belongs to no received proposal of another submission either. -/
def SyntheticUnstored (tr : List (Call Op Db Choice)) (w : Db) : Prop :=
  ∃ k ∈ tr, ∃ row event, k.op = .batch (syntheticBatch row event) ∧
    ¬ Commits k.choice (syntheticBatch row event) k.before ∧
    (∃ read, tr.head? = some read ∧ Unread row.idempotencyKey read) ∧
    ¬ StoredReceived w row.proposalId

/-- The formal batch committed under its lease, its answer was lost, and so was a read of the
idempotency row. -/
def FormalUnseen (tr : List (Call Op Db Choice)) : Prop :=
  ∃ k ∈ tr, ∃ row f received completed, k.op = .batch (formalBatch row f received completed) ∧
    Commits k.choice (formalBatch row f received completed) k.before ∧
    k.before.fenceHolds f = true ∧ k.choice.fault = .lostAfter ∧
    ∃ read ∈ tr, read.op = .selectProposalByIdempotencyKey row.idempotencyKey ∧
      read.choice.fault ≠ .none

/-- The answer is truthful exactly when neither of the two lost batches is in the calls. -/
def Answered (r : Except Raised SubmitOutcome) (tr : List (Call Op Db Choice)) (w : Db) : Prop :=
  match r with
  | .error _ => True
  | .ok outcome => Truthful w tr outcome ↔ ¬ SyntheticUnstored tr w ∧ ¬ FormalUnseen tr

/-! ## Plain calls -/

/-- The call stores no received proposal, and is no accept batch. -/
structure Plain (k : Call Op Db Choice) : Prop where
  stores : ¬ StoresReceived k
  synthetic : ∀ row event, k.op ≠ .batch (syntheticBatch row event)
  formal : ∀ row f received completed, k.op ≠ .batch (formalBatch row f received completed)

theorem not_storesReceived_of_after {k : Call Op Db Choice} (h : machine.after k = k.before) :
    ¬ StoresReceived k := by
  rintro ⟨p, hp, hnew, -⟩
  rw [h] at hp
  exact hnew hp

theorem plain_read {k : Call Op Db Choice} (h : ∀ ss, k.op ≠ .batch ss) : Plain k :=
  ⟨not_storesReceived_of_after (perform_read h k.choice k.before), fun _ _ => h _,
    fun _ _ _ _ => h _⟩

theorem plain_event {t : ℕ} {e : EventRow} {ch : Choice} {w : Db} :
    Plain ⟨t, .batch [.insertEvent e], ch, w⟩ := by
  refine ⟨?_, by simp [syntheticBatch], by simp [formalBatch]⟩
  by_cases hc : Commits ch [.insertEvent e] w
  · obtain ⟨ns, h⟩ := perform_commits hc
    obtain ⟨es, heq⟩ := runBatch_event h
    rintro ⟨p, hp, hnew, -⟩
    exact hnew (by simpa [Machine.after, heq] using hp)
  · exact not_storesReceived_of_after (by rw [Machine.after, perform_not_commits hc])

theorem plain_reject {t : ℕ} {row : ProposalRow} {e : EventRow} {ch : Choice} {w : Db}
    (hrow : row.status = .REJECTED) : Plain ⟨t, .batch (rejectBatch row e), ch, w⟩ := by
  refine ⟨?_, by simp [syntheticBatch, rejectBatch], by simp [formalBatch, rejectBatch]⟩
  by_cases hc : Commits ch (rejectBatch row e) w
  · obtain ⟨ns, h⟩ := perform_commits hc
    obtain ⟨ps, es, hps, heq⟩ := runBatch_reject h
    rintro ⟨p, hp, hnew, hstatus⟩
    rw [Machine.after, heq] at hp
    rcases (Table.mem_insert? hps).1 hp with hp | rfl
    · exact hnew hp
    · exact absurd hstatus (by simp [hrow])
  · exact not_storesReceived_of_after (by rw [Machine.after, perform_not_commits hc])

/-- Among plain calls there is no accept batch to be lost. -/
theorem answered_of_plain {tr : List (Call Op Db Choice)} {w : Db} {o : SubmitOutcome}
    (htr : ∀ k ∈ tr, Plain k) (ho : Truthful w tr o) : Answered (.ok o) tr w := by
  refine ⟨fun _ => ⟨?_, ?_⟩, fun _ => ho⟩
  · rintro ⟨k, hk, row, event, hop, -⟩
    exact (htr k hk).synthetic row event hop
  · rintro ⟨k, hk, row, f, received, completed, hop, -⟩
    exact (htr k hk).formal row f received completed hop

/-! ## Rules for the programs -/

variable {t : ℕ} {α : Type} {Q : Except Raised α → List (Call Op Db Choice) → Db → Prop}
  {tr : List (Call Op Db Choice)} {w : Db}

/-- A read that can fail continues with what it finds, or raises. -/
theorem ensures_read {op : Op} {found : Db → Res op}
    (hop : ∀ ch db, machine.perform ch op db = Choice.read ch db (found db))
    {f : Res op → Query α} (herr : ∀ e tr w, Q (.error e) tr w)
    (h : ∀ w' ch, Grows w w' → ch.fault = .none →
      machine.Ensures t Grows Q (f (found w')) (⟨t, op, ch, w'⟩ :: tr) w') :
    machine.Ensures t Grows Q (Script.perform op >>= f) tr w := by
  intro w' hw' ch
  simp only [hop, Choice.read]
  split_ifs with hfault
  · exact h w' ch hw' hfault
  · exact fun _ _ => herr _ _ _

theorem ensures_hex {f : String → Query α}
    (h : ∀ hex w' ch, Grows w w' →
      machine.Ensures t Grows Q (f hex) (⟨t, .randomHex32, ch, w'⟩ :: tr) w') :
    machine.Ensures t Grows Q (randomHex32 >>= f) tr w :=
  fun w' hw' ch => h ch.hex w' ch hw'

theorem ensures_pure {a : α} (h : ∀ w', Grows w w' → Q (.ok a) tr w') :
    machine.Ensures t Grows Q (pure a) tr w := h

/-- A batch continues where it commits and its answer arrives, and raises otherwise. -/
theorem ensures_batch {ss : List Statement} {f : List ℕ → Query α}
    (hok : ∀ w' ch ns, Grows w w' → ch.fault = .none → Commits ch ss w' →
      machine.Ensures t Grows Q (f ns) (⟨t, .batch ss, ch, w'⟩ :: tr)
        (machine.perform ch (.batch ss) w').2)
    (herr : ∀ w' ch w'', Grows w w' → (Commits ch ss w' → ch.fault = .lostAfter) →
      Grows (machine.perform ch (.batch ss) w').2 w'' →
      Q (.error .store) (⟨t, .batch ss, ch, w'⟩ :: tr) w'') :
    machine.Ensures t Grows Q (batch ss >>= f) tr w := by
  intro w' hw' ch
  have hans : (machine.perform ch (.batch ss) w').1 = .error .store ∧
        (Commits ch ss w' → ch.fault = .lostAfter) ∨
      ∃ ns, (machine.perform ch (.batch ss) w').1 = .ok ns ∧ ch.fault = .none ∧
        Commits ch ss w' := by
    by_cases hc : Commits ch ss w'
    · obtain ⟨hbefore, hsome⟩ := hc
      obtain ⟨⟨d, ns⟩, hd⟩ := Option.isSome_iff_exists.1 hsome
      cases hfault : ch.fault with
      | lostBefore => exact absurd hfault hbefore
      | none => exact .inr ⟨ns, by simp [machine, perform, Choice.write, hfault, hd], rfl,
          hbefore, hsome⟩
      | lostAfter => exact .inl ⟨by simp [machine, perform, Choice.write, hfault, hd], fun _ => rfl⟩
    · exact .inl ⟨by rw [perform_not_commits hc], fun h => absurd h hc⟩
  rcases hans with ⟨hans, hlost⟩ | ⟨ns, hans, hfault, hc⟩
  · simp only [Script.bind, hans]
    exact fun w'' hw'' => herr w' ch w'' hw' hlost hw''
  · simp only [Script.bind, hans]
    exact hok w' ch ns hw' hfault hc

/-- Recording a conflict ends in plain calls, whatever becomes of the request. -/
theorem ensures_writeConflictEvent {r : Race} {p : String}
    {Q : Except Raised Unit → List (Call Op Db Choice) → Db → Prop}
    (h : ∀ res last draw w', Grows w w' → Plain last → Plain draw →
      (∀ key, last.op ≠ .selectProposalByIdempotencyKey key) →
      (∀ key, draw.op ≠ .selectProposalByIdempotencyKey key) → Q res (last :: draw :: tr) w') :
    machine.Ensures t Grows Q (writeConflictEvent r p) tr w := by
  simp only [writeConflictEvent, eventRow, bind_assoc, pure_bind]
  refine ensures_hex fun hex w₁ ch₁ hw₁ => ensures_batch ?_ ?_
  · intro w₂ ch₂ ns hw₂ _ _ w₃ hw₃
    exact h _ _ _ w₃ (hw₁.trans (hw₂.trans ((perform_grows _ _ _).trans hw₃))) plain_event
      (plain_read (by simp)) (by simp) (by simp)
  · intro w₂ ch₂ w₃ hw₂ _ hw₃
    exact h _ _ _ w₃ (hw₁.trans (hw₂.trans ((perform_grows _ _ _).trans hw₃))) plain_event
      (plain_read (by simp)) (by simp) (by simp)

/-- The verdict on the row that the re-read found. -/
def Verdict (r : Race) (row : ProposalRow) (o : SubmitOutcome) : Prop :=
  outcomeForExistingProposal row r = some o ∨
    outcomeForExistingProposal row r = none ∧ o = r.rejected .CONFLICT none

/-- **The re-read.** It gets no row and resolves nothing; or it gets the row of the key, resolves
the submission by the verdict on it, and has performed plain calls only. -/
theorem resolveProposalRace_ensures {r : Race}
    {Q : Except Raised (Option SubmitOutcome) → List (Call Op Db Choice) → Db → Prop}
    (herr : ∀ e tr w, Q (.error e) tr w)
    (hnone : ∀ ch w₁ w₂, Grows w w₁ → Grows w₁ w₂ →
      Unread r.idempotencyKey ⟨t, .selectProposalByIdempotencyKey r.idempotencyKey, ch, w₁⟩ →
      Q (.ok none) (⟨t, .selectProposalByIdempotencyKey r.idempotencyKey, ch, w₁⟩ :: tr) w₂)
    (hsome : ∀ extra row o w₁ w₂, Grows w w₁ → Grows w₁ w₂ → row ∈ w₁.proposals →
      row.idempotencyKey = r.idempotencyKey → Verdict r row o → (∀ k ∈ extra, Plain k) →
      (∀ k ∈ extra, k.op = .selectProposalByIdempotencyKey r.idempotencyKey →
        k.choice.fault = .none) →
      (∀ read, (extra ++ tr).head? = some read → ¬ Unread r.idempotencyKey read) →
      Q (.ok (some o)) (extra ++ tr) w₂) :
    machine.Ensures t Grows Q (resolveProposalRace r) tr w := by
  unfold resolveProposalRace
  refine Machine.Ensures.bind Grows.refl (Machine.Ensures.tryCatch Grows.refl ?_)
  intro w₁ hw₁ ch
  simp only [machine, perform, Choice.read]
  split_ifs with hfault
  · cases hrow : w₁.proposalByIdempotencyKey? r.idempotencyKey with
    | none =>
      have hnot : ∀ p ∈ w₁.proposals, p.idempotencyKey ≠ r.idempotencyKey := by
        simpa [Db.proposalByIdempotencyKey?] using Table.find?_eq_none.1 hrow
      exact fun w₂ hw₂ w₃ hw₃ => hnone ch w₁ w₃ hw₁ (hw₂.trans hw₃) ⟨rfl, .inr hnot⟩
    | some row =>
      obtain ⟨hmem, hkey⟩ : row ∈ w₁.proposals ∧ row.idempotencyKey = r.idempotencyKey := by
        simpa using Table.mem_of_find? hrow
      have hread : ¬ Unread r.idempotencyKey
          ⟨t, .selectProposalByIdempotencyKey r.idempotencyKey, ch, w₁⟩ := by
        rintro ⟨-, hbad | hbad⟩
        · exact hbad hfault
        · exact hbad row hmem hkey
      intro w₂ hw₂
      simp only
      split
      · rename_i verdict hverdict
        refine fun w₃ hw₃ => hsome [_] row verdict w₁ w₃ hw₁ (hw₂.trans hw₃) hmem hkey
          (.inl hverdict) ?_ ?_ ?_
        · simpa using plain_read (by simp)
        · simpa using hfault
        · rintro read ⟨⟩
          exact hread
      · rename_i hverdict
        refine Machine.Ensures.bind Grows.refl (Machine.Ensures.tryCatch Grows.refl ?_)
        refine ensures_writeConflictEvent fun res last draw w₃ hw₃ hlast hdraw hop hop' => ?_
        cases res with
        | error e => exact fun w₄ _ => herr _ _ _
        | ok _ =>
          refine fun w₄ hw₄ => hsome [last, draw, _] row _ w₁ w₄ hw₁
            (hw₂.trans (hw₃.trans hw₄)) hmem hkey (.inr ⟨hverdict, rfl⟩) ?_ ?_ ?_
          · simp only [List.mem_cons, List.not_mem_nil, or_false]
            rintro k (rfl | rfl | rfl)
            · exact hlast
            · exact hdraw
            · exact plain_read (by simp)
          · simp only [List.mem_cons, List.not_mem_nil, or_false]
            rintro k (rfl | rfl | rfl) hk
            · exact absurd hk (hop _)
            · exact absurd hk (hop' _)
            · exact hfault
          · rintro read ⟨⟩ hread
            exact hop _ hread.1
  · exact fun w₂ hw₂ w₃ hw₃ w₄ hw₄ =>
      hnone ch w₁ w₄ hw₁ (hw₂.trans (hw₃.trans hw₄)) ⟨rfl, .inl hfault⟩

/-! ## The paths of a submission -/

theorem stored_of_mem {w₁ w₂ : Db} {row : ProposalRow} (hrow : row ∈ w₁.proposals)
    (hstatus : row.status = .RECEIVED) (hg : Grows w₁ w₂) : StoredReceived w₂ row.proposalId :=
  ⟨row, hg.1 row hrow, rfl, hstatus⟩

/-- A verdict on a stored row is truthful where no call stored a received proposal. -/
theorem truthful_verdict {r : Race} {row : ProposalRow} {o : SubmitOutcome} {w₁ w₂ : Db}
    {tr : List (Call Op Db Choice)} (hrow : row ∈ w₁.proposals) (hg : Grows w₁ w₂)
    (ho : Verdict r row o) (htr : ∀ k ∈ tr, ¬ StoresReceived k) : Truthful w₂ tr o := by
  rcases ho with ho | ⟨-, rfl⟩
  · unfold outcomeForExistingProposal at ho
    split_ifs at ho with hsha hstatus
    · cases ho
      exact stored_of_mem hrow hstatus hg
    · cases ho
      exact htr
  · exact htr

theorem answered_rejected {r : Race} {reason : SubmitReason} {sub : Option LeaseSubReason}
    {tr : List (Call Op Db Choice)} {w : Db} (htr : ∀ k ∈ tr, Plain k) :
    Answered (.ok (r.rejected reason sub)) tr w :=
  answered_of_plain htr fun k hk => (htr k hk).stores

theorem answered_verdict {r : Race} {row : ProposalRow} {o : SubmitOutcome} {w₁ w₂ : Db}
    {tr : List (Call Op Db Choice)} (htr : ∀ k ∈ tr, Plain k) (hrow : row ∈ w₁.proposals)
    (hg : Grows w₁ w₂) (ho : Verdict r row o) : Answered (.ok o) tr w₂ :=
  answered_of_plain htr (truthful_verdict hrow hg ho fun k hk => (htr k hk).stores)

/-- Refusing a submission. -/
theorem rejectProposal_ensures {r : Race} {origin : ResearchOrigin} {reason : SubmitReason}
    {tag : EventDetail} {sub : Option LeaseSubReason} (htr : ∀ k ∈ tr, Plain k) :
    machine.Ensures t Grows Answered (rejectProposal r origin reason tag sub) tr w := by
  simp only [rejectProposal, eventRow, bind_assoc, pure_bind]
  refine ensures_hex fun hex w₁ ch₁ hw₁ => ensures_hex fun hex' w₂ ch₂ hw₂ => ?_
  have htr₂ : ∀ k ∈ (⟨t, .randomHex32, ch₂, w₂⟩ : Call Op Db Choice) ::
      ⟨t, .randomHex32, ch₁, w₁⟩ :: tr, Plain k :=
    List.forall_mem_cons.2 ⟨plain_read (by simp),
      List.forall_mem_cons.2 ⟨plain_read (by simp), htr⟩⟩
  refine Machine.Ensures.bind Grows.refl (Machine.Ensures.tryCatch Grows.refl (ensures_batch ?_ ?_))
  · intro w₃ ch₃ ns hw₃ _ _ w₄ hw₄ w₅ hw₅
    exact answered_rejected (List.forall_mem_cons.2 ⟨plain_reject rfl, htr₂⟩)
  · intro w₃ ch₃ w₄ hw₃ _ hw₄
    refine resolveProposalRace_ensures (fun _ _ _ => trivial) ?_ ?_
    · intro ch w₅ w₆ _ _ _ w₇ _
      exact answered_rejected (List.forall_mem_cons.2 ⟨plain_read (by simp),
        List.forall_mem_cons.2 ⟨plain_reject rfl, htr₂⟩⟩)
    · intro extra row o w₅ w₆ _ hw₆ hrow _ ho hextra _ _ w₇ hw₇
      exact answered_verdict (List.forall_mem_append.2
        ⟨hextra, List.forall_mem_cons.2 ⟨plain_reject rfl, htr₂⟩⟩) hrow (hw₆.trans hw₇) ho

/-- The accept batch with what it left: a received row of its own, or no received row at all. -/
theorem storesReceived_of_mem {k : Call Op Db Choice} {row : ProposalRow}
    {ps : Table ProposalRow String proposalIndexes}
    (hps : k.before.proposals.insert? row = some ps) (hafter : (machine.after k).proposals = ps)
    (hstatus : row.status = .RECEIVED) :
    row ∈ (machine.after k).proposals ∧ StoresReceived k := by
  have hmem : row ∈ (machine.after k).proposals := by
    rw [hafter]
    exact (Table.mem_insert? hps).2 (.inr rfl)
  refine ⟨hmem, row, hmem, fun hold => ?_, hstatus⟩
  exact (Table.insert?_eq_some hps).2 row hold
    ⟨fun p => some p.proposalId, by simp [proposalIndexes], by simp, rfl⟩

/-- Rows with one idempotency key are one row. -/
theorem proposal_unique {db : Db} {p q : ProposalRow} (hp : p ∈ db.proposals)
    (hq : q ∈ db.proposals) (hkey : p.idempotencyKey = q.idempotencyKey) : p = q :=
  Table.unique_of_mem (i := fun p => some p.idempotencyKey) (by simp [proposalIndexes]) hp hq
    (by simp) (by simp [hkey])

/-- The verdict on the submission's own received row is the replay of it. -/
theorem verdict_own {r : Race} {proposalId : String} {origin : ResearchOrigin} {o : SubmitOutcome}
    (ho : Verdict r (r.row proposalId origin .RECEIVED none) o) :
    o = .IDEMPOTENT_REPLAY r.jobId proposalId r.now r.requestId := by
  rcases ho with ho | ⟨ho, -⟩
  · simpa [outcomeForExistingProposal, Race.row] using ho.symm
  · exact absurd ho (by simp [outcomeForExistingProposal, Race.row])

/-- Accepting a synthetic result. -/
theorem acceptSynthetic_ensures {r : Race} {origin : ResearchOrigin} (htr : ∀ k ∈ tr, Plain k) :
    machine.Ensures t Grows Answered (acceptSynthetic r origin) tr w := by
  simp only [acceptSynthetic, eventRow, bind_assoc, pure_bind]
  refine ensures_hex fun hex w₁ ch₁ hw₁ => ensures_hex fun hex' w₂ ch₂ hw₂ => ?_
  have htr₂ : ∀ k ∈ (⟨t, .randomHex32, ch₂, w₂⟩ : Call Op Db Choice) ::
      ⟨t, .randomHex32, ch₁, w₁⟩ :: tr, Plain k :=
    List.forall_mem_cons.2 ⟨plain_read (by simp),
      List.forall_mem_cons.2 ⟨plain_read (by simp), htr⟩⟩
  generalize (⟨t, .randomHex32, ch₂, w₂⟩ : Call Op Db Choice) ::
    ⟨t, .randomHex32, ch₁, w₁⟩ :: tr = tr₂ at htr₂ ⊢
  generalize hrow : r.row ("prp_" ++ hex) origin .RECEIVED none = row
  generalize hevent : (⟨"evt_" ++ hex', r.jobId, .SUBMIT_RECEIVED, r.callerPrincipal,
    some ("prp_" ++ hex), some origin, ⟨none, none⟩, r.requestId, r.now⟩ : EventRow) = event
  have hid : row.proposalId = "prp_" ++ hex := by rw [← hrow]; rfl
  have hkey : row.idempotencyKey = r.idempotencyKey := by rw [← hrow]; rfl
  have hstatus : row.status = .RECEIVED := by rw [← hrow]; rfl
  -- no call of a trace `extra ++ k :: tr₂` but `k` is an accept batch, and `k` is synthetic
  have hformal : ∀ {extra : List (Call Op Db Choice)} {ch : Choice} {w' : Db},
      (∀ k ∈ extra, Plain k) →
      ¬ FormalUnseen (extra ++ ⟨t, .batch (syntheticBatch row event), ch, w'⟩ :: tr₂) := by
    rintro extra ch w' hextra ⟨k, hk, row', f, a, b, hop, -⟩
    rcases List.mem_append.1 hk with hk | hk
    · exact (hextra k hk).formal _ _ _ _ hop
    · rcases List.mem_cons.1 hk with rfl | hk
      · simp [syntheticBatch, formalBatch] at hop
      · exact (htr₂ k hk).formal _ _ _ _ hop
  have hsynthetic : ∀ {extra : List (Call Op Db Choice)} {ch : Choice} {w' w'' : Db},
      (∀ k ∈ extra, Plain k) →
      SyntheticUnstored (extra ++ ⟨t, .batch (syntheticBatch row event), ch, w'⟩ :: tr₂) w'' →
      ¬ Commits ch (syntheticBatch row event) w' ∧
        (∃ read, (extra ++ ⟨t, .batch (syntheticBatch row event), ch, w'⟩ :: tr₂).head? =
          some read ∧ Unread r.idempotencyKey read) ∧ ¬ StoredReceived w'' ("prp_" ++ hex) := by
    rintro extra ch w' w'' hextra ⟨k, hk, row', event', hop, hc, hread, hstored⟩
    rcases List.mem_append.1 hk with hk | hk
    · exact absurd hop ((hextra k hk).synthetic _ _)
    · rcases List.mem_cons.1 hk with rfl | hk
      · simp only [syntheticBatch, Op.batch.injEq, List.cons.injEq, Statement.insertProposal.injEq,
          Statement.insertEvent.injEq, and_true] at hop
        obtain ⟨rfl, -, rfl⟩ := hop
        rw [hkey] at hread
        rw [hid] at hstored
        exact ⟨hc, hread, hstored⟩
      · exact absurd hop ((htr₂ k hk).synthetic _ _)
  have hown : ∀ {ch : Choice} {w' : Db}, Commits ch (syntheticBatch row event) w' →
      row ∈ (machine.perform ch (.batch (syntheticBatch row event)) w').2.proposals := by
    intro ch w' hc
    obtain ⟨ns, h⟩ := perform_commits hc
    obtain ⟨ps, es, hps, heq⟩ := runBatch_synthetic h
    rw [heq]
    exact (Table.mem_insert? hps).2 (.inr rfl)
  refine Machine.Ensures.bind Grows.refl (Machine.Ensures.tryCatch Grows.refl (ensures_batch ?_ ?_))
  · -- the batch commits and is answered
    intro w₃ ch₃ ns hw₃ _ hc w₄ hw₄ w₅ hw₅
    have hstored : StoredReceived w₅ ("prp_" ++ hex) :=
      hid ▸ stored_of_mem (hown hc) hstatus (hw₄.trans hw₅)
    have hplain : ∀ k ∈ ([] : List (Call Op Db Choice)), Plain k := by simp
    exact ⟨fun _ => ⟨fun h => (hsynthetic hplain h).1 hc, hformal hplain⟩, fun _ => hstored⟩
  · intro w₃ ch₃ w₄ hw₃ _ hw₄
    refine resolveProposalRace_ensures (fun _ _ _ => trivial) ?_ ?_
    · -- the re-read gets no row: the answer is right where the row is stored
      intro ch w₅ w₆ hw₅ hw₆ hread w₇ hw₇
      have hplain : ∀ k ∈ [(⟨t, .selectProposalByIdempotencyKey r.idempotencyKey, ch, w₅⟩ :
          Call Op Db Choice)], Plain k := by
        simpa using plain_read (by simp)
      constructor
      · exact fun hstored => ⟨fun h => (hsynthetic hplain h).2.2 hstored, hformal hplain⟩
      · rintro ⟨hnot, -⟩
        by_cases hc : Commits ch₃ (syntheticBatch row event) w₃
        · exact hid ▸ stored_of_mem (hown hc) hstatus
            (hw₄.trans (hw₅.trans (hw₆.trans hw₇)))
        · by_contra hstored
          refine hnot ⟨_, List.mem_cons_of_mem _ List.mem_cons_self, row, event, rfl, hc,
            ⟨_, rfl, hkey ▸ hread⟩, ?_⟩
          rw [hid]
          exact hstored
    · -- the re-read gets a row: the submission's own one if the batch committed
      intro extra row' o w₅ w₆ hw₅ hw₆ hrow' hkey' ho hextra _ hhead w₇ hw₇
      refine ⟨fun _ => ⟨fun h => ?_, hformal hextra⟩, fun _ => ?_⟩
      · obtain ⟨-, ⟨read, hread, hunread⟩, -⟩ := hsynthetic hextra h
        exact hhead read hread hunread
      · by_cases hc : Commits ch₃ (syntheticBatch row event) w₃
        · have hrow₅ := (hw₄.trans hw₅).1 row (hown hc)
          rw [proposal_unique hrow' hrow₅ (hkey'.trans hkey.symm), ← hrow] at ho
          rw [verdict_own ho]
          exact hid ▸ stored_of_mem hrow₅ hstatus (hw₆.trans hw₇)
        · refine truthful_verdict hrow' (hw₆.trans hw₇) ho fun k hk => ?_
          rcases List.mem_append.1 hk with hk | hk
          · exact (hextra k hk).stores
          · rcases List.mem_cons.1 hk with rfl | hk
            · exact not_storesReceived_of_after (by rw [Machine.after, perform_not_commits hc])
            · exact (htr₂ k hk).stores

/-- The formal batch left the received row of the submission, and its terminal row. -/
def FormalStored (row : ProposalRow) (k : Call Op Db Choice) : Prop :=
  StoresReceived k ∧ row ∈ (machine.after k).proposals ∧
    ∃ x ∈ (machine.after k).terminal, x.jobId = row.jobId ∧ x.proposalId = row.proposalId

/-- The formal batch stores its rows if it commits under its lease, and no received row if not. -/
theorem formalBatch_cases {k : Call Op Db Choice} {row : ProposalRow} {f : Fence}
    {received completed : EventRow} (hop : k.op = .batch (formalBatch row f received completed))
    (hstatus : row.status = .RECEIVED) :
    (Commits k.choice (formalBatch row f received completed) k.before ∧
        k.before.fenceHolds f = true ∧ FormalStored row k) ∨
      ¬ (Commits k.choice (formalBatch row f received completed) k.before ∧
        k.before.fenceHolds f = true) ∧ ¬ StoresReceived k := by
  obtain ⟨t, op, ch, w⟩ := k
  obtain rfl : op = .batch (formalBatch row f received completed) := hop
  by_cases hc : Commits ch (formalBatch row f received completed) w
  · obtain ⟨ns, h⟩ := perform_commits hc
    rcases runBatch_formal h with ⟨hf, es, heq⟩ | ⟨hf, ps, ts, es, hps, hts, heq⟩
    · refine .inr ⟨fun hboth => by simp [hf] at hboth, ?_⟩
      rintro ⟨p, hp, hnew, -⟩
      rw [Machine.after, heq] at hp
      exact hnew hp
    · refine .inl ⟨hc, hf, ?_⟩
      obtain ⟨hmem, hstores⟩ := storesReceived_of_mem
        (k := ⟨t, .batch (formalBatch row f received completed), ch, w⟩) hps
        (by rw [Machine.after, heq]) hstatus
      refine ⟨hstores, hmem, ⟨row.jobId, row.proposalId, row.createdAt⟩, ?_, rfl, rfl⟩
      rw [Machine.after, heq]
      exact (Table.mem_insert? hts).2 (.inr rfl)
  · exact .inr ⟨fun hboth => hc hboth.1,
      not_storesReceived_of_after (by rw [Machine.after, perform_not_commits hc])⟩

/-- The reads of the submission's own key that have been answered. -/
def ReadsAnswered (key : String) (tr : List (Call Op Db Choice)) : Prop :=
  ∀ k ∈ tr, k.op = .selectProposalByIdempotencyKey key → k.choice.fault = .none

/-- One accept batch `k`, formal, among plain calls. -/
structure FormalTrace (row : ProposalRow) (f : Fence) (received completed : EventRow)
    (k : Call Op Db Choice) (tr : List (Call Op Db Choice)) : Prop where
  mem : k ∈ tr
  op : k.op = .batch (formalBatch row f received completed)
  others : ∀ j ∈ tr, j = k ∨ Plain j

namespace FormalTrace

variable {row : ProposalRow} {f : Fence} {received completed : EventRow} {k : Call Op Db Choice}

theorem append (h : FormalTrace row f received completed k tr) {e : List (Call Op Db Choice)}
    (he : ∀ j ∈ e, Plain j) : FormalTrace row f received completed k (e ++ tr) where
  mem := List.mem_append_right _ h.mem
  op := h.op
  others j hj := by
    rcases List.mem_append.1 hj with hj | hj
    · exact .inr (he j hj)
    · exact h.others j hj

theorem not_syntheticUnstored (h : FormalTrace row f received completed k tr) (w : Db) :
    ¬ SyntheticUnstored tr w := by
  rintro ⟨j, hj, row', event, hop, -⟩
  rcases h.others j hj with rfl | hj
  · rw [h.op] at hop
    simp [syntheticBatch, formalBatch] at hop
  · exact hj.synthetic _ _ hop

theorem formalUnseen_iff (h : FormalTrace row f received completed k tr) :
    FormalUnseen tr ↔ Commits k.choice (formalBatch row f received completed) k.before ∧
      k.before.fenceHolds f = true ∧ k.choice.fault = .lostAfter ∧
      ∃ read ∈ tr, read.op = .selectProposalByIdempotencyKey row.idempotencyKey ∧
        read.choice.fault ≠ .none := by
  constructor
  · rintro ⟨j, hj, row', f', a, b, hop, hrest⟩
    rcases h.others j hj with rfl | hj
    · rw [h.op] at hop
      simp only [formalBatch, Op.batch.injEq, List.cons.injEq,
        Statement.insertFencedProposal.injEq, Statement.insertCompletionEvent.injEq] at hop
      obtain ⟨⟨rfl, rfl⟩, -, -, ⟨rfl, -⟩, ⟨rfl, -⟩, -⟩ := hop
      exact hrest
    · exact absurd hop (hj.formal _ _ _ _)
  · exact fun hrest => ⟨k, h.mem, row, f, received, completed, h.op, hrest⟩

/-- Where the formal batch left nothing, every answer that the later reads give is truthful. -/
theorem answered_of_not_stores (h : FormalTrace row f received completed k tr)
    (hk : ¬ (Commits k.choice (formalBatch row f received completed) k.before ∧
      k.before.fenceHolds f = true)) {w : Db} {o : SubmitOutcome} (ho : Truthful w tr o) :
    Answered (.ok o) tr w :=
  ⟨fun _ => ⟨h.not_syntheticUnstored w, fun hun =>
    have hrest := h.formalUnseen_iff.1 hun
    hk ⟨hrest.1, hrest.2.1⟩⟩, fun _ => ho⟩

/-- Where every read of the key was answered, nothing is unseen. -/
theorem answered_of_reads (h : FormalTrace row f received completed k tr)
    (hreads : ReadsAnswered row.idempotencyKey tr) {w : Db} {o : SubmitOutcome}
    (ho : Truthful w tr o) : Answered (.ok o) tr w := by
  refine ⟨fun _ => ⟨h.not_syntheticUnstored w, fun hun => ?_⟩, fun _ => ho⟩
  obtain ⟨-, -, -, read, hread, hop, hfault⟩ := h.formalUnseen_iff.1 hun
  exact hfault (hreads read hread hop)

theorem not_stores (h : FormalTrace row f received completed k tr) (hk : ¬ StoresReceived k) :
    ∀ j ∈ tr, ¬ StoresReceived j := by
  intro j hj
  rcases h.others j hj with rfl | hj
  · exact hk
  · exact hj.stores

end FormalTrace

/-- The answer after a formal batch whose own row was not confirmed. -/
theorem formalLost_ensures {r : Race} {row : ProposalRow} {f : Fence}
    {received completed : EventRow} {k : Call Op Db Choice} {proposalId : String}
    (hrow : r.row proposalId .CHATGPT .RECEIVED none = row)
    (htr : FormalTrace row f received completed k tr)
    (hreads : ReadsAnswered row.idempotencyKey tr) (hafter : Grows (machine.after k) w)
    (hfault : FormalStored row k → k.choice.fault = .lostAfter) :
    machine.Ensures t Grows Answered (formalLost r) tr w := by
  have hkey : row.idempotencyKey = r.idempotencyKey := by rw [← hrow]; rfl
  have hstatus : row.status = .RECEIVED := by rw [← hrow]; rfl
  unfold formalLost
  refine Machine.Ensures.bind Grows.refl (resolveProposalRace_ensures (fun _ _ _ => trivial) ?_ ?_)
  · -- the re-read gets no row: the submission is refused
    intro ch w₁ w₂ hw₁ hw₂ hunread
    refine ensures_read (fun _ _ => rfl) (fun _ _ _ => trivial) fun w₃ ch₃ hw₃ _ => ?_
    have htr' := htr.append (e := [⟨t, .selectTerminal r.jobId, ch₃, w₃⟩,
      ⟨t, .selectProposalByIdempotencyKey r.idempotencyKey, ch, w₁⟩]) (by
        simp only [List.mem_cons, List.not_mem_nil, or_false]
        rintro j (rfl | rfl) <;> exact plain_read (by simp))
    have key : ∀ {reason : SubmitReason} {w₄ : Db}, Answered (.ok (r.rejected reason none))
        (⟨t, .selectTerminal r.jobId, ch₃, w₃⟩ ::
          ⟨t, .selectProposalByIdempotencyKey r.idempotencyKey, ch, w₁⟩ :: tr) w₄ := by
      intro reason w₄
      rcases formalBatch_cases htr.op hstatus with ⟨hc, hfence, hstored⟩ | ⟨hnot, hstores⟩
      · -- the row is stored, so the re-read failed, and the refusal is false
        refine ⟨fun hno => absurd hstored.1 (hno k htr'.mem), fun hcond => absurd ?_ hcond.2⟩
        refine htr'.formalUnseen_iff.2 ⟨hc, hfence, hfault hstored, _,
          List.mem_cons_of_mem _ List.mem_cons_self, by rw [hkey], ?_⟩
        rcases hunread.2 with hf | hf
        · exact hf
        · exact absurd hkey (hf row ((hafter.trans hw₁).1 row hstored.2.1))
      · exact htr'.answered_of_not_stores hnot (htr'.not_stores hstores)
    split
    · exact ensures_pure fun w₄ _ => key
    · exact ensures_pure fun w₄ _ => key
  · -- the re-read gets a row: the submission's own one if it is stored
    intro extra row' o w₁ w₂ hw₁ hw₂ hrow' hkey' ho hextra hextraReads _
    refine ensures_pure fun w₃ hw₃ => ?_
    have htr' := htr.append hextra
    rcases formalBatch_cases htr.op hstatus with ⟨hc, hfence, hstored⟩ | ⟨hnot, hstores⟩
    · have hrow₁ := (hafter.trans hw₁).1 row hstored.2.1
      rw [proposal_unique hrow' hrow₁ (hkey'.trans hkey.symm), ← hrow] at ho
      rw [verdict_own ho]
      refine htr'.answered_of_reads ?_ ?_
      · intro j hj hop
        rcases List.mem_append.1 hj with hj | hj
        · exact hextraReads j hj (hkey ▸ hop)
        · exact hreads j hj hop
      · have hid : row.proposalId = proposalId := by rw [← hrow]; rfl
        exact hid ▸ stored_of_mem hrow₁ hstatus (hw₂.trans hw₃)
    · exact htr'.answered_of_not_stores hnot
        (truthful_verdict hrow' (hw₂.trans hw₃) ho (htr'.not_stores hstores))

/-- Accepting a formal result. -/
theorem acceptFormal_ensures {r : Race} {generation : ℕ} (htr : ∀ k ∈ tr, Plain k)
    (hreads : ReadsAnswered r.idempotencyKey tr) :
    machine.Ensures t Grows Answered (acceptFormal r generation) tr w := by
  simp only [acceptFormal]
  refine ensures_hex fun hex w₁ ch₁ hw₁ => ensures_hex fun _ w₂ ch₂ hw₂ =>
    ensures_hex fun hex' w₃ ch₃ hw₃ => ensures_hex fun hex'' w₄ ch₄ hw₄ => ?_
  have htr₄ : ∀ k ∈ (⟨t, .randomHex32, ch₄, w₄⟩ : Call Op Db Choice) ::
      ⟨t, .randomHex32, ch₃, w₃⟩ :: ⟨t, .randomHex32, ch₂, w₂⟩ :: ⟨t, .randomHex32, ch₁, w₁⟩ :: tr,
      Plain k ∧ (k.op = .selectProposalByIdempotencyKey r.idempotencyKey →
        k.choice.fault = .none) := by
    have hdraw : ∀ ch w', Plain (⟨t, .randomHex32, ch, w'⟩ : Call Op Db Choice) ∧
        ((.randomHex32 : Op) = .selectProposalByIdempotencyKey r.idempotencyKey →
          ch.fault = .none) := fun ch w' => ⟨plain_read (by simp), by simp⟩
    exact List.forall_mem_cons.2 ⟨hdraw _ _, List.forall_mem_cons.2 ⟨hdraw _ _,
      List.forall_mem_cons.2 ⟨hdraw _ _, List.forall_mem_cons.2 ⟨hdraw _ _,
        fun k hk => ⟨htr k hk, hreads k hk⟩⟩⟩⟩⟩
  generalize (⟨t, .randomHex32, ch₄, w₄⟩ : Call Op Db Choice) ::
    ⟨t, .randomHex32, ch₃, w₃⟩ :: ⟨t, .randomHex32, ch₂, w₂⟩ :: ⟨t, .randomHex32, ch₁, w₁⟩ :: tr =
      tr₄ at htr₄ ⊢
  generalize hrow : r.row ("prp_" ++ hex) .CHATGPT .RECEIVED none = row
  generalize (⟨r.jobId, r.callerPrincipal, generation, r.now⟩ : Fence) = fence
  generalize (⟨"evt_" ++ hex', r.jobId, .SUBMIT_RECEIVED, r.callerPrincipal,
    some ("prp_" ++ hex), some .CHATGPT, ⟨none, none⟩, r.requestId, r.now⟩ : EventRow) = received
  generalize (⟨"evt_" ++ hex'', r.jobId, .COMPLETED, r.callerPrincipal,
    some ("prp_" ++ hex), some .CHATGPT, ⟨none, none⟩, r.requestId, r.now⟩ : EventRow) = completed
  have hid : row.proposalId = "prp_" ++ hex := by rw [← hrow]; rfl
  have hjob : row.jobId = r.jobId := by rw [← hrow]; rfl
  have hkey : row.idempotencyKey = r.idempotencyKey := by rw [← hrow]; rfl
  have hstatus : row.status = .RECEIVED := by rw [← hrow]; rfl
  have htrace : ∀ ch w', FormalTrace row fence received completed
      ⟨t, .batch (formalBatch row fence received completed), ch, w'⟩
      (⟨t, .batch (formalBatch row fence received completed), ch, w'⟩ :: tr₄) := fun ch w' =>
    ⟨List.mem_cons_self, rfl, fun j hj => (List.mem_cons.1 hj).imp id fun hj => (htr₄ j hj).1⟩
  have hreads' : ∀ ch w', ReadsAnswered row.idempotencyKey
      (⟨t, .batch (formalBatch row fence received completed), ch, w'⟩ :: tr₄) := by
    intro ch w' j hj hop
    rcases List.mem_cons.1 hj with rfl | hj
    · simp at hop
    · exact (htr₄ j hj).2 (hkey ▸ hop)
  refine Machine.Ensures.bind Grows.refl (Machine.Ensures.tryCatch Grows.refl (ensures_batch ?_ ?_))
  · -- the batch commits and is answered: the submission looks for its own row
    intro w₅ ch₅ ns hw₅ hfault hc w₆ hw₆
    refine ensures_read (fun _ _ => rfl) (fun _ _ _ => trivial) fun w₇ ch₇ hw₇ hfault₇ => ?_
    generalize hk : (⟨t, .batch (formalBatch row fence received completed), ch₅, w₅⟩ :
      Call Op Db Choice) = k at *
    have hafter : Grows (machine.after k) w₇ := by
      rw [← hk]
      exact hw₆.trans hw₇
    have htrace₇ : FormalTrace row fence received completed k
        ([⟨t, .selectProposalByIdempotencyKey r.idempotencyKey, ch₇, w₇⟩] ++ k :: tr₄) := by
      refine FormalTrace.append ?_ (by simpa using plain_read (by simp))
      rw [← hk]
      exact htrace ch₅ w₅
    have hreads₇ : ReadsAnswered row.idempotencyKey
        ([⟨t, .selectProposalByIdempotencyKey r.idempotencyKey, ch₇, w₇⟩] ++ k :: tr₄) := by
      intro j hj hop
      rcases List.mem_cons.1 hj with rfl | hj
      · exact hfault₇
      · rw [← hk] at hj
        exact hreads' ch₅ w₅ j hj hop
    have hfound : FormalStored row k → (w₇.proposalByIdempotencyKey? r.idempotencyKey).any
        (fun p => p.proposalId = "prp_" ++ hex && p.status = .RECEIVED) = true := by
      intro hstored
      have hmem := hafter.1 row hstored.2.1
      have hrow₇ : w₇.proposalByIdempotencyKey? r.idempotencyKey = some row := by
        refine Table.find?_of_mem (i := fun p => some p.idempotencyKey) (by simp [proposalIndexes])
          hmem (by simp [hkey]) fun a _ ha => ⟨by simp, ?_⟩
        simpa [hkey] using ha
      simp [hrow₇, hid, hstatus]
    split
    · rename_i hany
      obtain ⟨p, hp, hpid⟩ := (Option.any_eq_true _ _).1 hany
      obtain ⟨hpmem, -⟩ := Table.mem_of_find? hp
      obtain ⟨hpid, hpstatus⟩ : p.proposalId = "prp_" ++ hex ∧ p.status = .RECEIVED := by
        simpa using hpid
      refine ensures_read (fun _ _ => rfl) (fun _ _ _ => trivial) fun w₈ ch₈ hw₈ hfault₈ => ?_
      have hplain : ∀ j ∈ [(⟨t, .terminalMatchesProposal r.jobId ("prp_" ++ hex), ch₈, w₈⟩ :
          Call Op Db Choice)], Plain j := by
        simpa using plain_read (by simp)
      have htrace₈ := htrace₇.append hplain
      have hreads₈ : ReadsAnswered row.idempotencyKey
          ([⟨t, .terminalMatchesProposal r.jobId ("prp_" ++ hex), ch₈, w₈⟩] ++
            ([⟨t, .selectProposalByIdempotencyKey r.idempotencyKey, ch₇, w₇⟩] ++ k :: tr₄)) := by
        intro j hj hop
        rcases List.mem_cons.1 hj with rfl | hj
        · simp at hop
        · exact hreads₇ j hj hop
      split
      · rename_i hmatch
        obtain ⟨x, hx⟩ := Option.isSome_iff_exists.1 hmatch
        obtain ⟨hxmem, hxeq⟩ := Table.mem_of_find? hx
        refine ensures_pure fun w₉ hw₉ => htrace₈.answered_of_reads hreads₈ ⟨?_, x, hw₉.2 x hxmem, ?_⟩
        · exact hpid ▸ stored_of_mem hpmem hpstatus (hw₈.trans hw₉)
        · simpa using hxeq
      · rename_i hmatch
        refine formalLost_ensures hrow htrace₈ hreads₈ (hafter.trans hw₈) fun hstored => ?_
        obtain ⟨x, hx, hxj, hxp⟩ := hstored.2.2
        refine absurd ?_ hmatch
        simp only [Table.find?, List.find?_isSome]
        exact ⟨x, (hafter.trans hw₈).2 x hx, by simp [hxj, hxp, hjob, hid]⟩
    · rename_i hany
      exact formalLost_ensures hrow htrace₇ hreads₇ hafter fun hstored =>
        absurd (hfound hstored) hany
  · -- the batch raises: the submission re-reads
    intro w₅ ch₅ w₆ hw₅ hlost hw₆
    refine fun w₇ hw₇ => formalLost_ensures hrow (htrace ch₅ w₅) (hreads' ch₅ w₅)
      (hw₆.trans hw₇) fun hstored => ?_
    rcases formalBatch_cases (htrace ch₅ w₅).op hstatus with ⟨hc, -⟩ | ⟨-, hstores⟩
    · exact hlost hc
    · exact absurd hstored.1 hstores

/-- **The answers of a submission**, against every interference that keeps proposals and terminal
rows. -/
theorem submitFresh_ensures {r : Race} {generation : ℕ} {violation : Bool}
    {origin : ResearchOrigin} (htr : ∀ k ∈ tr, Plain k)
    (hreads : ReadsAnswered r.idempotencyKey tr) :
    machine.Ensures t Grows Answered (submitFresh r generation violation origin) tr w := by
  unfold submitFresh
  split
  · exact rejectProposal_ensures htr
  · refine ensures_read (fun _ _ => rfl) (fun _ _ _ => trivial) fun w₁ ch₁ hw₁ _ => ?_
    have htr₁ := List.forall_mem_cons.2 ⟨plain_read (k := ⟨t, .selectLease r.jobId, ch₁, w₁⟩)
      (by simp), htr⟩
    split
    · exact rejectProposal_ensures htr₁
    · split
      · refine ensures_read (fun _ _ => rfl) (fun _ _ _ => trivial) fun w₂ ch₂ hw₂ _ => ?_
        have htr₂ := List.forall_mem_cons.2 ⟨plain_read
          (k := ⟨t, .selectFormal r.jobId, ch₂, w₂⟩) (by simp), htr₁⟩
        split
        · exact rejectProposal_ensures htr₂
        · refine acceptFormal_ensures htr₂ ?_
          rintro j hj hop
          rcases List.mem_cons.1 hj with rfl | hj
          · simp at hop
          · rcases List.mem_cons.1 hj with rfl | hj
            · simp at hop
            · exact hreads j hj hop
      · exact acceptSynthetic_ensures htr₁

theorem submitResearchResultProposal_ensures (P : Platform) (input : SubmitInput) (w : Db) :
    machine.Ensures t Grows Answered (submitResearchResultProposal P input) [] w := by
  have hrejected : ∀ (reason : SubmitReason) (w' : Db),
      Answered (.ok (.REJECTED input.jobId reason none input.requestId)) [] w' := fun _ _ =>
    answered_of_plain (by simp) (by simp [Truthful])
  unfold submitResearchResultProposal
  split
  · exact fun _ _ => trivial
  split
  · exact fun _ _ => trivial
  split
  · exact ensures_pure fun w' _ => hrejected _ w'
  cases hnow : P.isoOfText input.now with
  | none =>
    simp only [normalizedIso, hnow, fail, Script.throw_eq, Script.halt_error_bind]
    exact fun _ _ => trivial
  | some now =>
    simp only [normalizedIso, hnow, pure_bind]
    split
    · exact ensures_pure fun w' _ => hrejected _ w'
    · refine ensures_read (fun _ _ => rfl) (fun _ _ _ => trivial) fun w₁ ch₁ hw₁ hfault => ?_
      have htr : ∀ k ∈ [(⟨t, .selectProposalByIdempotencyKey input.idempotencyKey, ch₁, w₁⟩ :
          Call Op Db Choice)], Plain k := by
        simpa using plain_read (by simp)
      split
      · rename_i existing hexisting
        obtain ⟨hmem, -⟩ := Table.mem_of_find? hexisting
        split
        · rename_i verdict hverdict
          exact ensures_pure fun w₂ hw₂ => answered_verdict htr hmem hw₂ (.inl hverdict)
        · refine Machine.Ensures.bind Grows.refl (ensures_writeConflictEvent
            fun res last draw w₂ hw₂ hlast hdraw _ _ => ?_)
          cases res with
          | error e => trivial
          | ok _ =>
            exact ensures_pure fun w₃ _ => answered_rejected
              (List.forall_mem_cons.2 ⟨hlast, List.forall_mem_cons.2 ⟨hdraw, htr⟩⟩)
      · split
        · exact ensures_pure fun w₂ _ => answered_rejected htr
        · refine submitFresh_ensures htr ?_
          simp [ReadsAnswered, hfault]

/-- **Truthful answers.** In every run, whatever the faults and whatever the other callers do: the
answer of a submission is truthful exactly when its synthetic batch was not lost unstored and its
formal batch not lost unseen. -/
theorem truthful_iff (P : Platform) (records : List JobRecord) (requests : ℕ → Request)
    (es : List (ℕ × Choice)) (t : ℕ) (outcome : SubmitOutcome)
    (hans : (machine.exec (start P records requests) es).result? t =
      some (.ok (.submit outcome))) :
    Truthful (machine.exec (start P records requests) es).world
        ((machine.exec (start P records requests) es).trace t) outcome ↔
      ¬ SyntheticUnstored ((machine.exec (start P records requests) es).trace t)
          (machine.exec (start P records requests) es).world ∧
        ¬ FormalUnseen ((machine.exec (start P records requests) es).trace t) := by
  have hserve : machine.Ensures t Grows
      (fun res tr w => ∀ o, res = .ok (.submit o) → Answered (.ok o) tr w)
      (serve P (requests t)) [] (Db.initial records) := by
    cases requests t with
    | submit input =>
      refine Machine.Ensures.bind Grows.refl (Machine.Ensures.mono (fun res tr w hres => ?_)
        (Machine.Ensures.stable (R := Grows) (fun _ _ _ => Grows.trans)
          (submitResearchResultProposal_ensures P input _)))
      cases res with
      | error e => exact fun o ho => absurd ho (by simp)
      | ok outcome =>
        rintro w' hw' o ⟨⟩
        exact hres w' hw'
    | claim input =>
      refine Machine.Ensures.bind Grows.refl (Machine.Ensures.of_forall (fun res tr w => ?_) _ _ _)
      cases res with
      | error e => exact fun o ho => absurd ho (by simp)
      | ok outcome => exact fun w' _ o ho => absurd ho (by simp)
    | defer input =>
      refine Machine.Ensures.bind Grows.refl (Machine.Ensures.of_forall (fun res tr w => ?_) _ _ _)
      cases res with
      | error e => exact fun o ho => absurd ho (by simp)
      | ok outcome => exact fun w' _ o ho => absurd ho (by simp)
  exact Machine.halted_exec Grows.refl (fun _ _ _ => Grows.trans)
    (fun _ ch op db _ => perform_grows ch op db) (issued_start P records requests) hserve es
    (Config.result?_eq_some.1 hans) outcome rfl

/-- An owner claims a job and submits its result. -/
def submittingRequests (owner origin : String) : ℕ → Request
  | 0 => .claim ⟨"job-1", owner, "r0", "2026-10-01T00:00:00.000Z"⟩
  | _ => .submit ⟨"job-1", 1, "submit-key-1", some origin, exampleProposal, owner, "r1",
      "2026-10-01T00:30:00.000Z"⟩

/-- The synthetic batch does not reach the store, and neither does the re-read. -/
def unstoredRun : Run :=
  machine.exec
    (start examplePlatform [⟨"job-1", true⟩] (submittingRequests "synthetic-a" "SYNTHETIC"))
    (turns 0 8 0 ++ turns 1 4 8 ++ [(1, ⟨.lostBefore, ""⟩), (1, ⟨.lostBefore, ""⟩)])

/-- The formal batch commits without an answer, and the re-read fails. -/
def unseenRun : Run :=
  machine.exec (start examplePlatform [⟨"job-1", true⟩] (submittingRequests exampleOwner "CHATGPT"))
    (turns 0 8 0 ++ turns 1 7 8 ++ [(1, ⟨.lostAfter, ""⟩), (1, ⟨.lostBefore, ""⟩)] ++
      turns 1 1 15)

/-- A submission is answered `ACCEPTED_SYNTHETIC` with nothing stored, and another one `REJECTED`
with its formal result stored. -/
theorem answers_untrue :
    (unstoredRun.result? 1 =
        some (.ok (.submit (.ACCEPTED_SYNTHETIC "job-1" ("prp_" ++ exampleHex 10) "r1"))) ∧
      ¬ Truthful unstoredRun.world (unstoredRun.trace 1)
        (.ACCEPTED_SYNTHETIC "job-1" ("prp_" ++ exampleHex 10) "r1")) ∧
    unseenRun.result? 1 = some (.ok (.submit (.REJECTED "job-1" .SECOND_RESULT none "r1"))) ∧
      ¬ Truthful unseenRun.world (unseenRun.trace 1)
        (.REJECTED "job-1" .SECOND_RESULT none "r1") := by
  decide +kernel

/-- A formal submission that meets no fault is truthfully accepted. -/
theorem truthful_iff_accepted :
    Truthful
        (machine.exec (start examplePlatform [⟨"job-1", true⟩]
          (submittingRequests exampleOwner "CHATGPT")) (turns 0 8 0 ++ turns 1 10 8)).world
        ((machine.exec (start examplePlatform [⟨"job-1", true⟩]
          (submittingRequests exampleOwner "CHATGPT")) (turns 0 8 0 ++ turns 1 10 8)).trace 1)
        (.ACCEPTED "job-1" ("prp_" ++ exampleHex 11) "r1") ↔
      ¬ SyntheticUnstored
          ((machine.exec (start examplePlatform [⟨"job-1", true⟩]
            (submittingRequests exampleOwner "CHATGPT")) (turns 0 8 0 ++ turns 1 10 8)).trace 1)
          (machine.exec (start examplePlatform [⟨"job-1", true⟩]
            (submittingRequests exampleOwner "CHATGPT")) (turns 0 8 0 ++ turns 1 10 8)).world ∧
        ¬ FormalUnseen
          ((machine.exec (start examplePlatform [⟨"job-1", true⟩]
            (submittingRequests exampleOwner "CHATGPT")) (turns 0 8 0 ++ turns 1 10 8)).trace 1) :=
  truthful_iff _ _ _ _ 1 _ (by decide +kernel)

end QuantproCollector.ResearchWorkflow
