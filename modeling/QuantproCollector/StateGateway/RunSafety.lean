import QuantproCollector.StateGateway.Issued

/-!
# Safety of run envelopes

Any number of submissions run at once. A settled row never changes, and a row never changes its run,
whatever is submitted (`runsKept_log`). What one submission did and answered is read from its calls:
the rows that it found decide its run and, where one of them was settled, its whole answer, and its
one update carries the outcome of what its own append returned.
-/

namespace QuantproCollector.StateGateway

open Relational Async

/-! ## Rows of runs -/

/-- Settled rows stay as they are, and every row keeps its key and its run. -/
structure RunsKept (w w' : World) : Prop where
  settled : ∀ r ∈ w.runs, r.outcome ≠ .UNKNOWN → r ∈ w'.runs
  run : ∀ r ∈ w.runs, ∃ r' ∈ w'.runs,
    r'.task_name = r.task_name ∧ r'.envelope_key = r.envelope_key ∧ r'.run_id = r.run_id

theorem RunsKept.of_eq {w w' : World} (h : w'.runs = w.runs) : RunsKept w w' :=
  ⟨fun _ hr _ => h ▸ hr, fun r hr => ⟨r, h ▸ hr, rfl, rfl, rfl⟩⟩

theorem RunsKept.trans {u v w : World} (h : RunsKept u v) (h' : RunsKept v w) : RunsKept u w where
  settled := fun _ hr hs => h'.settled _ (h.settled _ hr hs) hs
  run r hr := by
    obtain ⟨r', hr', htask, hkey, hrun⟩ := h.run r hr
    obtain ⟨r'', hr'', htask', hkey', hrun'⟩ := h'.run r' hr'
    exact ⟨r'', hr'', htask'.trans htask, hkey'.trans hkey, hrun'.trans hrun⟩

theorem mem_insertRun {w : World} {row r : StoredRunV3Row} :
    r ∈ (w.insertRun row).2.runs ↔ r ∈ w.runs ∨ (w.insertRun row).1 = .ok true ∧ r = row := by
  unfold World.insertRun
  split
  · simp
  · split
    · rename_i runs hruns
      simpa using Table.mem_insert? hruns
    · simp

theorem mem_updateRun {w : World} {u : RunUpdate} {r : StoredRunV3Row} :
    r ∈ (w.updateRun u).runs ↔ ∃ a ∈ w.runs, (if u.applies a then u.apply a else a) = r := by
  simp only [World.updateRun]
  rw [Table.mem_modify]

theorem runsKept_insertRun (w : World) (row : StoredRunV3Row) : RunsKept w (w.insertRun row).2 :=
  ⟨fun _ hr _ => mem_insertRun.2 (.inl hr), fun r hr => ⟨r, mem_insertRun.2 (.inl hr), rfl, rfl, rfl⟩⟩

theorem runsKept_updateRun (w : World) (u : RunUpdate) : RunsKept w (w.updateRun u) where
  settled r hr hs := by
    refine mem_updateRun.2 ⟨r, hr, if_neg ?_⟩
    simp [RunUpdate.applies, hs]
  run r hr := by
    refine ⟨_, mem_updateRun.2 ⟨r, hr, rfl⟩, ?_⟩
    split_ifs
    · exact ⟨rfl, rfl, rfl⟩
    · exact ⟨rfl, rfl, rfl⟩

/-- A statement leaves the world, or has its effect. -/
theorem statement_world {α : Type} (f : Fault) (w : World) (r : Except Thrown α × World) :
    (f.statement w r).2 = w ∨ (f.statement w r).2 = r.2 := by
  cases f
  · exact .inr rfl
  · exact .inl rfl
  · exact .inr rfl

theorem runsKept_statement {α : Type} (f : Fault) {w : World} {r : Except Thrown α × World}
    (h : RunsKept w r.2) : RunsKept w (f.statement w r).2 := by
  rcases statement_world f w r with hw | hw
  · rw [hw]
    exact .of_eq rfl
  · rwa [hw]

/-- No operation changes a settled row or the run of a row. -/
theorem runsKept_perform (P : Runtime) (ch : Choice) (op : Op) (w : World) :
    RunsKept w ((machine P).perform ch op w).2 := by
  cases op with
  | fetch request =>
    refine .of_eq ?_
    cases request with
    | create l body =>
      change (if ch.accepted then w.addComment l _ else w).runs = w.runs
      split_ifs
      · exact World.addComment_runs ..
      · rfl
    | _ => rfl
  | insertRun row => exact runsKept_statement _ (runsKept_insertRun w row)
  | updateRun u => exact runsKept_statement _ (runsKept_updateRun w u)
  | clock => exact .of_eq rfl
  | randomHex => exact .of_eq rfl
  | ownerContext => exact .of_eq rfl
  | insertReceipt => exact runsKept_statement _ (.of_eq rfl)
  | selectReceipt => exact runsKept_statement _ (.of_eq rfl)
  | leaseReceipt => exact runsKept_statement _ (.of_eq rfl)
  | finalizeReceipt => exact runsKept_statement _ (.of_eq rfl)
  | selectRun => exact runsKept_statement _ (.of_eq rfl)

/-- From every call of a run to its end, settled rows stay and rows keep their runs. -/
theorem runsKept_log {α : Type} {P : Runtime} {w : World} {s : ℕ → Program α}
    (es : List (ℕ × Choice)) :
    ∀ k ∈ ((machine P).exec (Config.start w s) es).log,
      RunsKept k.before ((machine P).after k) ∧
        RunsKept ((machine P).after k) ((machine P).exec (Config.start w s) es).world := by
  refine Machine.exec_induction (M := machine P) (P := fun c => ∀ k ∈ c.log,
    RunsKept k.before ((machine P).after k) ∧ RunsKept ((machine P).after k) c.world) ?_ es ?_
  · intro c e h
    rcases Machine.step_cases (M := machine P) c e with hs | ⟨op, next, -, hs⟩
    · rwa [hs]
    · rw [hs]
      have hkept := runsKept_perform P e.2 op c.world
      intro k hk
      rcases List.mem_cons.1 hk with rfl | hk
      · exact ⟨hkept, .of_eq rfl⟩
      · exact ⟨(h k hk).1, (h k hk).2.trans hkept⟩
  · intro k hk
    exact absurd hk List.not_mem_nil

/-- There is at most one row for a task and envelope key. -/
theorem run_unique {w : World} {a b : StoredRunV3Row} (ha : a ∈ w.runs) (hb : b ∈ w.runs)
    (htask : a.task_name = b.task_name) (hkey : a.envelope_key = b.envelope_key) : a = b :=
  Table.unique_of_mem (i := fun r => some (r.task_name, r.envelope_key)) (by simp [runIndexes]) ha hb
    (by simp) (by rw [htask, hkey])

theorem runFor_eq_some {w : World} {task key : String} {row : StoredRunV3Row}
    (h : runFor w task key = some row) :
    row ∈ w.runs ∧ row.task_name = task ∧ row.envelope_key = key := by
  obtain ⟨hr, hp⟩ := Table.mem_of_find? h
  simp only [Bool.and_eq_true, decide_eq_true_eq] at hp
  exact ⟨hr, hp.1, hp.2⟩

/-! ## The calls of a submission -/

/-- The call reads the row of a task and envelope key. -/
def Finds (k : Call Op World Choice) (row : StoredRunV3Row) : Prop :=
  k.op = .selectRun row.task_name row.envelope_key ∧ k.choice.fault = .none ∧
    runFor k.before row.task_name row.envelope_key = some row

/-- Operations that neither ask GitHub or the owner's context for anything nor write a receipt or
update a run. -/
def Op.quiet : Op → Bool
  | .clock | .randomHex | .selectReceipt _ | .selectRun .. | .insertRun _ => true
  | _ => false

/-- The call failed. -/
def Fails (k : Call Op World Choice) : Prop :=
  k.choice.fault ≠ .none

/-- The answer of a submission gives what a row stores. -/
structure Replays (row : StoredRunV3Row) (receipt : RunEnvelopeReceipt) : Prop where
  status : receipt.status = .ENVELOPE_REPLAY
  run_id : receipt.run_id = row.run_id
  outcome : receipt.outcome = row.outcome
  blocker_code : receipt.blocker_code = row.blocker_code
  fresh_delta_count : receipt.fresh_delta_count = row.fresh_delta_count
  event_count : receipt.event_count = row.event_count
  notification_required : receipt.notification_required = true ↔ 0 < row.fresh_delta_count.getD 0

/-- The call inserts the row. -/
def Inserts (k : Call Op World Choice) (row : StoredRunV3Row) : Prop :=
  k.op = .insertRun row ∧ k.choice.fault = .none ∧ (k.before.insertRun row).1 = .ok true

/-- The run that a submission reports. -/
def reportedRun : Except Thrown RunEnvelopeReceipt → Option String
  | .ok receipt => some receipt.run_id
  | .error (.envelope _ run) => run.runId
  | .error _ => none

/-- A statement that answers with an error of its own raised none of them. -/
theorem statement_error {α : Type} {f : Fault} {w w' : World} {a : α} {e : Thrown}
    (h : (f.statement w (.ok a, w')).1 = .error e) : e = .raw ∧ f ≠ .none := by
  cases f with
  | none => cases h
  | before => exact ⟨(Except.error.inj h).symm, by simp⟩
  | after => exact ⟨(Except.error.inj h).symm, by simp⟩

theorem statement_ok {α : Type} {f : Fault} {w : World} {r : Except Thrown α × World} {a : α}
    (h : (f.statement w r).1 = .ok a) : f = .none ∧ r.1 = .ok a := by
  cases f with
  | none => exact ⟨rfl, h⟩
  | before => cases h
  | after => cases h

section Calls

variable {P : Runtime} {ks : List (Call Op World Choice)}

theorem completes_selectRun {task key : String} {r : Except Thrown (Option StoredRunV3Row)}
    (h : (machine P).Completes (selectRun task key) ks r) :
    ∃ k, ks = [k] ∧ k.op = .selectRun task key ∧
      (r = .error .raw ∧ Fails k ∧ (∀ row, ¬ Finds k row) ∨
        r = .ok none ∧ (∀ row, ¬ Finds k row) ∨
        ∃ row, r = .ok (some row) ∧ row.task_name = task ∧ row.envelope_key = key ∧
          ∀ row', Finds k row' ↔ row' = row) := by
  obtain ⟨t, ch, w, ks', rfl, hend⟩ := Machine.completes_call.1 h
  obtain ⟨rfl, rfl⟩ := Machine.completes_halt.1 hend
  refine ⟨_, rfl, rfl, ?_⟩
  have hfinds : ∀ row, Finds ⟨t, .selectRun task key, ch, w⟩ row →
      ch.fault = .none ∧ runFor w task key = some row := by
    rintro row ⟨hop, hf, hrow⟩
    cases hop
    exact ⟨hf, hrow⟩
  change (_ = _ ∧ _) ∨ _
  cases hanswer : ((machine P).perform ch (.selectRun task key) w).1 with
  | error e =>
    obtain ⟨rfl, hf⟩ := statement_error hanswer
    exact .inl ⟨rfl, hf, fun row h => hf (hfinds row h).1⟩
  | ok found =>
    obtain ⟨hf, hfound⟩ := statement_ok hanswer
    obtain rfl := Except.ok.inj hfound
    cases hrow : runFor w task key with
    | none => exact .inr (.inl ⟨rfl, fun row h => by simp [hrow] at hfinds; exact hfinds row h⟩)
    | some row =>
      obtain ⟨-, rfl, rfl⟩ := runFor_eq_some hrow
      refine .inr (.inr ⟨row, rfl, rfl, rfl, fun row' => ⟨fun h => ?_, ?_⟩⟩)
      · exact (Option.some.inj (hrow.symm.trans (hfinds row' h).2)).symm
      · rintro rfl
        exact ⟨rfl, hf, hrow⟩

/-- A program that reads no row finds none. -/
theorem not_finds_of_issues {α : Type} {s : Program α} {r : Except Thrown α}
    (h : (machine P).Completes s ks r) (hs : s.Issues fun op => ∀ task key, op ≠ .selectRun task key) :
    ∀ k ∈ ks, ∀ row, ¬ Finds k row :=
  fun k hk _ hf => h.issues hs k hk _ _ hf.1

theorem completes_receiptFromRow {row : StoredRunV3Row} {r : Except Thrown RunEnvelopeReceipt}
    (h : (machine P).Completes (receiptFromRow P row) ks r) :
    (∃ receipt, r = .ok receipt ∧ Replays row receipt ∧ receipt.task_name = row.task_name ∧
        receipt.envelope_key = row.envelope_key) ∨
      r = .error .raw ∧ ∃ k ∈ ks, Fails k := by
  unfold receiptFromRow at h
  cases hkey : row.writeKey? with
  | none =>
    simp only [hkey] at h
    obtain ⟨-, rfl⟩ := Machine.completes_halt.1 h
    exact .inl ⟨_, rfl, ⟨rfl, rfl, rfl, rfl, rfl, rfl, by simp⟩, rfl, rfl⟩
  | some writeKey =>
    simp only [hkey] at h
    rcases Machine.completes_bind.1 h with ⟨e, hselect, rfl⟩ | ⟨receipt, ks₁, ks₂, rfl, -, hend⟩
    · obtain ⟨t, ch, w, ks', rfl, hend⟩ := Machine.completes_call.1 hselect
      obtain ⟨-, hanswer⟩ := Machine.completes_halt.1 hend
      rcases statement_error hanswer.symm with ⟨rfl, hf⟩
      exact .inr ⟨rfl, _, List.mem_cons_self, hf⟩
    · obtain ⟨-, rfl⟩ := Machine.completes_halt.1 hend
      exact .inl ⟨_, rfl, ⟨rfl, rfl, rfl, rfl, rfl, rfl, by simp⟩, rfl, rfl⟩

theorem issues_receiptFromRow (row : StoredRunV3Row) : (receiptFromRow P row).Issues fun op =>
    op.quiet = true ∧ ∀ task key, op ≠ .selectRun task key := by
  unfold receiptFromRow
  cases row.writeKey? with
  | none => trivial
  | some writeKey =>
    exact Script.Issues.bind (Script.issues_perform.2 ⟨rfl, by simp⟩) fun _ => trivial

theorem completes_attempt {α : Type} {s : Program α} {r : Except Thrown (Option α)} :
    (machine P).Completes (attempt s) ks r ↔
      (∃ a, (machine P).Completes s ks (.ok a) ∧ r = .ok (some a)) ∨
        (∃ e, (machine P).Completes s ks (.error e)) ∧ r = .ok none := by
  have hmap : ∀ r', (machine P).Completes (some <$> s) ks r' ↔
      (∃ e, (machine P).Completes s ks (.error e) ∧ r' = .error e) ∨
        ∃ a, (machine P).Completes s ks (.ok a) ∧ r' = .ok (some a) := by
    intro r'
    rw [map_eq_pure_bind, Machine.completes_bind]
    simp [Script.pure_eq]
  unfold attempt
  rw [Machine.completes_tryCatch]
  simp [hmap, Script.pure_eq]

theorem issues_insertUnknownRunRow (input : EnvelopeInput) (task runId key received : String)
    (prompt : Option String) : (insertUnknownRunRow input task runId key received prompt).Issues
      fun op => op.quiet = true ∧ ∀ task key, op ≠ .selectRun task key :=
  Script.Issues.bind (Script.issues_perform.2 ⟨rfl, by simp⟩) fun _ =>
    Script.issues_perform.2 ⟨rfl, by simp⟩

theorem completes_insertUnknownRunRow {input : EnvelopeInput} {task runId key received : String}
    {prompt : Option String}
    (h : (machine P).Completes (insertUnknownRunRow input task runId key received prompt) ks
      (.ok true)) :
    ∃ k ∈ ks, ∃ row, Inserts k row ∧ row.task_name = task ∧ row.envelope_key = key ∧
      row.run_id = runId := by
  rcases Machine.completes_bind.1 h with ⟨e, -, he⟩ | ⟨now, ks₁, ks₂, rfl, -, hinsert⟩
  · cases he
  · obtain ⟨t, ch, w, ks', rfl, hend⟩ := Machine.completes_call.1 hinsert
    obtain ⟨-, hanswer⟩ := Machine.completes_halt.1 hend
    obtain ⟨hf, htrue⟩ := statement_ok hanswer.symm
    exact ⟨_, List.mem_append_right _ List.mem_cons_self, _, ⟨rfl, hf, htrue⟩, rfl, rfl, rfl⟩

/-! ## The reservation -/

/-- What a reservation found, and what came of it. -/
structure Reserves (task key : String) (ks : List (Call Op World Choice))
    (r : Except Thrown ReservedRun) : Prop where
  keys : ∀ k ∈ ks, ∀ row, Finds k row → row.task_name = task ∧ row.envelope_key = key
  settled : ∀ k ∈ ks, ∀ row, Finds k row → row.outcome ≠ .UNKNOWN → r = .ok (.replay row)
  replay : ∀ row, r = .ok (.replay row) → row.outcome ≠ .UNKNOWN ∧ ∃ k ∈ ks, Finds k row
  unknown : ∀ runId, r = .ok (.unknown runId) → ∃ k ∈ ks, ∃ row, (Finds k row ∨
    Inserts k row ∧ ∀ k ∈ ks, ∀ row, ¬ Finds k row) ∧
      row.task_name = task ∧ row.envelope_key = key ∧ row.run_id = runId
  error : ∀ e run runId, r = .error (.envelope e run) → run.runId = some runId →
    (∃ k ∈ ks, ∃ row, Finds k row ∧ row.run_id = runId) ∨ ∀ k ∈ ks, ∀ row, ¬ Finds k row

/-- The rows found so far are `UNKNOWN`, and of the run that the submission goes on with. -/
def Found (task key runId : String) (ks : List (Call Op World Choice)) : Prop :=
  ∀ k ∈ ks, ∀ row, Finds k row →
    row.task_name = task ∧ row.envelope_key = key ∧ row.outcome = .UNKNOWN ∧ row.run_id = runId

theorem Found.append {task key runId : String} {ks' : List (Call Op World Choice)}
    (h : Found task key runId ks) (hno : ∀ k ∈ ks', ∀ row, ¬ Finds k row) :
    Found task key runId (ks ++ ks') := by
  intro k hk row hrow
  rcases List.mem_append.1 hk with hk | hk
  · exact h k hk row hrow
  · exact absurd hrow (hno k hk row)

/-- A reservation that ends without a settled row. -/
theorem Found.reserves {task key runId : String} {r : Except Thrown ReservedRun}
    (h : Found task key runId ks) (hreplay : ∀ row, r ≠ .ok (.replay row))
    (hunknown : ∀ id, r = .ok (.unknown id) → id = runId ∧ ∃ k ∈ ks, ∃ row,
      Inserts k row ∧ row.task_name = task ∧ row.envelope_key = key ∧ row.run_id = id)
    (herror : ∀ e run id, r = .error (.envelope e run) → run.runId = some id → id = runId) :
    Reserves task key ks r := by
  have hall : (∃ k ∈ ks, ∃ row, Finds k row ∧ row.task_name = task ∧ row.envelope_key = key ∧
      row.run_id = runId) ∨ ∀ k ∈ ks, ∀ row, ¬ Finds k row := by
    by_contra! hno
    obtain ⟨hno, k, hk, row, hrow⟩ := hno
    obtain ⟨htask, hkey, -, hrun⟩ := h k hk row hrow
    exact hno k hk row hrow htask hkey hrun
  refine ⟨fun k hk row hrow => ?_, fun k hk row hrow hs => ?_, fun row hr => absurd hr (hreplay row),
    fun id hr => ?_, fun e run id hr hid => ?_⟩
  · obtain ⟨htask, hkey, -⟩ := h k hk row hrow
    exact ⟨htask, hkey⟩
  · exact absurd (h k hk row hrow).2.2.1 hs
  · obtain ⟨rfl, k, hk, row, hins, hrow⟩ := hunknown id hr
    rcases hall with ⟨k', hk', row', hf, hrow'⟩ | hno
    · exact ⟨k', hk', row', .inl hf, hrow'⟩
    · exact ⟨k, hk, row, .inr ⟨hins, hno⟩, hrow⟩
  · obtain rfl := herror e run id hr hid
    exact hall.imp_left fun ⟨k, hk, row, hf, _, _, hrun⟩ => ⟨k, hk, row, hf, hrun⟩

/-- A reservation whose last call finds the row that it ends with. -/
theorem Found.reserves_row {task key runId : String} {k : Call Op World Choice}
    {row : StoredRunV3Row} (h : Found task key runId ks) (htask : row.task_name = task)
    (hkey : row.envelope_key = key) (hrow : ∀ row', Finds k row' ↔ row' = row) :
    Reserves task key (ks ++ [k])
      (.ok (if row.outcome = .UNKNOWN then .unknown row.run_id else .replay row)) := by
  have hk : k ∈ ks ++ [k] := by simp
  have hcases : ∀ k' ∈ ks ++ [k], ∀ row', Finds k' row' → row' = row ∨
      row'.task_name = task ∧ row'.envelope_key = key ∧ row'.outcome = .UNKNOWN := by
    intro k' hk' row' hrow'
    rcases List.mem_append.1 hk' with hk' | hk'
    · obtain ⟨h1, h2, h3, -⟩ := h k' hk' row' hrow'
      exact .inr ⟨h1, h2, h3⟩
    · obtain rfl := List.mem_singleton.1 hk'
      exact .inl ((hrow row').1 hrow')
  refine ⟨fun k' hk' row' hrow' => ?_, fun k' hk' row' hrow' hs => ?_, fun row' hr => ?_,
    fun id hr => ?_, fun e run id hr => nomatch hr⟩
  · rcases hcases k' hk' row' hrow' with rfl | ⟨h1, h2, -⟩
    · exact ⟨htask, hkey⟩
    · exact ⟨h1, h2⟩
  · rcases hcases k' hk' row' hrow' with rfl | ⟨-, -, h3⟩
    · rw [if_neg hs]
    · exact absurd h3 hs
  · split_ifs at hr with hs
    · cases hr
    · cases hr
      exact ⟨hs, k, hk, (hrow _).2 rfl⟩
  · split_ifs at hr with hs
    · cases hr
      exact ⟨k, hk, row, .inl ((hrow row).2 rfl), htask, hkey, rfl⟩
    · cases hr

/-- The reservation from its insert on. -/
theorem reserves_rest {input : EnvelopeInput} {task key received runId : String}
    {prompt : Option String} {ks₂ : List (Call Op World Choice)} {r : Except Thrown ReservedRun}
    (hfound : Found task key runId ks)
    (h : (machine P).Completes (do
      match ← attempt (insertUnknownRunRow input task runId key received prompt) with
      | none => throw (notReserved runId key)
      | some true => return .unknown runId
      | some false =>
        match ← selectRun task key with
        | none => throw (notReserved runId key)
        | some winner =>
          return if winner.outcome = .UNKNOWN then .unknown winner.run_id else .replay winner) ks₂ r) :
    Reserves task key (ks ++ ks₂) r := by
  have herror : ∀ e run id, (.error (notReserved runId key) : Except Thrown ReservedRun) =
      .error (.envelope e run) → run.runId = some id → id = runId := by
    intro e run id hr hid
    cases hr
    exact (Option.some.inj hid).symm
  rcases Machine.completes_bind.1 h with ⟨e, hins, rfl⟩ | ⟨inserted, ks₃, ks₄, rfl, hins, hrest⟩
  · simp [completes_attempt] at hins
  have hquiet : ∀ k ∈ ks₃, ∀ row, ¬ Finds k row := by
    have hissues := (issues_insertUnknownRunRow input task runId key received prompt).mono
      fun _ hop => hop.2
    rcases completes_attempt.1 hins with ⟨_, hins, -⟩ | ⟨⟨_, hins⟩, -⟩
    · exact not_finds_of_issues hins hissues
    · exact not_finds_of_issues hins hissues
  have hfound' := hfound.append hquiet
  rw [← List.append_assoc]
  cases inserted with
  | none =>
    obtain ⟨rfl, rfl⟩ := Machine.completes_halt.1 hrest
    rw [List.append_nil]
    exact hfound'.reserves (by simp) (by simp) herror
  | some won =>
    cases won with
    | true =>
      obtain ⟨rfl, rfl⟩ := Machine.completes_halt.1 hrest
      rw [List.append_nil]
      refine hfound'.reserves (by simp) (fun id hr => ?_) (by simp)
      cases hr
      rcases completes_attempt.1 hins with ⟨a, hins, ha⟩ | ⟨-, ha⟩
      · cases ha
        obtain ⟨k, hk, hrow⟩ := completes_insertUnknownRunRow hins
        exact ⟨rfl, k, List.mem_append_right _ hk, hrow⟩
      · cases ha
    | false =>
      rcases Machine.completes_bind.1 hrest with
        ⟨e, hselect, rfl⟩ | ⟨winner, ks₅, ks₆, rfl, hselect, hlast⟩
      · obtain ⟨k, rfl, -, ⟨he, -, hno⟩ | ⟨he, -⟩ | ⟨row, he, -⟩⟩ := completes_selectRun hselect
        · cases he
          exact (hfound'.append (by simpa using hno)).reserves (by simp) (by simp) (by simp)
        · cases he
        · cases he
      · obtain ⟨k, rfl, -, ⟨he, -⟩ | ⟨he, hno⟩ | ⟨row, he, htask, hkey, hrow⟩⟩ :=
          completes_selectRun hselect
        · cases he
        · cases he
          obtain ⟨rfl, rfl⟩ := Machine.completes_halt.1 hlast
          exact (hfound'.append (by simpa using hno)).reserves (by simp) (by simp) herror
        · cases he
          obtain ⟨rfl, rfl⟩ := Machine.completes_halt.1 hlast
          exact hfound'.reserves_row htask hkey hrow

theorem reserves_reserveRun {input : EnvelopeInput} {task key received : String}
    {prompt : Option String} {r : Except Thrown ReservedRun}
    (h : (machine P).Completes (reserveRun input task key received prompt) ks r) :
    Reserves task key ks r := by
  unfold reserveRun at h
  rcases Machine.completes_bind.1 h with
    ⟨e, hselect, rfl⟩ | ⟨existing, ks₁, ks₂, rfl, hselect, hrest⟩
  · obtain ⟨k, rfl, -, ⟨he, -, hno⟩ | ⟨he, -⟩ | ⟨row, he, -⟩⟩ := completes_selectRun hselect
    · cases he
      have hfound : Found task key "" [k] := fun k' hk' row hrow => by
        rw [List.mem_singleton.1 hk'] at hrow
        exact absurd hrow (hno row)
      exact hfound.reserves (by simp) (by simp) (by simp)
    · cases he
    · cases he
  · obtain ⟨k, rfl, -, ⟨he, -⟩ | ⟨he, hno⟩ | ⟨row, he, htask, hkey, hrow⟩⟩ :=
      completes_selectRun hselect
    · cases he
    · cases he
      simp only [Option.filter_none] at hrest
      rcases Machine.completes_bind.1 hrest with ⟨e, hid, rfl⟩ | ⟨runId, ks₃, ks₄, rfl, hid, hlast⟩
      · rcases Machine.completes_bind.1 hid with ⟨e, hhex, -⟩ | ⟨hex, ks₃, ks₄, rfl, -, hend⟩
        · obtain ⟨t, ch, w, ks', -, hend⟩ := Machine.completes_call.1 hhex
          cases (Machine.completes_halt.1 hend).2
        · cases (Machine.completes_halt.1 hend).2
      · have hnone : ∀ k' ∈ [k] ++ ks₃, ∀ row, ¬ Finds k' row := by
          intro k' hk' row
          rcases List.mem_append.1 hk' with hk' | hk'
          · rw [List.mem_singleton.1 hk']
            exact hno row
          · refine not_finds_of_issues hid ?_ k' hk' row
            exact Script.Issues.bind (Script.issues_perform.2 (by simp)) fun _ => trivial
        have hfound : Found task key runId ([k] ++ ks₃) := fun k' hk' row hrow =>
          absurd hrow (hnone k' hk' row)
        rw [← List.append_assoc]
        exact reserves_rest hfound hlast
    · cases he
      by_cases hs : row.outcome = .UNKNOWN
      · have hfound : Found task key row.run_id [k] := fun k' hk' row' hrow' => by
          rw [List.mem_singleton.1 hk'] at hrow'
          rw [(hrow row').1 hrow']
          exact ⟨htask, hkey, hs, rfl⟩
        simp only [Option.filter_some, hs, ne_eq, not_true, decide_false] at hrest
        exact reserves_rest hfound hrest
      · simp only [Option.filter_some, hs, ne_eq, not_false_eq_true, decide_true] at hrest
        obtain ⟨rfl, rfl⟩ := Machine.completes_halt.1 hrest
        have hfound : Found task key "" ([] : List (Call Op World Choice)) := by simp [Found]
        simpa [hs] using hfound.reserves_row htask hkey hrow

end Calls

/-! ## A submission -/

/-- Just before a call, but for a reading of the clock, the append of the envelope ended with the
outcome. -/
def DomainResult (P : Runtime) (input : EnvelopeInput) (past : List (Call Op World Choice))
    (o : LedgerOutcome) : Prop :=
  ∃ envelope requestId envelopeKey reading calls earlier,
    SUBMIT_RUN_ENVELOPE_INPUT_SCHEMA P input.envelope = some envelope ∧
      past = reading :: (calls.reverse ++ earlier) ∧
        (machine P).Completes (execute P input requestId envelopeKey (submissionOf envelope)) calls
          (.ok o)

/-- What an update of a run says of the append before it. -/
def Derives (P : Runtime) (input : EnvelopeInput) (past : List (Call Op World Choice))
    (k : Call Op World Choice) : Prop :=
  ∀ u, k.op = .updateRun u → ∃ o, DomainResult P input past o ∧
    ∀ e n, o = .error e n → u.outcome = outcomeForGatewayError e

/-- What a submission found, did and answered. -/
structure Accounted (P : Runtime) (input : EnvelopeInput) (ks : List (Call Op World Choice))
    (r : Except Thrown RunEnvelopeReceipt) : Prop where
  keys : ∃ task key, ∀ k ∈ ks, ∀ row, Finds k row → row.task_name = task ∧ row.envelope_key = key
  settled : ∀ k ∈ ks, ∀ row, Finds k row → row.outcome ≠ .UNKNOWN →
    (∀ k' ∈ ks, k'.op.quiet = true) ∧ (∀ receipt, r = .ok receipt → Replays row receipt) ∧
      ∀ e, r = .error e → ∃ k' ∈ ks, Fails k'
  run : ∀ runId, reportedRun r = some runId →
    (∃ k ∈ ks, ∃ row, Finds k row ∧ row.run_id = runId) ∨ ∀ k ∈ ks, ∀ row, ¬ Finds k row
  stored : ∀ receipt, r = .ok receipt → ∃ k ∈ ks, ∃ row, (Finds k row ∨ Inserts k row) ∧
    row.task_name = receipt.task_name ∧ row.envelope_key = receipt.envelope_key ∧
      row.run_id = receipt.run_id
  derived : Along (Derives P input) ks.reverse

section Submission

variable {P : Runtime} {input : EnvelopeInput} {ks : List (Call Op World Choice)}
  {r : Except Thrown RunEnvelopeReceipt}

theorem Derives.older {past : List (Call Op World Choice)} {k : Call Op World Choice}
    (h : Derives P input past k) (earlier : List (Call Op World Choice)) :
    Derives P input (past ++ earlier) k := by
  intro u hu
  obtain ⟨o, ⟨envelope, requestId, key, reading, calls, before, hschema, rfl, hcalls⟩, ho⟩ := h u hu
  exact ⟨o, ⟨envelope, requestId, key, reading, calls, before ++ earlier, hschema, by simp, hcalls⟩,
    ho⟩

/-- Calls that update no run have nothing to derive. -/
theorem along_derives_of_no_update {old : List (Call Op World Choice)}
    (h : ∀ k ∈ old, ∀ u, k.op ≠ .updateRun u) : Along (Derives P input) old := by
  induction old with
  | nil => exact .nil
  | cons k old ih =>
    exact .cons (fun u hu => absurd hu (h k List.mem_cons_self u))
      (ih fun k' hk' => h k' (List.mem_cons_of_mem _ hk'))

theorem along_derives_append {new old : List (Call Op World Choice)}
    (hnew : Along (Derives P input) new) (hold : ∀ k ∈ old, ∀ u, k.op ≠ .updateRun u) :
    Along (Derives P input) (new ++ old) := by
  induction hnew with
  | nil => exact along_derives_of_no_update hold
  | cons hk _ ih => exact .cons (hk.older old) ih

theorem no_update_of_quiet {k : Call Op World Choice} (h : k.op.quiet = true) :
    ∀ u, k.op ≠ .updateRun u := by
  intro u hu
  rw [hu] at h
  cases h

/-- A submission that finds no row and reports no run. -/
theorem accounted_of_nothing (hquiet : ∀ k ∈ ks, k.op.quiet = true)
    (hno : ∀ k ∈ ks, ∀ row, ¬ Finds k row) (hr : ∀ receipt, r ≠ .ok receipt) :
    Accounted P input ks r where
  keys := ⟨"", "", fun k hk row hrow => absurd hrow (hno k hk row)⟩
  settled k hk row hrow := absurd hrow (hno k hk row)
  run _ _ := .inr hno
  stored receipt hrec := absurd hrec (hr receipt)
  derived := along_derives_of_no_update fun k hk =>
    no_update_of_quiet (hquiet k (List.mem_reverse.1 hk))

/-- Quiet calls that find nothing may come first. -/
theorem Accounted.after {ks₀ : List (Call Op World Choice)} (h : Accounted P input ks r)
    (hquiet : ∀ k ∈ ks₀, k.op.quiet = true) (hno : ∀ k ∈ ks₀, ∀ row, ¬ Finds k row) :
    Accounted P input (ks₀ ++ ks) r := by
  have hmem : ∀ k ∈ ks₀ ++ ks, ∀ row, Finds k row → k ∈ ks := fun k hk row hrow =>
    (List.mem_append.1 hk).resolve_left fun hk => hno k hk row hrow
  refine ⟨?_, fun k hk row hrow hs => ?_, fun runId hr => ?_, fun receipt hr => ?_, ?_⟩
  · obtain ⟨task, key, hkeys⟩ := h.keys
    exact ⟨task, key, fun k hk row hrow => hkeys k (hmem k hk row hrow) row hrow⟩
  · obtain ⟨hq, hok, herr⟩ := h.settled k (hmem k hk row hrow) row hrow hs
    refine ⟨fun k' hk' => (List.mem_append.1 hk').elim (hquiet k') (hq k'), hok, fun e he => ?_⟩
    obtain ⟨k', hk', hf⟩ := herr e he
    exact ⟨k', List.mem_append_right _ hk', hf⟩
  · refine (h.run runId hr).imp (fun ⟨k, hk, hrow⟩ => ⟨k, List.mem_append_right _ hk, hrow⟩)
      fun hnone k hk row hrow => hnone k (hmem k hk row hrow) row hrow
  · obtain ⟨k, hk, hrow⟩ := h.stored receipt hr
    exact ⟨k, List.mem_append_right _ hk, hrow⟩
  · rw [List.reverse_append]
    exact along_derives_append h.derived fun k hk =>
      no_update_of_quiet (hquiet k (List.mem_reverse.1 hk))

/-- A submission that ends with the answer of the row that its last call found. -/
theorem accounted_replay {ks₀ ks₁ : List (Call Op World Choice)} {k : Call Op World Choice}
    {row : StoredRunV3Row}
    (hquiet : ∀ k ∈ ks₀, k.op.quiet = true)
    (hrows : ∀ k ∈ ks₀, ∀ row', Finds k row' → row'.task_name = row.task_name ∧
      row'.envelope_key = row.envelope_key ∧ (row'.outcome ≠ .UNKNOWN → row' = row))
    (hk : k ∈ ks₀) (hrow : Finds k row) (h : (machine P).Completes (receiptFromRow P row) ks₁ r) :
    Accounted P input (ks₀ ++ ks₁) r := by
  have hquiet' : ∀ k ∈ ks₀ ++ ks₁, k.op.quiet = true := fun k hk =>
    (List.mem_append.1 hk).elim (hquiet k) fun hk => (h.issues (issues_receiptFromRow row) k hk).1
  have hno : ∀ k ∈ ks₁, ∀ row, ¬ Finds k row :=
    not_finds_of_issues h ((issues_receiptFromRow row).mono fun _ hop => hop.2)
  have hmem : ∀ k ∈ ks₀ ++ ks₁, ∀ row, Finds k row → k ∈ ks₀ := fun k hk row hrow =>
    (List.mem_append.1 hk).resolve_right fun hk => hno k hk row hrow
  have hk' : k ∈ ks₀ ++ ks₁ := List.mem_append_left _ hk
  refine ⟨⟨row.task_name, row.envelope_key, fun k' hk' row' hrow' => ?_⟩,
    fun k' hk' row' hrow' hs => ⟨hquiet', fun receipt hr => ?_, fun e hr => ?_⟩, fun runId hr => ?_,
    fun receipt hr => ?_, along_derives_of_no_update fun k hk =>
      no_update_of_quiet (hquiet' k (List.mem_reverse.1 hk))⟩
  · obtain ⟨htask, hkey, -⟩ := hrows k' (hmem k' hk' row' hrow') row' hrow'
    exact ⟨htask, hkey⟩
  · obtain rfl := (hrows k' (hmem k' hk' row' hrow') row' hrow').2.2 hs
    rcases completes_receiptFromRow h with ⟨receipt', rfl, hrep, -⟩ | ⟨rfl, -⟩
    · cases hr
      exact hrep
    · cases hr
  · rcases completes_receiptFromRow h with ⟨receipt', rfl, -⟩ | ⟨rfl, k', hk', hf⟩
    · cases hr
    · exact ⟨k', List.mem_append_right _ hk', hf⟩
  · rcases completes_receiptFromRow h with ⟨receipt', rfl, hrep, -⟩ | ⟨rfl, -⟩
    · exact .inl ⟨k, hk', row, hrow, hrep.run_id.symm.trans (Option.some.inj hr)⟩
    · cases hr
  · rcases completes_receiptFromRow h with ⟨receipt', rfl, hrep, htask, hkey⟩ | ⟨rfl, -⟩
    · cases hr
      exact ⟨k, hk', row, .inl hrow, htask.symm, hkey.symm, hrep.run_id.symm⟩
    · cases hr

/-- Quiet, and not a read of a run's row. -/
def Op.preparing (op : Op) : Prop :=
  op.quiet = true ∧ ∀ task key, op ≠ .selectRun task key

theorem issues_newRunId : newRunId.Issues Op.preparing :=
  Script.Issues.bind (Script.issues_perform.2 ⟨rfl, by simp⟩) fun _ => trivial

theorem Op.preparing.not_finds {k : Call Op World Choice} (h : k.op.preparing)
    (row : StoredRunV3Row) : ¬ Finds k row :=
  fun hrow => h.2 _ _ hrow.1

/-- Recording a rejected envelope reads at most one row, with its last call. -/
theorem completes_insertInvalidRunRow {task key received blocker : String} {summary : Option String}
    {found : Except Thrown (Option StoredRunV3Row)}
    (h : (machine P).Completes (insertInvalidRunRow input task key received blocker summary) ks
      found) :
    (∀ k ∈ ks, k.op.quiet = true) ∧
      ((∀ row, found ≠ .ok (some row)) ∧ (∀ k ∈ ks, ∀ row, ¬ Finds k row) ∨
        ∃ row ks₀ k, found = .ok (some row) ∧ ks = ks₀ ++ [k] ∧ (∀ k ∈ ks₀, ∀ row, ¬ Finds k row) ∧
          ∀ row', Finds k row' ↔ row' = row) := by
  have hend : ∀ {ks : List (Call Op World Choice)} {found : Except Thrown (Option StoredRunV3Row)},
      (∀ k ∈ ks, k.op.preparing) → (∀ row, found ≠ .ok (some row)) →
      (∀ k ∈ ks, k.op.quiet = true) ∧
        ((∀ row, found ≠ .ok (some row)) ∧ (∀ k ∈ ks, ∀ row, ¬ Finds k row) ∨
          ∃ row ks₀ k, found = .ok (some row) ∧ ks = ks₀ ++ [k] ∧
            (∀ k ∈ ks₀, ∀ row, ¬ Finds k row) ∧ ∀ row', Finds k row' ↔ row' = row) :=
    fun hks hf => ⟨fun k hk => (hks k hk).1, .inl ⟨hf, fun k hk => (hks k hk).not_finds⟩⟩
  rcases Machine.completes_bind.1 h with ⟨e, hid, rfl⟩ | ⟨runId, ks₁, ks₂, rfl, hid, h⟩
  · exact hend (hid.issues issues_newRunId) (by simp)
  have h₁ := hid.issues issues_newRunId
  rcases Machine.completes_bind.1 h with ⟨e, hnow, rfl⟩ | ⟨now, ks₃, ks₄, rfl, hnow, h⟩
  · refine hend (fun k hk => (List.mem_append.1 hk).elim (h₁ k) ?_) (by simp)
    exact hnow.issues (Script.issues_perform.2 ⟨rfl, by simp⟩) k
  have h₃ := hnow.issues (S := Op.preparing) (Script.issues_perform.2 ⟨rfl, by simp⟩)
  rcases Machine.completes_bind.1 h with ⟨e, hins, rfl⟩ | ⟨inserted, ks₅, ks₆, rfl, hins, h⟩
  · refine hend (fun k hk => (List.mem_append.1 hk).elim (h₁ k) fun hk =>
      (List.mem_append.1 hk).elim (h₃ k) ?_) (by simp)
    exact hins.issues (Script.issues_perform.2 ⟨rfl, by simp⟩) k
  have h₅ := hins.issues (S := Op.preparing) (Script.issues_perform.2 ⟨rfl, by simp⟩)
  have hfront : ∀ k ∈ ks₁ ++ (ks₃ ++ ks₅), k.op.preparing := fun k hk =>
    (List.mem_append.1 hk).elim (h₁ k) fun hk => (List.mem_append.1 hk).elim (h₃ k) (h₅ k)
  rw [← List.append_assoc ks₃, ← List.append_assoc ks₁]
  cases inserted with
  | true =>
    obtain ⟨rfl, rfl⟩ := Machine.completes_halt.1 h
    rw [List.append_nil]
    exact hend hfront (by simp)
  | false =>
    obtain ⟨k, rfl, hop, hcases⟩ := completes_selectRun h
    refine ⟨fun k' hk' => ?_, ?_⟩
    · rcases List.mem_append.1 hk' with hk' | hk'
      · exact (hfront k' hk').1
      · rw [List.mem_singleton.1 hk', hop]
        rfl
    · have hno : (∀ row, ¬ Finds k row) → ∀ k' ∈ ks₁ ++ (ks₃ ++ ks₅) ++ [k], ∀ row, ¬ Finds k' row := by
        intro hk k' hk' row
        rcases List.mem_append.1 hk' with hk' | hk'
        · exact (hfront k' hk').not_finds row
        · rw [List.mem_singleton.1 hk']
          exact hk row
      rcases hcases with ⟨rfl, -, hk⟩ | ⟨rfl, hk⟩ | ⟨row, rfl, -, -, hrow⟩
      · exact .inl ⟨by simp, hno hk⟩
      · exact .inl ⟨by simp, hno hk⟩
      · exact .inr ⟨row, _, k, rfl, rfl, fun k' hk' => (hfront k' hk').not_finds, hrow⟩

theorem accounted_rejectEnvelope {task received message : String} {rejected : Json}
    {summary : Option String}
    (h : (machine P).Completes (rejectEnvelope P input task received message rejected summary) ks r) :
    Accounted P input ks r := by
  rcases Machine.completes_bind.1 h with ⟨e, hins, rfl⟩ | ⟨found, ks₁, ks₂, rfl, hins, h⟩
  · obtain ⟨hquiet, ⟨-, hno⟩ | ⟨row, ks₀, k, hf, -⟩⟩ := completes_insertInvalidRunRow hins
    · exact accounted_of_nothing hquiet hno (by simp)
    · cases hf
  · obtain ⟨hquiet, ⟨hf, hno⟩ | ⟨row, ks₀, k, hf, rfl, hno, hrow⟩⟩ :=
      completes_insertInvalidRunRow hins
    · cases found with
      | some row => exact absurd rfl (hf row)
      | none =>
        obtain ⟨rfl, rfl⟩ := Machine.completes_halt.1 h
        rw [List.append_nil]
        exact accounted_of_nothing hquiet hno (by simp)
    · cases hf
      refine accounted_replay hquiet (fun k' hk' row' hrow' => ?_) (List.mem_append_right _
        (List.mem_singleton_self k)) ((hrow row).2 rfl) h
      rcases List.mem_append.1 hk' with hk' | hk'
      · exact absurd hrow' (hno k' hk' row')
      · rw [List.mem_singleton.1 hk'] at hrow'
        rw [(hrow row').1 hrow']
        exact ⟨rfl, rfl, fun _ => rfl⟩

theorem completes_executeAppend {eventCount : Option ℕ}
    {append : OwnerContext → Program CommandAppendResult} {o : Except Thrown LedgerOutcome}
    (h : (machine P).Completes (executeAppend input eventCount append) ks o) : ∃ o', o = .ok o' := by
  rcases Machine.completes_tryCatch.1 h with ⟨o', -, rfl⟩ | ⟨e, ks₁, ks₂, -, -, h⟩
  · exact ⟨o', rfl⟩
  · exact ⟨_, (Machine.completes_halt.1 h).2⟩

/-- The execution of an envelope raises nothing. -/
theorem completes_execute {requestId envelopeKey : String} {submission : Submission}
    {o : Except Thrown LedgerOutcome}
    (h : (machine P).Completes (execute P input requestId envelopeKey submission) ks o) :
    ∃ o', o = .ok o' := by
  cases submission with
  | blocked code => exact ⟨_, (Machine.completes_halt.1 h).2⟩
  | observation freshCount => exact ⟨_, (Machine.completes_halt.1 h).2⟩
  | heartbeat => exact ⟨_, (Machine.completes_halt.1 h).2⟩
  | market payload => exact completes_executeAppend h
  | investment channel payload => exact completes_executeAppend h

theorem completes_clock {now : Except Thrown String} (h : (machine P).Completes clock ks now) :
    ∃ k, ks = [k] ∧ k.op = .clock ∧ now = .ok k.choice.clock := by
  obtain ⟨t, ch, w, ks', rfl, hend⟩ := Machine.completes_call.1 h
  obtain ⟨rfl, rfl⟩ := Machine.completes_halt.1 hend
  exact ⟨_, rfl, rfl, rfl⟩

theorem completes_updateRun {u : RunUpdate} {done : Except Thrown Unit}
    (h : (machine P).Completes (updateRun u) ks done) :
    ∃ k, ks = [k] ∧ k.op = .updateRun u ∧ (done = .ok () ∨ done = .error .raw) := by
  obtain ⟨t, ch, w, ks', rfl, hend⟩ := Machine.completes_call.1 h
  obtain ⟨rfl, rfl⟩ := Machine.completes_halt.1 hend
  refine ⟨_, rfl, rfl, ?_⟩
  cases hanswer : ((machine P).perform ch (.updateRun u) w).1 with
  | ok a => exact .inl rfl
  | error e =>
    obtain ⟨rfl, -⟩ := statement_error hanswer
    exact .inr rfl

/-- The end of a run is one update, and an answer that names the run. -/
theorem completes_finishRun {task runId envelopeKey received summary : String}
    {submission : Submission} {o : LedgerOutcome}
    (h : (machine P).Completes
      (finishRun P input task runId envelopeKey received summary submission o) ks r) :
    ∃ reading k, ks = [reading, k] ∧ reading.op = .clock ∧
      (∃ now, k.op = .updateRun (terminalUpdate input task runId summary now submission
        (terminalOf submission.eventCount o))) ∧
      (∀ receipt, r = .ok receipt → receipt = recordedReceipt P task runId envelopeKey received
        submission (terminalOf submission.eventCount o)) ∧
      ∀ id, reportedRun r = some id → id = runId := by
  rcases Machine.completes_bind.1 h with ⟨e, hnow, -⟩ | ⟨now, ks₁, ks₂, rfl, hnow, hrest⟩
  · obtain ⟨k, -, -, he⟩ := completes_clock hnow
    cases he
  obtain ⟨reading, rfl, hreading, -⟩ := completes_clock hnow
  rcases Machine.completes_bind.1 hrest with ⟨e, hupdate, rfl⟩ | ⟨done, ks₃, ks₄, rfl, hupdate, hend⟩
  · obtain ⟨k, rfl, hk, he | he⟩ := completes_updateRun hupdate
    · cases he
    · cases he
      exact ⟨reading, k, rfl, hreading, ⟨now, hk⟩, by simp, by simp [reportedRun]⟩
  · obtain ⟨k, rfl, hk, -⟩ := completes_updateRun hupdate
    cases o with
    | error e n =>
      obtain ⟨rfl, rfl⟩ := Machine.completes_halt.1 hend
      exact ⟨reading, k, rfl, hreading, ⟨now, hk⟩, by simp, fun id hid => (Option.some.inj hid).symm⟩
    | _ =>
      obtain ⟨rfl, rfl⟩ := Machine.completes_halt.1 hend
      exact ⟨reading, k, rfl, hreading, ⟨now, hk⟩, fun receipt hr => (Except.ok.inj hr).symm,
        fun id hid => (Option.some.inj hid).symm⟩

theorem issues_reserveRun {S : Op → Prop} (task key received : String) (prompt : Option String)
    (hselect : S (.selectRun task key)) (hhex : S .randomHex) (hclock : S .clock)
    (hinsertRun : ∀ row, S (.insertRun row)) : (reserveRun input task key received prompt).Issues S := by
  refine Script.Issues.bind (Script.issues_perform.2 hselect) fun existing => ?_
  have hinsert : ∀ runId, (attempt (insertUnknownRunRow input task runId key received prompt)).Issues S :=
    fun runId => issues_attempt (Script.Issues.bind (Script.issues_perform.2 hclock) fun _ =>
      Script.issues_perform.2 (hinsertRun _))
  have hrest : ∀ runId, (do
      match ← attempt (insertUnknownRunRow input task runId key received prompt) with
      | none => throw (notReserved runId key)
      | some true => return .unknown runId
      | some false =>
        match ← selectRun task key with
        | none => throw (notReserved runId key)
        | some winner =>
          return if winner.outcome = .UNKNOWN then .unknown winner.run_id else .replay winner :
      Program ReservedRun).Issues S := by
    intro runId
    refine (hinsert runId).bind fun inserted => ?_
    match inserted with
    | none => trivial
    | some true => trivial
    | some false =>
      refine Script.Issues.bind (Script.issues_perform.2 hselect) fun winner => ?_
      cases winner with
      | none => trivial
      | some winner => trivial
  dsimp only
  split
  · trivial
  · cases existing with
    | some row => exact hrest row.run_id
    | none =>
      have hid : newRunId.Issues S := Script.Issues.bind (Script.issues_perform.2 hhex) fun _ => trivial
      exact hid.bind hrest

theorem quiet_reserveRun (task key received : String) (prompt : Option String) :
    (reserveRun input task key received prompt).Issues fun op => op.quiet = true :=
  issues_reserveRun _ _ _ _ rfl rfl rfl fun _ => rfl

/-- A submission of an accepted envelope. -/
theorem accounted_processSubmission {task requestId received summary : String} {envelope : Json}
    (hschema : SUBMIT_RUN_ENVELOPE_INPUT_SCHEMA P input.envelope = some envelope)
    (h : (machine P).Completes (processSubmission P input task requestId received summary
      (submissionOf envelope)) ks r) : Accounted P input ks r := by
  rcases Machine.completes_bind.1 h with ⟨e, hkey, rfl⟩ | ⟨envelopeKey, ks₁, ks₂, rfl, hkey, hrest⟩
  · obtain ⟨rfl, -⟩ := Machine.completes_halt.1 hkey
    exact accounted_of_nothing (by simp) (by simp) (by simp)
  obtain ⟨rfl, -⟩ := Machine.completes_halt.1 hkey
  rw [List.nil_append]
  rcases Machine.completes_bind.1 hrest with ⟨e, hres, rfl⟩ | ⟨reserved, ks₃, ks₄, rfl, hres, hlast⟩
  · have hreserves := reserves_reserveRun hres
    refine ⟨⟨task, envelopeKey, hreserves.keys⟩, fun k hk row hrow hs => ?_, fun runId hr => ?_,
      by simp, along_derives_of_no_update fun k hk =>
        no_update_of_quiet (hres.issues (quiet_reserveRun _ _ _ _) k (List.mem_reverse.1 hk))⟩
    · cases hreserves.settled k hk row hrow hs
    · cases e with
      | envelope e run => exact hreserves.error e run runId rfl hr
      | _ => cases hr
  have hquiet : ∀ k ∈ ks₃, k.op.quiet = true := hres.issues (quiet_reserveRun _ _ _ _)
  have hreserves := reserves_reserveRun hres
  cases reserved with
  | replay row =>
    obtain ⟨-, k, hk, hrow⟩ := hreserves.replay row rfl
    obtain ⟨htask, hkey'⟩ := hreserves.keys k hk row hrow
    refine accounted_replay hquiet (fun k' hk' row' hrow' => ?_) hk hrow hlast
    obtain ⟨htask', hkey''⟩ := hreserves.keys k' hk' row' hrow'
    refine ⟨htask'.trans htask.symm, hkey''.trans hkey'.symm, fun hs => ?_⟩
    cases hreserves.settled k' hk' row' hrow' hs
    rfl
  | unknown runId =>
    rcases Machine.completes_bind.1 hlast with ⟨e, hexec, -⟩ | ⟨o, ks₅, ks₆, rfl, hexec, hend⟩
    · obtain ⟨o, ho⟩ := completes_execute hexec
      cases ho
    have hledger : ∀ k ∈ ks₅, k.op.onRuns = false :=
      hexec.issues (issues_execute (fun _ hop => hop) _ _ _ _)
    obtain ⟨reading, k₆, rfl, hreading, ⟨now, hk₆⟩, hok, hid⟩ := completes_finishRun hend
    have hmem : ∀ k ∈ ks₃ ++ (ks₅ ++ [reading, k₆]), ∀ row, Finds k row → k ∈ ks₃ := by
      intro k hk row hrow
      refine (List.mem_append.1 hk).resolve_right fun hk => ?_
      rcases List.mem_append.1 hk with hk | hk
      · have hop := hledger k hk
        rw [hrow.1] at hop
        cases hop
      · rcases List.mem_cons.1 hk with rfl | hk
        · rw [hrow.1] at hreading
          cases hreading
        · rw [List.mem_singleton.1 hk] at hrow
          rw [hrow.1] at hk₆
          cases hk₆
    obtain ⟨k₀, hk₀, row₀, hrow₀, htask, hkey', hrun⟩ := hreserves.unknown runId rfl
    have hk₀' : k₀ ∈ ks₃ ++ (ks₅ ++ [reading, k₆]) := List.mem_append_left _ hk₀
    refine ⟨⟨task, envelopeKey, fun k hk row hrow =>
        hreserves.keys k (hmem k hk row hrow) row hrow⟩, fun k hk row hrow hs => ?_,
      fun id hr => ?_, fun receipt hr => ?_, ?_⟩
    · cases hreserves.settled k (hmem k hk row hrow) row hrow hs
    · obtain rfl := hid id hr
      rcases hrow₀ with hrow₀ | ⟨-, hnone⟩
      · exact .inl ⟨k₀, hk₀', row₀, hrow₀, hrun⟩
      · exact .inr fun k hk row hrow => hnone k (hmem k hk row hrow) row hrow
    · rw [hok receipt hr]
      exact ⟨k₀, hk₀', row₀, hrow₀.imp_right And.left, htask, hkey', hrun⟩
    · have hquiet₃ : ∀ k ∈ ks₃.reverse, ∀ u, k.op ≠ .updateRun u := fun k hk =>
        no_update_of_quiet (hquiet k (List.mem_reverse.1 hk))
      have hledger₅ : ∀ k ∈ ks₅.reverse, ∀ u, k.op ≠ .updateRun u := by
        intro k hk u hu
        have hop := hledger k (List.mem_reverse.1 hk)
        rw [hu] at hop
        cases hop
      have hbefore : ∀ k ∈ reading :: (ks₅.reverse ++ ks₃.reverse), ∀ u, k.op ≠ .updateRun u := by
        intro k hk u
        rcases List.mem_cons.1 hk with rfl | hk
        · rw [hreading]
          simp
        · exact (List.mem_append.1 hk).elim (fun hk => hledger₅ k hk u) fun hk => hquiet₃ k hk u
      have hsplit : (ks₃ ++ (ks₅ ++ [reading, k₆])).reverse =
          k₆ :: (reading :: (ks₅.reverse ++ ks₃.reverse)) := by simp
      rw [hsplit]
      refine .cons (fun u hu => ⟨o, ⟨envelope, requestId, envelopeKey, reading, ks₅, ks₃.reverse,
        hschema, rfl, hexec⟩, fun e n ho => ?_⟩) ?_
      · rw [hk₆] at hu
        cases hu
        rw [ho]
        rfl
      · exact along_derives_of_no_update hbefore

theorem accounted_processRunEnvelope
    (h : (machine P).Completes (processRunEnvelope P input) ks r) : Accounted P input ks r := by
  have hdraw : ∀ {value : Option String} {draw : Program String} {ks : List (Call Op World Choice)}
      {v : Except Thrown String}, draw.Issues Op.preparing →
      (machine P).Completes (givenOr value draw) ks v →
      (∀ k ∈ ks, k.op.quiet = true) ∧ ∀ k ∈ ks, ∀ row, ¬ Finds k row := fun hd hv =>
    ⟨fun k hk => (hv.issues (issues_givenOr hd) k hk).1,
      fun k hk => (hv.issues (issues_givenOr hd) k hk).not_finds⟩
  have hhex : randomHex.Issues Op.preparing := Script.issues_perform.2 ⟨rfl, by simp⟩
  have hclock : clock.Issues Op.preparing := Script.issues_perform.2 ⟨rfl, by simp⟩
  rcases Machine.completes_bind.1 h with ⟨e, hid, rfl⟩ | ⟨requestId, ks₁, ks₂, rfl, hid, h⟩
  · exact accounted_of_nothing (hdraw hhex hid).1 (hdraw hhex hid).2 (by simp)
  refine Accounted.after ?_ (hdraw hhex hid).1 (hdraw hhex hid).2
  rcases Machine.completes_bind.1 h with ⟨e, hnow, rfl⟩ | ⟨received, ks₃, ks₄, rfl, hnow, h⟩
  · exact accounted_of_nothing (hdraw hclock hnow).1 (hdraw hclock hnow).2 (by simp)
  refine Accounted.after ?_ (hdraw hclock hnow).1 (hdraw hclock hnow).2
  cases hschema : SUBMIT_RUN_ENVELOPE_INPUT_SCHEMA P input.envelope with
  | none =>
    simp only [hschema, rejectSchema] at h
    split at h
    · obtain ⟨rfl, rfl⟩ := Machine.completes_halt.1 h
      exact accounted_of_nothing (by simp) (by simp) (by simp)
    · exact accounted_rejectEnvelope h
  | some envelope =>
    simp only [hschema] at h
    split at h
    · exact accounted_rejectEnvelope h
    · exact accounted_processSubmission hschema h

end Submission

/-! ## Every run -/

/-- The threads of some submissions. -/
def submissions (P : Runtime) (inputs : List EnvelopeInput) (t : ℕ) : Program RunEnvelopeReceipt :=
  (inputs[t]?).elim (throw .raw) (processRunEnvelope P)

/-- What the update after a failed append makes of an `UNKNOWN` row: it stays `UNKNOWN` where the
failure is worth a retry; where it is settled, it is `BLOCKED` by a conflict or a chain mismatch and
else `FAILED`. -/
def FailureLeaves (P : Runtime) (k : Call Op World Choice) (e : StateGatewayError) : Prop :=
  ∀ row ∈ k.before.runs, row.outcome = .UNKNOWN → ∀ row' ∈ ((machine P).after k).runs,
    row'.task_name = row.task_name → row'.envelope_key = row.envelope_key →
      (e.retryable = true → row'.outcome = .UNKNOWN) ∧
        (row'.outcome ≠ .UNKNOWN → row'.outcome =
          if e.code = .STATE_CONFLICT ∨ e.code = .STATE_CHAIN_MISMATCH then .BLOCKED else .FAILED)

/-- The rows of the runs and the answers of the submissions, after some steps of a run. -/
structure RunSafety (P : Runtime) (inputs : List EnvelopeInput)
    (c : Config Thrown Op Res World Choice RunEnvelopeReceipt) : Prop where
  one_row : ∀ a ∈ c.world.runs, ∀ b ∈ c.world.runs, a.task_name = b.task_name →
    a.envelope_key = b.envelope_key → a = b
  settled_stays : ∀ k ∈ c.log, ∀ row ∈ k.before.runs, row.outcome ≠ .UNKNOWN →
    row ∈ ((machine P).after k).runs ∧ row ∈ c.world.runs
  replay : ∀ t, ∀ k ∈ c.trace t, ∀ row, Finds k row → row.outcome ≠ .UNKNOWN →
    (∀ k' ∈ c.trace t, k'.op.quiet = true) ∧ ∀ r, c.result? t = some r →
      (∀ receipt, r = .ok receipt → Replays row receipt) ∧
        ∀ e, r = .error e → ∃ k' ∈ c.trace t, Fails k'
  one_run : ∀ k ∈ c.log, ∀ k' ∈ c.log, ∀ row row', Finds k row → Finds k' row' →
    row.task_name = row'.task_name → row.envelope_key = row'.envelope_key →
      row.run_id = row'.run_id
  reported : ∀ t, ∀ k ∈ c.trace t, ∀ row, Finds k row → ∀ r, c.result? t = some r →
    ∀ runId, reportedRun r = some runId → runId = row.run_id
  stored : ∀ t receipt, c.result? t = some (.ok receipt) → ∃ row ∈ c.world.runs,
    row.task_name = receipt.task_name ∧ row.envelope_key = receipt.envelope_key ∧
      row.run_id = receipt.run_id
  failure : ∀ t input, inputs[t]? = some input → Along (fun past k => ∀ u, k.op = .updateRun u →
    ∃ o, DomainResult P input past o ∧ ∀ e n, o = .error e n → FailureLeaves P k e) (c.trace t)

theorem failureLeaves_of_outcome {P : Runtime} {k : Call Op World Choice} {u : RunUpdate}
    {e : StateGatewayError} (hk : k.op = .updateRun u)
    (hu : u.outcome = outcomeForGatewayError e) : FailureLeaves P k e := by
  intro row hrow hunknown row' hrow' htask hkey
  have hcases : row' = row ∨ row'.outcome = u.outcome := by
    obtain ⟨t, op, ch, w⟩ := k
    obtain rfl : op = .updateRun u := hk
    rcases statement_world ch.fault w (.ok (), w.updateRun u) with hw | hw
    · have hmem : row' ∈ w.runs := by
        change row' ∈ (ch.fault.statement w (.ok (), w.updateRun u)).2.runs at hrow'
        rwa [hw] at hrow'
      exact .inl (run_unique hmem hrow htask hkey)
    · have hmem : row' ∈ (w.updateRun u).runs := by
        change row' ∈ (ch.fault.statement w (.ok (), w.updateRun u)).2.runs at hrow'
        rwa [hw] at hrow'
      obtain ⟨a, ha, rfl⟩ := mem_updateRun.1 hmem
      split_ifs at htask hkey ⊢ with happ
      · exact .inr rfl
      · exact .inl (run_unique ha hrow htask hkey)
  rcases hcases with rfl | hout
  · exact ⟨fun _ => hunknown, fun h => absurd hunknown h⟩
  · rw [hout, hu]
    unfold outcomeForGatewayError
    constructor
    · intro hr
      rw [if_pos hr]
    · intro h
      by_cases hr : e.retryable = true
      · rw [if_pos hr] at h
        exact absurd rfl h
      · rw [if_neg hr]

section Run

variable {P : Runtime} {inputs : List EnvelopeInput} {w : World} (es : List (ℕ × Choice))

/-- A row once stored under a key has the run of the row that is there at the end. -/
theorem run_at_end {k : Call Op World Choice} {row : StoredRunV3Row}
    (hk : k ∈ ((machine P).exec (Config.start w (submissions P inputs)) es).log)
    (hrow : Finds k row ∨ Inserts k row) :
    ∃ row' ∈ ((machine P).exec (Config.start w (submissions P inputs)) es).world.runs,
      row'.task_name = row.task_name ∧ row'.envelope_key = row.envelope_key ∧
        row'.run_id = row.run_id := by
  obtain ⟨hstep, hlater⟩ := runsKept_log es k hk
  rcases hrow with ⟨-, -, hfor⟩ | ⟨hop, hf, hins⟩
  · exact (hstep.trans hlater).run row (runFor_eq_some hfor).1
  · refine hlater.run row ?_
    obtain ⟨t, op, ch, w'⟩ := k
    obtain rfl : op = .insertRun row := hop
    have hf' : ch.fault = .none := hf
    have hafter : (machine P).after ⟨t, .insertRun row, ch, w'⟩ = (w'.insertRun row).2 := by
      simp [Machine.after, machine, perform, hf', Fault.statement]
    rw [hafter]
    exact mem_insertRun.2 (.inr ⟨hins, rfl⟩)

/-- What a submission that has ended found, did and answered. -/
theorem accounted_exec {t : ℕ} {input : EnvelopeInput} (ht : inputs[t]? = some input)
    {r : Except Thrown RunEnvelopeReceipt}
    (hr : ((machine P).exec (Config.start w (submissions P inputs)) es).result? t = some r) :
    Accounted P input
      (((machine P).exec (Config.start w (submissions P inputs)) es).trace t).reverse r := by
  have h := Machine.completes_exec es hr
  rw [submissions, ht] at h
  exact accounted_processRunEnvelope h

/-- A thread without a submission calls nothing. -/
theorem trace_of_none {t : ℕ} (ht : inputs[t]? = none) :
    ((machine P).exec (Config.start w (submissions P inputs)) es).trace t = [] := by
  obtain ⟨es', r, hr, later, hlater⟩ := Machine.exists_exec_halt (M := machine P)
    ⟨"", "", .error .raw, .none, .lost, false⟩
    ((machine P).exec (Config.start w (submissions P inputs)) es) t
  rw [← Machine.exec_append] at hr hlater
  have h := Machine.completes_exec (es ++ es') hr
  rw [submissions, ht] at h
  obtain ⟨hnil, -⟩ := Machine.completes_halt.1 h
  rw [List.reverse_eq_nil_iff, hlater] at hnil
  exact (List.append_eq_nil_iff.1 hnil).2

/-- What a submission has found and done so far. -/
theorem accounted_so_far {t : ℕ} {input : EnvelopeInput} (ht : inputs[t]? = some input) :
    (∀ k ∈ ((machine P).exec (Config.start w (submissions P inputs)) es).trace t, ∀ row,
      Finds k row → row.outcome ≠ .UNKNOWN →
        ∀ k' ∈ ((machine P).exec (Config.start w (submissions P inputs)) es).trace t,
          k'.op.quiet = true) ∧
      Along (Derives P input)
        (((machine P).exec (Config.start w (submissions P inputs)) es).trace t) := by
  -- the submission is let go on until it ends
  obtain ⟨es', r, hr, later, hlater⟩ := Machine.exists_exec_halt (M := machine P)
    ⟨"", "", .error .raw, .none, .lost, false⟩
    ((machine P).exec (Config.start w (submissions P inputs)) es) t
  rw [← Machine.exec_append] at hr hlater
  have h := accounted_exec (es ++ es') ht hr
  rw [hlater] at h
  refine ⟨fun k hk row hrow hs k' hk' => ?_, ?_⟩
  · refine (h.settled k ?_ row hrow hs).1 k' ?_
    · exact List.mem_reverse.2 (List.mem_append_right _ hk)
    · exact List.mem_reverse.2 (List.mem_append_right _ hk')
  · have hderived := h.derived
    rw [List.reverse_reverse] at hderived
    exact hderived.of_append

/-- **Safety of run envelopes.** It holds of every run of submissions, from any world and after any
number of steps. -/
theorem run_safety (P : Runtime) (inputs : List EnvelopeInput) (w : World)
    (es : List (ℕ × Choice)) :
    RunSafety P inputs ((machine P).exec (Config.start w (submissions P inputs)) es) := by
  obtain ⟨c, hc⟩ : ∃ c, (machine P).exec (Config.start w (submissions P inputs)) es = c := ⟨_, rfl⟩
  have hlog : ∀ {t k}, k ∈ c.trace t → k ∈ c.log := fun hk => (List.mem_filter.1 hk).1
  have hrun : ∀ {k row}, k ∈ c.log → Finds k row ∨ Inserts k row → ∃ row' ∈ c.world.runs,
      row'.task_name = row.task_name ∧ row'.envelope_key = row.envelope_key ∧
        row'.run_id = row.run_id := by
    intro k row hk hrow
    rw [← hc] at hk ⊢
    exact run_at_end es hk hrow
  have hone : ∀ k ∈ c.log, ∀ k' ∈ c.log, ∀ row row', Finds k row → Finds k' row' →
      row.task_name = row'.task_name → row.envelope_key = row'.envelope_key →
        row.run_id = row'.run_id := by
    intro k hk k' hk' row row' hrow hrow' htask hkey
    obtain ⟨a, ha, hat, hak, har⟩ := hrun hk (.inl hrow)
    obtain ⟨b, hb, hbt, hbk, hbr⟩ := hrun hk' (.inl hrow')
    have hab := run_unique ha hb (hat.trans (htask.trans hbt.symm)) (hak.trans (hkey.trans hbk.symm))
    rw [← har, ← hbr, hab]
  have hended : ∀ {t k r}, k ∈ c.trace t → c.result? t = some r →
      ∃ input, Accounted P input (c.trace t).reverse r := by
    intro t k r hk hr
    cases ht : inputs[t]? with
    | none =>
      rw [← hc, trace_of_none es ht] at hk
      exact absurd hk List.not_mem_nil
    | some input =>
      rw [← hc] at hr ⊢
      exact ⟨input, accounted_exec es ht hr⟩
  rw [hc]
  refine ⟨fun a ha b hb => run_unique ha hb, fun k hk row hrow hs => ?_,
    fun t k hk row hrow hs => ⟨?_, fun r hr => ?_⟩, hone, fun t k hk row hrow r hr runId hid => ?_,
    fun t receipt hr => ?_, fun t input ht => ?_⟩
  · rw [← hc] at hk ⊢
    obtain ⟨hstep, hlater⟩ := runsKept_log es k hk
    exact ⟨hstep.settled row hrow hs, hlater.settled row (hstep.settled row hrow hs) hs⟩
  · cases ht : inputs[t]? with
    | none =>
      rw [← hc, trace_of_none es ht] at hk
      exact absurd hk List.not_mem_nil
    | some input =>
      rw [← hc] at hk ⊢
      exact (accounted_so_far es ht).1 k hk row hrow hs
  · obtain ⟨input, hacc⟩ := hended hk hr
    obtain ⟨-, hok, herr⟩ := hacc.settled k (List.mem_reverse.2 hk) row hrow hs
    refine ⟨hok, fun e he => ?_⟩
    obtain ⟨k', hk', hf⟩ := herr e he
    exact ⟨k', List.mem_reverse.1 hk', hf⟩
  · obtain ⟨input, hacc⟩ := hended hk hr
    rcases hacc.run runId hid with ⟨k', hk', row', hrow', rfl⟩ | hnone
    · obtain ⟨task, key, hkeys⟩ := hacc.keys
      obtain ⟨ht, hkey⟩ := hkeys k (List.mem_reverse.2 hk) row hrow
      obtain ⟨ht', hkey'⟩ := hkeys k' hk' row' hrow'
      exact hone k' (hlog (List.mem_reverse.1 hk')) k (hlog hk) row' row hrow' hrow
        (ht'.trans ht.symm) (hkey'.trans hkey.symm)
    · exact absurd hrow (hnone k (List.mem_reverse.2 hk) row)
  · cases ht : inputs[t]? with
    | none =>
      have h := Machine.completes_exec (M := machine P) es (hc ▸ hr)
      rw [submissions, ht] at h
      cases (Machine.completes_halt.1 h).2
    | some input =>
      have hacc := accounted_exec es ht (hc ▸ hr)
      obtain ⟨k, hk, row, hrow, htask, hkey, hid⟩ := hacc.stored receipt rfl
      rw [hc] at hk
      obtain ⟨row', hrow', htask', hkey', hid'⟩ := hrun (hlog (List.mem_reverse.1 hk)) hrow
      exact ⟨row', hrow', htask'.trans htask, hkey'.trans hkey, hid'.trans hid⟩
  · rw [← hc]
    refine (accounted_so_far es ht).2.mono fun past k hd u hu => ?_
    obtain ⟨o, ho, hout⟩ := hd u hu
    exact ⟨o, ho, fun e n heq => failureLeaves_of_outcome hu (hout e n heq)⟩

end Run

end QuantproCollector.StateGateway
