import QuantproCollector.AutomationRun.LegacyEvents
import QuantproCollector.Lib.JsonNormal

/-!
# The order of legacy events

A run has an event of each phase at most, so its row is a function of a started and a final event:
whatever the order in which they arrive, and so is the row of the backfill. The time that the run was
scheduled for is the exception. It is taken from the event that comes first, and by the backfill from
the one that names the later time.
-/

namespace QuantproCollector.AutomationRun

/-! ## The row after events -/

/-- The event of a phase, of some that have one at most. -/
def eventOfPhase (phase : AutomationRunPhase) (events : List AutomationRunEventInput) :
    Option AutomationRunEventInput :=
  events.find? fun e => decide (e.phase = phase)

/-- A row without the times of its writing and the stamps of the server's build. -/
def LegacyRun.unstamped (r : LegacyRun) : LegacyRun :=
  { r with
    collector_build_sha := none
    cloudflare_version_id := none
    created_at := ""
    updated_at := "" }

/-- The row that a started and a final event make. -/
def mergedRun (P : Runtime) (task run : String) (started final : Option AutomationRunEventInput) :
    LegacyRun where
  task_name := task
  run_id := run
  scheduled_for := (started.bind (·.scheduled_for)).or (final.bind (·.scheduled_for))
  started_at := started.map (·.occurred_at)
  finished_at := final.map (·.occurred_at)
  outcome := final.map (·.status)
  fresh_delta_count := final.bind (·.fresh_delta_count)
  notification_sent_legacy := final.bind (·.notification_sent)
  reason := final.bind fun e => e.blocker_code.or e.safe_summary
  prompt_version := (final.bind (·.prompt_version)).or (started.bind (·.prompt_version))
  collector_build_sha := none
  cloudflare_version_id := none
  source_contract := .legacyEventV1
  legacy_trace_id := (final.bind (·.trace_id)).or (started.bind (·.trace_id))
  legacy_started_sha256 := started.map (·.digest P)
  legacy_final_sha256 := final.map (·.digest P)
  created_at := ""
  updated_at := ""

/-- A run has one event of a phase at most, and its events name one time that it was scheduled for
at most. -/
structure Consistent (events : List AutomationRunEventInput) : Prop where
  one : ∀ e ∈ events, ∀ e' ∈ events, e.phase = e'.phase → e = e'
  scheduled : ∀ e ∈ events, ∀ e' ∈ events, ∀ t t', e.scheduled_for = some t →
    e'.scheduled_for = some t' → t = t'

/-- The row of a run after some of its events. -/
def HasRow (P : Runtime) (task run : String) (done : List AutomationRunEventInput) :
    Option LegacyRun → Prop
  | none => done = []
  | some row => done ≠ [] ∧ row.unstamped =
      mergedRun P task run (eventOfPhase .STARTED done) (eventOfPhase .FINAL done)

/-- An event that the ledger accepts. -/
def Accepted (P : Runtime) (e : AutomationRunEventInput) : Prop :=
  ∃ input, parseLegacyEvent P input = .ok e

theorem Accepted.notification {P : Runtime} {e : AutomationRunEventInput} (h : Accepted P e)
    (hfinal : e.phase = .FINAL) : ∃ b, e.notification_sent = some b := by
  obtain ⟨input, hinput⟩ := h
  unfold parseLegacyEvent at hinput
  split at hinput
  · cases hinput
  · dsimp only at hinput
    split_ifs at hinput
    split at hinput
    · cases hinput
    · rename_i data _ _ hcomplaint
      obtain rfl := Except.ok.inj hinput
      unfold phaseComplaint at hcomplaint
      rw [hfinal] at hcomplaint
      dsimp only at hcomplaint
      split_ifs at hcomplaint with h1 h2
      exact Option.ne_none_iff_exists'.1 h2

theorem eventOfPhase_append (phase : AutomationRunPhase) (done : List AutomationRunEventInput)
    (e : AutomationRunEventInput) : eventOfPhase phase (done ++ [e]) =
      (eventOfPhase phase done).or (if e.phase = phase then some e else none) := by
  rw [eventOfPhase, List.find?_append, ← eventOfPhase]
  congr 1
  by_cases hphase : e.phase = phase <;> simp [hphase]

theorem mem_of_eventOfPhase {phase : AutomationRunPhase} {events : List AutomationRunEventInput}
    {e : AutomationRunEventInput} (h : eventOfPhase phase events = some e) :
    e ∈ events ∧ e.phase = phase := by
  unfold eventOfPhase at h
  have hfound := List.find?_some h
  exact ⟨List.mem_of_find?_eq_some h, of_decide_eq_true hfound⟩

theorem or_comm_of_agree {α : Type} {x y : Option α}
    (h : ∀ t t', x = some t → y = some t' → t = t') : x.or y = y.or x := by
  cases x with
  | none => exact (Option.or_none).symm
  | some t =>
    cases y with
    | none => rfl
    | some t' => exact congrArg some (h t t' rfl rfl)

theorem hasRow_next {P : Runtime} {task run : String} {done : List AutomationRunEventInput}
    {row : Option LegacyRun} {a : EventArrival} {e : AutomationRunEventInput}
    (he : e.task_name = task ∧ e.run_id = run) (haccepted : Accepted P e)
    (hconsistent : Consistent (done ++ [e])) (h : HasRow P task run done row) :
    HasRow P task run (done ++ [e]) (some (nextRow a e (e.digest P) row)) := by
  obtain ⟨rfl, rfl⟩ := he
  refine ⟨List.append_ne_nil_of_right_ne_nil _ (List.cons_ne_nil _ _), ?_⟩
  rw [eventOfPhase_append, eventOfPhase_append]
  cases row with
  | none =>
    obtain rfl : done = [] := h
    cases hphase : e.phase with
    | STARTED => simp [nextRow, insertedRow, LegacyRun.unstamped, mergedRun, eventOfPhase, hphase]
    | FINAL => simp [nextRow, insertedRow, LegacyRun.unstamped, mergedRun, eventOfPhase, hphase]
  | some r =>
    obtain ⟨hdone, hrow⟩ := h
    obtain ⟨task, run, scheduled, started, finished, outcome, count, sent, reason, prompt, sha, version,
      source, trace, startedHash, finalHash, created, updated⟩ := r
    simp only [LegacyRun.unstamped, mergedRun, LegacyRun.mk.injEq, true_and, and_true] at hrow
    obtain ⟨rfl, rfl, rfl, rfl, rfl, rfl, rfl, rfl, rfl, rfl, rfl, rfl, rfl, rfl⟩ := hrow
    cases hphase : e.phase with
    | STARTED =>
      cases hstarted : eventOfPhase .STARTED done with
      | some s => simp [nextRow, LegacyRun.phaseHash, LegacyRun.unstamped, mergedRun, hphase]
      | none =>
        have hscheduled : ((eventOfPhase .FINAL done).bind (·.scheduled_for)).or e.scheduled_for =
            e.scheduled_for.or ((eventOfPhase .FINAL done).bind (·.scheduled_for)) := by
          refine or_comm_of_agree fun t t' hfinal hevent => ?_
          obtain ⟨f, hf, hft⟩ := Option.bind_eq_some_iff.1 hfinal
          exact hconsistent.scheduled f (List.mem_append_left _ (mem_of_eventOfPhase hf).1) e
            (List.mem_append_right _ (List.mem_singleton_self e)) t t' hft hevent
        simp [nextRow, LegacyRun.phaseHash, LegacyRun.unstamped, mergedRun, hphase, startedUpdate,
          hscheduled]
    | FINAL =>
      obtain ⟨sent, hsent⟩ := haccepted.notification hphase
      cases hfinal : eventOfPhase .FINAL done with
      | some f => simp [nextRow, LegacyRun.phaseHash, LegacyRun.unstamped, mergedRun, hphase]
      | none =>
        simp [nextRow, LegacyRun.phaseHash, LegacyRun.unstamped, mergedRun, hphase, finalUpdate, hsent]

theorem Consistent.subset {events some : List AutomationRunEventInput} (h : Consistent events)
    (hsome : ∀ e ∈ some, e ∈ events) : Consistent some :=
  ⟨fun e he e' he' => h.one e (hsome e he) e' (hsome e' he'),
    fun e he e' he' => h.scheduled e (hsome e he) e' (hsome e' he')⟩

/-- The arrivals of some events, in some order and with repetitions. -/
def Arrives (P : Runtime) (order : List AutomationRunEventInput) (arrivals : List EventArrival) : Prop :=
  List.Forall₂ (fun e a => parseLegacyEvent P a.event = .ok e) order arrivals

/-- Every event leaves the row of the events so far. -/
theorem hasRow_deliver {P : Runtime} {task run : String} {done order : List AutomationRunEventInput}
    {arrivals : List EventArrival} {table : RunTable}
    (hkeys : ∀ e ∈ order, e.task_name = task ∧ e.run_id = run)
    (hconsistent : Consistent (done ++ order)) (harrives : Arrives P order arrivals)
    (h : HasRow P task run done (readLegacyRun table task run)) :
    HasRow P task run (done ++ order) (readLegacyRun (deliver P arrivals table) task run) := by
  induction harrives generalizing done table with
  | nil => rwa [List.append_nil]
  | @cons e a order arrivals hparse _ ih =>
    rw [List.forall_mem_cons] at hkeys
    have hassoc : done ++ e :: order = done ++ [e] ++ order := by
      rw [List.append_assoc, List.singleton_append]
    rw [hassoc] at hconsistent ⊢
    refine ih hkeys.2 hconsistent ?_
    obtain ⟨rfl, rfl⟩ := hkeys.1
    rw [readLegacyRun_record hparse]
    exact hasRow_next ⟨rfl, rfl⟩ ⟨a.event, hparse⟩
      (hconsistent.subset fun x hx => List.mem_append_left _ hx) h

/-- Lists of the same events have the same event of a phase. -/
theorem eventOfPhase_congr {order events : List AutomationRunEventInput}
    (hsame : ∀ e, e ∈ order ↔ e ∈ events) (hconsistent : Consistent events)
    (phase : AutomationRunPhase) : eventOfPhase phase order = eventOfPhase phase events := by
  have hnone : ∀ xs : List AutomationRunEventInput,
      eventOfPhase phase xs = none ↔ ∀ e ∈ xs, e.phase ≠ phase := by
    intro xs
    rw [eventOfPhase, List.find?_eq_none]
    simp only [decide_eq_true_eq]
  cases horder : eventOfPhase phase order with
  | none =>
    refine ((hnone events).2 fun e he => ?_).symm
    exact (hnone order).1 horder e ((hsame e).2 he)
  | some e =>
    obtain ⟨hmem, hphase⟩ := mem_of_eventOfPhase horder
    cases hevents : eventOfPhase phase events with
    | none => exact absurd hphase ((hnone events).1 hevents e ((hsame e).1 hmem))
    | some e' =>
      obtain ⟨hmem', hphase'⟩ := mem_of_eventOfPhase hevents
      exact congrArg some (hconsistent.one e ((hsame e).1 hmem) e' hmem' (hphase.trans hphase'.symm))

/-! ## The row of the backfill -/

/-- The legacy table has these events, and no others of their run. -/
structure Recorded (P : Runtime) (events : List AutomationRunEventInput) (rows : List LegacyEventRow) :
    Prop where
  only : ∀ r ∈ rows, r.event ∈ events ∧ r.payload_sha256 = r.event.digest P
  all : ∀ e ∈ events, ∃ r ∈ rows, r.event = e

theorem foldl_max_const {α : Type} [Max α] {v : α} (hidem : max v v = v) {xs : List α}
    (h : ∀ x ∈ xs, x = v) : xs.foldl max v = v := by
  induction xs with
  | nil => rfl
  | cons x xs ih =>
    rw [List.forall_mem_cons] at h
    rw [List.foldl_cons, h.1, hidem, ih h.2]

/-- The maximum of values that are one value or `NULL`. -/
theorem sqlMax_eq {α : Type} [Max α] (hidem : ∀ v : α, max v v = v) {values : List (Option α)}
    {o : Option α} (honly : ∀ x ∈ values, x = none ∨ x = o) (hmem : o = none ∨ o ∈ values) :
    sqlMax values = o := by
  have hvalues : ∀ x ∈ values.reduceOption, some x = o := by
    intro x hx
    exact (honly _ (List.reduceOption_mem_iff.1 hx)).resolve_left nofun
  unfold sqlMax
  cases hlist : values.reduceOption with
  | nil =>
    cases o with
    | none => rfl
    | some v =>
      have hv : v ∈ values.reduceOption := List.reduceOption_mem_iff.2 (hmem.resolve_left nofun)
      rw [hlist] at hv
      cases hv
  | cons x xs =>
    rw [hlist, List.forall_mem_cons] at hvalues
    rw [List.max?_cons', foldl_max_const (hidem x) fun y hy =>
      Option.some.inj ((hvalues.2 y hy).trans hvalues.1.symm)]
    exact hvalues.1

theorem maxOfPhase_eq {α : Type} [Max α] (hidem : ∀ v : α, max v v = v) {P : Runtime}
    {events : List AutomationRunEventInput} {rows : List LegacyEventRow} (hrows : Recorded P events rows)
    (hconsistent : Consistent events) (phase : AutomationRunPhase) {f : LegacyEventRow → Option α}
    {g : AutomationRunEventInput → Option α} (hf : ∀ r ∈ rows, f r = g r.event) :
    maxOfPhase phase rows f = (eventOfPhase phase events).bind g := by
  have hphase : ∀ r ∈ rows, r.event.phase = phase → eventOfPhase phase events = some r.event := by
    intro r hr hr'
    have hmem := (hrows.only r hr).1
    cases hfound : eventOfPhase phase events with
    | none =>
      have hnot := List.find?_eq_none.1 hfound r.event hmem
      exact absurd (decide_eq_true hr') hnot
    | some e =>
      obtain ⟨he, hphase⟩ := mem_of_eventOfPhase hfound
      exact congrArg some (hconsistent.one e he r.event hmem (hphase.trans hr'.symm))
  refine sqlMax_eq hidem (fun x hx => ?_) ?_
  · obtain ⟨r, hr, rfl⟩ := List.mem_map.1 hx
    split_ifs with hr'
    · rw [hphase r hr hr', Option.bind_some]
      exact .inr (hf r hr)
    · exact .inl rfl
  · cases hfound : eventOfPhase phase events with
    | none => exact .inl rfl
    | some e =>
      obtain ⟨he, he'⟩ := mem_of_eventOfPhase hfound
      obtain ⟨r, hr, rfl⟩ := hrows.all e he
      refine .inr (List.mem_map.2 ⟨r, hr, ?_⟩)
      rw [if_pos he', hf r hr, Option.bind_some]

/-- The one time that the events name, where they name one. -/
theorem scheduled_eq {events : List AutomationRunEventInput} (hconsistent : Consistent events)
    {o : Option String} (ho : o = ((eventOfPhase .STARTED events).bind (·.scheduled_for)).or
      ((eventOfPhase .FINAL events).bind (·.scheduled_for))) :
    (∀ e ∈ events, e.scheduled_for = none ∨ e.scheduled_for = o) ∧
      (o = none ∨ ∃ e ∈ events, e.scheduled_for = o) := by
  have hsource : ∀ t, o = some t → ∃ e ∈ events, e.scheduled_for = some t := by
    intro t ht
    rw [ho, Option.or_eq_some_iff] at ht
    rcases ht with ht | ⟨-, ht⟩
    · obtain ⟨e, he, het⟩ := Option.bind_eq_some_iff.1 ht
      exact ⟨e, (mem_of_eventOfPhase he).1, het⟩
    · obtain ⟨e, he, het⟩ := Option.bind_eq_some_iff.1 ht
      exact ⟨e, (mem_of_eventOfPhase he).1, het⟩
  have hpresent : ∀ e ∈ events, e.scheduled_for ≠ none → o ≠ none := by
    intro e he hsome hnone
    rw [hnone, eq_comm, Option.or_eq_none_iff] at ho
    have hfound : (eventOfPhase e.phase events).bind (·.scheduled_for) = none := by
      cases hphase : e.phase with
      | STARTED => exact ho.1
      | FINAL => exact ho.2
    cases hevent : eventOfPhase e.phase events with
    | none => exact List.find?_eq_none.1 hevent e he (decide_eq_true rfl)
    | some e' =>
      obtain ⟨he', hphase⟩ := mem_of_eventOfPhase hevent
      rw [hevent, hconsistent.one e' he' e he hphase, Option.bind_some] at hfound
      exact hsome hfound
  constructor
  · intro e he
    cases htime : e.scheduled_for with
    | none => exact .inl rfl
    | some t =>
      obtain ⟨t', ht'⟩ := Option.ne_none_iff_exists'.1 (hpresent e he (by rw [htime]; exact nofun))
      obtain ⟨e', he', htime'⟩ := hsource t' ht'
      rw [ht', hconsistent.scheduled e he e' he' t t' htime htime']
      exact .inr rfl
  · cases hsome : o with
    | none => exact .inl rfl
    | some t => exact .inr (hsource t hsome)

/-- The backfill makes the row that the started and the final event make. -/
theorem backfillRow_eq {P : Runtime} {task run : String} {events : List AutomationRunEventInput}
    {rows : List LegacyEventRow} (hrows : Recorded P events rows) (hconsistent : Consistent events) :
    (backfillRow task run rows).unstamped =
      mergedRun P task run (eventOfPhase .STARTED events) (eventOfPhase .FINAL events) := by
  have htext : ∀ v : String, max v v = v := fun v => max_self v
  have hscheduled : sqlMax (rows.map (·.event.scheduled_for)) =
      ((eventOfPhase .STARTED events).bind (·.scheduled_for)).or
        ((eventOfPhase .FINAL events).bind (·.scheduled_for)) := by
    obtain ⟨honly, hmem⟩ := scheduled_eq hconsistent rfl
    refine sqlMax_eq htext (fun x hx => ?_) (hmem.imp_right ?_)
    · obtain ⟨r, hr, rfl⟩ := List.mem_map.1 hx
      exact honly r.event (hrows.only r hr).1
    · rintro ⟨e, he, htime⟩
      obtain ⟨r, hr, rfl⟩ := hrows.all e he
      exact List.mem_map.2 ⟨r, hr, htime⟩
  have hevents : ∀ phase (g : AutomationRunEventInput → Option String),
      maxOfPhase phase rows (fun r => g r.event) = (eventOfPhase phase events).bind g :=
    fun phase g => maxOfPhase_eq htext hrows hconsistent phase fun _ _ => rfl
  have hdigests : ∀ phase, maxOfPhase phase rows (fun r => some r.payload_sha256) =
      (eventOfPhase phase events).bind fun e => some (e.digest P) :=
    fun phase => maxOfPhase_eq htext hrows hconsistent phase fun r hr =>
      congrArg some (hrows.only r hr).2
  have hcount : maxOfPhase .FINAL rows (·.event.fresh_delta_count) =
      (eventOfPhase .FINAL events).bind (·.fresh_delta_count) :=
    maxOfPhase_eq (fun v => max_self v) hrows hconsistent .FINAL fun _ _ => rfl
  have hsent : maxOfPhase .FINAL rows (·.event.notification_sent) =
      (eventOfPhase .FINAL events).bind (·.notification_sent) :=
    maxOfPhase_eq (fun v => max_self v) hrows hconsistent .FINAL fun _ _ => rfl
  have hbind : ∀ (o : Option AutomationRunEventInput) (g : AutomationRunEventInput → String),
      (o.bind fun e => some (g e)) = o.map g := fun o g => by cases o <;> rfl
  have hreason : ∀ o : Option AutomationRunEventInput,
      (o.bind (·.blocker_code)).or (o.bind (·.safe_summary)) =
        o.bind fun e => e.blocker_code.or e.safe_summary := fun o => by cases o <;> rfl
  simp only [backfillRow, LegacyRun.unstamped, mergedRun, LegacyRun.mk.injEq, true_and, and_true]
  rw [hscheduled, hcount, hsent, hdigests, hdigests, hevents .STARTED fun e => some e.occurred_at,
    hevents .FINAL fun e => some e.occurred_at, hevents .FINAL fun e => some e.status,
    hevents .FINAL (·.blocker_code), hevents .FINAL (·.safe_summary), hevents .FINAL (·.prompt_version),
    hevents .STARTED (·.prompt_version), hevents .FINAL (·.trace_id), hevents .STARTED (·.trace_id)]
  simp only [hbind, hreason, and_self]

/-! ## What the first event leaves -/

/-- A row has an event's digest and the time that it names, if it names one. -/
structure HasEvent (P : Runtime) (e : AutomationRunEventInput) (r : LegacyRun) : Prop where
  hash : r.phaseHash e.phase = some (e.digest P)
  scheduled : ∀ t, e.scheduled_for = some t → r.scheduled_for = some t

theorem hasEvent_inserted (P : Runtime) (a : EventArrival) (e : AutomationRunEventInput) :
    HasEvent P e (insertedRow a e (e.digest P)) := by
  refine ⟨?_, fun t ht => ht⟩
  cases hphase : e.phase <;> simp [insertedRow, LegacyRun.phaseHash, hphase]

/-- What the first event of a row has written, a later one leaves. -/
theorem HasEvent.next {P : Runtime} {e : AutomationRunEventInput} {r : LegacyRun}
    (h : HasEvent P e r) (a : EventArrival) (e' : AutomationRunEventInput) :
    HasEvent P e (nextRow a e' (e'.digest P) (some r)) := by
  unfold nextRow
  dsimp only
  split_ifs with hwrites
  · have hne : e.phase ≠ e'.phase := by
      intro hphase
      rw [← hphase, h.hash] at hwrites
      cases hwrites.2
    cases hphase : e'.phase with
    | STARTED =>
      refine ⟨?_, fun t ht => ?_⟩
      · have hhash := h.hash
        cases hphase' : e.phase with
        | STARTED => exact absurd (hphase'.trans hphase.symm) hne
        | FINAL =>
          rw [hphase'] at hhash
          exact hhash
      · exact Option.or_eq_some_iff.2 (.inl (h.scheduled t ht))
    | FINAL =>
      refine ⟨?_, fun t ht => ?_⟩
      · have hhash := h.hash
        cases hphase' : e.phase with
        | STARTED =>
          rw [hphase'] at hhash
          exact hhash
        | FINAL => exact absurd (hphase'.trans hphase.symm) hne
      · exact Option.or_eq_some_iff.2 (.inl (h.scheduled t ht))
  · exact h

theorem hasEvent_deliver {P : Runtime} {task run : String} {e : AutomationRunEventInput}
    {order : List AutomationRunEventInput} {arrivals : List EventArrival} {table : RunTable}
    (hkeys : ∀ e ∈ order, e.task_name = task ∧ e.run_id = run) (harrives : Arrives P order arrivals)
    {r : LegacyRun} (hrow : readLegacyRun table task run = some r) (h : HasEvent P e r) :
    ∃ r', readLegacyRun (deliver P arrivals table) task run = some r' ∧ HasEvent P e r' := by
  induction harrives generalizing table r with
  | nil => exact ⟨r, hrow, h⟩
  | @cons e' a order arrivals hparse _ ih =>
    rw [List.forall_mem_cons] at hkeys
    obtain ⟨rfl, rfl⟩ := hkeys.1
    refine ih hkeys.2 ?_ (h.next a e')
    rw [readLegacyRun_record hparse, hrow]

/-- With an event first, the row has what the event wrote. -/
theorem hasEvent_of_first {P : Runtime} {e : AutomationRunEventInput}
    {order : List AutomationRunEventInput} {arrivals : List EventArrival}
    (hkeys : ∀ e' ∈ order, e'.task_name = e.task_name ∧ e'.run_id = e.run_id)
    (harrives : Arrives P (e :: order) arrivals) :
    ∃ r, readLegacyRun (deliver P arrivals []) e.task_name e.run_id = some r ∧ HasEvent P e r := by
  rcases harrives with _ | ⟨hparse, hrest⟩
  rename_i a arrivals
  have hfirst := readLegacyRun_record hparse ([] : RunTable)
  have hlater : ∃ r, readLegacyRun (deliver P arrivals (recordAutomationRunEvent P a []).2)
      e.task_name e.run_id = some r ∧ HasEvent P e r :=
    hasEvent_deliver hkeys hrest hfirst (hasEvent_inserted P a e)
  exact hlater

/-! ## Order and backfill -/

theorem textOrNull_inj {s t : Option String}
    (h : (textOrNull s).rebuiltText = (textOrNull t).rebuiltText) : s = t := by
  cases s with
  | none =>
    cases t with
    | none => rfl
    | some t => exact absurd h Json.rebuiltText_null_str
  | some s =>
    cases t with
    | none => exact absurd h.symm Json.rebuiltText_null_str
    | some t => exact congrArg some (Json.rebuiltText_str.1 h)

theorem boolOrNull_inj {b c : Option Bool}
    (h : (boolOrNull b).rebuiltText = (boolOrNull c).rebuiltText) : b = c := by
  rw [Json.rebuiltText_eq_iff] at h
  cases b <;> cases c <;> simp_all [boolOrNull, Json.canonicalize]

theorem countOrNull_inj {m n : Option (Fin 10001)}
    (h : (countOrNull m).rebuiltText = (countOrNull n).rebuiltText) : m = n := by
  rw [Json.rebuiltText_eq_iff] at h
  cases m with
  | none =>
    cases n with
    | none => rfl
    | some n => simp [countOrNull, Json.canonicalize] at h
  | some m =>
    cases n with
    | none => simp [countOrNull, Json.canonicalize] at h
    | some n =>
      simp only [countOrNull, Json.canonicalize, Json.num.injEq] at h
      exact congrArg some (Fin.ext (Int.natCast_inj.1 (Decimal.ofInt_injective h)))

theorem AutomationRunPhase.text_inj {p q : AutomationRunPhase} (h : p.text = q.text) : p = q := by
  cases p <;> cases q <;> first | rfl | exact absurd h (by decide)

/-- Two events are digested from one text only where they are one event. -/
theorem callerPayload_inj {e e' : AutomationRunEventInput}
    (h : e.callerPayload.rebuiltText = e'.callerPayload.rebuiltText) : e = e' := by
  have hpaired := Json.rebuiltText_paired [("task_name", .str e.task_name, .str e'.task_name),
    ("run_id", .str e.run_id, .str e'.run_id), ("phase", .str e.phase.text, .str e'.phase.text),
    ("status", .str e.status, .str e'.status),
    ("scheduled_for", textOrNull e.scheduled_for, textOrNull e'.scheduled_for),
    ("occurred_at", .str e.occurred_at, .str e'.occurred_at),
    ("notification_sent", boolOrNull e.notification_sent, boolOrNull e'.notification_sent),
    ("fresh_delta_count", countOrNull e.fresh_delta_count, countOrNull e'.fresh_delta_count),
    ("blocker_code", textOrNull e.blocker_code, textOrNull e'.blocker_code),
    ("trace_id", textOrNull e.trace_id, textOrNull e'.trace_id),
    ("prompt_version", textOrNull e.prompt_version, textOrNull e'.prompt_version),
    ("safe_summary", textOrNull e.safe_summary, textOrNull e'.safe_summary)]
  have hfields := hpaired.1 h
  simp only [List.forall_mem_cons, Json.rebuiltText_str] at hfields
  obtain ⟨htask, hrun, hphase, hstatus, hscheduled, hoccurred, hsent, hcount, hblocker, htrace, hprompt,
    hsummary, -⟩ := hfields
  have hphase := AutomationRunPhase.text_inj hphase
  have hscheduled := textOrNull_inj hscheduled
  have hsent := boolOrNull_inj hsent
  have hcount := countOrNull_inj hcount
  have hblocker := textOrNull_inj hblocker
  have htrace := textOrNull_inj htrace
  have hprompt := textOrNull_inj hprompt
  have hsummary := textOrNull_inj hsummary
  cases e
  cases e'
  simp_all only

/-- The digests of the events' payloads are apart. -/
def DigestsApart (P : Runtime) (events : List AutomationRunEventInput) : Prop :=
  ∀ e ∈ events, ∀ e' ∈ events,
    P.sha256Hex e.callerPayload.rebuiltText = P.sha256Hex e'.callerPayload.rebuiltText →
      e.callerPayload.rebuiltText = e'.callerPayload.rebuiltText

/-- In whatever order the events of a run arrive, and however often, its row is the one that the
backfill makes of them, but for the times of writing and the server's stamps. -/
def Commutes (P : Runtime) (task run : String) (events : List AutomationRunEventInput) : Prop :=
  ∀ (table : RunTable) (order : List AutomationRunEventInput) (arrivals : List EventArrival)
    (rows : List LegacyEventRow), readLegacyRun table task run = none →
    (∀ e, e ∈ order ↔ e ∈ events) → Arrives P order arrivals → Recorded P events rows →
      ∃ row, readLegacyRun (deliver P arrivals table) task run = some row ∧
        row.unstamped = (backfillRow task run rows).unstamped

theorem commutes_of_consistent {P : Runtime} {task run : String}
    {events : List AutomationRunEventInput} (hne : events ≠ [])
    (hkeys : ∀ e ∈ events, e.task_name = task ∧ e.run_id = run) (h : Consistent events) :
    Commutes P task run events := by
  intro table order arrivals rows hnone hsame harrives hrows
  have hstart : HasRow P task run [] (readLegacyRun table task run) := by
    rw [hnone]
    rfl
  have hordered : Consistent ([] ++ order) := h.subset fun e he => (hsame e).1 he
  have hrow := hasRow_deliver (fun e he => hkeys e ((hsame e).1 he)) hordered harrives hstart
  rw [List.nil_append] at hrow
  cases hread : readLegacyRun (deliver P arrivals table) task run with
  | none =>
    rw [hread] at hrow
    obtain ⟨e, he⟩ := List.exists_mem_of_ne_nil events hne
    rw [show order = [] from hrow] at hsame
    exact absurd ((hsame e).2 he) List.not_mem_nil
  | some row =>
    rw [hread] at hrow
    refine ⟨row, rfl, hrow.2.trans ?_⟩
    rw [eventOfPhase_congr hsame h, eventOfPhase_congr hsame h, backfillRow_eq hrows h]

/-- With either event first, the row has what that event wrote, and the backfill's row has it too. -/
theorem consistent_of_commutes {P : Runtime} {task run : String}
    {events : List AutomationRunEventInput}
    (hkeys : ∀ e ∈ events, e.task_name = task ∧ e.run_id = run)
    (haccepted : ∀ e ∈ events, Accepted P e)
    (hdigests : DigestsApart P events) (h : Commutes P task run events) : Consistent events := by
  have hinputs : ∀ e ∈ events, ∃ input, parseLegacyEvent P input = .ok e := haccepted
  have : Nonempty Json := ⟨.null⟩
  choose! input hinput using hinputs
  have hrows : Recorded P events (events.map fun e => ⟨e, none, none, e.digest P, ""⟩) := by
    refine ⟨fun r hr => ?_, fun e he => ⟨_, List.mem_map_of_mem he, rfl⟩⟩
    obtain ⟨e, he, rfl⟩ := List.mem_map.1 hr
    exact ⟨he, rfl⟩
  have hfirst : ∀ e ∈ events,
      HasEvent P e (backfillRow task run (events.map fun e => ⟨e, none, none, e.digest P, ""⟩)) := by
    intro e he
    have harrives : Arrives P (e :: events)
        ((e :: events).map fun e => ⟨input e, none, none, "", ""⟩) := by
      refine List.forall₂_map_right_iff.2 (List.forall₂_same.2 fun e' he' => ?_)
      exact hinput e' ((List.mem_cons.1 he').elim (fun heq => heq ▸ he) id)
    have hsame : ∀ e', e' ∈ e :: events ↔ e' ∈ events :=
      fun e' => ⟨fun h => (List.mem_cons.1 h).elim (fun heq => heq ▸ he) id, List.mem_cons_of_mem e⟩
    obtain ⟨row, hrow, heq⟩ := h [] _ _ _ rfl hsame harrives hrows
    obtain ⟨rfl, rfl⟩ := hkeys e he
    obtain ⟨r, hr, hevent⟩ := hasEvent_of_first (fun e' he' => hkeys e' he') harrives
    obtain rfl := Option.some.inj (hrow.symm.trans hr)
    have hhash : row.unstamped.phaseHash e.phase = some (e.digest P) := by
      have hwritten := hevent.hash
      cases hphase : e.phase <;> rw [hphase] at hwritten <;> exact hwritten
    have hscheduled : row.unstamped.scheduled_for = row.scheduled_for := rfl
    refine ⟨?_, fun t ht => ?_⟩
    · rw [heq] at hhash
      cases hphase : e.phase <;> rw [hphase] at hhash <;> exact hhash
    · rw [heq] at hscheduled
      exact hscheduled.trans (hevent.scheduled t ht)
  refine ⟨fun e he e' he' hphase => ?_, fun e he e' he' t t' ht ht' => ?_⟩
  · have hhash := (hfirst e he).hash
    rw [hphase, (hfirst e' he').hash] at hhash
    exact callerPayload_inj (hdigests e he e' he' (Option.some.inj hhash).symm)
  · exact Option.some.inj (((hfirst e he).scheduled t ht).symm.trans ((hfirst e' he').scheduled t' ht'))

/-- The events of a run commute and are backfilled alike exactly where the run has one event of a
phase at most and its events name one time that it was scheduled for at most. -/
theorem legacyEvents_commute_iff {P : Runtime} {task run : String}
    {events : List AutomationRunEventInput} (hne : events ≠ [])
    (hkeys : ∀ e ∈ events, e.task_name = task ∧ e.run_id = run)
    (haccepted : ∀ e ∈ events, Accepted P e)
    (hdigests : DigestsApart P events) :
    Commutes P task run events ↔ Consistent events :=
  ⟨consistent_of_commutes hkeys haccepted hdigests, commutes_of_consistent hne hkeys⟩

/-! ## A run whose events name two times -/

def startedEvent : AutomationRunEventInput :=
  ⟨"company-facts", "run_0f3c", .STARTED, "STARTED", some "2026-09-30T01:00:00.000Z",
    "2026-09-30T01:00:05.000Z", none, none, none, none, none, none⟩

def finalEvent : AutomationRunEventInput :=
  ⟨"company-facts", "run_0f3c", .FINAL, "SILENT", some "2026-09-30T02:00:00.000Z",
    "2026-09-30T02:10:00.000Z", some false, some 0, none, none, none, some "nothing new"⟩

/-- The SHA-256 digests of the two events. -/
def eventRuntime : Runtime where
  sha256Hex text :=
    if text = startedEvent.callerPayload.rebuiltText then
      "86ad85adb3c9410389befe81f5e5c8ed1fdd6d65a7b021de233e8cf7d8754364"
    else "fc8fc4c152f1b94623e7ca1a49732a89a693fa5212cb5eee0eb7e34d2228f557"
  isoOfText := some
  addSeconds _ _ := none
  numberOfText _ := none
  validationSummary _ _ := ""

def startedArrival : EventArrival :=
  ⟨.obj [("task_name", .str "company-facts"), ("run_id", .str "run_0f3c"), ("phase", .str "STARTED"),
      ("status", .str "STARTED"), ("scheduled_for", .str "2026-09-30T01:00:00.000Z"),
      ("occurred_at", .str "2026-09-30T01:00:05.000Z")],
    none, none, "2026-09-30T01:00:06.000Z", "start"⟩

def finalArrival : EventArrival :=
  ⟨.obj [("task_name", .str "company-facts"), ("run_id", .str "run_0f3c"), ("phase", .str "FINAL"),
      ("status", .str "SILENT"), ("scheduled_for", .str "2026-09-30T02:00:00.000Z"),
      ("occurred_at", .str "2026-09-30T02:10:00.000Z"), ("notification_sent", .bool false),
      ("fresh_delta_count", .num (.ofInt 0)), ("safe_summary", .str "nothing new")],
    none, none, "2026-09-30T02:10:01.000Z", "final"⟩

theorem parse_startedArrival : parseLegacyEvent eventRuntime startedArrival.event = .ok startedEvent := by
  decide

theorem parse_finalArrival : parseLegacyEvent eventRuntime finalArrival.event = .ok finalEvent := by
  decide

theorem digestsApart_example : DigestsApart eventRuntime [startedEvent, finalEvent] := by
  have hne : finalEvent.callerPayload.rebuiltText ≠ startedEvent.callerPayload.rebuiltText :=
    fun h => absurd (callerPayload_inj h) (by decide)
  intro e he e' he' hdigest
  simp only [List.mem_cons, List.not_mem_nil, or_false] at he he'
  simp only [eventRuntime] at hdigest
  rcases he with rfl | rfl <;> rcases he' with rfl | rfl
  · rfl
  · rw [if_pos rfl, if_neg hne] at hdigest
    exact absurd hdigest (by decide)
  · rw [if_pos rfl, if_neg hne] at hdigest
    exact absurd hdigest (by decide)
  · rfl

theorem legacyEvents_commute_example :
    Commutes eventRuntime "company-facts" "run_0f3c" [startedEvent, finalEvent] ↔
      Consistent [startedEvent, finalEvent] := by
  refine legacyEvents_commute_iff (List.cons_ne_nil _ _) (fun e he => ?_) (fun e he => ?_)
    digestsApart_example
  · rcases List.mem_cons.1 he with rfl | he
    · exact ⟨rfl, rfl⟩
    · obtain rfl := List.mem_singleton.1 he
      exact ⟨rfl, rfl⟩
  · rcases List.mem_cons.1 he with rfl | he
    · exact ⟨_, parse_startedArrival⟩
    · obtain rfl := List.mem_singleton.1 he
      exact ⟨_, parse_finalArrival⟩

theorem scheduled_of_first {P : Runtime} {e e' : AutomationRunEventInput} {a b : EventArrival}
    {task run t : String} (he : e.task_name = task ∧ e.run_id = run)
    (he' : e'.task_name = task ∧ e'.run_id = run) (ht : e.scheduled_for = some t)
    (ha : parseLegacyEvent P a.event = .ok e) (hb : parseLegacyEvent P b.event = .ok e') :
    (readLegacyRun (deliver P [a, b] []) task run).bind (·.scheduled_for) = some t := by
  obtain ⟨rfl, rfl⟩ := he
  obtain ⟨r, hr, hevent⟩ := hasEvent_of_first (List.forall_mem_singleton.2 he')
    (.cons ha (.cons hb .nil))
  rw [hr, Option.bind_some]
  exact hevent.scheduled t ht

/-- The row keeps the time of the event that came first; the backfill takes the later time. -/
theorem scheduled_by_order :
    parseLegacyEvent eventRuntime startedArrival.event = .ok startedEvent ∧
      parseLegacyEvent eventRuntime finalArrival.event = .ok finalEvent ∧
      ((readLegacyRun (deliver eventRuntime [startedArrival, finalArrival] []) "company-facts"
          "run_0f3c").bind (·.scheduled_for)) = some "2026-09-30T01:00:00.000Z" ∧
      ((readLegacyRun (deliver eventRuntime [finalArrival, startedArrival] []) "company-facts"
          "run_0f3c").bind (·.scheduled_for)) = some "2026-09-30T02:00:00.000Z" ∧
      (backfillRow "company-facts" "run_0f3c"
          [⟨startedEvent, none, none, startedEvent.digest eventRuntime, ""⟩,
            ⟨finalEvent, none, none, finalEvent.digest eventRuntime, ""⟩]).scheduled_for =
        some "2026-09-30T02:00:00.000Z" ∧
      ¬ Commutes eventRuntime "company-facts" "run_0f3c" [startedEvent, finalEvent] := by
  have hfirst : (readLegacyRun (deliver eventRuntime [startedArrival, finalArrival] []) "company-facts"
      "run_0f3c").bind (·.scheduled_for) = some "2026-09-30T01:00:00.000Z" :=
    scheduled_of_first ⟨rfl, rfl⟩ ⟨rfl, rfl⟩ rfl parse_startedArrival parse_finalArrival
  have hlast : (readLegacyRun (deliver eventRuntime [finalArrival, startedArrival] []) "company-facts"
      "run_0f3c").bind (·.scheduled_for) = some "2026-09-30T02:00:00.000Z" :=
    scheduled_of_first ⟨rfl, rfl⟩ ⟨rfl, rfl⟩ rfl parse_finalArrival parse_startedArrival
  refine ⟨parse_startedArrival, parse_finalArrival, hfirst, hlast, by decide, fun h => ?_⟩
  have hrows : Recorded eventRuntime [startedEvent, finalEvent]
      [⟨startedEvent, none, none, startedEvent.digest eventRuntime, ""⟩,
        ⟨finalEvent, none, none, finalEvent.digest eventRuntime, ""⟩] := by
    constructor
    · simp
    · simp
  have harrives : Arrives eventRuntime [startedEvent, finalEvent] [startedArrival, finalArrival] :=
    .cons parse_startedArrival (.cons parse_finalArrival .nil)
  obtain ⟨row, hrow, heq⟩ := h [] _ _ _ rfl (fun _ => Iff.rfl) harrives hrows
  have hscheduled : row.scheduled_for = some "2026-09-30T02:00:00.000Z" :=
    congrArg LegacyRun.scheduled_for heq
  rw [hrow, Option.bind_some, hscheduled] at hfirst
  exact absurd hfirst (by decide)

end QuantproCollector.AutomationRun
