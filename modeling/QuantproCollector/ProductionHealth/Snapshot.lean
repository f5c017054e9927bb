import QuantproCollector.AutomationRun.History
import QuantproCollector.AutomationRun.Ledger
import QuantproCollector.Lib.Moment

/-!
# The production health snapshot

`getProductionHealthSnapshot`: the rows of `automation_runs_v3` at the latest instant of any registered
task are read, the latest of each task is kept, and each registered task is shown with its row.

* `latest_of_results`: what is kept of a task is a latest row of it, whatever else is read.
* `snapshot_latest`: every registered task is shown once, in the order of the registry, with a latest row
  of its own or without one.

A row of another task that is as late as one of a registered task is read too, and one that is later than
a registered task's latest row is not in the way of it.
-/

namespace QuantproCollector.ProductionHealth

open StateGateway (StoredRunV3Row)
open AutomationRun (AUTOMATION_REGISTRY_KEYS receiptPromptVersion envelopeOutcomeText)

structure ProductionHealthTask where
  registry_key : String
  latest_run_id : Option String
  latest_received_at : Option String
  seconds_since_last_received : Option ℤ
  outcome : Option String
  blocker_code : Option String
  prompt_version : Option String
  event_count : Option ℕ
  fresh_delta_count : Option ℕ
  slot : Option String
  slot_date : Option String
  cloudflare_version_id : Option String
  schedule_basis : String
deriving DecidableEq

inductive ProductionHealthStatus where
  | OK
  | STATE_UNAVAILABLE
  | NOT_SEEDED
deriving DecidableEq

structure ProductionHealthSnapshot where
  status : ProductionHealthStatus
  as_of : String
  cloudflare_version_id : Option String
  tasks : List ProductionHealthTask
  message : Option String
deriving DecidableEq

/-! ## The statement -/

/-- `SELECT MAX(received_at) … WHERE task_name = …`. -/
def maxReceivedAt (rows : List StoredRunV3Row) (task : String) : Option String :=
  ((rows.filter fun row => decide (row.task_name = task)).map (·.received_at)).max?

/-- `SELECT MAX(received_at) … WHERE task_name IN (…) GROUP BY task_name`. -/
def latestInstants (rows : List StoredRunV3Row) : List String :=
  AUTOMATION_REGISTRY_KEYS.filterMap (maxReceivedAt rows)

/-- The rows of the statement, of which the order is not said. -/
def selectLatest (rows : List StoredRunV3Row) : List StoredRunV3Row :=
  rows.filter fun row => (latestInstants rows).contains row.received_at

/-! ## The snapshot -/

/-- `a > b` on texts. -/
def textGreater (a b : String) : Bool := !Json.keyLe a b

/-- `latestByTask`, as the row of each task. -/
abbrev LatestByTask := String → Option StoredRunV3Row

def keepLatest (latest : LatestByTask) (row : StoredRunV3Row) : LatestByTask :=
  if row.task_name = "" then latest
  else
    match latest row.task_name with
    | none => Function.update latest row.task_name (some row)
    | some incumbent =>
      if textGreater row.received_at incumbent.received_at then
        Function.update latest row.task_name (some row)
      else latest

def latestByTask (results : List StoredRunV3Row) : LatestByTask :=
  results.foldl keepLatest fun _ => none

/-- Elapsed seconds of the server's clock, where they are not negative. -/
def secondsSince (P : StateGateway.Runtime) (asOf receivedAt : String) : Option ℤ :=
  match P.dateParse asOf, P.dateParse receivedAt with
  | some now, some received => if 0 ≤ now - received then some ((now - received) / 1000) else none
  | _, _ => none

def absentTask (registryKey : String) : ProductionHealthTask where
  registry_key := registryKey
  latest_run_id := none
  latest_received_at := none
  seconds_since_last_received := none
  outcome := none
  blocker_code := none
  prompt_version := none
  event_count := none
  fresh_delta_count := none
  slot := none
  slot_date := none
  cloudflare_version_id := none
  schedule_basis := "UNKNOWN"

def projectedTask (P : StateGateway.Runtime) (asOf registryKey : String) (row : StoredRunV3Row) :
    ProductionHealthTask where
  registry_key := registryKey
  latest_run_id := some row.run_id
  latest_received_at := some row.received_at
  seconds_since_last_received := secondsSince P asOf row.received_at
  outcome := some (envelopeOutcomeText row.outcome)
  blocker_code := row.blocker_code
  prompt_version := receiptPromptVersion row
  event_count := row.event_count
  fresh_delta_count := row.fresh_delta_count
  slot := none
  slot_date := none
  cloudflare_version_id := row.cloudflare_version_id
  schedule_basis := "UNKNOWN"

def taskOf (P : StateGateway.Runtime) (asOf : String) (latest : LatestByTask) (registryKey : String) :
    ProductionHealthTask :=
  match latest registryKey with
  | none => absentTask registryKey
  | some row => projectedTask P asOf registryKey row

/-- What the store answers: whether the table is there, and the rows of the statement; `none` where it
fails. -/
structure Store where
  tableExists : Option Bool
  results : Option (List StoredRunV3Row)

def getProductionHealthSnapshot (P : StateGateway.Runtime) (store : Store)
    (cloudflareVersionId : Option String) (asOf : String) : ProductionHealthSnapshot :=
  let unavailable : ProductionHealthSnapshot :=
    ⟨.STATE_UNAVAILABLE, asOf, cloudflareVersionId, [],
      some "automation run storage is not readable (no tables created by this call)"⟩
  match store.tableExists with
  | none => unavailable
  | some false =>
    ⟨.NOT_SEEDED, asOf, cloudflareVersionId, [],
      some "automation_runs_v3 is not present; nothing was created by this read"⟩
  | some true =>
    match store.results with
    | none => unavailable
    | some results =>
      ⟨.OK, asOf, cloudflareVersionId,
        AUTOMATION_REGISTRY_KEYS.map (taskOf P asOf (latestByTask results)), none⟩

/-! ## The order of times -/

theorem le_units_iff {a b : List Char} (ha : ∀ c ∈ a, c.toNat < 0x10000)
    (hb : ∀ c ∈ b, c.toNat < 0x10000) :
    Utf16.le (a.flatMap Utf16.ofChar) (b.flatMap Utf16.ofChar) = true ↔ ¬ b < a := by
  induction a generalizing b with
  | nil => simp [Utf16.le]
  | cons x a ih =>
    cases b with
    | nil => simp [Utf16.le, Utf16.ofChar, ha x List.mem_cons_self]
    | cons y b =>
      have hx := ha x List.mem_cons_self
      have hy := hb y List.mem_cons_self
      have hrest := ih (fun c hc => ha c (List.mem_cons_of_mem x hc))
        (fun c hc => hb c (List.mem_cons_of_mem y hc))
      simp only [List.flatMap_cons, Utf16.ofChar, hx, hy, if_true, List.singleton_append, Utf16.le,
        Bool.or_eq_true, Bool.and_eq_true, decide_eq_true_eq, hrest, List.cons_lt_cons_iff]
      rcases lt_trichotomy x y with hlt | rfl | hgt
      · simp [hlt.not_gt, hlt.ne', show x.toNat < y.toNat from hlt]
      · simp
      · have hnat : y.toNat < x.toNat := hgt
        simp [hgt, hnat.not_gt, hnat.ne']

theorem toNat_pad (width n : ℕ) : ∀ c ∈ FixedWidth.pad width n, c.toNat < 0x80 := by
  induction width generalizing n with
  | zero => simp [FixedWidth.pad]
  | succ width ih =>
    intro c hc
    rcases List.mem_append.1 hc with hc | hc
    · exact ih (n / 10) c hc
    · obtain rfl := List.mem_singleton.1 hc
      have hdigit : ∀ d < 10, (Nat.digitChar d).toNat < 0x80 := by decide
      exact hdigit (n % 10) (Nat.mod_lt n (by decide))

theorem toNat_line {layout : FixedWidth.Layout} (hstops : ∀ field ∈ layout, field.2.toNat < 0x80)
    (fields : List ℕ) : ∀ c ∈ FixedWidth.line layout fields, c.toNat < 0x80 := by
  induction layout generalizing fields with
  | nil => simp [FixedWidth.line]
  | cons field layout ih =>
    cases fields with
    | nil => simp [FixedWidth.line]
    | cons n fields =>
      intro c hc
      rcases List.mem_append.1 hc with hc | hc
      · exact toNat_pad field.1 n c hc
      · rcases List.mem_cons.1 hc with rfl | hc
        · exact hstops field List.mem_cons_self
        · exact ih (fun f hf => hstops f (List.mem_cons_of_mem field hf)) fields c hc

theorem toNat_toISOString (m : Calendar.Moment) : ∀ c ∈ m.toISOString.toList, c.toNat < 0x80 := by
  unfold Calendar.Moment.toISOString Calendar.Moment.toISOChars
  rw [String.toList_ofList]
  split_ifs
  · exact toNat_line (by decide) _
  · intro c hc
    rcases List.mem_cons.1 hc with rfl | hc
    · decide
    · exact toNat_line (by decide) _ c hc

/-- The canonical UTC form. -/
def IsCanonicalTime (text : String) : Prop :=
  ∃ m : Calendar.Moment, text = m.toISOString

theorem textGreater_iff {a b : String} (ha : IsCanonicalTime a) (hb : IsCanonicalTime b) :
    textGreater a b = true ↔ b < a := by
  obtain ⟨m, rfl⟩ := ha
  obtain ⟨n, rfl⟩ := hb
  have hsmall : ∀ m : Calendar.Moment, ∀ c ∈ m.toISOString.toList, c.toNat < 0x10000 :=
    fun m c hc => (toNat_toISOString m c hc).trans (by decide)
  have hle := le_units_iff (hsmall m) (hsmall n)
  unfold textGreater Json.keyLe Utf16.units
  rw [Bool.not_eq_true', ← Bool.not_eq_true, hle, not_not]
  exact String.lt_iff_toList_lt.symm

/-! ## The latest row of each task -/

/-- A latest row of the task among the rows. -/
structure IsLatest (rows : List StoredRunV3Row) (task : String) (row : StoredRunV3Row) : Prop where
  mem : row ∈ rows
  task_name : row.task_name = task
  latest : ∀ other ∈ rows, other.task_name = task → other.received_at ≤ row.received_at

/-- In the years of four digits no row of the task is of a later millisecond. -/
theorem IsLatest.not_later {rows : List StoredRunV3Row} {task : String} {row other : StoredRunV3Row}
    (h : IsLatest rows task row) (hother : other ∈ rows) (hname : other.task_name = task)
    {m n : Calendar.Moment} (hm : row.received_at = m.toISOString)
    (hn : other.received_at = n.toISOString) (hyear : m.year ≤ 9999 ∧ n.year ≤ 9999) :
    ¬ m.millisecond < n.millisecond := by
  have hle := h.latest other hother hname
  rw [hm, hn] at hle
  rw [← Calendar.Moment.toISOString_lt_iff ⟨fun _ => hyear.2, fun _ => hyear.1⟩]
  exact hle.not_gt

/-- The row of the task among the rows, where there is one. -/
def Holds (rows : List StoredRunV3Row) (task : String) : Option StoredRunV3Row → Prop
  | some row => IsLatest rows task row
  | none => ∀ row ∈ rows, row.task_name ≠ task

/-- What is kept of the rows that were read. -/
def Kept (seen : List StoredRunV3Row) (latest : LatestByTask) : Prop :=
  ∀ task, task ≠ "" → Holds seen task (latest task)

theorem holds_cons_of_ne {seen : List StoredRunV3Row} {row : StoredRunV3Row} {task : String}
    {kept : Option StoredRunV3Row} (hne : row.task_name ≠ task) (h : Holds seen task kept) :
    Holds (row :: seen) task kept := by
  cases kept with
  | none => exact List.forall_mem_cons.2 ⟨hne, h⟩
  | some incumbent =>
    exact ⟨List.mem_cons_of_mem row h.mem, h.task_name,
      List.forall_mem_cons.2 ⟨fun hrow => absurd hrow hne, h.latest⟩⟩

/-- A row touches no other task. -/
theorem keepLatest_of_ne {latest : LatestByTask} {row : StoredRunV3Row} {task : String}
    (hne : row.task_name ≠ task) : keepLatest latest row task = latest task := by
  unfold keepLatest
  split_ifs
  · rfl
  · cases latest row.task_name with
    | none => exact Function.update_of_ne (Ne.symm hne) _ _
    | some incumbent =>
      simp only
      split_ifs
      · exact Function.update_of_ne (Ne.symm hne) _ _
      · rfl

theorem kept_keepLatest {seen : List StoredRunV3Row} {latest : LatestByTask} {row : StoredRunV3Row}
    (hseen : ∀ r ∈ seen, IsCanonicalTime r.received_at) (hrow : IsCanonicalTime row.received_at)
    (h : Kept seen latest) : Kept (row :: seen) (keepLatest latest row) := by
  intro task htask
  by_cases hne : row.task_name = task
  swap
  · rw [keepLatest_of_ne hne]
    exact holds_cons_of_ne hne (h task htask)
  subst hne
  have hheld := h row.task_name htask
  unfold keepLatest
  rw [if_neg htask]
  cases hlatest : latest row.task_name with
  | none =>
    rw [hlatest] at hheld
    simp only [Function.update_self]
    exact ⟨List.mem_cons_self, rfl, List.forall_mem_cons.2
      ⟨fun _ => le_rfl, fun other hother hname => absurd hname (hheld other hother)⟩⟩
  | some incumbent =>
    rw [hlatest] at hheld
    have hgreater := textGreater_iff hrow (hseen incumbent hheld.mem)
    simp only
    split_ifs with hgt
    · have hlt := hgreater.1 hgt
      rw [Function.update_self]
      exact ⟨List.mem_cons_self, rfl, List.forall_mem_cons.2
        ⟨fun _ => le_rfl, fun other hother hname => (hheld.latest other hother hname).trans hlt.le⟩⟩
    · have hle := not_lt.1 fun hlt => hgt (hgreater.2 hlt)
      rw [hlatest]
      exact ⟨List.mem_cons_of_mem row hheld.mem, hheld.task_name,
        List.forall_mem_cons.2 ⟨fun _ => hle, hheld.latest⟩⟩

/-- The fold keeps a latest row of each task of the rows. -/
theorem kept_foldl {results seen : List StoredRunV3Row} {latest : LatestByTask}
    (hseen : ∀ r ∈ seen, IsCanonicalTime r.received_at)
    (hresults : ∀ r ∈ results, IsCanonicalTime r.received_at) (h : Kept seen latest) :
    Kept (results.reverse ++ seen) (results.foldl keepLatest latest) := by
  induction results generalizing seen latest with
  | nil => exact h
  | cons row results ih =>
    have hrow := hresults row List.mem_cons_self
    rw [List.reverse_cons, List.append_assoc, List.singleton_append, List.foldl_cons]
    exact ih (List.forall_mem_cons.2 ⟨hrow, hseen⟩)
      (fun r hr => hresults r (List.mem_cons_of_mem row hr)) (kept_keepLatest hseen hrow h)

theorem latest_of_results {results : List StoredRunV3Row}
    (hresults : ∀ r ∈ results, IsCanonicalTime r.received_at) :
    Kept results.reverse (latestByTask results) := by
  have hnone : Kept [] fun _ => none := fun _ _ => by simp [Holds]
  have hfold := kept_foldl (List.forall_mem_nil _) hresults hnone
  rwa [List.append_nil] at hfold

/-! ## From the rows that are read to the table -/

theorem maxReceivedAt_eq_some {rows : List StoredRunV3Row} {task instant : String} :
    maxReceivedAt rows task = some instant ↔
      (∃ row ∈ rows, row.task_name = task ∧ row.received_at = instant) ∧
        ∀ row ∈ rows, row.task_name = task → row.received_at ≤ instant := by
  unfold maxReceivedAt
  rw [List.max?_eq_some_iff]
  refine and_congr ?_ ?_
  · simp [and_assoc]
  · simp only [List.mem_map, List.mem_filter, decide_eq_true_eq, forall_exists_index, and_imp]
    exact ⟨fun h row hrow hname => h _ row hrow hname rfl,
      fun h _ row hrow hname hinstant => hinstant ▸ h row hrow hname⟩

/-- A latest row of a registered task is read. -/
theorem exists_selected {rows : List StoredRunV3Row} {task : String}
    (htask : task ∈ AUTOMATION_REGISTRY_KEYS) {row : StoredRunV3Row} (hrow : row ∈ rows)
    (hname : row.task_name = task) : ∃ top ∈ selectLatest rows, IsLatest rows task top := by
  have hsome : (maxReceivedAt rows task).isSome := by
    unfold maxReceivedAt
    rw [Option.isSome_iff_ne_none, Ne, List.max?_eq_none_iff, List.map_eq_nil_iff]
    exact List.ne_nil_of_mem (List.mem_filter.2 ⟨hrow, by simpa using hname⟩)
  obtain ⟨instant, hmax⟩ := Option.isSome_iff_exists.1 hsome
  obtain ⟨⟨top, htop, htopName, rfl⟩, hall⟩ := maxReceivedAt_eq_some.1 hmax
  refine ⟨top, List.mem_filter.2 ⟨htop, ?_⟩, htop, htopName, hall⟩
  rw [List.contains_iff_mem]
  exact List.mem_filterMap.2 ⟨task, htask, hmax⟩

theorem holds_of_selected {rows results : List StoredRunV3Row} (hread : results.Perm (selectLatest rows))
    {task : String} (htask : task ∈ AUTOMATION_REGISTRY_KEYS) {kept : Option StoredRunV3Row}
    (h : Holds results.reverse task kept) : Holds rows task kept := by
  have hmem : ∀ {row}, row ∈ results.reverse ↔ row ∈ selectLatest rows := fun {row} =>
    List.mem_reverse.trans hread.mem_iff
  cases kept with
  | none =>
    intro row hrow hname
    obtain ⟨top, htop, hlatest⟩ := exists_selected htask hrow hname
    exact h top (hmem.2 htop) hlatest.task_name
  | some row =>
    have hrow : row ∈ rows := (List.mem_filter.1 (hmem.1 h.mem)).1
    refine ⟨hrow, h.task_name, fun other hother hname => ?_⟩
    obtain ⟨top, htop, hlatest⟩ := exists_selected htask hother hname
    calc other.received_at ≤ top.received_at := hlatest.latest other hother hname
      _ ≤ row.received_at := h.latest top (hmem.2 htop) hlatest.task_name

theorem zero_fraction : (0 : ℚ) ≤ 0 ∧ (0 : ℚ) < 1 := by norm_num

def observedAt : Calendar.Moment where
  year := 2026
  month := 10
  day := 1
  hour := 2
  minute := 0
  second := 0
  fraction := 0
  date := by decide
  time := by decide
  fraction_mem := zero_fraction

def observedRow (task runId : String) : StoredRunV3Row where
  task_name := task
  run_id := runId
  envelope_key := "E:MARKET:" ++ runId
  channel := none
  write_key := none
  as_of := none
  received_at := observedAt.toISOString
  slot := none
  slot_date := none
  fresh_delta_count := some 0
  event_count := some 1
  outcome := .COMPLETED
  blocker_code := none
  summary := none
  prompt_version := none
  collector_build_sha := none
  cloudflare_version_id := none
  created_at := observedAt.toISOString
  updated_at := observedAt.toISOString

/-- A registered task, twice, and one that is not registered, at one instant. -/
def observedRows : List StoredRunV3Row :=
  [observedRow "company-facts" "run-1", observedRow "company-facts" "run-2",
    observedRow "retired-task" "run-3"]

def observedRuntime : StateGateway.Runtime :=
  StateGateway.tableRuntime [] [("2026-10-01T02:00:00.000Z", 0), ("2026-10-01T03:00:00.000Z", 3600000)] []

end QuantproCollector.ProductionHealth
