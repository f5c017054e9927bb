import QuantproCollector.Lib.Run
import QuantproCollector.Lib.Tally
import QuantproCollector.OfficialMeters.ExactSum

/-!
# The circuit of the semantic search

Model of the persistence of `main` of `src/scripts/cf_quota_meter_reconcile.py`, which is the only writer of
`quota_circuit_state`, and of the gate of `src/src/quota-metering.ts` that reads it before a semantic search.
What a run of the script evaluates is `OfficialMeters.main`.

Runs of the script and searches take steps in any order. A statement can fail before or after it takes
effect: a command that times out may have been executed. The report files and the console are left out.

`refused_exec`: a search is refused exactly where its read was answered and the reconcile that last took
effect before it had read neurons at the threshold; no other dimension and no failure refuses one.
-/

namespace QuantproCollector.QuotaCircuit

open Async Relational OfficialMeters

/-! ## Rows -/

def stateName : OfficialMeters.State → String
  | .OPEN => "OPEN"
  | .CLOSED => "CLOSED"

/-- A row of `quota_circuit_state`. -/
structure CircuitRow where
  dimension_key : String
  state : String
  current_usage : Double
  threshold_95 : ℕ
  as_of : String
  updated_at : String
deriving DecidableEq

abbrev CircuitTable : Type := Table CircuitRow String [fun r => some r.dimension_key]

/-- A row of the values of the upsert. -/
def circuitRow (row : Row) (asOf : String) : CircuitRow where
  dimension_key := row.dimension_key
  state := stateName row.state
  current_usage := row.current_usage
  threshold_95 := row.threshold_95
  as_of := asOf
  updated_at := asOf

/-- `DO UPDATE SET`: every column but the key is the new one. -/
def overwrite (r new : CircuitRow) : CircuitRow :=
  { new with dimension_key := r.dimension_key }

theorem key_overwrite (r new : CircuitRow) : (overwrite r new).dimension_key = r.dimension_key := rfl

/-- The upsert of rows. -/
def upsertRows (w : CircuitTable) (rows : List CircuitRow) : CircuitTable :=
  w.tally id overwrite key_overwrite rows

/-! ## The programs -/

inductive Thrown where
  | runtimeError
  | timeoutExpired
  | other
deriving DecidableEq

inductive Op where
  | official
  | selectUsage
  | selectCircuits (keys : Option (List String))
  | createTable
  | upsertCircuits (rows : List CircuitRow)
  | randomHex

/-- `official` answers what a run has read: its options, its clock and the answers of the API. -/
abbrev Res : Op → Type
  | .official => Inputs
  | .selectUsage => Unit
  | .selectCircuits _ => List CircuitRow
  | .createTable => Unit
  | .upsertCircuits _ => Unit
  | .randomHex => String

abbrev Program (α : Type) := Script Thrown Op Res α

def EXIT_OK : ℕ := 0
def EXIT_CONFIG : ℕ := 1
def EXIT_OFFICIAL_FAILURE : ℕ := 3
def EXIT_D1_FAILURE : ℕ := 4

/-- `except RuntimeError`. -/
def onRuntimeError {α : Type} (s : Program α) (default : α) : Program α :=
  tryCatch s fun e =>
    match e with
    | .runtimeError => pure default
    | e => throw e

/-- The two queries of the allocation. -/
def read_client_allocation : Program Unit :=
  onRuntimeError (do
    Script.perform Op.selectUsage
    Script.perform Op.selectUsage) ()

def read_current_circuit_states : Program (List CircuitRow) :=
  onRuntimeError (Script.perform (Op.selectCircuits none)) []

/-- The two statements; a usage that SQL cannot read fails the second. -/
def persistRows (rows : Option (List CircuitRow)) : Program Unit := do
  Script.perform Op.createTable
  match rows with
  | some rows => Script.perform (Op.upsertCircuits rows)
  | none => throw .runtimeError

/-- The part of a run that is not dry. -/
def persist (rows : Option (List CircuitRow)) : Program ℕ := do
  read_client_allocation
  let _ ← read_current_circuit_states
  tryCatch (do
      persistRows rows
      pure EXIT_OK) fun e =>
    match e with
    | .runtimeError => pure EXIT_D1_FAILURE
    | .timeoutExpired => pure EXIT_D1_FAILURE
    | .other => throw .other

variable (R : Runtime)

/-- What a run does with what it has evaluated. -/
def finish (asOf : String) : Outcome → Program ℕ
  | .config => pure EXIT_CONFIG
  | .officialFailure => pure EXIT_OFFICIAL_FAILURE
  | .raised => throw .other
  | .dryRun => pure EXIT_OK
  | .d1Failure => persist none
  | .wrote rows => persist (some (rows.map fun row => circuitRow row asOf))

/-- A run of the script; the upsert that `main` decides on is a statement here. -/
def reconcile : Program ℕ := do
  let inputs ← Script.perform Op.official
  finish (R.isoZ inputs.now) (main R { inputs with d1Writes := true })

/-! ## The gate -/

def SEMANTIC_SEARCH_CIRCUIT_DIMENSIONS : List String :=
  ["ai.neurons", "vectorize.queried_dims"]

/-- A row as the gate sees it. -/
structure QuotaCircuitRow where
  dimension_key : String
  state : OfficialMeters.State
  current_usage : Double
  threshold_95 : ℕ
  as_of : String

/-- Anything that is not exactly `OPEN` is closed. -/
def CircuitRow.seen (r : CircuitRow) : QuotaCircuitRow where
  dimension_key := r.dimension_key
  state := if r.state = "OPEN" then .OPEN else .CLOSED
  current_usage := r.current_usage
  threshold_95 := r.threshold_95
  as_of := r.as_of

def readCircuitStates (dimensionKeys : List String) : Program (List QuotaCircuitRow) := do
  let rows ← Script.perform (Op.selectCircuits (some dimensionKeys))
  pure (rows.map CircuitRow.seen)

structure OpenDimension where
  dimension_key : String
  current_usage : Double
  threshold_95 : ℕ
  as_of : String

structure QuotaCircuitRefusal where
  error_code : String
  retryable : Bool
  request_id : String
  open_dimensions : List OpenDimension
  message : String

def QuotaCircuitRow.openDimension (r : QuotaCircuitRow) : OpenDimension :=
  ⟨r.dimension_key, r.current_usage, r.threshold_95, r.as_of⟩

def refusalOf (request_id : String) (rows : List QuotaCircuitRow) : QuotaCircuitRefusal where
  error_code := "QUOTA_CIRCUIT_OPEN"
  retryable := false
  request_id := request_id
  open_dimensions := rows.map QuotaCircuitRow.openDimension
  message := "the 12h official-meter reconcile marked a guarded resource dimension OPEN; " ++
    "search_documents_semantic is paused until the circuit closes"

/-- What the gate makes of the rows that it has read. -/
def refuse (rows : List QuotaCircuitRow) : Program (Option QuotaCircuitRefusal) :=
  let opened := rows.filter fun row => decide (row.state = .OPEN)
  if opened = [] then pure none
  else do
    let request_id ← Script.perform Op.randomHex
    pure (some (refusalOf request_id opened))

/-- The gate; `db` is whether the binding is there. -/
def semanticSearchCircuitRefusal (db : Bool) : Program (Option QuotaCircuitRefusal) :=
  if db then
    tryCatch (do
        let rows ← readCircuitStates SEMANTIC_SEARCH_CIRCUIT_DIMENSIONS
        refuse rows) fun _ => pure none
  else pure none

/-! ## The machine -/

/-- Whether and where a statement fails. -/
inductive Fault where
  | none
  | before (error : Thrown)
  | after (error : Thrown)
deriving DecidableEq

def Fault.landed : Fault → Bool
  | .before _ => false
  | _ => true

def Fault.answer {α : Type} (a : α) : Fault → Except Thrown α
  | .none => .ok a
  | .before e => .error e
  | .after e => .error e

structure Choice where
  inputs : Inputs
  hex : String
  fault : Fault

/-- The rows of `WHERE dimension_key IN (…)`, or all. -/
def selected (w : CircuitTable) (keys : Option (List String)) : List CircuitRow :=
  match keys with
  | some keys => w.rows.filter fun r => keys.contains r.dimension_key
  | none => w.rows

def perform (ch : Choice) : (op : Op) → CircuitTable → Except Thrown (Res op) × CircuitTable
  | .official, w => (.ok ch.inputs, w)
  | .selectUsage, w => (ch.fault.answer (), w)
  | .selectCircuits keys, w => (ch.fault.answer (selected w keys), w)
  | .createTable, w => (ch.fault.answer (), w)
  | .upsertCircuits rows, w => (ch.fault.answer (), if ch.fault.landed then upsertRows w rows else w)
  | .randomHex, w => (.ok ch.hex, w)

def machine : Machine Thrown Op Res CircuitTable Choice where
  perform := perform

/-- What a thread does: a run of the script, or a semantic search up to its gate. -/
inductive Task where
  | reconcile
  | search (db : Bool)

inductive Answer where
  | exited (code : ℕ)
  | searched (refusal : Option QuotaCircuitRefusal)

def Task.program : Task → Program Answer
  | .reconcile => do
    let code ← QuotaCircuit.reconcile R
    pure (.exited code)
  | .search db => do
    let refusal ← semanticSearchCircuitRefusal db
    pure (.searched refusal)

/-! ## The table of a run -/

/-- The rows that a call wrote. -/
def committed (k : Call Op CircuitTable Choice) : Option (List CircuitRow) :=
  match k.op with
  | .upsertCircuits rows => if k.choice.fault.landed then some rows else none
  | _ => none

/-- The table that the calls of a log have left; a log is newest first. -/
def tableOf (w : CircuitTable) (log : List (Call Op CircuitTable Choice)) : CircuitTable :=
  log.foldr (fun k t => ((committed k).map (upsertRows t)).getD t) w

/-- What the last call that wrote has written. -/
def lastCommitted (log : List (Call Op CircuitTable Choice)) : Option (List CircuitRow) :=
  log.findSome? committed

theorem world_perform (t : ℕ) (ch : Choice) (op : Op) (w : CircuitTable) :
    (machine.perform ch op w).2 = ((committed ⟨t, op, ch, w⟩).map (upsertRows w)).getD w := by
  cases op with
  | upsertCircuits rows =>
    cases hl : ch.fault.landed with
    | false => simp [machine, perform, committed, hl]
    | true => simp [machine, perform, committed, hl]
  | _ => rfl

/-- The table is what the calls have left, at the end and before each call. -/
theorem table_exec {α : Type} (s : ℕ → Program α) (w : CircuitTable) (es : List (ℕ × Choice)) :
    (machine.exec (Config.start w s) es).world = tableOf w (machine.exec (Config.start w s) es).log ∧
      Along (fun past k => k.before = tableOf w past) (machine.exec (Config.start w s) es).log := by
  refine Machine.exec_induction (P := fun c : Config Thrown Op Res CircuitTable Choice α =>
    c.world = tableOf w c.log ∧ Along (fun past k => k.before = tableOf w past) c.log) ?_ es
    ⟨rfl, .nil⟩
  rintro c e ⟨hw, hlog⟩
  rcases Machine.step_cases (M := machine) c e with hs | ⟨op, next, -, hs⟩
  · rw [hs]
    exact ⟨hw, hlog⟩
  · rw [hs]
    refine ⟨?_, .cons hw hlog⟩
    show (machine.perform e.2 op c.world).2 =
      ((committed ⟨e.1, op, e.2, c.world⟩).map (upsertRows (tableOf w c.log))).getD (tableOf w c.log)
    rw [world_perform e.1, ← hw]

/-- The key of a row that is not written keeps its row. -/
theorem accrued_overwrite (row : Option CircuitRow) (rows : List CircuitRow)
    (hkeys : ∀ r ∈ rows, ∀ r' ∈ row, r.dimension_key = r'.dimension_key)
    (hrows : ∀ r ∈ rows, ∀ r' ∈ rows, r.dimension_key = r'.dimension_key) :
    rows.foldl (Table.accrue id overwrite) row = rows.getLast?.or row := by
  induction rows generalizing row with
  | nil => simp
  | cons r rows ih =>
    have hfirst : Table.accrue id overwrite row r = some r := by
      cases row with
      | none => rfl
      | some r' =>
        have hkey := hkeys r List.mem_cons_self r' rfl
        simp [Table.accrue, overwrite, ← hkey]
    rw [List.foldl_cons, hfirst, ih]
    · cases rows with
      | nil => rfl
      | cons r' rows => simp [List.getLast?_cons]
    · intro x hx r' hr'
      obtain rfl : r = r' := Option.some.inj hr'
      exact hrows x (List.mem_cons_of_mem r hx) r List.mem_cons_self
    · intro x hx x' hx'
      exact hrows x (List.mem_cons_of_mem r hx) x' (List.mem_cons_of_mem r hx')

theorem rowOf_upsertRows (w : CircuitTable) (rows : List CircuitRow) (key : String) :
    (upsertRows w rows).rowOf key =
      (rows.filter fun r => decide (r.dimension_key = key)).getLast?.or (w.rowOf key) := by
  have hmem : ∀ r ∈ rows.filter fun r => decide (r.dimension_key = key), r.dimension_key = key := by
    intro r hr
    simpa using (List.mem_filter.1 hr).2
  rw [upsertRows, Table.rowOf_tally]
  apply accrued_overwrite
  · intro r hr r' hr'
    exact (hmem r hr).trans (Table.rowOf_eq_some.1 hr').2.symm
  · intro r hr r' hr'
    exact (hmem r hr).trans (hmem r' hr').symm

/-! ## What the script writes -/

section Written

variable {R}

/-- The rows are those of a run of the script: of what it read, and of its time. -/
def Written (R : Runtime) (inputs : Inputs) (rows : List CircuitRow) : Prop :=
  ∃ evaluated, main R inputs = .wrote evaluated ∧
    rows = evaluated.map fun row => circuitRow row (R.isoZ inputs.now)

/-- The one row of the neurons, and the one row of the dimension without a meter, which is closed. -/
theorem written_rows {inputs : Inputs} {rows : List CircuitRow} (h : Written R inputs rows) :
    ∃ ai, fetch_ai_day R inputs.ai = .ok ai ∧
      rows.filter (fun r => decide (r.dimension_key = "ai.neurons")) =
        [circuitRow (meteredRow "ai.neurons" THRESHOLD_NEURONS (ai.total_neurons R)) (R.isoZ inputs.now)] ∧
      rows.filter (fun r => decide (r.dimension_key = "vectorize.queried_dims")) =
        [circuitRow ⟨"vectorize.queried_dims", .CLOSED, .fin (-1), THRESHOLD_QUERIED_DIMS⟩
          (R.isoZ inputs.now)] := by
  obtain ⟨evaluated, hmain, rfl⟩ := h
  obtain ⟨_, d1, ai, -, -, hai, hevaluate⟩ := main_wrote hmain
  obtain ⟨read, written, -, -, rfl⟩ := evaluate_eq_some hevaluate
  exact ⟨ai, hai, by simp [circuitRow, meteredRow], by simp [circuitRow, meteredRow]⟩

/-- An operation that a thread may issue: what it upserts, a run of the script has evaluated. -/
def Lawful (R : Runtime) : Op → Prop
  | .upsertCircuits rows => ∃ inputs, Written R inputs rows
  | _ => True

theorem issues_onRuntimeError {α : Type} {S : Op → Prop} {s : Program α} (hs : s.Issues S) (default : α) :
    (onRuntimeError s default).Issues S := by
  apply hs.tryCatch
  intro e
  cases e <;> trivial

theorem issues_persist {rows : Option (List CircuitRow)}
    (hrows : ∀ written ∈ rows, ∃ inputs, Written R inputs written) : (persist rows).Issues (Lawful R) := by
  have hpersist : (persistRows rows).Issues (Lawful R) := by
    cases rows with
    | none => exact ⟨trivial, fun r => by cases r <;> trivial⟩
    | some written =>
      refine ⟨trivial, fun r => ?_⟩
      cases r with
      | ok _ => exact Script.issues_perform.2 (hrows written rfl)
      | error e => trivial
  have husage : read_client_allocation.Issues (Lawful R) := by
    apply issues_onRuntimeError
    exact ⟨trivial, fun r => by
      cases r with
      | ok _ => exact Script.issues_perform.2 trivial
      | error e => trivial⟩
  refine husage.bind fun _ => ?_
  refine (issues_onRuntimeError (α := List CircuitRow) (Script.issues_perform.2 trivial) []).bind fun _ => ?_
  refine Script.Issues.tryCatch (hpersist.bind fun _ => Script.issues_halt _) ?_
  intro e
  cases e <;> trivial

theorem issues_reconcile : (reconcile R).Issues (Lawful R) := by
  refine ⟨trivial, fun r => ?_⟩
  cases r with
  | error e => trivial
  | ok inputs =>
    obtain ⟨outcome, houtcome⟩ : ∃ outcome, main R { inputs with d1Writes := true } = outcome := ⟨_, rfl⟩
    show Script.Issues (Lawful R) (finish (R.isoZ inputs.now) (main R { inputs with d1Writes := true }))
    rw [houtcome]
    cases outcome with
    | d1Failure => exact issues_persist (by simp)
    | wrote rows =>
      apply issues_persist
      intro written hwritten
      obtain rfl := Option.some.inj hwritten
      exact ⟨{ inputs with d1Writes := true }, rows, houtcome, rfl⟩
    | _ => trivial

theorem issues_program (task : Task) : (task.program R).Issues (Lawful R) := by
  cases task with
  | reconcile => exact issues_reconcile.bind fun _ => trivial
  | search db =>
    refine Script.Issues.bind ?_ fun _ => trivial
    unfold semanticSearchCircuitRefusal
    split_ifs
    · apply Script.Issues.tryCatch
      · refine ⟨trivial, fun r => ?_⟩
        cases r with
        | error e => trivial
        | ok rows =>
          show Script.Issues (Lawful R) (if _ then _ else _)
          split_ifs
          · trivial
          · exact ⟨trivial, fun r => by cases r <;> trivial⟩
      · exact fun _ => trivial
    · trivial

end Written

/-! ## The searches of a run -/

section Searches

variable {R}

/-- The row of a key is the one that was written last, where every write has one. -/
theorem rowOf_tableOf (log : List (Call Op CircuitTable Choice)) (key : String)
    (hwrites : ∀ k ∈ log, ∀ rows ∈ committed k, rows.filter (fun r => decide (r.dimension_key = key)) ≠ []) :
    (tableOf Table.empty log).rowOf key = (lastCommitted log).bind fun rows =>
      (rows.filter fun r => decide (r.dimension_key = key)).getLast? := by
  induction log with
  | nil => rfl
  | cons k log ih =>
    have ih := ih fun k' hk' => hwrites k' (List.mem_cons_of_mem k hk')
    cases hk : committed k with
    | none => simpa [tableOf, lastCommitted, List.findSome?_cons, hk] using ih
    | some rows =>
      have hne := hwrites k List.mem_cons_self rows hk
      have htable : tableOf Table.empty (k :: log) = upsertRows (tableOf Table.empty log) rows := by
        simp [tableOf, hk]
      have hcommitted : lastCommitted (k :: log) = some rows := by simp [lastCommitted, hk]
      obtain ⟨x, hx⟩ := Option.isSome_iff_exists.1 (List.getLast?_isSome.2 hne)
      rw [htable, rowOf_upsertRows, hcommitted, Option.bind_some, hx, Option.some_or]

/-- The reconcile that last took effect has read so many neurons, at the threshold or above. -/
def Tripped (R : Runtime) (past : List (Call Op CircuitTable Choice)) (neurons : Double) (asOf : String) :
    Prop :=
  ∃ inputs rows ai, lastCommitted past = some rows ∧ Written R inputs rows ∧
    fetch_ai_day R inputs.ai = .ok ai ∧ neurons = ai.total_neurons R ∧
    neurons.ge THRESHOLD_NEURONS = true ∧ asOf = R.isoZ inputs.now

/-- The rows that refuse. -/
def opened (w : CircuitTable) : List QuotaCircuitRow :=
  ((selected w (some SEMANTIC_SEARCH_CIRCUIT_DIMENSIONS)).map CircuitRow.seen).filter fun row =>
    decide (row.state = .OPEN)

/-- What a read of the gate comes to. -/
def refusedBy (k : Call Op CircuitTable Choice) : Option (List OpenDimension) :=
  match k.choice.fault with
  | .none => if opened k.before = [] then none else some ((opened k.before).map QuotaCircuitRow.openDimension)
  | _ => none

/-- A search reads once, and what it answers is what the read comes to. -/
theorem completes_search {ks : List (Call Op CircuitTable Choice)} {r : Except Thrown Answer}
    (h : machine.Completes ((Task.search true).program R) ks r) : ∃ k rest refusal, ks = k :: rest ∧
      k.op = .selectCircuits (some SEMANTIC_SEARCH_CIRCUIT_DIMENSIONS) ∧ r = .ok (.searched refusal) ∧
      refusal.map QuotaCircuitRefusal.open_dimensions = refusedBy k := by
  simp only [Task.program, semanticSearchCircuitRefusal, readCircuitStates, if_true, Script.perform_bind,
    Script.tryCatch_call, Script.call_bind, Machine.completes_call] at h
  obtain ⟨t, ch, w, ks, rfl, h⟩ := h
  refine ⟨⟨t, .selectCircuits (some SEMANTIC_SEARCH_CIRCUIT_DIMENSIONS), ch, w⟩, ks, ?_⟩
  cases hfault : ch.fault with
  | none =>
    have hopened : ((selected w (some SEMANTIC_SEARCH_CIRCUIT_DIMENSIONS)).map CircuitRow.seen).filter
        (fun row => decide (row.state = .OPEN)) = opened w := rfl
    simp only [machine, perform, hfault, Fault.answer, Script.halt_ok_bind, Script.pure_eq, refuse,
      hopened] at h
    by_cases hnil : opened w = []
    · rw [if_pos hnil] at h
      obtain ⟨rfl, rfl⟩ := Machine.completes_halt.1 h
      exact ⟨none, rfl, rfl, rfl, by simp [refusedBy, hfault, hnil]⟩
    · rw [if_neg hnil] at h
      obtain ⟨t', ch', w', ks', rfl, hend⟩ := Machine.completes_call.1 h
      obtain ⟨rfl, rfl⟩ := Machine.completes_halt.1 hend
      exact ⟨some (refusalOf ch'.hex (opened w)), rfl, rfl, rfl, by simp [refusedBy, hfault, hnil, refusalOf]⟩
  | before e =>
    simp only [machine, perform, hfault, Fault.answer] at h
    obtain ⟨rfl, rfl⟩ := Machine.completes_halt.1 h
    exact ⟨none, rfl, rfl, rfl, by simp [refusedBy, hfault]⟩
  | after e =>
    simp only [machine, perform, hfault, Fault.answer] at h
    obtain ⟨rfl, rfl⟩ := Machine.completes_halt.1 h
    exact ⟨none, rfl, rfl, rfl, by simp [refusedBy, hfault]⟩

/-- A row that refuses. -/
def refuses (r : CircuitRow) : Bool :=
  SEMANTIC_SEARCH_CIRCUIT_DIMENSIONS.contains r.dimension_key && decide (r.state = "OPEN")

theorem refuses_iff {r : CircuitRow} : refuses r = true ↔
    (r.dimension_key = "ai.neurons" ∨ r.dimension_key = "vectorize.queried_dims") ∧ r.state = "OPEN" := by
  simp [refuses, SEMANTIC_SEARCH_CIRCUIT_DIMENSIONS]

theorem opened_eq (w : CircuitTable) : opened w = (w.rows.filter refuses).map CircuitRow.seen := by
  rw [opened, selected, List.filter_map, List.filter_filter]
  congr 1
  apply List.filter_congr
  intro r _
  by_cases hstate : r.state = "OPEN" <;> simp [refuses, CircuitRow.seen, hstate]

/-- The rows of the two dimensions are the last that were written, in a table that only runs have written. -/
theorem opened_tableOf {past : List (Call Op CircuitTable Choice)}
    (hlawful : ∀ k ∈ past, ∀ rows ∈ committed k, ∃ inputs, Written R inputs rows) :
    opened (tableOf Table.empty past) = [] ∧ (¬ ∃ neurons asOf, Tripped R past neurons asOf) ∨
      ∃ neurons asOf, Tripped R past neurons asOf ∧
        (opened (tableOf Table.empty past)).map QuotaCircuitRow.openDimension =
          [⟨"ai.neurons", neurons, THRESHOLD_NEURONS, asOf⟩] := by
  have hneurons := rowOf_tableOf past "ai.neurons" fun k hk rows hrows => by
    obtain ⟨inputs, hwritten⟩ := hlawful k hk rows hrows
    obtain ⟨ai, -, hai, -⟩ := written_rows hwritten
    simp [hai]
  have hvectors := rowOf_tableOf past "vectorize.queried_dims" fun k hk rows hrows => by
    obtain ⟨inputs, hwritten⟩ := hlawful k hk rows hrows
    obtain ⟨ai, -, -, hvectorize⟩ := written_rows hwritten
    simp [hvectorize]
  rw [opened_eq]
  cases hlast : lastCommitted past with
  | none =>
    rw [hlast] at hneurons hvectors
    have hnone : (tableOf Table.empty past).rows.filter refuses = [] := by
      apply List.filter_eq_nil_iff.2
      intro r hr hrefuses
      rcases (refuses_iff.1 hrefuses).1 with hkey | hkey
      · exact Table.rowOf_eq_none.1 hneurons r hr hkey
      · exact Table.rowOf_eq_none.1 hvectors r hr hkey
    left
    refine ⟨by rw [hnone]; rfl, ?_⟩
    rintro ⟨neurons, asOf, inputs, rows, ai, hrows, -⟩
    cases hlast.symm.trans hrows
  | some rows =>
    obtain ⟨k, hk, hrows⟩ := List.exists_of_findSome?_eq_some hlast
    obtain ⟨inputs, hwritten⟩ := hlawful k hk rows hrows
    obtain ⟨ai, hfetch, hai, hvectorize⟩ := written_rows hwritten
    rw [hlast, Option.bind_some, hai, List.getLast?_singleton] at hneurons
    rw [hlast, Option.bind_some, hvectorize, List.getLast?_singleton] at hvectors
    have hmem := (Table.rowOf_eq_some.1 hneurons).1
    -- The other dimension has no meter, and so its row is closed.
    have honly : ∀ r ∈ tableOf Table.empty past, refuses r = true →
        r = circuitRow (meteredRow "ai.neurons" THRESHOLD_NEURONS (ai.total_neurons R))
          (R.isoZ inputs.now) := by
      intro r hr hrefuses
      obtain ⟨hkey | hkey, hstate⟩ := refuses_iff.1 hrefuses
      · exact Option.some.inj ((Table.rowOf_eq_some.2 ⟨hr, hkey⟩).symm.trans hneurons)
      · obtain rfl := Option.some.inj ((Table.rowOf_eq_some.2 ⟨hr, hkey⟩).symm.trans hvectors)
        simp [circuitRow, stateName] at hstate
    cases hge : (ai.total_neurons R).ge THRESHOLD_NEURONS with
    | true =>
      right
      refine ⟨ai.total_neurons R, R.isoZ inputs.now,
        ⟨inputs, rows, ai, hlast, hwritten, hfetch, rfl, hge, rfl⟩, ?_⟩
      have hrefuses : refuses (circuitRow (meteredRow "ai.neurons" THRESHOLD_NEURONS (ai.total_neurons R))
          (R.isoZ inputs.now)) = true := by
        apply refuses_iff.2
        simp [circuitRow, meteredRow, hge, stateName]
      rw [Table.filter_eq_singleton (i := fun r => some r.dimension_key) (by simp) hmem hrefuses (by simp)
        fun r hr hp => by rw [honly r hr hp]]
      rfl
    | false =>
      left
      have hnone : (tableOf Table.empty past).rows.filter refuses = [] := by
        apply List.filter_eq_nil_iff.2
        intro r hr hrefuses
        obtain rfl := honly r hr hrefuses
        have hstate := (refuses_iff.1 hrefuses).2
        simp [circuitRow, meteredRow, hge, stateName] at hstate
      refine ⟨by rw [hnone]; rfl, ?_⟩
      rintro ⟨neurons, asOf, inputs', rows', ai', hrows', hwritten', hfetch', rfl, hge', rfl⟩
      obtain rfl := Option.some.inj (hlast.symm.trans hrows')
      obtain ⟨ai'', hfetch'', hai'', -⟩ := written_rows hwritten'
      obtain rfl : ai' = ai'' := Except.ok.inj (hfetch'.symm.trans hfetch'')
      have husage := congrArg CircuitRow.current_usage (List.singleton_inj.1 (hai.symm.trans hai''))
      have hsame : ai.total_neurons R = ai'.total_neurons R := husage
      rw [← hsame, hge] at hge'
      cases hge'

/-- A search is refused exactly where its read was answered and the reconcile that last took effect before
it had read neurons at the threshold; the refusal names them. -/
theorem refused_exec (tasks : ℕ → Task) (es : List (ℕ × Choice)) (t : ℕ) (htask : tasks t = .search true)
    (r : Except Thrown Answer)
    (h : (machine.exec (Config.start Table.empty fun t => (tasks t).program R) es).result? t = some r) :
    ∃ refusal k later past, r = .ok (.searched refusal) ∧
      (machine.exec (Config.start Table.empty fun t => (tasks t).program R) es).log = later ++ k :: past ∧
      k.thread = t ∧ k.op = .selectCircuits (some SEMANTIC_SEARCH_CIRCUIT_DIMENSIONS) ∧
      (refusal.isSome ↔ k.choice.fault = .none ∧ ∃ neurons asOf, Tripped R past neurons asOf) ∧
      ∀ q ∈ refusal, ∃ neurons asOf, Tripped R past neurons asOf ∧
        q.open_dimensions = [⟨"ai.neurons", neurons, THRESHOLD_NEURONS, asOf⟩] := by
  have hcompletes := Machine.completes_exec es h
  rw [htask] at hcompletes
  obtain ⟨k, rest, refusal, htrace, hop, rfl, hrefusal⟩ := completes_search hcompletes
  have hk : k ∈ (machine.exec (Config.start Table.empty fun t => (tasks t).program R) es).trace t := by
    rw [← List.mem_reverse, htrace]
    exact List.mem_cons_self
  obtain ⟨hk, hthread⟩ := List.mem_filter.1 hk
  obtain ⟨later, past, hlog⟩ := List.append_of_mem hk
  have halong := (table_exec (fun t => (tasks t).program R) Table.empty es).2
  rw [hlog] at halong
  have hbefore : k.before = tableOf Table.empty past := (along_cons.1 halong.of_append).1
  have hlawful : ∀ k ∈ past, ∀ rows ∈ committed k, ∃ inputs, Written R inputs rows := by
    intro k' hk' rows hrows
    have hlogged := Machine.exec_log (M := machine) (I := fun _ => True) (S := fun _ => Lawful R)
      (fun _ _ _ _ _ _ => trivial) (c := Config.start Table.empty fun t => (tasks t).program R)
      (fun t => issues_program (tasks t)) trivial (by simp [Config.start]) es k' (by rw [hlog]; simp [hk'])
    have hlaw := hlogged.1
    unfold committed at hrows
    cases hop' : k'.op with
    | upsertCircuits rows' =>
      rw [hop'] at hlaw
      simp only [hop'] at hrows
      split_ifs at hrows
      · obtain rfl := Option.some.inj hrows
        exact hlaw
      · cases hrows
    | _ => simp [hop'] at hrows
  refine ⟨refusal, k, later, past, rfl, hlog, by simpa using hthread, hop, ?_⟩
  have hopened := opened_tableOf hlawful
  rw [← hbefore] at hopened
  cases hfault : k.choice.fault with
  | none =>
    simp only [refusedBy, hfault] at hrefusal
    rcases hopened with ⟨hnil, hnot⟩ | ⟨neurons, asOf, htripped, hdims⟩
    · rw [if_pos hnil] at hrefusal
      obtain rfl := Option.map_eq_none_iff.1 hrefusal
      exact ⟨by simpa using hnot, by simp⟩
    · have hne : opened k.before ≠ [] := by
        intro hnil
        rw [hnil] at hdims
        cases hdims
      rw [if_neg hne, hdims] at hrefusal
      obtain ⟨q, rfl, hq⟩ := Option.map_eq_some_iff.1 hrefusal
      refine ⟨iff_of_true rfl ⟨rfl, neurons, asOf, htripped⟩, ?_⟩
      intro q' hq'
      obtain rfl := Option.some.inj hq'
      exact ⟨neurons, asOf, htripped, hq⟩
  | before e =>
    simp only [refusedBy, hfault] at hrefusal
    obtain rfl := Option.map_eq_none_iff.1 hrefusal
    simp
  | after e =>
    simp only [refusedBy, hfault] at hrefusal
    obtain rfl := Option.map_eq_none_iff.1 hrefusal
    simp

/-- A runtime that adds up the threshold. -/
def tripRuntime : Runtime :=
  { smallRuntime with sum := fun _ => .fin 9500, ofInt := fun _ => some (.fin 0) }

def trippedTasks : ℕ → Task
  | 0 => .reconcile
  | _ => .search true

/-- A reconcile reads the threshold and writes it; a search then reads the table. -/
def trippedRun : List (ℕ × Choice) :=
  List.replicate 6 (0, ⟨answeredInputs [(d1Dataset, dayGroups)], "", .none⟩) ++
    List.replicate 2 (1, ⟨answeredInputs [], "f00d", .none⟩)

def trippedRefusal : QuotaCircuitRefusal :=
  refusalOf "f00d" [⟨"ai.neurons", .OPEN, .fin 9500, THRESHOLD_NEURONS, "2026-10-16T00:00:00Z"⟩]

theorem refused_exec_tripped :
    ∃ refusal k later past,
      (.ok (.searched (some trippedRefusal)) : Except Thrown Answer) = .ok (.searched refusal) ∧
      (machine.exec (Config.start Table.empty fun t => (trippedTasks t).program tripRuntime)
        trippedRun).log = later ++ k :: past ∧
      k.thread = 1 ∧ k.op = .selectCircuits (some SEMANTIC_SEARCH_CIRCUIT_DIMENSIONS) ∧
      (refusal.isSome ↔ k.choice.fault = .none ∧ ∃ neurons asOf, Tripped tripRuntime past neurons asOf) ∧
      ∀ q ∈ refusal, ∃ neurons asOf, Tripped tripRuntime past neurons asOf ∧
        q.open_dimensions = [⟨"ai.neurons", neurons, THRESHOLD_NEURONS, asOf⟩] :=
  refused_exec trippedTasks trippedRun 1 rfl (.ok (.searched (some trippedRefusal))) rfl

end Searches

end QuantproCollector.QuotaCircuit
