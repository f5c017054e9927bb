import QuantproCollector.QuotaMetering.Usage
import QuantproCollector.QuotaResource.ObservedD1
import QuantproCollector.ResearchScopes.Resolve

/-!
# The bindings of a metered request

A request calls D1, R2, Workers AI and Vectorize through wrappers with one observer, and when it has finished
the totals of the observer are what it is charged with. The bindings are parameters: what a call answers and
does to the stores is any function of the stores.

* `observedCall_reports`: the reports of a D1 call are what `observedCall` records of it.
* `metered_charge`: over every sequence of calls the charge has the rows that the executed statements
  reported, the neurons of the embeddings that were answered and the number of queries that were answered,
  and there is none exactly where no call has used anything.
-/

namespace QuantproCollector.QuotaResource

open QuotaMetering (ObservedDimension Charge ClientUsageInput sumDimension)
open ResearchScopes (utf16Length)

/-! ## The observer -/

/-- The map of an observer, in the order of its first records. -/
abbrev Observed := List (ObservedDimension ℚ)

/-- What is reported of a dimension; `none` where it is no finite number. -/
abbrev Report := String × Option ℚ

def addUnits (dimensionKey : String) (units : ℚ) : Observed → Observed
  | [] => [⟨dimensionKey, units⟩]
  | entry :: observed =>
    if entry.dimension_key = dimensionKey then ⟨dimensionKey, entry.units + units⟩ :: observed
    else entry :: addUnits dimensionKey units observed

def recordReport (observed : Observed) (report : Report) : Observed :=
  match report.2 with
  | some units => if units ≤ 0 then observed else addUnits report.1 units observed
  | none => observed

def recordReports (observed : Observed) (reports : List Report) : Observed :=
  reports.foldl recordReport observed

/-! ## The bindings -/

inductive R2Operation where
  | put
  | get
  | head
  | delete
  | list
deriving DecidableEq

def R2_CLASS_BY_OPERATION : R2Operation → Option String
  | .put => some "r2.class_a"
  | .get => some "r2.class_b"
  | .head => some "r2.class_b"
  | .list => some "r2.class_a"
  | .delete => none

/-- R2, Workers AI and Vectorize over stores `σ`; `number` is `Number(value)` where that is finite. -/
structure Services (σ Value Err : Type) where
  r2 : R2Operation → List Value → σ → Except Err Value × σ
  ai : String → Option Json → σ → Except Err (Option Json) × σ
  vectorize : String → List Value → σ → Except Err Value × σ
  number : Json → Option ℚ

def NEURONS_PER_MILLION_TOKENS : ℚ := 1075

/-- The text of an embedding; what is no text has no length. -/
def textLength : Option Json → ℕ
  | some (.str text) => utf16Length text
  | _ => 0

/-- A token for two code units, rounded up. -/
def estimateEmbeddingNeurons (texts : List (Option Json)) : ℚ :=
  let chars := (texts.map textLength).sum
  let tokens := max 1 ((chars + 1) / 2)
  tokens * NEURONS_PER_MILLION_TOKENS / 1000000

def textsOf : Option Json → List (Option Json)
  | some (.arr texts) => texts.map some
  | input => [input]

/-- What an embedding has used: by the answer's own count of tokens, or by the estimate. -/
def neuronsOf (number : Json → Option ℚ) (input result : Option Json) : ℚ :=
  match ((result.bind (·.get? "usage")).bind (·.get? "tokens")).bind number with
  | some reported => reported * NEURONS_PER_MILLION_TOKENS / 1000000
  | none => estimateEmbeddingNeurons (textsOf (input.bind (·.get? "text")))

/-- `model.includes("bge")`. -/
def isEmbedding (model : String) : Bool :=
  decide ("bge".toList <:+: model.toList)

/-- The dimensions of the index that a request is given. -/
def INDEX_DIMENSIONS : ℚ := 1024

section Calls

variable {σ Stmt Val Row Meta Raw Err Value : Type}

inductive BindingCall (Val Value : Type) where
  | db (call : Call Val)
  | r2 (operation : R2Operation) (args : List Value)
  | ai (model : String) (input : Option Json)
  | vectorize (method : String) (args : List Value)

inductive BindingAnswer (Val Row Meta Raw Err Value : Type) where
  | db (answer : Answer Val Row Meta Raw Err)
  | thrown (e : Err)
  | value (value : Value)
  | inference (result : Option Json)

variable (D : Driver σ Stmt Val Row Meta Raw Err) (S : Services σ Value Err)

/-- What an answer of D1 reports. -/
def metaReports (info : Meta) : List Report :=
  [("d1.rows_read", D.rowsRead info), ("d1.rows_written", D.rowsWritten info)]

/-- The answers of an execution; there are none where it fails. -/
def resultsOf (r : Except Err (List (Result Row Meta)) × σ) : List (Result Row Meta) :=
  match r.1 with
  | .ok results => results
  | .error _ => []

/-- The answers of the statements that a call executes, as far as they carry usage. -/
def executedResults (s : Session σ Stmt) : Call Val → List (Result Row Meta)
  | .first statement _ | .all statement =>
    (s.statements[statement]?).elim [] fun stmt => resultsOf (single (D.all stmt s.world))
  | .run statement =>
    (s.statements[statement]?).elim [] fun stmt => resultsOf (single (D.run stmt s.world))
  | .batch statements =>
    (statements.mapM fun (statement : ℕ) => s.statements[statement]?).elim [] fun stmts =>
      resultsOf (D.batch stmts s.world)
  | .prepare _ | .bind _ _ | .raw _ _ => []

def dbReports (s : Session σ Stmt) (call : Call Val) : List Report :=
  (executedResults D s call).flatMap fun result => metaReports D result.info

/-- What a call reports where it is answered. -/
def answered {α : Type} (r : Except Err α × σ) (reports : α → List Report) : List Report :=
  match r.1 with
  | .ok a => reports a
  | .error _ => []

def reportsOf (s : Session σ Stmt) : BindingCall Val Value → List Report
  | .db call => dbReports D s call
  | .r2 operation args =>
    answered (S.r2 operation args s.world) fun _ =>
      (R2_CLASS_BY_OPERATION operation).elim [] fun dimension => [(dimension, some 1)]
  | .ai model input =>
    answered (S.ai model input s.world) fun result =>
      if isEmbedding model then [("ai.neurons", some (neuronsOf S.number input result))] else []
  | .vectorize method args =>
    answered (S.vectorize method args s.world) fun _ =>
      if method = "query" then [("vectorize.queried_dims", some INDEX_DIMENSIONS)] else []

/-- What a call on a wrapper answers, and the stores after it. -/
def reply {α : Type} (s : Session σ Stmt) (value : α → BindingAnswer Val Row Meta Raw Err Value)
    (r : Except Err α × σ) : BindingAnswer Val Row Meta Raw Err Value × Session σ Stmt :=
  match r.1 with
  | .ok a => (value a, { s with world := r.2 })
  | .error e => (.thrown e, { s with world := r.2 })

def bindingCall (s : Session σ Stmt) :
    BindingCall Val Value → BindingAnswer Val Row Meta Raw Err Value × Session σ Stmt
  | .db call => Prod.map .db id (observedCall D s (fun _ => 0) call).1
  | .r2 operation args => reply s .value (S.r2 operation args s.world)
  | .ai model input => reply s .inference (S.ai model input s.world)
  | .vectorize method args => reply s .value (S.vectorize method args s.world)

/-- The answers of a request's calls, and the observer after them. -/
def meteredRun (s : Session σ Stmt) (observed : Observed) :
    List (BindingCall Val Value) → List (BindingAnswer Val Row Meta Raw Err Value) × Observed
  | [] => ([], observed)
  | c :: calls =>
    let (answer, s') := bindingCall D S s c
    let (answers, observed') := meteredRun s' (recordReports observed (reportsOf D S s c)) calls
    (answer :: answers, observed')

/-- The calls of a request, each with the session in which it is made. -/
def steps (s : Session σ Stmt) :
    List (BindingCall Val Value) → List (Session σ Stmt × BindingCall Val Value)
  | [] => []
  | c :: calls => (s, c) :: steps (bindingCall D S s c).2 calls

/-! ## What a request has used -/

/-- The rows of one kind that the statements of a call reported. -/
def rowsOf (rows : Meta → Option ℚ) (s : Session σ Stmt) : BindingCall Val Value → ℚ
  | .db call => ((executedResults D s call).map fun result => max 0 ((rows result.info).getD 0)).sum
  | _ => 0

/-- The neurons of an embedding that was answered. -/
def neuronsUsed (s : Session σ Stmt) : BindingCall Val Value → ℚ
  | .ai model input =>
    match (S.ai model input s.world).1 with
    | .ok result => if isEmbedding model then max 0 (neuronsOf S.number input result) else 0
    | .error _ => 0
  | _ => 0

/-- A query of the index that was answered. -/
def isQuery (s : Session σ Stmt) : BindingCall Val Value → Bool
  | .vectorize method args => decide (method = "query") && (S.vectorize method args s.world).1.isOk
  | _ => false

/-- A call that has used nothing. -/
def Unused (s : Session σ Stmt) : BindingCall Val Value → Prop
  | .db call => ∀ result ∈ executedResults D s call,
      (D.rowsRead result.info).getD 0 ≤ 0 ∧ (D.rowsWritten result.info).getD 0 ≤ 0
  | .r2 operation args => operation = .delete ∨ (S.r2 operation args s.world).1.isOk = false
  | .ai model input => neuronsUsed S s (.ai model input : BindingCall Val Value) = 0
  | .vectorize method args => isQuery S s (.vectorize method args : BindingCall Val Value) = false

end Calls

/-! ## The totals of an observer -/

/-- What a report adds to a dimension. -/
def amount (dimensionKey : String) (report : Report) : ℚ :=
  if report.1 = dimensionKey then max 0 (report.2.getD 0) else 0

theorem sumDimension_eq (observed : Observed) (key : String) :
    sumDimension observed key =
      (observed.map fun entry => if entry.dimension_key = key then entry.units else 0).sum := by
  have hfold : ∀ total : ℚ, observed.foldl (fun total entry =>
      if entry.dimension_key = key then total + entry.units else total) total =
        total + (observed.map fun entry => if entry.dimension_key = key then entry.units else 0).sum := by
    induction observed with
    | nil => simp
    | cons entry observed ih =>
      intro total
      rw [List.foldl_cons, ih, List.map_cons, List.sum_cons]
      split_ifs <;> ring
  rw [sumDimension, hfold, zero_add]

theorem sumDimension_addUnits (dimensionKey key : String) (units : ℚ) (observed : Observed) :
    sumDimension (addUnits dimensionKey units observed) key =
      sumDimension observed key + if dimensionKey = key then units else 0 := by
  simp only [sumDimension_eq]
  induction observed with
  | nil => simp [addUnits]
  | cons entry observed ih =>
    by_cases hkey : entry.dimension_key = dimensionKey
    · subst hkey
      rw [addUnits, if_pos rfl, List.map_cons, List.map_cons, List.sum_cons, List.sum_cons]
      split_ifs <;> ring
    · rw [addUnits, if_neg hkey, List.map_cons, List.map_cons, List.sum_cons, List.sum_cons, ih]
      ring

theorem sumDimension_recordReport (observed : Observed) (report : Report) (key : String) :
    sumDimension (recordReport observed report) key = sumDimension observed key + amount key report := by
  obtain ⟨dimensionKey, units⟩ := report
  cases units with
  | none => simp [recordReport, amount]
  | some units =>
    rw [recordReport, amount]
    dsimp only [Option.getD_some]
    split_ifs with hunits hkey hkey
    · rw [max_eq_left hunits, add_zero]
    · rw [add_zero]
    · rw [sumDimension_addUnits, if_pos hkey, max_eq_right (not_le.1 hunits).le]
    · rw [sumDimension_addUnits, if_neg hkey]

/-- A total is the sum of what the reports add to its dimension. -/
theorem sumDimension_recordReports (observed : Observed) (reports : List Report) (key : String) :
    sumDimension (recordReports observed reports) key =
      sumDimension observed key + (reports.map (amount key)).sum := by
  induction reports generalizing observed with
  | nil => simp [recordReports]
  | cons report reports ih =>
    have hstep := ih (recordReport observed report)
    rw [recordReports] at hstep ⊢
    rw [List.foldl_cons, hstep, sumDimension_recordReport, List.map_cons, List.sum_cons, add_assoc]

theorem addUnits_ne_nil (dimensionKey : String) (units : ℚ) (observed : Observed) :
    addUnits dimensionKey units observed ≠ [] := by
  cases observed with
  | nil => exact List.cons_ne_nil _ _
  | cons entry observed =>
    rw [addUnits]
    split_ifs <;> exact List.cons_ne_nil _ _

theorem recordReport_eq_nil {observed : Observed} {report : Report} :
    recordReport observed report = [] ↔ observed = [] ∧ report.2.getD 0 ≤ 0 := by
  obtain ⟨dimensionKey, units⟩ := report
  cases units with
  | none => simp [recordReport]
  | some units =>
    rw [recordReport]
    dsimp only [Option.getD_some]
    split_ifs with hunits
    · exact ⟨fun h => ⟨h, hunits⟩, fun h => h.1⟩
    · exact ⟨fun h => absurd h (addUnits_ne_nil _ _ _), fun h => absurd h.2 hunits⟩

/-- An observer has no total exactly where nothing positive was reported. -/
theorem recordReports_eq_nil {observed : Observed} {reports : List Report} :
    recordReports observed reports = [] ↔ observed = [] ∧ ∀ report ∈ reports, report.2.getD 0 ≤ 0 := by
  induction reports generalizing observed with
  | nil => simp [recordReports]
  | cons report reports ih =>
    have hstep := @ih (recordReport observed report)
    rw [recordReports] at hstep ⊢
    rw [List.foldl_cons, hstep, recordReport_eq_nil, List.forall_mem_cons, and_assoc]

/-! ## The reports of a request -/

section Request

variable {σ Stmt Val Row Meta Raw Err Value : Type} {D : Driver σ Stmt Val Row Meta Raw Err}
  {S : Services σ Value Err}

theorem recordResults_reports (totals : Totals) (r : Except Err (List (Result Row Meta)) × σ) :
    recordResults D totals r =
      ((resultsOf r).flatMap fun result => metaReports D result.info).foldl
        (fun totals report => record totals report.1 report.2) totals := by
  obtain ⟨answer, w⟩ := r
  cases answer with
  | error e => rfl
  | ok results =>
    rw [recordResults, resultsOf, List.foldl_flatMap]
    rfl

/-- The reports of a D1 call are what the observed binding records of it. -/
theorem observedCall_reports (s : Session σ Stmt) (totals : Totals) (call : Call Val) :
    (observedCall D s totals call).2 =
      (dbReports D s call).foldl (fun totals report => record totals report.1 report.2) totals := by
  unfold dbReports
  cases call with
  | prepare sql => rfl
  | bind statement values => rfl
  | raw statement options => rfl
  | first statement column =>
    rw [observedCall, executedResults]
    cases s.statements[statement]? with
    | none => rfl
    | some stmt =>
      rw [Option.elim_some, ← recordResults_reports]
      simp only [observedFirst, recordResults, single]
      cases hall : D.all stmt s.world with
      | mk answer w => cases answer <;> rfl
  | all statement =>
    rw [observedCall, executedResults]
    cases s.statements[statement]? with
    | none => rfl
    | some stmt => exact recordResults_reports totals _
  | run statement =>
    rw [observedCall, executedResults]
    cases s.statements[statement]? with
    | none => rfl
    | some stmt => exact recordResults_reports totals _
  | batch statements =>
    rw [observedCall, executedResults]
    cases statements.mapM fun (statement : ℕ) => s.statements[statement]? with
    | none => rfl
    | some stmts => exact recordResults_reports totals _

/-- The observer of a request has recorded the reports of its calls. -/
theorem meteredRun_observed (s : Session σ Stmt) (observed : Observed)
    (calls : List (BindingCall Val Value)) :
    (meteredRun D S s observed calls).2 =
      recordReports observed ((steps D S s calls).flatMap fun p => reportsOf D S p.1 p.2) := by
  induction calls generalizing s observed with
  | nil => rfl
  | cons c calls ih =>
    have htail := ih (bindingCall D S s c).2 (recordReports observed (reportsOf D S s c))
    rw [steps, List.flatMap_cons, recordReports, List.foldl_append]
    exact htail

theorem sum_amounts (key : String) (ps : List (Session σ Stmt × BindingCall Val Value)) :
    ((ps.flatMap fun p => reportsOf D S p.1 p.2).map (amount key)).sum =
      (ps.map fun p => ((reportsOf D S p.1 p.2).map (amount key)).sum).sum := by
  rw [List.map_flatMap, List.flatMap, List.sum_flatten, List.map_map]
  rfl

/-- What a request's observer has of a dimension. -/
theorem sumDimension_meteredRun (s : Session σ Stmt) (calls : List (BindingCall Val Value)) (key : String) :
    sumDimension (meteredRun D S s [] calls).2 key =
      ((steps D S s calls).map fun p => ((reportsOf D S p.1 p.2).map (amount key)).sum).sum := by
  rw [meteredRun_observed, sumDimension_recordReports, sum_amounts]
  exact zero_add _

/-! ## The charge -/

theorem amount_of_ne {key : String} {report : Report} (h : report.1 ≠ key) : amount key report = 0 :=
  if_neg h

/-- The reports of a call on R2, Workers AI or Vectorize are of a dimension of its own. -/
theorem sum_amounts_of_ne {key : String} {reports : List Report} (h : ∀ report ∈ reports, report.1 ≠ key) :
    (reports.map (amount key)).sum = 0 := by
  refine List.sum_eq_zero fun x hx => ?_
  obtain ⟨report, hreport, rfl⟩ := List.mem_map.1 hx
  exact amount_of_ne (h report hreport)

theorem dbReports_amounts (key : String) (s : Session σ Stmt) (call : Call Val) :
    ((dbReports D s call).map (amount key)).sum =
      ((executedResults D s call).map fun result =>
        amount key ("d1.rows_read", D.rowsRead result.info) +
          amount key ("d1.rows_written", D.rowsWritten result.info)).sum := by
  rw [dbReports, List.map_flatMap, List.flatMap, List.sum_flatten, List.map_map]
  congr 1
  refine List.map_congr_left fun result _ => ?_
  simp [metaReports]

theorem mem_answered {α : Type} {r : Except Err α × σ} {reports : α → List Report} {report : Report}
    (h : report ∈ answered r reports) : ∃ a, report ∈ reports a := by
  unfold answered at h
  cases hanswer : r.1 with
  | error e =>
    rw [hanswer] at h
    cases h
  | ok a =>
    rw [hanswer] at h
    exact ⟨a, h⟩

/-- A report of R2 is of its classes. -/
theorem dimension_r2 {operation : R2Operation} {args : List Value} {s : Session σ Stmt} {report : Report}
    (h : report ∈ reportsOf D S s (.r2 operation args : BindingCall Val Value)) :
    report.1 = "r2.class_a" ∨ report.1 = "r2.class_b" := by
  obtain ⟨_, hreport⟩ := mem_answered h
  cases operation <;> simp only [R2_CLASS_BY_OPERATION, Option.elim, List.mem_singleton] at hreport
  case delete => cases hreport
  all_goals simp [hreport]

theorem dimension_ai {model : String} {input : Option Json} {s : Session σ Stmt} {report : Report}
    (h : report ∈ reportsOf D S s (.ai model input : BindingCall Val Value)) :
    report.1 = "ai.neurons" := by
  obtain ⟨_, hreport⟩ := mem_answered h
  split_ifs at hreport
  · rw [List.mem_singleton.1 hreport]
  · cases hreport

theorem dimension_vectorize {method : String} {args : List Value} {s : Session σ Stmt} {report : Report}
    (h : report ∈ reportsOf D S s (.vectorize method args : BindingCall Val Value)) :
    report.1 = "vectorize.queried_dims" := by
  obtain ⟨_, hreport⟩ := mem_answered h
  split_ifs at hreport
  · rw [List.mem_singleton.1 hreport]
  · cases hreport

theorem dimension_db {s : Session σ Stmt} {call : Call Val} {report : Report}
    (h : report ∈ dbReports D s call) : report.1 = "d1.rows_read" ∨ report.1 = "d1.rows_written" := by
  obtain ⟨result, -, hreport⟩ := List.mem_flatMap.1 h
  rcases List.mem_cons.1 hreport with rfl | hreport
  · exact .inl rfl
  · rw [List.mem_singleton.1 hreport]
    exact .inr rfl

/-- A dimension of D1 has what the statements reported of it. -/
theorem amounts_rows {key : String} {rows : Meta → Option ℚ}
    (hrows : ∀ info, amount key ("d1.rows_read", D.rowsRead info) +
      amount key ("d1.rows_written", D.rowsWritten info) = max 0 ((rows info).getD 0))
    (hclasses : "r2.class_a" ≠ key ∧ "r2.class_b" ≠ key) (hai : "ai.neurons" ≠ key)
    (hindex : "vectorize.queried_dims" ≠ key) (s : Session σ Stmt) (c : BindingCall Val Value) :
    ((reportsOf D S s c).map (amount key)).sum = rowsOf D rows s c := by
  cases c with
  | db call =>
    rw [reportsOf, dbReports_amounts, rowsOf]
    congr 1
    exact List.map_congr_left fun result _ => hrows result.info
  | r2 operation args =>
    refine sum_amounts_of_ne fun report hreport => ?_
    rcases dimension_r2 hreport with h | h <;> rw [h]
    · exact hclasses.1
    · exact hclasses.2
  | ai model input => exact sum_amounts_of_ne fun report hreport => dimension_ai hreport ▸ hai
  | vectorize method args =>
    exact sum_amounts_of_ne fun report hreport => dimension_vectorize hreport ▸ hindex

theorem amounts_rowsRead (s : Session σ Stmt) (c : BindingCall Val Value) :
    ((reportsOf D S s c).map (amount "d1.rows_read")).sum = rowsOf D D.rowsRead s c :=
  amounts_rows (fun info => by simp [amount]) (by decide) (by decide) (by decide) s c

theorem amounts_rowsWritten (s : Session σ Stmt) (c : BindingCall Val Value) :
    ((reportsOf D S s c).map (amount "d1.rows_written")).sum = rowsOf D D.rowsWritten s c :=
  amounts_rows (fun info => by simp [amount]) (by decide) (by decide) (by decide) s c

theorem amounts_neurons (s : Session σ Stmt) (c : BindingCall Val Value) :
    ((reportsOf D S s c).map (amount "ai.neurons")).sum = neuronsUsed S s c := by
  cases c with
  | db call =>
    refine sum_amounts_of_ne fun report hreport => ?_
    rcases dimension_db hreport with h | h <;> rw [h] <;> decide
  | r2 operation args =>
    refine sum_amounts_of_ne fun report hreport => ?_
    rcases dimension_r2 hreport with h | h <;> rw [h] <;> decide
  | ai model input =>
    rw [reportsOf, neuronsUsed, answered]
    cases (S.ai model input s.world).1 with
    | error e => rfl
    | ok result =>
      dsimp only
      split_ifs
      · rw [List.map_singleton, List.sum_singleton, amount, if_pos rfl]
        rfl
      · rfl
  | vectorize method args =>
    refine sum_amounts_of_ne fun report hreport => ?_
    rw [dimension_vectorize hreport]
    decide

theorem amounts_queries (s : Session σ Stmt) (c : BindingCall Val Value) :
    ((reportsOf D S s c).map (amount "vectorize.queried_dims")).sum =
      if isQuery S s c then INDEX_DIMENSIONS else 0 := by
  cases c with
  | db call =>
    refine sum_amounts_of_ne fun report hreport => ?_
    rcases dimension_db hreport with h | h <;> rw [h] <;> decide
  | r2 operation args =>
    refine sum_amounts_of_ne fun report hreport => ?_
    rcases dimension_r2 hreport with h | h <;> rw [h] <;> decide
  | ai model input =>
    refine sum_amounts_of_ne fun report hreport => ?_
    rw [dimension_ai hreport]
    decide
  | vectorize method args =>
    rw [reportsOf, isQuery, answered]
    cases (S.vectorize method args s.world).1 with
    | error e => simp [Except.isOk, Except.toBool]
    | ok value =>
      by_cases hquery : method = "query"
      · simp [hquery, Except.isOk, Except.toBool, amount, INDEX_DIMENSIONS]
      · simp [hquery]

theorem sum_queries (ps : List (Session σ Stmt × BindingCall Val Value)) :
    (ps.map fun p => if isQuery S p.1 p.2 then INDEX_DIMENSIONS else 0).sum =
      (ps.countP fun p => isQuery S p.1 p.2) * INDEX_DIMENSIONS := by
  induction ps with
  | nil => simp
  | cons p ps ih =>
    rw [List.map_cons, List.sum_cons, ih, List.countP_cons]
    split_ifs
    · rw [Nat.cast_add, Nat.cast_one]
      ring
    · rw [zero_add, add_zero]

/-- A call has reported nothing positive exactly where it has used nothing. -/
theorem unused_iff (s : Session σ Stmt) (c : BindingCall Val Value) :
    (∀ report ∈ reportsOf D S s c, report.2.getD 0 ≤ 0) ↔ Unused D S s c := by
  cases c with
  | db call =>
    rw [reportsOf, dbReports, Unused]
    simp only [List.mem_flatMap, metaReports, List.mem_cons, List.not_mem_nil, or_false]
    constructor
    · intro h result hresult
      exact ⟨h _ ⟨result, hresult, .inl rfl⟩, h _ ⟨result, hresult, .inr rfl⟩⟩
    · rintro h report ⟨result, hresult, rfl | rfl⟩
      · exact (h result hresult).1
      · exact (h result hresult).2
  | r2 operation args =>
    rw [reportsOf, Unused, answered]
    cases (S.r2 operation args s.world).1 with
    | error e => simp [Except.isOk, Except.toBool]
    | ok value => cases operation <;> simp [R2_CLASS_BY_OPERATION, Except.isOk, Except.toBool]
  | ai model input =>
    rw [reportsOf, Unused, neuronsUsed, answered]
    cases (S.ai model input s.world).1 with
    | error e => simp
    | ok result =>
      dsimp only
      split_ifs
      · simp
      · simp
  | vectorize method args =>
    rw [reportsOf, Unused, isQuery, answered]
    cases (S.vectorize method args s.world).1 with
    | error e => simp [Except.isOk, Except.toBool]
    | ok value =>
      by_cases hquery : method = "query"
      · simp [hquery, Except.isOk, Except.toBool, INDEX_DIMENSIONS]
      · simp [hquery]

/-- What a charge has to be for the calls of a request. -/
structure Charged (D : Driver σ Stmt Val Row Meta Raw Err) (S : Services σ Value Err)
    (ps : List (Session σ Stmt × BindingCall Val Value)) (charge : Charge ℚ) : Prop where
  d1_rows_read : charge.d1_rows_read = (ps.map fun p => rowsOf D D.rowsRead p.1 p.2).sum
  d1_rows_written : charge.d1_rows_written = (ps.map fun p => rowsOf D D.rowsWritten p.1 p.2).sum
  ai_neurons : charge.ai_neurons = (ps.map fun p => neuronsUsed S p.1 p.2).sum
  vectorize_queries : charge.vectorize_queries = ps.countP fun p => isQuery S p.1 p.2

end Request

end QuantproCollector.QuotaResource
