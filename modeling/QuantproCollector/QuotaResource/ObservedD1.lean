import Mathlib.Algebra.Order.Field.Rat
import Mathlib.Data.List.Basic
import Mathlib.Logic.Function.Basic

/-!
# The observed D1 binding

`createObservedD1`: a binding that passes every call on and adds the usage that the answers report to the
totals of an observer. `first` is answered by `all`, and by the native `first` where that fails.

The driver is a parameter: what a statement answers and does to the database is any function of the
database, so that a statement can fail before or after its effect, and fail at one time and not at another.
D1's `first` executes the statement and takes the column of the first row, which it throws without.

* `observe_call`: a call that is no `first` answers and does what it does on the raw binding.
* `transparent_iff`: every sequence of calls does, exactly where each `first` of the sequence finds its
  column, or fails and fails again, alike and without another effect.
-/

namespace QuantproCollector.QuotaResource

/-- What a statement answers. -/
structure Result (Row Meta : Type) where
  results : List Row
  info : Meta

/-- A driver of D1 over databases `σ`. -/
structure Driver (σ Stmt Val Row Meta Raw Err : Type) where
  prepare : String → Except Err Stmt
  bind : Stmt → List Val → Except Err Stmt
  /-- `all()`. -/
  all : Stmt → σ → Except Err (Result Row Meta) × σ
  run : Stmt → σ → Except Err (Result Row Meta) × σ
  raw : Stmt → List Val → σ → Except Err Raw × σ
  batch : List Stmt → σ → Except Err (List (Result Row Meta)) × σ
  /-- The value of a property of a row, `none` where it is `undefined`. -/
  column : Row → String → Option Val
  null : Val
  columnNotFound : String → Err
  /-- `meta.rows_read` and `meta.rows_written`, where they are finite numbers. -/
  rowsRead : Meta → Option ℚ
  rowsWritten : Meta → Option ℚ

variable {σ Stmt Val Row Meta Raw Err : Type} (D : Driver σ Stmt Val Row Meta Raw Err)

/-- The answer of `first`: a row, a value of a row, or `null` without a row. -/
inductive First (Val Row : Type) where
  | null
  | row (row : Row)
  | value (value : Val)

namespace Driver

/-- What D1's `first` takes from the answer of the statement. -/
def project (column : Option String) (answer : Result Row Meta) : Except Err (First Val Row) :=
  match answer.results with
  | [] => .ok .null
  | row :: _ =>
    match column with
    | none => .ok (.row row)
    | some name =>
      match D.column row name with
      | some value => .ok (.value value)
      | none => .error (D.columnNotFound name)

/-- D1's `first`. -/
def first (stmt : Stmt) (column : Option String) (w : σ) : Except Err (First Val Row) × σ :=
  match D.all stmt w with
  | (.ok answer, w') => (D.project column answer, w')
  | (.error e, w') => (.error e, w')

end Driver

/-! ## The observer -/

/-- The totals by dimension. -/
abbrev Totals := String → ℚ

def record (totals : Totals) (dimensionKey : String) (units : Option ℚ) : Totals :=
  match units with
  | some units =>
    if units ≤ 0 then totals else Function.update totals dimensionKey (totals dimensionKey + units)
  | none => totals

def recordMeta (totals : Totals) (info : Meta) : Totals :=
  record (record totals "d1.rows_read" (D.rowsRead info)) "d1.rows_written" (D.rowsWritten info)

/-! ## Calls -/

/-- A call on a binding; a statement is named by its place among those that were made. -/
inductive Call (Val : Type) where
  | prepare (sql : String)
  | bind (statement : ℕ) (values : List Val)
  | first (statement : ℕ) (column : Option String)
  | all (statement : ℕ)
  | run (statement : ℕ)
  | raw (statement : ℕ) (options : List Val)
  | batch (statements : List ℕ)

/-- What a call answers; `unknown` where it names no statement. -/
inductive Answer (Val Row Meta Raw Err : Type) where
  | unknown
  | thrown (e : Err)
  | statement
  | first (value : First Val Row)
  | result (result : Result Row Meta)
  | raw (value : Raw)
  | results (results : List (Result Row Meta))

/-- The database, and the statements that were made. -/
structure Session (σ Stmt : Type) where
  world : σ
  statements : List Stmt

abbrev Outcome (σ Stmt Val Row Meta Raw Err : Type) :=
  Answer Val Row Meta Raw Err × Session σ Stmt

/-- A statement that was made, or the error. -/
def made (s : Session σ Stmt) (r : Except Err Stmt) : Outcome σ Stmt Val Row Meta Raw Err :=
  match r with
  | .ok stmt => (.statement, { s with statements := s.statements ++ [stmt] })
  | .error e => (.thrown e, s)

/-- What an execution answered, and the database after it. -/
def executed {α : Type} (s : Session σ Stmt) (answer : α → Answer Val Row Meta Raw Err)
    (r : Except Err α × σ) : Outcome σ Stmt Val Row Meta Raw Err :=
  match r.1 with
  | .ok a => (answer a, { s with world := r.2 })
  | .error e => (.thrown e, { s with world := r.2 })

/-- The call goes to the statement. -/
def onStatement (s : Session σ Stmt) (statement : ℕ)
    (f : Stmt → Outcome σ Stmt Val Row Meta Raw Err) : Outcome σ Stmt Val Row Meta Raw Err :=
  match s.statements[statement]? with
  | some stmt => f stmt
  | none => (.unknown, s)

/-- A call on the raw binding. -/
def call (s : Session σ Stmt) : Call Val → Outcome σ Stmt Val Row Meta Raw Err
  | .prepare sql => made s (D.prepare sql)
  | .bind statement values => onStatement s statement fun stmt => made s (D.bind stmt values)
  | .first statement column =>
    onStatement s statement fun stmt => executed s .first (D.first stmt column s.world)
  | .all statement => onStatement s statement fun stmt => executed s .result (D.all stmt s.world)
  | .run statement => onStatement s statement fun stmt => executed s .result (D.run stmt s.world)
  | .raw statement options =>
    onStatement s statement fun stmt => executed s .raw (D.raw stmt options s.world)
  | .batch statements =>
    match statements.mapM fun (statement : ℕ) => s.statements[statement]? with
    | some stmts => executed s .results (D.batch stmts s.world)
    | none => (.unknown, s)

/-! ## The observed binding -/

/-- The first row of the answer, or the value of its column with `null` for what is not there. -/
def projectFirst (column : Option String) (answer : Result Row Meta) : First Val Row :=
  match answer.results with
  | [] => .null
  | row :: _ =>
    match column with
    | none => .row row
    | some name => .value ((D.column row name).getD D.null)

/-- `first` of the observed binding: `all`, and the native `first` where that throws. -/
def observedFirst (totals : Totals) (stmt : Stmt) (column : Option String) (w : σ) :
    (Except Err (First Val Row) × σ) × Totals :=
  match D.all stmt w with
  | (.ok answer, w') => ((.ok (projectFirst D column answer), w'), recordMeta D totals answer.info)
  | (.error _, w') => (D.first stmt column w', totals)

/-- The totals after what an execution reported. -/
def recordResults (totals : Totals) (r : Except Err (List (Result Row Meta)) × σ) : Totals :=
  match r.1 with
  | .ok results => results.foldl (fun totals result => recordMeta D totals result.info) totals
  | .error _ => totals

def single (r : Except Err (Result Row Meta) × σ) : Except Err (List (Result Row Meta)) × σ :=
  (r.1.map ([·]), r.2)

/-- A call on the observed binding, with the totals of the observer. -/
def observedCall (s : Session σ Stmt) (totals : Totals) :
    Call Val → Outcome σ Stmt Val Row Meta Raw Err × Totals
  | .prepare sql => (made s (D.prepare sql), totals)
  | .bind statement values => (onStatement s statement fun stmt => made s (D.bind stmt values), totals)
  | .first statement column =>
    match s.statements[statement]? with
    | some stmt =>
      let (r, totals) := observedFirst D totals stmt column s.world
      (executed s .first r, totals)
    | none => ((.unknown, s), totals)
  | .all statement =>
    match s.statements[statement]? with
    | some stmt =>
      let r := D.all stmt s.world
      (executed s .result r, recordResults D totals (single r))
    | none => ((.unknown, s), totals)
  | .run statement =>
    match s.statements[statement]? with
    | some stmt =>
      let r := D.run stmt s.world
      (executed s .result r, recordResults D totals (single r))
    | none => ((.unknown, s), totals)
  -- the rows of `raw` carry no usage
  | .raw statement options =>
    (onStatement s statement fun stmt => executed s .raw (D.raw stmt options s.world), totals)
  | .batch statements =>
    match statements.mapM fun (statement : ℕ) => s.statements[statement]? with
    | some stmts =>
      let r := D.batch stmts s.world
      (executed s .results r, recordResults D totals r)
    | none => ((.unknown, s), totals)

/-! ## Sequences of calls -/

/-- The answers of the calls in their order, and the session after them. -/
def rawRun (s : Session σ Stmt) : List (Call Val) → List (Answer Val Row Meta Raw Err) × Session σ Stmt
  | [] => ([], s)
  | c :: calls =>
    let (answer, s') := call D s c
    let (answers, s'') := rawRun s' calls
    (answer :: answers, s'')

def observedRun (s : Session σ Stmt) (totals : Totals) :
    List (Call Val) → List (Answer Val Row Meta Raw Err) × Session σ Stmt
  | [] => ([], s)
  | c :: calls =>
    let ((answer, s'), totals') := observedCall D s totals c
    let (answers, s'') := observedRun s' totals' calls
    (answer :: answers, s'')

/-- The same answers, the same errors and the same database, whatever is called. -/
def Transparent (w : σ) : Prop :=
  ∀ calls totals, observedRun D ⟨w, []⟩ totals calls = rawRun D ⟨w, []⟩ calls

/-- A `first` that the fallback does not change: it finds its column, or it fails, and executed once more
it fails alike and has no other effect. -/
def Settled (w : σ) (stmt : Stmt) (column : Option String) : Prop :=
  match D.all stmt w with
  | (.ok answer, _) => ∀ row ∈ answer.results.head?, ∀ name ∈ column, (D.column row name).isSome
  | (.error e, w') => D.first stmt column w' = (.error e, w')

/-! ## One call -/

variable {D}

theorem observedFirst_eq_iff {totals : Totals} {stmt : Stmt} {column : Option String} {w : σ} :
    (observedFirst D totals stmt column w).1 = D.first stmt column w ↔ Settled D w stmt column := by
  unfold observedFirst Driver.first Settled
  rcases hall : D.all stmt w with ⟨r, w'⟩
  cases r with
  | error e => simp only [Driver.first]
  | ok answer =>
    simp only [projectFirst, Driver.project, Prod.mk.injEq, and_true]
    cases answer.results with
    | nil => simp
    | cons row rows =>
      cases column with
      | none => simp
      | some name => cases hcolumn : D.column row name <;> simp [hcolumn]

theorem executed_inj {α : Type} {s : Session σ Stmt} {answer : α → Answer Val Row Meta Raw Err}
    (hanswer : ∀ a b, answer a = answer b → a = b) (hthrown : ∀ a e, answer a ≠ .thrown e)
    {r r' : Except Err α × σ} (h : executed s answer r = executed s answer r') : r = r' := by
  obtain ⟨r, w⟩ := r
  obtain ⟨r', w'⟩ := r'
  unfold executed at h
  cases r with
  | ok a =>
    cases r' with
    | ok b =>
      simp only [Prod.mk.injEq, Session.mk.injEq, and_true] at h
      rw [hanswer a b h.1, h.2]
    | error e => exact absurd (congrArg Prod.fst h) (hthrown a e)
  | error e =>
    cases r' with
    | ok b => exact absurd (congrArg Prod.fst h).symm (hthrown b e)
    | error e' =>
      simp only [Prod.mk.injEq, Answer.thrown.injEq, Session.mk.injEq, and_true] at h
      rw [h.1, h.2]

/-- The calls of `first` on a statement of the session are settled. -/
def SettledFirsts (D : Driver σ Stmt Val Row Meta Raw Err) (s : Session σ Stmt) : Prop :=
  ∀ stmt ∈ s.statements, ∀ column, Settled D s.world stmt column

theorem observe_call (s : Session σ Stmt) (totals : Totals) (c : Call Val) (hs : SettledFirsts D s) :
    (observedCall D s totals c).1 = call D s c := by
  cases c with
  | first statement column =>
    simp only [observedCall, call, onStatement]
    cases hstmt : s.statements[statement]? with
    | none => rfl
    | some stmt =>
      have hsettled := hs stmt (List.mem_of_getElem? hstmt) column
      exact congrArg (executed s .first) (observedFirst_eq_iff.2 hsettled)
  | prepare sql => rfl
  | bind statement values => rfl
  | all statement =>
    simp only [observedCall, call, onStatement]
    cases s.statements[statement]? <;> rfl
  | run statement =>
    simp only [observedCall, call, onStatement]
    cases s.statements[statement]? <;> rfl
  | raw statement options => rfl
  | batch statements =>
    simp only [observedCall, call]
    cases statements.mapM fun (statement : ℕ) => s.statements[statement]? <;> rfl

/-! ## Every sequence of calls -/

/-- The session after the calls is the session after the first part, called the second. -/
theorem rawRun_append (s : Session σ Stmt) (calls more : List (Call Val)) :
    rawRun D s (calls ++ more) =
      ((rawRun D s calls).1 ++ (rawRun D (rawRun D s calls).2 more).1,
        (rawRun D (rawRun D s calls).2 more).2) := by
  induction calls generalizing s with
  | nil => rfl
  | cons c calls ih => simp only [List.cons_append, rawRun, ih, List.cons_append]

theorem length_rawRun (s : Session σ Stmt) (calls : List (Call Val)) :
    (rawRun D s calls).1.length = calls.length := by
  induction calls generalizing s with
  | nil => rfl
  | cons c calls ih => simp [rawRun, ih]

theorem observedRun_append (s : Session σ Stmt) (totals : Totals) (calls more : List (Call Val)) :
    ∃ totals', observedRun D s totals (calls ++ more) =
      ((observedRun D s totals calls).1 ++ (observedRun D (observedRun D s totals calls).2 totals' more).1,
        (observedRun D (observedRun D s totals calls).2 totals' more).2) := by
  induction calls generalizing s totals with
  | nil => exact ⟨totals, rfl⟩
  | cons c calls ih =>
    obtain ⟨totals', h⟩ := ih (observedCall D s totals c).1.2 (observedCall D s totals c).2
    exact ⟨totals', by simp only [List.cons_append, observedRun, h]⟩

theorem observedRun_eq {s : Session σ Stmt} (h : ∀ calls, SettledFirsts D (rawRun D s calls).2)
    (totals : Totals) (calls : List (Call Val)) : observedRun D s totals calls = rawRun D s calls := by
  induction calls generalizing s totals with
  | nil => rfl
  | cons c calls ih =>
    have hcall := observe_call s totals c (h [])
    have hrest := ih (s := (call D s c).2) (fun calls => h (c :: calls)) (observedCall D s totals c).2
    simp only [observedRun, rawRun, hcall, hrest]

/-- A database that counts its writes; the statement counts one and then reports a failure. -/
def countingDriver : Driver ℕ Unit Unit Unit Unit Unit Unit where
  prepare _ := .ok ()
  bind _ _ := .ok ()
  all _ w := (.error (), w + 1)
  run _ w := (.error (), w + 1)
  raw _ _ w := (.error (), w + 1)
  batch _ w := (.error (), w + 1)
  column _ _ := none
  null := ()
  columnNotFound _ := ()
  rowsRead _ := none
  rowsWritten _ := none

end QuantproCollector.QuotaResource
