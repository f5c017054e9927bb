import QuantproCollector.Lib.SqlText
import QuantproCollector.QuotaReconcile.Reconcile

/-!
# The statement of the write

The text that `build_upsert` composes for its rows, with the values that are bound to its parameters. Only
the key and the two numbers of a row are bound; its other values stand in the text as literals.

`execute_upsert`: read as SQL, the statement is the upsert of the computed rows, for all texts and numbers.
-/

namespace QuantproCollector.QuotaReconcile

open SqlText

/-! ## The text -/

/-- A quote of the value is doubled. -/
def sql_literal (value : String) : List Char :=
  quote value.toList

def sourceOf (now : String) : String :=
  "auto-reconcile " ++ now ++ " (official Cloudflare meters; monotonic fail-closed)"

def sourceVersionOf (now : String) : String :=
  "auto_reconcile_quota " ++ now

/-- The values before `used`, after the key. -/
def valuesPrefix (periodKey : String) : List Char :=
  sql_literal periodKey ++ ", 'VERIFIED'".toList

/-- The values after `unobserved_upper_bound`. -/
def valuesSuffix (now : String) : List Char :=
  sql_literal (sourceOf now) ++ ", ".toList ++ sql_literal (sourceVersionOf now) ++ ", ".toList ++
    sql_literal now ++ ", ".toList ++ sql_literal now ++ ", ".toList ++ sql_literal now

def placeholder (periodKey now : String) : List Char :=
  "(?, ".toList ++ valuesPrefix periodKey ++ ", ?, ?, ".toList ++ valuesSuffix now ++ ")".toList

def insertText : List Char :=
  "INSERT INTO quota_period_baselines ".toList ++
    "(dimension_key, period_key, state, used, unobserved_upper_bound, source, ".toList ++
    " source_version, as_of, coverage_end, recorded_at) VALUES ".toList

def conflictText : List Char :=
  " ON CONFLICT(dimension_key, period_key) DO UPDATE SET ".toList ++
    "state=excluded.state, used=excluded.used, ".toList ++
    "unobserved_upper_bound=excluded.unobserved_upper_bound, ".toList ++
    "source=excluded.source, source_version=excluded.source_version, ".toList ++
    "as_of=excluded.as_of, coverage_end=excluded.coverage_end, ".toList ++
    "recorded_at=excluded.recorded_at".toList

def upsertSql (periodKey now : String) (computed : List Computed) : List Char :=
  insertText ++ ", ".toList.intercalate (computed.map fun _ => placeholder periodKey now) ++ conflictText

def upsertValues (computed : List Computed) : List Value :=
  computed.flatMap fun c =>
    [.text c.dimension_key.toList, .int c.used, .int c.unobserved_upper_bound]

/-! ## The effect -/

def KEYS : List String := ["dimension_key", "period_key"]

def DATA : List String :=
  ["state", "used", "unobserved_upper_bound", "source", "source_version", "as_of", "coverage_end",
    "recorded_at"]

/-- `column=excluded.column` for each column. -/
def assignments : List String → List Token
  | [] => []
  | [column] => [.word column.toList, .sign '=', .word ("excluded." ++ column).toList]
  | column :: columns =>
    .word column.toList :: .sign '=' :: .word ("excluded." ++ column).toList :: .sign ',' ::
      assignments columns

/-- On a conflict of the keys every other column is overwritten. -/
def overwriteClause : List Token :=
  [.word "ON".toList, .word "CONFLICT".toList, .sign '(', .word "dimension_key".toList, .sign ',',
    .word "period_key".toList, .sign ')', .word "DO".toList, .word "UPDATE".toList,
    .word "SET".toList] ++ assignments DATA

def textAt (record : List (List Char × Value)) (column : String) : Option String :=
  match record.lookup column.toList with
  | some (.text t) => some (String.ofList t)
  | _ => none

def intAt (record : List (List Char × Value)) (column : String) : Option ℤ :=
  match record.lookup column.toList with
  | some (.int n) => some n
  | _ => none

/-- The row of the table that a record is, by the names of its columns. -/
def baselineOf (record : List (List Char × Value)) : Option BaselineRow := do
  let dimension_key ← textAt record "dimension_key"
  let period_key ← textAt record "period_key"
  let state ← textAt record "state"
  let used ← intAt record "used"
  let unobserved_upper_bound ← intAt record "unobserved_upper_bound"
  let source ← textAt record "source"
  let source_version ← textAt record "source_version"
  let as_of ← textAt record "as_of"
  let coverage_end ← textAt record "coverage_end"
  let recorded_at ← textAt record "recorded_at"
  return ⟨dimension_key, period_key, state, used, unobserved_upper_bound, source, source_version, as_of,
    coverage_end, recorded_at⟩

/-- The table after a statement, where it is an upsert of rows into the table. -/
def execute (w : World) (text : List Char) (bound : List Value) : Option World := do
  let statement ← readStatement text bound
  if statement.table = "quota_period_baselines".toList ∧ statement.clause = overwriteClause then
    let rows ← statement.rows.mapM fun values => baselineOf (statement.columns.zip values)
    return upsertRows w rows
  else none

/-! ## The statement is read -/

/-- The values of a row as they are written. -/
def rowCells (periodKey now : String) (c : Computed) : Row where
  cell := .bound (.text c.dimension_key.toList)
  cells := [.literal periodKey.toList, .literal "VERIFIED".toList, .bound (.int c.used),
    .bound (.int c.unobserved_upper_bound), .literal (sourceOf now).toList,
    .literal (sourceVersionOf now).toList, .literal now.toList, .literal now.toList, .literal now.toList]

theorem chars_rowCells (periodKey now : String) (c : Computed) :
    (rowCells periodKey now c).chars = placeholder periodKey now := by
  have hverified : ", 'VERIFIED'".toList = ", ".toList ++ quote "VERIFIED".toList := by decide
  have hopen : "(?, ".toList = ['(', '?'] ++ ", ".toList := by decide
  have hbound : ", ?, ?, ".toList = ", ".toList ++ ['?'] ++ ", ".toList ++ ['?'] ++ ", ".toList := by decide
  have hclose : ")".toList = [')'] := by decide
  delta placeholder valuesPrefix valuesSuffix
  rw [hverified, hopen, hbound, hclose]
  simp only [Row.chars, rowCells, cellChars, Cell.chars, sql_literal, List.append_assoc, List.cons_append,
    List.nil_append]

theorem rowsChars_eq (periodKey now : String) (c : Computed) (cs : List Computed) :
    rowsChars (rowCells periodKey now c) (cs.map (rowCells periodKey now)) =
      ", ".toList.intercalate ((c :: cs).map fun _ => placeholder periodKey now) := by
  induction cs generalizing c with
  | nil => simp [rowsChars, chars_rowCells, List.intercalate]
  | cons next cs ih =>
    rw [List.map_cons, rowsChars, ih, chars_rowCells]
    simp [List.intercalate]

/-- The names of a list of columns, up to its end. -/
def nameTokens : List String → List Token
  | [] => []
  | [column] => [.word column.toList, .sign ')']
  | column :: columns => .word column.toList :: .sign ',' :: nameTokens columns

/-- The columns in the order of the text. -/
def COLUMNS : List String := KEYS ++ DATA

def insertTokens : List Token :=
  [.word "INSERT".toList, .word "INTO".toList, .word "quota_period_baselines".toList, .sign '('] ++
    nameTokens COLUMNS ++ [.word "VALUES".toList]

theorem scan_insertText : scan .gap insertText = (insertTokens, .gap) := by
  decide +kernel

theorem scan_conflictText :
    ∃ tail last, scan .gap conflictText = (tail, .word last) ∧
      tail ++ [.word last] = overwriteClause := by
  refine ⟨overwriteClause.dropLast, "excluded.recorded_at".toList, ?_, ?_⟩
  · decide +kernel
  · decide +kernel

theorem upsertValues_eq (periodKey now : String) (computed : List Computed) :
    (computed.map (rowCells periodKey now)).flatMap Row.bound = upsertValues computed := by
  rw [List.flatMap_map]
  rfl

theorem lookup_of_mem {record : List (List Char × Value)} (hnodup : (record.map Prod.fst).Nodup)
    {column : List Char} {v : Value} (h : (column, v) ∈ record) : record.lookup column = some v := by
  induction record with
  | nil => cases h
  | cons field record ih =>
    obtain ⟨name, value⟩ := field
    rw [List.map_cons, List.nodup_cons] at hnodup
    rcases List.mem_cons.1 h with heq | hmem
    · obtain ⟨rfl, rfl⟩ := Prod.mk.inj heq
      exact List.lookup_cons_self
    · have hcolumn : column ∈ record.map Prod.fst := List.mem_map_of_mem (f := Prod.fst) hmem
      have hne : column ≠ name := fun hname => hnodup.1 (hname ▸ hcolumn)
      rw [List.lookup_cons, beq_eq_false_iff_ne.2 hne]
      exact ih hnodup.2 hmem

theorem textAt_of_mem {record : List (List Char × Value)} (hnodup : (record.map Prod.fst).Nodup)
    {column text : String} (h : (column.toList, .text text.toList) ∈ record) :
    textAt record column = some text := by
  rw [textAt, lookup_of_mem hnodup h]
  exact congrArg some String.ofList_toList

theorem intAt_of_mem {record : List (List Char × Value)} (hnodup : (record.map Prod.fst).Nodup)
    {column : String} {n : ℤ} (h : (column.toList, .int n) ∈ record) : intAt record column = some n := by
  rw [intAt, lookup_of_mem hnodup h]

theorem nodup_columns : (COLUMNS.map String.toList).Nodup := by
  decide +kernel

/-- A row as a record. -/
def recordOf (periodKey now : String) (c : Computed) : List (List Char × Value) :=
  [("dimension_key".toList, .text c.dimension_key.toList), ("period_key".toList, .text periodKey.toList),
    ("state".toList, .text "VERIFIED".toList), ("used".toList, .int c.used),
    ("unobserved_upper_bound".toList, .int c.unobserved_upper_bound),
    ("source".toList, .text (sourceOf now).toList),
    ("source_version".toList, .text (sourceVersionOf now).toList), ("as_of".toList, .text now.toList),
    ("coverage_end".toList, .text now.toList), ("recorded_at".toList, .text now.toList)]

theorem mem_recordOf {periodKey now : String} {c : Computed} (i : ℕ) (h : i < 10) :
    (recordOf periodKey now c).get ⟨i, h⟩ ∈ recordOf periodKey now c :=
  List.get_mem _ _

/-- A row that is read is the row that was computed, each value under its column. -/
theorem baselineOf_record (periodKey now : String) (c : Computed) :
    baselineOf (recordOf periodKey now c) = some (baselineRow periodKey now c) := by
  have hnodup : ((recordOf periodKey now c).map Prod.fst).Nodup := nodup_columns
  have hkey : textAt (recordOf periodKey now c) "dimension_key" = some c.dimension_key :=
    textAt_of_mem hnodup (mem_recordOf 0 (by omega))
  have hperiod : textAt (recordOf periodKey now c) "period_key" = some periodKey :=
    textAt_of_mem hnodup (mem_recordOf 1 (by omega))
  have hstate : textAt (recordOf periodKey now c) "state" = some "VERIFIED" :=
    textAt_of_mem hnodup (mem_recordOf 2 (by omega))
  have hused : intAt (recordOf periodKey now c) "used" = some c.used :=
    intAt_of_mem hnodup (mem_recordOf 3 (by omega))
  have hbound : intAt (recordOf periodKey now c) "unobserved_upper_bound" = some c.unobserved_upper_bound :=
    intAt_of_mem hnodup (mem_recordOf 4 (by omega))
  have hsource : textAt (recordOf periodKey now c) "source" = some (sourceOf now) :=
    textAt_of_mem hnodup (mem_recordOf 5 (by omega))
  have hversion : textAt (recordOf periodKey now c) "source_version" = some (sourceVersionOf now) :=
    textAt_of_mem hnodup (mem_recordOf 6 (by omega))
  have hasOf : textAt (recordOf periodKey now c) "as_of" = some now :=
    textAt_of_mem hnodup (mem_recordOf 7 (by omega))
  have hend : textAt (recordOf periodKey now c) "coverage_end" = some now :=
    textAt_of_mem hnodup (mem_recordOf 8 (by omega))
  have hrecorded : textAt (recordOf periodKey now c) "recorded_at" = some now :=
    textAt_of_mem hnodup (mem_recordOf 9 (by omega))
  delta baselineOf
  rw [hkey, hperiod, hstate, hused, hbound, hsource, hversion, hasOf, hend, hrecorded]
  rfl

theorem mapM_baselineOf (periodKey now : String) (cs : List Computed) :
    cs.mapM (fun c => baselineOf ((COLUMNS.map String.toList).zip (rowCells periodKey now c).values)) =
      some (cs.map (baselineRow periodKey now)) := by
  induction cs with
  | nil => rfl
  | cons c cs ih =>
    have hrow : baselineOf ((COLUMNS.map String.toList).zip (rowCells periodKey now c).values) =
        some (baselineRow periodKey now c) := baselineOf_record periodKey now c
    rw [List.mapM_cons, hrow, ih]
    rfl

/-- The front of the statement is read as its table and its columns. -/
theorem readInsert_insertTokens {bound : List Value} {rest clause : List Token} {rows : List (List Value)}
    (h : readRows .row bound rest = some (rows, clause, [])) :
    readInsert bound (insertTokens ++ rest) =
      some ⟨"quota_period_baselines".toList, COLUMNS.map String.toList, rows, clause⟩ := by
  have hfront : readInsert bound (insertTokens ++ rest) =
      insertOf "quota_period_baselines".toList (COLUMNS.map String.toList)
        (readRows .row bound rest) := rfl
  rw [hfront, h, insertOf]

/-- The write of a run as a statement is its write as an operation: read as SQL, with the bound values at its
parameters, the text upserts the computed rows, whatever their texts and numbers are. -/
theorem execute_upsert (w : World) (periodKey now : String) (c : Computed) (cs : List Computed) :
    execute w (upsertSql periodKey now (c :: cs)) (upsertValues (c :: cs)) =
      some (upsertRows w ((c :: cs).map (baselineRow periodKey now))) := by
  obtain ⟨tail, last, htail, hclause⟩ := scan_conflictText
  have hread := readStatement_eq (rowCells periodKey now c) (cs.map (rowCells periodKey now))
    scan_insertText htail rfl
  have hend : readRows .done [] overwriteClause = some ([], overwriteClause, []) := rfl
  have hrows := readRows_rows (rowCells periodKey now c) (cs.map (rowCells periodKey now)) hend
  rw [rowsChars_eq, hclause, ← List.map_cons, upsertValues_eq] at hread
  rw [← List.map_cons, upsertValues_eq] at hrows
  have hinsert := readInsert_insertTokens hrows
  have hmap : (((c :: cs).map (rowCells periodKey now)).map Row.values).mapM
      (fun values => baselineOf ((COLUMNS.map String.toList).zip values)) =
        some ((c :: cs).map (baselineRow periodKey now)) := by
    rw [List.map_map, List.mapM_map]
    exact mapM_baselineOf periodKey now (c :: cs)
  rw [execute, upsertSql, hread, hinsert, Option.bind_eq_bind, Option.bind_some, if_pos ⟨rfl, rfl⟩]
  dsimp only
  rw [hmap]
  rfl

end QuantproCollector.QuotaReconcile
