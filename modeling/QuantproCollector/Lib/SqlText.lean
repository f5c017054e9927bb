import Mathlib.Data.List.Basic

/-!
# The text of a statement

A statement of SQL is read into words, texts between quotes, parameters and signs, one character after
another (`scan`), and an `INSERT … VALUES …` of them into its table, its columns and its rows
(`readInsert`), where each parameter takes the next of the bound values. There are no comments and no quoted
names.

* `scan_quote`: a quoted text is read as that text, whatever its characters.
* `readRows_rows`: rows that are written as cells are read as the values of the cells, those that are bound
  taking the bound values in their order.
-/

namespace SqlText

inductive Token where
  | word (w : List Char)
  | text (t : List Char)
  | param
  | sign (c : Char)
deriving DecidableEq

/-- Where the scan stands: `closing` is after a quote that ends the text unless another one follows. -/
inductive Mode where
  | gap
  | word (w : List Char)
  | literal (t : List Char)
  | closing (t : List Char)
deriving DecidableEq

def wordChar (c : Char) : Bool :=
  c.isAlphanum || c == '_' || c == '.'

/-- A character outside of words and texts. -/
def start (c : Char) : List Token × Mode :=
  if c = ' ' then ([], .gap)
  else if c = '\'' then ([], .literal [])
  else if c = '?' then ([.param], .gap)
  else if wordChar c then ([], .word [c])
  else ([.sign c], .gap)

def advance (c : Char) : Mode → List Token × Mode
  | .gap => start c
  | .word w => if wordChar c then ([], .word (w ++ [c])) else (.word w :: (start c).1, (start c).2)
  | .literal t => if c = '\'' then ([], .closing t) else ([], .literal (t ++ [c]))
  | .closing t =>
    if c = '\'' then ([], .literal (t ++ ['\''])) else (.text t :: (start c).1, (start c).2)

/-- The tokens of the characters, and where the scan stands after them. -/
def scan : Mode → List Char → List Token × Mode
  | mode, [] => ([], mode)
  | mode, c :: text =>
    let (now, mode) := advance c mode
    let (later, mode) := scan mode text
    (now ++ later, mode)

/-- What is left at the end; an open text is no statement. -/
def finish : Mode → Option (List Token)
  | .gap => some []
  | .word w => some [.word w]
  | .literal _ => none
  | .closing t => some [.text t]

def tokens (text : List Char) : Option (List Token) :=
  (finish (scan .gap text).2).map fun last => (scan .gap text).1 ++ last

/-- A text as a literal: its quotes are doubled. -/
def quote (t : List Char) : List Char :=
  '\'' :: t.flatMap (fun c => if c = '\'' then ['\'', '\''] else [c]) ++ ['\'']

theorem scan_cons (mode : Mode) (c : Char) (text : List Char) :
    scan mode (c :: text) =
      ((advance c mode).1 ++ (scan (advance c mode).2 text).1, (scan (advance c mode).2 text).2) := rfl

theorem scan_append (mode : Mode) (a b : List Char) :
    scan mode (a ++ b) =
      ((scan mode a).1 ++ (scan (scan mode a).2 b).1, (scan (scan mode a).2 b).2) := by
  induction a generalizing mode with
  | nil => rfl
  | cons c a ih => rw [List.cons_append, scan_cons, ih, scan_cons, List.append_assoc]

theorem scan_body (s t : List Char) :
    scan (.literal s) (t.flatMap fun c => if c = '\'' then ['\'', '\''] else [c]) =
      ([], .literal (s ++ t)) := by
  induction t generalizing s with
  | nil => simp [scan]
  | cons c t ih =>
    rw [List.flatMap_cons, scan_append]
    by_cases hc : c = '\''
    · simp [hc, scan, advance, ih]
    · simp [hc, scan, advance, ih]

/-- A quoted text is read as that text. -/
theorem scan_quote (t : List Char) : scan .gap (quote t) = ([], .closing t) := by
  have hopen : scan .gap ['\''] = ([], .literal []) := rfl
  rw [quote, ← List.singleton_append, List.append_assoc, scan_append, hopen, scan_append, scan_body]
  simp [scan, advance]

/-! ## An insert of rows -/

inductive Value where
  | text (t : List Char)
  | int (n : Int)
deriving DecidableEq

/-- An `INSERT`; `clause` is what follows the rows. -/
structure Insert where
  table : List Char
  columns : List (List Char)
  rows : List (List Value)
  clause : List Token
deriving DecidableEq

/-- Names up to the end of their list. -/
def readNames : List Token → Option (List (List Char) × List Token)
  | .word w :: .sign ',' :: rest => (readNames rest).map fun r => (w :: r.1, r.2)
  | .word w :: .sign ')' :: rest => some ([w], rest)
  | _ => none

inductive RowMode where
  | row
  | value (row : List Value)
  | separator (row : List Value)
  | done

/-- The rows, what follows them, and the bound values that no parameter has taken. -/
def readRows : RowMode → List Value → List Token → Option (List (List Value) × List Token × List Value)
  | .row, bound, .sign '(' :: rest => readRows (.value []) bound rest
  | .value row, bound, .text t :: rest => readRows (.separator (row ++ [.text t])) bound rest
  | .value row, v :: bound, .param :: rest => readRows (.separator (row ++ [v])) bound rest
  | .separator row, bound, .sign ',' :: rest => readRows (.value row) bound rest
  | .separator row, bound, .sign ')' :: rest =>
    (readRows .done bound rest).map fun r => (row :: r.1, r.2)
  | .done, bound, .sign ',' :: rest => readRows .row bound rest
  | .done, bound, rest => some ([], rest, bound)
  | _, _, _ => none

/-- Every bound value has been taken. -/
def insertOf (table : List Char) (columns : List (List Char)) :
    Option (List (List Value) × List Token × List Value) → Option Insert
  | some (rows, clause, []) => some ⟨table, columns, rows, clause⟩
  | _ => none

def readInsert (bound : List Value) : List Token → Option Insert
  | .word verb :: .word into :: .word table :: .sign '(' :: rest =>
    if verb = "INSERT".toList ∧ into = "INTO".toList then
      match readNames rest with
      | some (columns, .word values :: rest) =>
        if values = "VALUES".toList then insertOf table columns (readRows .row bound rest) else none
      | _ => none
    else none
  | _ => none

/-- The statement that a text and its bound values are. -/
def readStatement (text : List Char) (bound : List Value) : Option Insert :=
  (tokens text).bind (readInsert bound)

/-- A value as it is written: as a literal, or as a parameter that is bound to it. -/
inductive Cell where
  | literal (t : List Char)
  | bound (v : Value)

def Cell.value : Cell → Value
  | .literal t => .text t
  | .bound v => v

def Cell.token : Cell → Token
  | .literal t => .text t
  | .bound _ => .param

def Cell.chars : Cell → List Char
  | .literal t => quote t
  | .bound _ => ['?']

/-- What is bound, in the order of the parameters. -/
def boundOf : List Cell → List Value
  | [] => []
  | .literal _ :: cells => boundOf cells
  | .bound v :: cells => v :: boundOf cells

/-- The tokens of a row after its first sign. -/
def cellTokens (cell : Cell) : List Cell → List Token
  | [] => [cell.token, .sign ')']
  | next :: cells => cell.token :: .sign ',' :: cellTokens next cells

def cellChars (cell : Cell) : List Cell → List Char
  | [] => cell.chars ++ [')']
  | next :: cells => cell.chars ++ ", ".toList ++ cellChars next cells

/-- Where the scan stands after a cell. -/
def Cell.mode : Cell → Mode
  | .literal t => .closing t
  | .bound _ => .gap

/-- The token of a cell, as far as it is known before the next sign. -/
def Cell.early : Cell → List Token
  | .literal _ => []
  | .bound _ => [.param]

theorem scan_cell (cell : Cell) : scan .gap cell.chars = (cell.early, cell.mode) := by
  cases cell with
  | literal t => exact scan_quote t
  | bound v => rfl

theorem scan_after (cell : Cell) : cell.early ++ (scan cell.mode ", ".toList).1 = [cell.token, .sign ','] ∧
    (scan cell.mode ", ".toList).2 = .gap := by
  cases cell <;> exact ⟨rfl, rfl⟩

theorem scan_last (cell : Cell) : cell.early ++ (scan cell.mode [')']).1 = [cell.token, .sign ')'] ∧
    (scan cell.mode [')']).2 = .gap := by
  cases cell <;> exact ⟨rfl, rfl⟩

theorem scan_cells (cell : Cell) (cells : List Cell) :
    scan .gap (cellChars cell cells) = (cellTokens cell cells, .gap) := by
  induction cells generalizing cell with
  | nil =>
    obtain ⟨htokens, hmode⟩ := scan_last cell
    rw [cellChars, scan_append, scan_cell, htokens, hmode, cellTokens]
  | cons next cells ih =>
    obtain ⟨htokens, hmode⟩ := scan_after cell
    rw [cellChars, List.append_assoc, scan_append, scan_cell]
    dsimp only
    rw [scan_append, ← List.append_assoc, htokens, hmode, ih, cellTokens]
    rfl

/-- A row is read as the values of its cells. -/
theorem readRows_cells (cell : Cell) (cells : List Cell) (row bound : List Value) (rest : List Token) :
    readRows (.value row) (boundOf (cell :: cells) ++ bound) (cellTokens cell cells ++ rest) =
      (readRows .done bound rest).map fun r => ((row ++ (cell :: cells).map Cell.value) :: r.1, r.2) := by
  induction cells generalizing cell row with
  | nil => cases cell <;> rfl
  | cons next cells ih =>
    have hrow : row ++ (cell :: next :: cells).map Cell.value =
        (row ++ [cell.value]) ++ (next :: cells).map Cell.value := by
      rw [List.map_cons, List.append_assoc, List.singleton_append]
    rw [hrow, ← ih next (row ++ [cell.value])]
    cases cell <;> rfl

/-! ## The rows of an insert -/

/-- A row of cells, of which there is at least one. -/
structure Row where
  cell : Cell
  cells : List Cell

def Row.values (r : Row) : List Value :=
  (r.cell :: r.cells).map Cell.value

def Row.bound (r : Row) : List Value :=
  boundOf (r.cell :: r.cells)

def Row.chars (r : Row) : List Char :=
  '(' :: cellChars r.cell r.cells

def Row.tokens (r : Row) : List Token :=
  .sign '(' :: cellTokens r.cell r.cells

/-- The rows of an insert, separated as `", ".join` does. -/
def rowsChars (r : Row) : List Row → List Char
  | [] => r.chars
  | next :: rows => r.chars ++ ", ".toList ++ rowsChars next rows

def rowsTokens (r : Row) : List Row → List Token
  | [] => r.tokens
  | next :: rows => r.tokens ++ .sign ',' :: rowsTokens next rows

theorem scan_row (r : Row) : scan .gap r.chars = (r.tokens, .gap) := by
  have hopen : scan .gap ['('] = ([.sign '('], .gap) := rfl
  rw [Row.chars, ← List.singleton_append, scan_append, hopen]
  dsimp only
  rw [scan_cells, Row.tokens, List.singleton_append]

theorem scan_rows (r : Row) (rows : List Row) : scan .gap (rowsChars r rows) = (rowsTokens r rows, .gap) := by
  induction rows generalizing r with
  | nil => exact scan_row r
  | cons next rows ih =>
    have hcomma : scan .gap ", ".toList = ([.sign ','], .gap) := rfl
    rw [rowsChars, List.append_assoc, scan_append, scan_row]
    dsimp only
    rw [scan_append, hcomma]
    dsimp only
    rw [ih, rowsTokens, List.singleton_append]

theorem readRows_row (r : Row) (bound : List Value) (rest : List Token) :
    readRows .row (r.bound ++ bound) (r.tokens ++ rest) =
      (readRows .done bound rest).map fun rs => (r.values :: rs.1, rs.2) :=
  readRows_cells r.cell r.cells [] bound rest

/-- Rows are read as their values, and each parameter takes the value that is bound to it. -/
theorem readRows_rows (r : Row) (rows : List Row) {rest : List Token}
    (hrest : readRows .done [] rest = some ([], rest, [])) :
    readRows .row ((r :: rows).flatMap Row.bound) (rowsTokens r rows ++ rest) =
      some ((r :: rows).map Row.values, rest, []) := by
  induction rows generalizing r with
  | nil =>
    have hrow := readRows_row r [] rest
    rw [hrest] at hrow
    exact hrow
  | cons next rows ih =>
    have htail : readRows .done ((next :: rows).flatMap Row.bound)
        (.sign ',' :: (rowsTokens next rows ++ rest)) =
          some ((next :: rows).map Row.values, rest, []) := ih next
    rw [rowsTokens, List.append_assoc, List.cons_append, List.flatMap_cons, readRows_row, htail]
    rfl

/-- A statement whose parts are read one by one. -/
theorem readStatement_eq (r : Row) (rows : List Row) {front clause : List Char} {head tail : List Token}
    {ends : Mode} {last : List Token} (hfront : scan .gap front = (head, .gap))
    (hclause : scan .gap clause = (tail, ends)) (hends : finish ends = some last) :
    readStatement (front ++ rowsChars r rows ++ clause) ((r :: rows).flatMap Row.bound) =
      readInsert ((r :: rows).flatMap Row.bound) (head ++ (rowsTokens r rows ++ (tail ++ last))) := by
  rw [readStatement, tokens, List.append_assoc, scan_append, hfront]
  dsimp only
  rw [scan_append, scan_rows]
  dsimp only
  rw [hclause]
  dsimp only
  rw [hends, Option.map_some, Option.bind_some, List.append_assoc, List.append_assoc]

end SqlText
