import QuantproCollector.Lib.JsonUpdate
import QuantproCollector.Portfolio.Delta

/-!
# Quote snapshots

What the worker accepts as a quote snapshot, and the counts it derives from the rows. A snapshot is
a JSON value; a row's fields are read as the validator reads them, `none` where the field is absent.
-/

namespace QuantproCollector.LiveUniverse

open Portfolio (isRecord templateText)

def GROUPS : List String := ["Core", "Growth", "Watch"]

def PORTFOLIO_GROUPS : List String := ["core", "growth", "watch", "mapping"]

def PORTFOLIO_STATUSES : List String := ["CORE", "GROWTH", "WATCH"]

def HOLDING_STATUSES : List String := ["ACTIVE", "MAPPING_ONLY", "WATCH"]

def MARKETS : List String := ["CN", "HK"]

def EXCHANGES : List String := ["SZ", "SH", "HK"]

/-- The fields of a portfolio universe item. -/
def UNIVERSE_FIELDS : List String :=
  ["code", "market", "exchange", "name", "group", "portfolio_group", "portfolio_status",
    "holding_status", "mapping_only", "mapped_to", "mapping_to", "position_qty", "is_position"]

def REQUIRED_STOCK_FIELDS : List String :=
  UNIVERSE_FIELDS ++
    ["price", "change", "change_pct", "pre_close", "prev_close", "open", "high", "low",
      "pct_change", "volume", "amount", "market_status", "market_data_time", "source_update_time",
      "freshness_basis", "quote_time", "fetch_time", "age_seconds", "primary_source",
      "secondary_source", "source_status", "quality"]

def NUMERIC_FIELDS : List String :=
  ["price", "change", "change_pct", "pre_close", "prev_close", "open", "high", "low", "pct_change",
    "volume", "amount", "age_seconds"]

/-! ## Checks -/

/-- `if (!ok) throw new Error(message)`. -/
def require (ok : Bool) (message : String) : Except String Unit :=
  if ok then .ok () else .error message

theorem require_ok {ok : Bool} {message : String} :
    require ok message = .ok () ↔ ok = true := by
  unfold require
  split <;> simp_all

/-- A sequence passes where each of its checks does. -/
theorem bind_ok {α : Type} {first : Except String Unit} {rest : Unit → Except String α} {a : α} :
    (first >>= rest) = .ok a ↔ first = .ok () ∧ rest () = .ok a := by
  cases first with
  | error e => simp [bind, Except.bind]
  | ok u => simp [bind, Except.bind]

/-- The check of every element, in order; `check` is given the index. -/
def forIndexed {α : Type} (check : α → ℕ → Except String Unit) : ℕ → List α → Except String Unit
  | _, [] => .ok ()
  | index, x :: xs => do
    check x index
    forIndexed check (index + 1) xs

theorem forIndexed_ok {α : Type} {check : α → ℕ → Except String Unit} {p : α → Prop}
    {xs : List α} (h : ∀ x ∈ xs, ∀ index, check x index = .ok () ↔ p x) (index : ℕ) :
    forIndexed check index xs = .ok () ↔ ∀ x ∈ xs, p x := by
  induction xs generalizing index with
  | nil => simp [forIndexed]
  | cons x xs ih =>
    have hx := h x List.mem_cons_self index
    have hrest := ih (fun y hy => h y (List.mem_cons_of_mem x hy)) (index + 1)
    rw [forIndexed, bind_ok, hx, hrest, List.forall_mem_cons]

/-- A text among `texts`. -/
def isOneOf (texts : List String) : Option Json → Bool
  | some (.str s) => texts.contains s
  | _ => false

def isNonEmptyString : Option Json → Bool
  | some (.str s) => decide (s ≠ "")
  | _ => false

def isStringOrNull : Option Json → Bool
  | some (.str _) => true
  | some .null => true
  | _ => false

def isBoolean : Option Json → Bool
  | some (.bool _) => true
  | _ => false

/-- Every number of a JSON value is finite. -/
def isFiniteNumber : Option Json → Bool
  | some (.num _) => true
  | _ => false

/-- A number that is at least zero. -/
def isNonNegative : Option Json → Bool
  | some (.num x) => !x.isNeg
  | _ => false

/-- A number above zero. -/
def isPositive : Option Json → Bool
  | some (.num x) => !x.isNeg && decide (x ≠ .ofInt 0)
  | _ => false

def isIntegerNumber : Option Json → Bool
  | some (.num x) => x.isInteger
  | _ => false

/-- What a condition makes of a value. -/
def truthy : Option Json → Bool
  | some (.bool b) => b
  | some (.num x) => decide (x ≠ .ofInt 0)
  | some (.str s) => decide (s ≠ "")
  | some (.arr _) => true
  | some (.obj _) => true
  | _ => false

def requireString (record : Json) (field context : String) : Except String Unit :=
  require (isNonEmptyString (record.get? field)) s!"{context}.{field} must be a non-empty string"

def instrumentKey (stock : Json) : String :=
  templateText (stock.get? "market") ++ ":" ++ templateText (stock.get? "code")

/-! ## Rows -/

/-- The broad group of a portfolio group. -/
def expectedBroadGroup (portfolioGroup : Option Json) : String :=
  if portfolioGroup = some (.str "core") ∨ portfolioGroup = some (.str "mapping") then "Core"
  else if portfolioGroup = some (.str "growth") then "Growth"
  else "Watch"

/-- The portfolio status of a portfolio group. -/
def expectedPortfolioStatus (portfolioGroup : Option Json) : Json :=
  if portfolioGroup = some (.str "core") then .str "CORE"
  else if portfolioGroup = some (.str "growth") then .str "GROWTH"
  else if portfolioGroup = some (.str "watch") then .str "WATCH"
  else .null

/-- A mapping row says what it maps to, another row may not. -/
def requireMapping (portfolioGroup mappingTo mappedTo : Option Json) (context : String) :
    Except String Unit :=
  if portfolioGroup = some (.str "mapping") then
    require (isNonEmptyString mappingTo)
      s!"{context}.mapping records require a non-empty mapping_to"
  else
    require (decide (mappingTo = some .null) && decide (mappedTo = some .null))
      s!"{context}.mapping fields are only allowed for mapping records"

def validateClassification (stock : Json) (context : String) : Except String Unit := do
  let market := stock.get? "market"
  let exchange := stock.get? "exchange"
  let group := stock.get? "group"
  let portfolioGroup := stock.get? "portfolio_group"
  let portfolioStatus := stock.get? "portfolio_status"
  let holdingStatus := stock.get? "holding_status"
  require (isOneOf MARKETS market) s!"{context}.market must be CN or HK"
  require (isOneOf EXCHANGES exchange) s!"{context}.exchange must be SZ, SH, or HK"
  require (!((decide (market = some (.str "HK")) && decide (exchange ≠ some (.str "HK"))) ||
      (decide (market = some (.str "CN")) && decide (exchange = some (.str "HK")))))
    s!"{context}.market and exchange are inconsistent"
  require (isOneOf GROUPS group) s!"{context}.group must be Core, Growth, or Watch"
  require (isOneOf PORTFOLIO_GROUPS portfolioGroup) s!"{context}.portfolio_group is invalid"
  require (decide (portfolioStatus = some .null) || isOneOf PORTFOLIO_STATUSES portfolioStatus)
    s!"{context}.portfolio_status must be CORE, GROWTH, WATCH, or null"
  require (isOneOf HOLDING_STATUSES holdingStatus) s!"{context}.holding_status is invalid"
  require (isBoolean (stock.get? "mapping_only")) s!"{context}.mapping_only must be boolean"
  require (decide (group = some (.str (expectedBroadGroup portfolioGroup))))
    s!"{context}.group does not match portfolio_group"
  require (!(decide (portfolioGroup = some (.str "mapping")) &&
      decide (holdingStatus ≠ some (.str "MAPPING_ONLY"))))
    s!"{context}.mapping rows must use holding_status=MAPPING_ONLY"
  require (!(decide (portfolioGroup ≠ some (.str "mapping")) &&
      decide (holdingStatus = some (.str "MAPPING_ONLY"))))
    s!"{context}.MAPPING_ONLY is only valid for mapping rows"
  require (decide (portfolioStatus = some (expectedPortfolioStatus portfolioGroup)))
    s!"{context}.portfolio_status does not match portfolio_group"
  require (decide (stock.get? "mapping_only" =
      some (.bool (decide (portfolioGroup = some (.str "mapping"))))))
    s!"{context}.mapping_only does not match portfolio_group"
  let mappingTo := stock.get? "mapping_to"
  let mappedTo := stock.get? "mapped_to"
  require (isStringOrNull mappingTo) s!"{context}.mapping_to must be a string or null"
  require (isStringOrNull mappedTo) s!"{context}.mapped_to must be a string or null"
  require (decide (mappingTo = mappedTo)) s!"{context}.mapping_to and mapped_to must match"
  requireMapping portfolioGroup mappingTo mappedTo context
  let positionQty := stock.get? "position_qty"
  require (decide (positionQty = some .null) || isNonNegative positionQty)
    s!"{context}.position_qty must be null or a non-negative number"
  let isPosition := stock.get? "is_position"
  require (isBoolean isPosition) s!"{context}.is_position must be boolean"
  require (decide (isPosition = some (.bool (decide (holdingStatus = some (.str "ACTIVE"))))))
    s!"{context}.holding_status and is_position are inconsistent"
  require (!(!truthy isPosition && decide (positionQty ≠ some (.num (.ofInt 0)))))
    s!"{context}.non-position rows must have position_qty=0"
  require (!(truthy isPosition && decide (positionQty ≠ some .null) && !isPositive positionQty))
    s!"{context}.position_qty must be positive when supplied for a position"

def requireFields (value : Json) (fields : List String) (context : String) : Except String Unit :=
  forIndexed (fun field _ =>
    require (value.get? field).isSome s!"{context}.{field} is required") 0 fields

/-- The check of a numeric field: a row that is no position may leave it null. -/
def validateNumeric (value : Json) (context field : String) : Except String Unit :=
  require (isFiniteNumber (value.get? field) ||
      (!truthy (value.get? "is_position") && decide (value.get? field = some .null)))
    s!"{context}.{field} must be a finite number"

def requireStringOrNull (value : Json) (field context : String) : Except String Unit :=
  require (isStringOrNull (value.get? field)) s!"{context}.{field} must be a string or null"

/-- The checks of a row after its classification and its numbers. -/
def validateSources (value : Json) (context : String) : Except String Unit := do
  forIndexed (fun field _ => requireString value field context) 0
    ["market_status", "freshness_basis", "source_status", "quality"]
  require (isOneOf ["OPEN", "CLOSED"] (value.get? "market_status"))
    s!"{context}.market_status must be OPEN or CLOSED"
  forIndexed (fun field _ => requireStringOrNull value field context) 0
    ["market_data_time", "quote_time", "source_update_time"]
  requireString value "fetch_time" context
  forIndexed (fun field _ => requireStringOrNull value field context) 0
    ["primary_source", "secondary_source"]

def validateStock (value : Json) (index : ℕ) : Except String Unit := do
  let context := "stocks[" ++ toString index ++ "]"
  require (isRecord value) s!"{context} must be an object"
  requireFields value REQUIRED_STOCK_FIELDS context
  requireString value "code" context
  requireString value "name" context
  validateClassification value context
  forIndexed (fun field _ => validateNumeric value context field) 0 NUMERIC_FIELDS
  validateSources value context

def validateUniverseItem (value : Json) (index : ℕ) : Except String Unit := do
  let context := "portfolio_universe[" ++ toString index ++ "]"
  require (isRecord value) s!"{context} must be an object"
  requireFields value UNIVERSE_FIELDS context
  requireString value "code" context
  requireString value "name" context
  validateClassification value context

/-! ## Counts -/

def isArray : Option Json → Bool
  | some (.arr _) => true
  | _ => false

def elements : Option Json → List Json
  | some (.arr xs) => xs
  | _ => []

/-- The rows of a snapshot. -/
def stocks (snapshot : Json) : List Json :=
  elements (snapshot.get? "stocks")

structure SnapshotCounts where
  total : ℕ
  activeQuoteTotal : ℕ
  activeHoldingTotal : ℕ
  watchTotal : ℕ
  exitedWatchTotal : ℕ
  coreTotal : ℕ
  growthTotal : ℕ
  mappingTotal : ℕ
deriving DecidableEq

def inGroup (group : String) (stock : Json) : Bool :=
  decide (stock.get? "portfolio_group" = some (.str group))

def isPosition (stock : Json) : Bool :=
  truthy (stock.get? "is_position")

/-- A row that is quoted: a position, or a mapping row. -/
def isActiveQuote (stock : Json) : Bool :=
  truthy (stock.get? "is_position") || truthy (stock.get? "mapping_only")

def getSnapshotCounts (snapshot : Json) : SnapshotCounts where
  total := (stocks snapshot).length
  activeQuoteTotal := (stocks snapshot).countP isActiveQuote
  activeHoldingTotal := (stocks snapshot).countP isPosition
  watchTotal := (stocks snapshot).countP (inGroup "watch")
  exitedWatchTotal := 0
  coreTotal := (stocks snapshot).countP (inGroup "core")
  growthTotal := (stocks snapshot).countP (inGroup "growth")
  mappingTotal := (stocks snapshot).countP (inGroup "mapping")

/-- The derived fields of a summary, with their values. -/
def derivedSummary (counts : SnapshotCounts) : List (String × ℕ) :=
  [("active_quote_total", counts.activeQuoteTotal),
    ("active_holding_total", counts.activeHoldingTotal), ("watch_total", counts.watchTotal),
    ("exited_watch_total", 0), ("mapping_total", counts.mappingTotal),
    ("core_total", counts.coreTotal), ("growth_total", counts.growthTotal)]

/-! ## Snapshots -/

structure SnapshotValidationOptions where
  expectedActiveQuoteTotal : Option ℕ
  requireWatch : Bool

/-- The options of a call without any. -/
def SnapshotValidationOptions.none : SnapshotValidationOptions := ⟨.none, false⟩

/-- The key of an element that is already among `seen`, or comes again. -/
def firstDuplicate (seen : List String) : List Json → Option String
  | [] => none
  | x :: xs =>
    if seen.contains (instrumentKey x) then some (instrumentKey x)
    else firstDuplicate (instrumentKey x :: seen) xs

def requireDistinct (items : List Json) (description : String) : Except String Unit :=
  match firstDuplicate [] items with
  | some key => .error (description ++ ": " ++ key)
  | none => .ok ()

def compareUniverseToStock (item stock : Json) (index : ℕ) : Except String Unit :=
  forIndexed (fun field _ =>
    require (decide (item.get? field = stock.get? field))
      ("portfolio_universe[" ++ toString index ++ "] does not match stocks for " ++
        instrumentKey stock ++ ": " ++ field)) 0 UNIVERSE_FIELDS

/-- The comparison of one item with the rows, each key's item the first. -/
def compareItem (rows : List Json) (item : Json) (index : ℕ) : Except String Unit :=
  match rows.find? fun stock => instrumentKey stock == instrumentKey item with
  | none =>
    .error ("portfolio_universe instrument is missing from stocks: " ++ instrumentKey item)
  | some stock => compareUniverseToStock item stock index

/-- The loop over the items: an earlier item's key may not come again. -/
def compareUniverse (rows : List Json) : List String → ℕ → List Json → Except String Unit
  | _, _, [] => .ok ()
  | seen, index, item :: items => do
    require (!seen.contains (instrumentKey item))
      ("duplicate portfolio universe key: " ++ instrumentKey item)
    compareItem rows item index
    compareUniverse rows (instrumentKey item :: seen) (index + 1) items

def requireActiveQuotes (expected : Option ℕ) (counts : SnapshotCounts) : Except String Unit :=
  match expected with
  | none => .ok ()
  | some expected =>
    require (decide (counts.activeQuoteTotal = expected))
      ("active quote count must be " ++ toString expected ++ ", got " ++
        toString counts.activeQuoteTotal)

def validateOptions (options : SnapshotValidationOptions) (counts : SnapshotCounts) :
    Except String Unit := do
  requireActiveQuotes options.expectedActiveQuoteTotal counts
  require (!(options.requireWatch && decide (counts.watchTotal = 0)))
    "snapshot must include at least one Watch record"

/-- A derived field of the summary, where it is supplied. -/
def validateDerived (summary : Json) (field : String) (derived : ℕ) : Except String Unit :=
  match summary.get? field with
  | none => .ok ()
  | some supplied =>
    require (isIntegerNumber (some supplied) && decide (supplied = .num (.ofInt derived)))
      ("summary." ++ field ++ " does not match derived value " ++ toString derived)

def isObject : Option Json → Bool
  | some v => isRecord v
  | none => false

def validateSnapshot (options : SnapshotValidationOptions) (value : Json) : Except String Unit := do
  require (isRecord value) "upstream returned non-object JSON"
  require (isNonEmptyString (value.get? "portfolio_version"))
    "portfolio_version must be a non-empty string"
  require (isNonEmptyString (value.get? "snapshot_time"))
    "upstream JSON missing required field: snapshot_time"
  require (isNonEmptyString (value.get? "system_quality"))
    "upstream JSON missing required field: system_quality"
  require (isObject (value.get? "summary")) "upstream JSON missing required field: summary"
  let summary := (value.get? "summary").getD .null
  require (isNonNegative (summary.get? "total") && isIntegerNumber (summary.get? "total"))
    "summary.total must be a non-negative integer"
  require (isArray (value.get? "stocks")) "upstream JSON missing required field: stocks"
  let rows := stocks value
  require (decide (summary.get? "total" = some (.num (.ofInt rows.length))))
    ("summary.total=" ++ templateText (summary.get? "total") ++ " but stocks.length=" ++
      toString rows.length)
  require (isArray (value.get? "portfolio_universe"))
    "upstream JSON missing required field: portfolio_universe"
  let items := elements (value.get? "portfolio_universe")
  forIndexed validateStock 0 rows
  forIndexed validateUniverseItem 0 items
  require (decide (items.length = rows.length))
    ("portfolio_universe.length=" ++ toString items.length ++ " but stocks.length=" ++
      toString rows.length)
  requireDistinct rows "duplicate instrument key"
  compareUniverse rows [] 0 items
  let counts := getSnapshotCounts value
  validateOptions options counts
  forIndexed (fun field _ => validateDerived summary field.1 field.2) 0 (derivedSummary counts)

end QuantproCollector.LiveUniverse
