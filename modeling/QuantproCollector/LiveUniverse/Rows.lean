import QuantproCollector.LiveUniverse.Overlay

/-!
# Accepted rows

What the checks of a row come to: a part that the overlay leaves alone, and the rules of a row's
holding, which are about the three fields that the overlay writes.
-/

namespace QuantproCollector.LiveUniverse

open Portfolio (isRecord)

variable {stock : Json} {context : String}

/-- The classification of a row as far as it is not about its holding. -/
structure Classified (stock : Json) : Prop where
  market : isOneOf MARKETS (stock.get? "market") = true
  exchange : isOneOf EXCHANGES (stock.get? "exchange") = true
  consistent : ((decide (stock.get? "market" = some (.str "HK")) &&
      decide (stock.get? "exchange" ≠ some (.str "HK"))) ||
    (decide (stock.get? "market" = some (.str "CN")) &&
      decide (stock.get? "exchange" = some (.str "HK")))) = false
  group : isOneOf GROUPS (stock.get? "group") = true
  portfolioGroup : isOneOf PORTFOLIO_GROUPS (stock.get? "portfolio_group") = true
  portfolioStatus : (decide (stock.get? "portfolio_status" = some .null) ||
    isOneOf PORTFOLIO_STATUSES (stock.get? "portfolio_status")) = true
  mappingBool : isBoolean (stock.get? "mapping_only") = true
  broad : stock.get? "group" = some (.str (expectedBroadGroup (stock.get? "portfolio_group")))
  status : stock.get? "portfolio_status" =
    some (expectedPortfolioStatus (stock.get? "portfolio_group"))
  mappingOnly : stock.get? "mapping_only" =
    some (.bool (decide (stock.get? "portfolio_group" = some (.str "mapping"))))
  mappingTo : isStringOrNull (stock.get? "mapping_to") = true
  mappedTo : isStringOrNull (stock.get? "mapped_to") = true
  same : stock.get? "mapping_to" = stock.get? "mapped_to"
  mapping : requireMapping (stock.get? "portfolio_group") (stock.get? "mapping_to")
    (stock.get? "mapped_to") "" = .ok ()

/-- The rules of a row's holding. -/
structure HoldingRules (portfolioGroup holdingStatus positionQty isPosition : Option Json) :
    Prop where
  status : isOneOf HOLDING_STATUSES holdingStatus = true
  mapping : (decide (portfolioGroup = some (.str "mapping")) &&
    decide (holdingStatus ≠ some (.str "MAPPING_ONLY"))) = false
  others : (decide (portfolioGroup ≠ some (.str "mapping")) &&
    decide (holdingStatus = some (.str "MAPPING_ONLY"))) = false
  quantity : (decide (positionQty = some .null) || isNonNegative positionQty) = true
  position : isBoolean isPosition = true
  agree : isPosition = some (.bool (decide (holdingStatus = some (.str "ACTIVE"))))
  none : (!truthy isPosition && decide (positionQty ≠ some (.num (.ofInt 0)))) = false
  some : (truthy isPosition && decide (positionQty ≠ some .null) && !isPositive positionQty) = false

theorem requireMapping_ok {portfolioGroup mappingTo mappedTo : Option Json} {context' : String} :
    requireMapping portfolioGroup mappingTo mappedTo context = .ok () ↔
      requireMapping portfolioGroup mappingTo mappedTo context' = .ok () := by
  unfold requireMapping
  split_ifs
  · rw [require_ok, require_ok]
  · rw [require_ok, require_ok]

theorem validateClassification_ok :
    validateClassification stock context = .ok () ↔ Classified stock ∧
      HoldingRules (stock.get? "portfolio_group") (stock.get? "holding_status")
        (stock.get? "position_qty") (stock.get? "is_position") := by
  simp only [validateClassification, bind_ok, require_ok, Bool.not_eq_true', decide_eq_true_eq]
  constructor
  · rintro ⟨h1, h2, h3, h4, h5, h6, h7, h8, h9, h10, h11, h12, h13, h14, h15, h16, h17, h18, h19,
      h20, h21, h22⟩
    exact ⟨⟨h1, h2, h3, h4, h5, h6, h8, h9, h12, h13, h14, h15, h16, requireMapping_ok.1 h17⟩,
      ⟨h7, h10, h11, h18, h19, h20, h21, h22⟩⟩
  · rintro ⟨⟨h1, h2, h3, h4, h5, h6, h8, h9, h12, h13, h14, h15, h16, h17⟩,
      ⟨h7, h10, h11, h18, h19, h20, h21, h22⟩⟩
    exact ⟨h1, h2, h3, h4, h5, h6, h7, h8, h9, h10, h11, h12, h13, h14, h15, h16,
      requireMapping_ok.1 h17, h18, h19, h20, h21, h22⟩

theorem requireFields_ok {fields : List String} :
    requireFields stock fields context = .ok () ↔
      ∀ field ∈ fields, (stock.get? field).isSome = true :=
  forIndexed_ok (p := fun field => (stock.get? field).isSome = true) (fun _ _ _ => require_ok) 0

/-- A row's numbers: a row that is no position may leave one null. -/
def NumericRule (stock : Json) (field : String) : Prop :=
  isFiniteNumber (stock.get? field) = true ∨
    truthy (stock.get? "is_position") = false ∧ stock.get? field = some .null

theorem validateNumeric_ok {field : String} :
    validateNumeric stock context field = .ok () ↔ NumericRule stock field := by
  simp only [validateNumeric, require_ok, Bool.or_eq_true, Bool.and_eq_true, Bool.not_eq_true',
    decide_eq_true_eq, NumericRule]

theorem validateNumerics_ok {fields : List String} :
    forIndexed (fun field _ => validateNumeric stock context field) 0 fields = .ok () ↔
      ∀ field ∈ fields, NumericRule stock field :=
  forIndexed_ok (p := NumericRule stock) (fun _ _ _ => validateNumeric_ok) 0

theorem requireString_ok {field : String} :
    requireString stock field context = .ok () ↔ isNonEmptyString (stock.get? field) = true :=
  require_ok

theorem requireStrings_ok {fields : List String} :
    forIndexed (fun field _ => requireString stock field context) 0 fields = .ok () ↔
      ∀ field ∈ fields, isNonEmptyString (stock.get? field) = true :=
  forIndexed_ok (p := fun field => isNonEmptyString (stock.get? field) = true)
    (fun _ _ _ => requireString_ok) 0

theorem requireStringsOrNull_ok {fields : List String} :
    forIndexed (fun field _ => requireStringOrNull stock field context) 0 fields = .ok () ↔
      ∀ field ∈ fields, isStringOrNull (stock.get? field) = true :=
  forIndexed_ok (p := fun field => isStringOrNull (stock.get? field) = true)
    (fun _ _ _ => require_ok) 0

/-- The texts of a row that say where its quote is from. -/
structure Sourced (stock : Json) : Prop where
  texts : ∀ field ∈ ["market_status", "freshness_basis", "source_status", "quality"],
    isNonEmptyString (stock.get? field) = true
  marketStatus : isOneOf ["OPEN", "CLOSED"] (stock.get? "market_status") = true
  times : ∀ field ∈ ["market_data_time", "quote_time", "source_update_time"],
    isStringOrNull (stock.get? field) = true
  fetchTime : isNonEmptyString (stock.get? "fetch_time") = true
  sources : ∀ field ∈ ["primary_source", "secondary_source"],
    isStringOrNull (stock.get? field) = true

theorem validateSources_ok : validateSources stock context = .ok () ↔ Sourced stock := by
  simp only [validateSources, bind_ok, require_ok, requireString_ok, requireStrings_ok,
    requireStringsOrNull_ok]
  constructor
  · rintro ⟨h1, h2, h3, h4, h5⟩
    exact ⟨h1, h2, h3, h4, h5⟩
  · rintro ⟨h1, h2, h3, h4, h5⟩
    exact ⟨h1, h2, h3, h4, h5⟩

/-- What is asked of a row and of a universe item alike. -/
structure Item (stock : Json) : Prop where
  record : isRecord stock = true
  fields : ∀ field ∈ UNIVERSE_FIELDS, (stock.get? field).isSome = true
  code : isNonEmptyString (stock.get? "code") = true
  name : isNonEmptyString (stock.get? "name") = true
  classified : Classified stock
  holding : HoldingRules (stock.get? "portfolio_group") (stock.get? "holding_status")
    (stock.get? "position_qty") (stock.get? "is_position")

/-- An accepted row. -/
structure Row (stock : Json) : Prop extends Item stock where
  required : ∀ field ∈ REQUIRED_STOCK_FIELDS, (stock.get? field).isSome = true
  numeric : ∀ field ∈ NUMERIC_FIELDS, NumericRule stock field
  sourced : Sourced stock

theorem validateUniverseItem_ok {index : ℕ} :
    validateUniverseItem stock index = .ok () ↔ Item stock := by
  simp only [validateUniverseItem, bind_ok, require_ok, requireString_ok, requireFields_ok,
    validateClassification_ok]
  constructor
  · rintro ⟨h1, h2, h3, h4, h5, h6⟩
    exact ⟨h1, h2, h3, h4, h5, h6⟩
  · rintro ⟨h1, h2, h3, h4, h5, h6⟩
    exact ⟨h1, h2, h3, h4, h5, h6⟩

theorem validateStock_ok {index : ℕ} : validateStock stock index = .ok () ↔ Row stock := by
  simp only [validateStock, bind_ok, require_ok, requireString_ok, requireFields_ok,
    validateClassification_ok, validateNumerics_ok, validateSources_ok]
  constructor
  · rintro ⟨h1, h2, h3, h4, ⟨h5, h6⟩, h7, h8⟩
    exact ⟨⟨h1, fun field hf => h2 field (List.mem_append_left _ hf), h3, h4, h5, h6⟩, h2, h7, h8⟩
  · rintro ⟨⟨h1, -, h3, h4, h5, h6⟩, h2, h7, h8⟩
    exact ⟨h1, h2, h3, h4, ⟨h5, h6⟩, h7, h8⟩

/-! ## Accepted snapshots -/

/-- The summary of a snapshot. -/
def summaryOf (snapshot : Json) : Json :=
  (snapshot.get? "summary").getD .null

/-- An accepted snapshot. -/
structure Snapshot (options : SnapshotValidationOptions) (value : Json) : Prop where
  record : isRecord value = true
  version : isNonEmptyString (value.get? "portfolio_version") = true
  time : isNonEmptyString (value.get? "snapshot_time") = true
  quality : isNonEmptyString (value.get? "system_quality") = true
  summary : isObject (value.get? "summary") = true
  total : (isNonNegative ((summaryOf value).get? "total") &&
    isIntegerNumber ((summaryOf value).get? "total")) = true
  stocksArray : isArray (value.get? "stocks") = true
  totalRows : (summaryOf value).get? "total" = some (.num (.ofInt (stocks value).length))
  itemsArray : isArray (value.get? "portfolio_universe") = true
  rows : ∀ stock ∈ stocks value, Row stock
  items : ∀ item ∈ elements (value.get? "portfolio_universe"), Item item
  lengths : (elements (value.get? "portfolio_universe")).length = (stocks value).length
  distinct : requireDistinct (stocks value) "duplicate instrument key" = .ok ()
  compared : compareUniverse (stocks value) [] 0 (elements (value.get? "portfolio_universe")) =
    .ok ()
  options : validateOptions options (getSnapshotCounts value) = .ok ()
  derived : ∀ field ∈ derivedSummary (getSnapshotCounts value),
    validateDerived (summaryOf value) field.1 field.2 = .ok ()

theorem validateStocks_ok {rows : List Json} :
    forIndexed validateStock 0 rows = .ok () ↔ ∀ stock ∈ rows, Row stock :=
  forIndexed_ok (p := Row) (fun _ _ _ => validateStock_ok) 0

theorem validateUniverseItems_ok {items : List Json} :
    forIndexed validateUniverseItem 0 items = .ok () ↔ ∀ item ∈ items, Item item :=
  forIndexed_ok (p := Item) (fun _ _ _ => validateUniverseItem_ok) 0

theorem validateDerivedFields_ok {summary : Json} {fields : List (String × ℕ)} :
    forIndexed (fun field _ => validateDerived summary field.1 field.2) 0 fields = .ok () ↔
      ∀ field ∈ fields, validateDerived summary field.1 field.2 = .ok () :=
  forIndexed_ok (p := fun field : String × ℕ => validateDerived summary field.1 field.2 = .ok ())
    (fun _ _ _ => Iff.rfl) 0

theorem validateSnapshot_ok {options : SnapshotValidationOptions} {value : Json} :
    validateSnapshot options value = .ok () ↔ Snapshot options value := by
  simp only [validateSnapshot, bind_ok, require_ok, decide_eq_true_eq, validateStocks_ok,
    validateUniverseItems_ok, validateDerivedFields_ok]
  constructor
  · rintro ⟨h1, h2, h3, h4, h5, h6, h7, h8, h9, h10, h11, h12, h13, h14, h15, h16⟩
    exact ⟨h1, h2, h3, h4, h5, h6, h7, h8, h9, h10, h11, h12, h13, h14, h15, h16⟩
  · rintro ⟨h1, h2, h3, h4, h5, h6, h7, h8, h9, h10, h11, h12, h13, h14, h15, h16⟩
    exact ⟨h1, h2, h3, h4, h5, h6, h7, h8, h9, h10, h11, h12, h13, h14, h15, h16⟩

end QuantproCollector.LiveUniverse
