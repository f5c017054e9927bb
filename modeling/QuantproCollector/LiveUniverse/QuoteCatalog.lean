import QuantproCollector.LiveUniverse.QuoteMerge

/-!
# The quote catalog

A catalog of instruments with their classification, from which a snapshot is built: a row for each
item, from its quote. The catalog's own check takes each field by itself; which items become
accepted rows is a matter of several fields at once.
-/

namespace QuantproCollector.LiveUniverse

open Portfolio (isRecord)

def QUOTE_CATALOG_SCHEMA : String := "quote-catalog/1"

/-! ## The check of a catalog -/

/-- `/^\d{5,6}$/`, of a text. -/
def isCatalogCode : Option Json → Bool
  | some (.str s) => isDigits 5 s || isDigits 6 s
  | _ => false

def validateCatalogItem (raw : Json) (index : ℕ) : Except String Unit := do
  require (isRecord raw) s!"quote catalog item {index} must be an object"
  require (isOneOf MARKETS (raw.get? "market")) s!"quote catalog item {index}.market is invalid"
  require (isOneOf EXCHANGES (raw.get? "exchange"))
    s!"quote catalog item {index}.exchange is invalid"
  require (isCatalogCode (raw.get? "code")) s!"quote catalog item {index}.code is invalid"
  require (isNonEmptyString (raw.get? "name")) s!"quote catalog item {index}.name is invalid"
  require (isOneOf GROUPS (raw.get? "group")) s!"quote catalog item {index}.group is invalid"
  require (isOneOf PORTFOLIO_GROUPS (raw.get? "portfolio_group"))
    s!"quote catalog item {index}.portfolio_group is invalid"
  require (isBoolean (raw.get? "mapping_only"))
    s!"quote catalog item {index}.mapping_only is invalid"

/-- The loop over the items, with the keys of the items before. -/
def validateCatalogItems : List String → ℕ → List Json → Except String Unit
  | _, _, [] => .ok ()
  | seen, index, raw :: rest => do
    validateCatalogItem raw index
    require (!seen.contains (instrumentKey raw))
      ("quote catalog contains duplicate identity: " ++ instrumentKey raw)
    validateCatalogItems (instrumentKey raw :: seen) (index + 1) rest

/-- The items of a catalog. -/
def catalogItems (catalog : Json) : List Json :=
  elements (catalog.get? "items")

def validateQuoteCatalog (value : Json) : Except String Unit := do
  require (isRecord value) "quote catalog must be an object"
  require (decide (value.get? "schema_version" = some (.str QUOTE_CATALOG_SCHEMA)))
    s!"quote catalog schema must be {QUOTE_CATALOG_SCHEMA}"
  require (isNonEmptyString (value.get? "generated_at")) "quote catalog generated_at is required"
  require (isNonEmptyString (value.get? "source_catalog_version"))
    "quote catalog source_catalog_version is required"
  require (isArray (value.get? "items") && decide (catalogItems value ≠ []) &&
    decide ((catalogItems value).length ≤ 200)) "quote catalog items must contain 1-200 rows"
  validateCatalogItems [] 0 (catalogItems value)

/-! ## The snapshot of a catalog -/

/-- `{...value, key: x}`, where a value that is undefined leaves no field. -/
def setOption : Json → String → Option Json → Json
  | value, key, some x => value.set key x
  | .obj fields, key, none => .obj (fields.filter fun f => decide (f.1 ≠ key))
  | value, _, none => value

/-- `mapping`: by its group, or by its flag. -/
def isMapping (item : Json) : Bool :=
  decide (item.get? "portfolio_group" = some (.str "mapping")) || truthy (item.get? "mapping_only")

/-- The fields that an item gives its row. -/
def classification (row item : Json) : List (String × Option Json) :=
  [("name", if truthy (item.get? "name") then item.get? "name" else row.get? "name"),
    ("group", item.get? "group"), ("portfolio_group", item.get? "portfolio_group"),
    ("portfolio_status", item.get? "portfolio_status"),
    ("holding_status", some (.str (if isMapping item then "MAPPING_ONLY" else "WATCH"))),
    ("mapping_only", some (.bool (isMapping item))), ("mapped_to", item.get? "mapped_to"),
    ("mapping_to", item.get? "mapping_to"), ("position_qty", some (.num (.ofInt 0))),
    ("is_position", some (.bool false))]

def classifiedRow (row item : Json) : Json :=
  (classification row item).foldl (fun value f => setOption value f.1 f.2) row

/-- The rows with the classification of the items of their keys. -/
def classifiedRows (items : List Json) : List Json → Except String (List Json)
  | [] => .ok []
  | row :: rows =>
    match items.find? fun item => instrumentKey item == instrumentKey row with
    | none => .error "provider returned identity outside private quote catalog"
    | some item => (classifiedRow row item :: ·) <$> classifiedRows items rows

/-- The snapshot of the rows, with the summary of their counts. -/
def catalogSnapshot (now : Calendar.Moment) (catalog : Json) (rows : List Json) : Json :=
  let snapshot (summary : List (String × ℕ)) : Json :=
    .obj [("portfolio_version",
        .str ("catalog:" ++ Portfolio.templateText (catalog.get? "generated_at"))),
      ("snapshot_time", .str now.toISOString),
      ("market_status", .str (if rows.any fun row =>
        decide (row.get? "market_status" = some (.str "OPEN")) then "OPEN" else "CLOSED")),
      ("source_mode", .str "DIRECT_TENCENT"), ("system_quality", .str "OK"),
      ("summary", .obj (summary.map countField)),
      ("portfolio_universe", .arr (rows.map toUniverseItem)), ("stocks", .arr rows)]
  let counts := getSnapshotCounts (snapshot [("total", rows.length)])
  snapshot [("total", counts.total), ("usable", counts.total),
    ("active_quote_total", counts.activeQuoteTotal),
    ("active_holding_total", counts.activeHoldingTotal), ("watch_total", counts.watchTotal),
    ("exited_watch_total", counts.exitedWatchTotal), ("mapping_total", counts.mappingTotal),
    ("core_total", counts.coreTotal), ("growth_total", counts.growthTotal)]

inductive CatalogError where
  | quotes (error : DynamicQuoteError)
  | message (text : String)

def fetchQuoteSnapshotFromCatalog (R : QuoteRuntime) (now : Calendar.Moment)
    (fetchQuote : QuoteProvider) (catalog : Json) : Except CatalogError Json := do
  (validateQuoteCatalog catalog).mapError .message
  let batch ← (fetchDynamicQuoteRows R now (some fetchQuote) (catalogItems catalog)).mapError .quotes
  let rows ← (classifiedRows (catalogItems catalog) batch.rows).mapError .message
  (validateSnapshot .none (catalogSnapshot now catalog rows)).mapError .message
  return catalogSnapshot now catalog rows

/-! ## Accepted catalogs -/

/-- An item that the catalog's check takes. -/
structure CatalogItem (item : Json) : Prop where
  record : isRecord item = true
  market : isOneOf MARKETS (item.get? "market") = true
  exchange : isOneOf EXCHANGES (item.get? "exchange") = true
  code : isCatalogCode (item.get? "code") = true
  name : isNonEmptyString (item.get? "name") = true
  group : isOneOf GROUPS (item.get? "group") = true
  portfolioGroup : isOneOf PORTFOLIO_GROUPS (item.get? "portfolio_group") = true
  mappingBool : isBoolean (item.get? "mapping_only") = true

theorem validateCatalogItem_ok {item : Json} {index : ℕ} :
    validateCatalogItem item index = .ok () ↔ CatalogItem item := by
  simp only [validateCatalogItem, bind_ok, require_ok]
  constructor
  · rintro ⟨h1, h2, h3, h4, h5, h6, h7, h8⟩
    exact ⟨h1, h2, h3, h4, h5, h6, h7, h8⟩
  · rintro ⟨h1, h2, h3, h4, h5, h6, h7, h8⟩
    exact ⟨h1, h2, h3, h4, h5, h6, h7, h8⟩

theorem validateCatalogItems_ok {items : List Json} {seen : List String} {index : ℕ}
    (h : validateCatalogItems seen index items = .ok ()) :
    (∀ item ∈ items, CatalogItem item) ∧ (items.map instrumentKey).Nodup ∧
      ∀ item ∈ items, instrumentKey item ∉ seen := by
  induction items generalizing seen index with
  | nil => exact ⟨fun _ h => absurd h List.not_mem_nil, List.nodup_nil,
      fun _ h => absurd h List.not_mem_nil⟩
  | cons item items ih =>
    rw [validateCatalogItems, bind_ok, bind_ok, validateCatalogItem_ok, require_ok] at h
    obtain ⟨hitem, hnew, hrest⟩ := h
    obtain ⟨hitems, hnodup, hfresh⟩ := ih hrest
    have hunseen : instrumentKey item ∉ seen := by simpa using hnew
    refine ⟨List.forall_mem_cons.2 ⟨hitem, hitems⟩, ?_, List.forall_mem_cons.2 ⟨hunseen, ?_⟩⟩
    · rw [List.map_cons, List.nodup_cons]
      refine ⟨fun hmem => ?_, hnodup⟩
      obtain ⟨other, hother, hkey⟩ := List.mem_map.1 hmem
      exact hfresh other hother (hkey ▸ List.mem_cons_self)
    · exact fun other hother hseen => hfresh other hother (List.mem_cons_of_mem _ hseen)

theorem validateQuoteCatalog_ok {catalog : Json} (h : validateQuoteCatalog catalog = .ok ()) :
    (∀ item ∈ catalogItems catalog, CatalogItem item) ∧
      ((catalogItems catalog).map instrumentKey).Nodup := by
  simp only [validateQuoteCatalog, bind_ok] at h
  obtain ⟨-, -, -, -, -, hitems⟩ := h
  obtain ⟨hall, hnodup, -⟩ := validateCatalogItems_ok hitems
  exact ⟨hall, hnodup⟩

/-! ## The identity of an item -/

theorem marketOf_eq {s : String} {market : Market} : marketOf s = some market ↔ s = market.text := by
  unfold marketOf
  split
  · cases market <;> simp [Market.text]
  · cases market <;> simp [Market.text]
  · rename_i hcn hhk
    refine iff_of_false (by simp) fun h => ?_
    cases market
    · exact hcn h
    · exact hhk h

theorem exchangeOf_eq {s : String} {exchange : SupportedExchange} :
    exchangeOf s = some exchange ↔ s = exchange.text := by
  unfold exchangeOf
  split
  · cases exchange <;> simp [SupportedExchange.text]
  · cases exchange <;> simp [SupportedExchange.text]
  · cases exchange <;> simp [SupportedExchange.text]
  · rename_i hsh hsz hhk
    refine iff_of_false (by simp) fun h => ?_
    cases exchange
    · exact hsh h
    · exact hsz h
    · exact hhk h

theorem dropWhile_eq_self {p : Char → Bool} {cs : List Char} (h : ∀ c ∈ cs, p c = false) :
    cs.dropWhile p = cs := by
  cases cs with
  | nil => rfl
  | cons c cs => rw [List.dropWhile_cons, h c List.mem_cons_self, if_neg Bool.false_ne_true]

theorem isSpace_of_isDigit {c : Char} (h : c.isDigit = true) : isSpace c = false := by
  have hrange : 48 ≤ c.toNat ∧ c.toNat ≤ 57 := by
    simpa [Char.isDigit, UInt32.le_iff_toNat_le] using h
  simp only [isSpace, List.contains_cons, List.contains_nil, Bool.or_false, Bool.or_eq_false_iff,
    Bool.and_eq_false_iff, beq_eq_false_iff_ne, decide_eq_false_iff_not]
  omega

theorem trimText_of_digits {s : String} (h : s.toList.all Char.isDigit = true) : trimText s = s := by
  have hspaces : ∀ c ∈ s.toList, isSpace c = false :=
    fun c hc => isSpace_of_isDigit (List.all_eq_true.1 h c hc)
  have hreversed : ∀ c ∈ s.toList.reverse, isSpace c = false :=
    fun c hc => hspaces c (List.mem_reverse.1 hc)
  rw [trimText, Json.trimChars, dropWhile_eq_self hspaces, dropWhile_eq_self hreversed,
    List.reverse_reverse, String.ofList_toList]

/-- An item has the identity that its own fields spell, where these fit together. -/
theorem canonicalize_item {item : Json} (hitem : CatalogItem item) {identity : CanonicalIdentity} :
    canonicalizeIdentity item = .ok identity ↔ identity.Valid ∧ IsRowOf identity item := by
  obtain ⟨market, hmarkets, hmarket⟩ := text_eq_of_isOneOf hitem.market
  obtain ⟨exchange, hexchanges, hexchange⟩ := text_eq_of_isOneOf hitem.exchange
  obtain ⟨code, hcode, hdigits⟩ :
      ∃ s, item.get? "code" = some (.str s) ∧ s.toList.all Char.isDigit = true := by
    have h := hitem.code
    unfold isCatalogCode at h
    split at h
    · simp only [isDigits, Bool.or_eq_true, Bool.and_eq_true] at h
      exact ⟨_, ‹_›, h.elim And.left And.left⟩
    · cases h
  have hmarketText : toUpperCase (trimText market) = market := by
    have hall : ∀ m ∈ MARKETS, toUpperCase (trimText m) = m := by decide
    exact hall market hmarkets
  have hexchangeText : toUpperCase (trimText exchange) = exchange := by
    have hall : ∀ e ∈ EXCHANGES, toUpperCase (trimText e) = e := by decide
    exact hall exchange hexchanges
  unfold canonicalizeIdentity
  rw [hitem.record, hmarket, hexchange, hcode]
  simp only [Option.bind_some, Json.str?, Bool.not_true, Bool.false_eq_true, if_false]
  rw [hmarketText, hexchangeText, trimText_of_digits hdigits, canonicalizeTexts_ok, marketOf_eq,
    exchangeOf_eq, IsRowOf, hmarket, hexchange, hcode]
  simp only [Option.some.injEq, Json.str.injEq]
  tauto

/-! ## The row of an item -/

theorem setOption_isObj {value : Json} (hobj : ∃ fields, value = .obj fields) (key : String)
    (x : Option Json) : ∃ fields, setOption value key x = .obj fields := by
  obtain ⟨fields, rfl⟩ := hobj
  cases x with
  | some x => exact ⟨_, rfl⟩
  | none => exact ⟨_, rfl⟩

theorem lookup_filter_ne (fields : List (String × Json)) (key k : String) :
    (fields.filter fun f => decide (f.1 ≠ key)).lookup k =
      if k = key then none else fields.lookup k := by
  induction fields with
  | nil => simp
  | cons f fields ih =>
    obtain ⟨l, y⟩ := f
    rw [List.filter_cons]
    by_cases hl : l = key
    · subst hl
      rw [if_neg (by simp), ih, List.lookup_cons]
      split_ifs with hk
      · rfl
      · rw [beq_eq_false_iff_ne.2 hk]
    · rw [if_pos (decide_eq_true hl), List.lookup_cons, List.lookup_cons, ih]
      split_ifs with hk
      · rw [beq_eq_false_iff_ne.2 (hk ▸ Ne.symm hl)]
      · rfl

theorem get?_setOption {value : Json} (hobj : ∃ fields, value = .obj fields) (key k : String)
    (x : Option Json) : (setOption value key x).get? k = if k = key then x else value.get? k := by
  cases x with
  | some x => exact Json.get?_set hobj key k x
  | none =>
    obtain ⟨fields, rfl⟩ := hobj
    exact lookup_filter_ne fields key k

theorem get?_setOptions_of_notMem {value : Json} (hobj : ∃ fields, value = .obj fields)
    {updates : List (String × Option Json)} {k : String} (hk : k ∉ updates.map Prod.fst) :
    (updates.foldl (fun value f => setOption value f.1 f.2) value).get? k = value.get? k := by
  induction updates generalizing value with
  | nil => rfl
  | cons f updates ih =>
    rw [List.map_cons, List.mem_cons, not_or] at hk
    rw [List.foldl_cons, ih (setOption_isObj hobj f.1 f.2) hk.2, get?_setOption hobj, if_neg hk.1]

theorem get?_setOptions_of_mem {value : Json} (hobj : ∃ fields, value = .obj fields)
    {updates : List (String × Option Json)} (hnodup : (updates.map Prod.fst).Nodup) {k : String}
    {x : Option Json} (hk : (k, x) ∈ updates) :
    (updates.foldl (fun value f => setOption value f.1 f.2) value).get? k = x := by
  induction updates generalizing value with
  | nil => exact absurd hk List.not_mem_nil
  | cons f updates ih =>
    rw [List.map_cons, List.nodup_cons] at hnodup
    have hnext := setOption_isObj hobj f.1 f.2
    rcases List.mem_cons.1 hk with rfl | hk
    · rw [List.foldl_cons, get?_setOptions_of_notMem hnext hnodup.1, get?_setOption hobj, if_pos rfl]
    · rw [List.foldl_cons, ih hnext hnodup.2 hk]

def CLASSIFICATION_KEYS : List String :=
  ["name", "group", "portfolio_group", "portfolio_status", "holding_status", "mapping_only",
    "mapped_to", "mapping_to", "position_qty", "is_position"]

theorem keys_classification (row item : Json) :
    (classification row item).map Prod.fst = CLASSIFICATION_KEYS :=
  rfl

section
variable {row item : Json} (hobj : ∃ fields, row = .obj fields)
include hobj

theorem get?_classifiedRow {key : String} {x : Option Json} (h : (key, x) ∈ classification row item) :
    (classifiedRow row item).get? key = x :=
  get?_setOptions_of_mem hobj (by rw [keys_classification]; decide) h

theorem get?_classifiedRow_of_notMem {key : String} (h : key ∉ CLASSIFICATION_KEYS) :
    (classifiedRow row item).get? key = row.get? key :=
  get?_setOptions_of_notMem hobj (by rwa [keys_classification])

theorem instrumentKey_classifiedRow :
    instrumentKey (classifiedRow row item) = instrumentKey row := by
  rw [instrumentKey, instrumentKey, get?_classifiedRow_of_notMem hobj (by decide),
    get?_classifiedRow_of_notMem hobj (by decide)]

end

theorem classifiedRow_isRecord {row : Json} (hobj : ∃ fields, row = .obj fields) (item : Json) :
    isRecord (classifiedRow row item) = true := by
  have hfold : ∀ (updates : List (String × Option Json)) (value : Json),
      (∃ fields, value = .obj fields) →
        isRecord (updates.foldl (fun value f => setOption value f.1 f.2) value) = true := by
    intro updates
    induction updates with
    | nil =>
      rintro _ ⟨fields, rfl⟩
      rfl
    | cons f updates ih => exact fun value hvalue => ih _ (setOption_isObj hvalue f.1 f.2)
  exact hfold _ row hobj

/-- The classification of an item is one of an accepted row. -/
structure Classifiable (item : Json) : Prop where
  broad : item.get? "group" = some (.str (expectedBroadGroup (item.get? "portfolio_group")))
  status : item.get? "portfolio_status" =
    some (expectedPortfolioStatus (item.get? "portfolio_group"))
  flag : item.get? "mapping_only" = some (.bool true) →
    item.get? "portfolio_group" = some (.str "mapping")
  mappingTo : isStringOrNull (item.get? "mapping_to") = true
  mappedTo : isStringOrNull (item.get? "mapped_to") = true
  same : item.get? "mapping_to" = item.get? "mapped_to"
  mapping : requireMapping (item.get? "portfolio_group") (item.get? "mapping_to")
    (item.get? "mapped_to") "" = .ok ()

/-- An item from which an accepted row can be built. -/
structure Buildable (item : Json) : Prop extends Classifiable item where
  identity : ∃ identity : CanonicalIdentity, identity.Valid ∧ IsRowOf identity item

/-- The flag of a row is its group's, where the item's own flag does not say otherwise. -/
theorem isMapping_iff {item : Json} (hitem : CatalogItem item) :
    isMapping item = decide (item.get? "portfolio_group" = some (.str "mapping")) ↔
      (item.get? "mapping_only" = some (.bool true) →
        item.get? "portfolio_group" = some (.str "mapping")) := by
  have hbool := hitem.mappingBool
  unfold isBoolean at hbool
  split at hbool
  · rename_i b hflag
    rw [isMapping, hflag]
    cases b <;> by_cases hgroup : item.get? "portfolio_group" = some (.str "mapping") <;>
      simp [hgroup, truthy]
  · cases hbool

section
variable {row item : Json} (hobj : ∃ fields, row = .obj fields)
include hobj

/-- The fields that a row has of its item. -/
theorem get?_ofItem {key : String}
    (hkey : key ∈ ["group", "portfolio_group", "portfolio_status", "mapped_to", "mapping_to"]) :
    (classifiedRow row item).get? key = item.get? key := by
  refine get?_classifiedRow hobj ?_
  simp only [List.mem_cons, List.not_mem_nil, or_false] at hkey
  rcases hkey with rfl | rfl | rfl | rfl | rfl <;> simp [classification]

theorem get?_mappingOnly :
    (classifiedRow row item).get? "mapping_only" = some (.bool (isMapping item)) :=
  get?_classifiedRow hobj (by simp [classification])

theorem get?_holdingStatus : (classifiedRow row item).get? "holding_status" =
    some (.str (if isMapping item then "MAPPING_ONLY" else "WATCH")) :=
  get?_classifiedRow hobj (by simp [classification])

theorem get?_positionQty : (classifiedRow row item).get? "position_qty" = some (.num (.ofInt 0)) :=
  get?_classifiedRow hobj (by simp [classification])

theorem get?_isPosition : (classifiedRow row item).get? "is_position" = some (.bool false) :=
  get?_classifiedRow hobj (by simp [classification])

theorem name_classifiedRow (hitem : CatalogItem item) (hname : isNonEmptyString (row.get? "name") = true) :
    isNonEmptyString ((classifiedRow row item).get? "name") = true := by
  have hgiven := get?_classifiedRow hobj (List.mem_cons_self : _ ∈ classification row item)
  rw [hgiven]
  split_ifs
  · exact hitem.name
  · exact hname

/-- What an accepted row says of its item. -/
theorem classifiable_of_row (hitem : CatalogItem item) (h : Classified (classifiedRow row item)) :
    Classifiable item := by
  have hofItem : ∀ key ∈ ["group", "portfolio_group", "portfolio_status", "mapped_to", "mapping_to"],
      (classifiedRow row item).get? key = item.get? key := fun key hkey => get?_ofItem hobj hkey
  have hgroup := hofItem "group" (by decide)
  have hportfolioGroup := hofItem "portfolio_group" (by decide)
  have hstatus := hofItem "portfolio_status" (by decide)
  have hmappedTo := hofItem "mapped_to" (by decide)
  have hmappingTo := hofItem "mapping_to" (by decide)
  refine ⟨?_, ?_, (isMapping_iff hitem).1 ?_, ?_, ?_, ?_, ?_⟩
  · rw [← hgroup, ← hportfolioGroup]
    exact h.broad
  · rw [← hstatus, ← hportfolioGroup]
    exact h.status
  · have honly := h.mappingOnly
    rw [get?_mappingOnly hobj, hportfolioGroup] at honly
    exact Json.bool.inj (Option.some.inj honly)
  · rw [← hmappingTo]
    exact h.mappingTo
  · rw [← hmappedTo]
    exact h.mappedTo
  · rw [← hmappingTo, ← hmappedTo]
    exact h.same
  · rw [← hportfolioGroup, ← hmappingTo, ← hmappedTo]
    exact h.mapping

/-- Every field of the classification is there. -/
theorem isSome_classifiedRow (hitem : CatalogItem item) (h : Classifiable item)
    (hname : isNonEmptyString (row.get? "name") = true) {field : String}
    (hfield : field ∈ CLASSIFICATION_KEYS) :
    ((classifiedRow row item).get? field).isSome = true := by
  have hpresent : ∀ {check : Option Json → Bool} {x : Option Json}, check none = false →
      check x = true → x.isSome = true := by
    rintro check (_ | x) hnone hx
    · rw [hnone] at hx
      cases hx
    · rfl
  simp only [CLASSIFICATION_KEYS, List.mem_cons, List.not_mem_nil, or_false] at hfield
  rcases hfield with rfl | rfl | rfl | rfl | rfl | rfl | rfl | rfl | rfl | rfl
  · exact hpresent rfl (name_classifiedRow hobj hitem hname)
  · rw [get?_ofItem hobj (by decide), h.broad]
    rfl
  · rw [get?_ofItem hobj (by decide)]
    exact hpresent rfl hitem.portfolioGroup
  · rw [get?_ofItem hobj (by decide), h.status]
    rfl
  · rw [get?_holdingStatus hobj]
    rfl
  · rw [get?_mappingOnly hobj]
    rfl
  · rw [get?_ofItem hobj (by decide)]
    exact hpresent rfl h.mappedTo
  · rw [get?_ofItem hobj (by decide)]
    exact hpresent rfl h.mappingTo
  · rw [get?_positionQty hobj]
    rfl
  · rw [get?_isPosition hobj]
    rfl

/-- The classification of a row is accepted where its item's can be. -/
theorem classified_classifiedRow (hitem : CatalogItem item) (h : Classifiable item)
    (hrow : Classified row) : Classified (classifiedRow row item) := by
  have hofItem : ∀ key ∈ ["group", "portfolio_group", "portfolio_status", "mapped_to", "mapping_to"],
      (classifiedRow row item).get? key = item.get? key := fun key hkey => get?_ofItem hobj hkey
  have hgroup := hofItem "group" (by decide)
  have hportfolioGroup := hofItem "portfolio_group" (by decide)
  have hstatus := hofItem "portfolio_status" (by decide)
  have hmappedTo := hofItem "mapped_to" (by decide)
  have hmappingTo := hofItem "mapping_to" (by decide)
  have hmarket : (classifiedRow row item).get? "market" = row.get? "market" :=
    get?_classifiedRow_of_notMem hobj (by decide)
  have hexchange : (classifiedRow row item).get? "exchange" = row.get? "exchange" :=
    get?_classifiedRow_of_notMem hobj (by decide)
  exact {
    market := by rw [hmarket]; exact hrow.market
    exchange := by rw [hexchange]; exact hrow.exchange
    consistent := by rw [hmarket, hexchange]; exact hrow.consistent
    group := by rw [hgroup]; exact hitem.group
    portfolioGroup := by rw [hportfolioGroup]; exact hitem.portfolioGroup
    portfolioStatus := by
      rw [hstatus, h.status]
      unfold expectedPortfolioStatus
      split_ifs <;> rfl
    mappingBool := by rw [get?_mappingOnly hobj]; rfl
    broad := by rw [hgroup, hportfolioGroup]; exact h.broad
    status := by rw [hstatus, hportfolioGroup]; exact h.status
    mappingOnly := by rw [get?_mappingOnly hobj, hportfolioGroup, (isMapping_iff hitem).2 h.flag]
    mappingTo := by rw [hmappingTo]; exact h.mappingTo
    mappedTo := by rw [hmappedTo]; exact h.mappedTo
    same := by rw [hmappingTo, hmappedTo]; exact h.same
    mapping := by rw [hportfolioGroup, hmappingTo, hmappedTo]; exact h.mapping }

end

theorem row_classifiedRow_iff {item : Json} (hitem : CatalogItem item) {identity : CanonicalIdentity}
    (hidentity : identity.Valid) {q : NormalizedQuote} (hq : q.Valid)
    (hfinite : FiniteChange (quoteRow identity q)) :
    Row (classifiedRow (quoteRow identity q) item) ↔ Classifiable item := by
  have hobj : ∃ fields, quoteRow identity q = .obj fields := ⟨_, rfl⟩
  have hbase := row_quoteRow hidentity hq hfinite
  have hother : ∀ {key}, key ∉ CLASSIFICATION_KEYS →
      (classifiedRow (quoteRow identity q) item).get? key = (quoteRow identity q).get? key :=
    fun hkey => get?_classifiedRow_of_notMem hobj hkey
  refine ⟨fun h => classifiable_of_row hobj hitem h.classified, fun h => ?_⟩
  have hsome : ∀ field ∈ REQUIRED_STOCK_FIELDS,
      ((classifiedRow (quoteRow identity q) item).get? field).isSome = true := by
    intro field hrequired
    by_cases hkey : field ∈ CLASSIFICATION_KEYS
    · exact isSome_classifiedRow hobj hitem h hbase.name hkey
    · rw [hother hkey]
      exact hbase.required field hrequired
  have hnumbers : ∀ field ∈ NUMERIC_FIELDS, isFiniteNumber ((quoteRow identity q).get? field) = true :=
    fun field hnumeric => (hbase.numeric field hnumeric).resolve_right fun hheld => by cases hheld.1
  have hfields : ∀ field ∈ UNIVERSE_FIELDS, field ∈ REQUIRED_STOCK_FIELDS := by decide
  have hnumericKeys : ∀ field ∈ NUMERIC_FIELDS, field ∉ CLASSIFICATION_KEYS := by decide
  have hsourcedKeys : ∀ field ∈ SOURCED_KEYS, field ∉ CLASSIFICATION_KEYS := by decide
  refine ⟨⟨classifiedRow_isRecord hobj item, fun field hf => hsome field (hfields field hf), ?_,
    name_classifiedRow hobj hitem hbase.name, classified_classifiedRow hobj hitem h hbase.classified,
    ?_⟩, hsome, fun field hf => .inl ?_, hbase.sourced.congr fun key hkey => hother (hsourcedKeys key hkey)⟩
  · rw [hother (by decide)]
    exact hbase.code
  · rw [get?_ofItem hobj (by decide), get?_holdingStatus hobj, get?_positionQty hobj,
      get?_isPosition hobj]
    refine holdingRules_unheld ?_
    rw [(isMapping_iff hitem).2 h.flag]
    simp only [decide_eq_true_eq]
  · rw [hother (hnumericKeys field hf)]
    exact hnumbers field hf

/-! ## The snapshot -/

/-- The summary of a catalog's snapshot has the counts of its rows. -/
theorem summaryMatches_catalogSnapshot (now : Calendar.Moment) (catalog : Json) (rows : List Json) :
    SummaryMatches (catalogSnapshot now catalog rows) := by
  refine ⟨rfl, fun field hfield => ?_⟩
  simp only [derivedSummary, List.mem_cons, List.not_mem_nil, or_false] at hfield
  rcases hfield with rfl | rfl | rfl | rfl | rfl | rfl | rfl <;> rfl

/-- A catalog's snapshot is accepted exactly where its rows are. -/
theorem validateSnapshot_catalogSnapshot (now : Calendar.Moment) (catalog : Json) {rows : List Json}
    (hkeys : (rows.map instrumentKey).Nodup) :
    validateSnapshot .none (catalogSnapshot now catalog rows) = .ok () ↔ ∀ row ∈ rows, Row row := by
  have hmatches := summaryMatches_catalogSnapshot now catalog rows
  rw [validateSnapshot_ok]
  refine ⟨fun h => h.rows, fun h => ?_⟩
  refine {
    record := rfl
    version := ?_
    time := decide_eq_true (toISOString_ne now)
    quality := rfl
    summary := rfl
    total := by rw [hmatches.1]; simp [isNonNegative, isIntegerNumber]
    stocksArray := rfl
    totalRows := hmatches.1
    itemsArray := rfl
    rows := h
    items := fun item hmem => ?_
    lengths := List.length_map _
    distinct := requireDistinct_ok.2 hkeys
    compared := compareUniverse_toUniverseItem hkeys (fun _ h => h) hkeys
      (fun _ _ => List.not_mem_nil) 0
    options := rfl
    derived := fun field hfield => validateDerived_of_matches (hmatches.2 field hfield) }
  · have hne : "catalog:" ++ Portfolio.templateText (catalog.get? "generated_at") ≠ "" := by
      intro hempty
      have hchars := congrArg String.toList hempty
      rw [String.toList_append] at hchars
      cases hchars
    exact decide_eq_true hne
  · obtain ⟨row, hrow, rfl⟩ := List.mem_map.1 hmem
    exact item_toUniverseItem (h row hrow).toItem

/-- Each row takes its classification from the item of its key. -/
theorem classifiedRows_ok {items some : List Json} {rows : List Json}
    (hnodup : (items.map instrumentKey).Nodup) (hsome : ∀ item ∈ some, item ∈ items)
    (h : List.Forall₂ (fun item row => instrumentKey row = instrumentKey item) some rows) :
    classifiedRows items rows = .ok (List.zipWith classifiedRow rows some) := by
  induction h with
  | nil => rfl
  | @cons item row some rows hkey _ ih =>
    rw [List.forall_mem_cons] at hsome
    rw [classifiedRows, hkey, find?_of_nodup hnodup hsome.1, ih hsome.2]
    rfl

theorem forall_zipWith {items rows : List Json} {p q : Json → Prop}
    (h : List.Forall₂ (fun item row => p (classifiedRow row item) ↔ q item) items rows) :
    (∀ row ∈ List.zipWith classifiedRow rows items, p row) ↔ ∀ item ∈ items, q item := by
  induction h with
  | nil => exact iff_of_true (fun _ h => absurd h List.not_mem_nil) fun _ h => absurd h List.not_mem_nil
  | cons hhead _ ih => rw [List.zipWith_cons_cons, List.forall_mem_cons, List.forall_mem_cons, hhead, ih]

theorem keys_zipWith {items rows : List Json}
    (h : List.Forall₂ (fun item row => instrumentKey (classifiedRow row item) = instrumentKey item)
      items rows) :
    (List.zipWith classifiedRow rows items).map instrumentKey = items.map instrumentKey := by
  induction h with
  | nil => rfl
  | cons hhead _ ih => rw [List.zipWith_cons_cons, List.map_cons, List.map_cons, hhead, ih]

theorem key_of_isRowOf {identity : CanonicalIdentity} {item : Json} (h : IsRowOf identity item) :
    instrumentKey item = identity.key := by
  rw [instrumentKey, h.1, h.2.2, text_str, text_str, CanonicalIdentity.key]

variable {R : QuoteRuntime} {now : Calendar.Moment} {fetchQuote : QuoteProvider} {catalog : Json}

/-- The provider has a valid quote of each item that has an identity to ask for. -/
def Quoted (R : QuoteRuntime) (now : Calendar.Moment) (fetchQuote : QuoteProvider) (items : List Json) :
    Prop :=
  ∀ item ∈ items, ∀ identity, canonicalizeIdentity item = .ok identity →
    ∃ row, settledRow R now fetchQuote identity = .ok row ∧ FiniteChange row

/-- The row of an item's quote, and what becomes of it with the item's classification. -/
structure RowFor (item row : Json) : Prop where
  key : instrumentKey row = instrumentKey item
  classifiedKey : instrumentKey (classifiedRow row item) = instrumentKey item
  accepted : Row (classifiedRow row item) ↔ Classifiable item

theorem rowFor_of_settled {item row : Json} (hitem : CatalogItem item) {identity : CanonicalIdentity}
    (hidentity : canonicalizeIdentity item = .ok identity)
    (hrow : settledRow R now fetchQuote identity = .ok row) (hfinite : FiniteChange row) :
    RowFor item row := by
  obtain ⟨hvalid, hof⟩ := (canonicalize_item hitem).1 hidentity
  obtain ⟨value, -, hnormal⟩ := settledRow_ok.1 hrow
  obtain ⟨q, hq, rfl⟩ := normalize_ok hnormal
  have hkey : instrumentKey (quoteRow identity q) = instrumentKey item := by
    rw [instrumentKey_quoteRow, key_of_isRowOf hof]
  exact ⟨hkey, (instrumentKey_classifiedRow ⟨_, rfl⟩).trans hkey,
    row_classifiedRow_iff hitem hvalid hq hfinite⟩

/-- The identities and the rows of items that have them. -/
theorem exists_rows {items : List Json} (hitems : ∀ item ∈ items, CatalogItem item)
    (hquotes : Quoted R now fetchQuote items)
    (hidentified : ∀ item ∈ items,
      ∃ identity : CanonicalIdentity, identity.Valid ∧ IsRowOf identity item) :
    ∃ identities rows, items.map canonicalizeIdentity = identities.map .ok ∧
      identities.map CanonicalIdentity.key = items.map instrumentKey ∧
      List.Forall₂ (fun identity row => settledRow R now fetchQuote identity = .ok row)
        identities rows ∧
      List.Forall₂ RowFor items rows := by
  induction items with
  | nil => exact ⟨[], [], rfl, rfl, .nil, .nil⟩
  | cons item items ih =>
    rw [List.forall_mem_cons] at hitems hidentified
    rw [Quoted, List.forall_mem_cons] at hquotes
    obtain ⟨identities, rows, hinputs, hkeys, hsettled, hrows⟩ := ih hitems.2 hquotes.2 hidentified.2
    obtain ⟨identity, hvalid, hof⟩ := hidentified.1
    have hidentity := (canonicalize_item hitems.1).2 ⟨hvalid, hof⟩
    obtain ⟨row, hrow, hfinite⟩ := hquotes.1 identity hidentity
    refine ⟨identity :: identities, row :: rows, ?_, ?_, .cons hrow hsettled,
      .cons (rowFor_of_settled hitems.1 hidentity hrow hfinite) hrows⟩
    · rw [List.map_cons, List.map_cons, hidentity, hinputs]
    · rw [List.map_cons, List.map_cons, hkeys, key_of_isRowOf hof]

/-- Where every item has an identity, the snapshot has each item's row, classified. -/
theorem fetch_of_identified (hcatalog : validateQuoteCatalog catalog = .ok ())
    (hquotes : Quoted R now fetchQuote (catalogItems catalog))
    (hidentified : ∀ item ∈ catalogItems catalog,
      ∃ identity : CanonicalIdentity, identity.Valid ∧ IsRowOf identity item) :
    ∃ rows, fetchQuoteSnapshotFromCatalog R now fetchQuote catalog =
        ((validateSnapshot .none (catalogSnapshot now catalog rows)).mapError .message).map
          (fun _ => catalogSnapshot now catalog rows) ∧
      (rows.map instrumentKey).Nodup ∧
      ((∀ row ∈ rows, Row row) ↔ ∀ item ∈ catalogItems catalog, Classifiable item) := by
  obtain ⟨hitems, hnodup⟩ := validateQuoteCatalog_ok hcatalog
  obtain ⟨identities, rows, hinputs, hkeys, hsettled, hrows⟩ :=
    exists_rows hitems hquotes hidentified
  have hbatch := fetch_of_settled hinputs (hkeys ▸ hnodup) hsettled
  have hclassified := classifiedRows_ok hnodup (fun _ h => h) (hrows.imp fun _ _ h => h.key)
  refine ⟨List.zipWith classifiedRow rows (catalogItems catalog), ?_, ?_,
    forall_zipWith (hrows.imp fun _ _ h => h.accepted)⟩
  · unfold fetchQuoteSnapshotFromCatalog
    rw [hcatalog, hbatch]
    change (classifiedRows (catalogItems catalog) rows).mapError CatalogError.message >>= _ = _
    rw [hclassified]
    change (validateSnapshot .none (catalogSnapshot now catalog
      (List.zipWith classifiedRow rows (catalogItems catalog)))).mapError CatalogError.message >>= _ = _
    generalize validateSnapshot .none
      (catalogSnapshot now catalog (List.zipWith classifiedRow rows (catalogItems catalog))) = outcome
    cases outcome with
    | error e => rfl
    | ok u => rfl
  · rw [keys_zipWith (hrows.imp fun _ _ h => h.classifiedKey)]
    exact hnodup

/-- What is built comes from items that have an identity each. -/
theorem identified_of_fetch {snapshot : Json} (hcatalog : validateQuoteCatalog catalog = .ok ())
    (h : fetchQuoteSnapshotFromCatalog R now fetchQuote catalog = .ok snapshot) :
    ∀ item ∈ catalogItems catalog,
      ∃ identity : CanonicalIdentity, identity.Valid ∧ IsRowOf identity item := by
  obtain ⟨hitems, -⟩ := validateQuoteCatalog_ok hcatalog
  unfold fetchQuoteSnapshotFromCatalog at h
  rw [hcatalog] at h
  cases hbatch : fetchDynamicQuoteRows R now (some fetchQuote) (catalogItems catalog) with
  | error e =>
    rw [hbatch] at h
    cases h
  | ok batch =>
    obtain ⟨hinputs, -, -⟩ := fetch_ok hbatch
    intro item hmem
    have hok : canonicalizeIdentity item ∈ batch.identities.map Except.ok :=
      hinputs ▸ List.mem_map_of_mem hmem
    obtain ⟨identity, -, hidentity⟩ := List.mem_map.1 hok
    exact ⟨identity, (canonicalize_item (hitems item hmem)).1 hidentity.symm⟩

/-- From an accepted catalog, with a valid quote of each item, an accepted snapshot is built exactly
where each item is one from which an accepted row can be built. -/
theorem quoteCatalog_adequate_iff (hcatalog : validateQuoteCatalog catalog = .ok ())
    (hquotes : Quoted R now fetchQuote (catalogItems catalog)) :
    (∃ snapshot, fetchQuoteSnapshotFromCatalog R now fetchQuote catalog = .ok snapshot ∧
        validateSnapshot .none snapshot = .ok ()) ↔
      ∀ item ∈ catalogItems catalog, Buildable item := by
  constructor
  · rintro ⟨snapshot, hfetch, -⟩
    have hidentified := identified_of_fetch hcatalog hfetch
    obtain ⟨rows, heq, hkeys, haccepted⟩ := fetch_of_identified hcatalog hquotes hidentified
    cases hvalid : validateSnapshot .none (catalogSnapshot now catalog rows) with
    | error e =>
      rw [heq, hvalid] at hfetch
      cases hfetch
    | ok u =>
      have hrows := (validateSnapshot_catalogSnapshot now catalog hkeys).1 hvalid
      exact fun item hmem => ⟨haccepted.1 hrows item hmem, hidentified item hmem⟩
  · intro h
    obtain ⟨rows, heq, hkeys, haccepted⟩ :=
      fetch_of_identified hcatalog hquotes fun item hmem => (h item hmem).identity
    have hrows := haccepted.2 fun item hmem => (h item hmem).toClassifiable
    have hvalid := (validateSnapshot_catalogSnapshot now catalog hkeys).2 hrows
    refine ⟨catalogSnapshot now catalog rows, ?_, hvalid⟩
    rw [heq, hvalid]
    rfl

/-! ## A catalog that is accepted and never becomes a snapshot -/

/-- An item of the group `core` and a broad group. -/
def exampleItem (group : String) : Json :=
  .obj [("market", .str "CN"), ("exchange", .str "SZ"), ("code", .str "300308"), ("name", .str "A"),
    ("group", .str group), ("portfolio_group", .str "core"), ("portfolio_status", .str "CORE"),
    ("mapping_only", .bool false), ("mapped_to", .null), ("mapping_to", .null)]

def exampleCatalog (group : String) : Json :=
  .obj [("schema_version", .str QUOTE_CATALOG_SCHEMA), ("generated_at", .str "2026-09-28T22:30:00.000Z"),
    ("source_catalog_version", .str "1"), ("items", .arr [exampleItem group])]

theorem validateQuoteCatalog_example {group : String} (h : group = "Core" ∨ group = "Growth") :
    validateQuoteCatalog (exampleCatalog group) = .ok () := by
  rcases h with rfl | rfl <;> rfl

theorem quoted_example (group : String) :
    Quoted exampleQuoteRuntime exampleMoment exampleProvider (catalogItems (exampleCatalog group)) := by
  have hread : ∀ identity, readQuote exampleQuoteRuntime exampleMoment identity exampleQuote =
      .ok exampleNormalized := fun _ => rfl
  intro item _ identity _
  have hrow : settledRow exampleQuoteRuntime exampleMoment exampleProvider identity =
      .ok (quoteRow identity exampleNormalized) :=
    settledRow_ok.2 ⟨some exampleQuote, rfl, congrArg (quoteRow identity <$> ·) (hread identity)⟩
  exact ⟨_, hrow, rfl, rfl⟩

theorem quoteCatalog_adequate_core :
    (∃ snapshot, fetchQuoteSnapshotFromCatalog exampleQuoteRuntime exampleMoment exampleProvider
        (exampleCatalog "Core") = .ok snapshot ∧ validateSnapshot .none snapshot = .ok ()) ↔
      ∀ item ∈ catalogItems (exampleCatalog "Core"), Buildable item :=
  quoteCatalog_adequate_iff (validateQuoteCatalog_example (.inl rfl)) (quoted_example "Core")

/-- The broad group of a core item is `Core`; the catalog's check takes `Growth`, the snapshot's does
not. -/
theorem quoteCatalog_inadequate :
    validateQuoteCatalog (exampleCatalog "Growth") = .ok () ∧
      Quoted exampleQuoteRuntime exampleMoment exampleProvider
        (catalogItems (exampleCatalog "Growth")) ∧
      ∀ snapshot, fetchQuoteSnapshotFromCatalog exampleQuoteRuntime exampleMoment exampleProvider
        (exampleCatalog "Growth") ≠ .ok snapshot := by
  refine ⟨validateQuoteCatalog_example (.inr rfl), quoted_example "Growth", fun snapshot h => ?_⟩
  have hfailed : (fetchQuoteSnapshotFromCatalog exampleQuoteRuntime exampleMoment exampleProvider
      (exampleCatalog "Growth")).toOption = none := by decide +kernel
  rw [h] at hfailed
  cases hfailed

end QuantproCollector.LiveUniverse
