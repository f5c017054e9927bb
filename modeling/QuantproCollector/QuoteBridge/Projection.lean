import QuantproCollector.LiveUniverse.Positions
import QuantproCollector.LiveUniverse.Rows
import QuantproCollector.Portfolio.Reducer

/-!
# The public projection of quote snapshots

`toPublicQuoteSnapshot` takes the public fields of an accepted snapshot, and
`assertPublicQuotePrivacy` refuses a value with any other key, or with a forbidden key at any depth.

A property that is `undefined` in the source is absent here, as it is from the JSON that is written.
-/

namespace QuantproCollector.QuoteBridge

open LiveUniverse Portfolio
open Fallible (bind_eq_ok)

def PUBLIC_QUOTE_SNAPSHOT_SCHEMA : String := "public_quote_snapshot/1"

def PUBLIC_TOP_LEVEL_KEYS : List String :=
  ["schema_version", "snapshot_time", "market_status", "source_mode", "system_quality", "summary",
    "stocks"]

def PUBLIC_SUMMARY_KEYS : List String := ["total", "usable"]

def PUBLIC_STOCK_FIELDS : List String :=
  ["market", "exchange", "code", "name", "price", "change", "change_pct", "pre_close", "prev_close",
    "open", "high", "low", "pct_change", "volume", "amount", "market_status", "market_data_time",
    "source_update_time", "freshness_basis", "quote_time", "fetch_time", "age_seconds",
    "primary_source", "secondary_source", "source_status", "quality"]

def PUBLIC_STOCK_KEYS : List String := PUBLIC_STOCK_FIELDS

def FORBIDDEN_KEYS : List String :=
  ["portfolio_universe", "portfolio_version", "portfolio_group", "portfolio_status",
    "holding_status", "mapping_only", "mapped_to", "mapping_to", "position_qty", "is_position",
    "active_holding_total", "active_quote_total", "watch_total", "exited_watch_total",
    "mapping_total", "core_total", "growth_total", "live_universe", "live_universe_hash",
    "live_universe_count", "live_universe_status", "active_count", "holding_count",
    "position_count", "account", "cost", "order", "orders", "credential", "credentials", "token",
    "secret"]

/-! ## Keys at any depth -/

/-- An object within the value, or the value itself, has the key. -/
inductive HasKey (key : String) : Json → Prop
  | here {fields : List (String × Json)} {v : Json} (h : (key, v) ∈ fields) : HasKey key (.obj fields)
  | member {fields : List (String × Json)} {k : String} {v : Json} (h : (k, v) ∈ fields)
      (hv : HasKey key v) : HasKey key (.obj fields)
  | element {xs : List Json} {x : Json} (h : x ∈ xs) (hx : HasKey key x) : HasKey key (.arr xs)

mutual

def assertNoForbiddenKeys (context : String) : Json → Except String Unit
  | .arr xs => assertElements context 0 xs
  | .obj fields => assertMembers context fields
  | _ => .ok ()

/-- The loop over the elements of an array. -/
def assertElements (context : String) : ℕ → List Json → Except String Unit
  | _, [] => .ok ()
  | index, x :: xs => do
    assertNoForbiddenKeys (context ++ "[" ++ toString index ++ "]") x
    assertElements context (index + 1) xs

/-- The loop over the entries of an object. -/
def assertMembers (context : String) : List (String × Json) → Except String Unit
  | [] => .ok ()
  | (key, child) :: fields => do
    require (!FORBIDDEN_KEYS.contains key)
      (context ++ "." ++ key ++ " is forbidden in public quote snapshot")
    assertNoForbiddenKeys (context ++ "." ++ key) child
    assertMembers context fields

end

mutual

theorem not_hasKey_of_assert {key : String} (hkey : key ∈ FORBIDDEN_KEYS) :
    ∀ {context : String} {v : Json}, assertNoForbiddenKeys context v = .ok () → ¬ HasKey key v
  | _, .arr xs, h => by
    rw [assertNoForbiddenKeys] at h
    rintro ⟨⟩
    rename_i x hx hmem
    exact not_hasKey_of_elements hkey h x hmem hx
  | _, .obj fields, h => by
    rw [assertNoForbiddenKeys] at h
    have hfields := not_hasKey_of_members hkey h
    rintro (⟨hmem⟩ | ⟨hmem, hv⟩)
    · exact (hfields _ hmem).1 rfl
    · exact (hfields _ hmem).2 hv
  | _, .null, _ => nofun
  | _, .bool _, _ => nofun
  | _, .num _, _ => nofun
  | _, .str _, _ => nofun

theorem not_hasKey_of_elements {key : String} (hkey : key ∈ FORBIDDEN_KEYS) :
    ∀ {context : String} {index : ℕ} {xs : List Json}, assertElements context index xs = .ok () →
      ∀ x ∈ xs, ¬ HasKey key x
  | _, _, [], _ => List.forall_mem_nil _
  | _, _, x :: xs, h => by
    rw [assertElements, bind_ok] at h
    exact List.forall_mem_cons.2
      ⟨not_hasKey_of_assert hkey h.1, not_hasKey_of_elements hkey h.2⟩

theorem not_hasKey_of_members {key : String} (hkey : key ∈ FORBIDDEN_KEYS) :
    ∀ {context : String} {fields : List (String × Json)}, assertMembers context fields = .ok () →
      ∀ field ∈ fields, field.1 ≠ key ∧ ¬ HasKey key field.2
  | _, [], _ => List.forall_mem_nil _
  | _, (k, child) :: fields, h => by
    simp only [assertMembers, bind_ok, require_ok, Bool.not_eq_true', List.contains_eq_mem,
      decide_eq_false_iff_not] at h
    refine List.forall_mem_cons.2 ⟨⟨?_, not_hasKey_of_assert hkey h.2.1⟩,
      not_hasKey_of_members hkey h.2.2⟩
    rintro rfl
    exact h.1 hkey

end

/-! ## The assertion -/

def assertExactKeys (record : Json) (allowed : List String) (context : String) : Except String Unit :=
  forIndexed (fun key _ => require (allowed.contains key)
    (context ++ "." ++ key ++ " is not allowed in public quote snapshot")) 0 record.keys

/-- The check of an optional text. -/
def isTextWhenSupplied : Option Json → Bool
  | none => true
  | some v => isNonEmptyString (some v)

/-- A number that is a non-negative integer. -/
def isCount (v : Option Json) : Bool :=
  isIntegerNumber v && isNonNegative v

def isCountWhenSupplied : Option Json → Bool
  | none => true
  | some v => isCount (some v)

def assertStock (stock : Json) (index : ℕ) : Except String Unit := do
  let context := "public_quote_snapshot.stocks[" ++ toString index ++ "]"
  require (isRecord stock) (context ++ " must be an object")
  assertExactKeys stock PUBLIC_STOCK_KEYS context

def assertPublicQuotePrivacy (value : Json) : Except String Unit := do
  require (isRecord value) "public quote snapshot must be an object"
  assertNoForbiddenKeys "public_quote_snapshot" value
  assertExactKeys value PUBLIC_TOP_LEVEL_KEYS "public_quote_snapshot"
  require (decide (value.get? "schema_version" = some (.str PUBLIC_QUOTE_SNAPSHOT_SCHEMA)))
    ("schema_version must be " ++ PUBLIC_QUOTE_SNAPSHOT_SCHEMA)
  require (isNonEmptyString (value.get? "snapshot_time"))
    "public_quote_snapshot.snapshot_time must be a non-empty string"
  require (isTextWhenSupplied (value.get? "market_status"))
    "public_quote_snapshot.market_status must be a non-empty string when supplied"
  require (isTextWhenSupplied (value.get? "source_mode"))
    "public_quote_snapshot.source_mode must be a non-empty string when supplied"
  require (isNonEmptyString (value.get? "system_quality"))
    "public_quote_snapshot.system_quality must be a non-empty string"
  require (isObject (value.get? "summary")) "public_quote_snapshot.summary must be an object"
  let summary := summaryOf value
  assertExactKeys summary PUBLIC_SUMMARY_KEYS "public_quote_snapshot.summary"
  require (isCount (summary.get? "total"))
    "public_quote_snapshot.summary.total must be a non-negative integer"
  require (isCountWhenSupplied (summary.get? "usable"))
    "public_quote_snapshot.summary.usable must be a non-negative integer when supplied"
  require (isArray (value.get? "stocks")) "public_quote_snapshot.stocks must be an array"
  require (decide (summary.get? "total" = some (.num (.ofInt (stocks value).length))))
    "public_quote_snapshot.summary.total must match stocks.length"
  forIndexed assertStock 0 (stocks value)

/-! ## The projection -/

/-- A value that is neither absent nor null. -/
def supplied (v : Option Json) : Option Json :=
  v.filter (· ≠ .null)

def optionalString (value : Option Json) (field : String) : Except String (Option Json) :=
  match supplied value with
  | none => .ok none
  | some v => do
    require (isNonEmptyString (some v))
      ("snapshot." ++ field ++ " must be a non-empty string when supplied")
    return some v

def optionalUsable (value : Option Json) : Except String (Option Json) :=
  match supplied value with
  | none => .ok none
  | some v => do
    require (isCount (some v)) "summary.usable must be a non-negative integer when supplied"
    return some v

def pickPublicStock (stock : Json) : Json :=
  .obj (PUBLIC_STOCK_FIELDS.filterMap fun field => (stock.get? field).map (Prod.mk field))

/-- The field, where it has a value. -/
def fieldOf (key : String) (value : Option Json) : List (String × Json) :=
  (value.map (Prod.mk key)).toList

/-- The object that is projected from a snapshot. -/
def projected (catalog : Json) (marketStatus sourceMode usable : Option Json) : Json :=
  .obj ([("schema_version", .str PUBLIC_QUOTE_SNAPSHOT_SCHEMA)] ++
    fieldOf "snapshot_time" (catalog.get? "snapshot_time") ++
    fieldOf "system_quality" (catalog.get? "system_quality") ++
    [("summary", .obj (fieldOf "total" ((summaryOf catalog).get? "total") ++ fieldOf "usable" usable)),
      ("stocks", .arr ((stocks catalog).map pickPublicStock))] ++
    fieldOf "market_status" marketStatus ++ fieldOf "source_mode" sourceMode)

def toPublicQuoteSnapshot (catalog : Json) : Except String Json := do
  validateSnapshot .none catalog
  let marketStatus ← optionalString (catalog.get? "market_status") "market_status"
  let sourceMode ← optionalString (catalog.get? "source_mode") "source_mode"
  let usable ← optionalUsable ((summaryOf catalog).get? "usable")
  let snapshot := projected catalog marketStatus sourceMode usable
  assertPublicQuotePrivacy snapshot
  return snapshot

/-! ## What the projection depends on, and what it never holds -/

/-- Two snapshots agree on what is public. -/
structure AgreesPublicly (catalog catalog' : Json) : Prop where
  snapshot_time : catalog.get? "snapshot_time" = catalog'.get? "snapshot_time"
  market_status : catalog.get? "market_status" = catalog'.get? "market_status"
  source_mode : catalog.get? "source_mode" = catalog'.get? "source_mode"
  system_quality : catalog.get? "system_quality" = catalog'.get? "system_quality"
  usable : (summaryOf catalog).get? "usable" = (summaryOf catalog').get? "usable"
  rows : List.Forall₂ (fun stock stock' => ∀ field ∈ PUBLIC_STOCK_FIELDS,
    stock.get? field = stock'.get? field) (stocks catalog) (stocks catalog')

theorem pickPublicStock_congr {stock stock' : Json}
    (h : ∀ field ∈ PUBLIC_STOCK_FIELDS, stock.get? field = stock'.get? field) :
    pickPublicStock stock = pickPublicStock stock' := by
  unfold pickPublicStock
  congr 1
  exact List.filterMap_congr fun field hfield => by rw [h field hfield]

theorem pickPublicStocks_congr {rows rows' : List Json}
    (h : List.Forall₂ (fun stock stock' => ∀ field ∈ PUBLIC_STOCK_FIELDS,
      stock.get? field = stock'.get? field) rows rows') :
    rows.map pickPublicStock = rows'.map pickPublicStock := by
  induction h with
  | nil => rfl
  | cons hrow _ ih => rw [List.map_cons, List.map_cons, pickPublicStock_congr hrow, ih]

/-- The total of an accepted snapshot is the number of its rows, so it is public. -/
theorem projected_congr {catalog catalog' : Json} (h : Snapshot .none catalog)
    (h' : Snapshot .none catalog') (hagrees : AgreesPublicly catalog catalog')
    (marketStatus sourceMode usable : Option Json) :
    projected catalog marketStatus sourceMode usable =
      projected catalog' marketStatus sourceMode usable := by
  unfold projected
  rw [hagrees.snapshot_time, hagrees.system_quality, pickPublicStocks_congr hagrees.rows,
    h.totalRows, h'.totalRows, hagrees.rows.length_eq]

theorem toPublicQuoteSnapshot_congr {catalog catalog' : Json}
    (h : validateSnapshot .none catalog = .ok ()) (h' : validateSnapshot .none catalog' = .ok ())
    (hagrees : AgreesPublicly catalog catalog') :
    toPublicQuoteSnapshot catalog = toPublicQuoteSnapshot catalog' := by
  unfold toPublicQuoteSnapshot
  rw [h, h', hagrees.market_status, hagrees.source_mode, hagrees.usable]
  simp only [projected_congr (validateSnapshot_ok.1 h) (validateSnapshot_ok.1 h') hagrees]

/-- What is projected has passed the assertion. -/
theorem assert_of_toPublicQuoteSnapshot {catalog snapshot : Json}
    (h : toPublicQuoteSnapshot catalog = .ok snapshot) :
    assertPublicQuotePrivacy snapshot = .ok () := by
  simp only [toPublicQuoteSnapshot, bind_eq_ok] at h
  obtain ⟨_, -, marketStatus, -, sourceMode, -, usable, -, _, hassert, hreturn⟩ := h
  obtain rfl := Except.ok.inj hreturn
  exact hassert

theorem not_hasKey_of_privacy {snapshot : Json} (h : assertPublicQuotePrivacy snapshot = .ok ())
    {key : String} (hkey : key ∈ FORBIDDEN_KEYS) : ¬ HasKey key snapshot := by
  simp only [assertPublicQuotePrivacy, bind_ok] at h
  exact not_hasKey_of_assert hkey h.2.1

/-- **The public projection is private.** Accepted snapshots that agree on what is public have one
projection, and a projection has no forbidden key at any depth. -/
theorem projection_private (catalog : Json) (h : validateSnapshot .none catalog = .ok ()) :
    (∀ catalog', validateSnapshot .none catalog' = .ok () → AgreesPublicly catalog catalog' →
      toPublicQuoteSnapshot catalog = toPublicQuoteSnapshot catalog') ∧
    ∀ snapshot, toPublicQuoteSnapshot catalog = .ok snapshot →
      ∀ key ∈ FORBIDDEN_KEYS, ¬ HasKey key snapshot :=
  ⟨fun _ h' hagrees => toPublicQuoteSnapshot_congr h h' hagrees,
    fun _ hsnapshot _ hkey => not_hasKey_of_privacy (assert_of_toPublicQuoteSnapshot hsnapshot) hkey⟩

theorem projection_private_example :
    (∀ catalog', validateSnapshot .none catalog' = .ok () → AgreesPublicly exampleSnapshot catalog' →
      toPublicQuoteSnapshot exampleSnapshot = toPublicQuoteSnapshot catalog') ∧
    ∀ snapshot, toPublicQuoteSnapshot exampleSnapshot = .ok snapshot →
      ∀ key ∈ FORBIDDEN_KEYS, ¬ HasKey key snapshot :=
  projection_private exampleSnapshot validateSnapshot_exampleSnapshot

end QuantproCollector.QuoteBridge
