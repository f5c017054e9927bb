import QuantproCollector.LiveUniverse.Snapshot

/-!
# The live universe

The universe of held instruments, its validation, the coverage of its instruments by a snapshot and
the overlay that makes the universe the authority on what is held.
-/

namespace QuantproCollector.LiveUniverse

open Portfolio (Runtime isRecord isHash templateText)

def LIVE_UNIVERSE_SCHEMA : String := "quote-universe/1"

inductive Market where
  | CN
  | HK
deriving DecidableEq

def Market.text : Market → String
  | .CN => "CN"
  | .HK => "HK"

inductive Exchange where
  | SH
  | SZ
  | BJ
  | HK
deriving DecidableEq

def Exchange.text : Exchange → String
  | .SH => "SH"
  | .SZ => "SZ"
  | .BJ => "BJ"
  | .HK => "HK"

structure LiveUniverseItem where
  market : Market
  exchange : Exchange
  code : String
deriving DecidableEq

structure LiveUniversePayload where
  generated_at : String
  source_manifest_hash : String
  active : List LiveUniverseItem
  content_hash : String
deriving DecidableEq

structure StoredLiveUniverse extends LiveUniversePayload where
  received_at : String
deriving DecidableEq

inductive CoverageStatus where
  | COMPLETE
  | INCOMPLETE
deriving DecidableEq

structure LiveUniverseCoverage where
  status : CoverageStatus
  active_count : ℕ
  quoted_active_count : ℕ
  missing_active : List String
deriving DecidableEq

def TOP_LEVEL_KEYS : List String :=
  ["schema_version", "generated_at", "source_manifest_hash", "active", "content_hash"]

def ITEM_KEYS : List String := ["market", "exchange", "code"]

/-! ## Validation -/

/-- The check refuses a key that is not allowed; a missing key is left to the fields' checks. -/
def assertExactKeys (record : Json) (allowed : List String) (context : String) :
    Except String Unit :=
  match record.keys.find? fun key => !allowed.contains key with
  | some key => .error s!"{context}.{key} is not allowed"
  | none => .ok ()

/-- `/^\d{5,6}$/`. -/
def isCodeText (s : String) : Bool :=
  s.toList.all Char.isDigit &&
    (decide (s.toList.length = 5) || decide (s.toList.length = 6))

def parseMarket (value : Option Json) (context : String) : Except String Market :=
  match value with
  | some (.str "CN") => .ok .CN
  | some (.str "HK") => .ok .HK
  | _ => .error s!"{context}.market must be CN or HK"

def parseExchange (value : Option Json) (context : String) : Except String Exchange :=
  match value with
  | some (.str "SH") => .ok .SH
  | some (.str "SZ") => .ok .SZ
  | some (.str "BJ") => .ok .BJ
  | some (.str "HK") => .ok .HK
  | _ => .error s!"{context}.exchange is invalid"

def parseCode (value : Option Json) (context : String) : Except String String :=
  match value with
  | some (.str s) =>
    if isCodeText s then .ok s else .error s!"{context}.code must be a 5-6 digit string"
  | _ => .error s!"{context}.code must be a 5-6 digit string"

def normalizeItem (value : Json) (index : ℕ) : Except String LiveUniverseItem := do
  let context := "active[" ++ toString index ++ "]"
  require (isRecord value) s!"{context} must be an object"
  assertExactKeys value ITEM_KEYS context
  let market ← parseMarket (value.get? "market") context
  let exchange ← parseExchange (value.get? "exchange") context
  require (!((decide (market = .HK) && decide (exchange ≠ .HK)) ||
      (decide (market = .CN) && decide (exchange = .HK))))
    s!"{context}.market and exchange are inconsistent"
  let code ← parseCode (value.get? "code") context
  return ⟨market, exchange, code⟩

/-- The items of an array's values, from an index on. -/
def normalizeItems : ℕ → List Json → Except String (List LiveUniverseItem)
  | _, [] => .ok []
  | index, value :: values => do
    let item ← normalizeItem value index
    let items ← normalizeItems (index + 1) values
    return item :: items

/-- The text that the items are sorted by. -/
def canonicalKey (item : LiveUniverseItem) : String :=
  item.market.text ++ ":" ++ item.exchange.text ++ ":" ++ item.code

def itemLe (R : Runtime) (a b : LiveUniverseItem) : Prop :=
  (R.localeCompare (canonicalKey a) (canonicalKey b)).isLE = true

instance (R : Runtime) : DecidableRel (itemLe R) :=
  fun _ _ => inferInstanceAs (Decidable (_ = true))

def canonicalActive (R : Runtime) (active : List LiveUniverseItem) : List LiveUniverseItem :=
  active.insertionSort (itemLe R)

def liveInstrumentKey (item : LiveUniverseItem) : String :=
  item.market.text ++ ":" ++ item.code

/-- The text of the sorted items, each with its keys in order. -/
def canonicalUniverseText (R : Runtime) (active : List LiveUniverseItem) : String :=
  (Json.obj [("active", .arr ((canonicalActive R active).map fun item =>
    .obj [("code", .str item.code), ("exchange", .str item.exchange.text),
      ("market", .str item.market.text)]))]).stringify

def computeLiveUniverseHash (P : Platform) (R : Runtime) (active : List LiveUniverseItem) : String :=
  "sha256:" ++ P.sha256Hex (canonicalUniverseText R active)

/-- The first item whose key is among `seen`, or comes again. -/
def duplicateItem (seen : List String) : List LiveUniverseItem → Option String
  | [] => none
  | item :: items =>
    if seen.contains (liveInstrumentKey item) then some (liveInstrumentKey item)
    else duplicateItem (liveInstrumentKey item :: seen) items

def isHashText : Option Json → Bool
  | some (.str s) => isHash s
  | _ => false

/-- A text that is not blank. -/
def isNonBlank : Option Json → Bool
  | some (.str s) => !s.toList.all isSpace
  | _ => false

def textOf (value : Option Json) : String :=
  (value.bind Json.str?).getD ""

def validateLiveUniverse (P : Platform) (R : Runtime) (value : Json) :
    Except String LiveUniversePayload := do
  require (isRecord value) "quote universe must be an object"
  assertExactKeys value TOP_LEVEL_KEYS "quote_universe"
  require (decide (value.get? "schema_version" = some (.str LIVE_UNIVERSE_SCHEMA)))
    ("schema_version must be " ++ LIVE_UNIVERSE_SCHEMA)
  require (isNonBlank (value.get? "generated_at")) "generated_at must be a non-empty string"
  require (isHashText (value.get? "source_manifest_hash"))
    "source_manifest_hash must be sha256:<64 lowercase hex>"
  require (isHashText (value.get? "content_hash"))
    "content_hash must be sha256:<64 lowercase hex>"
  require (isArray (value.get? "active")) "active must be an array"
  require (decide ((elements (value.get? "active")).length ≤ 200))
    "active may contain at most 200 instruments"
  let active ← normalizeItems 0 (elements (value.get? "active"))
  match duplicateItem [] active with
  | some key => throw ("duplicate active instrument: " ++ key)
  | none =>
    let computed := computeLiveUniverseHash P R active
    require (decide (computed = textOf (value.get? "content_hash")))
      ("content_hash mismatch: expected " ++ computed)
    return ⟨textOf (value.get? "generated_at"), textOf (value.get? "source_manifest_hash"),
      canonicalActive R active, textOf (value.get? "content_hash")⟩

/-! ## Coverage -/

def getLiveUniverseCoverage (snapshot : Json) (U : StoredLiveUniverse) : LiveUniverseCoverage :=
  let quoted := (stocks snapshot).map instrumentKey
  let missing := (U.active.map liveInstrumentKey).filter fun key => !quoted.contains key
  { status := if missing.length = 0 then .COMPLETE else .INCOMPLETE
    active_count := U.active.length
    quoted_active_count := U.active.length - missing.length
    missing_active := missing }

/-! ## The overlay -/

/-- A row held: its position is a fact of the universe, its quantity is not told. -/
def heldUpdate : List (String × Json) :=
  [("is_position", .bool true), ("position_qty", .null), ("holding_status", .str "ACTIVE")]

/-- A row that is not held, with its status. -/
def unheldUpdate (status : String) : List (String × Json) :=
  [("is_position", .bool false), ("position_qty", .num (.ofInt 0)), ("holding_status", .str status)]

/-- What becomes of a row; a row of another group stays only where it is held. -/
def overlayRow (held : Bool) (original : Json) : Option Json :=
  if truthy (original.get? "mapping_only") || inGroup "mapping" original then
    some (original.assign (if held then heldUpdate else unheldUpdate "MAPPING_ONLY"))
  else if inGroup "watch" original then
    some (original.assign (if held then heldUpdate else unheldUpdate "WATCH"))
  else if held then some (original.assign heldUpdate)
  else none

/-- The universe's keys hold the row's. -/
def isHeld (U : StoredLiveUniverse) (original : Json) : Bool :=
  (U.active.map liveInstrumentKey).contains (instrumentKey original)

def overlayRows (U : StoredLiveUniverse) (rows : List Json) : List Json :=
  rows.filterMap fun original => overlayRow (isHeld U original) original

/-- The universe item of a row; a field the row does not have is left out. -/
def toUniverseItem (stock : Json) : Json :=
  .obj (UNIVERSE_FIELDS.filterMap fun field => (stock.get? field).map (Prod.mk field))

def liveUniverseField (U : StoredLiveUniverse) : Json :=
  .obj [("schema_version", .str LIVE_UNIVERSE_SCHEMA), ("generated_at", .str U.generated_at),
    ("source_manifest_hash", .str U.source_manifest_hash), ("content_hash", .str U.content_hash),
    ("received_at", .str U.received_at), ("active_count", .num (.ofInt U.active.length))]

/-- The summary's fields that the overlay writes. -/
def overlaySummary (rows : List Json) : List (String × ℕ) :=
  let mappingTotal := rows.countP (inGroup "mapping")
  let activeHoldingTotal := rows.countP isPosition
  [("total", rows.length), ("active_quote_total", activeHoldingTotal + mappingTotal),
    ("active_holding_total", activeHoldingTotal), ("watch_total", rows.countP (inGroup "watch")),
    ("exited_watch_total", 0), ("mapping_total", mappingTotal),
    ("core_total", rows.countP (inGroup "core")), ("growth_total", rows.countP (inGroup "growth"))]

def countField (field : String × ℕ) : String × Json :=
  (field.1, .num (.ofInt field.2))

/-- The summary of the overlaid rows. -/
def overlaidSummary (snapshot : Json) (rows : List Json) : Json :=
  ((snapshot.get? "summary").getD .null).assign ((overlaySummary rows).map countField)

/-- The fields that the overlay writes. -/
def overlayFields (snapshot : Json) (U : StoredLiveUniverse) (rows : List Json) :
    List (String × Json) :=
  [("portfolio_version", .str ("live:" ++ U.content_hash)),
    ("live_universe", liveUniverseField U),
    ("summary", overlaidSummary snapshot rows),
    ("portfolio_universe", .arr (rows.map toUniverseItem)),
    ("stocks", .arr rows)]

def applyLiveUniverse (snapshot : Json) (U : StoredLiveUniverse) : Json :=
  snapshot.assign (overlayFields snapshot U (overlayRows U (stocks snapshot)))

/-! ## The caller's projection -/

inductive LiveOverlayStatus where
  | ENABLED
  | SKIPPED_UNAUTHORIZED
  | SKIPPED_TOKEN_NOT_CONFIGURED
  | SKIPPED_INSUFFICIENT_SCOPE
deriving DecidableEq

inductive LiveOverlayCoverage where
  | NOT_CONFIGURED
  | COMPLETE
  | SKIPPED_PORTFOLIO_NOT_CONFIRMED
  | gate (status : LiveOverlayStatus)
deriving DecidableEq

structure LiveOverlayOutcome where
  snapshot : Json
  applied : Bool
  coverage : LiveOverlayCoverage

structure CallerProjectionInput where
  snapshot : Json
  liveOverlayStatus : LiveOverlayStatus
  universeBound : Bool
  storedUniverse : Option StoredLiveUniverse
  applyOverlay : Bool

/-- The projection, or the coverage that it fails with. -/
def projectCallerSnapshot (input : CallerProjectionInput) :
    Except LiveUniverseCoverage LiveOverlayOutcome :=
  if !input.universeBound then .ok ⟨input.snapshot, false, .NOT_CONFIGURED⟩
  else if input.liveOverlayStatus ≠ .ENABLED then
    .ok ⟨input.snapshot, false, .gate input.liveOverlayStatus⟩
  else
    match input.storedUniverse with
    | none => .ok ⟨input.snapshot, false, .NOT_CONFIGURED⟩
    | some U =>
      if !input.applyOverlay then .ok ⟨input.snapshot, false, .SKIPPED_PORTFOLIO_NOT_CONFIRMED⟩
      else if (getLiveUniverseCoverage input.snapshot U).status ≠ .COMPLETE then
        .error (getLiveUniverseCoverage input.snapshot U)
      else .ok ⟨applyLiveUniverse input.snapshot U, true, .COMPLETE⟩

end QuantproCollector.LiveUniverse
