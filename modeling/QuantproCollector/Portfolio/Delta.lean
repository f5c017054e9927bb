import Mathlib.Data.List.Sort
import QuantproCollector.Lib.Run
import QuantproCollector.Platform

/-!
# The portfolio delta

The reducer that compares LIVE observations of the portfolio, and the call that keeps its state in
the key-value store. Observations and stored values are JSON values and are validated before they
count; a stored value is the value that its text parses to.
-/

namespace QuantproCollector.Portfolio

open Async

/-- What the reducer takes from its runtime. -/
structure Runtime where
  /-- `Date.parse(text)`, or `none` where it is `NaN`. -/
  dateParse : String → Option ℤ
  /-- `left.localeCompare(right)`. -/
  localeCompare : String → String → Ordering
  swap_localeCompare : ∀ a b, localeCompare b a = (localeCompare a b).swap
  trans_localeCompare : ∀ a b c, (localeCompare a b).isLE = true →
    (localeCompare b c).isLE = true → (localeCompare a c).isLE = true

/-! ## Contracts -/

def PORTFOLIO_UNIVERSE_BASELINE_SCHEMA : String := "portfolio_universe_complete_baseline_v1"

inductive PortfolioDeltaState where
  | LIVE_COMPLETE
  | LKG_VALID
  | PORTFOLIO_UNKNOWN
deriving DecidableEq

def PortfolioDeltaState.text : PortfolioDeltaState → String
  | .LIVE_COMPLETE => "LIVE_COMPLETE"
  | .LKG_VALID => "LKG_VALID"
  | .PORTFOLIO_UNKNOWN => "PORTFOLIO_UNKNOWN"

def STATES : List PortfolioDeltaState := [.LIVE_COMPLETE, .LKG_VALID, .PORTFOLIO_UNKNOWN]

/-- An observation, its codes canonical. -/
structure PortfolioUniverseObservation where
  state : PortfolioDeltaState
  current_complete_hash : String
  active_codes : List String
  observed_at : String
deriving DecidableEq

/-- The reducer's state. -/
structure PortfolioCompleteBaseline where
  current_complete_hash : String
  codes : List String
  observed_at : String
  eligible : Bool
  last_state : PortfolioDeltaState
  last_observed_hash : String
  last_observed_at : String
deriving DecidableEq

structure PortfolioUniverseDelta where
  previous_complete_hash : String
  current_complete_hash : String
  added_codes : List String
  removed_codes : List String
  observed_at : String
deriving DecidableEq

def BASELINE_KEYS : List String :=
  ["schema_version", "current_complete_hash", "codes", "observed_at", "eligible", "last_state",
    "last_observed_hash", "last_observed_at"]

def DELTA_KEYS : List String :=
  ["previous_complete_hash", "current_complete_hash", "added_codes", "removed_codes", "observed_at"]

def PortfolioCompleteBaseline.toJson (b : PortfolioCompleteBaseline) : Json :=
  .obj [("schema_version", .str PORTFOLIO_UNIVERSE_BASELINE_SCHEMA),
    ("current_complete_hash", .str b.current_complete_hash), ("codes", .arr (b.codes.map .str)),
    ("observed_at", .str b.observed_at), ("eligible", .bool b.eligible),
    ("last_state", .str b.last_state.text), ("last_observed_hash", .str b.last_observed_hash),
    ("last_observed_at", .str b.last_observed_at)]

def PortfolioUniverseDelta.toJson (d : PortfolioUniverseDelta) : Json :=
  .obj [("previous_complete_hash", .str d.previous_complete_hash),
    ("current_complete_hash", .str d.current_complete_hash),
    ("added_codes", .arr (d.added_codes.map .str)),
    ("removed_codes", .arr (d.removed_codes.map .str)), ("observed_at", .str d.observed_at)]

/-! ## Validation -/

def isRecord : Json → Bool
  | .obj _ => true
  | _ => false

def assertExactKeys (record : Json) (allowed : List String) (context : String) :
    Except String Unit :=
  match record.keys.find? fun key => !allowed.contains key with
  | some key => .error s!"{context}.{key} is not allowed"
  | none =>
    match allowed.find? fun key => !record.keys.contains key with
    | some key => .error s!"{context}.{key} is required"
    | none => .ok ()

/-- `/^sha256:[0-9a-f]{64}$/`. -/
def isHash (s : String) : Bool :=
  decide (s.toList.take 7 = "sha256:".toList) && (s.toList.drop 7).all isLowerHex &&
    decide ((s.toList.drop 7).length = 64)

/-- `/^(CN|HK):[0-9]{5,6}$/`. -/
def isCode (s : String) : Bool :=
  (decide (s.toList.take 3 = "CN:".toList) || decide (s.toList.take 3 = "HK:".toList)) &&
    (s.toList.drop 3).all Char.isDigit &&
      (decide ((s.toList.drop 3).length = 5) || decide ((s.toList.drop 3).length = 6))

def assertHash (value : Option Json) (context : String) : Except String String :=
  match value with
  | some (.str s) =>
    if isHash s then .ok s else .error s!"{context} must be sha256:<64 lowercase hex>"
  | _ => .error s!"{context} must be sha256:<64 lowercase hex>"

def assertTimestamp (P : Runtime) (value : Option Json) (context : String) :
    Except String String :=
  match value with
  | some (.str s) =>
    if s.toList.all isSpace then .error s!"{context} must be a non-empty timestamp"
    else if (P.dateParse s).isNone then .error s!"{context} must be a parseable timestamp"
    else .ok s
  | _ => .error s!"{context} must be a non-empty timestamp"

def assertState (value : Option Json) (context : String) : Except String PortfolioDeltaState :=
  match STATES.find? fun state => value = some (.str state.text) with
  | some state => .ok state
  | none => .error (context ++ " must be one of " ++ ", ".intercalate (STATES.map (·.text)))

/-- A value in a template text. -/
def templateText : Option Json → String
  | none => "undefined"
  | some v => v.text

def canonicalCode (value : Json) (context : String) : Except String String :=
  let check (candidate : String) : Except String String :=
    if isCode candidate then .ok candidate
    else .error s!"{context} must be CN:<5-6 digits> or HK:<5-6 digits>"
  match value with
  | .str s => check s
  | .obj _ => check (templateText (value.get? "market") ++ ":" ++ templateText (value.get? "code"))
  | _ => .error s!"{context} must be a market:code string or object"

/-- The codes of an array's values, from an index on. -/
def canonicalCodesFrom (context : String) : ℕ → List Json → Except String (List String)
  | _, [] => .ok []
  | index, value :: values => do
    let code ← canonicalCode value (context ++ "[" ++ toString index ++ "]")
    let codes ← canonicalCodesFrom context (index + 1) values
    return code :: codes

/-- `left` comes before `right`, or they compare equal. -/
def codeLe (P : Runtime) (left right : String) : Prop :=
  (P.localeCompare left right).isLE = true

instance (P : Runtime) : DecidableRel (codeLe P) := fun _ _ => inferInstanceAs (Decidable (_ = true))

def sortCodes (P : Runtime) (codes : List String) : List String :=
  codes.insertionSort (codeLe P)

def canonicalPortfolioCodes (P : Runtime) (values : Option Json) (context : String) :
    Except String (List String) :=
  match values with
  | some (.arr values) => do
    let result ← canonicalCodesFrom context 0 values
    if result.dedup.length ≠ result.length then
      throw s!"{context} contains duplicate code identities"
    else return sortCodes P result
  | _ => .error s!"{context} must be an array"

def assertCanonicalCodes (P : Runtime) (value : Option Json) (context : String) :
    Except String (List String) :=
  match value with
  | some (.arr values) => do
    let codes ← canonicalCodesFrom context 0 values
    if codes.map Json.str ≠ values then
      throw s!"{context} must contain canonical market:code strings only"
    else if codes.dedup.length ≠ codes.length then
      throw s!"{context} contains duplicate code identities"
    else if sortCodes P codes ≠ codes then throw s!"{context} must be sorted canonically"
    else return codes
  | _ => .error s!"{context} must be an array"

def assertNoOverlap (added removed : List String) : Except String Unit :=
  if added.any removed.contains then
    .error "delta added_codes and removed_codes must not overlap"
  else .ok ()

/-- The instant of a timestamp. -/
def instant (P : Runtime) (timestamp : String) : ℤ :=
  (P.dateParse timestamp).getD 0

/-- `Date.parse(left) - Date.parse(right)`, of two timestamps. -/
def compareObservationTime (P : Runtime) (left right : String) : ℤ :=
  instant P left - instant P right

def validateObservation (P : Runtime) (value : Json) :
    Except String PortfolioUniverseObservation :=
  if !isRecord value then .error "portfolio delta observation must be an object"
  else do
    let state ← assertState (value.get? "state") "observation.state"
    let currentCompleteHash ← assertHash (value.get? "current_complete_hash")
      "observation.current_complete_hash"
    let observedAt ← assertTimestamp P (value.get? "observed_at") "observation.observed_at"
    let activeCodes ← canonicalPortfolioCodes P (value.get? "active_codes")
      "observation.active_codes"
    return ⟨state, currentCompleteHash, activeCodes, observedAt⟩

def assertBoolean (value : Option Json) (context : String) : Except String Bool :=
  match value with
  | some (.bool b) => .ok b
  | _ => .error s!"{context} must be boolean"

def assertSchemaVersion (value : Json) : Except String Unit :=
  if value.get? "schema_version" ≠ some (.str PORTFOLIO_UNIVERSE_BASELINE_SCHEMA) then
    .error ("schema_version must be " ++ PORTFOLIO_UNIVERSE_BASELINE_SCHEMA)
  else .ok ()

def validatePortfolioCompleteBaseline (P : Runtime) (value : Json) :
    Except String PortfolioCompleteBaseline :=
  if !isRecord value then .error "portfolio complete baseline must be an object"
  else do
    assertExactKeys value BASELINE_KEYS "portfolio_complete_baseline"
    assertSchemaVersion value
    let currentHash ← assertHash (value.get? "current_complete_hash") "current_complete_hash"
    let codes ← assertCanonicalCodes P (value.get? "codes") "codes"
    let observedAt ← assertTimestamp P (value.get? "observed_at") "observed_at"
    let eligible ← assertBoolean (value.get? "eligible") "eligible"
    let lastState ← assertState (value.get? "last_state") "last_state"
    let lastObservedHash ← assertHash (value.get? "last_observed_hash") "last_observed_hash"
    let lastObservedAt ← assertTimestamp P (value.get? "last_observed_at") "last_observed_at"
    if eligible ≠ decide (lastState = .LIVE_COMPLETE) then throw "eligible must match last_state"
    else if compareObservationTime P lastObservedAt observedAt < 0 then
      throw "last_observed_at cannot precede observed_at"
    else
      return ⟨currentHash, codes, observedAt, eligible, lastState, lastObservedHash, lastObservedAt⟩

def validatePortfolioUniverseDelta (P : Runtime) (value : Json) :
    Except String PortfolioUniverseDelta :=
  if !isRecord value then .error "portfolio universe delta must be an object"
  else do
    assertExactKeys value DELTA_KEYS "portfolio_universe_delta"
    let previousHash ← assertHash (value.get? "previous_complete_hash") "previous_complete_hash"
    let currentHash ← assertHash (value.get? "current_complete_hash") "current_complete_hash"
    if previousHash = currentHash then throw "delta hashes must differ"
    else
      let addedCodes ← assertCanonicalCodes P (value.get? "added_codes") "added_codes"
      let removedCodes ← assertCanonicalCodes P (value.get? "removed_codes") "removed_codes"
      assertNoOverlap addedCodes removedCodes
      let observedAt ← assertTimestamp P (value.get? "observed_at") "observed_at"
      return ⟨previousHash, currentHash, addedCodes, removedCodes, observedAt⟩

/-! ## The reducer -/

structure PortfolioDeltaReduction where
  baseline : Option PortfolioCompleteBaseline
  delta : Option PortfolioUniverseDelta
deriving DecidableEq

/-- A complete observation at the same instant as the last one, with another state or hash. -/
def sameTimestampConflict (P : Runtime) (observation : PortfolioUniverseObservation)
    (baseline : PortfolioCompleteBaseline) : Bool :=
  decide (compareObservationTime P observation.observed_at baseline.last_observed_at = 0 ∧
    (observation.state ≠ baseline.last_state ∨
      observation.current_complete_hash ≠ baseline.last_observed_hash))

/-- The baseline after an incomplete observation. -/
def interrupted (baseline : PortfolioCompleteBaseline)
    (observation : PortfolioUniverseObservation) : PortfolioCompleteBaseline :=
  { baseline with
    eligible := false
    last_state := observation.state
    last_observed_hash := observation.current_complete_hash
    last_observed_at := observation.observed_at }

/-- The baseline after a complete observation. -/
def nextBaseline (observation : PortfolioUniverseObservation) : PortfolioCompleteBaseline where
  current_complete_hash := observation.current_complete_hash
  codes := observation.active_codes
  observed_at := observation.observed_at
  eligible := true
  last_state := .LIVE_COMPLETE
  last_observed_hash := observation.current_complete_hash
  last_observed_at := observation.observed_at

/-- What changed from a baseline to a complete observation. -/
def deltaOf (baseline : PortfolioCompleteBaseline) (observation : PortfolioUniverseObservation) :
    PortfolioUniverseDelta where
  previous_complete_hash := baseline.current_complete_hash
  current_complete_hash := observation.current_complete_hash
  added_codes := observation.active_codes.filter fun code => !baseline.codes.contains code
  removed_codes := baseline.codes.filter fun code => !observation.active_codes.contains code
  observed_at := observation.observed_at

/-- The reduction of a normalized observation by a validated baseline. -/
def reduceObservation (P : Runtime) (baseline : Option PortfolioCompleteBaseline)
    (observation : PortfolioUniverseObservation) : Except String PortfolioDeltaReduction :=
  if baseline.any fun b =>
      decide (compareObservationTime P observation.observed_at b.last_observed_at < 0) then
    .ok ⟨baseline, none⟩
  else if observation.state ≠ .LIVE_COMPLETE then
    .ok ⟨baseline.map (interrupted · observation), none⟩
  else
    match baseline with
    | none => .ok ⟨some (nextBaseline observation), none⟩
    | some b =>
      if !b.eligible || sameTimestampConflict P observation b then
        .ok ⟨some (nextBaseline observation), none⟩
      else if b.current_complete_hash = observation.current_complete_hash then
        .ok ⟨some (nextBaseline observation), none⟩
      else do
        let delta ← validatePortfolioUniverseDelta P (deltaOf b observation).toJson
        return ⟨some (nextBaseline observation), some delta⟩

def reducePortfolioUniverseDelta (P : Runtime) (previous : Option PortfolioCompleteBaseline)
    (current : Json) : Except String PortfolioDeltaReduction := do
  let observation ← validateObservation P current
  match previous with
  | none => reduceObservation P none observation
  | some previous =>
    let baseline ← validatePortfolioCompleteBaseline P previous.toJson
    reduceObservation P (some baseline) observation

/-! ## The store -/

/-- The two keys of the store. A value is what its text parses to, `none` where it is not JSON. -/
structure World where
  baseline : Option (Option Json)
  delta : Option (Option Json)
deriving DecidableEq

def World.empty : World := ⟨none, none⟩

inductive Op where
  | getBaseline
  | getDelta
  | putDelta (value : Json)
  | putBaseline (value : Json)
deriving DecidableEq

abbrev Res : Op → Type
  | .getBaseline => Option (Option Json)
  | .getDelta => Option (Option Json)
  | .putDelta _ => Unit
  | .putBaseline _ => Unit

/-- What a call can throw; `raw` is a failure of the store. -/
inductive Thrown where
  | error (message : String)
  | raw
deriving DecidableEq

abbrev Program (α : Type) := Script Thrown Op Res α

/-- A validation's failure is thrown. -/
def orThrow {α : Type} : Except String α → Program α
  | .ok a => pure a
  | .error message => throw (Thrown.error message)

def readJson (raw : Option (Option Json)) (description : String) : Program (Option Json) :=
  match raw with
  | none => pure none
  | some none => throw (Thrown.error s!"{description} is invalid JSON")
  | some (some value) => pure (some value)

def readPortfolioCompleteBaseline (P : Runtime) : Program (Option PortfolioCompleteBaseline) := do
  let raw ← Script.perform Op.getBaseline
  let parsed ← readJson raw "stored portfolio baseline"
  match parsed with
  | none | some .null => pure none
  | some value => some <$> orThrow (validatePortfolioCompleteBaseline P value)

def readPortfolioUniverseDelta (P : Runtime) : Program (Option PortfolioUniverseDelta) := do
  let raw ← Script.perform Op.getDelta
  let parsed ← readJson raw "stored portfolio delta"
  match parsed with
  | none | some .null => pure none
  | some value => some <$> orThrow (validatePortfolioUniverseDelta P value)

def writePortfolioCompleteBaseline (P : Runtime) (value : PortfolioCompleteBaseline) :
    Program Unit := do
  let validated ← orThrow (validatePortfolioCompleteBaseline P value.toJson)
  Script.perform (Op.putBaseline validated.toJson)

def writePortfolioUniverseDelta (P : Runtime) (value : PortfolioUniverseDelta) : Program Unit := do
  let validated ← orThrow (validatePortfolioUniverseDelta P value.toJson)
  Script.perform (Op.putDelta validated.toJson)

/-- The writes of a reduction, the delta before the baseline. -/
def writeReduction (P : Runtime) (reduction : PortfolioDeltaReduction) :
    Program (Option PortfolioUniverseDelta) := do
  match reduction.delta with
  | none => pure ()
  | some delta => writePortfolioUniverseDelta P delta
  match reduction.baseline with
  | none => pure ()
  | some baseline => writePortfolioCompleteBaseline P baseline
  pure reduction.delta

def recordPortfolioUniverseObservation (P : Runtime) (observation : Json) :
    Program (Option PortfolioUniverseDelta) := do
  let previous ← readPortfolioCompleteBaseline P
  let _ ← readPortfolioUniverseDelta P
  let reduction ← orThrow (reducePortfolioUniverseDelta P previous observation)
  writeReduction P reduction

/-- Whether and where an operation fails. -/
inductive Fault where
  | none
  | before
  | after
deriving DecidableEq

def answer : (op : Op) → World → Res op
  | .getBaseline, w => w.baseline
  | .getDelta, w => w.delta
  | .putDelta _, _ => ()
  | .putBaseline _, _ => ()

def effect : Op → World → World
  | .putDelta value, w => { w with delta := some (some value) }
  | .putBaseline value, w => { w with baseline := some (some value) }
  | _, w => w

def perform (f : Fault) (op : Op) (w : World) : Except Thrown (Res op) × World :=
  match f with
  | .none => (.ok (answer op w), effect op w)
  | .before => (.error .raw, w)
  | .after => (.error .raw, effect op w)

def machine : Machine Thrown Op Res World Fault where
  perform := perform

end QuantproCollector.Portfolio
