import Mathlib.Data.Rat.Floor
import QuantproCollector.Platform

/-!
# The reconcile of the official meters

Model of the reads, the circuit evaluation and the upsert of `src/scripts/cf_quota_meter_reconcile.py`. The
answers of the API are values as Python loads them; an exception is one that the script records
(`OfficialApiError`) or one that ends it. Either way nothing is written.

Floats are rational numbers, infinities and `nan`; the conversion of an integer, the builtin sum of floats,
the reading of a number from a text and the two conversions of times are the runtime's.
-/

namespace QuantproCollector.OfficialMeters

/-! ## Python -/

inductive Double where
  | fin (q : ℚ)
  | inf (negative : Bool)
  | nan
deriving DecidableEq

/-- A value that `json.loads` returns. -/
inductive Py where
  | null
  | bool (b : Bool)
  | int (n : ℤ)
  | float (x : Double)
  | str (s : String)
  | list (xs : List Py)
  | dict (fields : List (String × Py))

/-- What the script takes from its runtime; `none` is an exception. -/
structure Runtime where
  /-- `float(n)` of an integer. -/
  ofInt : ℤ → Option Double
  /-- `sum(xs)` of floats; of none it is 0. -/
  sum : List Double → Double
  /-- `int(text)`. -/
  intOfText : String → Option ℤ
  /-- `float(text)`. -/
  floatOfText : String → Option Double
  /-- `strptime(text, "%Y-%m-%dT%H:%M:%SZ")`, in seconds. -/
  strptime : String → Option ℤ
  /-- `iso_z`. -/
  isoZ : ℤ → String

/-- How a read fails. -/
inductive Failure where
  | official
  | raised
deriving DecidableEq

abbrev Result (α : Type) : Type := Except Failure α

def Py.truthy : Py → Bool
  | .null => false
  | .bool b => b
  | .int n => n != 0
  | .float (.fin q) => q != 0
  | .float _ => true
  | .str s => s != ""
  | .list xs => !xs.isEmpty
  | .dict fields => !fields.isEmpty

/-- `value.get(key)`, `none` where the key is missing. -/
def Py.get (v : Py) (key : String) : Result (Option Py) :=
  match v with
  | .dict fields => .ok (fields.lookup key)
  | _ => .error .raised

/-- `value.get(key) or default`. -/
def Py.getOr (v : Py) (key : String) (default : Py) : Result Py :=
  (v.get key).map fun x =>
    match x with
    | some x => if x.truthy then x else default
    | none => default

/-- `value[key]`, of a text. -/
def Py.item (v : Py) (key : String) : Result Py :=
  match v with
  | .dict fields =>
    match fields.lookup key with
    | some x => .ok x
    | none => .error .raised
  | _ => .error .raised

/-- `value[0]`. -/
def Py.first : Py → Result Py
  | .list (x :: _) => .ok x
  | .str s => .ok (.str (String.ofList (s.toList.take 1)))
  | _ => .error .raised

/-- The elements that `for` goes through; those of a text or the keys of a dictionary are texts. -/
def Py.elements : Py → Result (List Py)
  | .list xs => .ok xs
  | .str s => .ok (s.toList.map fun c => .str (String.ofList [c]))
  | .dict fields => .ok (fields.map fun f => .str f.1)
  | _ => .error .raised

/-- `key in value`. -/
def Py.has (v : Py) (key : String) : Result Bool :=
  match v with
  | .dict fields => .ok (fields.lookup key).isSome
  | .list xs => .ok (xs.any fun x =>
      match x with
      | .str s => s == key
      | _ => false)
  | .str s => .ok (includes s key)
  | _ => .error .raised

def raisedIfNone {α : Type} : Option α → Result α
  | some a => .ok a
  | none => .error .raised

/-- `int(value)`. -/
def pyInt (R : Runtime) : Py → Result ℤ
  | .int n => .ok n
  | .bool b => .ok (if b then 1 else 0)
  | .float (.fin q) => .ok (Int.tdiv q.num q.den)
  | .str s => raisedIfNone (R.intOfText s)
  | _ => .error .raised

/-- `float(value)`. -/
def pyFloat (R : Runtime) : Py → Result Double
  | .int n => raisedIfNone (R.ofInt n)
  | .bool b => .ok (.fin (if b then 1 else 0))
  | .float x => .ok x
  | .str s => raisedIfNone (R.floatOfText s)
  | _ => .error .raised

/-- `x >= n` of an integer. -/
def Double.ge (x : Double) (n : ℕ) : Bool :=
  match x with
  | .fin q => decide ((n : ℚ) ≤ q)
  | .inf negative => !negative
  | .nan => false

/-! ## The official API -/

/-- A response as `http_json` returns it, or its failure. -/
abbrev Response : Type := Result Py

def graphql (response : Response) : Result Py := do
  let body ← response
  let errors ← body.get "errors"
  if errors.any Py.truthy then .error .official
  else match ← body.get "data" with
    | some (.dict fields) => .ok (.dict fields)
    | _ => .error .official

/-- The first account of a GraphQL answer. -/
def firstAccount (response : Response) : Result Py := do
  let data ← graphql response
  let viewer ← data.get "viewer"
  let accounts ← (viewer.getD (.dict [])).getOr "accounts" (.list [])
  if accounts.truthy then accounts.first else .error .official

structure Period where
  start : Py
  finish : Py

def WORKERS_PRODUCT_NAME : String := "prod_workers"
def WORKERS_RATE_PLAN_ID : String := "workers_paid"

/-- `value == text`, where a missing value stands for the empty text. -/
def isText (v : Option Py) (text : String) : Bool :=
  match v with
  | some (.str s) => s == text
  | some _ => false
  | none => "" == text

/-- The search of the subscription: the first that matches has to have a period. -/
def findPeriod : List Py → Result Period
  | [] => .error .official
  | sub :: subs => do
    let product ← (← sub.getOr "product" (.dict [])).get "name"
    let ratePlan ← (← sub.getOr "rate_plan" (.dict [])).get "id"
    if isText product WORKERS_PRODUCT_NAME && isText ratePlan WORKERS_RATE_PLAN_ID then
      match ← sub.get "current_period_start", ← sub.get "current_period_end" with
      | some start, some finish =>
        if start.truthy && finish.truthy then .ok ⟨start, finish⟩ else .error .official
      | _, _ => .error .official
    else findPeriod subs

def fetch_workers_paid_period (response : Response) : Result Period := do
  let body ← response
  let subs ← (← body.getOr "result" (.list [])).elements
  findPeriod subs

structure Day where
  date : Py
  rows_read : ℤ
  rows_written : ℤ

structure D1Data where
  window_start : String
  window_end : String
  days : List Day

def D1Data.rows_read (d : D1Data) : ℤ := (d.days.map Day.rows_read).sum
def D1Data.rows_written (d : D1Data) : ℤ := (d.days.map Day.rows_written).sum

def dayOf (R : Runtime) (group : Py) : Result Day := do
  let date ← (← group.item "dimensions").item "date"
  let rowsRead ← pyInt R (← (← group.item "sum").item "rowsRead")
  let rowsWritten ← pyInt R (← (← group.item "sum").item "rowsWritten")
  .ok ⟨date, rowsRead, rowsWritten⟩

/-- 32 days, in seconds. -/
def MAX_RANGE : ℤ := 32 * 86400

/-- The time that the query starts from: the start of the period, or 32 days before the run. -/
def queriedFrom (start finish : ℤ) : ℤ :=
  if finish - start > MAX_RANGE then finish - MAX_RANGE else start

/-- The start as it is written into the query. -/
def clampedStart (R : Runtime) (start finish : String) : Result String := do
  let startTime ← raisedIfNone (R.strptime start)
  let finishTime ← raisedIfNone (R.strptime finish)
  .ok (if finishTime - startTime > MAX_RANGE then R.isoZ (queriedFrom startTime finishTime) else start)

def d1Dataset : String := "d1AnalyticsAdaptiveGroups"
def aiDataset : String := "aiInferenceAdaptiveGroups"

def fetch_d1_cycle (R : Runtime) (start : Py) (finish : String) (response : Response) : Result D1Data :=
  match start with
  | .str start => do
    let window ← clampedStart R start finish
    let account ← firstAccount response
    let groups ← (← account.getOr d1Dataset (.list [])).elements
    let days ← groups.mapM (dayOf R)
    .ok ⟨window, finish, days⟩
  | _ => .error .raised

structure AiData where
  hours : List (Py × Double)

def hourOf (R : Runtime) (group : Py) : Result (Py × Double) := do
  let hour ← (← group.item "dimensions").item "datetimeHour"
  let neurons ← pyFloat R (← (← group.item "sum").item "totalNeurons")
  .ok (hour, neurons)

def AiData.total_neurons (R : Runtime) (d : AiData) : Double := R.sum (d.hours.map Prod.snd)

def fetch_ai_day (R : Runtime) (response : Response) : Result AiData := do
  let account ← firstAccount response
  let groups ← (← account.getOr aiDataset (.list [])).elements
  let hours ← groups.mapM (hourOf R)
  .ok ⟨hours⟩

/-- The keys that the answer has to have. -/
def requireKeys (result : Py) : List String → Result Unit
  | [] => .ok ()
  | key :: keys => do
    if ← result.has key then requireKeys result keys else .error .official

def fetch_vectorize_info (R : Runtime) (response : Response) : Result (ℤ × ℤ) := do
  let body ← response
  let success ← body.get "success"
  if !success.any Py.truthy then .error .official
  else do
    let result ← body.getOr "result" (.dict [])
    requireKeys result ["dimensions", "vectorCount", "processedUpToDatetime"]
    let dimensions ← pyInt R (← result.item "dimensions")
    let vectorCount ← pyInt R (← result.item "vectorCount")
    .ok (dimensions, vectorCount)

/-! ## The run -/

/-- A run: its options, its clock, the answers of the API, and whether its statements reach D1. -/
structure Inputs where
  token : Bool
  dryRun : Bool
  now : ℤ
  subscriptions : Response
  d1 : Response
  ai : Response
  vectorize : Response
  d1Writes : Bool

inductive State where
  | OPEN
  | CLOSED
deriving DecidableEq

/-- A row of `quota_circuit_state`. -/
structure Row where
  dimension_key : String
  state : State
  current_usage : Double
  threshold_95 : ℕ
deriving DecidableEq

inductive Outcome where
  | config
  | officialFailure
  | raised
  | dryRun
  | d1Failure
  | wrote (rows : List Row)
deriving DecidableEq

/-- The script goes on after an official failure, to read the rest. -/
def attempt {α : Type} : Result α → Except Unit (Option α)
  | .ok a => .ok (some a)
  | .error .official => .ok none
  | .error .raised => .error ()

def THRESHOLD_NEURONS : ℕ := 9500
def THRESHOLD_ROWS_READ : ℕ := 23750000000
def THRESHOLD_ROWS_WRITTEN : ℕ := 47500000
def THRESHOLD_QUERIED_DIMS : ℕ := 28500000

def meteredRow (key : String) (threshold : ℕ) (usage : Double) : Row :=
  ⟨key, if usage.ge threshold then .OPEN else .CLOSED, usage, threshold⟩

/-- The circuit of a run that has read everything; `float` of a sum of rows can overflow. -/
def evaluate (R : Runtime) (d1 : D1Data) (ai : AiData) : Option (List Row) := do
  let rowsRead ← R.ofInt d1.rows_read
  let rowsWritten ← R.ofInt d1.rows_written
  some [meteredRow "ai.neurons" THRESHOLD_NEURONS (ai.total_neurons R),
    meteredRow "d1.rows_read" THRESHOLD_ROWS_READ rowsRead,
    meteredRow "d1.rows_written" THRESHOLD_ROWS_WRITTEN rowsWritten,
    ⟨"vectorize.queried_dims", .CLOSED, .fin (-1), THRESHOLD_QUERIED_DIMS⟩]

/-- A number that SQL can read: `nan` and `inf` are no literals. -/
def Double.isFinite : Double → Bool
  | .fin _ => true
  | _ => false

/-- The upsert of all rows by one statement. -/
def upsert (inputs : Inputs) (rows : List Row) : Outcome :=
  if inputs.d1Writes && rows.all fun r => r.current_usage.isFinite then .wrote rows else .d1Failure

def conclude (R : Runtime) (inputs : Inputs) (d1 : D1Data) (ai : AiData) : Outcome :=
  match evaluate R d1 ai with
  | none => .raised
  | some rows => if inputs.dryRun then .dryRun else upsert inputs rows

/-- The period is needed for the rows of D1. -/
def readD1 (R : Runtime) (inputs : Inputs) : Option Period → Except Unit (Option D1Data)
  | none => .ok none
  | some period => attempt (fetch_d1_cycle R period.start (R.isoZ inputs.now) inputs.d1)

/-- The official reads, in order. -/
def readAll (R : Runtime) (inputs : Inputs) :
    Except Unit (Option Period × Option D1Data × Option AiData × Option (ℤ × ℤ)) := do
  let subscriptions ← attempt (fetch_workers_paid_period inputs.subscriptions)
  let d1 ← readD1 R inputs subscriptions
  let ai ← attempt (fetch_ai_day R inputs.ai)
  let vectorize ← attempt (fetch_vectorize_info R inputs.vectorize)
  .ok (subscriptions, d1, ai, vectorize)

def main (R : Runtime) (inputs : Inputs) : Outcome :=
  if !inputs.token then .config
  else match readAll R inputs with
    | .error _ => .raised
    | .ok (some _, some d1, some ai, some _) => conclude R inputs d1 ai
    | .ok _ => .officialFailure

end QuantproCollector.OfficialMeters
