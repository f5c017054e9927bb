import QuantproCollector.Lib.Fallible
import QuantproCollector.QuotaBilling.Dimensions

/-!
# The billing read

`interpretBillableUsage`: the checks of an already fetched payload, in their order, and the observations that
it gives, one for each row of its usage. A check that fails ends the read with a state that is not
`VERIFIED` and a reason.
-/

namespace QuantproCollector.QuotaBilling

open Calendar
open OfficialMeters (Double)

/-- A parsed JSON body; its numbers are doubles. The keys of a record are distinct. -/
inductive Body where
  | null
  | bool (b : Bool)
  | number (x : Double)
  | string (s : String)
  | array (items : List Body)
  | record (fields : List (String × Body))

namespace Body

/-- `value[key]`; `none` is `undefined`. -/
def get? : Body → String → Option Body
  | record fields, key => (fields.find? fun field => field.1 = key).map Prod.snd
  | _, _ => none

def isRecord : Body → Bool
  | record _ => true
  | _ => false

/-- `typeof value === "string" && value`, `none` for an empty text. -/
def nonEmptyText? : Option Body → Option String
  | some (string s) => if s = "" then none else some s
  | _ => none

/-- `a ?? b`. -/
def orElse : Option Body → Option Body → Option Body
  | none, b => b
  | some null, b => b
  | a, _ => a

end Body

inductive BaselineState where
  | VERIFIED
  | UNVERIFIED
  | STALE
  | DENIED
  | INCOMPLETE
deriving DecidableEq

structure BillingDimensionMapping where
  provider_usage_type : String
  dimension_key : String
  scale : Double
  evidence : String
deriving DecidableEq

structure ExpectedPeriod where
  period_start : String
  period_end : String
deriving DecidableEq

structure BillingReadInput where
  http_status : ℤ
  fetched_at : String
  body : Body
  account_id : String
  expected_period : Option ExpectedPeriod
  pagination_complete : Bool
  coverage_end : Option String
  max_age_ms : Double
  now : Option ℤ

structure BaselineObservation where
  dimension_key : String
  period_key : String
  used : Double
  state : BaselineState
  source : String
  source_version : String
  as_of : String
  coverage_end : Option String
deriving DecidableEq

inductive GateAuthority where
  | NONE
deriving DecidableEq

structure BillingReadResult where
  state : BaselineState
  period_key : Option String
  observations : List BaselineObservation
  reasons : List String
  gate_authority : GateAuthority
deriving DecidableEq

/-- How a read ends before its rows are through: by one of the denials, or by an exception. -/
inductive Halt where
  | denied (reason : String)
  | incomplete (reason : String)
  | stale (reason : String)
  | raised (error : JsError)

/-- `deny(state, reason)`. -/
def deny (state : BaselineState) (reason : String) : BillingReadResult :=
  ⟨state, none, [], [reason], .NONE⟩

/-- What is answered where a check has ended the read. -/
def Halt.answer : Halt → Except JsError BillingReadResult
  | denied reason => .ok (deny .DENIED reason)
  | incomplete reason => .ok (deny .INCOMPLETE reason)
  | stale reason => .ok (deny .STALE reason)
  | raised error => .error error

/-- `Number.isFinite(x) && x >= 0`. -/
def isQuantity : Double → Bool
  | .fin q => decide (0 ≤ q)
  | _ => false

/-- `Math.ceil`. -/
def ceil : Double → Double
  | .fin q => .fin ⌈q⌉
  | x => x

/-- `n > x`. -/
def exceeds (n : ℤ) : Double → Bool
  | .fin q => decide (q < n)
  | .inf negative => negative
  | .nan => false

/-- `Math.round(n / 1000)`. -/
def roundedSeconds (n : ℤ) : ℤ := (n + 500) / 1000

section Interpret

variable (R : Runtime)

def isoOrNull : Option Body → Option String
  | some (.string s) => (R.dateParse s).map Instant.toISOString
  | _ => none

def checkStatus (status : ℤ) : Except Halt Unit :=
  if status = 401 ∨ status = 403 then
    .error (.denied ("billing read denied with HTTP " ++ toString status))
  else if status = 0 ∨ status = 429 ∨ 500 ≤ status then
    .error (.incomplete ("billing read unavailable with HTTP " ++ toString status))
  else if status ≠ 200 then
    .error (.incomplete ("unexpected billing read status " ++ toString status))
  else .ok ()

/-- `body.errors.length` of an array. -/
def errorCount : Option Body → ℕ
  | some (.array errors) => errors.length
  | _ => 0

/-- The result object of a successful body. -/
def readResult (body : Body) : Except Halt Body :=
  if !body.isRecord then .error (.incomplete "billing body is not a JSON object")
  else
    match body.get? "success" with
    | some (.bool true) =>
      match body.get? "result" with
      | some (.record fields) => .ok (.record fields)
      | _ => .error (.incomplete "billing body has no result object")
    | _ => .error (.denied ("billing body reported success=false (" ++
        toString (errorCount (body.get? "errors")) ++ " errors)"))

/-- `new Date(text).toISOString()`. -/
def isoOfText (text : String) : Except Halt String :=
  match isoOfDate (R.dateParse text) with
  | .ok iso => .ok iso
  | .error error => .error (.raised error)

/-- The key of the billing cycle, which is the one of the verified account anchor. -/
def readCycle (expected : Option ExpectedPeriod) (result : Body) : Except Halt String :=
  match isoOrNull R (Body.orElse (result.get? "billing_cycle_start") (result.get? "period_start")),
      isoOrNull R (Body.orElse (result.get? "billing_cycle_end") (result.get? "period_end")) with
  | some cycleStart, some cycleEnd =>
    match expected with
    | none => .error (.incomplete "account billing cycle anchor is not verified for this account")
    | some expected => do
      let expectedStart ← isoOfText R expected.period_start
      if cycleStart ≠ expectedStart then
        .error (.incomplete "billing cycle window does not match the verified account anchor")
      let expectedEnd ← isoOfText R expected.period_end
      if cycleEnd ≠ expectedEnd then
        .error (.incomplete "billing cycle window does not match the verified account anchor")
      return cycleKey cycleStart cycleEnd
  | _, _ => .error (.incomplete "billing body does not carry an explicit billing cycle window")

/-- The end of the coverage, which is fresh. -/
def readCoverage (input : BillingReadInput) : Except Halt String :=
  if !input.pagination_complete then .error (.incomplete "billing pagination is not proven complete")
  else
    match Body.nonEmptyText? (input.coverage_end.map .string) with
    | none => .error (.incomplete "billing coverage end is unknown")
    | some coverage =>
      match isoOrNull R (some (.string coverage)) with
      | none => .error (.incomplete "billing coverage end is not an ISO instant")
      | some coverageEnd =>
        match input.now, R.dateParse coverageEnd with
        | some now, some covered =>
          if now - covered < 0 then .error (.incomplete "billing coverage end is not in the past")
          else if exceeds (now - covered) input.max_age_ms then
            .error (.stale ("billing coverage lags now by " ++
              toString (roundedSeconds (now - covered)) ++ "s"))
          else if (R.dateParse input.fetched_at).isNone then
            .error (.incomplete "billing fetch time is invalid")
          else .ok coverageEnd
        | _, _ => .error (.incomplete "billing coverage end is not in the past")

/-- `result.account_id || result.account_tag || ""`, of texts. -/
def accountIdOf (result : Body) : String :=
  ((Body.nonEmptyText? (result.get? "account_id")).or
    (Body.nonEmptyText? (result.get? "account_tag"))).getD ""

def checkAccount (accountId : String) (result : Body) : Except Halt Unit :=
  if accountIdOf result = "" ∨ accountIdOf result ≠ accountId then
    .error (.incomplete "billing account identity does not match the configured account")
  else
    match result.get? "currency" with
    | none => .ok ()
    | some (.string _) => .ok ()
    | some _ => .error (.incomplete "billing currency field is not a string")

/-- The rows of the payload. -/
def usageRows (result : Body) : Option (List Body) :=
  match Body.orElse (result.get? "usage") (result.get? "total_usage") with
  | some (.array rows) => some rows
  | _ => none

def readRows (mappings : List BillingDimensionMapping) (result : Body) : Except Halt (List Body) :=
  match usageRows result with
  | none => .error (.incomplete "billing body carries no usage array")
  | some rows =>
    if mappings = [] then
      .error (.incomplete ("no verified provider-to-dimension mapping is registered " ++
        "(partial billing rows cannot authorize admission)"))
    else .ok rows

/-! ### One row -/

/-- The usage type of a row; an empty one counts as none. -/
def usageTypeOf (row : Body) : Option String :=
  match row.get? "usage_type", row.get? "type" with
  | some (.string s), _ => if s = "" then none else some s
  | _, some (.string s) => if s = "" then none else some s
  | _, _ => none

/-- The quantity of a row: the first of its four fields that is not nullish. -/
def quantityOf (row : Body) : Option Body :=
  Body.orElse (row.get? "value") (Body.orElse (row.get? "quantity")
    (Body.orElse (row.get? "used") (row.get? "usage")))

def mappingOf (mappings : List BillingDimensionMapping) (usageType : String) :
    Option BillingDimensionMapping :=
  mappings.find? fun entry => entry.provider_usage_type = usageType

/-- The key that a dimension's usage is recorded under. -/
def observationKey (periodKey coverageEnd : String) (specification : DimensionSpec) : String :=
  if specification.period = .utc_day then utcDayKey (firstTen coverageEnd) else periodKey

/-- The observation of a row. -/
def readRow (mappings : List BillingDimensionMapping) (periodKey coverageEnd fetchedAt : String)
    (row : Body) : Except Halt BaselineObservation :=
  if !row.isRecord then .error (.incomplete "billing usage row is not an object")
  else
    match usageTypeOf row with
    | none => .error (.incomplete "billing usage row has no usage type")
    | some usageType =>
      match mappingOf mappings usageType with
      | none => .error (.incomplete ("unmapped provider usage type present: " ++ usageType))
      | some mapping =>
        match dimensionSpec mapping.dimension_key with
        | none => .error (.incomplete ("mapping points at unknown dimension " ++ mapping.dimension_key))
        | some specification =>
          match quantityOf row with
          | some (.number value) =>
            if isQuantity value then
              .ok {
                dimension_key := mapping.dimension_key
                period_key := observationKey periodKey coverageEnd specification
                used := ceil (R.mul value mapping.scale)
                state := .VERIFIED
                source := "cloudflare-billable-usage"
                source_version := "billable-usage@" ++ fetchedAt
                as_of := coverageEnd
                coverage_end := some coverageEnd }
            else
              .error (.incomplete ("billing usage value for " ++ usageType ++
                " is not a non-negative number"))
          | _ =>
            .error (.incomplete ("billing usage value for " ++ usageType ++
              " is not a non-negative number"))

/-- The checks and the rows, in order. -/
def readBilling (input : BillingReadInput) (mappings : List BillingDimensionMapping) :
    Except Halt BillingReadResult := do
  checkStatus input.http_status
  let result ← readResult input.body
  let periodKey ← readCycle R input.expected_period result
  let coverageEnd ← readCoverage R input
  checkAccount input.account_id result
  let rows ← readRows mappings result
  let observations ← rows.mapM (readRow R mappings periodKey coverageEnd input.fetched_at)
  if observations = [] then
    .error (.incomplete "billing usage array is empty; absence is not zero")
  return ⟨.VERIFIED, some periodKey, observations, [], .NONE⟩

def interpretBillableUsage (input : BillingReadInput) (mappings : List BillingDimensionMapping) :
    Except JsError BillingReadResult :=
  match readBilling R input mappings with
  | .ok result => .ok result
  | .error halt => halt.answer

end Interpret

/-! ## What a verified read has established -/

section Spec

variable {R : Runtime}

theorem isoOfText_ok {text iso : String} (h : isoOfText R text = .ok iso) :
    ∃ t, R.dateParse text = some t ∧ iso = Instant.toISOString t := by
  unfold isoOfText at h
  cases hparse : R.dateParse text with
  | none =>
    rw [hparse] at h
    cases h
  | some t =>
    rw [hparse] at h
    cases h
    exact ⟨t, rfl, rfl⟩

/-- The cycle's key is written from the instants of the expected period. -/
theorem readCycle_ok {expected : Option ExpectedPeriod} {result : Body} {periodKey : String}
    (h : readCycle R expected result = .ok periodKey) :
    ∃ e start stop, expected = some e ∧ R.dateParse e.period_start = some start ∧
      R.dateParse e.period_end = some stop ∧
      periodKey = cycleKey (Instant.toISOString start) (Instant.toISOString stop) := by
  unfold readCycle at h
  split at h
  · cases expected with
    | none => cases h
    | some e =>
      obtain ⟨expectedStart, hstart, h⟩ := Fallible.bind_eq_ok.1 h
      split_ifs at h with hne
      · cases h
      · obtain ⟨expectedEnd, hstop, h⟩ := Fallible.bind_eq_ok.1 h
        split_ifs at h with hne'
        · cases h
        · cases h
          obtain ⟨start, hparseStart, hisoStart⟩ := isoOfText_ok hstart
          obtain ⟨stop, hparseStop, hisoStop⟩ := isoOfText_ok hstop
          rw [not_not.1 hne, not_not.1 hne', hisoStart, hisoStop]
          exact ⟨e, start, stop, rfl, hparseStart, hparseStop, rfl⟩
  · cases h

/-- What makes a row one that can be interpreted, with what it is interpreted as. -/
structure RowReading (mappings : List BillingDimensionMapping) (row : Body) where
  usageType : String
  mapping : BillingDimensionMapping
  specification : DimensionSpec
  quantity : ℚ
  isRecord : row.isRecord = true
  usageTypeOf_eq : usageTypeOf row = some usageType
  mappingOf_eq : mappingOf mappings usageType = some mapping
  dimensionSpec_eq : dimensionSpec mapping.dimension_key = some specification
  quantityOf_eq : quantityOf row = some (.number (.fin quantity))
  nonneg : 0 ≤ quantity

/-- A row that is not denied has been interpreted. -/
theorem readRow_ok {mappings : List BillingDimensionMapping} {periodKey coverageEnd fetchedAt : String}
    {row : Body} {o : BaselineObservation}
    (h : readRow R mappings periodKey coverageEnd fetchedAt row = .ok o) :
    ∃ reading : RowReading mappings row, o = {
      dimension_key := reading.mapping.dimension_key
      period_key := observationKey periodKey coverageEnd reading.specification
      used := ceil (R.mul (.fin reading.quantity) reading.mapping.scale)
      state := .VERIFIED
      source := "cloudflare-billable-usage"
      source_version := "billable-usage@" ++ fetchedAt
      as_of := coverageEnd
      coverage_end := some coverageEnd } := by
  unfold readRow at h
  split_ifs at h with hrecord
  split at h
  · cases h
  · rename_i usageType husage
    split at h
    · cases h
    · rename_i mapping hmapping
      split at h
      · cases h
      · rename_i specification hspec
        split at h
        · rename_i value hvalue
          split_ifs at h with hquantity
          cases value with
          | fin q =>
            cases h
            exact ⟨⟨usageType, mapping, specification, q, by simpa using hrecord, husage, hmapping, hspec,
              hvalue, by simpa [isQuantity] using hquantity⟩, rfl⟩
          | inf negative => cases hquantity
          | nan => cases hquantity
        · cases h

/-- The payload's rows. -/
def payloadRows (input : BillingReadInput) : List Body :=
  (((input.body.get? "result").bind usageRows).getD [])

theorem readResult_ok {body result : Body} (h : readResult body = .ok result) :
    body.get? "result" = some result := by
  unfold readResult at h
  split_ifs at h
  split at h
  · split at h
    · rename_i fields hresult
      cases h
      exact hresult
    · cases h
  · cases h

theorem readRows_ok {mappings : List BillingDimensionMapping} {result : Body} {rows : List Body}
    (h : readRows mappings result = .ok rows) : usageRows result = some rows := by
  unfold readRows at h
  split at h
  · cases h
  · rename_i rows' hrows
    split_ifs at h
    cases h
    exact hrows

/-- A verified read: its period key is written from the instants of the expected period, and its
observations are those of the payload's rows, one for each. -/
theorem interpret_verified {input : BillingReadInput} {mappings : List BillingDimensionMapping}
    {result : BillingReadResult} (h : interpretBillableUsage R input mappings = .ok result)
    (hstate : result.state = .VERIFIED) :
    ∃ e start stop coverageEnd, input.expected_period = some e ∧
      R.dateParse e.period_start = some start ∧ R.dateParse e.period_end = some stop ∧
      List.Forall₂ (fun row o => readRow R mappings
        (cycleKey (Instant.toISOString start) (Instant.toISOString stop)) coverageEnd input.fetched_at row =
          .ok o) (payloadRows input) result.observations := by
  unfold interpretBillableUsage at h
  cases hread : readBilling R input mappings with
  | error halt =>
    rw [hread] at h
    cases halt <;> cases h <;> cases hstate
  | ok r =>
    rw [hread] at h
    obtain rfl := Except.ok.inj h
    unfold readBilling at hread
    obtain ⟨-, -, hread⟩ := Fallible.bind_eq_ok.1 hread
    obtain ⟨body, hbody, hread⟩ := Fallible.bind_eq_ok.1 hread
    obtain ⟨periodKey, hcycle, hread⟩ := Fallible.bind_eq_ok.1 hread
    obtain ⟨coverageEnd, -, hread⟩ := Fallible.bind_eq_ok.1 hread
    obtain ⟨-, -, hread⟩ := Fallible.bind_eq_ok.1 hread
    obtain ⟨rows, hrows, hread⟩ := Fallible.bind_eq_ok.1 hread
    obtain ⟨observations, hobservations, hread⟩ := Fallible.bind_eq_ok.1 hread
    obtain ⟨e, start, stop, hexpected, hstart, hstop, rfl⟩ := readCycle_ok hcycle
    have hpayload : payloadRows input = rows := by
      rw [payloadRows, readResult_ok hbody, Option.bind_some, readRows_ok hrows, Option.getD_some]
    refine ⟨e, start, stop, coverageEnd, hexpected, hstart, hstop, ?_⟩
    rw [hpayload]
    split_ifs at hread
    · cases hread
    · cases hread
      exact Fallible.mapM_ok hobservations

end Spec

end QuantproCollector.QuotaBilling
