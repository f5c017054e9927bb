import QuantproCollector.Lib.Instant
import QuantproCollector.OfficialMeters.Reconcile

/-!
# Quota dimensions and their periods

The catalog of the billed dimensions, the account period anchor that an operator registers, and the period
that a dimension's usage is counted in (`resolvePeriod`).

`Date.parse` is a parameter. A date is its time value, `none` for an invalid one; writing an invalid date as
a text throws a `RangeError`. The catalog keeps the fields that the modelled functions read.
-/

namespace QuantproCollector.QuotaBilling

open Calendar
open OfficialMeters (Double)

/-- What the worker takes from its runtime. -/
structure Runtime where
  /-- `Date.parse`, `none` for `NaN`. -/
  dateParse : String → Option ℤ
  /-- `x * y` of doubles. -/
  mul : Double → Double → Double

/-- A `RangeError: Invalid time value`. -/
inductive JsError where
  | rangeError
deriving DecidableEq

/-- `date.toISOString()`. -/
def isoOfDate : Option ℤ → Except JsError String
  | some t => .ok (Instant.toISOString t)
  | none => .error .rangeError

/-! ## The catalog -/

inductive PeriodKind where
  | billing_cycle
  | utc_day
  | storage_integral
deriving DecidableEq

structure DimensionSpec where
  key : String
  unit : String
  period : PeriodKind
  included : Option ℕ
  threshold_95 : Option ℕ
  provable : Bool
deriving DecidableEq

def STORAGE_UNIT_SCALE : ℕ := 1000

/-- `spec`, with the threshold fraction in percent. -/
def spec (key unit : String) (period : PeriodKind) (included : Option ℕ) (provable : Bool)
    (thresholdPercent : ℕ) : DimensionSpec where
  key := key
  unit := unit
  period := period
  included := included
  threshold_95 := included.map fun n =>
    n * (if unit = "GB-month" then STORAGE_UNIT_SCALE else 1) * thresholdPercent / 100
  provable := provable

def QUOTA_DIMENSIONS : List DimensionSpec :=
  [spec "workers.requests" "requests" .billing_cycle (some 10000000) false 95,
    spec "workers.cpu_ms" "cpu_ms" .billing_cycle (some 30000000) false 95,
    spec "d1.rows_read" "rows" .billing_cycle (some 25000000000) true 95,
    spec "d1.rows_written" "rows" .billing_cycle (some 50000000) true 95,
    spec "d1.storage_gb_month" "GB-month" .storage_integral (some 5) false 95,
    spec "kv.reads" "reads" .billing_cycle (some 10000000) true 95,
    spec "kv.writes" "writes" .billing_cycle (some 1000000) true 95,
    spec "kv.deletes" "deletes" .billing_cycle (some 1000000) true 95,
    spec "kv.lists" "lists" .billing_cycle (some 1000000) true 95,
    spec "kv.storage_gb_month" "GB-month" .storage_integral (some 1) false 95,
    spec "r2.class_a" "Class A ops" .billing_cycle (some 1000000) true 95,
    spec "r2.class_b" "Class B ops" .billing_cycle (some 10000000) true 95,
    spec "r2.storage_gb_month" "GB-month" .storage_integral (some 10) false 95,
    spec "r2.ia_class_a" "IA Class A ops" .billing_cycle none false 95,
    spec "r2.ia_class_b" "IA Class B ops" .billing_cycle none false 95,
    spec "r2.ia_storage_gb_month" "IA GB-month" .storage_integral none false 95,
    spec "ai.neurons" "Neurons" .utc_day (some 10000) true 100,
    spec "vectorize.queried_dims" "queried dimensions" .billing_cycle (some 50000000) true 95,
    spec "vectorize.stored_dims" "stored dimensions" .storage_integral (some 10000000) false 95]

def dimensionSpec (key : String) : Option DimensionSpec :=
  QUOTA_DIMENSIONS.find? fun entry => entry.key = key

/-! ## The account period -/

inductive AnchorKind where
  | subscription_renewal
  | unknown
deriving DecidableEq

structure AccountPeriodAnchor where
  account_id : String
  period_start : String
  period_end : String
  anchor_kind : AnchorKind
  source : String
  source_version : String
  verified_at : String
deriving DecidableEq

section Period

variable (R : Runtime)

/-- The start, the end and the verification of a verified anchor, as instants. -/
def verifiedAnchor? (anchor : AccountPeriodAnchor) : Option (ℤ × ℤ × ℤ) :=
  if anchor.anchor_kind ≠ .subscription_renewal then none
  else
    match R.dateParse anchor.period_start, R.dateParse anchor.period_end,
        R.dateParse anchor.verified_at with
    | some start, some stop, some verified =>
      if start < stop ∧ start ≤ verified then some (start, stop, verified) else none
    | _, _, _ => none

def isVerifiedAnchor (anchor : Option AccountPeriodAnchor) : Bool :=
  match anchor with
  | none => false
  | some anchor => (verifiedAnchor? R anchor).isSome

structure ResolvedPeriod where
  period_kind : PeriodKind
  period_key : String
  period_start : String
  period_end : String
deriving DecidableEq

/-- `cycle:${start}..${end}`. -/
def cycleKey (start stop : String) : String := "cycle:" ++ start ++ ".." ++ stop

/-- `text.slice(0, 10)`; a text of an instant has no character of two units. -/
def firstTen (text : String) : String := String.ofList (text.toList.take 10)

def utcDayKey (day : String) : String := "utc-day:" ++ day

/-- The period of a dimension at an instant; `none` where it cannot be proven. -/
def resolvePeriod (specification : DimensionSpec) (anchor : Option AccountPeriodAnchor) (now : Option ℤ) :
    Except JsError (Option ResolvedPeriod) :=
  match now with
  | none => .ok none
  | some t =>
    if specification.period = .utc_day then do
      let day := firstTen (Instant.toISOString t)
      let start := day ++ "T00:00:00.000Z"
      let stop ← isoOfDate ((R.dateParse start).map (· + 24 * 3600 * 1000))
      return some ⟨.utc_day, utcDayKey day, start, stop⟩
    else
      match anchor with
      | none => .ok none
      | some anchor =>
        match verifiedAnchor? R anchor with
        | none => .ok none
        | some (start, stop, verified) =>
          if t < start ∨ stop ≤ t ∨ t < verified then .ok none
          else
            .ok (some ⟨specification.period, cycleKey anchor.period_start anchor.period_end,
              anchor.period_start, anchor.period_end⟩)

end Period

section Spec

variable {R : Runtime} {specification : DimensionSpec} {anchor : AccountPeriodAnchor} {now : Option ℤ}
  {period : ResolvedPeriod}

/-- The period of a day is named after the day of the instant. -/
theorem period_key_of_utc_day {anchor : Option AccountPeriodAnchor} (hday : specification.period = .utc_day)
    (h : resolvePeriod R specification anchor now = .ok (some period)) :
    ∃ t, now = some t ∧ period.period_key = utcDayKey (firstTen (Instant.toISOString t)) := by
  cases now with
  | none => cases h
  | some t =>
    refine ⟨t, rfl, ?_⟩
    simp only [resolvePeriod, if_pos hday] at h
    cases hstop : isoOfDate
        ((R.dateParse (firstTen (Instant.toISOString t) ++ "T00:00:00.000Z")).map (· + 24 * 3600 * 1000)) with
    | error e =>
      rw [hstop] at h
      cases h
    | ok stop =>
      rw [hstop] at h
      cases h
      rfl

/-- The period of a cycle is named by the texts of the anchor. -/
theorem period_key_of_cycle (hday : specification.period ≠ .utc_day)
    (h : resolvePeriod R specification (some anchor) now = .ok (some period)) :
    period.period_key = cycleKey anchor.period_start anchor.period_end := by
  cases now with
  | none => cases h
  | some t =>
    simp only [resolvePeriod, if_neg hday] at h
    split at h
    · cases h
    · split_ifs at h
      · cases h
      · cases h
        rfl

end Spec

end QuantproCollector.QuotaBilling
