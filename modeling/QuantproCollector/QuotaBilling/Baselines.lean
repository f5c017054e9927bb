import QuantproCollector.QuotaBilling.Interpret

/-!
# The recorded baselines

`recordBaseline` writes an observation under its dimension and its period key, over whatever stands there;
`dimensionStatus` is the turn of `quotaStatus` for one dimension, which reads the baseline under the key that
`resolvePeriod` computes. A row has one key, so the table is a function of the key.
-/

namespace QuantproCollector.QuotaBilling

open Calendar
open OfficialMeters (Double)

/-- A row of `quota_period_baselines` without its key. -/
structure BaselineRow where
  state : BaselineState
  used : Double
  unobserved_upper_bound : Double
  source : String
  source_version : String
  as_of : String
  coverage_end : Option String
  recorded_at : String
deriving DecidableEq

/-- A dimension and a period key. -/
abbrev BaselineKey := String × String

abbrev Baselines := BaselineKey → Option BaselineRow

/-- `NOT NULL CHECK (x >= 0)`; a `NaN` is bound as `NULL`. -/
def isStorable : Double → Bool
  | .fin q => decide (0 ≤ q)
  | .inf negative => !negative
  | .nan => false

def BaselineObservation.key (o : BaselineObservation) : BaselineKey := (o.dimension_key, o.period_key)

/-- The row that an observation is recorded as. -/
def BaselineObservation.row (o : BaselineObservation) (unobserved : Double) (now : String) : BaselineRow :=
  ⟨o.state, o.used, unobserved, o.source, o.source_version, o.as_of, o.coverage_end, now⟩

/-- The upsert of one baseline; `none` where a constraint of the table rejects it. -/
def recordBaseline (t : Baselines) (o : BaselineObservation) (unobserved : Double) (now : String) :
    Option Baselines :=
  if isStorable o.used && isStorable unobserved then
    some (Function.update t o.key (some (o.row unobserved now)))
  else none

/-- An observation with the tail bound and the instant that it is recorded with. -/
structure BaselineWrite where
  observation : BaselineObservation
  unobserved_upper_bound : Double
  now : String

def recordAll (t : Baselines) (writes : List BaselineWrite) : Option Baselines :=
  writes.foldlM (fun t w => recordBaseline t w.observation w.unobserved_upper_bound w.now) t

section Record

variable {t t' : Baselines} {o : BaselineObservation} {unobserved : Double} {now : String}

theorem recordBaseline_key (h : recordBaseline t o unobserved now = some t') :
    t' o.key = some (o.row unobserved now) := by
  unfold recordBaseline at h
  split_ifs at h
  obtain rfl := Option.some.inj h
  exact Function.update_self o.key _ t

theorem recordBaseline_of_ne (h : recordBaseline t o unobserved now = some t') {key : BaselineKey}
    (hkey : key ≠ o.key) : t' key = t key := by
  unfold recordBaseline at h
  split_ifs at h
  obtain rfl := Option.some.inj h
  exact Function.update_of_ne hkey _ t

/-- Where no write of the list has the key, the row under it stays. -/
theorem recordAll_of_not_mem {writes : List BaselineWrite} (h : recordAll t writes = some t')
    {key : BaselineKey} (hkey : ∀ w ∈ writes, w.observation.key ≠ key) : t' key = t key := by
  induction writes generalizing t with
  | nil =>
    obtain rfl := Option.some.inj h
    rfl
  | cons w writes ih =>
    obtain ⟨t₁, hfirst, hrest⟩ := Option.bind_eq_some_iff.1 (List.foldlM_cons.symm.trans h)
    rw [ih hrest fun v hv => hkey v (List.mem_cons_of_mem w hv)]
    exact recordBaseline_of_ne hfirst (hkey w List.mem_cons_self).symm

/-- Writes of different keys all stand in the end. By induction on the writes: the first one is kept by
the others, since none of them has its key. -/
theorem recordAll_mem {writes : List BaselineWrite}
    (hnodup : (writes.map fun w => w.observation.key).Nodup) (h : recordAll t writes = some t') :
    ∀ w ∈ writes, t' w.observation.key = some (w.observation.row w.unobserved_upper_bound w.now) := by
  induction writes generalizing t with
  | nil => exact List.forall_mem_nil _
  | cons w writes ih =>
    obtain ⟨t₁, hfirst, hrest⟩ := Option.bind_eq_some_iff.1 (List.foldlM_cons.symm.trans h)
    obtain ⟨hfresh, hnodup⟩ := List.nodup_cons.1 hnodup
    refine List.forall_mem_cons.2 ⟨?_, ih hnodup hrest⟩
    rw [recordAll_of_not_mem hrest fun v hv heq => hfresh (List.mem_map.2 ⟨v, hv, heq⟩)]
    exact recordBaseline_key hfirst

end Record

/-! ## The status of a dimension -/

inductive DimensionState where
  | UNKNOWN
  | OPEN
  | CLOSED
deriving DecidableEq

structure DimensionStatus where
  dimension_key : String
  state : DimensionState
  period_key : Option String
  used : Option Double
  unobserved_upper_bound : Option Double
  reserved : Option ℤ
  booked : Option ℤ
  threshold_95 : Option ℕ
  reason : String

/-- The tables that a status is read from. -/
structure QuotaDb where
  baselines : Baselines
  /-- `SUM(units)` of the reservations of a key. -/
  reserved : BaselineKey → ℤ
  booked : BaselineKey → Option ℤ

def BaselineState.text : BaselineState → String
  | VERIFIED => "VERIFIED"
  | UNVERIFIED => "UNVERIFIED"
  | STALE => "STALE"
  | DENIED => "DENIED"
  | INCOMPLETE => "INCOMPLETE"

/-- An entry of the status without figures. -/
def unknownStatus (key : String) (threshold : Option ℕ) (reason : String) : DimensionStatus :=
  ⟨key, .UNKNOWN, none, none, none, none, none, threshold, reason⟩

/-- The entry of a dimension whose period is known; `add` is `+` of doubles. -/
def statusOfPeriod (add : Double → Double → Double) (db : QuotaDb) (specification : DimensionSpec)
    (key : String) (period : ResolvedPeriod) : DimensionStatus :=
  let row := db.baselines (key, period.period_key)
  let reserved := db.reserved (key, period.period_key)
  let booked := db.booked (key, period.period_key)
  let used := (row.map BaselineRow.used).getD (.fin 0)
  let unobserved := (row.map BaselineRow.unobserved_upper_bound).getD (.fin 0)
  let committed := add (add used unobserved) (.fin (booked.getD 0))
  let threshold := specification.threshold_95.getD 0
  let breached := decide (0 < threshold) && committed.ge threshold
  { dimension_key := key
    state := if breached then .CLOSED else .OPEN
    period_key := some period.period_key
    used := row.map BaselineRow.used
    unobserved_upper_bound := row.map BaselineRow.unobserved_upper_bound
    reserved := some reserved
    booked := booked
    threshold_95 := specification.threshold_95
    reason :=
      if breached then "committed usage reached the 95% threshold (baseline plus booked)"
      else
        match row with
        | some row =>
          "baseline state is " ++ row.state.text ++ "; informational only since the gate removal"
        | none => "no baseline row yet; informational only since the gate removal" }

/-- The entry of `quotaStatus` for a dimension. -/
def dimensionStatus (R : Runtime) (add : Double → Double → Double) (db : QuotaDb)
    (anchor : Option AccountPeriodAnchor) (now : Option ℤ) (key : String) : Except JsError DimensionStatus :=
  match dimensionSpec key with
  | none => .ok (unknownStatus key none "dimension is not in the billing catalog")
  | some specification => do
    match ← resolvePeriod R specification anchor now with
    | none =>
      return unknownStatus key specification.threshold_95 "account billing period anchor is not verified"
    | some period => return statusOfPeriod add db specification key period

/-- Where the period is known, the baseline is read under its key. -/
theorem dimensionStatus_eq {R : Runtime} {add : Double → Double → Double} {db : QuotaDb}
    {anchor : Option AccountPeriodAnchor} {now : Option ℤ} {key : String} {specification : DimensionSpec}
    {period : ResolvedPeriod} (hspec : dimensionSpec key = some specification)
    (hperiod : resolvePeriod R specification anchor now = .ok (some period)) :
    dimensionStatus R add db anchor now key = .ok (statusOfPeriod add db specification key period) := by
  simp only [dimensionStatus, hspec, hperiod]
  rfl

end QuantproCollector.QuotaBilling
