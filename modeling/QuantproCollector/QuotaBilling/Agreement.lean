import QuantproCollector.QuotaBilling.Baselines

/-!
# The keys of billing and of admission

Billing records the usage of a cycle under a key that is written from instants, and admission reads it under
a key that is written from the texts of the anchor. `period_key_agrees_iff`: the two keys are one where the
anchor's texts are spelled as `toISOString` spells them, and nowhere else.
-/

namespace QuantproCollector.QuotaBilling

open Calendar
open OfficialMeters (Double)

/-- The text is the one that its own instant is written as. -/
def IsIsoSpelling (R : Runtime) (text : String) : Prop :=
  ∃ t, R.dateParse text = some t ∧ Instant.toISOString t = text

/-- A cycle's key that is written from instants gives their two texts back. -/
theorem cycleKey_toISOString_iff {start stop : ℤ} {a b : String} :
    cycleKey (Instant.toISOString start) (Instant.toISOString stop) = cycleKey a b ↔
      Instant.toISOString start = a ∧ Instant.toISOString stop = b := by
  constructor
  · intro h
    have hlist := congrArg String.toList h
    simp only [cycleKey, String.toList_append, Instant.toISOString, String.toList_ofList,
      List.append_assoc] at hlist
    have hjoined := List.append_cancel_left hlist
    obtain ⟨ha, hb⟩ := Instant.joinedByDots_inj (Instant.count_toISOChars start).le
      (by rw [Instant.getLast?_toISOChars]; decide) (Instant.count_toISOChars stop).le
      (Instant.head?_toISOChars stop) hjoined.symm
    refine ⟨?_, ?_⟩
    · rw [Instant.toISOString, ← ha, String.ofList_toList]
    · have hb : b.toList = Instant.toISOChars stop := hb
      rw [Instant.toISOString, ← hb, String.ofList_toList]
  · rintro ⟨rfl, rfl⟩
    rfl

/-- Whatever the tables hold, the status of the dimension shows the figures of the observation once this
has been recorded. -/
def ReadsBaseline (R : Runtime) (anchor : Option AccountPeriodAnchor) (now : Option ℤ)
    (o : BaselineObservation) : Prop :=
  ∀ (add : Double → Double → Double) (db : QuotaDb) (t : Baselines) (unobserved : Double) (at_ : String),
    recordBaseline db.baselines o unobserved at_ = some t →
    ∃ status, dimensionStatus R add { db with baselines := t } anchor now o.dimension_key = .ok status ∧
      status.period_key = some o.period_key ∧ status.used = some o.used ∧
      status.unobserved_upper_bound = some unobserved

section Agreement

variable {R : Runtime} {specification : DimensionSpec} {now : Option ℤ} {period : ResolvedPeriod}
  {o : BaselineObservation}

theorem readsBaseline_of_key {anchor : Option AccountPeriodAnchor}
    (hspec : dimensionSpec o.dimension_key = some specification)
    (hperiod : resolvePeriod R specification anchor now = .ok (some period))
    (hkey : o.period_key = period.period_key) : ReadsBaseline R anchor now o := by
  intro add db t unobserved at_ hrecord
  have hrow : t (o.dimension_key, period.period_key) = some (o.row unobserved at_) := by
    rw [← hkey]
    exact recordBaseline_key hrecord
  refine ⟨_, dimensionStatus_eq hspec hperiod, ?_, ?_, ?_⟩
  · exact congrArg some hkey.symm
  · simp only [statusOfPeriod, hrow]
    rfl
  · simp only [statusOfPeriod, hrow]
    rfl

/-- The observation of a verified read has the key of its day or of the expected cycle. -/
theorem period_key_of_observation {input : BillingReadInput} {mappings : List BillingDimensionMapping}
    {result : BillingReadResult} (hresult : interpretBillableUsage R input mappings = .ok result)
    (hstate : result.state = .VERIFIED) (ho : o ∈ result.observations)
    (hspec : dimensionSpec o.dimension_key = some specification) :
    ∃ e start stop, input.expected_period = some e ∧ R.dateParse e.period_start = some start ∧
      R.dateParse e.period_end = some stop ∧
      o.period_key = observationKey (cycleKey (Instant.toISOString start) (Instant.toISOString stop))
        o.as_of specification := by
  obtain ⟨e, start, stop, coverageEnd, hexpected, hstart, hstop, hrows⟩ := interpret_verified hresult hstate
  obtain ⟨i, hi, rfl⟩ := List.getElem_of_mem ho
  have hrow := hrows.get (by rw [hrows.length_eq]; exact hi) hi
  obtain ⟨reading, hreading⟩ := readRow_ok hrow
  rw [List.get_eq_getElem] at hreading
  rw [hreading] at hspec ⊢
  have hsame := hspec.symm.trans reading.dimensionSpec_eq
  obtain rfl := Option.some.inj hsame
  exact ⟨e, start, stop, hexpected, hstart, hstop, rfl⟩

/-- Billing's key is admission's key, and the baseline is read, where the dimension is counted by days or
the anchor's texts are spelled as `toISOString` spells them, and nowhere else. -/
theorem period_key_agrees_iff {input : BillingReadInput} {mappings : List BillingDimensionMapping}
    {result : BillingReadResult} {anchor : AccountPeriodAnchor} {expected : ExpectedPeriod}
    (hresult : interpretBillableUsage R input mappings = .ok result) (hstate : result.state = .VERIFIED)
    (hexpected : input.expected_period = some expected)
    (hstart : R.dateParse expected.period_start = R.dateParse anchor.period_start)
    (hstop : R.dateParse expected.period_end = R.dateParse anchor.period_end)
    (ho : o ∈ result.observations) (hspec : dimensionSpec o.dimension_key = some specification)
    (hperiod : resolvePeriod R specification (some anchor) now = .ok (some period))
    (hday : specification.period = .utc_day →
      ∀ t, now = some t → firstTen (Instant.toISOString t) = firstTen o.as_of) :
    (o.period_key = period.period_key ∧ ReadsBaseline R (some anchor) now o) ↔
      specification.period = .utc_day ∨
        IsIsoSpelling R anchor.period_start ∧ IsIsoSpelling R anchor.period_end := by
  obtain ⟨e, start, stop, he, hparseStart, hparseStop, hkey⟩ :=
    period_key_of_observation hresult hstate ho hspec
  obtain rfl := Option.some.inj (hexpected.symm.trans he)
  rw [hparseStart] at hstart
  rw [hparseStop] at hstop
  have hkeys : o.period_key = period.period_key ↔ specification.period = .utc_day ∨
      IsIsoSpelling R anchor.period_start ∧ IsIsoSpelling R anchor.period_end := by
    by_cases hutc : specification.period = .utc_day
    · obtain ⟨t, hnow, hperiodKey⟩ := period_key_of_utc_day hutc hperiod
      rw [hkey, observationKey, if_pos hutc, hperiodKey, hday hutc t hnow]
      exact iff_of_true rfl (.inl hutc)
    · rw [hkey, observationKey, if_neg hutc, period_key_of_cycle hutc hperiod, cycleKey_toISOString_iff,
        or_iff_right hutc]
      refine and_congr ?_ ?_
      · rw [IsIsoSpelling, ← hstart]
        simp
      · rw [IsIsoSpelling, ← hstop]
        simp
  rw [← hkeys]
  exact and_iff_left_of_imp (readsBaseline_of_key hspec hperiod)

end Agreement

/-! ## An anchor that is written without its milliseconds -/

/-- October 2026 and its second day, as they can be written; products of two quantities are exact. -/
def octoberRuntime : Runtime where
  dateParse text :=
    (List.find? (fun entry => entry.1 = text) [("2026-10-01T00:00:00Z", 1790812800000),
      ("2026-10-01T00:00:00.000Z", 1790812800000), ("2026-10-02T00:00:00.000Z", 1790899200000),
      ("2026-11-01T00:00:00Z", 1793491200000), ("2026-11-01T00:00:00.000Z", 1793491200000)]).map Prod.snd
  mul
    | .fin x, .fin y => .fin (x * y)
    | _, _ => .nan

def octoberAnchor : AccountPeriodAnchor where
  account_id := "account"
  period_start := "2026-10-01T00:00:00Z"
  period_end := "2026-11-01T00:00:00Z"
  anchor_kind := .subscription_renewal
  source := "operator"
  source_version := "1"
  verified_at := "2026-10-01T00:00:00Z"

/-- A complete and fresh read of October's usage rows. -/
def octoberInput (rows : List Body) : BillingReadInput where
  http_status := 200
  fetched_at := "2026-10-02T00:00:00.000Z"
  body := .record [("success", .bool true), ("result", .record [
    ("billing_cycle_start", .string "2026-10-01T00:00:00Z"),
    ("billing_cycle_end", .string "2026-11-01T00:00:00Z"),
    ("account_id", .string "account"), ("usage", .array rows)])]
  account_id := "account"
  expected_period := some ⟨octoberAnchor.period_start, octoberAnchor.period_end⟩
  pagination_complete := true
  coverage_end := some "2026-10-02T00:00:00.000Z"
  max_age_ms := .fin 86400000
  now := some 1790899200000

/-- `{ usage_type, value }`. -/
def usageRow (usageType : String) (value : ℚ) : Body :=
  .record [("usage_type", .string usageType), ("value", .number (.fin value))]

def rowsReadMapping (usageType : String) : BillingDimensionMapping :=
  ⟨usageType, "d1.rows_read", .fin 1, "read of the account"⟩

/-- What October's row of five rows read is observed as. -/
def octoberObservation : BaselineObservation where
  dimension_key := "d1.rows_read"
  period_key := "cycle:2026-10-01T00:00:00.000Z..2026-11-01T00:00:00.000Z"
  used := .fin 5
  state := .VERIFIED
  source := "cloudflare-billable-usage"
  source_version := "billable-usage@2026-10-02T00:00:00.000Z"
  as_of := "2026-10-02T00:00:00.000Z"
  coverage_end := some "2026-10-02T00:00:00.000Z"

def octoberResult : BillingReadResult :=
  ⟨.VERIFIED, some octoberObservation.period_key, [octoberObservation], [], .NONE⟩

def rowsReadSpec : DimensionSpec := spec "d1.rows_read" "rows" .billing_cycle (some 25000000000) true 95

/-- The period that admission resolves. -/
def octoberPeriod : ResolvedPeriod where
  period_kind := .billing_cycle
  period_key := "cycle:2026-10-01T00:00:00Z..2026-11-01T00:00:00Z"
  period_start := "2026-10-01T00:00:00Z"
  period_end := "2026-11-01T00:00:00Z"

theorem interpret_october : interpretBillableUsage octoberRuntime (octoberInput [usageRow "rowsRead" 5])
    [rowsReadMapping "rowsRead"] = .ok octoberResult := by
  decide +kernel

theorem resolve_october : resolvePeriod octoberRuntime rowsReadSpec (some octoberAnchor)
    (some 1790899200000) = .ok (some octoberPeriod) := by
  rfl

/-- Where the anchor is written without its milliseconds, billing and admission have two keys. -/
theorem period_keys_differ :
    ¬ ∀ (R : Runtime) (input : BillingReadInput) (mappings : List BillingDimensionMapping)
      (result : BillingReadResult) (anchor : AccountPeriodAnchor) (specification : DimensionSpec)
      (now : Option ℤ) (period : ResolvedPeriod) (o : BaselineObservation),
      isVerifiedAnchor R (some anchor) = true →
      interpretBillableUsage R input mappings = .ok result → result.state = .VERIFIED →
      input.expected_period = some ⟨anchor.period_start, anchor.period_end⟩ →
      o ∈ result.observations → dimensionSpec o.dimension_key = some specification →
      specification.period ≠ .utc_day →
      resolvePeriod R specification (some anchor) now = .ok (some period) →
      o.period_key = period.period_key := by
  intro h
  have heq := h octoberRuntime (octoberInput [usageRow "rowsRead" 5]) [rowsReadMapping "rowsRead"]
    octoberResult octoberAnchor rowsReadSpec (some 1790899200000) octoberPeriod octoberObservation (by decide)
    interpret_october rfl rfl List.mem_cons_self (by decide) (by decide) resolve_october
  revert heq
  decide

/-- The rule at October's anchor: the keys are two, since its start is not spelled as its instant is. -/
theorem period_key_agrees_iff_october :
    (octoberObservation.period_key = octoberPeriod.period_key ∧
      ReadsBaseline octoberRuntime (some octoberAnchor) (some 1790899200000) octoberObservation) ↔
    rowsReadSpec.period = .utc_day ∨ IsIsoSpelling octoberRuntime octoberAnchor.period_start ∧
      IsIsoSpelling octoberRuntime octoberAnchor.period_end :=
  period_key_agrees_iff interpret_october rfl rfl rfl rfl List.mem_cons_self (by decide) resolve_october
    (by decide)

end QuantproCollector.QuotaBilling
