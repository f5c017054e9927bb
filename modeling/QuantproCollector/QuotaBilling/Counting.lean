import Mathlib.Data.EReal.Operations
import QuantproCollector.QuotaBilling.Agreement

/-!
# What a verified read counts

A verified read has interpreted every row. It has one observation for each row, and the upsert keeps the last
one of a key: `never_under_counts_iff` says that every key ends with at least the sum of its rows where no two
rows are of one dimension (and every scaled quantity is a number), and nowhere else.
-/

namespace QuantproCollector.QuotaBilling

open Calendar
open OfficialMeters (Double)

/-- The extended real number that a double is. -/
noncomputable def extended : Double → Option EReal
  | .fin q => some ((q : ℝ) : EReal)
  | .inf true => some ⊥
  | .inf false => some ⊤
  | .nan => none

/-- The double is a number, and at least the sum of the others. -/
def Covers (used : Double) (quantities : List Double) : Prop :=
  ∃ u vs, extended used = some u ∧ quantities.mapM extended = some vs ∧ vs.sum ≤ u

/-- The dimension that a row is mapped to. -/
def rowDimension (mappings : List BillingDimensionMapping) (row : Body) : Option String :=
  ((usageTypeOf row).bind (mappingOf mappings)).map BillingDimensionMapping.dimension_key

/-- `value * mapping.scale` of a row. -/
def scaledQuantity (R : Runtime) (mappings : List BillingDimensionMapping) (row : Body) : Option Double :=
  match (usageTypeOf row).bind (mappingOf mappings), quantityOf row with
  | some mapping, some (.number value) => some (R.mul value mapping.scale)
  | _, _ => none

/-- The scaled quantities of the rows that are mapped to a dimension. -/
def scaledQuantities (R : Runtime) (mappings : List BillingDimensionMapping) (rows : List Body)
    (dimension : String) : List Double :=
  (rows.filter fun row => rowDimension mappings row = some dimension).filterMap (scaledQuantity R mappings)

/-- The read counts all of the payload's usage: each row is interpreted, a key has one entry, the entry is at
least the sum of the quantities that are mapped to it, and so is what the table holds under the key once the
observations are recorded, one after the other. -/
structure CountsAll (R : Runtime) (mappings : List BillingDimensionMapping) (rows : List Body)
    (observations : List BaselineObservation) : Prop where
  interpreted : ∀ row ∈ rows, Nonempty (RowReading mappings row)
  oneEntry : (observations.map BaselineObservation.key).Nodup
  covered : ∀ o ∈ observations, Covers o.used (scaledQuantities R mappings rows o.dimension_key)
  recorded : ∀ (t t' : Baselines) (writes : List BaselineWrite),
    writes.map BaselineWrite.observation = observations → recordAll t writes = some t' →
    ∀ o ∈ observations, ∃ row, t' o.key = some row ∧
      Covers row.used (scaledQuantities R mappings rows o.dimension_key)

section Rows

variable {R : Runtime} {mappings : List BillingDimensionMapping} {row : Body}

theorem RowReading.bind_eq (reading : RowReading mappings row) :
    (usageTypeOf row).bind (mappingOf mappings) = some reading.mapping := by
  rw [reading.usageTypeOf_eq, Option.bind_some, reading.mappingOf_eq]

theorem RowReading.rowDimension_eq (reading : RowReading mappings row) :
    rowDimension mappings row = some reading.mapping.dimension_key := by
  rw [rowDimension, reading.bind_eq]
  rfl

theorem RowReading.scaledQuantity_eq (reading : RowReading mappings row) :
    scaledQuantity R mappings row = some (R.mul (.fin reading.quantity) reading.mapping.scale) := by
  rw [scaledQuantity, reading.bind_eq, reading.quantityOf_eq]

/-- Rounding up gives at least the number, and keeps what is none. -/
theorem covers_ceil {q : Double} (hq : q ≠ .nan) : Covers (ceil q) [q] := by
  cases q with
  | fin q =>
    refine ⟨((⌈q⌉ : ℝ) : EReal), [((q : ℝ) : EReal)], ?_, rfl, ?_⟩
    · simp [ceil, extended]
    · rw [List.sum_singleton, EReal.coe_le_coe_iff]
      exact_mod_cast Int.le_ceil q
  | inf negative =>
    cases negative with
    | true => exact ⟨⊥, [⊥], rfl, rfl, by rw [List.sum_singleton]⟩
    | false => exact ⟨⊤, [⊤], rfl, rfl, by rw [List.sum_singleton]⟩
  | nan => exact absurd rfl hq

theorem not_covers_nan (quantities : List Double) : ¬ Covers .nan quantities := by
  rintro ⟨u, vs, hu, -⟩
  cases hu

end Rows

/-- Where a value is taken once, the elements that have it are one. -/
theorem filter_eq_singleton_of_nodup {α β : Type} [DecidableEq β] {f : α → β} {l : List α}
    (hnodup : (l.map f).Nodup) {a : α} (ha : a ∈ l) : l.filter (fun b => f b = f a) = [a] := by
  induction l with
  | nil => cases ha
  | cons b l ih =>
    obtain ⟨hfresh, hnodup⟩ := List.nodup_cons.1 hnodup
    obtain rfl | ha := List.mem_cons.1 ha
    · have hnone : l.filter (fun b => f b = f a) = [] :=
        List.filter_eq_nil_iff.2 fun c hc heq => hfresh (List.mem_map.2 ⟨c, hc, by simpa using heq⟩)
      rw [List.filter_cons_of_pos (by simp), hnone]
    · have hne : f b ≠ f a := fun heq => hfresh (heq ▸ List.mem_map_of_mem ha)
      rw [List.filter_cons_of_neg (by simpa using hne), ih hnodup ha]

section Pairs

variable {α β : Type} {r : α → β → Prop} {l : List α} {m : List β}

theorem forall₂_left (h : List.Forall₂ r l m) : ∀ a ∈ l, ∃ b ∈ m, r a b := by
  induction h with
  | nil => exact List.forall_mem_nil _
  | cons hab _ ih =>
    refine List.forall_mem_cons.2 ⟨⟨_, List.mem_cons_self, hab⟩, fun a ha => ?_⟩
    obtain ⟨b, hb, hr⟩ := ih a ha
    exact ⟨b, List.mem_cons_of_mem _ hb, hr⟩

theorem forall₂_right (h : List.Forall₂ r l m) : ∀ b ∈ m, ∃ a ∈ l, r a b :=
  forall₂_left (r := fun b a => r a b) h.flip

end Pairs

/-- The observation of a row; the key of a dimension is the same for all rows. -/
def Observes (R : Runtime) (mappings : List BillingDimensionMapping) (periodOf : String → String)
    (row : Body) (o : BaselineObservation) : Prop :=
  ∃ reading : RowReading mappings row, o.dimension_key = reading.mapping.dimension_key ∧
    o.period_key = periodOf o.dimension_key ∧
    o.used = ceil (R.mul (.fin reading.quantity) reading.mapping.scale)

section Counting

variable {R : Runtime} {mappings : List BillingDimensionMapping} {periodOf : String → String}
  {rows : List Body} {observations : List BaselineObservation}

theorem map_rowDimension (h : List.Forall₂ (Observes R mappings periodOf) rows observations) :
    rows.map (rowDimension mappings) = observations.map fun o => some o.dimension_key := by
  induction h with
  | nil => rfl
  | cons hrow _ ih =>
    obtain ⟨reading, hdimension, -⟩ := hrow
    rw [List.map_cons, List.map_cons, ih, reading.rowDimension_eq, hdimension]

/-- Two observations have one key where they are of one dimension. -/
theorem nodup_key_iff (h : List.Forall₂ (Observes R mappings periodOf) rows observations) :
    (observations.map BaselineObservation.key).Nodup ↔ (rows.map (rowDimension mappings)).Nodup := by
  have hkeys : observations.map BaselineObservation.key =
      (observations.map BaselineObservation.dimension_key).map fun d => (d, periodOf d) := by
    rw [List.map_map]
    refine List.map_congr_left fun o ho => ?_
    obtain ⟨row, -, reading, -, hperiod, -⟩ := forall₂_right h o ho
    exact congrArg (Prod.mk o.dimension_key) hperiod
  have hdimensions : rows.map (rowDimension mappings) =
      (observations.map BaselineObservation.dimension_key).map some := by
    rw [map_rowDimension h, List.map_map]
    rfl
  have hpair : Function.Injective fun d => (d, periodOf d) := fun _ _ heq => congrArg Prod.fst heq
  rw [hkeys, hdimensions, List.nodup_map_iff hpair, List.nodup_map_iff (Option.some_injective _)]

/-- Where no other row is of its dimension, the observation of a row is at least the row's quantity. -/
theorem covers_of_nodup (h : List.Forall₂ (Observes R mappings periodOf) rows observations)
    (hnodup : (rows.map (rowDimension mappings)).Nodup)
    (hnumber : ∀ row ∈ rows, scaledQuantity R mappings row ≠ some .nan) :
    ∀ o ∈ observations, Covers o.used (scaledQuantities R mappings rows o.dimension_key) := by
  intro o ho
  obtain ⟨row, hrow, reading, hdimension, -, hused⟩ := forall₂_right h o ho
  have hquantity := reading.scaledQuantity_eq (R := R)
  have hone : scaledQuantities R mappings rows o.dimension_key =
      [R.mul (.fin reading.quantity) reading.mapping.scale] := by
    have hfilter := filter_eq_singleton_of_nodup hnodup hrow
    rw [reading.rowDimension_eq, ← hdimension] at hfilter
    rw [scaledQuantities, hfilter, List.filterMap_cons_some hquantity, List.filterMap_nil]
  rw [hused, hone]
  refine covers_ceil fun hnan => hnumber row hrow ?_
  rw [hquantity, hnan]

/-- Of rows that have all been interpreted, the observations count all where no two rows are of one dimension
and each scaled quantity is a number. -/
theorem countsAll_iff (h : List.Forall₂ (Observes R mappings periodOf) rows observations) :
    CountsAll R mappings rows observations ↔
      (rows.map (rowDimension mappings)).Nodup ∧ ∀ row ∈ rows, scaledQuantity R mappings row ≠ some .nan := by
  constructor
  · intro hcounts
    refine ⟨(nodup_key_iff h).1 hcounts.oneEntry, fun row hrow hnan => ?_⟩
    obtain ⟨o, ho, reading, -, -, hused⟩ := forall₂_left h row hrow
    rw [reading.scaledQuantity_eq] at hnan
    have hcovered := hcounts.covered o ho
    rw [hused, Option.some.inj hnan] at hcovered
    exact not_covers_nan _ hcovered
  · rintro ⟨hnodup, hnumber⟩
    have hkeys := (nodup_key_iff h).2 hnodup
    have hcovered := covers_of_nodup h hnodup hnumber
    refine ⟨fun row hrow => ?_, hkeys, hcovered, fun t t' writes hwrites hrecord o ho => ?_⟩
    · obtain ⟨-, -, reading, -⟩ := forall₂_left h row hrow
      exact ⟨reading⟩
    · have hnodupWrites : (writes.map fun w => w.observation.key).Nodup := by
        rw [← hwrites, List.map_map] at hkeys
        exact hkeys
      rw [← hwrites] at ho
      obtain ⟨w, hw, rfl⟩ := List.mem_map.1 ho
      refine ⟨_, recordAll_mem hnodupWrites hrecord w hw, hcovered w.observation ?_⟩
      rw [← hwrites]
      exact List.mem_map_of_mem hw

end Counting

/-- A verified read counts all of the payload's usage where no two of its rows are mapped to one dimension
and no scaled quantity is `NaN`, and nowhere else. Whatever its rows are, each of them is interpreted. -/
theorem never_under_counts_iff {R : Runtime} {input : BillingReadInput}
    {mappings : List BillingDimensionMapping} {result : BillingReadResult}
    (hresult : interpretBillableUsage R input mappings = .ok result) (hstate : result.state = .VERIFIED) :
    CountsAll R mappings (payloadRows input) result.observations ↔
      ((payloadRows input).map (rowDimension mappings)).Nodup ∧
        ∀ row ∈ payloadRows input, scaledQuantity R mappings row ≠ some .nan := by
  obtain ⟨e, start, stop, coverageEnd, -, -, -, hrows⟩ := interpret_verified hresult hstate
  have hobserves : List.Forall₂ (Observes R mappings fun d =>
      ((dimensionSpec d).map (observationKey (cycleKey (Instant.toISOString start)
        (Instant.toISOString stop)) coverageEnd)).getD "") (payloadRows input) result.observations := by
    refine hrows.imp fun row o hrow => ?_
    obtain ⟨reading, rfl⟩ := readRow_ok hrow
    refine ⟨reading, rfl, ?_, rfl⟩
    dsimp only
    rw [reading.dimensionSpec_eq]
    rfl
  exact countsAll_iff hobserves

/-! ## Two rows of one dimension -/

/-- A read whose two rows are mapped to the rows read of D1. -/
def twoRowsResult : BillingReadResult :=
  ⟨.VERIFIED, some octoberObservation.period_key,
    [octoberObservation, { octoberObservation with used := .fin 7 }], [], .NONE⟩

theorem interpret_twoRows : interpretBillableUsage octoberRuntime
    (octoberInput [usageRow "rowsRead" 5, usageRow "rowsRead" 7]) [rowsReadMapping "rowsRead"] =
      .ok twoRowsResult := by
  decide +kernel

/-- The two rows are verified, with two entries of one key, of which the upsert keeps the second. -/
theorem two_rows_under_count :
    ¬ ∀ (R : Runtime) (input : BillingReadInput) (mappings : List BillingDimensionMapping)
      (result : BillingReadResult), interpretBillableUsage R input mappings = .ok result →
      result.state = .VERIFIED → CountsAll R mappings (payloadRows input) result.observations := by
  intro h
  have hcounts := h _ _ _ _ interpret_twoRows rfl
  have hone := hcounts.oneEntry
  revert hone
  decide

/-- The rule at October's read of one row. -/
theorem never_under_counts_iff_october :
    CountsAll octoberRuntime [rowsReadMapping "rowsRead"] (payloadRows (octoberInput [usageRow "rowsRead" 5]))
        octoberResult.observations ↔
      ((payloadRows (octoberInput [usageRow "rowsRead" 5])).map
          (rowDimension [rowsReadMapping "rowsRead"])).Nodup ∧
        ∀ row ∈ payloadRows (octoberInput [usageRow "rowsRead" 5]),
          scaledQuantity octoberRuntime [rowsReadMapping "rowsRead"] row ≠ some .nan :=
  never_under_counts_iff interpret_october rfl

end QuantproCollector.QuotaBilling
