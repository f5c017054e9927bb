import Mathlib.Data.List.Dedup
import Mathlib.Data.List.Induction
import QuantproCollector.Lib.Fallible
import QuantproCollector.Portfolio.Delta

/-!
# The stream of deltas

A baseline is well formed where it is validated to itself. From a well-formed baseline the reducer
fails only where the observation is refused, and otherwise advances it (`reduce_eq`); so every
stream of observations keeps the baseline well formed, and the deltas of a contiguous stretch lead
from the codes at its start to the codes at its end.
-/

namespace QuantproCollector.Portfolio

open Async
open Fallible (bind_eq_ok ok_bind)

variable {P : Runtime}

/-! ## Canonical codes -/

/-- Distinct code identities in the order of the runtime. -/
structure Canonical (P : Runtime) (codes : List String) : Prop where
  code : ∀ c ∈ codes, isCode c = true
  nodup : codes.Nodup
  sorted : codes.Pairwise (codeLe P)

theorem codeLe_total (P : Runtime) (a b : String) : codeLe P a b ∨ codeLe P b a := by
  unfold codeLe
  rw [P.swap_localeCompare a b]
  cases P.localeCompare a b <;> simp [Ordering.swap, Ordering.isLE]

instance (P : Runtime) : Std.Total (codeLe P) := ⟨codeLe_total P⟩

instance (P : Runtime) : IsTrans String (codeLe P) := ⟨P.trans_localeCompare⟩

theorem sortCodes_eq {codes : List String} (h : codes.Pairwise (codeLe P)) :
    sortCodes P codes = codes :=
  h.insertionSort_eq

theorem length_dedup_eq {codes : List String} :
    codes.dedup.length = codes.length ↔ codes.Nodup := by
  constructor
  · intro h
    rw [← (List.dedup_sublist codes).eq_of_length h]
    exact List.nodup_dedup codes
  · intro h
    rw [h.dedup]

theorem Canonical.filter {codes : List String} (h : Canonical P codes) (p : String → Bool) :
    Canonical P (codes.filter p) where
  code c hc := h.code c (List.mem_of_mem_filter hc)
  nodup := h.nodup.filter p
  sorted := h.sorted.filter p

theorem isCode_of_canonicalCode {value : Json} {context code : String}
    (h : canonicalCode value context = .ok code) : isCode code = true := by
  unfold canonicalCode at h
  dsimp only at h
  split at h
  · split_ifs at h with hcode
    cases h
    exact hcode
  · split_ifs at h with hcode
    cases h
    exact hcode
  · cases h

theorem isCode_of_canonicalCodesFrom {context : String} {index : ℕ} {values : List Json}
    {codes : List String} (h : canonicalCodesFrom context index values = .ok codes) :
    ∀ c ∈ codes, isCode c = true := by
  induction values generalizing index codes with
  | nil =>
    cases h
    simp
  | cons value values ih =>
    unfold canonicalCodesFrom at h
    cases hcode : canonicalCode value (context ++ "[" ++ toString index ++ "]") with
    | error e =>
      rw [hcode] at h
      cases h
    | ok code =>
      cases hrest : canonicalCodesFrom context (index + 1) values with
      | error e =>
        rw [hcode, hrest] at h
        cases h
      | ok rest =>
        rw [hcode, hrest] at h
        cases h
        intro c hc
        rcases List.mem_cons.1 hc with rfl | hc
        · exact isCode_of_canonicalCode hcode
        · exact ih hrest c hc

theorem canonicalCodesFrom_str {context : String} {codes : List String}
    (h : ∀ c ∈ codes, isCode c = true) (index : ℕ) :
    canonicalCodesFrom context index (codes.map .str) = .ok codes := by
  induction codes generalizing index with
  | nil => rfl
  | cons c codes ih =>
    have hcode : canonicalCode (.str c) (context ++ "[" ++ toString index ++ "]") = .ok c := by
      unfold canonicalCode
      dsimp only
      rw [if_pos (h c List.mem_cons_self)]
    rw [List.map_cons, canonicalCodesFrom, hcode,
      ih (fun d hd => h d (List.mem_cons_of_mem _ hd)) (index + 1)]
    rfl

/-- The codes of an observation are canonical. -/
theorem canonical_of_canonicalPortfolioCodes {values : Option Json} {context : String}
    {codes : List String} (h : canonicalPortfolioCodes P values context = .ok codes) :
    Canonical P codes := by
  unfold canonicalPortfolioCodes at h
  split at h
  · rename_i values
    cases hcodes : canonicalCodesFrom context 0 values with
    | error e =>
      rw [hcodes] at h
      cases h
    | ok result =>
      rw [hcodes, ok_bind] at h
      split_ifs at h with hdup
      · cases h
        rw [ne_eq, not_not, length_dedup_eq] at hdup
        have hperm : (sortCodes P result).Perm result := List.perm_insertionSort _ _
        exact ⟨fun c hc => isCode_of_canonicalCodesFrom hcodes c (hperm.mem_iff.1 hc),
          hperm.nodup_iff.2 hdup, List.pairwise_insertionSort _ _⟩
  · cases h

/-- Canonical codes are accepted as they are. -/
theorem assertCanonicalCodes_str {codes : List String} (h : Canonical P codes) (context : String) :
    assertCanonicalCodes P (some (.arr (codes.map .str))) context = .ok codes := by
  unfold assertCanonicalCodes
  dsimp only
  rw [canonicalCodesFrom_str h.code, ok_bind, if_neg (not_not.2 rfl),
    if_neg (not_not.2 (length_dedup_eq.2 h.nodup)), if_neg (not_not.2 (sortCodes_eq h.sorted))]
  rfl

/-- Accepted codes are canonical. -/
theorem canonical_of_assertCanonicalCodes {value : Option Json} {context : String}
    {codes : List String} (h : assertCanonicalCodes P value context = .ok codes) :
    Canonical P codes := by
  unfold assertCanonicalCodes at h
  split at h
  · rename_i values
    cases hcodes : canonicalCodesFrom context 0 values with
    | error e =>
      rw [hcodes] at h
      cases h
    | ok result =>
      rw [hcodes, ok_bind] at h
      split_ifs at h with hvalues hdup hsorted
      · cases h
        rw [ne_eq, not_not] at hdup hsorted
        exact ⟨isCode_of_canonicalCodesFrom hcodes, length_dedup_eq.1 hdup,
          hsorted ▸ List.pairwise_insertionSort _ _⟩
  · cases h

/-! ## Fields -/

def IsTimestamp (P : Runtime) (s : String) : Prop :=
  s.toList.all isSpace = false ∧ (P.dateParse s).isSome = true

theorem assertHash_eq_ok {value : Option Json} {context s : String} :
    assertHash value context = .ok s ↔ value = some (.str s) ∧ isHash s = true := by
  unfold assertHash
  split
  · rename_i t
    split_ifs with ht
    · simp only [Except.ok.injEq, Option.some.injEq, Json.str.injEq]
      constructor
      · rintro rfl
        exact ⟨rfl, ht⟩
      · exact fun h => h.1
    · simp only [Option.some.injEq, Json.str.injEq, false_iff, not_and]
      rintro rfl
      exact ht
  · rename_i hne
    simp only [reduceCtorEq, false_iff, not_and]
    intro h
    exact absurd h (hne s)

theorem assertTimestamp_eq_ok {value : Option Json} {context s : String} :
    assertTimestamp P value context = .ok s ↔ value = some (.str s) ∧ IsTimestamp P s := by
  unfold assertTimestamp IsTimestamp
  split
  · rename_i t
    simp only [Option.some.injEq, Json.str.injEq]
    split_ifs with hblank hparse
    · simp only [false_iff, not_and]
      rintro rfl h
      rw [hblank] at h
      cases h
    · simp only [false_iff, not_and]
      rintro rfl - h
      rw [Option.isNone_iff_eq_none] at hparse
      rw [hparse] at h
      cases h
    · simp only [Except.ok.injEq]
      constructor
      · rintro rfl
        exact ⟨rfl, by simpa using hblank, Option.ne_none_iff_isSome.1 (by simpa using hparse)⟩
      · exact fun h => h.1
  · rename_i hne
    simp only [reduceCtorEq, false_iff, not_and]
    intro h
    exact absurd h (hne s)

@[simp] theorem assertState_text (s : PortfolioDeltaState) (context : String) :
    assertState (some (.str s.text)) context = .ok s := by
  unfold assertState
  cases s <;> rfl

/-! ## Well-formed baselines -/

/-- What the validation of a baseline demands. -/
structure WellFormed (P : Runtime) (b : PortfolioCompleteBaseline) : Prop where
  hash : isHash b.current_complete_hash = true
  codes : Canonical P b.codes
  observed : IsTimestamp P b.observed_at
  eligible : b.eligible = decide (b.last_state = .LIVE_COMPLETE)
  last_hash : isHash b.last_observed_hash = true
  last_observed : IsTimestamp P b.last_observed_at
  order : instant P b.observed_at ≤ instant P b.last_observed_at

theorem wellFormed_of_validate {value : Json} {b : PortfolioCompleteBaseline}
    (h : validatePortfolioCompleteBaseline P value = .ok b) : WellFormed P b := by
  unfold validatePortfolioCompleteBaseline at h
  split_ifs at h
  simp only [bind_eq_ok] at h
  obtain ⟨_, -, _, -, hash, hhash, codes, hcodes, observedAt, hobserved, eligible, -, state, -,
    lastHash, hlastHash, lastAt, hlastAt, h⟩ := h
  split_ifs at h with heligible horder
  cases h
  rw [ne_eq, not_not] at heligible
  exact ⟨(assertHash_eq_ok.1 hhash).2, canonical_of_assertCanonicalCodes hcodes,
    (assertTimestamp_eq_ok.1 hobserved).2, heligible, (assertHash_eq_ok.1 hlastHash).2,
    (assertTimestamp_eq_ok.1 hlastAt).2, by
      unfold compareObservationTime at horder
      dsimp only
      omega⟩

/-- A well-formed baseline is validated to itself. -/
theorem validate_toJson {b : PortfolioCompleteBaseline} (h : WellFormed P b) :
    validatePortfolioCompleteBaseline P b.toJson = .ok b := by
  have hkeys : assertExactKeys b.toJson BASELINE_KEYS "portfolio_complete_baseline" = .ok () := by
    rfl
  unfold validatePortfolioCompleteBaseline
  rw [if_neg (by simp [isRecord, PortfolioCompleteBaseline.toJson]), hkeys, ok_bind]
  have hschema : assertSchemaVersion b.toJson = .ok () := if_neg (not_not.2 rfl)
  have hhash : assertHash (b.toJson.get? "current_complete_hash") "current_complete_hash" =
      .ok b.current_complete_hash := assertHash_eq_ok.2 ⟨rfl, h.hash⟩
  have hcodes : assertCanonicalCodes P (b.toJson.get? "codes") "codes" = .ok b.codes :=
    assertCanonicalCodes_str h.codes _
  have hobserved : assertTimestamp P (b.toJson.get? "observed_at") "observed_at" =
      .ok b.observed_at := assertTimestamp_eq_ok.2 ⟨rfl, h.observed⟩
  have heligible : assertBoolean (b.toJson.get? "eligible") "eligible" = .ok b.eligible := rfl
  have hstate : assertState (b.toJson.get? "last_state") "last_state" = .ok b.last_state :=
    assertState_text b.last_state _
  have hlastHash : assertHash (b.toJson.get? "last_observed_hash") "last_observed_hash" =
      .ok b.last_observed_hash := assertHash_eq_ok.2 ⟨rfl, h.last_hash⟩
  have hlastAt : assertTimestamp P (b.toJson.get? "last_observed_at") "last_observed_at" =
      .ok b.last_observed_at := assertTimestamp_eq_ok.2 ⟨rfl, h.last_observed⟩
  simp only [hschema, hhash, hcodes, hobserved, heligible, hstate, hlastHash, hlastAt, ok_bind]
  have horder := h.order
  rw [if_neg (not_not.2 h.eligible), if_neg (by unfold compareObservationTime; omega)]
  rfl

/-! ## Deltas -/

/-- What the validation of a delta demands. -/
structure DeltaFormed (P : Runtime) (d : PortfolioUniverseDelta) : Prop where
  previous : isHash d.previous_complete_hash = true
  current : isHash d.current_complete_hash = true
  differ : d.previous_complete_hash ≠ d.current_complete_hash
  added : Canonical P d.added_codes
  removed : Canonical P d.removed_codes
  disjoint : ∀ c ∈ d.added_codes, c ∉ d.removed_codes
  observed : IsTimestamp P d.observed_at

/-- A well-formed delta is validated to itself. -/
theorem validateDelta_toJson {d : PortfolioUniverseDelta} (h : DeltaFormed P d) :
    validatePortfolioUniverseDelta P d.toJson = .ok d := by
  have hkeys : assertExactKeys d.toJson DELTA_KEYS "portfolio_universe_delta" = .ok () := by
    rfl
  unfold validatePortfolioUniverseDelta
  rw [if_neg (by simp [isRecord, PortfolioUniverseDelta.toJson]), hkeys, ok_bind]
  have hprevious : assertHash (d.toJson.get? "previous_complete_hash") "previous_complete_hash" =
      .ok d.previous_complete_hash := assertHash_eq_ok.2 ⟨rfl, h.previous⟩
  have hcurrent : assertHash (d.toJson.get? "current_complete_hash") "current_complete_hash" =
      .ok d.current_complete_hash := assertHash_eq_ok.2 ⟨rfl, h.current⟩
  have hadded : assertCanonicalCodes P (d.toJson.get? "added_codes") "added_codes" =
      .ok d.added_codes := assertCanonicalCodes_str h.added _
  have hremoved : assertCanonicalCodes P (d.toJson.get? "removed_codes") "removed_codes" =
      .ok d.removed_codes := assertCanonicalCodes_str h.removed _
  have hoverlap : assertNoOverlap d.added_codes d.removed_codes = .ok () := by
    refine if_neg ?_
    rw [Bool.not_eq_true, List.any_eq_false]
    intro c hc
    simpa using h.disjoint c hc
  have hobserved : assertTimestamp P (d.toJson.get? "observed_at") "observed_at" =
      .ok d.observed_at := assertTimestamp_eq_ok.2 ⟨rfl, h.observed⟩
  simp only [hprevious, hcurrent, ok_bind]
  rw [if_neg h.differ]
  simp only [hadded, hremoved, hoverlap, hobserved, ok_bind]
  rfl

/-! ## The reducer as a function -/

/-- What the validation of an observation demands. -/
structure Observed (P : Runtime) (o : PortfolioUniverseObservation) : Prop where
  hash : isHash o.current_complete_hash = true
  codes : Canonical P o.active_codes
  observed : IsTimestamp P o.observed_at

theorem observed_of_validate {value : Json} {o : PortfolioUniverseObservation}
    (h : validateObservation P value = .ok o) : Observed P o := by
  unfold validateObservation at h
  split_ifs at h
  simp only [bind_eq_ok] at h
  obtain ⟨state, -, hash, hhash, observedAt, hobserved, codes, hcodes, h⟩ := h
  cases h
  exact ⟨(assertHash_eq_ok.1 hhash).2, canonical_of_canonicalPortfolioCodes hcodes,
    (assertTimestamp_eq_ok.1 hobserved).2⟩

/-- The observation is not older than the last one. -/
def Current (P : Runtime) (b : PortfolioCompleteBaseline) (o : PortfolioUniverseObservation) :
    Prop :=
  instant P b.last_observed_at ≤ instant P o.observed_at

/-- A complete observation that follows a complete one without a gap or a conflict. -/
structure Contiguous (P : Runtime) (b : PortfolioCompleteBaseline)
    (o : PortfolioUniverseObservation) : Prop where
  eligible : b.eligible = true
  complete : o.state = .LIVE_COMPLETE
  current : Current P b o
  agreed : sameTimestampConflict P o b = false

instance (b : PortfolioCompleteBaseline) (o : PortfolioUniverseObservation) :
    Decidable (Current P b o) :=
  inferInstanceAs (Decidable (_ ≤ _))

/-- What the reducer makes of a baseline and an observation. -/
def advance (P : Runtime) (baseline : Option PortfolioCompleteBaseline)
    (o : PortfolioUniverseObservation) : PortfolioDeltaReduction :=
  match baseline with
  | none => ⟨if o.state = .LIVE_COMPLETE then some (nextBaseline o) else none, none⟩
  | some b =>
    if ¬ Current P b o then ⟨some b, none⟩
    else if o.state ≠ .LIVE_COMPLETE then ⟨some (interrupted b o), none⟩
    else if b.eligible = true ∧ sameTimestampConflict P o b = false ∧
        b.current_complete_hash ≠ o.current_complete_hash then
      ⟨some (nextBaseline o), some (deltaOf b o)⟩
    else ⟨some (nextBaseline o), none⟩

theorem deltaFormed_deltaOf {b : PortfolioCompleteBaseline} {o : PortfolioUniverseObservation}
    (hb : WellFormed P b) (ho : Observed P o)
    (hne : b.current_complete_hash ≠ o.current_complete_hash) : DeltaFormed P (deltaOf b o) where
  previous := hb.hash
  current := ho.hash
  differ := hne
  added := ho.codes.filter _
  removed := hb.codes.filter _
  disjoint c hc := by
    simp only [deltaOf, List.mem_filter, Bool.not_eq_true', List.contains_eq_mem,
      decide_eq_false_iff_not, not_and, not_not] at hc ⊢
    exact fun _ => hc.1
  observed := ho.observed

theorem reduceObservation_eq {baseline : Option PortfolioCompleteBaseline}
    {o : PortfolioUniverseObservation} (hb : ∀ b ∈ baseline, WellFormed P b) (ho : Observed P o) :
    reduceObservation P baseline o = .ok (advance P baseline o) := by
  unfold reduceObservation advance
  cases baseline with
  | none =>
    rw [if_neg (by simp)]
    by_cases hstate : o.state = .LIVE_COMPLETE
    · rw [if_neg (not_not.2 hstate), if_pos hstate]
    · rw [if_pos hstate, if_neg hstate]
      rfl
  | some b =>
    have hold : (Option.any (fun b => decide (compareObservationTime P o.observed_at
        b.last_observed_at < 0)) (some b) = true) ↔ ¬ Current P b o := by
      change decide (instant P o.observed_at - instant P b.last_observed_at < 0) = true ↔
        ¬ instant P b.last_observed_at ≤ instant P o.observed_at
      rw [decide_eq_true_iff]
      omega
    by_cases hcurrent : Current P b o
    · rw [if_neg fun h => hold.1 h hcurrent]
      dsimp only
      rw [if_neg (not_not.2 hcurrent)]
      by_cases hstate : o.state = .LIVE_COMPLETE
      · rw [if_neg (not_not.2 hstate), if_neg (not_not.2 hstate)]
        by_cases hblocked : (!b.eligible || sameTimestampConflict P o b) = true
        · rw [if_pos hblocked, if_neg]
          rintro ⟨h1, h2, -⟩
          simp [h1, h2] at hblocked
        · rw [if_neg hblocked]
          obtain ⟨heligible, hagreed⟩ : b.eligible = true ∧ sameTimestampConflict P o b = false := by
            simpa using hblocked
          by_cases hhash : b.current_complete_hash = o.current_complete_hash
          · rw [if_pos hhash, if_neg fun h => h.2.2 hhash]
          · rw [if_neg hhash, if_pos ⟨heligible, hagreed, hhash⟩,
              validateDelta_toJson (deltaFormed_deltaOf (hb b rfl) ho hhash)]
            rfl
      · rw [if_pos hstate, if_pos hstate]
        rfl
    · rw [if_pos (hold.2 hcurrent)]
      dsimp only
      rw [if_pos hcurrent]

/-- **The reducer fails only where the observation is refused.** -/
theorem reduce_eq {previous : Option PortfolioCompleteBaseline}
    (hb : ∀ b ∈ previous, WellFormed P b) (current : Json) :
    reducePortfolioUniverseDelta P previous current =
      (validateObservation P current).map (advance P previous) := by
  unfold reducePortfolioUniverseDelta
  cases hvalid : validateObservation P current with
  | error e => rfl
  | ok o =>
    rw [ok_bind]
    cases previous with
    | none => exact reduceObservation_eq (by simp) (observed_of_validate hvalid)
    | some b =>
      dsimp only
      rw [validate_toJson (hb b rfl), ok_bind]
      exact reduceObservation_eq hb (observed_of_validate hvalid)

theorem wellFormed_nextBaseline {o : PortfolioUniverseObservation} (ho : Observed P o) :
    WellFormed P (nextBaseline o) :=
  ⟨ho.hash, ho.codes, ho.observed, rfl, ho.hash, ho.observed, le_refl _⟩

theorem wellFormed_interrupted {b : PortfolioCompleteBaseline} {o : PortfolioUniverseObservation}
    (hb : WellFormed P b) (ho : Observed P o) (hstate : o.state ≠ .LIVE_COMPLETE)
    (hcurrent : Current P b o) : WellFormed P (interrupted b o) :=
  ⟨hb.hash, hb.codes, hb.observed, (decide_eq_false hstate).symm, ho.hash, ho.observed,
    hb.order.trans hcurrent⟩

/-- An advanced baseline is well formed, and not older than the one before. -/
theorem wellFormed_advance {baseline : Option PortfolioCompleteBaseline}
    {o : PortfolioUniverseObservation} (hb : ∀ b ∈ baseline, WellFormed P b) (ho : Observed P o) :
    ∀ b' ∈ (advance P baseline o).baseline, WellFormed P b' ∧
      ∀ b ∈ baseline, instant P b.last_observed_at ≤ instant P b'.last_observed_at := by
  unfold advance
  cases baseline with
  | none =>
    dsimp only
    split_ifs
    · rintro b' hb'
      cases hb'
      exact ⟨wellFormed_nextBaseline ho, by simp⟩
    · simp
  | some b =>
    dsimp only
    split_ifs with hcurrent hstate
    · rintro b' hb'
      cases hb'
      exact ⟨wellFormed_interrupted (hb b rfl) ho hstate hcurrent, by
        rintro _ ⟨⟩
        exact hcurrent⟩
    · rintro b' hb'
      cases hb'
      exact ⟨wellFormed_nextBaseline ho, by
        rintro _ ⟨⟩
        exact hcurrent⟩
    · rintro b' hb'
      cases hb'
      exact ⟨wellFormed_nextBaseline ho, by
        rintro _ ⟨⟩
        exact hcurrent⟩
    · rintro b' hb'
      cases hb'
      exact ⟨hb b rfl, by simp⟩

/-! ## Streams -/

/-- The baseline after one more observation; one that is refused leaves it. -/
def feed (P : Runtime) (baseline : Option PortfolioCompleteBaseline) (current : Json) :
    Option PortfolioCompleteBaseline :=
  match reducePortfolioUniverseDelta P baseline current with
  | .ok reduction => reduction.baseline
  | .error _ => baseline

/-- The baseline after a stream of observations. -/
def stream (P : Runtime) (baseline : Option PortfolioCompleteBaseline) (observations : List Json) :
    Option PortfolioCompleteBaseline :=
  observations.foldl (feed P) baseline

/-- The codes after a delta, if there is one. -/
def applyDelta (delta : Option PortfolioUniverseDelta) (codes : List String) : List String :=
  match delta with
  | none => codes
  | some d => codes.filter (fun c => !d.removed_codes.contains c) ++ d.added_codes

theorem feed_eq {baseline : Option PortfolioCompleteBaseline}
    (hb : ∀ b ∈ baseline, WellFormed P b) (current : Json) :
    feed P baseline current = match validateObservation P current with
      | .ok o => (advance P baseline o).baseline
      | .error _ => baseline := by
  unfold feed
  rw [reduce_eq hb]
  cases validateObservation P current <;> rfl

theorem wellFormed_feed {baseline : Option PortfolioCompleteBaseline}
    (hb : ∀ b ∈ baseline, WellFormed P b) (current : Json) :
    ∀ b ∈ feed P baseline current, WellFormed P b := by
  rw [feed_eq hb]
  cases hvalid : validateObservation P current with
  | error e => exact hb
  | ok o => exact fun b hb' => (wellFormed_advance hb (observed_of_validate hvalid) b hb').1

/-- Every stream keeps the baseline well formed. -/
theorem wellFormed_stream (observations : List Json) {baseline : Option PortfolioCompleteBaseline}
    (hb : ∀ b ∈ baseline, WellFormed P b) :
    ∀ b ∈ stream P baseline observations, WellFormed P b := by
  induction observations generalizing baseline with
  | nil => exact hb
  | cons current rest ih => exact ih (wellFormed_feed hb current)

/-- A delta is emitted only by a complete observation that continues a complete one. -/
theorem contiguous_of_delta {baseline : Option PortfolioCompleteBaseline}
    {o : PortfolioUniverseObservation} {d : PortfolioUniverseDelta}
    (h : (advance P baseline o).delta = some d) :
    ∃ b, baseline = some b ∧ Contiguous P b o ∧
      b.current_complete_hash ≠ o.current_complete_hash ∧ d = deltaOf b o := by
  unfold advance at h
  cases baseline with
  | none => cases h
  | some b =>
    dsimp only at h
    split_ifs at h with hcurrent hstate hcond
    exact ⟨b, rfl, ⟨hcond.1, not_not.1 hstate, hcurrent, hcond.2.1⟩, hcond.2.2,
      (Option.some.inj h).symm⟩

/-- The codes of a delta lead to the codes of the observation. -/
theorem mem_applyDelta_deltaOf {b : PortfolioCompleteBaseline} {o : PortfolioUniverseObservation}
    (c : String) : c ∈ applyDelta (some (deltaOf b o)) b.codes ↔ c ∈ o.active_codes := by
  simp only [applyDelta, deltaOf, List.mem_append, List.mem_filter, Bool.not_eq_true',
    List.contains_eq_mem, decide_eq_false_iff_not, not_and, not_not]
  by_cases hb : c ∈ b.codes
  · simp [hb]
  · simp [hb]

/-- **Composition.** A contiguous observation becomes the baseline, and what it emits leads from the
codes before to its own; it may emit nothing only where its hash is the one before. -/
theorem advance_contiguous {b : PortfolioCompleteBaseline} {o : PortfolioUniverseObservation}
    (h : Contiguous P b o)
    (hcodes : b.current_complete_hash = o.current_complete_hash →
      ∀ c, c ∈ b.codes ↔ c ∈ o.active_codes) :
    (advance P (some b) o).baseline = some (nextBaseline o) ∧
      ∀ c, c ∈ applyDelta (advance P (some b) o).delta b.codes ↔ c ∈ o.active_codes := by
  unfold advance
  dsimp only
  rw [if_neg (not_not.2 h.current), if_neg (not_not.2 h.complete)]
  split_ifs with hcond
  · exact ⟨rfl, mem_applyDelta_deltaOf⟩
  · have hhash : b.current_complete_hash = o.current_complete_hash := by
      by_contra hne
      exact hcond ⟨h.eligible, h.agreed, hne⟩
    exact ⟨rfl, hcodes hhash⟩

/-- The codes and the hash of a baseline are those of an observation of its stream. -/
theorem exists_observation {observations : List Json} {b : PortfolioCompleteBaseline}
    (h : stream P none observations = some b) :
    ∃ current ∈ observations, ∃ o, validateObservation P current = .ok o ∧
      o.state = .LIVE_COMPLETE ∧ o.current_complete_hash = b.current_complete_hash ∧
        o.active_codes = b.codes := by
  induction observations using List.reverseRecOn generalizing b with
  | nil => cases h
  | append_singleton rest current ih =>
    have hrest : stream P none (rest ++ [current]) = feed P (stream P none rest) current := by
      simp [stream]
    have hwell : ∀ b ∈ stream P none rest, WellFormed P b := wellFormed_stream rest (by simp)
    rw [hrest, feed_eq hwell] at h
    have hold : stream P none rest = some b → ∃ c ∈ rest ++ [current], ∃ o,
        validateObservation P c = .ok o ∧ o.state = .LIVE_COMPLETE ∧
          o.current_complete_hash = b.current_complete_hash ∧ o.active_codes = b.codes := by
      intro hb
      obtain ⟨c, hc, hspec⟩ := ih hb
      exact ⟨c, List.mem_append_left _ hc, hspec⟩
    cases hvalid : validateObservation P current with
    | error e =>
      rw [hvalid] at h
      exact hold h
    | ok o =>
      rw [hvalid] at h
      dsimp only at h
      have hnew : o.state = .LIVE_COMPLETE → some (nextBaseline o) = some b → ∃ c ∈ rest ++ [current],
          ∃ o, validateObservation P c = .ok o ∧ o.state = .LIVE_COMPLETE ∧
            o.current_complete_hash = b.current_complete_hash ∧ o.active_codes = b.codes := by
        rintro hstate hb
        cases hb
        exact ⟨current, by simp, o, hvalid, hstate, rfl, rfl⟩
      unfold advance at h
      cases hbase : stream P none rest with
      | none =>
        rw [hbase] at h
        dsimp only at h
        split_ifs at h with hstate
        exact hnew hstate h
      | some b₀ =>
        rw [hbase] at h hold
        dsimp only at h
        split_ifs at h with hcurrent hstate hcond
        · cases h
          obtain ⟨c, hc, hspec⟩ := ih hbase
          exact ⟨c, List.mem_append_left _ hc, hspec⟩
        · exact hnew (not_not.1 hstate) h
        · exact hnew (not_not.1 hstate) h
        · exact hold h

end QuantproCollector.Portfolio
