import QuantproCollector.LiveUniverse.Positions

/-!
# Validity under the live universe

When the overlay of an accepted snapshot is accepted again, and when its summary has the counts of
its rows. A held row that is a mapping row breaks both: the validator and the recount know mapping
rows only as rows that are not held. A held row without numbers breaks the first.
-/

namespace QuantproCollector.LiveUniverse

open Portfolio (isRecord)

variable {row row' : Json} {U : StoredLiveUniverse} {snapshot : Json}
  {options : SnapshotValidationOptions}

/-! ## Rows -/

def CLASSIFIED_KEYS : List String :=
  ["market", "exchange", "group", "portfolio_group", "portfolio_status", "mapping_only",
    "mapping_to", "mapped_to"]

theorem Classified.congr (h : ∀ key ∈ CLASSIFIED_KEYS, row'.get? key = row.get? key)
    (hrow : Classified row) : Classified row' := by
  have h1 := h "market" (by decide)
  have h2 := h "exchange" (by decide)
  have h3 := h "group" (by decide)
  have h4 := h "portfolio_group" (by decide)
  have h5 := h "portfolio_status" (by decide)
  have h6 := h "mapping_only" (by decide)
  have h7 := h "mapping_to" (by decide)
  have h8 := h "mapped_to" (by decide)
  exact {
    market := h1 ▸ hrow.market
    exchange := h2 ▸ hrow.exchange
    consistent := by rw [h1, h2]; exact hrow.consistent
    group := h3 ▸ hrow.group
    portfolioGroup := h4 ▸ hrow.portfolioGroup
    portfolioStatus := by rw [h5]; exact hrow.portfolioStatus
    mappingBool := h6 ▸ hrow.mappingBool
    broad := by rw [h3, h4]; exact hrow.broad
    status := by rw [h5, h4]; exact hrow.status
    mappingOnly := by rw [h6, h4]; exact hrow.mappingOnly
    mappingTo := h7 ▸ hrow.mappingTo
    mappedTo := h8 ▸ hrow.mappedTo
    same := by rw [h7, h8]; exact hrow.same
    mapping := by rw [h4, h7, h8]; exact hrow.mapping }

/-- Rows that agree on the fields of a universe item are items alike. -/
theorem Item.congr (hrecord : isRecord row' = true)
    (h : ∀ key ∈ UNIVERSE_FIELDS, row'.get? key = row.get? key) (hrow : Item row) : Item row' := by
  have hsubset : ∀ key ∈ CLASSIFIED_KEYS, key ∈ UNIVERSE_FIELDS := by decide
  refine ⟨hrecord, fun key hkey => ?_, ?_, ?_, ?_, ?_⟩
  · rw [h key hkey]
    exact hrow.fields key hkey
  · rw [h "code" (by decide)]
    exact hrow.code
  · rw [h "name" (by decide)]
    exact hrow.name
  · exact hrow.classified.congr fun key hkey => h key (hsubset key hkey)
  · rw [h "portfolio_group" (by decide), h "holding_status" (by decide),
      h "position_qty" (by decide), h "is_position" (by decide)]
    exact hrow.holding

def SOURCED_KEYS : List String :=
  ["market_status", "freshness_basis", "source_status", "quality", "market_data_time", "quote_time",
    "source_update_time", "fetch_time", "primary_source", "secondary_source"]

theorem Sourced.congr (h : ∀ key ∈ SOURCED_KEYS, row'.get? key = row.get? key)
    (hrow : Sourced row) : Sourced row' := by
  have htexts : ∀ key ∈ ["market_status", "freshness_basis", "source_status", "quality"],
      key ∈ SOURCED_KEYS := by decide
  have htimes : ∀ key ∈ ["market_data_time", "quote_time", "source_update_time"],
      key ∈ SOURCED_KEYS := by decide
  have hsources : ∀ key ∈ ["primary_source", "secondary_source"], key ∈ SOURCED_KEYS := by decide
  refine ⟨fun key hkey => ?_, ?_, fun key hkey => ?_, ?_, fun key hkey => ?_⟩
  · rw [h key (htexts key hkey)]
    exact hrow.texts key hkey
  · rw [h "market_status" (by decide)]
    exact hrow.marketStatus
  · rw [h key (htimes key hkey)]
    exact hrow.times key hkey
  · rw [h "fetch_time" (by decide)]
    exact hrow.fetchTime
  · rw [h key (hsources key hkey)]
    exact hrow.sources key hkey

/-- Every number of a row is there. -/
def Numbers (row : Json) : Prop :=
  ∀ field ∈ NUMERIC_FIELDS, isFiniteNumber (row.get? field) = true

theorem holdingRules_held {portfolioGroup : Option Json} :
    HoldingRules portfolioGroup (some (.str "ACTIVE")) (some .null) (some (.bool true)) ↔
      portfolioGroup ≠ some (.str "mapping") := by
  have hactive : (some (Json.str "ACTIVE") : Option Json) ≠ some (.str "MAPPING_ONLY") := by simp
  constructor
  · intro h hmapping
    have := h.mapping
    rw [decide_eq_true hmapping, decide_eq_true hactive] at this
    cases this
  · intro h
    refine ⟨by decide, ?_, ?_, rfl, rfl, rfl, rfl, rfl⟩
    · rw [decide_eq_false h, Bool.false_and]
    · rw [decide_eq_false hactive, Bool.and_false]

theorem holdingRules_unheld {portfolioGroup : Option Json} {status : String}
    (h : status = if portfolioGroup = some (.str "mapping") then "MAPPING_ONLY" else "WATCH") :
    HoldingRules portfolioGroup (some (.str status)) (some (.num (.ofInt 0)))
      (some (.bool false)) := by
  subst h
  split_ifs with hmapping
  · subst hmapping
    exact ⟨by decide, by decide, by decide, by decide, rfl, by decide, by decide, by decide⟩
  · refine ⟨by decide, ?_, ?_, by decide, rfl, by decide, by decide, by decide⟩
    · rw [decide_eq_false hmapping, Bool.false_and]
    · rw [decide_eq_false (p := some (Json.str "WATCH") = some (.str "MAPPING_ONLY")) (by simp),
        Bool.and_false]

/-- A row of which the three fields are written is accepted where its holding and its numbers are. -/
theorem row_assign_iff {status qty : Json} {held : Bool} {updates : List (String × Json)}
    (hupdates : updates = [("is_position", .bool held), ("position_qty", qty),
      ("holding_status", status)]) (hrow : Row row) :
    Row (row.assign updates) ↔
      HoldingRules (row.get? "portfolio_group") (some status) (some qty) (some (.bool held)) ∧
        ∀ field ∈ NUMERIC_FIELDS, isFiniteNumber (row.get? field) = true ∨
          held = false ∧ row.get? field = some .null := by
  have hupdate : HoldingUpdate updates := ⟨by rw [hupdates]; rfl⟩
  have hmem1 : ("is_position", Json.bool held) ∈ updates := by simp [hupdates]
  have hmem2 : ("position_qty", qty) ∈ updates := by simp [hupdates]
  have hmem3 : ("holding_status", status) ∈ updates := by simp [hupdates]
  have hposition := hupdate.get?_of_mem hrow.toItem hmem1
  have hqty := hupdate.get?_of_mem hrow.toItem hmem2
  have hstatus := hupdate.get?_of_mem hrow.toItem hmem3
  have hother : ∀ key, key ∉ HOLDING_KEYS → (row.assign updates).get? key = row.get? key :=
    fun key hkey => hupdate.get? hrow.toItem hkey
  have hgroup := hother "portfolio_group" (by decide)
  have hnumeric : ∀ field ∈ NUMERIC_FIELDS, (NumericRule (row.assign updates) field ↔
      isFiniteNumber (row.get? field) = true ∨ held = false ∧ row.get? field = some .null) := by
    have hkeys : ∀ field ∈ NUMERIC_FIELDS, field ∉ HOLDING_KEYS := by decide
    intro field hfield
    rw [NumericRule, hother field (hkeys field hfield), hposition]
    rfl
  constructor
  · intro h
    have hholding := h.holding
    rw [hgroup, hstatus, hqty, hposition] at hholding
    exact ⟨hholding, fun field hfield => (hnumeric field hfield).1 (h.numeric field hfield)⟩
  · rintro ⟨hholding, hnumbers⟩
    have hsome : ∀ field, (row.get? field).isSome = true →
        ((row.assign updates).get? field).isSome = true := by
      intro field hfield
      by_cases hkey : field ∈ HOLDING_KEYS
      · simp only [HOLDING_KEYS, List.mem_cons, List.not_mem_nil, or_false] at hkey
        rcases hkey with rfl | rfl | rfl
        · rw [hposition]; rfl
        · rw [hqty]; rfl
        · rw [hstatus]; rfl
      · rw [hother field hkey]
        exact hfield
    have hclassified : ∀ key ∈ CLASSIFIED_KEYS, key ∉ HOLDING_KEYS := by decide
    have hsourced : ∀ key ∈ SOURCED_KEYS, key ∉ HOLDING_KEYS := by decide
    have hrecord : isRecord (row.assign updates) = true := by
      obtain ⟨fields, hfields⟩ := Json.assign_isObj (isObj_of_isRecord hrow.record) updates
      rw [hfields]
      rfl
    refine ⟨⟨hrecord, fun field hfield => hsome field (hrow.fields field hfield), ?_, ?_,
      hrow.classified.congr fun key hkey => hother key (hclassified key hkey), ?_⟩,
      fun field hfield => hsome field (hrow.required field hfield),
      fun field hfield => (hnumeric field hfield).2 (hnumbers field hfield),
      hrow.sourced.congr fun key hkey => hother key (hsourced key hkey)⟩
    · rw [hother "code" (by decide)]
      exact hrow.code
    · rw [hother "name" (by decide)]
      exact hrow.name
    · rw [hgroup, hstatus, hqty, hposition]
      exact hholding

theorem row_held_iff (hrow : Row row) :
    Row (row.assign heldUpdate) ↔ inGroup "mapping" row = false ∧ Numbers row := by
  have h := row_assign_iff (rfl : heldUpdate = _) hrow
  rw [h, holdingRules_held, inGroup, decide_eq_false_iff_not, Numbers]
  simp

theorem row_unheld (hrow : Row row) : Row (row.assign (unheldUpdate (unheldStatus row))) := by
  have h := row_assign_iff (rfl : unheldUpdate (unheldStatus row) = _) hrow
  refine h.2 ⟨holdingRules_unheld ?_, fun field hfield => ?_⟩
  · simp only [unheldStatus, inGroup, decide_eq_true_eq]
  · exact (hrow.numeric field hfield).imp_right fun h => ⟨rfl, h.2⟩

/-- The rows of the overlay are accepted exactly where every row held can be one. -/
theorem overlayRows_accepted {rows : List Json} (hrows : ∀ row ∈ rows, Row row) :
    (∀ row' ∈ overlayRows U rows, Row row') ↔
      ∀ row ∈ rows, isHeld U row = true → inGroup "mapping" row = false ∧ Numbers row := by
  constructor
  · intro h row hmem hheld
    have hrow := hrows row hmem
    have heq := overlayRow_eq hrow.toItem (isHeld U row)
    rw [hheld, isDropped, Bool.not_true, Bool.false_and, if_neg (by decide), if_pos rfl] at heq
    exact (row_held_iff hrow).1 (h _ (mem_overlayRows.2 ⟨row, hmem, hheld ▸ heq⟩))
  · intro h row' hmem'
    obtain ⟨row, hmem, hrow'⟩ := mem_overlayRows.1 hmem'
    have hrow := hrows row hmem
    rw [overlayRow_eq hrow.toItem] at hrow'
    split at hrow'
    · cases hrow'
    · injection hrow' with hrow'
      subst hrow'
      cases hheld : isHeld U row with
      | true => exact (row_held_iff hrow).2 (h row hmem hheld)
      | false => exact row_unheld hrow

/-! ## Universe items -/

theorem lookup_filterMap_fields (fields : List String) (stock : Json) {field : String}
    (hfield : field ∈ fields) :
    (fields.filterMap fun f => (stock.get? f).map (Prod.mk f)).lookup field = stock.get? field := by
  induction fields with
  | nil => exact absurd hfield List.not_mem_nil
  | cons f fields ih =>
    by_cases hf : field = f
    · subst hf
      cases hget : stock.get? field with
      | none =>
        rw [List.filterMap_cons_none (by rw [hget]; rfl)]
        by_cases hmem : field ∈ fields
        · exact (ih hmem).trans hget
        · refine List.lookup_eq_none_iff.2 fun p hp => ?_
          obtain ⟨g, hg, hp⟩ := List.mem_filterMap.1 hp
          obtain ⟨x, -, rfl⟩ := Option.map_eq_some_iff.1 hp
          exact bne_iff_ne.2 fun h => hmem (h ▸ hg)
      | some x =>
        rw [List.filterMap_cons_some (b := (field, x)) (by rw [hget]; rfl), List.lookup_cons_self]
    · have hmem : field ∈ fields := (List.mem_cons.1 hfield).resolve_left hf
      have hne : (field == f) = false := beq_eq_false_iff_ne.2 hf
      cases hget : stock.get? f with
      | none => rw [List.filterMap_cons_none (by rw [hget]; rfl), ih hmem]
      | some x =>
        rw [List.filterMap_cons_some (b := (f, x)) (by rw [hget]; rfl), List.lookup_cons, hne]
        exact ih hmem

theorem get?_toUniverseItem (stock : Json) {field : String} (hfield : field ∈ UNIVERSE_FIELDS) :
    (toUniverseItem stock).get? field = stock.get? field :=
  lookup_filterMap_fields UNIVERSE_FIELDS stock hfield

theorem instrumentKey_toUniverseItem (stock : Json) :
    instrumentKey (toUniverseItem stock) = instrumentKey stock := by
  rw [instrumentKey, instrumentKey, get?_toUniverseItem stock (by decide),
    get?_toUniverseItem stock (by decide)]

theorem item_toUniverseItem (hrow : Item row) : Item (toUniverseItem row) :=
  hrow.congr rfl fun _ hkey => get?_toUniverseItem row hkey

/-! ## Keys -/

theorem firstDuplicate_eq_none (seen : List String) (items : List Json) :
    firstDuplicate seen items = none ↔
      (items.map instrumentKey).Nodup ∧ ∀ item ∈ items, instrumentKey item ∉ seen := by
  induction items generalizing seen with
  | nil => simp [firstDuplicate]
  | cons item items ih =>
    rw [firstDuplicate, List.map_cons, List.nodup_cons, List.forall_mem_cons]
    split_ifs with hseen
    · rw [List.contains_iff_mem] at hseen
      simp [hseen]
    · rw [List.contains_iff_mem] at hseen
      rw [ih]
      simp only [List.mem_cons, not_or, List.mem_map, not_exists, not_and]
      constructor
      · rintro ⟨hnodup, hfresh⟩
        exact ⟨⟨fun x hx => (hfresh x hx).1, hnodup⟩, hseen, fun x hx => (hfresh x hx).2⟩
      · rintro ⟨⟨hfirst, hnodup⟩, -, hfresh⟩
        exact ⟨hnodup, fun x hx => ⟨hfirst x hx, hfresh x hx⟩⟩

theorem requireDistinct_ok {items : List Json} {description : String} :
    requireDistinct items description = .ok () ↔ (items.map instrumentKey).Nodup := by
  unfold requireDistinct
  have h := firstDuplicate_eq_none [] items
  cases hdup : firstDuplicate [] items with
  | none => simpa using (h.1 hdup).1
  | some key =>
    rw [hdup] at h
    simpa using h

theorem instrumentKey_of_differs (h : DiffersInHolding row row') :
    instrumentKey row' = instrumentKey row := by
  rw [instrumentKey, instrumentKey, h.2 "market" (by decide), h.2 "code" (by decide)]

theorem map_eq_of_forall₂ {α β : Type} {r : α → α → Prop} {f : α → β}
    (hf : ∀ a b, r a b → f b = f a) {xs ys : List α} (h : List.Forall₂ r xs ys) :
    ys.map f = xs.map f := by
  induction h with
  | nil => rfl
  | cons hhead _ ih => rw [List.map_cons, List.map_cons, hf _ _ hhead, ih]

theorem nodup_overlayRows {rows : List Json} (hrows : ∀ row ∈ rows, Row row)
    (hnodup : (rows.map instrumentKey).Nodup) :
    ((overlayRows U rows).map instrumentKey).Nodup := by
  have hkeys : (overlayRows U rows).map instrumentKey =
      (rows.filter fun row => !isDropped (isHeld U row) row).map instrumentKey := by
    have hkept := overlayRows_forall₂ (U := U) hrows
    exact map_eq_of_forall₂ (fun _ _ hdiffers => instrumentKey_of_differs hdiffers) hkept
  rw [hkeys]
  exact hnodup.sublist (List.filter_sublist.map instrumentKey)

theorem find?_of_nodup {rows : List Json} (hnodup : (rows.map instrumentKey).Nodup)
    (hmem : row ∈ rows) :
    rows.find? (fun stock => instrumentKey stock == instrumentKey row) = some row := by
  have hsome : (rows.find? fun stock => instrumentKey stock == instrumentKey row).isSome = true :=
    List.find?_isSome.2 ⟨row, hmem, beq_self_eq_true _⟩
  obtain ⟨found, hfound⟩ := Option.isSome_iff_exists.1 hsome
  have hbeq : (instrumentKey found == instrumentKey row) = true :=
    List.find?_some (p := fun stock => instrumentKey stock == instrumentKey row) hfound
  have hkey := beq_iff_eq.1 hbeq
  rw [hfound, List.inj_on_of_nodup_map hnodup (List.mem_of_find?_eq_some hfound) hmem hkey]

theorem compareItem_toUniverseItem {rows : List Json} (hnodup : (rows.map instrumentKey).Nodup)
    (hmem : row ∈ rows) (index : ℕ) : compareItem rows (toUniverseItem row) index = .ok () := by
  rw [compareItem, instrumentKey_toUniverseItem, find?_of_nodup hnodup hmem]
  refine (forIndexed_ok (p := fun field => (toUniverseItem row).get? field = row.get? field)
    (fun field _ _ => require_ok.trans decide_eq_true_iff) 0).2 fun field hfield => ?_
  exact get?_toUniverseItem row hfield

/-- The items of the rows themselves pass the comparison with the rows. -/
theorem compareUniverse_toUniverseItem {rows items : List Json}
    (hrows : (rows.map instrumentKey).Nodup) (hsubset : ∀ item ∈ items, item ∈ rows)
    (hitems : (items.map instrumentKey).Nodup) {seen : List String}
    (hfresh : ∀ item ∈ items, instrumentKey item ∉ seen) (index : ℕ) :
    compareUniverse rows seen index (items.map toUniverseItem) = .ok () := by
  induction items generalizing seen index with
  | nil => rfl
  | cons item items ih =>
    rw [List.map_cons, List.nodup_cons] at hitems
    rw [List.forall_mem_cons] at hsubset hfresh
    have hnew : (!seen.contains (instrumentKey item)) = true := by simp [hfresh.1]
    have hrest : ∀ x ∈ items, instrumentKey x ∉ instrumentKey item :: seen := by
      intro x hx hseen
      rcases List.mem_cons.1 hseen with hkey | hseen
      · exact hitems.1 (hkey ▸ List.mem_map_of_mem hx)
      · exact hfresh.2 x hx hseen
    rw [List.map_cons, compareUniverse, instrumentKey_toUniverseItem, bind_ok, bind_ok, require_ok]
    exact ⟨hnew, compareItem_toUniverseItem hrows hsubset.1 index,
      ih hsubset.2 hitems.2 hrest (index + 1)⟩

/-! ## The summary -/

/-- The summary has the counts of the rows. -/
def SummaryMatches (snapshot : Json) : Prop :=
  (summaryOf snapshot).get? "total" = some (.num (.ofInt (stocks snapshot).length)) ∧
    ∀ field ∈ derivedSummary (getSnapshotCounts snapshot),
      (summaryOf snapshot).get? field.1 = some (.num (.ofInt field.2))

theorem summaryOf_isObj (hs : Snapshot options snapshot) :
    ∃ fields, summaryOf snapshot = .obj fields := by
  have h := hs.summary
  unfold isObject at h
  split at h
  · rename_i v hv
    rw [summaryOf, hv]
    exact isObj_of_isRecord h
  · cases h

theorem summary_applyLiveUniverse (hs : Snapshot options snapshot) :
    summaryOf (applyLiveUniverse snapshot U) =
      overlaidSummary snapshot (overlayRows U (stocks snapshot)) := by
  have hmem : ("summary", overlaidSummary snapshot (overlayRows U (stocks snapshot))) ∈
      overlayFields snapshot U (overlayRows U (stocks snapshot)) := by simp [overlayFields]
  rw [summaryOf, get?_applyLiveUniverse hs hmem, Option.getD_some]

/-- A field that the overlay writes into the summary. -/
theorem get?_overlaidSummary (hs : Snapshot options snapshot) {rows : List Json} {field : String}
    {n : ℕ} (h : (field, n) ∈ overlaySummary rows) :
    (overlaidSummary snapshot rows).get? field = some (.num (.ofInt n)) := by
  have hkeys : ((overlaySummary rows).map countField).map Prod.fst =
      ["total", "active_quote_total", "active_holding_total", "watch_total", "exited_watch_total",
        "mapping_total", "core_total", "growth_total"] := rfl
  exact Json.get?_assign_of_mem (summaryOf_isObj hs) (by rw [hkeys]; decide)
    (List.mem_map_of_mem (f := countField) h)

/-- A held mapping row counts twice in the overlay's sum and once in the recount. -/
theorem countP_isActiveQuote {rows : List Json} (hrows : ∀ row ∈ rows,
    truthy (row.get? "mapping_only") = inGroup "mapping" row) :
    rows.countP isActiveQuote + rows.countP (fun row => isPosition row && inGroup "mapping" row) =
      rows.countP isPosition + rows.countP (inGroup "mapping") := by
  induction rows with
  | nil => rfl
  | cons row rows ih =>
    rw [List.forall_mem_cons] at hrows
    have hrest := ih hrows.2
    have hquote : isActiveQuote row = (isPosition row || inGroup "mapping" row) := by
      rw [isActiveQuote, hrows.1, isPosition]
    simp only [List.countP_cons, hquote]
    cases isPosition row <;> cases inGroup "mapping" row <;> simp <;> omega

/-- Summary and recount differ in the quotes only. -/
theorem summaryMatches_iff (hs : Snapshot options snapshot) :
    SummaryMatches (applyLiveUniverse snapshot U) ↔
      (getSnapshotCounts (applyLiveUniverse snapshot U)).activeQuoteTotal =
        (overlayRows U (stocks snapshot)).countP isPosition +
          (overlayRows U (stocks snapshot)).countP (inGroup "mapping") := by
  have hstocks := stocks_applyLiveUniverse (U := U) hs
  have hsummary := summary_applyLiveUniverse (U := U) hs
  have hget : ∀ field n, (field, n) ∈ overlaySummary (overlayRows U (stocks snapshot)) →
      (summaryOf (applyLiveUniverse snapshot U)).get? field = some (.num (.ofInt n)) :=
    fun field n h => hsummary ▸ get?_overlaidSummary hs h
  constructor
  · rintro ⟨-, hfields⟩
    have hquote := hfields ("active_quote_total", _) List.mem_cons_self
    have hwritten := hget "active_quote_total" ((overlayRows U (stocks snapshot)).countP isPosition +
      (overlayRows U (stocks snapshot)).countP (inGroup "mapping")) (by simp [overlaySummary])
    rw [hwritten] at hquote
    simp only [Option.some.injEq, Json.num.injEq] at hquote
    exact Int.natCast_inj.1 (Decimal.ofInt_injective hquote).symm
  · intro hquote
    refine ⟨?_, fun field hfield => ?_⟩
    · rw [hget "total" _ List.mem_cons_self, hstocks]
    · obtain ⟨name, n⟩ := field
      simp only [derivedSummary, List.mem_cons, List.not_mem_nil, or_false, Prod.mk.injEq] at hfield
      refine hget name n ?_
      rcases hfield with h | h | h | h | h | h | h <;> obtain ⟨rfl, rfl⟩ := h
      · rw [hquote]
        simp [overlaySummary]
      all_goals simp [overlaySummary, getSnapshotCounts, hstocks]

/-- The summary has the rows' counts exactly where no mapping row is held. -/
theorem summaryMatches_applyLiveUniverse (hs : Snapshot options snapshot) :
    SummaryMatches (applyLiveUniverse snapshot U) ↔
      ∀ row ∈ stocks snapshot, isHeld U row = true → inGroup "mapping" row = false := by
  have hmapping : ∀ row row' : Json, Row row → DiffersInHolding row row' →
      inGroup "mapping" row' = inGroup "mapping" row ∧
        truthy (row'.get? "mapping_only") = inGroup "mapping" row' := by
    intro row row' hrow hdiffers
    have hgroup : inGroup "mapping" row' = inGroup "mapping" row := by
      rw [inGroup, inGroup, hdiffers.2 "portfolio_group" (by decide)]
    rw [hgroup, hdiffers.2 "mapping_only" (by decide)]
    exact ⟨rfl, (group_cases hrow.toItem).1⟩
  have hflag : ∀ row' ∈ overlayRows U (stocks snapshot),
      truthy (row'.get? "mapping_only") = inGroup "mapping" row' := by
    intro row' hmem'
    obtain ⟨row, hmem, hrow'⟩ := mem_overlayRows.1 hmem'
    have hrow := hs.rows row hmem
    exact (hmapping row row' hrow (overlayRow_spec hrow.toItem hrow').1).2
  have hcount := countP_isActiveQuote hflag
  have hquotes : (getSnapshotCounts (applyLiveUniverse snapshot U)).activeQuoteTotal =
      (overlayRows U (stocks snapshot)).countP isActiveQuote := by
    rw [getSnapshotCounts, stocks_applyLiveUniverse hs]
  have hzero : (overlayRows U (stocks snapshot)).countP
        (fun row => isPosition row && inGroup "mapping" row) = 0 ↔
      ∀ row ∈ stocks snapshot, isHeld U row = true → inGroup "mapping" row = false := by
    rw [List.countP_eq_zero]
    constructor
    · intro h row hmem hheld
      have hrow := hs.rows row hmem
      have heq := overlayRow_eq hrow.toItem (isHeld U row)
      rw [hheld, isDropped, Bool.not_true, Bool.false_and, if_neg (by decide), if_pos rfl] at heq
      have hnot := h _ (mem_overlayRows.2 ⟨row, hmem, hheld ▸ heq⟩)
      have hsame := (hmapping row _ hrow (overlayRow_spec hrow.toItem heq).1).1
      rw [isPosition_held hrow.toItem, hsame, Bool.true_and, Bool.not_eq_true] at hnot
      exact hnot
    · intro h row' hmem'
      obtain ⟨row, hmem, hrow'⟩ := mem_overlayRows.1 hmem'
      have hrow := hs.rows row hmem
      obtain ⟨hdiffers, -, hposition⟩ := overlayRow_spec hrow.toItem hrow'
      rw [hposition, (hmapping row row' hrow hdiffers).1]
      cases hheld : isHeld U row with
      | true => rw [h row hmem hheld]; decide
      | false => simp
  rw [summaryMatches_iff hs, hquotes, ← hzero]
  omega

/-! ## Snapshots -/

theorem validateDerived_of_matches {summary : Json} {field : String} {n : ℕ}
    (h : summary.get? field = some (.num (.ofInt n))) :
    validateDerived summary field n = .ok () := by
  rw [validateDerived, h]
  refine require_ok.2 ?_
  simp [isIntegerNumber]

/-- The overlay is accepted again where its rows are and its summary has their counts. -/
theorem snapshot_applyLiveUniverse (hs : Snapshot options snapshot)
    (hrows : ∀ row' ∈ overlayRows U (stocks snapshot), Row row')
    (hmatches : SummaryMatches (applyLiveUniverse snapshot U)) :
    Snapshot .none (applyLiveUniverse snapshot U) := by
  have hstocks := stocks_applyLiveUniverse (U := U) hs
  have hnodup := nodup_overlayRows (U := U) hs.rows (requireDistinct_ok.1 hs.distinct)
  have hitems : (applyLiveUniverse snapshot U).get? "portfolio_universe" =
      some (.arr ((overlayRows U (stocks snapshot)).map toUniverseItem)) :=
    get?_applyLiveUniverse hs (by simp [overlayFields])
  have hother : ∀ key ∈ ["snapshot_time", "system_quality"],
      (applyLiveUniverse snapshot U).get? key = snapshot.get? key := by
    intro key hkey
    refine Json.get?_assign_of_notMem (isObj_of_isRecord hs.record) ?_
    change key ∉ ["portfolio_version", "live_universe", "summary", "portfolio_universe", "stocks"]
    revert hkey key
    decide
  have hrecord : isRecord (applyLiveUniverse snapshot U) = true := by
    obtain ⟨fields, hfields⟩ := Json.assign_isObj (isObj_of_isRecord hs.record)
      (overlayFields snapshot U (overlayRows U (stocks snapshot)))
    rw [applyLiveUniverse, hfields]
    rfl
  obtain ⟨summary, hsummary⟩ := Json.assign_isObj (summaryOf_isObj hs)
    ((overlaySummary (overlayRows U (stocks snapshot))).map countField)
  refine {
    record := hrecord
    version := ?_
    time := by rw [hother "snapshot_time" (by decide)]; exact hs.time
    quality := by rw [hother "system_quality" (by decide)]; exact hs.quality
    summary := ?_
    total := ?_
    stocksArray := ?_
    totalRows := hmatches.1
    itemsArray := by rw [hitems]; rfl
    rows := fun stock hmem => hrows stock (hstocks ▸ hmem)
    items := ?_
    lengths := by rw [hitems, hstocks]; exact List.length_map _
    distinct := requireDistinct_ok.2 (hstocks ▸ hnodup)
    compared := ?_
    options := rfl
    derived := fun field hfield => validateDerived_of_matches (hmatches.2 field hfield) }
  · have hversion : (applyLiveUniverse snapshot U).get? "portfolio_version" =
        some (.str ("live:" ++ U.content_hash)) :=
      get?_applyLiveUniverse hs (by simp [overlayFields])
    have hne : "live:" ++ U.content_hash ≠ "" := by
      intro hempty
      have hchars := congrArg String.toList hempty
      rw [String.toList_append] at hchars
      cases hchars
    rw [hversion]
    exact decide_eq_true hne
  · have hfield : (applyLiveUniverse snapshot U).get? "summary" =
        some (overlaidSummary snapshot (overlayRows U (stocks snapshot))) :=
      get?_applyLiveUniverse hs (by simp [overlayFields])
    rw [hfield, overlaidSummary]
    exact congrArg isRecord hsummary
  · rw [hmatches.1]
    simp [isNonNegative, isIntegerNumber]
  · have hfield : (applyLiveUniverse snapshot U).get? "stocks" =
        some (.arr (overlayRows U (stocks snapshot))) :=
      get?_applyLiveUniverse hs (by simp [overlayFields])
    rw [hfield]
    rfl
  · rw [hitems]
    intro item hmem
    obtain ⟨row', hmem', rfl⟩ := List.mem_map.1 hmem
    exact item_toUniverseItem (hrows row' hmem').toItem
  · rw [hitems, hstocks]
    exact compareUniverse_toUniverseItem hnodup (fun _ h => h) hnodup
      (fun _ _ => List.not_mem_nil) 0

/-- The overlay of an accepted snapshot is accepted with the counts of its rows exactly where no
instrument held is a mapping row or a row without some number; the counts agree exactly where none
is a mapping row. -/
theorem overlay_valid (hs : validateSnapshot options snapshot = .ok ()) (U : StoredLiveUniverse) :
    let overlaid := applyLiveUniverse snapshot U
    ((validateSnapshot .none overlaid = .ok () ∧ SummaryMatches overlaid) ↔
      ∀ row ∈ stocks snapshot, instrument row ∈ activeSet U →
        inGroup "mapping" row = false ∧ Numbers row) ∧
      (SummaryMatches overlaid ↔ ∀ row ∈ stocks snapshot, instrument row ∈ activeSet U →
        inGroup "mapping" row = false) := by
  intro overlaid
  have hs := validateSnapshot_ok.1 hs
  have hheld : ∀ row ∈ stocks snapshot, (isHeld U row = true ↔ instrument row ∈ activeSet U) :=
    fun row hmem => isHeld_iff (hs.rows row hmem)
  have hcounts := summaryMatches_applyLiveUniverse (U := U) hs
  have haccepted := overlayRows_accepted (U := U) hs.rows
  have hcounts' : SummaryMatches overlaid ↔ ∀ row ∈ stocks snapshot,
      instrument row ∈ activeSet U → inGroup "mapping" row = false :=
    hcounts.trans (forall₂_congr fun row hmem => by rw [hheld row hmem])
  refine ⟨?_, hcounts'⟩
  constructor
  · rintro ⟨hvalid, -⟩ row hmem hactive
    have hrows := (validateSnapshot_ok.1 hvalid).rows
    rw [stocks_applyLiveUniverse hs] at hrows
    exact haccepted.1 hrows row hmem ((hheld row hmem).2 hactive)
  · intro h
    have hmatches := hcounts'.2 fun row hmem hactive => (h row hmem hactive).1
    have hrows := haccepted.2 fun row hmem hactive => h row hmem ((hheld row hmem).1 hactive)
    exact ⟨validateSnapshot_ok.2 (snapshot_applyLiveUniverse hs hrows hmatches), hmatches⟩

theorem overlay_valid_example :
    let overlaid := applyLiveUniverse exampleSnapshot exampleUniverse
    ((validateSnapshot .none overlaid = .ok () ∧ SummaryMatches overlaid) ↔
      ∀ row ∈ stocks exampleSnapshot, instrument row ∈ activeSet exampleUniverse →
        inGroup "mapping" row = false ∧ Numbers row) ∧
      (SummaryMatches overlaid ↔ ∀ row ∈ stocks exampleSnapshot,
        instrument row ∈ activeSet exampleUniverse → inGroup "mapping" row = false) :=
  overlay_valid validateSnapshot_exampleSnapshot exampleUniverse

/-- The mapping row of a held instrument: the overlaid snapshot is refused, and its summary counts
the row twice. -/
theorem overlay_refused :
    validateLiveUniverse examplePlatform exampleRuntime exampleValue = .ok examplePayload ∧
      validateSnapshot .none exampleSnapshot = .ok () ∧
      validateSnapshot .none (applyLiveUniverse exampleSnapshot exampleUniverse) ≠ .ok () ∧
      ¬ SummaryMatches (applyLiveUniverse exampleSnapshot exampleUniverse) := by
  refine ⟨validateLiveUniverse_exampleValue, validateSnapshot_exampleSnapshot, ?_, ?_⟩
  · intro h
    have hpassed := congrArg passed h
    revert hpassed
    decide
  · rintro ⟨-, h⟩
    have hquote := h ("active_quote_total", _) List.mem_cons_self
    revert hquote
    decide

end QuantproCollector.LiveUniverse
