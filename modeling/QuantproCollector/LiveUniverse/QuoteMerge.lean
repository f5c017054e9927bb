import QuantproCollector.LiveUniverse.DynamicQuotes

/-!
# The merge of dynamic quotes

A snapshot with the rows of a batch that it lacks. An instrument is known by its market and code, in
the snapshot as in the batch, so a row that was added is not missing any more.
-/

namespace QuantproCollector.LiveUniverse

open Portfolio (isRecord)

variable {snapshot : Json} {options : SnapshotValidationOptions} {additions : List Json}

/-- The loop over a batch's rows: the rows added so far and the keys seen so far. -/
def collectAdditions (existing : List String) (identities : List CanonicalIdentity) :
    List Json → List String → List Json → Except DynamicQuoteError (List Json × List String)
  | additions, seenBatch, [] => .ok (additions, seenBatch)
  | additions, seenBatch, row :: rows =>
    match identities.find? fun identity => identity.key == instrumentKey row with
    | none =>
      .error (identityFailure .INVALID_PROVIDER_QUOTE
        "provider returned a row outside the active universe" none none)
    | some activeIdentity =>
      if some (.str activeIdentity.exchange.text) ≠ row.get? "exchange" then
        .error (identityFailure .INVALID_PROVIDER_QUOTE
          "provider returned a row outside the active universe" none none)
      else if instrumentKey row ∈ seenBatch then
        .error (identityFailure .INVALID_PROVIDER_QUOTE "provider returned duplicate active rows"
          none none)
      else
        collectAdditions existing identities
          (if instrumentKey row ∈ existing then additions else additions ++ [row])
          (instrumentKey row :: seenBatch) rows

/-- The summary's fields that the merge writes. -/
def countSummary (counts : SnapshotCounts) : List (String × ℕ) :=
  [("total", counts.total), ("active_quote_total", counts.activeQuoteTotal),
    ("active_holding_total", counts.activeHoldingTotal), ("watch_total", counts.watchTotal),
    ("exited_watch_total", counts.exitedWatchTotal), ("mapping_total", counts.mappingTotal),
    ("core_total", counts.coreTotal), ("growth_total", counts.growthTotal)]

/-- The summary with the counts; `usable` is written only where it is there. -/
def mergedSummary (summary : Json) (counts : SnapshotCounts) : Json :=
  summary.assign ((countSummary counts ++
    if (summary.get? "usable").isSome then [("usable", counts.total)] else []).map countField)

/-- The snapshot with rows added, before its summary is written. -/
def provisional (snapshot : Json) (additions : List Json) : Json :=
  snapshot.assign [("stocks", .arr (stocks snapshot ++ additions)),
    ("portfolio_universe",
      .arr (elements (snapshot.get? "portfolio_universe") ++ additions.map toUniverseItem))]

def mergedSnapshot (snapshot : Json) (additions : List Json) : Json :=
  (provisional snapshot additions).assign [("summary",
    mergedSummary (summaryOf snapshot) (getSnapshotCounts (provisional snapshot additions)))]

def mergeDynamicQuoteRows (snapshot : Json) (batch : DynamicQuoteBatch) :
    Except DynamicQuoteError Json :=
  if ¬(batch.identities.map CanonicalIdentity.key).Nodup then
    .error ⟨.PARTIAL_PROVIDER_FAILURE, "dynamic quote batch contains duplicate active identities", []⟩
  else
    match collectAdditions ((stocks snapshot).map instrumentKey) batch.identities [] []
      batch.rows with
    | .error e => .error e
    | .ok (additions, seenBatch) =>
      let missing := batch.identities.filter fun identity => decide (identity.key ∉ seenBatch)
      if missing ≠ [] then
        .error ⟨.PARTIAL_PROVIDER_FAILURE, "dynamic quote batch is incomplete",
          missing.map fun identity => ⟨some identity, some (resolveTencentSymbol identity),
            .PARTIAL_PROVIDER_FAILURE, "missing quote row for active identity"⟩⟩
      else .ok (mergedSnapshot snapshot additions)

/-! ## The rows added -/

/-- The rows that a snapshot with these rows lacks. -/
def missingRows (existing rows : List Json) : List Json :=
  rows.filter fun row => decide (instrumentKey row ∉ existing.map instrumentKey)

theorem collectAdditions_ok {existing : List Json} {identities : List CanonicalIdentity}
    {seenBatch : List String} {rows : List Json}
    (hrows : ∀ row ∈ rows, ∃ identity ∈ identities, identity.key = instrumentKey row ∧
      row.get? "exchange" = some (.str identity.exchange.text))
    (hkeys : (identities.map CanonicalIdentity.key).Nodup)
    (hnodup : (rows.map instrumentKey).Nodup) (hfresh : ∀ row ∈ rows, instrumentKey row ∉ seenBatch) :
    collectAdditions (existing.map instrumentKey) identities additions seenBatch rows =
      .ok (additions ++ missingRows existing rows, (rows.map instrumentKey).reverse ++ seenBatch) := by
  induction rows generalizing additions seenBatch with
  | nil => simp [collectAdditions, missingRows]
  | cons row rows ih =>
    rw [List.forall_mem_cons] at hrows hfresh
    rw [List.map_cons, List.nodup_cons] at hnodup
    obtain ⟨⟨identity, hidentity, hkey, hexchange⟩, hrest⟩ := hrows
    have hfound : identities.find? (fun identity => identity.key == instrumentKey row) =
        some identity := by
      cases hfind : identities.find? fun identity => identity.key == instrumentKey row with
      | none => exact absurd (beq_iff_eq.2 hkey) (List.find?_eq_none.1 hfind identity hidentity)
      | some found =>
        have hbeq := List.find?_some hfind
        have hsame : found.key = identity.key := (beq_iff_eq.1 hbeq).trans hkey.symm
        have hmem := List.mem_of_find?_eq_some hfind
        exact congrArg some (List.inj_on_of_nodup_map hkeys hmem hidentity hsame)
    have hnext : ∀ row' ∈ rows, instrumentKey row' ∉ instrumentKey row :: seenBatch := by
      intro row' hmem hseen
      rcases List.mem_cons.1 hseen with heq | hseen
      · exact hnodup.1 (heq ▸ List.mem_map_of_mem hmem)
      · exact hfresh.2 row' hmem hseen
    rw [collectAdditions, hfound]
    dsimp only
    rw [if_neg (not_not.2 hexchange.symm), if_neg hfresh.1, ih hrest hnodup.2 hnext, List.map_cons,
      List.reverse_cons, List.append_assoc, List.singleton_append]
    by_cases hmem : instrumentKey row ∈ existing.map instrumentKey
    · have hskipped : missingRows existing (row :: rows) = missingRows existing rows :=
        List.filter_cons_of_neg (by rw [decide_eq_true_eq]; exact not_not.2 hmem)
      rw [if_pos hmem, hskipped]
    · have hadded : missingRows existing (row :: rows) = row :: missingRows existing rows :=
        List.filter_cons_of_pos (decide_eq_true hmem)
      rw [if_neg hmem, hadded, List.append_assoc, List.singleton_append]

theorem instrumentKey_quoteRow (identity : CanonicalIdentity) (q : NormalizedQuote) :
    instrumentKey (quoteRow identity q) = identity.key := by
  have hmarket : Portfolio.templateText ((quoteRow identity q).get? "market") = identity.market.text :=
    text_str _
  have hcode : Portfolio.templateText ((quoteRow identity q).get? "code") = identity.code := text_str _
  rw [instrumentKey, hmarket, hcode, CanonicalIdentity.key]

/-- A batch's rows in terms of its identities. -/
def BatchRows (identities : List CanonicalIdentity) (rows : List Json) : Prop :=
  List.Forall₂ (fun identity row => ∃ q : NormalizedQuote, q.Valid ∧ row = quoteRow identity q)
    identities rows

theorem BatchRows.keys {identities : List CanonicalIdentity} {rows : List Json}
    (h : BatchRows identities rows) :
    rows.map instrumentKey = identities.map CanonicalIdentity.key := by
  induction h with
  | nil => rfl
  | cons hhead _ ih =>
    obtain ⟨q, -, rfl⟩ := hhead
    rw [List.map_cons, List.map_cons, instrumentKey_quoteRow, ih]

theorem BatchRows.exists_identity {identities : List CanonicalIdentity} {rows : List Json}
    (h : BatchRows identities rows) {row : Json} (hmem : row ∈ rows) :
    ∃ identity ∈ identities, ∃ q : NormalizedQuote, q.Valid ∧ row = quoteRow identity q := by
  obtain ⟨i, hi, rfl⟩ := List.mem_iff_getElem.1 hmem
  have hlength := h.length_eq
  exact ⟨identities[i], List.getElem_mem _, h.get (by omega) hi⟩

/-- The rows of a batch are merged into any snapshot: those that it lacks are added. -/
theorem merge_eq {batch : DynamicQuoteBatch} (hrows : BatchRows batch.identities batch.rows)
    (hkeys : (batch.identities.map CanonicalIdentity.key).Nodup) (snapshot : Json) :
    mergeDynamicQuoteRows snapshot batch =
      .ok (mergedSnapshot snapshot (missingRows (stocks snapshot) batch.rows)) := by
  have hidentities : ∀ row ∈ batch.rows, ∃ identity ∈ batch.identities,
      identity.key = instrumentKey row ∧
        row.get? "exchange" = some (.str identity.exchange.text) := by
    intro row hmem
    obtain ⟨identity, hidentity, q, -, rfl⟩ := hrows.exists_identity hmem
    exact ⟨identity, hidentity, (instrumentKey_quoteRow identity q).symm, rfl⟩
  have hcollected : collectAdditions ((stocks snapshot).map instrumentKey) batch.identities [] []
      batch.rows = .ok ([] ++ missingRows (stocks snapshot) batch.rows,
        (batch.rows.map instrumentKey).reverse ++ []) :=
    collectAdditions_ok hidentities hkeys (hrows.keys ▸ hkeys) fun _ _ => List.not_mem_nil
  have hcomplete : batch.identities.filter (fun identity =>
      decide (identity.key ∉ (batch.rows.map instrumentKey).reverse)) = [] := by
    refine List.filter_eq_nil_iff.2 fun identity hmem => ?_
    rw [hrows.keys, decide_eq_true_eq, List.mem_reverse, not_not]
    exact List.mem_map_of_mem hmem
  unfold mergeDynamicQuoteRows
  rw [if_neg (not_not.2 hkeys), hcollected]
  dsimp only
  rw [List.append_nil, List.nil_append, hcomplete, if_neg (fun h => h rfl)]

/-! ## The merged snapshot -/

section
variable (hobj : ∃ fields, snapshot = .obj fields)
include hobj

theorem provisional_isObj : ∃ fields, provisional snapshot additions = .obj fields :=
  Json.assign_isObj hobj _

theorem get?_merged_of_notMem {key : String} (h : key ∉ ["summary", "stocks", "portfolio_universe"]) :
    (mergedSnapshot snapshot additions).get? key = snapshot.get? key := by
  simp only [List.mem_cons, List.not_mem_nil, or_false, not_or] at h
  rw [mergedSnapshot, Json.get?_assign_of_notMem (provisional_isObj hobj) (by simp [h.1])]
  exact Json.get?_assign_of_notMem hobj (by simp [h.2])

theorem get?_provisional_stocks : (provisional snapshot additions).get? "stocks" =
    some (.arr (stocks snapshot ++ additions)) :=
  Json.get?_assign_of_mem hobj (by simp) List.mem_cons_self

theorem get?_merged_stocks : (mergedSnapshot snapshot additions).get? "stocks" =
    some (.arr (stocks snapshot ++ additions)) := by
  rw [mergedSnapshot, Json.get?_assign_of_notMem (provisional_isObj hobj) (by simp)]
  exact get?_provisional_stocks hobj

theorem get?_merged_universe : (mergedSnapshot snapshot additions).get? "portfolio_universe" =
    some (.arr (elements (snapshot.get? "portfolio_universe") ++
      additions.map toUniverseItem)) := by
  rw [mergedSnapshot, Json.get?_assign_of_notMem (provisional_isObj hobj) (by simp)]
  exact Json.get?_assign_of_mem hobj (by simp) (by simp)

theorem stocks_merged : stocks (mergedSnapshot snapshot additions) = stocks snapshot ++ additions := by
  rw [stocks, get?_merged_stocks hobj]
  rfl

/-- The counts are those of the rows, which the summary does not touch. -/
theorem counts_merged : getSnapshotCounts (provisional snapshot additions) =
    getSnapshotCounts (mergedSnapshot snapshot additions) := by
  have hstocks : stocks (provisional snapshot additions) =
      stocks (mergedSnapshot snapshot additions) := by
    rw [stocks_merged hobj, stocks, get?_provisional_stocks hobj]
    rfl
  rw [getSnapshotCounts, getSnapshotCounts, hstocks]

theorem get?_merged_summary : (mergedSnapshot snapshot additions).get? "summary" =
    some (mergedSummary (summaryOf snapshot)
      (getSnapshotCounts (mergedSnapshot snapshot additions))) := by
  rw [← counts_merged hobj, mergedSnapshot]
  exact Json.get?_assign_of_mem (provisional_isObj hobj) (by simp) List.mem_cons_self

theorem summary_merged : summaryOf (mergedSnapshot snapshot additions) =
    mergedSummary (summaryOf snapshot) (getSnapshotCounts (mergedSnapshot snapshot additions)) := by
  rw [summaryOf, get?_merged_summary hobj, Option.getD_some]

end

theorem countSummary_keys_nodup (summary : Json) (counts : SnapshotCounts) :
    (((countSummary counts ++ if (summary.get? "usable").isSome then [("usable", counts.total)]
      else []).map countField).map Prod.fst).Nodup := by
  split_ifs
  · exact (by decide : ["total", "active_quote_total", "active_holding_total", "watch_total",
      "exited_watch_total", "mapping_total", "core_total", "growth_total", "usable"].Nodup)
  · exact (by decide : ["total", "active_quote_total", "active_holding_total", "watch_total",
      "exited_watch_total", "mapping_total", "core_total", "growth_total"].Nodup)

theorem get?_mergedSummary {summary : Json} (hobj : ∃ fields, summary = .obj fields)
    {counts : SnapshotCounts} {field : String} {n : ℕ}
    (h : (field, n) ∈ countSummary counts ++
      if (summary.get? "usable").isSome then [("usable", counts.total)] else []) :
    (mergedSummary summary counts).get? field = some (.num (.ofInt n)) :=
  Json.get?_assign_of_mem hobj (countSummary_keys_nodup summary counts)
    (List.mem_map_of_mem (f := countField) h)

/-- The summary of a merged snapshot has the counts of its rows. -/
theorem summaryMatches_merged (hs : Snapshot options snapshot) :
    SummaryMatches (mergedSnapshot snapshot additions) := by
  have hobj := isObj_of_isRecord hs.record
  have hget : ∀ field n,
      (field, n) ∈ countSummary (getSnapshotCounts (mergedSnapshot snapshot additions)) →
        (summaryOf (mergedSnapshot snapshot additions)).get? field = some (.num (.ofInt n)) := by
    intro field n h
    rw [summary_merged hobj]
    exact get?_mergedSummary (summaryOf_isObj hs) (List.mem_append_left _ h)
  have hderived : ∀ counts : SnapshotCounts, counts.exitedWatchTotal = 0 →
      ∀ field ∈ derivedSummary counts, field ∈ countSummary counts := by
    intro counts hexited field hfield
    refine List.mem_cons_of_mem _ ?_
    rw [hexited]
    exact hfield
  exact ⟨hget "total" _ List.mem_cons_self, fun field hfield => hget field.1 field.2
    (hderived _ rfl field hfield)⟩

/-- A second merge finds every row there and every count written. -/
theorem mergedSnapshot_nil (hs : Snapshot options snapshot) :
    mergedSnapshot (mergedSnapshot snapshot additions) [] = mergedSnapshot snapshot additions := by
  have hobj := isObj_of_isRecord hs.record
  have hsame : provisional (mergedSnapshot snapshot additions) [] =
      mergedSnapshot snapshot additions := by
    refine Json.assign_self fun f hf => ?_
    simp only [List.mem_cons, List.not_mem_nil, or_false] at hf
    rcases hf with rfl | rfl
    · rw [stocks_merged hobj, List.append_nil]
      exact get?_merged_stocks hobj
    · rw [get?_merged_universe hobj, List.map_nil, List.append_nil]
      rfl
  rw [mergedSnapshot, hsame]
  refine Json.assign_self fun f hf => ?_
  obtain rfl := List.mem_singleton.1 hf
  have hmatches : summaryOf (mergedSnapshot snapshot additions) = _ := summary_merged hobj
  have hwritten : mergedSummary (summaryOf (mergedSnapshot snapshot additions))
      (getSnapshotCounts (mergedSnapshot snapshot additions)) =
        summaryOf (mergedSnapshot snapshot additions) := by
    refine Json.assign_self fun f hf => ?_
    obtain ⟨⟨field, n⟩, hmem, rfl⟩ := List.mem_map.1 hf
    rw [hmatches]
    refine get?_mergedSummary (summaryOf_isObj hs) ?_
    rcases List.mem_append.1 hmem with hmem | hmem
    · exact List.mem_append_left _ hmem
    · refine List.mem_append_right _ ?_
      split_ifs at hmem with husable
      · rw [if_pos]
        · exact hmem
        · by_contra habsent
          rw [hmatches, mergedSummary, Json.get?_assign_of_notMem (summaryOf_isObj hs)] at husable
          · exact habsent husable
          · rw [if_neg habsent, List.append_nil]
            exact (by decide : "usable" ∉ ["total", "active_quote_total", "active_holding_total",
              "watch_total", "exited_watch_total", "mapping_total", "core_total", "growth_total"])
      · cases hmem
  rw [hwritten, hmatches]
  exact get?_merged_summary hobj

/-! ## The comparison with the rows -/

theorem compareItem_ok {rows : List Json} {item : Json} {index : ℕ} :
    compareItem rows item index = .ok () ↔
      ∃ stock, rows.find? (fun stock => instrumentKey stock == instrumentKey item) = some stock ∧
        ∀ field ∈ UNIVERSE_FIELDS, item.get? field = stock.get? field := by
  unfold compareItem
  cases hfind : rows.find? fun stock => instrumentKey stock == instrumentKey item with
  | none => simp
  | some stock =>
    have hfields : compareUniverseToStock item stock index = .ok () ↔
        ∀ field ∈ UNIVERSE_FIELDS, item.get? field = stock.get? field :=
      forIndexed_ok (p := fun field => item.get? field = stock.get? field)
        (fun field _ _ => require_ok.trans decide_eq_true_iff) 0
    exact hfields.trans ⟨fun h => ⟨stock, rfl, h⟩, fun ⟨found, heq, h⟩ => Option.some.inj heq ▸ h⟩

theorem compareItem_append {rows more : List Json} {item : Json} {index : ℕ}
    (h : compareItem rows item index = .ok ()) (index' : ℕ) :
    compareItem (rows ++ more) item index' = .ok () := by
  obtain ⟨stock, hfind, hfields⟩ := compareItem_ok.1 h
  exact compareItem_ok.2 ⟨stock, by rw [List.find?_append, hfind, Option.some_or], hfields⟩

/-- Every item's key is that of a row. -/
theorem key_mem_of_compareItem {rows : List Json} {item : Json} {index : ℕ}
    (h : compareItem rows item index = .ok ()) : instrumentKey item ∈ rows.map instrumentKey := by
  obtain ⟨stock, hfind, -⟩ := compareItem_ok.1 h
  have hbeq := List.find?_some hfind
  exact List.mem_map.2 ⟨stock, List.mem_of_find?_eq_some hfind, beq_iff_eq.1 hbeq⟩

/-- Rows that are new pass the comparison after those that passed it. -/
theorem compareUniverse_append {rows more items : List Json} {seen : List String} {index : ℕ}
    (h : compareUniverse rows seen index items = .ok ())
    (hnodup : ((rows ++ more).map instrumentKey).Nodup)
    (hseen : ∀ key ∈ seen, key ∈ rows.map instrumentKey) :
    compareUniverse (rows ++ more) seen index (items ++ more.map toUniverseItem) = .ok () := by
  induction items generalizing seen index with
  | nil =>
    have hparts := hnodup
    rw [List.map_append] at hparts
    refine compareUniverse_toUniverseItem hnodup (fun item hmem => List.mem_append_right _ hmem)
      hparts.of_append_right (fun item hmem hold => ?_) index
    exact List.disjoint_of_nodup_append hparts (hseen _ hold) (List.mem_map_of_mem hmem)
  | cons item items ih =>
    rw [compareUniverse, bind_ok, bind_ok] at h
    obtain ⟨hnew, hitem, hrest⟩ := h
    rw [List.cons_append, compareUniverse, bind_ok, bind_ok]
    refine ⟨hnew, compareItem_append hitem index, ih hrest fun key hkey => ?_⟩
    rcases List.mem_cons.1 hkey with rfl | hkey
    · exact key_mem_of_compareItem hitem
    · exact hseen key hkey

theorem validateOptions_merged (hs : Snapshot options snapshot) :
    validateOptions ⟨none, options.requireWatch⟩
      (getSnapshotCounts (mergedSnapshot snapshot additions)) = .ok () := by
  have hbefore := hs.options
  rw [validateOptions, bind_ok, require_ok] at hbefore ⊢
  refine ⟨rfl, ?_⟩
  have hmore : (getSnapshotCounts snapshot).watchTotal ≤
      (getSnapshotCounts (mergedSnapshot snapshot additions)).watchTotal := by
    have hobj := isObj_of_isRecord hs.record
    simp only [getSnapshotCounts, stocks_merged hobj, List.countP_append]
    omega
  have hwatch := hbefore.2
  cases hrequired : options.requireWatch with
  | false => rfl
  | true =>
    rw [hrequired] at hwatch
    simp only [Bool.true_and, Bool.not_eq_true', decide_eq_false_iff_not] at hwatch ⊢
    omega

/-- A snapshot stays accepted with accepted rows that it lacks. -/
theorem snapshot_merged (hs : Snapshot options snapshot) (hrows : ∀ row ∈ additions, Row row)
    (hnodup : ((stocks snapshot ++ additions).map instrumentKey).Nodup) :
    Snapshot ⟨none, options.requireWatch⟩ (mergedSnapshot snapshot additions) := by
  have hobj := isObj_of_isRecord hs.record
  have hstocks : stocks (mergedSnapshot snapshot additions) = _ := stocks_merged hobj
  have hitems : (mergedSnapshot snapshot additions).get? "portfolio_universe" = _ :=
    get?_merged_universe hobj
  have hmatches : SummaryMatches (mergedSnapshot snapshot additions) := summaryMatches_merged hs
  have hother : ∀ key ∈ ["portfolio_version", "snapshot_time", "system_quality"],
      (mergedSnapshot snapshot additions).get? key = snapshot.get? key := by
    have hkeys : ∀ key ∈ ["portfolio_version", "snapshot_time", "system_quality"],
        key ∉ ["summary", "stocks", "portfolio_universe"] := by decide
    exact fun key hkey => get?_merged_of_notMem hobj (hkeys key hkey)
  have hrecord : isRecord (mergedSnapshot snapshot additions) = true := by
    obtain ⟨fields, hfields⟩ : ∃ fields, mergedSnapshot snapshot additions = .obj fields :=
      Json.assign_isObj (provisional_isObj hobj) _
    rw [hfields]
    rfl
  refine {
    record := hrecord
    version := by rw [hother "portfolio_version" (by decide)]; exact hs.version
    time := by rw [hother "snapshot_time" (by decide)]; exact hs.time
    quality := by rw [hother "system_quality" (by decide)]; exact hs.quality
    summary := ?_
    total := ?_
    stocksArray := by rw [get?_merged_stocks hobj]; rfl
    totalRows := hmatches.1
    itemsArray := by rw [hitems]; rfl
    rows := ?_
    items := ?_
    lengths := ?_
    distinct := requireDistinct_ok.2 (hstocks ▸ hnodup)
    compared := ?_
    options := validateOptions_merged hs
    derived := fun field hfield => validateDerived_of_matches (hmatches.2 field hfield) }
  · obtain ⟨fields, hfields⟩ : ∃ fields, mergedSummary (summaryOf snapshot)
        (getSnapshotCounts (mergedSnapshot snapshot additions)) = .obj fields :=
      Json.assign_isObj (summaryOf_isObj hs) _
    rw [get?_merged_summary hobj, hfields]
    rfl
  · rw [hmatches.1]
    simp [isNonNegative, isIntegerNumber]
  · rw [hstocks]
    exact fun row hmem => (List.mem_append.1 hmem).elim (hs.rows row) (hrows row)
  · rw [hitems]
    intro item hmem
    rcases List.mem_append.1 hmem with hmem | hmem
    · exact hs.items item hmem
    · obtain ⟨row, hrow, rfl⟩ := List.mem_map.1 hmem
      exact item_toUniverseItem (hrows row hrow).toItem
  · rw [hitems, hstocks, elements, List.length_append, List.length_append, List.length_map,
      hs.lengths]
  · rw [hitems, hstocks]
    exact compareUniverse_append hs.compared hnodup fun _ h => absurd h List.not_mem_nil

/-! ## Merging a batch -/

/-- The instrument of a row is that of an identity. -/
def IsRowOf (identity : CanonicalIdentity) (row : Json) : Prop :=
  row.get? "market" = some (.str identity.market.text) ∧
    row.get? "exchange" = some (.str identity.exchange.text) ∧
      row.get? "code" = some (.str identity.code)

/-- The requested identities that a snapshot lacks. -/
def missingIdentities (existing : List Json) (identities : List CanonicalIdentity) :
    List CanonicalIdentity :=
  identities.filter fun identity => decide (identity.key ∉ existing.map instrumentKey)

theorem forall₂_missing {existing : List Json} {identities : List CanonicalIdentity}
    {rows : List Json} (h : BatchRows identities rows) :
    List.Forall₂ IsRowOf (missingIdentities existing identities) (missingRows existing rows) := by
  induction h with
  | nil => exact .nil
  | @cons identity row identities rows hhead _ ih =>
    obtain ⟨q, -, rfl⟩ := hhead
    unfold missingIdentities missingRows at ih ⊢
    rw [List.filter_cons, List.filter_cons, instrumentKey_quoteRow]
    split_ifs
    · exact .cons ⟨rfl, rfl, rfl⟩ ih
    · exact ih

theorem nodup_missing {existing rows : List Json} (hexisting : (existing.map instrumentKey).Nodup)
    (hrows : (rows.map instrumentKey).Nodup) :
    ((existing ++ missingRows existing rows).map instrumentKey).Nodup := by
  rw [List.map_append]
  refine hexisting.append (hrows.sublist (List.filter_sublist.map instrumentKey)) ?_
  intro key hold hnew
  obtain ⟨row, hmem, rfl⟩ := List.mem_map.1 hnew
  exact of_decide_eq_true (List.mem_filter.1 hmem).2 hold

/-- A batch fetched for an accepted snapshot is merged into it: the rows that were there, and one row
for each requested identity that was not. -/
theorem mergeDynamicQuoteRows_spec {R : QuoteRuntime} {now : Calendar.Moment}
    {fetchQuote : Option QuoteProvider} {inputs : List Json} {batch : DynamicQuoteBatch}
    (hsnapshot : validateSnapshot options snapshot = .ok ())
    (hbatch : fetchDynamicQuoteRows R now fetchQuote inputs = .ok batch)
    (hfinite : ∀ row ∈ batch.rows, FiniteChange row) :
    ∃ merged added, mergeDynamicQuoteRows snapshot batch = .ok merged ∧
      validateSnapshot ⟨none, options.requireWatch⟩ merged = .ok () ∧
      stocks merged = stocks snapshot ++ added ∧
      inputs.map canonicalizeIdentity = batch.identities.map .ok ∧
      List.Forall₂ IsRowOf (missingIdentities (stocks snapshot) batch.identities) added ∧
      ((stocks merged).map instrumentKey).Nodup ∧
      SummaryMatches merged ∧
      (((summaryOf snapshot).get? "usable").isSome →
        (summaryOf merged).get? "usable" = some (.num (.ofInt (stocks merged).length))) ∧
      mergeDynamicQuoteRows merged batch = .ok merged := by
  obtain ⟨hinputs, hkeys, hrows⟩ := fetch_ok hbatch
  have hrows : BatchRows batch.identities batch.rows := hrows
  have hs := validateSnapshot_ok.1 hsnapshot
  have hobj := isObj_of_isRecord hs.record
  have hvalid : ∀ identity ∈ batch.identities, identity.Valid := by
    intro identity hmem
    have hok : Except.ok identity ∈ inputs.map canonicalizeIdentity :=
      hinputs ▸ List.mem_map_of_mem hmem
    obtain ⟨input, -, hcanonical⟩ := List.mem_map.1 hok
    exact valid_of_canonicalize hcanonical
  have hadded : ∀ row ∈ missingRows (stocks snapshot) batch.rows, Row row := by
    intro row hmem
    have hbatchRow := List.mem_of_mem_filter hmem
    obtain ⟨identity, hidentity, q, hq, rfl⟩ := hrows.exists_identity hbatchRow
    exact row_quoteRow (hvalid identity hidentity) hq (hfinite _ hbatchRow)
  have hnodup := nodup_missing (requireDistinct_ok.1 hs.distinct) (hrows.keys ▸ hkeys)
  have hstocks : stocks (mergedSnapshot snapshot (missingRows (stocks snapshot) batch.rows)) = _ :=
    stocks_merged hobj
  refine ⟨_, _, merge_eq hrows hkeys snapshot,
    validateSnapshot_ok.2 (snapshot_merged hs hadded hnodup), hstocks, hinputs,
    forall₂_missing hrows, hstocks ▸ hnodup, summaryMatches_merged hs, fun husable => ?_, ?_⟩
  · rw [summary_merged hobj]
    refine get?_mergedSummary (summaryOf_isObj hs) (List.mem_append_right _ ?_)
    rw [if_pos husable]
    exact List.mem_singleton_self _
  -- every row of the batch is among the rows now
  have hnone : missingRows (stocks (mergedSnapshot snapshot
      (missingRows (stocks snapshot) batch.rows))) batch.rows = [] := by
    refine List.filter_eq_nil_iff.2 fun row hmem => ?_
    rw [decide_eq_true_eq, not_not, hstocks, List.map_append, List.mem_append]
    by_cases hold : instrumentKey row ∈ (stocks snapshot).map instrumentKey
    · exact .inl hold
    · exact .inr (List.mem_map_of_mem (List.mem_filter.2 ⟨hmem, decide_eq_true hold⟩))
  rw [merge_eq hrows hkeys, hnone, mergedSnapshot_nil hs]

def exampleQuoteRuntime : QuoteRuntime := ⟨fun _ _ => none, fun _ _ => none, fun _ => none⟩

def exampleMoment : Calendar.Moment :=
  ⟨2026, 9, 28, 22, 30, 0, 0, by decide, by decide, by decide⟩

/-- A quote that tells its numbers, so that none is computed. -/
def exampleQuote : Json :=
  .obj (NUMERIC_FIELDS.map (fun field => (field, .num (.ofInt 1))) ++
    [("name", .str "Tencent"), ("market_data_time", .str "2026-09-29T06:28:00+08:00"),
      ("market_status", .str "OPEN"), ("fetch_time", .str "2026-09-29T06:29:00+08:00")])

def exampleProvider : QuoteProvider :=
  fun _ _ => .fulfilled (some exampleQuote)

def exampleInputs : List Json :=
  [.obj [("market", .str "hk"), ("exchange", .str "HK"), ("code", .str " 00700 ")],
    .obj [("market", .str "CN"), ("exchange", .str "sz"), ("code", .str "300308")]]

def exampleNormalized : NormalizedQuote where
  name := "Tencent"
  price := .ofInt 1
  change := some (.ofInt 1)
  changePct := some (.ofInt 1)
  preClose := .ofInt 1
  previousClose := .ofInt 1
  opening := .ofInt 1
  high := .ofInt 1
  low := .ofInt 1
  pctChange := some (.ofInt 1)
  volume := .ofInt 1
  amount := .ofInt 1
  marketStatus := "OPEN"
  marketDataTime := "2026-09-29T06:28:00+08:00"
  sourceUpdateTime := "2026-09-29T06:28:00+08:00"
  quoteTime := "2026-09-29T06:28:00+08:00"
  fetchTime := "2026-09-29T06:29:00+08:00"
  ageSeconds := .ofInt 1

def exampleBatch : DynamicQuoteBatch where
  identities := [⟨.HK, .HK, "00700"⟩, ⟨.CN, .SZ, "300308"⟩]
  symbols := ["hk00700", "sz300308"]
  rows := [quoteRow ⟨.HK, .HK, "00700"⟩ exampleNormalized,
    quoteRow ⟨.CN, .SZ, "300308"⟩ exampleNormalized]

theorem fetch_exampleBatch : fetchDynamicQuoteRows exampleQuoteRuntime exampleMoment
    (some exampleProvider) exampleInputs = .ok exampleBatch := by
  have hresult : (fetchDynamicQuoteRows exampleQuoteRuntime exampleMoment (some exampleProvider)
      exampleInputs).toOption = some exampleBatch := by decide
  cases h : fetchDynamicQuoteRows exampleQuoteRuntime exampleMoment (some exampleProvider)
      exampleInputs with
  | ok batch =>
    rw [h] at hresult
    exact congrArg Except.ok (Option.some.inj hresult)
  | error e =>
    rw [h] at hresult
    cases hresult

theorem finiteChange_exampleBatch : ∀ row ∈ exampleBatch.rows, FiniteChange row := by
  have hfinite : ∀ identity, FiniteChange (quoteRow identity exampleNormalized) :=
    fun _ => ⟨rfl, rfl⟩
  exact List.forall_mem_cons.2 ⟨hfinite _, List.forall_mem_singleton.2 (hfinite _)⟩

theorem mergeDynamicQuoteRows_example :
    ∃ merged added, mergeDynamicQuoteRows exampleSnapshot exampleBatch = .ok merged ∧
      validateSnapshot ⟨none, SnapshotValidationOptions.none.requireWatch⟩ merged = .ok () ∧
      stocks merged = stocks exampleSnapshot ++ added ∧
      exampleInputs.map canonicalizeIdentity = exampleBatch.identities.map .ok ∧
      List.Forall₂ IsRowOf (missingIdentities (stocks exampleSnapshot) exampleBatch.identities)
        added ∧
      ((stocks merged).map instrumentKey).Nodup ∧
      SummaryMatches merged ∧
      (((summaryOf exampleSnapshot).get? "usable").isSome →
        (summaryOf merged).get? "usable" = some (.num (.ofInt (stocks merged).length))) ∧
      mergeDynamicQuoteRows merged exampleBatch = .ok merged :=
  mergeDynamicQuoteRows_spec validateSnapshot_exampleSnapshot fetch_exampleBatch
    finiteChange_exampleBatch

end QuantproCollector.LiveUniverse
