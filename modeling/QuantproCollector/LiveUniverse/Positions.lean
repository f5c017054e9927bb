import QuantproCollector.LiveUniverse.Rows

/-!
# Positions under the live universe

An instrument is a market and a code. Over an accepted snapshot the overlay shows as positions
exactly the universe's instruments that the snapshot has rows for, and the coverage reports the
others (`overlay_positions`).
-/

namespace QuantproCollector.LiveUniverse

open Portfolio (Runtime isRecord)

/-! ## Instruments -/

/-- The market and the code of a row. -/
def instrument (row : Json) : Option Json × Option Json :=
  (row.get? "market", row.get? "code")

/-- The market and the code of a universe item. -/
def LiveUniverseItem.instrument (item : LiveUniverseItem) : Option Json × Option Json :=
  (some (.str item.market.text), some (.str item.code))

/-- The instruments held. -/
def activeSet (U : StoredLiveUniverse) : Set (Option Json × Option Json) :=
  {i | ∃ item ∈ U.active, item.instrument = i}

/-- The instruments that a snapshot has rows for. -/
def instruments (snapshot : Json) : Set (Option Json × Option Json) :=
  {i | ∃ row ∈ stocks snapshot, instrument row = i}

/-- The instruments that a snapshot shows as positions. -/
def positions (snapshot : Json) : Set (Option Json × Option Json) :=
  {i | ∃ row ∈ stocks snapshot, isPosition row = true ∧ instrument row = i}

variable {row : Json} {U : StoredLiveUniverse} {snapshot : Json}
  {options : SnapshotValidationOptions}

theorem text_eq_of_isOneOf {texts : List String} {value : Option Json}
    (h : isOneOf texts value = true) : ∃ s ∈ texts, value = some (.str s) := by
  unfold isOneOf at h
  split at h
  · exact ⟨_, by simpa using h, rfl⟩
  · cases h

theorem text_eq_of_isNonEmptyString {value : Option Json} (h : isNonEmptyString value = true) :
    ∃ s, s ≠ "" ∧ value = some (.str s) := by
  unfold isNonEmptyString at h
  split at h
  · exact ⟨_, by simpa using h, rfl⟩
  · cases h

theorem text_str (s : String) : Portfolio.templateText (some (.str s)) = s := by
  have hchars : Json.textChars (.str s) = s.toList := rfl
  rw [Portfolio.templateText, Json.text, hchars, String.ofList_toList]

/-- Markets have two letters, so that the key's text tells the market from the code. -/
theorem market_key_inj {m : Market} {s c d : String} (hs : s ∈ MARKETS)
    (h : s ++ ":" ++ c = m.text ++ ":" ++ d) : s = m.text ∧ c = d := by
  have hchars := congrArg String.toList h
  simp only [String.toList_append] at hchars
  have hlength : ∀ t ∈ MARKETS, t.toList.length = 2 := by decide
  have hmarket : m.text ∈ MARKETS := by cases m <;> decide
  rw [List.append_assoc, List.append_assoc] at hchars
  obtain ⟨hm, htail⟩ := List.append_inj hchars ((hlength s hs).trans (hlength _ hmarket).symm)
  exact ⟨String.toList_inj.1 hm, String.toList_inj.1 (List.append_cancel_left htail)⟩

/-- The key of an accepted row is that of an item exactly where they are one instrument. -/
theorem instrumentKey_eq_iff (hrow : Row row) (item : LiveUniverseItem) :
    instrumentKey row = liveInstrumentKey item ↔ instrument row = item.instrument := by
  obtain ⟨m, hm, hmarket⟩ := text_eq_of_isOneOf hrow.classified.market
  obtain ⟨c, -, hcode⟩ := text_eq_of_isNonEmptyString hrow.code
  have hkey : instrumentKey row = m ++ ":" ++ c := by
    rw [instrumentKey, hmarket, hcode, text_str, text_str]
  have hinstrument : instrument row = (some (.str m), some (.str c)) := by
    rw [instrument, hmarket, hcode]
  rw [hkey, hinstrument]
  constructor
  · intro h
    obtain ⟨rfl, rfl⟩ := market_key_inj hm h
    rfl
  · intro h
    simp only [LiveUniverseItem.instrument, Prod.mk.injEq, Option.some.injEq, Json.str.injEq] at h
    rw [h.1, h.2, liveInstrumentKey]

theorem isHeld_iff (hrow : Row row) : isHeld U row = true ↔ instrument row ∈ activeSet U := by
  rw [isHeld, List.contains_iff_mem, List.mem_map]
  constructor
  · rintro ⟨item, hitem, hkey⟩
    exact ⟨item, hitem, ((instrumentKey_eq_iff hrow item).1 hkey.symm).symm⟩
  · rintro ⟨item, hitem, hsame⟩
    exact ⟨item, hitem, ((instrumentKey_eq_iff hrow item).2 hsame.symm).symm⟩

/-! ## The rows of the overlay -/

/-- The keys that the overlay writes in a row. -/
def HOLDING_KEYS : List String := ["is_position", "position_qty", "holding_status"]

/-- `row'` is `row` with the same keys, up to the values of the three that the overlay writes. -/
def DiffersInHolding (row row' : Json) : Prop :=
  row'.keys = row.keys ∧ ∀ key ∉ HOLDING_KEYS, row'.get? key = row.get? key

theorem isObj_of_isRecord (h : isRecord row = true) : ∃ fields, row = .obj fields := by
  unfold isRecord at h
  split at h
  · exact ⟨_, rfl⟩
  · cases h

theorem mem_keys_of_isSome {key : String} (h : (row.get? key).isSome = true) : key ∈ row.keys := by
  cases row with
  | obj fields =>
    rw [Json.get?, Json.lookup_isSome_iff, List.any_eq_true] at h
    obtain ⟨f, hf, hkey⟩ := h
    exact List.mem_map.2 ⟨f, hf, beq_iff_eq.1 hkey⟩
  | _ => cases h

/-- An update of the three keys. -/
structure HoldingUpdate (updates : List (String × Json)) : Prop where
  keys : updates.map Prod.fst = HOLDING_KEYS

theorem holdingUpdate_held : HoldingUpdate heldUpdate := ⟨rfl⟩

theorem holdingUpdate_unheld (status : String) : HoldingUpdate (unheldUpdate status) := ⟨rfl⟩

theorem HoldingUpdate.get? {updates : List (String × Json)} (h : HoldingUpdate updates)
    (hrow : Item row) {key : String} (hkey : key ∉ HOLDING_KEYS) :
    (row.assign updates).get? key = row.get? key :=
  Json.get?_assign_of_notMem (isObj_of_isRecord hrow.record) (h.keys ▸ hkey)

theorem HoldingUpdate.get?_of_mem {updates : List (String × Json)} (h : HoldingUpdate updates)
    (hrow : Item row) {key : String} {x : Json} (hmem : (key, x) ∈ updates) :
    (row.assign updates).get? key = some x :=
  Json.get?_assign_of_mem (isObj_of_isRecord hrow.record)
    (by rw [h.keys]; decide) hmem

theorem HoldingUpdate.differs {updates : List (String × Json)} (h : HoldingUpdate updates)
    (hrow : Item row) : DiffersInHolding row (row.assign updates) := by
  refine ⟨Json.keys_assign fun f hf => ?_, fun key hkey => h.get? hrow hkey⟩
  have hkey : f.1 ∈ HOLDING_KEYS := h.keys ▸ List.mem_map_of_mem hf
  have hfields : ∀ key ∈ HOLDING_KEYS, key ∈ UNIVERSE_FIELDS := by decide
  exact mem_keys_of_isSome (hrow.fields f.1 (hfields f.1 hkey))

theorem instrument_assign {updates : List (String × Json)} (h : HoldingUpdate updates)
    (hrow : Item row) : instrument (row.assign updates) = instrument row := by
  rw [instrument, instrument, h.get? hrow (by decide), h.get? hrow (by decide)]

theorem isPosition_held (hrow : Item row) : isPosition (row.assign heldUpdate) = true := by
  have hmem : ("is_position", Json.bool true) ∈ heldUpdate := List.mem_cons_self
  rw [isPosition, holdingUpdate_held.get?_of_mem hrow hmem]
  rfl

theorem isPosition_unheld (hrow : Item row) (status : String) :
    isPosition (row.assign (unheldUpdate status)) = false := by
  have hmem : ("is_position", Json.bool false) ∈ unheldUpdate status := List.mem_cons_self
  rw [isPosition, (holdingUpdate_unheld status).get?_of_mem hrow hmem]
  rfl

/-- A row's group is one of the four, and its mapping flag says whether it is a mapping row. -/
theorem group_cases (hrow : Item row) :
    truthy (row.get? "mapping_only") = inGroup "mapping" row ∧
      (inGroup "core" row = true ∨ inGroup "growth" row = true ∨ inGroup "watch" row = true ∨
        inGroup "mapping" row = true) := by
  refine ⟨by rw [hrow.classified.mappingOnly]; rfl, ?_⟩
  obtain ⟨g, hg, hgroup⟩ := text_eq_of_isOneOf hrow.classified.portfolioGroup
  simp only [PORTFOLIO_GROUPS, List.mem_cons, List.not_mem_nil, or_false] at hg
  simp only [inGroup, hgroup, Option.some.injEq, Json.str.injEq, decide_eq_true_eq]
  exact hg

theorem inGroup_unique {g : String} (h : inGroup g row = true) (other : String) :
    inGroup other row = decide (g = other) := by
  simp only [inGroup, decide_eq_true_eq] at h ⊢
  rw [h]
  simp

/-- The status of a row that is not held. -/
def unheldStatus (row : Json) : String :=
  if inGroup "mapping" row then "MAPPING_ONLY" else "WATCH"

/-- The overlay drops the core and growth rows that are not held. -/
def isDropped (held : Bool) (row : Json) : Bool :=
  !held && (inGroup "core" row || inGroup "growth" row)

/-- What the overlay does with a row. -/
theorem overlayRow_eq (hrow : Item row) (held : Bool) :
    overlayRow held row = if isDropped held row then none else
      some (row.assign (if held then heldUpdate else unheldUpdate (unheldStatus row))) := by
  obtain ⟨hflag, hgroup⟩ := group_cases hrow
  rw [overlayRow, hflag, Bool.or_self]
  rcases hgroup with h | h | h | h
  · have h1 := inGroup_unique h "mapping"
    have h2 := inGroup_unique h "watch"
    cases held <;> simp [isDropped, h, h1, h2]
  · have h1 := inGroup_unique h "mapping"
    have h2 := inGroup_unique h "watch"
    cases held <;> simp [isDropped, h, h1, h2]
  · have h1 := inGroup_unique h "mapping"
    have h2 := inGroup_unique h "core"
    have h3 := inGroup_unique h "growth"
    cases held <;> simp [isDropped, unheldStatus, h, h1, h2, h3]
  · have h2 := inGroup_unique h "core"
    have h3 := inGroup_unique h "growth"
    cases held <;> simp [isDropped, unheldStatus, h, h2, h3]

/-- A row that the overlay keeps differs in its holding, and is a position where it is held. -/
theorem overlayRow_spec (hrow : Item row) {held : Bool} {row' : Json}
    (h : overlayRow held row = some row') :
    DiffersInHolding row row' ∧ instrument row' = instrument row ∧ isPosition row' = held := by
  rw [overlayRow_eq hrow] at h
  split at h
  · cases h
  · injection h with h
    subst h
    cases held with
    | true =>
      exact ⟨holdingUpdate_held.differs hrow, instrument_assign holdingUpdate_held hrow,
        isPosition_held hrow⟩
    | false =>
      have hupdate := holdingUpdate_unheld (unheldStatus row)
      exact ⟨hupdate.differs hrow, instrument_assign hupdate hrow,
        isPosition_unheld hrow (unheldStatus row)⟩

theorem get?_applyLiveUniverse (hs : Snapshot options snapshot) {key : String} {x : Json}
    (h : (key, x) ∈ overlayFields snapshot U (overlayRows U (stocks snapshot))) :
    (applyLiveUniverse snapshot U).get? key = some x := by
  have hkeys : (overlayFields snapshot U (overlayRows U (stocks snapshot))).map Prod.fst =
      ["portfolio_version", "live_universe", "summary", "portfolio_universe", "stocks"] := rfl
  exact Json.get?_assign_of_mem (isObj_of_isRecord hs.record) (by rw [hkeys]; decide) h

theorem stocks_applyLiveUniverse (hs : Snapshot options snapshot) :
    stocks (applyLiveUniverse snapshot U) = overlayRows U (stocks snapshot) := by
  have hmem : ("stocks", Json.arr (overlayRows U (stocks snapshot))) ∈
      overlayFields snapshot U (overlayRows U (stocks snapshot)) := by simp [overlayFields]
  rw [stocks, get?_applyLiveUniverse hs hmem]
  rfl

theorem mem_overlayRows {rows : List Json} {row' : Json} :
    row' ∈ overlayRows U rows ↔ ∃ row ∈ rows, overlayRow (isHeld U row) row = some row' :=
  List.mem_filterMap

/-- The rows that stay, in their order. -/
theorem overlayRows_forall₂ {rows : List Json} (hrows : ∀ row ∈ rows, Row row) :
    List.Forall₂ DiffersInHolding (rows.filter fun row => !isDropped (isHeld U row) row)
      (overlayRows U rows) := by
  induction rows with
  | nil => exact .nil
  | cons row rows ih =>
    have hrow := (hrows row List.mem_cons_self).toItem
    have hrest := ih fun r hr => hrows r (List.mem_cons_of_mem row hr)
    have heq := overlayRow_eq hrow (isHeld U row)
    cases hdrop : isDropped (isHeld U row) row with
    | true =>
      rw [hdrop, if_pos rfl] at heq
      rw [List.filter_cons_of_neg (by simp [hdrop]), overlayRows,
        List.filterMap_cons_none (f := fun r => overlayRow (isHeld U r) r) heq]
      exact hrest
    | false =>
      rw [hdrop, if_neg (by decide)] at heq
      rw [List.filter_cons_of_pos (by simp [hdrop]), overlayRows,
        List.filterMap_cons_some (f := fun r => overlayRow (isHeld U r) r) heq]
      exact .cons (overlayRow_spec hrow heq).1 hrest

/-! ## Coverage -/

/-- The overlay's positions are the instruments held that have a row. -/
theorem positions_applyLiveUniverse (hs : Snapshot options snapshot) :
    positions (applyLiveUniverse snapshot U) = activeSet U ∩ instruments snapshot := by
  ext i
  simp only [positions, stocks_applyLiveUniverse hs, mem_overlayRows, Set.mem_ofPred_eq,
    Set.mem_inter_iff, instruments]
  constructor
  · rintro ⟨row', ⟨row, hmem, hrow'⟩, hposition, hi⟩
    have hrow := hs.rows row hmem
    obtain ⟨-, hsame, hheld⟩ := overlayRow_spec hrow.toItem hrow'
    have hactive := (isHeld_iff hrow).1 (hheld.symm.trans hposition)
    rw [← hsame, hi] at hactive
    exact ⟨hactive, row, hmem, hsame.symm.trans hi⟩
  · rintro ⟨hactive, row, hmem, rfl⟩
    have hrow := hs.rows row hmem
    have hheld := (isHeld_iff hrow).2 hactive
    have heq := overlayRow_eq hrow.toItem (isHeld U row)
    rw [hheld, isDropped, Bool.not_true, Bool.false_and, if_neg (by decide), if_pos rfl] at heq
    refine ⟨row.assign heldUpdate, ⟨row, hmem, ?_⟩, isPosition_held hrow.toItem,
      instrument_assign holdingUpdate_held hrow.toItem⟩
    rw [hheld, heq]

theorem quoted_iff (hs : Snapshot options snapshot) (item : LiveUniverseItem) :
    ((stocks snapshot).map instrumentKey).contains (liveInstrumentKey item) = true ↔
      item.instrument ∈ instruments snapshot := by
  rw [List.contains_iff_mem, List.mem_map]
  constructor
  · rintro ⟨row, hmem, hkey⟩
    exact ⟨row, hmem, (instrumentKey_eq_iff (hs.rows row hmem) item).1 hkey⟩
  · rintro ⟨row, hmem, hsame⟩
    exact ⟨row, hmem, (instrumentKey_eq_iff (hs.rows row hmem) item).2 hsame⟩

theorem mem_missing (hs : Snapshot options snapshot) (key : String) :
    key ∈ (getLiveUniverseCoverage snapshot U).missing_active ↔
      ∃ item ∈ U.active, item.instrument ∉ instruments snapshot ∧ liveInstrumentKey item = key := by
  simp only [getLiveUniverseCoverage, List.mem_filter, List.mem_map]
  constructor
  · rintro ⟨⟨item, hitem, rfl⟩, hmissing⟩
    refine ⟨item, hitem, fun hquoted => ?_, rfl⟩
    rw [(quoted_iff hs item).2 hquoted] at hmissing
    cases hmissing
  · rintro ⟨item, hitem, hmissing, rfl⟩
    refine ⟨⟨item, hitem, rfl⟩, ?_⟩
    rw [Bool.not_eq_true', ← Bool.not_eq_true]
    exact fun hquoted => hmissing ((quoted_iff hs item).1 hquoted)

theorem complete_iff (hs : Snapshot options snapshot) :
    (getLiveUniverseCoverage snapshot U).status = .COMPLETE ↔ activeSet U ⊆ instruments snapshot := by
  have hstatus : (getLiveUniverseCoverage snapshot U).status = .COMPLETE ↔
      (getLiveUniverseCoverage snapshot U).missing_active = [] := by
    simp only [getLiveUniverseCoverage, List.length_eq_zero_iff]
    split_ifs with h
    · exact ⟨fun _ => h, fun _ => rfl⟩
    · exact ⟨nofun, fun hnil => absurd hnil h⟩
  rw [hstatus, List.eq_nil_iff_forall_not_mem]
  constructor
  · rintro hnone i ⟨item, hitem, rfl⟩
    by_contra hmissing
    exact hnone _ ((mem_missing hs _).2 ⟨item, hitem, hmissing, rfl⟩)
  · intro hall key hkey
    obtain ⟨item, hitem, hmissing, -⟩ := (mem_missing hs key).1 hkey
    exact hmissing (hall ⟨item, hitem, rfl⟩)

/-! ## Valid universes -/

theorem nodup_of_duplicateItem {seen : List String} {items : List LiveUniverseItem}
    (h : duplicateItem seen items = none) :
    (items.map liveInstrumentKey).Nodup ∧ ∀ item ∈ items, liveInstrumentKey item ∉ seen := by
  induction items generalizing seen with
  | nil => exact ⟨List.nodup_nil, fun item hitem => absurd hitem List.not_mem_nil⟩
  | cons item items ih =>
    rw [duplicateItem] at h
    split at h
    · cases h
    · rename_i hnew
      obtain ⟨hnodup, hfresh⟩ := ih h
      rw [List.contains_iff_mem] at hnew
      refine ⟨List.nodup_cons.2 ⟨fun hmem => ?_, hnodup⟩, fun x hx => ?_⟩
      · obtain ⟨x, hx, hkey⟩ := List.mem_map.1 hmem
        exact hfresh x hx (hkey ▸ List.mem_cons_self)
      · rcases List.mem_cons.1 hx with rfl | hx
        · exact hnew
        · exact fun hseen => hfresh x hx (List.mem_cons_of_mem _ hseen)

/-- A validated universe names each instrument once. -/
theorem nodup_of_validateLiveUniverse {P : Platform} {R : Runtime} {value : Json}
    {payload : LiveUniversePayload} (h : validateLiveUniverse P R value = .ok payload) :
    (payload.active.map liveInstrumentKey).Nodup := by
  simp only [validateLiveUniverse, bind_ok] at h
  obtain ⟨-, -, -, -, -, -, -, -, h⟩ := h
  cases hitems : normalizeItems 0 (elements (value.get? "active")) with
  | error e =>
    rw [hitems] at h
    cases h
  | ok active =>
    rw [hitems] at h
    cases hdup : duplicateItem [] active with
    | some key =>
      simp only [bind, Except.bind, hdup] at h
      cases h
    | none =>
      simp only [bind, Except.bind, hdup] at h
      have hperm : (canonicalActive R active).Perm active := List.perm_insertionSort _ active
      split at h
      · cases h
      · cases h
        exact (hperm.map liveInstrumentKey).nodup_iff.2 (nodup_of_duplicateItem hdup).1

/-- The overlay's positions are the universe's instruments that have rows, all of them exactly where
the coverage is complete; the coverage reports the others, each once. The rows that stay differ in
their holding, those dropped are the core and growth rows that are not held. -/
theorem overlay_positions {P : Platform} {R : Runtime} {value : Json} {payload : LiveUniversePayload}
    (hU : validateLiveUniverse P R value = .ok payload)
    (hs : validateSnapshot options snapshot = .ok ()) (receivedAt : String) :
    let U : StoredLiveUniverse := ⟨payload, receivedAt⟩
    let coverage := getLiveUniverseCoverage snapshot U
    let shown := positions (applyLiveUniverse snapshot U)
    shown = activeSet U ∩ instruments snapshot ∧
      (coverage.status = .COMPLETE ↔ shown = activeSet U) ∧
      (coverage.missing_active.Nodup ∧ ∀ key, key ∈ coverage.missing_active ↔
        ∃ item ∈ U.active, item.instrument ∈ activeSet U \ shown ∧ liveInstrumentKey item = key) ∧
      ∃ kept : List Json,
        List.Forall₂ DiffersInHolding kept (stocks (applyLiveUniverse snapshot U)) ∧
        kept.Sublist (stocks snapshot) ∧
        ∀ row ∈ stocks snapshot, row ∉ kept ↔ instrument row ∉ activeSet U ∧
          (inGroup "core" row = true ∨ inGroup "growth" row = true) := by
  intro U coverage shown
  have hs := validateSnapshot_ok.1 hs
  have hshown : shown = activeSet U ∩ instruments snapshot := positions_applyLiveUniverse hs
  refine ⟨hshown, ?_, ⟨?_, fun key => ?_⟩,
    (stocks snapshot).filter fun row => !isDropped (isHeld U row) row, ?_, List.filter_sublist,
    fun row hmem => ?_⟩
  · rw [complete_iff hs, hshown, Set.inter_eq_left]
  · exact (nodup_of_validateLiveUniverse hU).filter _
  · rw [mem_missing hs key]
    refine exists_congr fun item => and_congr_right fun hitem => and_congr_left fun _ => ?_
    have hactive : item.instrument ∈ activeSet U := ⟨item, hitem, rfl⟩
    rw [hshown, Set.mem_sdiff, Set.mem_inter_iff]
    tauto
  · rw [stocks_applyLiveUniverse hs]
    exact overlayRows_forall₂ hs.rows
  · rw [List.mem_filter, ← isHeld_iff (hs.rows row hmem), isDropped]
    cases isHeld U row with
    | true => simp [hmem]
    | false =>
      simp only [hmem, Bool.not_false, Bool.true_and, true_and, Bool.not_eq_true', Bool.or_eq_false_iff,
        Bool.false_eq_true, not_false_eq_true]
      cases inGroup "core" row <;> simp

/-- A caller who is shown the overlay is shown every instrument held. -/
theorem positions_projectCallerSnapshot {input : CallerProjectionInput} {outcome : LiveOverlayOutcome}
    (hs : validateSnapshot options input.snapshot = .ok ())
    (h : projectCallerSnapshot input = .ok outcome) (happlied : outcome.applied = true) :
    ∃ U, input.storedUniverse = some U ∧ positions outcome.snapshot = activeSet U := by
  have hs := validateSnapshot_ok.1 hs
  cases huniverse : input.storedUniverse with
  | none =>
    simp only [projectCallerSnapshot, huniverse] at h
    split_ifs at h <;> cases h <;> cases happlied
  | some U =>
    simp only [projectCallerSnapshot, huniverse] at h
    split_ifs at h with hbound hgate hoverlay hcomplete
    · cases h
      cases happlied
    · cases h
      cases happlied
    · cases h
      cases happlied
    · cases h
      refine ⟨U, rfl, ?_⟩
      rw [positions_applyLiveUniverse hs, Set.inter_eq_left]
      exact (complete_iff hs).1 (not_not.1 hcomplete)

/-! A held mapping row and a core row that is not held. -/

def exampleHash : String := "3c34b9553218467472706b65570b497c46a7099d90f6a8c78e4d0a773a442c76"

/-- The digest of the canonical text of `exampleValue`'s one item. -/
def examplePlatform : Platform := ⟨fun _ => exampleHash, some, fun _ _ => none, fun _ => none⟩

/-- One item is never compared. -/
def exampleRuntime : Runtime where
  dateParse _ := none
  localeCompare _ _ := .eq
  swap_localeCompare _ _ := rfl
  trans_localeCompare _ _ _ _ _ := rfl

def exampleValue : Json :=
  .obj [("schema_version", .str LIVE_UNIVERSE_SCHEMA),
    ("generated_at", .str "2026-09-29T06:30:00+08:00"),
    ("source_manifest_hash", .str ("sha256:" ++ exampleHash)),
    ("active", .arr [.obj [("market", .str "CN"), ("exchange", .str "SZ"),
      ("code", .str "002466")]]),
    ("content_hash", .str ("sha256:" ++ exampleHash))]

def examplePayload : LiveUniversePayload where
  generated_at := "2026-09-29T06:30:00+08:00"
  source_manifest_hash := "sha256:" ++ exampleHash
  active := [⟨.CN, .SZ, "002466"⟩]
  content_hash := "sha256:" ++ exampleHash

def exampleUniverse : StoredLiveUniverse := ⟨examplePayload, "2026-09-29T06:30:07+08:00"⟩

/-- A row of a group that is not held. -/
def exampleRow (code group portfolioGroup : String) (portfolioStatus : Json) (holdingStatus : String)
    (mapped : Json) : Json :=
  .obj ([("code", .str code), ("market", .str "CN"), ("exchange", .str "SZ"), ("name", .str code),
    ("group", .str group), ("portfolio_group", .str portfolioGroup),
    ("portfolio_status", portfolioStatus), ("holding_status", .str holdingStatus),
    ("mapping_only", .bool (holdingStatus == "MAPPING_ONLY")), ("mapped_to", mapped),
    ("mapping_to", mapped), ("position_qty", .num (.ofInt 0)), ("is_position", .bool false)] ++
    NUMERIC_FIELDS.map (fun field => (field, .num (.ofInt 1))) ++
    [("market_status", .str "OPEN"), ("market_data_time", .null), ("source_update_time", .null),
      ("freshness_basis", .str "fetch_time"), ("quote_time", .null),
      ("fetch_time", .str "2026-09-29T06:29:00+08:00"), ("primary_source", .null),
      ("secondary_source", .null), ("source_status", .str "OK"), ("quality", .str "OK")])

def exampleRows : List Json :=
  [exampleRow "002466" "Core" "mapping" .null "MAPPING_ONLY" (.str "09696.HK"),
    exampleRow "300308" "Core" "core" (.str "CORE") "WATCH" .null]

def exampleSnapshot : Json :=
  .obj [("portfolio_version", .str "catalog:1"), ("snapshot_time", .str "2026-09-29T06:30:07+08:00"),
    ("system_quality", .str "OK"), ("summary", .obj [("total", .num (.ofInt 2))]),
    ("portfolio_universe", .arr (exampleRows.map toUniverseItem)), ("stocks", .arr exampleRows)]

/-- A check passed. -/
def passed {α : Type} : Except String α → Bool
  | .ok _ => true
  | .error _ => false

theorem validateSnapshot_exampleSnapshot : validateSnapshot .none exampleSnapshot = .ok () := by
  have hpassed : passed (validateSnapshot .none exampleSnapshot) = true := by decide
  cases h : validateSnapshot .none exampleSnapshot with
  | ok u => rfl
  | error e =>
    rw [h] at hpassed
    cases hpassed

theorem validateLiveUniverse_exampleValue :
    validateLiveUniverse examplePlatform exampleRuntime exampleValue = .ok examplePayload := by
  have hresult : (validateLiveUniverse examplePlatform exampleRuntime exampleValue).toOption =
      some examplePayload := by decide
  cases h : validateLiveUniverse examplePlatform exampleRuntime exampleValue with
  | ok payload =>
    rw [h] at hresult
    exact congrArg Except.ok (Option.some.inj hresult)
  | error e =>
    rw [h] at hresult
    cases hresult

theorem overlay_positions_example :
    let coverage := getLiveUniverseCoverage exampleSnapshot exampleUniverse
    let shown := positions (applyLiveUniverse exampleSnapshot exampleUniverse)
    shown = activeSet exampleUniverse ∩ instruments exampleSnapshot ∧
      (coverage.status = .COMPLETE ↔ shown = activeSet exampleUniverse) ∧
      (coverage.missing_active.Nodup ∧ ∀ key, key ∈ coverage.missing_active ↔
        ∃ item ∈ exampleUniverse.active, item.instrument ∈ activeSet exampleUniverse \ shown ∧
          liveInstrumentKey item = key) ∧
      ∃ kept : List Json,
        List.Forall₂ DiffersInHolding kept
          (stocks (applyLiveUniverse exampleSnapshot exampleUniverse)) ∧
        kept.Sublist (stocks exampleSnapshot) ∧
        ∀ row ∈ stocks exampleSnapshot, row ∉ kept ↔ instrument row ∉ activeSet exampleUniverse ∧
          (inGroup "core" row = true ∨ inGroup "growth" row = true) :=
  overlay_positions validateLiveUniverse_exampleValue validateSnapshot_exampleSnapshot
    "2026-09-29T06:30:07+08:00"

end QuantproCollector.LiveUniverse
