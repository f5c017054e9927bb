import QuantproCollector.ResearchOutbound.Contract

/-!
# What an accepted record is

`Acceptable`: no hidden key and no local path at any depth of the payload, one visibility, and a record type
that the schema version allows.

* `safe_of_within`: what occurs in a payload that passes the scan passes it too.
* `accepted_iff`: an accepted record is acceptable exactly where it is not one of another type under the
  market-signal schema, which the check of the record type lets pass.
-/

namespace QuantproCollector.ResearchOutbound

open ResearchWorkflow (HIDDEN_KEYS isLocalPath assertOutboundV2PayloadSafe elementsSafe fieldsSafe keySafe)

/-- A value occurs in another, at any depth. -/
inductive Within : Json → Json → Prop where
  | self (v : Json) : Within v v
  | element {v x : Json} {items : List Json} (hx : x ∈ items) (h : Within v x) : Within v (.arr items)
  | field {v x : Json} {key : String} {fields : List (String × Json)} (hx : (key, x) ∈ fields)
      (h : Within v x) : Within v (.obj fields)

/-- The record types of a schema version. -/
def allowedTypes (schemaVersion : String) : List String :=
  if schemaVersion = MARKET_SIGNAL_SCHEMA_VERSION then [MARKET_SIGNAL_RECORD_TYPE]
  else if schemaVersion = OUTBOUND_V2_SCHEMA_VERSION then RECORD_TYPES
  else RECORD_TYPES ++ V3_RECORD_TYPES

/-- The visibility of the payload; a document version has that of its document. -/
def payloadVisibility (record : OutboundV2Record) : Option Json :=
  if record.record_type = "document_version" then
    (record.payload.get? "document").bind (·.get? "visibility")
  else record.payload.get? "visibility"

structure Acceptable (record : OutboundV2Record) : Prop where
  noHiddenKey : ∀ fields, Within (.obj fields) record.payload → ∀ field ∈ fields,
    toLowerCase field.1 ∉ HIDDEN_KEYS
  noLocalPath : ∀ s, Within (.str s) record.payload → isLocalPath s = false
  visibility : payloadVisibility record = some (.str record.visibility)
  accepted : record.schema_version ∈ ACCEPTED_OUTBOUND_SCHEMA_VERSIONS
  allowed : record.record_type ∈ allowedTypes record.schema_version
  onlySignals : record.schema_version = MARKET_SIGNAL_SCHEMA_VERSION →
    record.record_type = MARKET_SIGNAL_RECORD_TYPE
  signalsOnly : record.record_type = MARKET_SIGNAL_RECORD_TYPE →
    record.schema_version = MARKET_SIGNAL_SCHEMA_VERSION

/-! ## The scan -/

theorem elementsSafe_iff {items : List Json} :
    elementsSafe items = true ↔ ∀ x ∈ items, assertOutboundV2PayloadSafe x = true := by
  induction items with
  | nil => simp [elementsSafe]
  | cons x items ih => simp [elementsSafe, ih]

theorem fieldsSafe_iff {fields : List (String × Json)} :
    fieldsSafe fields = true ↔
      ∀ field ∈ fields, keySafe field.1 field.2 = true ∧ assertOutboundV2PayloadSafe field.2 = true := by
  induction fields with
  | nil => simp [fieldsSafe]
  | cons field fields ih => simp [fieldsSafe, ih]

/-- What occurs in a value that passes passes. -/
theorem safe_of_within {v w : Json} (h : Within v w) (hw : assertOutboundV2PayloadSafe w = true) :
    assertOutboundV2PayloadSafe v = true := by
  induction h with
  | self => exact hw
  | element hx _ ih => exact ih (elementsSafe_iff.1 hw _ hx)
  | field hx _ ih => exact ih (fieldsSafe_iff.1 hw _ hx).2

theorem not_hidden_of_keySafe {key : String} {item : Json} (h : keySafe key item = true) :
    toLowerCase key ∉ HIDDEN_KEYS := by
  unfold keySafe at h
  rw [Bool.and_eq_true] at h
  simpa using h.1

theorem noHiddenKey_of_safe {payload : Json} (h : assertOutboundV2PayloadSafe payload = true)
    {fields : List (String × Json)} (hfields : Within (.obj fields) payload) {field : String × Json}
    (hfield : field ∈ fields) : toLowerCase field.1 ∉ HIDDEN_KEYS :=
  not_hidden_of_keySafe (fieldsSafe_iff.1 (safe_of_within hfields h) field hfield).1

theorem noLocalPath_of_safe {payload : Json} (h : assertOutboundV2PayloadSafe payload = true) {s : String}
    (hs : Within (.str s) payload) : isLocalPath s = false := by
  simpa [assertOutboundV2PayloadSafe] using safe_of_within hs h

/-! ## What the checks establish -/

theorem check_eq_ok {p : Prop} [Decidable p] {code : ResearchErrorCode} {u : Unit}
    (h : check p code = .ok u) : p := by
  unfold check at h
  split_ifs at h with hp
  exact hp

theorem recordField_eq_ok {value : Option Json} {v : Json} (h : recordField value = .ok v) :
    value = some v := by
  unfold recordField at h
  split at h
  · cases h
    rfl
  · cases h

theorem stringField_eq_ok {value : Option Json} {s : String} (h : stringField value = .ok s) :
    value = some (.str s) := by
  unfold stringField at h
  split at h
  · split_ifs at h
    cases h
    rfl
  · cases h

theorem visibilityField_eq_ok {value : Option Json} {s : String} (h : visibilityField value = .ok s) :
    value = some (.str s) := by
  unfold visibilityField at h
  split at h
  · split_ifs at h
    cases h
    rfl
  · cases h

theorem schemaVersionField_eq_ok {value : Option Json} {s : String} (h : schemaVersionField value = .ok s) :
    s ∈ ACCEPTED_OUTBOUND_SCHEMA_VERSIONS := by
  unfold schemaVersionField at h
  split at h
  · split_ifs at h with hs
    cases h
    simpa using hs
  · cases h

theorem textIn_str {texts : List String} {s : String} : textIn texts (some (.str s)) = true ↔ s ∈ texts := by
  simp [textIn]

variable {dateParse : DateParse} {record : OutboundV2Record}

theorem visibility_of_nested (h : validateNestedPayload dateParse record = .ok ()) :
    payloadVisibility record = some (.str record.visibility) := by
  unfold validateNestedPayload at h
  unfold payloadVisibility
  by_cases hdocument : record.record_type = "document_version"
  · rw [if_pos hdocument] at h ⊢
    unfold validateDocumentPayload at h
    obtain ⟨_, -, h⟩ := Fallible.bind_eq_ok.1 h
    obtain ⟨document, hdoc, h⟩ := Fallible.bind_eq_ok.1 h
    obtain ⟨_, -, h⟩ := Fallible.bind_eq_ok.1 h
    obtain ⟨_, -, h⟩ := Fallible.bind_eq_ok.1 h
    obtain ⟨_, -, h⟩ := Fallible.bind_eq_ok.1 h
    obtain ⟨_, -, h⟩ := Fallible.bind_eq_ok.1 h
    obtain ⟨_, -, h⟩ := Fallible.bind_eq_ok.1 h
    obtain ⟨visibility, hvisibility, h⟩ := Fallible.bind_eq_ok.1 h
    rw [recordField_eq_ok hdoc, Option.bind_some, visibilityField_eq_ok hvisibility, check_eq_ok h]
  · rw [if_neg hdocument] at h ⊢
    obtain ⟨_, -, h⟩ := Fallible.bind_eq_ok.1 h
    obtain ⟨_, -, h⟩ := Fallible.bind_eq_ok.1 h
    obtain ⟨_, -, h⟩ := Fallible.bind_eq_ok.1 h
    obtain ⟨_, -, h⟩ := Fallible.bind_eq_ok.1 h
    obtain ⟨_, -, h⟩ := Fallible.bind_eq_ok.1 h
    obtain ⟨_, -, h⟩ := Fallible.bind_eq_ok.1 h
    obtain ⟨_, -, h⟩ := Fallible.bind_eq_ok.1 h
    obtain ⟨_, -, h⟩ := Fallible.bind_eq_ok.1 h
    obtain ⟨visibility, hvisibility, h⟩ := Fallible.bind_eq_ok.1 h
    rw [visibilityField_eq_ok hvisibility, check_eq_ok h]

/-- What the envelope of an accepted record has been found to have. -/
theorem envelope_of_accepted {value : Json} (h : validateOutboundV2Record dateParse value = .ok record) :
    record.schema_version ∈ ACCEPTED_OUTBOUND_SCHEMA_VERSIONS ∧
      (recordTypeAllowed record.schema_version (some (.str record.record_type)) = true ∨
        marketSignalAllowed record.schema_version (some (.str record.record_type)) = true) ∧
      assertOutboundV2PayloadSafe record.payload = true ∧
        payloadVisibility record = some (.str record.visibility) := by
  unfold validateOutboundV2Record at h
  obtain ⟨value', -, h⟩ := Fallible.bind_eq_ok.1 h
  obtain ⟨_, -, h⟩ := Fallible.bind_eq_ok.1 h
  obtain ⟨schemaVersion, hschema, h⟩ := Fallible.bind_eq_ok.1 h
  obtain ⟨_, hallowed, h⟩ := Fallible.bind_eq_ok.1 h
  obtain ⟨messageId, -, h⟩ := Fallible.bind_eq_ok.1 h
  obtain ⟨_, -, h⟩ := Fallible.bind_eq_ok.1 h
  obtain ⟨policyVersion, -, h⟩ := Fallible.bind_eq_ok.1 h
  obtain ⟨generated, -, h⟩ := Fallible.bind_eq_ok.1 h
  obtain ⟨payload, -, h⟩ := Fallible.bind_eq_ok.1 h
  obtain ⟨recordType, hrecordType, h⟩ := Fallible.bind_eq_ok.1 h
  obtain ⟨visibility, -, h⟩ := Fallible.bind_eq_ok.1 h
  obtain ⟨_, hsafe, h⟩ := Fallible.bind_eq_ok.1 h
  obtain ⟨_, hnested, h⟩ := Fallible.bind_eq_ok.1 h
  cases h
  rw [stringField_eq_ok hrecordType] at hallowed
  exact ⟨schemaVersionField_eq_ok hschema, check_eq_ok hallowed, check_eq_ok hsafe,
    visibility_of_nested hnested⟩

/-- The types that the check lets pass. -/
theorem type_of_allowed
    (h : recordTypeAllowed record.schema_version (some (.str record.record_type)) = true ∨
      marketSignalAllowed record.schema_version (some (.str record.record_type)) = true) :
    (record.record_type ∈ RECORD_TYPES ∨ record.schema_version ≠ OUTBOUND_V2_SCHEMA_VERSION ∧
      record.record_type ∈ V3_RECORD_TYPES) ∨
      record.schema_version = MARKET_SIGNAL_SCHEMA_VERSION ∧
        record.record_type = MARKET_SIGNAL_RECORD_TYPE := by
  simpa [recordTypeAllowed, marketSignalAllowed, textIn_str] using h

/-- **Accepted records.** An accepted record has no hidden key and no local path at any depth, one
visibility and a type that its schema version allows, exactly where it is not a record of another type under
the market-signal schema. -/
theorem accepted_iff {value : Json} (h : validateOutboundV2Record dateParse value = .ok record) :
    Acceptable record ↔ (record.schema_version = MARKET_SIGNAL_SCHEMA_VERSION →
      record.record_type = MARKET_SIGNAL_RECORD_TYPE) := by
  obtain ⟨hschema, hallowed, hsafe, hvisibility⟩ := envelope_of_accepted h
  have htype := type_of_allowed hallowed
  have hother : MARKET_SIGNAL_RECORD_TYPE ∉ RECORD_TYPES ∧ MARKET_SIGNAL_RECORD_TYPE ∉ V3_RECORD_TYPES := by
    decide
  refine ⟨fun hacceptable => hacceptable.onlySignals, fun honly => ?_⟩
  refine ⟨fun fields hfields field hfield => noHiddenKey_of_safe hsafe hfields hfield,
    fun s hs => noLocalPath_of_safe hsafe hs, hvisibility, hschema, ?_, honly, fun hsignal => ?_⟩
  · unfold allowedTypes
    split_ifs with hmarket hv2
    · exact List.mem_singleton.2 (honly hmarket)
    · rcases htype with (hrecord | ⟨hne, -⟩) | ⟨hsignals, -⟩
      · exact hrecord
      · exact absurd hv2 hne
      · exact absurd hsignals hmarket
    · rcases htype with (hrecord | ⟨-, hv3⟩) | ⟨hsignals, -⟩
      · exact List.mem_append_left _ hrecord
      · exact List.mem_append_right _ hv3
      · exact absurd hsignals hmarket
  · rcases htype with (hrecord | ⟨-, hv3⟩) | ⟨hsignals, -⟩
    · exact absurd (hsignal ▸ hrecord) hother.1
    · exact absurd (hsignal ▸ hv3) hother.2
    · exact hsignals

/-! ## A source under the market-signal schema -/

/-- An envelope of a source. -/
def sourceEnvelope (schemaVersion : String) : Json :=
  .obj [("record_type", .str "source"),
    ("message_id", .str "outbound_0123456789012345678901234567890123456789"),
    ("schema_version", .str schemaVersion), ("policy_version", .str "p1"), ("visibility", .str "PUBLIC"),
    ("payload", .obj (SOURCE_KEYS.map fun key =>
      (key, if key = "visibility" then .str "PUBLIC" else .str "x"))), ("generated_at", .null)]

def sourceRecord (schemaVersion : String) : OutboundV2Record where
  record_type := "source"
  message_id := "outbound_0123456789012345678901234567890123456789"
  schema_version := schemaVersion
  policy_version := "p1"
  visibility := "PUBLIC"
  payload := .obj (SOURCE_KEYS.map fun key =>
    (key, if key = "visibility" then .str "PUBLIC" else .str "x"))
  generated_at := none

theorem accepted_iff_source :
    Acceptable (sourceRecord OUTBOUND_V3_SCHEMA_VERSION) ↔
      ((sourceRecord OUTBOUND_V3_SCHEMA_VERSION).schema_version = MARKET_SIGNAL_SCHEMA_VERSION →
        (sourceRecord OUTBOUND_V3_SCHEMA_VERSION).record_type = MARKET_SIGNAL_RECORD_TYPE) :=
  have hread : validateOutboundV2Record (fun _ => none) (sourceEnvelope OUTBOUND_V3_SCHEMA_VERSION) =
      .ok (sourceRecord OUTBOUND_V3_SCHEMA_VERSION) := by
    decide
  accepted_iff hread

/-- A source is accepted under the market-signal schema. -/
theorem source_under_market_signals :
    ¬ ∀ (dateParse : DateParse) (value : Json) (record : OutboundV2Record),
      validateOutboundV2Record dateParse value = .ok record → Acceptable record := by
  intro h
  have hacceptable := h (fun _ => none) (sourceEnvelope MARKET_SIGNAL_SCHEMA_VERSION)
    (sourceRecord MARKET_SIGNAL_SCHEMA_VERSION) (by decide)
  have hsignal := hacceptable.onlySignals rfl
  revert hsignal
  decide

end QuantproCollector.ResearchOutbound
