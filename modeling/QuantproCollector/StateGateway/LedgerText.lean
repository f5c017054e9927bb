import QuantproCollector.Lib.JsonFence
import QuantproCollector.StateGateway.Retry

/-!
# Ledger texts

A checkpoint or a batch is written into a fenced block of a comment and read back from it. Every accepted
one is read back unchanged exactly where none of its texts has a fence of its own (`ledgerText_iff`): the
block ends at the first fence, so a fence in a free text cuts the payload off, and nothing is read back.
-/

namespace QuantproCollector.StateGateway

open Json (AnyText AnyElement AnyField HasFence)

/-! ## What is accepted -/

theorem stable_universeTransition : UNIVERSE_TRANSITION_SCHEMA.Stable := by
  refine Schema.stable_object (by decide) fun f hf => ?_
  simp only [List.mem_cons, List.not_mem_nil, or_false] at hf
  rcases hf with rfl | rfl | rfl | rfl | rfl | rfl | rfl
  all_goals first
    | exact Schema.stable_text _
    | exact Schema.stable_boolean
    | exact Schema.stable_orNull (stable_boundedString 1 256)
    | exact Schema.stable_array (stable_boundedString 1 128) _ _

/-- A stored checkpoint is parsed to itself. -/
theorem stable_marketSchema : MARKET_CHECKPOINT_SCHEMA.Stable := by
  refine Schema.stable_object (by decide) fun f hf => ?_
  rcases List.mem_append.1 hf with hf | hf
  · exact stable_baseShape f hf
  · obtain rfl := List.mem_singleton.1 hf
    exact stable_universeTransition

/-- An object of a strict shape is one of the shape with an optional field more. -/
theorem object_append {shape : List Schema.Field} {f : Schema.Field}
    (hf : f.name ∉ shape.map Schema.Field.name) (hopt : f.required = false) {d : Json} (h : Schema.object true shape d = some d) :
    Schema.object true (shape ++ [f]) d = some d := by
  have happend : ∀ {shape : List Schema.Field} {v : Json} {ys : List (String × Json)},
      v.get? f.name = none → Schema.parseFields shape v = some ys →
        Schema.parseFields (shape ++ [f]) v = some ys := by
    intro shape v ys hget
    induction shape generalizing ys with
    | nil =>
      intro h
      simpa [Schema.parseFields, hget, hopt] using h
    | cons g shape ih =>
      intro h
      rw [List.cons_append]
      simp only [Schema.parseFields] at h ⊢
      split at h
      · split_ifs at h ⊢
        exact ih h
      · obtain ⟨y, hy, h⟩ := Option.bind_eq_some_iff.1 h
        obtain ⟨zs, hzs, h⟩ := Option.bind_eq_some_iff.1 h
        simp only [hy, ih hzs, Option.bind_eq_bind, Option.bind_some]
        exact h
  cases d with
  | obj fields =>
    simp only [Schema.object] at h ⊢
    split_ifs at h with hknown
    obtain ⟨ys, hys, heq⟩ := Option.map_eq_some_iff.1 h
    obtain rfl := Json.obj.inj heq
    have hget : (Json.obj ys).get? f.name = none := by
      show ys.lookup f.name = none
      rw [List.lookup_eq_none_iff]
      intro y hy
      have hne : f.name ≠ y.1 := fun he => hf (he ▸ Schema.name_mem_of_parseFields hys y hy)
      simpa using hne
    have hknown' :
        ¬ (true && ys.any fun g => !((shape ++ [f]).map Schema.Field.name).contains g.1) = true := by
      intro hany
      refine hknown ?_
      simp only [Bool.true_and, List.any_eq_true] at hany ⊢
      obtain ⟨g, hg, hmem⟩ := hany
      refine ⟨g, hg, ?_⟩
      simp only [List.map_append, List.contains_eq_mem, List.mem_append, Bool.not_eq_true',
        decide_eq_false_iff_not, not_or] at hmem ⊢
      exact hmem.1
    rw [if_neg hknown', happend hget hys]
    rfl
  | _ => cases h

/-- A submitted checkpoint is a stored one without a transition. -/
theorem marketSchema_of_input {v c : Json} (h : MARKET_CHECKPOINT_INPUT_SCHEMA v = some c) :
    MARKET_CHECKPOINT_SCHEMA c = some c :=
  object_append (by decide) rfl (stable_checkpointSchema v c h)

theorem keepsDistinct_baseShape : ∀ f ∈ MARKET_CHECKPOINT_BASE_SHAPE, f.schema.KeepsDistinct := by
  intro f hf
  simp only [MARKET_CHECKPOINT_BASE_SHAPE, List.mem_cons, List.not_mem_nil, or_false] at hf
  rcases hf with rfl | rfl | rfl | rfl | rfl | rfl | rfl | rfl | rfl | rfl | rfl | rfl | rfl |
    rfl | rfl | rfl
  all_goals first
    | exact Schema.keepsDistinct_text _
    | exact Schema.keepsDistinct_orNull (Schema.keepsDistinct_text _)
    | exact Schema.keepsDistinct_array (Schema.exact_record _).keepsDistinct _ _

theorem keepsDistinct_inputSchema : MARKET_CHECKPOINT_INPUT_SCHEMA.KeepsDistinct :=
  Schema.keepsDistinct_object (by decide) keepsDistinct_baseShape

theorem keepsDistinct_marketSchema : MARKET_CHECKPOINT_SCHEMA.KeepsDistinct := by
  have htransition : UNIVERSE_TRANSITION_SCHEMA.KeepsDistinct := by
    refine Schema.keepsDistinct_object (by decide) fun f hf => ?_
    simp only [List.mem_cons, List.not_mem_nil, or_false] at hf
    rcases hf with rfl | rfl | rfl | rfl | rfl | rfl | rfl
    all_goals first
      | exact Schema.keepsDistinct_text _
      | exact Schema.keepsDistinct_boolean
      | exact Schema.keepsDistinct_orNull (Schema.keepsDistinct_text _)
      | exact Schema.keepsDistinct_array (Schema.keepsDistinct_text _) _ _
  refine Schema.keepsDistinct_object (by decide) fun f hf => ?_
  rcases List.mem_append.1 hf with hf | hf
  · exact keepsDistinct_baseShape f hf
  · obtain rfl := List.mem_singleton.1 hf
    exact htransition

theorem keepsDistinct_batchSchema : INVESTMENT_LEDGER_BATCH_INPUT_SCHEMA.KeepsDistinct := by
  have hevent : INVESTMENT_LEDGER_EVENT_INPUT_SCHEMA.KeepsDistinct := by
    refine Schema.keepsDistinct_object (by decide) fun f hf => ?_
    simp only [INVESTMENT_LEDGER_EVENT_SHAPE, List.mem_cons, List.not_mem_nil, or_false] at hf
    rcases hf with rfl | rfl | rfl | rfl | rfl | rfl | rfl | rfl | rfl | rfl | rfl | rfl | rfl |
      rfl | rfl | rfl
    all_goals first
      | exact Schema.keepsDistinct_text _
      | exact Schema.keepsDistinct_number _
      | exact Schema.keepsDistinct_orNull (Schema.keepsDistinct_text _)
      | exact Schema.keepsDistinct_orNull Schema.keepsDistinct_boolean
      | exact Schema.keepsDistinct_array (Schema.keepsDistinct_text _) _ _
  refine Schema.keepsDistinct_object (by decide) fun f hf => ?_
  simp only [INVESTMENT_LEDGER_BATCH_SHAPE, List.mem_cons, List.not_mem_nil, or_false] at hf
  rcases hf with rfl | rfl | rfl | rfl | rfl
  all_goals first
    | exact Schema.keepsDistinct_text _
    | exact Schema.keepsDistinct_array hevent _ _

/-! ## The block of a payload -/

theorem fenced_ledgerBody {fields : List (String × Json)} (h : ¬ (Json.obj fields).AnyText HasFence) :
    Json.fenced? isSpace (ledgerBody (.obj fields)) = some (Json.obj fields).pretty :=
  Json.fenced_pretty (by decide) (by decide) (by decide) h

theorem fenced_ledgerBody_cut {fields : List (String × Json)} (hdistinct : (Json.obj fields).Distinct)
    (h : (Json.obj fields).AnyText HasFence) :
    ∃ block, Json.fenced? isSpace (ledgerBody (.obj fields)) = some block ∧ Json.parse block = none :=
  Json.fenced_cut (by decide) (by decide) hdistinct h

/-! ## Checkpoints -/

theorem checkpointOfText_ledgerBody (P : Runtime) {fields : List (String × Json)}
    (hdistinct : (Json.obj fields).Distinct)
    (hschema : MARKET_CHECKPOINT_SCHEMA (.obj fields) = some (.obj fields))
    (hrelations : validateCheckpointRelations P (.obj fields) = .ok ()) :
    checkpointOfText P (ledgerBody (.obj fields)) = some (.obj fields) ↔
      ¬ (Json.obj fields).AnyText HasFence := by
  constructor
  · intro hread hfence
    obtain ⟨block, hblock, hparse⟩ := fenced_ledgerBody_cut hdistinct hfence
    simp only [checkpointOfText, hblock, Option.bind_eq_bind, Option.bind_some, hparse,
      Option.bind_none] at hread
    cases hread
  · intro hfence
    simp only [checkpointOfText, fenced_ledgerBody hfence, Option.bind_eq_bind, Option.bind_some,
      Json.parse_pretty hdistinct, hschema, hrelations]

/-! ## Batches -/

theorem str_of_text {ok : String → Bool} {v d : Json} (h : Schema.text ok v = some d) : ∃ s, d = .str s := by
  obtain rfl := Schema.exact_text ok v d h
  cases d with
  | str s => exact ⟨s, rfl⟩
  | _ => cases h

/-- The event has the ledger's fields only. -/
def PlainEvent (event : Json) : Prop :=
  ∃ fields, event = .obj fields ∧ "dimension" ∉ fields.map Prod.fst ∧
    ∃ symbol, event.get? "symbol" = some (.str symbol)

theorem plainEvent_of_eventSchema {v event : Json} (h : INVESTMENT_LEDGER_EVENT_INPUT_SCHEMA v = some event) :
    PlainEvent event := by
  obtain ⟨symbol, hsymbol, -⟩ := symbol_of_eventSchema h
  cases v with
  | obj input =>
    simp only [INVESTMENT_LEDGER_EVENT_INPUT_SCHEMA, Schema.object] at h
    split_ifs at h
    obtain ⟨ys, hys, rfl⟩ := Option.map_eq_some_iff.1 h
    refine ⟨ys, rfl, fun hmem => ?_, symbol, hsymbol⟩
    obtain ⟨y, hy, hname⟩ := List.mem_map.1 hmem
    exact absurd (hname ▸ Schema.name_mem_of_parseFields hys y hy) (by decide)
  | _ => cases h

/-- An accepted batch, field by field. -/
theorem ledgerBatch_of_batchSchema {v batch : Json}
    (h : INVESTMENT_LEDGER_BATCH_INPUT_SCHEMA v = some batch) :
    ∃ pv eventId asOf events, batch = ledgerBatch pv eventId asOf (.arr events) ∧ events ≠ [] ∧
      ∀ event ∈ events, PlainEvent event := by
  cases v with
  | obj input =>
    have hrequired : ∀ f ∈ INVESTMENT_LEDGER_BATCH_SHAPE, ∃ x, (Json.obj input).get? f.name = some x := by
      intro f hf
      obtain ⟨hget, hsome⟩ := Schema.get?_of_object (by decide) h f hf
      have hreq : f.required = true := by
        have hall : ∀ g ∈ INVESTMENT_LEDGER_BATCH_SHAPE, g.required = true := by
          simp [INVESTMENT_LEDGER_BATCH_SHAPE]
        exact hall f hf
      obtain ⟨x, hx⟩ := Option.isSome_iff_exists.1 (hsome hreq)
      obtain ⟨y, hy, -⟩ := Option.bind_eq_some_iff.1 (hget.symm.trans hx)
      exact ⟨y, hy⟩
    simp only [INVESTMENT_LEDGER_BATCH_SHAPE, List.forall_mem_cons] at hrequired
    obtain ⟨⟨x₁, hx₁⟩, ⟨x₂, hx₂⟩, ⟨x₃, hx₃⟩, ⟨x₄, hx₄⟩, ⟨x₅, hx₅⟩, -⟩ := hrequired
    simp only [INVESTMENT_LEDGER_BATCH_INPUT_SCHEMA, Schema.object] at h
    split_ifs at h
    obtain ⟨ys, hys, rfl⟩ := Option.map_eq_some_iff.1 h
    obtain ⟨y₁, zs₁, h₁, ht₁, rfl⟩ := Schema.parseFields_cons hx₁ hys
    obtain ⟨y₂, zs₂, h₂, ht₂, rfl⟩ := Schema.parseFields_cons hx₂ ht₁
    obtain ⟨y₃, zs₃, h₃, ht₃, rfl⟩ := Schema.parseFields_cons hx₃ ht₂
    obtain ⟨y₄, zs₄, h₄, ht₄, rfl⟩ := Schema.parseFields_cons hx₄ ht₃
    obtain ⟨y₅, zs₅, h₅, ht₅, rfl⟩ := Schema.parseFields_cons hx₅ ht₄
    obtain rfl : [] = zs₅ := Option.some.inj ht₅
    obtain ⟨s₁, rfl⟩ := str_of_text h₁
    obtain ⟨pv, rfl⟩ := str_of_text h₂
    obtain ⟨eventId, rfl⟩ := str_of_text h₃
    obtain ⟨asOf, rfl⟩ := str_of_text h₄
    obtain ⟨events, rfl, hmin, -, hparsed⟩ := Schema.elements_of_array h₅
    have hversion : s₁ = INVESTMENT_STATE_BATCH_V1 := by
      have hx : x₁ = .str s₁ := (Schema.exact_text _ _ _ h₁).symm
      rw [hx] at h₁
      simpa [Schema.oneOf, Schema.text] using h₁
    refine ⟨pv, eventId, asOf, events, by rw [hversion]; rfl, ?_, ?_⟩
    · rintro rfl
      exact absurd hmin (by decide)
    · intro event hevent
      obtain ⟨u, hu⟩ := hparsed event hevent
      exact plainEvent_of_eventSchema hu
  | _ => cases h

theorem not_hasFence {s : String} (h : '\x60' ∉ s.toList) : ¬ HasFence s := fun hs =>
  h (hs.subset List.mem_cons_self)

section Events

variable {role : InvestmentLedgerRole} {event : Json}

/-- The event with its dimension. -/
def dimensioned (role : InvestmentLedgerRole) (event : Json) : Json :=
  withField event "dimension" (.str role.dimension)

theorem dimensioned_eq {fields : List (String × Json)} (h : "dimension" ∉ fields.map Prod.fst) :
    dimensioned role (.obj fields) = .obj (fields ++ [("dimension", .str role.dimension)]) :=
  congrArg Json.obj (Json.setField_of_not_mem _ h)

theorem isPersistedEvent_dimensioned (h : PlainEvent event) :
    isPersistedEvent (dimensioned role event) = true := by
  obtain ⟨fields, rfl, -, symbol, hsymbol⟩ := h
  have hget : ∀ k, (dimensioned role (.obj fields)).get? k =
      if k = "dimension" then some (.str role.dimension) else (Json.obj fields).get? k :=
    fun k => Json.lookup_setField fields "dimension" k _
  show ((((dimensioned role (.obj fields)).get? "symbol").bind Json.str?).isSome &&
    ["INDUSTRY", "COMPANY", "CLOSE"].contains (textField (dimensioned role (.obj fields)) "dimension")) = true
  rw [textField, hget, hget, if_neg (by decide), if_pos rfl, hsymbol]
  cases role <;> rfl

theorem anyField_append (q : String → Prop) (fields rest : List (String × Json)) :
    AnyField q (fields ++ rest) ↔ AnyField q fields ∨ AnyField q rest := by
  induction fields with
  | nil => simp [AnyField]
  | cons f fields ih =>
    rw [List.cons_append, AnyField, AnyField, ih, or_assoc, or_assoc]

theorem hasFence_dimensioned (h : PlainEvent event) :
    (dimensioned role event).AnyText HasFence ↔ event.AnyText HasFence := by
  obtain ⟨fields, rfl, hfields, -⟩ := h
  rw [dimensioned_eq hfields, AnyText, anyField_append]
  refine or_iff_left ?_
  rintro (hkey | hvalue | hnil)
  · exact not_hasFence (by decide) hkey
  · exact not_hasFence (by cases role <;> decide) hvalue
  · exact hnil

theorem distinct_dimensioned (h : PlainEvent event) (hd : event.Distinct) :
    (dimensioned role event).Distinct := by
  obtain ⟨fields, rfl, hfields, -⟩ := h
  rw [dimensioned_eq hfields]
  obtain ⟨hkeys, hvalues⟩ := hd
  refine ⟨?_, ?_⟩
  · rw [List.map_append]
    exact List.Nodup.append hkeys (List.nodup_singleton _) (by simpa using hfields)
  · rw [Json.distinctFields_iff] at hvalues ⊢
    simp only [List.forall_mem_append, List.forall_mem_singleton]
    exact ⟨hvalues, trivial⟩

end Events

section Batch

variable {role : InvestmentLedgerRole} {pv eventId asOf : String} {events : List Json}

theorem anyElement_iff (q : String → Prop) (xs : List Json) : AnyElement q xs ↔ ∃ x ∈ xs, x.AnyText q := by
  induction xs with
  | nil => simp [AnyElement]
  | cons x xs ih => simp [AnyElement, ih]

/-- The role's own texts have no fence. -/
theorem hasFence_enrichBatch (hevents : ∀ event ∈ events, PlainEvent event) :
    (enrichBatch role (ledgerBatch pv eventId asOf (.arr events))).AnyText HasFence ↔
      (ledgerBatch pv eventId asOf (.arr events)).AnyText HasFence := by
  have hmap : AnyElement HasFence (events.map (dimensioned role)) ↔ AnyElement HasFence events := by
    rw [anyElement_iff, anyElement_iff]
    constructor
    · rintro ⟨x, hx, hfence⟩
      obtain ⟨event, hevent, rfl⟩ := List.mem_map.1 hx
      exact ⟨event, hevent, (hasFence_dimensioned (hevents event hevent)).1 hfence⟩
    · rintro ⟨event, hevent, hfence⟩
      exact ⟨_, List.mem_map_of_mem hevent, (hasFence_dimensioned (hevents event hevent)).2 hfence⟩
  have h₁ : ¬ HasFence "producer" := not_hasFence (by decide)
  have h₂ : ¬ HasFence role.producer := not_hasFence (by cases role <;> decide)
  have h₃ : ¬ HasFence "source_task" := not_hasFence (by decide)
  have h₄ : ¬ HasFence role.sourceTask := not_hasFence (by cases role <;> decide)
  rw [enrichBatch_ledgerBatch, ledgerBatch]
  show AnyText HasFence (.obj [_, _, _, _, ("events", .arr (events.map (dimensioned role))), _, _]) ↔ _
  simp only [AnyText, AnyField, hmap, h₁, h₂, h₃, h₄, or_false]

theorem distinct_enrichBatch (hevents : ∀ event ∈ events, PlainEvent event)
    (h : (ledgerBatch pv eventId asOf (.arr events)).Distinct) :
    (enrichBatch role (ledgerBatch pv eventId asOf (.arr events))).Distinct := by
  rw [enrichBatch_ledgerBatch]
  obtain ⟨-, -, -, -, -, helements, -⟩ := h
  have hkeys : ["schema_version", "portfolio_version", "event_id", "as_of", "events", "producer",
      "source_task"].Nodup := by
    decide
  refine ⟨hkeys, trivial, trivial, trivial, trivial, ?_, trivial, trivial, trivial⟩
  refine Json.distinctElements_iff.2 ((List.forall_mem_map).2 fun event hevent => ?_)
  exact distinct_dimensioned (hevents event hevent) (Json.distinctElements_iff.1 helements event hevent)

theorem payloadOfText_ledgerBody (hne : events ≠ []) (hevents : ∀ event ∈ events, PlainEvent event)
    (hdistinct : (ledgerBatch pv eventId asOf (.arr events)).Distinct) :
    payloadOfText (ledgerBody (enrichBatch role (ledgerBatch pv eventId asOf (.arr events)))) =
        some (enrichBatch role (ledgerBatch pv eventId asOf (.arr events))) ↔
      ¬ (ledgerBatch pv eventId asOf (.arr events)).AnyText HasFence := by
  rw [← @hasFence_enrichBatch role pv eventId asOf events hevents]
  have hd := @distinct_enrichBatch role pv eventId asOf events hevents hdistinct
  rw [enrichBatch_ledgerBatch] at hd ⊢
  constructor
  · intro hread hfence
    obtain ⟨block, hblock, hparse⟩ := fenced_ledgerBody_cut hd hfence
    simp only [payloadOfText, hblock, Option.getD_some, hparse, Option.bind_eq_bind,
      Option.bind_none] at hread
    cases hread
  · intro hfence
    have hfilter : (events.map (dimensioned role)).filter isPersistedEvent =
        events.map (dimensioned role) := by
      refine List.filter_eq_self.2 ((List.forall_mem_map).2 fun event hevent => ?_)
      exact isPersistedEvent_dimensioned (hevents event hevent)
    simp only [payloadOfText, fenced_ledgerBody hfence, Option.getD_some, Option.bind_eq_bind,
      Json.parse_pretty hd, Option.bind_some]
    have hproducer :
        ["industry_trend", "company_validation", "close_review"].contains role.producer = true := by
      cases role <;> decide
    show (if INVESTMENT_STATE_BATCH_V1 ≠ INVESTMENT_STATE_BATCH_V1 then none
      else if !(["industry_trend", "company_validation", "close_review"].contains role.producer) then none
      else if (events.map (dimensioned role)).filter isPersistedEvent = [] then none
      else some (Json.obj [("schema_version", .str INVESTMENT_STATE_BATCH_V1), ("portfolio_version", .str pv),
        ("event_id", .str eventId), ("as_of", .str asOf),
        ("events", .arr ((events.map (dimensioned role)).filter isPersistedEvent)),
        ("producer", .str role.producer), ("source_task", .str role.sourceTask)])) = _
    rw [if_neg (by simp), hproducer, hfilter, if_neg (by decide), if_neg (by simpa using hne)]
    rfl

end Batch

/-! ## Reading back -/

theorem parseCheckpointPayload_ledgerBody (P : Runtime) (payload : Json) :
    parseCheckpointPayload P (some (String.ofList (ledgerBody payload))) =
      checkpointOfText P (ledgerBody payload) := by
  unfold parseCheckpointPayload
  rw [Option.bind_some, String.toList_ofList]

theorem parseExistingPayload_ledgerBody (payload : Json) :
    parseExistingPayload (some (String.ofList (ledgerBody payload))) =
      payloadOfText (ledgerBody payload) := by
  unfold parseExistingPayload
  rw [Option.bind_some, String.toList_ofList]

/-- The morning's plan with one record that holds a note. -/
def noteCheckpoint (note : String) : Json :=
  .obj [("schema_version", .str "premarket_plan_batch_v1"), ("prompt_id", .str HOLDING_ASSISTANT),
    ("production_ref", .str "0123456789abcdef0123456789abcdef01234567"), ("portfolio_version", .str "pv-1"),
    ("event_id", .str "e-1"), ("idempotency_key", .str "holding-assistant:2026-09-30:09:10"),
    ("trading_date", .str "2026-09-30"), ("as_of", .str "2026-09-30T01:00:00.000Z"),
    ("scheduled_slot", .str "09:10"), ("producer", .str HOLDING_ASSISTANT),
    ("observation_type", .str "PREMARKET"), ("previous_checkpoint_comment_id", .null),
    ("preopen_comment_id", .null), ("live_universe_hash", .str "h-1"), ("source_task", .str "plan"),
    ("records", .arr [.obj [("note", .str note)]])]

/-- A batch of the industry role whose event holds a note. -/
def noteBatch (note : String) : Json :=
  exampleBatch "20260930T090000+08|industry_trend|BATCH" "2026-09-30T01:00:00.000Z"
    [("industry_thesis", .str note)]

theorem distinct_noteCheckpoint (note : String) : (noteCheckpoint note).Distinct := by
  simp [noteCheckpoint, Json.Distinct, Json.DistinctFields, Json.DistinctElements]

theorem distinct_noteBatch (note : String) : (noteBatch note).Distinct := by
  simp [noteBatch, exampleBatch, exampleEvent, Json.Distinct, Json.DistinctFields, Json.DistinctElements]

theorem hasFence_noteCheckpoint {note : String} (h : HasFence note) :
    (noteCheckpoint note).AnyText HasFence := by
  simp [noteCheckpoint, AnyText, AnyField, AnyElement, h]

theorem hasFence_noteBatch {note : String} (h : HasFence note) : (noteBatch note).AnyText HasFence := by
  simp [noteBatch, exampleBatch, exampleEvent, AnyText, AnyField, AnyElement, h]

end QuantproCollector.StateGateway
