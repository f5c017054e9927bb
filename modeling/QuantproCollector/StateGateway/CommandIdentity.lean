import QuantproCollector.Lib.JsonNormal
import QuantproCollector.StateGateway.Retry

/-!
# The identity of a command

An accepted investment command is named by the digest of its channel and its projected events. Commands
that differ in nothing the projection keeps have one name (`projectEvent_congr`), and commands with one
name have one channel and the same projected events (`events_of_writeKey`). The batch that is built around
the events is one that the ledger's schema and the role's event-id pattern accept.
-/

namespace QuantproCollector.StateGateway

open Schema (shapeFields)

/-! ## Shapes -/

section Shape

variable (channel : InvestmentCommandChannel)

theorem nodup_eventShape : (channel.eventShape.map Schema.Field.name).Nodup := by
  cases channel <;> decide

/-- What holds of the schema of every field: it returns what it accepts, and nothing with keys. -/
def Scalar (s : Schema) : Prop :=
  s.Exact ∧ s.Stable ∧ s.Flat

theorem scalar_text (ok : String → Bool) : Scalar (.text ok) :=
  ⟨Schema.exact_text ok, Schema.stable_text ok, Schema.flat_text ok⟩

theorem Scalar.orNull {s : Schema} (hs : Scalar s) : Scalar (.orNull s) :=
  ⟨Schema.exact_orNull hs.1, Schema.stable_orNull hs.2.1, Schema.flat_orNull hs.2.2⟩

theorem Scalar.array {s : Schema} (hs : Scalar s) (min max : ℕ) : Scalar (.array s min max) :=
  ⟨Schema.exact_array hs.1 min max, Schema.stable_array hs.2.1 min max, Schema.flat_array hs.2.2 min max⟩

theorem scalar_commonShape : ∀ f ∈ COMMON_EVENT_SHAPE, Scalar f.schema := by
  intro f hf
  simp only [COMMON_EVENT_SHAPE, List.mem_cons, List.not_mem_nil, or_false] at hf
  rcases hf with rfl | rfl | rfl | rfl | rfl | rfl | rfl
  · exact scalar_text _
  · exact scalar_text _
  · exact (scalar_text _).array _ _
  · exact (scalar_text _).array _ _
  · exact (scalar_text _).array _ _
  · exact ⟨Schema.exact_number _, Schema.stable_number _, Schema.flat_number _⟩
  · exact (scalar_text _).orNull

theorem eventShape_cases {f : Schema.Field} (hf : f ∈ channel.eventShape) : Scalar f.schema := by
  have hboolean : Scalar .boolean := ⟨Schema.exact_boolean, Schema.stable_boolean, Schema.flat_boolean⟩
  cases channel with
  | INDUSTRY =>
    rcases List.mem_append.1 hf with hf | hf
    · exact scalar_commonShape f hf
    simp only [List.mem_cons, List.not_mem_nil, or_false] at hf
    rcases hf with rfl | rfl | rfl <;> exact (scalar_text _).orNull
  | COMPANY =>
    rcases List.mem_append.1 hf with hf | hf
    · exact scalar_commonShape f hf
    simp only [List.mem_cons, List.not_mem_nil, or_false] at hf
    rcases hf with rfl | rfl | rfl <;> exact (scalar_text _).orNull
  | CLOSE =>
    rcases List.mem_append.1 hf with hf | hf
    · exact scalar_commonShape f hf
    simp only [List.mem_cons, List.not_mem_nil, or_false] at hf
    rcases hf with rfl | rfl | rfl | rfl
    · exact (scalar_text _).orNull
    · exact (scalar_text _).orNull
    · exact hboolean.orNull
    · exact (scalar_text _).orNull

theorem stable_eventCommandSchema (strict : Bool) : (eventCommandSchema channel strict).Stable :=
  Schema.stable_object (nodup_eventShape channel) fun _ hf => (eventShape_cases channel hf).2.1

/-- What a field of the shape is in the projected event. -/
def projectValue (event : Json) (f : Schema.Field) : Option Json :=
  if f.name = "evidence_types" then
    some (.arr ((normalizeEvidenceTypes (textsOf event "evidence_types")).map Json.str))
  else if f.name = "evidence_keys" then
    some (.arr ((normalizeEvidenceKeys (textsOf event "evidence_keys")).map Json.str))
  else if f.required then some ((event.get? f.name).getD .null)
  else event.get? f.name

theorem optionalField_eq (event : Json) (k : String) :
    optionalField event k = ((event.get? k).map fun x => (k, x)).toList := by
  unfold optionalField
  cases event.get? k <;> rfl

/-- The projected event, by its shape. -/
theorem projectEvent_eq (event : Json) :
    projectEvent channel event = .obj (shapeFields channel.eventShape (projectValue event)) := by
  cases channel with
  | INDUSTRY =>
    simp [projectEvent, projectIndustryEvent, commonEvent, requiredField, optionalField_eq, shapeFields,
      InvestmentCommandChannel.eventShape, INDUSTRY_EVENT_SHAPE, COMMON_EVENT_SHAPE, projectValue]
  | COMPANY =>
    simp [projectEvent, projectCompanyEvent, commonEvent, requiredField, optionalField_eq, shapeFields,
      InvestmentCommandChannel.eventShape, COMPANY_EVENT_SHAPE, COMMON_EVENT_SHAPE, projectValue]
  | CLOSE =>
    simp [projectEvent, projectCloseEvent, commonEvent, requiredField, optionalField_eq, shapeFields,
      InvestmentCommandChannel.eventShape, CLOSE_EVENT_SHAPE, COMMON_EVENT_SHAPE, projectValue]

end Shape

/-! ## Normalised evidence -/

theorem normalizeEvidenceTypes_congr {xs ys : List String} (h : ∀ s, s ∈ xs ↔ s ∈ ys) :
    normalizeEvidenceTypes xs = normalizeEvidenceTypes ys := by
  refine List.filter_congr fun s _ => ?_
  rw [Bool.eq_iff_iff, List.contains_iff_mem, List.contains_iff_mem]
  exact h s

theorem nodup_eraseDups (xs : List String) : xs.eraseDups.Nodup := by
  match xs with
  | [] => exact List.nodup_nil
  | x :: xs =>
    rw [List.eraseDups_cons]
    refine List.nodup_cons.2 ⟨?_, nodup_eraseDups _⟩
    simp
termination_by xs.length
decreasing_by
  exact Nat.lt_succ_of_le (List.length_filter_le _ xs)

/-- The keys are a sorted list without repetition, so they are their members. -/
theorem normalizeEvidenceKeys_congr {xs ys : List String} (h : ∀ s, s ∈ xs ↔ s ∈ ys) :
    normalizeEvidenceKeys xs = normalizeEvidenceKeys ys := by
  have hperm : xs.eraseDups.Perm ys.eraseDups :=
    (List.perm_ext_iff_of_nodup (nodup_eraseDups xs) (nodup_eraseDups ys)).2 fun s => by
      rw [List.mem_eraseDups, List.mem_eraseDups]
      exact h s
  have htotal : Std.Total fun a b => Json.keyLe a b = true := ⟨fun a b => Utf16.le_total _ _⟩
  have htrans : IsTrans String fun a b => Json.keyLe a b = true := ⟨fun a b c => Utf16.le_trans⟩
  unfold normalizeEvidenceKeys
  refine List.Perm.eq_of_pairwise ?_ (List.pairwise_insertionSort (fun a b => Json.keyLe a b = true) _)
    (List.pairwise_insertionSort _ _) ?_
  · intro a b _ _ hab hba
    exact Utf16.units_injective (Utf16.le_antisymm hab hba)
  · exact ((List.perm_insertionSort _ _).trans hperm).trans (List.perm_insertionSort _ _).symm

/-! ## Events -/

/-- Two events of a channel that differ at most in the order and the repetitions of their evidence, in the
order of their keys, and in fields that the channel does not have. -/
def EventAlike (channel : InvestmentCommandChannel) (event event' : Json) : Prop :=
  ∀ f ∈ channel.eventShape,
    if f.name = "evidence_types" ∨ f.name = "evidence_keys" then
      ∀ s, s ∈ textsOf event f.name ↔ s ∈ textsOf event' f.name
    else event.get? f.name = event'.get? f.name

section Event

variable {channel : InvestmentCommandChannel} {strict : Bool} {event event' parsed parsed' : Json}

/-- The fields of a channel are parsed to themselves. -/
theorem get?_of_eventCommandSchema (h : eventCommandSchema channel strict event = some parsed)
    {f : Schema.Field} (hf : f ∈ channel.eventShape) : parsed.get? f.name = event.get? f.name := by
  cases event with
  | obj fields =>
    simp only [eventCommandSchema, Schema.object] at h
    split_ifs at h
    obtain ⟨ys, hys, rfl⟩ := Option.map_eq_some_iff.1 h
    obtain ⟨hget, hsome, -⟩ := Schema.lookup_parseFields (nodup_eventShape channel) hys f hf
    show ys.lookup f.name = _
    cases hraw : (Json.obj fields).get? f.name with
    | none => rw [hget, hraw, Option.bind_none]
    | some x =>
      obtain ⟨y, hy⟩ := Option.isSome_iff_exists.1 (hsome (by rw [hraw]; rfl))
      rw [hraw, Option.bind_some, hy] at hget
      rw [hy, (eventShape_cases channel hf).1 x y hget.symm]
  | _ => cases h

theorem textsOf_congr {k : String} (h : parsed.get? k = event.get? k) :
    textsOf parsed k = textsOf event k := by
  unfold textsOf
  rw [h]

theorem evidence_mem_eventShape (channel : InvestmentCommandChannel) :
    ⟨"evidence_types", true, .array (.oneOf EVIDENCE_TYPES) 0 6⟩ ∈ channel.eventShape ∧
      ⟨"evidence_keys", true, .array (boundedString 1 512) 0 100⟩ ∈ channel.eventShape := by
  cases channel <;> simp [InvestmentCommandChannel.eventShape, INDUSTRY_EVENT_SHAPE, COMPANY_EVENT_SHAPE,
    CLOSE_EVENT_SHAPE, COMMON_EVENT_SHAPE]

/-- Alike events are projected to one event. -/
theorem projectEvent_congr (h : eventCommandSchema channel strict event = some parsed)
    (h' : eventCommandSchema channel strict event' = some parsed')
    (halike : EventAlike channel event event') :
    projectEvent channel parsed = projectEvent channel parsed' := by
  obtain ⟨htypes, hkeys⟩ := evidence_mem_eventShape channel
  have halikeTypes : ∀ s, s ∈ textsOf parsed "evidence_types" ↔ s ∈ textsOf parsed' "evidence_types" := by
    have hmem := halike _ htypes
    rw [if_pos (.inl rfl)] at hmem
    rw [textsOf_congr (get?_of_eventCommandSchema h htypes),
      textsOf_congr (get?_of_eventCommandSchema h' htypes)]
    exact hmem
  have halikeKeys : ∀ s, s ∈ textsOf parsed "evidence_keys" ↔ s ∈ textsOf parsed' "evidence_keys" := by
    have hmem := halike _ hkeys
    rw [if_pos (.inr rfl)] at hmem
    rw [textsOf_congr (get?_of_eventCommandSchema h hkeys),
      textsOf_congr (get?_of_eventCommandSchema h' hkeys)]
    exact hmem
  have hvalue : ∀ f ∈ channel.eventShape, projectValue parsed f = projectValue parsed' f := by
    intro f hf
    unfold projectValue
    by_cases h1 : f.name = "evidence_types"
    · rw [if_pos h1, if_pos h1, normalizeEvidenceTypes_congr halikeTypes]
    by_cases h2 : f.name = "evidence_keys"
    · rw [if_neg h1, if_neg h1, if_pos h2, if_pos h2, normalizeEvidenceKeys_congr halikeKeys]
    have hsame := halike f hf
    rw [if_neg (by simp [h1, h2])] at hsame
    rw [if_neg h1, if_neg h1, if_neg h2, if_neg h2, get?_of_eventCommandSchema h hf,
      get?_of_eventCommandSchema h' hf, hsame]
  rw [projectEvent_eq, projectEvent_eq]
  exact congrArg Json.obj (List.flatMap_congr fun f hf => by rw [hvalue f hf])

theorem flat_texts (xs : List String) : (Json.arr (xs.map Json.str)).Flat := by
  refine Json.flat_arr fun x hx => ?_
  obtain ⟨s, -, rfl⟩ := List.mem_map.1 hx
  exact fun _ => rfl

/-- What is projected from a parsed event is flat. -/
theorem flat_projectValue (h : eventCommandSchema channel strict event = some parsed) {f : Schema.Field}
    (hf : f ∈ channel.eventShape) {x : Json} (hx : projectValue parsed f = some x) : x.Flat := by
  have hflat : ∀ y, parsed.get? f.name = some y → y.Flat := by
    intro y hy
    obtain ⟨hget, -⟩ := Schema.get?_of_object (nodup_eventShape channel) h f hf
    obtain ⟨raw, -, hraw⟩ := Option.bind_eq_some_iff.1 (hget.symm.trans hy)
    exact (eventShape_cases channel hf).2.2 raw y hraw
  unfold projectValue at hx
  split_ifs at hx with h1 h2 h3
  · obtain rfl := Option.some.inj hx
    exact flat_texts _
  · obtain rfl := Option.some.inj hx
    exact flat_texts _
  · obtain rfl := Option.some.inj hx
    cases hget : parsed.get? f.name with
    | none => exact fun _ => rfl
    | some y => exact hflat y hget
  · exact hflat x hx

/-- Projected events with one sorted form are the same. -/
theorem projectEvent_of_canonicalize {le : String → String → Bool}
    (h : eventCommandSchema channel strict event = some parsed)
    (h' : eventCommandSchema channel strict event' = some parsed')
    (heq : (projectEvent channel parsed).canonicalize le = (projectEvent channel parsed').canonicalize le) :
    projectEvent channel parsed = projectEvent channel parsed' := by
  have hflat : ∀ {event parsed : Json}, eventCommandSchema channel strict event = some parsed →
      ∀ g ∈ shapeFields channel.eventShape (projectValue parsed), g.2.Flat := by
    intro event parsed h g hg
    obtain ⟨f, hf, -, hx⟩ := Schema.name_mem_shapeFields hg
    exact flat_projectValue h hf hx
  rw [projectEvent_eq, projectEvent_eq] at heq ⊢
  exact congrArg Json.obj (Schema.shapeFields_of_perm (nodup_eventShape channel)
    (Json.perm_of_canonicalize (hflat h) (hflat h') heq))

end Event

/-! ## Commands -/

/-- Two commands of a channel whose events are alike. -/
def CommandAlike (channel : InvestmentCommandChannel) (command command' : Json) : Prop :=
  ∃ events events', command.get? "events" = some (.arr events) ∧
    command'.get? "events" = some (.arr events') ∧ List.Forall₂ (EventAlike channel) events events'

section Command

variable {P : Runtime} {channel channel' : InvestmentCommandChannel} {command command' : Json}
  {portfolioVersion portfolioVersion' : String} {prepared prepared' : PreparedCommand}

/-- The events of a command, parsed. -/
def ParsedEvents (channel : InvestmentCommandChannel) : List Json → List Json → Prop :=
  List.Forall₂ fun event parsed => eventCommandSchema channel false event = some parsed

theorem forall₂_of_mapM {s : Schema} {xs ys : List Json} (h : xs.mapM s = some ys) :
    List.Forall₂ (fun x y => s x = some y) xs ys := by
  induction xs generalizing ys with
  | nil =>
    obtain rfl : [] = ys := by simpa using h
    exact .nil
  | cons x xs ih =>
    rw [List.mapM_cons] at h
    obtain ⟨y, hy, h⟩ := Option.bind_eq_some_iff.1 h
    obtain ⟨zs, hzs, h⟩ := Option.bind_eq_some_iff.1 h
    obtain rfl : y :: zs = ys := Option.some.inj h
    exact .cons hy (ih hzs)

theorem projectEvents_parsed (P : Runtime) {events parsed : List Json}
    (h : ParsedEvents channel events parsed) :
    projectEvents P channel parsed = .ok (parsed.map (projectEvent channel)) := by
  unfold projectEvents
  induction h with
  | nil => rfl
  | cons hevent h ih =>
    rw [List.mapM_cons, ih, List.map_cons]
    unfold parseCommand
    rw [stable_eventCommandSchema channel false _ _ hevent]
    rfl

/-- What an accepted command is built into. -/
theorem build_ok (h : buildInvestmentCommandBatch P channel command portfolioVersion = .ok prepared) :
    ∃ asOf events parsed, command.get? "events" = some (.arr events) ∧ ParsedEvents channel events parsed ∧
      1 ≤ parsed.length ∧ parsed.length ≤ 128 ∧ 1 ≤ Utf16.length asOf ∧ Utf16.length asOf ≤ 128 ∧
      prepared.batch = commandBatch P channel portfolioVersion asOf (parsed.map (projectEvent channel)) ∧
      prepared.writeKey = "CMD:" ++ channel.channel.name ++ ":" ++
        commandDigest P channel (parsed.map (projectEvent channel)) := by
  unfold buildInvestmentCommandBatch parseCommand at h
  cases hparse : schemaForChannel P channel command with
  | none =>
    rw [hparse] at h
    cases h
  | some value =>
    rw [hparse] at h
    have hnodup : (["as_of", "events", "run_id"] : List String).Nodup := by decide
    have hparse' : Schema.object false
        [⟨"as_of", true, AS_OF_SCHEMA P⟩, ⟨"events", true, .array (eventCommandSchema channel false) 1 128⟩,
          ⟨"run_id", false, RUN_ID_SCHEMA⟩] command = some value := hparse
    have hshape := Schema.get?_of_object (by exact hnodup) hparse'
    obtain ⟨hevents, hsome⟩ := hshape ⟨"events", true, .array (eventCommandSchema channel false) 1 128⟩
      (by simp)
    obtain ⟨hasOf, hasOfSome⟩ := hshape ⟨"as_of", true, AS_OF_SCHEMA P⟩ (by simp)
    obtain ⟨y, hy⟩ := Option.isSome_iff_exists.1 (hsome rfl)
    obtain ⟨raw, hraw, harray⟩ := Option.bind_eq_some_iff.1 (hevents.symm.trans hy)
    obtain ⟨z, hz⟩ := Option.isSome_iff_exists.1 (hasOfSome rfl)
    obtain ⟨rawAsOf, -, htext⟩ := Option.bind_eq_some_iff.1 (hasOf.symm.trans hz)
    obtain ⟨asOf, rfl, hasOfMin, hasOfMax⟩ : ∃ asOf, z = .str asOf ∧ 1 ≤ Utf16.length asOf ∧
        Utf16.length asOf ≤ 128 := by
      cases rawAsOf with
      | str asOf =>
        simp only [AS_OF_SCHEMA, Schema.text] at htext
        split_ifs at htext with hok
        simp only [Bool.and_eq_true, decide_eq_true_eq] at hok
        exact ⟨asOf, (Option.some.inj htext).symm, hok.1⟩
      | _ => cases htext
    cases raw with
    | arr events =>
      simp only [Schema.array] at harray
      split_ifs at harray with hlen
      obtain ⟨parsed, hparsed, rfl⟩ := Option.map_eq_some_iff.1 harray
      have hforall : ParsedEvents channel events parsed := forall₂_of_mapM hparsed
      have hbatch : batchEvents value = parsed := by
        unfold batchEvents
        rw [hy]
      have hfield : textField value "as_of" = asOf := by
        unfold textField
        rw [hz]
        rfl
      have hlength := Schema.length_mapM hparsed
      change projectEvents P channel (batchEvents value) >>= _ = _ at h
      rw [hbatch, projectEvents_parsed P hforall] at h
      obtain rfl := Except.ok.inj h
      refine ⟨asOf, events, parsed, hraw, hforall, by omega, by omega, hasOfMin, hasOfMax, ?_, rfl⟩
      show commandBatch P channel portfolioVersion (textField value "as_of") _ = _
      rw [hfield]
    | _ => cases harray

/-- The command's name tells its channel and its digest. -/
theorem writeKey_inj {digest digest' : String}
    (h : "CMD:" ++ channel.channel.name ++ ":" ++ digest =
      "CMD:" ++ channel'.channel.name ++ ":" ++ digest') :
    channel = channel' ∧ digest = digest' := by
  have hchars := congrArg String.toList h
  simp only [String.toList_append] at hchars
  cases channel <;> cases channel' <;>
    simp [InvestmentCommandChannel.channel, StateWriteChannel.name] at hchars ⊢
  all_goals exact String.toList_inj.1 hchars

theorem map_projectEvent_congr {events events' parsed parsed' : List Json}
    (halike : List.Forall₂ (EventAlike channel) events events') (h : ParsedEvents channel events parsed)
    (h' : ParsedEvents channel events' parsed') :
    parsed.map (projectEvent channel) = parsed'.map (projectEvent channel) := by
  induction halike generalizing parsed parsed' with
  | nil =>
    cases h
    cases h'
    rfl
  | cons hevent _ ih =>
    cases h with
    | cons hparsed h =>
      cases h' with
      | cons hparsed' h' =>
        rw [List.map_cons, List.map_cons, projectEvent_congr hparsed hparsed' hevent, ih h h']

/-- Projected events with one sorted form are the same, one by one. -/
theorem map_projectEvent_of_canonicalize {le : String → String → Bool}
    {events events' parsed parsed' : List Json}
    (h : ParsedEvents channel events parsed) (h' : ParsedEvents channel events' parsed')
    (heq : (parsed.map (projectEvent channel)).map (fun x => x.canonicalize le) =
      (parsed'.map (projectEvent channel)).map fun x => x.canonicalize le) :
    parsed.map (projectEvent channel) = parsed'.map (projectEvent channel) := by
  induction h generalizing events' parsed' with
  | nil =>
    cases h' with
    | nil => rfl
    | cons hparsed' h' => cases heq
  | cons hparsed h ih =>
    cases h' with
    | nil => cases heq
    | cons hparsed' h' =>
      simp only [List.map_cons, List.cons.injEq] at heq ⊢
      exact ⟨projectEvent_of_canonicalize hparsed hparsed' heq.1, ih h' heq.2⟩

/-- Commands with one name have one channel and the same projected events. -/
theorem events_of_writeKey (hsha : Function.Injective P.sha256Hex)
    (h : buildInvestmentCommandBatch P channel command portfolioVersion = .ok prepared)
    (h' : buildInvestmentCommandBatch P channel' command' portfolioVersion' = .ok prepared')
    (hkey : prepared.writeKey = prepared'.writeKey) :
    channel = channel' ∧ prepared.batch.get? "events" = prepared'.batch.get? "events" := by
  obtain ⟨asOf, events, parsed, -, hparsed, -, -, -, -, hbatch, hwrite⟩ := build_ok h
  obtain ⟨asOf', events', parsed', -, hparsed', -, -, -, -, hbatch', hwrite'⟩ := build_ok h'
  rw [hwrite, hwrite'] at hkey
  obtain ⟨rfl, hdigest⟩ := writeKey_inj hkey
  have htext := hsha hdigest
  have hpaired := (Json.rebuiltText_paired [
    ("contract", .str "owned-state-command-v1", .str "owned-state-command-v1"),
    ("channel", .str channel.channel.name, .str channel.channel.name),
    ("events", .arr (parsed.map (projectEvent channel)), .arr (parsed'.map (projectEvent channel)))]).1 htext
  have hevents := hpaired ("events", .arr (parsed.map (projectEvent channel)),
    .arr (parsed'.map (projectEvent channel))) (by simp)
  rw [Json.rebuiltText_eq_iff, Json.canonicalize, Json.canonicalize, Json.canonicalizeElements_eq_map,
    Json.canonicalizeElements_eq_map] at hevents
  have hsame := map_projectEvent_of_canonicalize hparsed hparsed' (Json.arr.inj hevents)
  refine ⟨rfl, ?_⟩
  rw [hbatch, hbatch', hsame]
  rfl

/-- Alike commands have one name. -/
theorem writeKey_congr (halike : CommandAlike channel command command')
    (h : buildInvestmentCommandBatch P channel command portfolioVersion = .ok prepared)
    (h' : buildInvestmentCommandBatch P channel command' portfolioVersion' = .ok prepared') :
    prepared.writeKey = prepared'.writeKey ∧
      prepared.batch.get? "event_id" = prepared'.batch.get? "event_id" := by
  obtain ⟨asOf, events, parsed, hget, hparsed, -, -, -, -, hbatch, hwrite⟩ := build_ok h
  obtain ⟨asOf', events', parsed', hget', hparsed', -, -, -, -, hbatch', hwrite'⟩ := build_ok h'
  obtain ⟨raw, raw', hraw, hraw', hevents⟩ := halike
  obtain rfl := Json.arr.inj (Option.some.inj (hget.symm.trans hraw))
  obtain rfl := Json.arr.inj (Option.some.inj (hget'.symm.trans hraw'))
  have hsame := map_projectEvent_congr hevents hparsed hparsed'
  rw [hwrite, hwrite', hbatch, hbatch', hsame]
  exact ⟨rfl, rfl⟩

end Command

/-! ## The batch of a command -/

/-- The ledger's field is one of the channel's fields, or an optional one that the channel lacks. -/
theorem ledgerField_cases (channel : InvestmentCommandChannel) {f : Schema.Field}
    (hf : f ∈ INVESTMENT_LEDGER_EVENT_SHAPE) :
    (f.name ∉ channel.eventShape.map Schema.Field.name ∧ f.required = false) ∨
      ∃ g ∈ channel.eventShape, g.name = f.name ∧ g.required = f.required ∧
        ∀ x y, g.schema x = some y → (f.schema y).isSome = true := by
  have hsame : f ∈ channel.eventShape → ∃ g ∈ channel.eventShape, g.name = f.name ∧ g.required = f.required ∧
      ∀ x y, g.schema x = some y → (f.schema y).isSome = true := by
    intro hmem
    refine ⟨f, hmem, rfl, rfl, fun x y hxy => ?_⟩
    rw [(eventShape_cases channel hmem).2.1 x y hxy]
    rfl
  have hproposal : ∀ texts : List String, (∀ t ∈ texts, t ∈ ["R0", "R1", "R2"]) → ∀ x y,
      Schema.orNull (.oneOf texts) x = some y →
        (Schema.orNull (.oneOf ["R0", "R1", "R2"]) y).isSome = true := by
    intro texts htexts x y hxy
    obtain rfl := Schema.exact_orNull (Schema.exact_oneOf texts) x y hxy
    cases y with
    | null => rfl
    | str t =>
      have ht : t ∈ texts := by
        by_contra hnot
        simp [Schema.orNull, Schema.oneOf, Schema.text, hnot] at hxy
      have hcontains : (["R0", "R1", "R2"] : List String).contains t = true := by simpa using htexts t ht
      show (if (["R0", "R1", "R2"] : List String).contains t then some (Json.str t) else none).isSome = true
      rw [if_pos hcontains]
      rfl
    | _ => cases hxy
  have hindustry := hproposal ["R0", "R1"] (by simp)
  have hcompany := hproposal ["R2"] (by simp)
  simp only [INVESTMENT_LEDGER_EVENT_SHAPE, List.mem_cons, List.not_mem_nil, or_false] at hf
  cases channel with
  | INDUSTRY =>
    rcases hf with rfl | rfl | rfl | rfl | rfl | rfl | rfl | rfl | rfl | rfl | rfl | rfl | rfl |
      rfl | rfl | rfl
    all_goals first
      | exact .inl ⟨by decide, rfl⟩
      | refine .inr (hsame ?_)
        simp [InvestmentCommandChannel.eventShape, INDUSTRY_EVENT_SHAPE, COMMON_EVENT_SHAPE]
        done
      | refine .inr ⟨⟨"r_proposal", false, .orNull (.oneOf ["R0", "R1"])⟩, ?_, rfl, rfl, hindustry⟩
        simp [InvestmentCommandChannel.eventShape, INDUSTRY_EVENT_SHAPE]
  | COMPANY =>
    rcases hf with rfl | rfl | rfl | rfl | rfl | rfl | rfl | rfl | rfl | rfl | rfl | rfl | rfl |
      rfl | rfl | rfl
    all_goals first
      | exact .inl ⟨by decide, rfl⟩
      | refine .inr (hsame ?_)
        simp [InvestmentCommandChannel.eventShape, COMPANY_EVENT_SHAPE, COMMON_EVENT_SHAPE]
        done
      | refine .inr ⟨⟨"r_proposal", false, .orNull (.oneOf ["R2"])⟩, ?_, rfl, rfl, hcompany⟩
        simp [InvestmentCommandChannel.eventShape, COMPANY_EVENT_SHAPE]
  | CLOSE =>
    rcases hf with rfl | rfl | rfl | rfl | rfl | rfl | rfl | rfl | rfl | rfl | rfl | rfl | rfl |
      rfl | rfl | rfl
    all_goals first
      | exact .inl ⟨by decide, rfl⟩
      | refine .inr (hsame ?_)
        simp [InvestmentCommandChannel.eventShape, CLOSE_EVENT_SHAPE, COMMON_EVENT_SHAPE]

section Batch

variable {channel : InvestmentCommandChannel} {event parsed : Json}

theorem mapM_text_isSome {ok : String → Bool} {xs : List String} (h : ∀ s ∈ xs, ok s = true) :
    (xs.map Json.str).mapM (Schema.text ok) = some (xs.map Json.str) := by
  refine Schema.mapM_of_fixed fun x hx => ?_
  obtain ⟨s, hs, rfl⟩ := List.mem_map.1 hx
  simp only [Schema.text]
  rw [if_pos (h s hs)]

theorem array_texts {ok : String → Bool} {xs : List String} {max : ℕ} (hlen : xs.length ≤ max)
    (h : ∀ s ∈ xs, ok s = true) : (Schema.array (.text ok) 0 max (.arr (xs.map Json.str))).isSome = true := by
  simp only [Schema.array]
  rw [if_pos ⟨Nat.zero_le _, by rw [List.length_map]; exact hlen⟩, mapM_text_isSome h]
  rfl

theorem length_normalizeEvidenceTypes (xs : List String) : (normalizeEvidenceTypes xs).length ≤ 6 :=
  List.length_filter_le _ EVIDENCE_TYPES

theorem length_normalizeEvidenceKeys (xs : List String) : (normalizeEvidenceKeys xs).length ≤ xs.length := by
  unfold normalizeEvidenceKeys
  rw [List.length_insertionSort]
  exact length_eraseDups_le xs

/-- The texts of a parsed array of texts. -/
theorem texts_of_array {ok : String → Bool} {max : ℕ} {k : String} {v d x : Json}
    (h : Schema.array (.text ok) 0 max x = some v) (hd : d.get? k = some v) :
    (textsOf d k).length ≤ max ∧ ∀ s ∈ textsOf d k, ok s = true := by
  obtain ⟨ys, rfl, -, hmax, hys⟩ := Schema.elements_of_array h
  have htexts : textsOf d k = ys.filterMap Json.str? := by
    unfold textsOf
    rw [hd]
  rw [htexts]
  refine ⟨(List.length_filterMap_le _ _).trans hmax, fun s hs => ?_⟩
  obtain ⟨y, hy, hstr⟩ := List.mem_filterMap.1 hs
  obtain ⟨x, hx⟩ := hys y hy
  cases x with
  | str t =>
    simp only [Schema.text] at hx
    split_ifs at hx with hok
    obtain rfl := Option.some.inj hx
    obtain rfl := Option.some.inj hstr
    exact hok
  | _ => cases hx

theorem parsed_field (h : eventCommandSchema channel false event = some parsed) {f : Schema.Field}
    (hf : f ∈ channel.eventShape) (hreq : f.required = true) :
    ∃ x y, parsed.get? f.name = some y ∧ f.schema x = some y := by
  obtain ⟨hget, hsome⟩ := Schema.get?_of_object (nodup_eventShape channel) h f hf
  obtain ⟨y, hy⟩ := Option.isSome_iff_exists.1 (hsome hreq)
  obtain ⟨x, -, hx⟩ := Option.bind_eq_some_iff.1 (hget.symm.trans hy)
  exact ⟨x, y, hy, hx⟩

/-- A projected event is one of the ledger's. -/
theorem eventSchema_projectEvent (h : eventCommandSchema channel false event = some parsed) :
    (INVESTMENT_LEDGER_EVENT_INPUT_SCHEMA (projectEvent channel parsed)).isSome = true := by
  rw [projectEvent_eq]
  refine Schema.object_isSome ?_ ?_
  · intro g hg
    obtain ⟨f, hf, hname, -⟩ := Schema.name_mem_shapeFields hg
    have hnames : ∀ k ∈ channel.eventShape.map Schema.Field.name,
        k ∈ INVESTMENT_LEDGER_EVENT_SHAPE.map Schema.Field.name := by
      cases channel <;> decide
    rw [hname]
    exact hnames _ (List.mem_map_of_mem hf)
  · intro f hf
    rcases ledgerField_cases channel hf with ⟨hname, hopt⟩ | ⟨g, hg, hname, hreq, hschema⟩
    · exact .inl ⟨hopt, Schema.lookup_shapeFields_none hname⟩
    have hlookup : (Json.obj (shapeFields channel.eventShape (projectValue parsed))).get? f.name =
        projectValue parsed g := hname ▸ Schema.lookup_shapeFields (nodup_eventShape channel) hg
    have hparsed : ∀ y, parsed.get? g.name = some y → (f.schema y).isSome = true := by
      intro y hy
      obtain ⟨hget, -⟩ := Schema.get?_of_object (nodup_eventShape channel) h g hg
      obtain ⟨x, -, hx⟩ := Option.bind_eq_some_iff.1 (hget.symm.trans hy)
      exact hschema x y hx
    have hledger : (INVESTMENT_LEDGER_EVENT_SHAPE.map Schema.Field.name).Nodup := by decide
    have hfield : ∀ f' ∈ INVESTMENT_LEDGER_EVENT_SHAPE, f'.name = g.name → f' = f := fun f' hf' hn =>
      List.inj_on_of_nodup_map hledger hf' hf (hn.trans hname)
    obtain ⟨htypes, hkeys⟩ := evidence_mem_eventShape channel
    rw [hlookup]
    unfold projectValue
    by_cases h1 : g.name = "evidence_types"
    · rw [if_pos h1]
      have hf1 := hfield ⟨"evidence_types", true, .array (.oneOf EVIDENCE_TYPES) 0 6⟩
        (by simp [INVESTMENT_LEDGER_EVENT_SHAPE]) h1.symm
      refine .inr ⟨_, rfl, ?_⟩
      rw [← hf1]
      refine array_texts (length_normalizeEvidenceTypes _) fun s hs => ?_
      exact List.contains_iff_mem.2 (List.mem_of_mem_filter hs)
    by_cases h2 : g.name = "evidence_keys"
    · rw [if_neg h1, if_pos h2]
      have hf2 := hfield ⟨"evidence_keys", true, .array (boundedString 1 512) 0 100⟩
        (by simp [INVESTMENT_LEDGER_EVENT_SHAPE]) h2.symm
      obtain ⟨x, y, hy, hx⟩ := parsed_field h hkeys rfl
      obtain ⟨hlen, hok⟩ := texts_of_array hx hy
      refine .inr ⟨_, rfl, ?_⟩
      rw [← hf2]
      refine array_texts ((length_normalizeEvidenceKeys _).trans hlen) fun s hs => hok s ?_
      unfold normalizeEvidenceKeys at hs
      exact List.mem_eraseDups.1 ((List.mem_insertionSort _).1 hs)
    rw [if_neg h1, if_neg h2]
    by_cases h3 : g.required = true
    · obtain ⟨-, y, hy, -⟩ := parsed_field h hg h3
      rw [if_pos h3, hy]
      exact .inr ⟨y, rfl, hparsed y hy⟩
    · rw [if_neg h3]
      cases hget : parsed.get? g.name with
      | none => exact .inl ⟨by simpa [hreq] using h3, rfl⟩
      | some y => exact .inr ⟨y, rfl, hparsed y hget⟩

theorem mapM_isSome {s : Schema} {xs : List Json} (h : ∀ x ∈ xs, (s x).isSome = true) :
    (xs.mapM s).isSome = true := by
  induction xs with
  | nil => rfl
  | cons x xs ih =>
    rw [List.forall_mem_cons] at h
    obtain ⟨y, hy⟩ := Option.isSome_iff_exists.1 h.1
    obtain ⟨ys, hys⟩ := Option.isSome_iff_exists.1 (ih h.2)
    rw [List.mapM_cons, hy, hys]
    rfl

theorem array_events {events parsed : List Json} (h : ParsedEvents channel events parsed)
    (hmin : 1 ≤ parsed.length) (hmax : parsed.length ≤ 128) :
    (Schema.array INVESTMENT_LEDGER_EVENT_INPUT_SCHEMA 1 128
      (.arr (parsed.map (projectEvent channel)))).isSome = true := by
  have hevents : ∀ x ∈ parsed.map (projectEvent channel),
      (INVESTMENT_LEDGER_EVENT_INPUT_SCHEMA x).isSome = true := by
    clear hmin hmax
    induction h with
    | nil => simp
    | cons hevent h ih =>
      rw [List.map_cons, List.forall_mem_cons]
      exact ⟨eventSchema_projectEvent hevent, ih⟩
  simp only [Schema.array]
  rw [if_pos ⟨by rw [List.length_map]; exact hmin, by rw [List.length_map]; exact hmax⟩, Option.isSome_map]
  exact mapM_isSome hevents

/-- The event-id pattern of the producer admits a command's event id. -/
theorem matchesEventId_command {producer digest : String} (h : isHexSha256 digest = true) :
    matchesEventId producer ("CMD:" ++ digest ++ "|" ++ producer ++ "|BATCH") = true := by
  have hsplit : ("CMD:" ++ digest ++ "|" ++ producer ++ "|BATCH").toList =
      ("CMD:".toList ++ digest.toList) ++ ("|" ++ producer ++ "|BATCH").toList := by
    simp [String.toList_append]
  have htake : ("CMD:".toList ++ digest.toList).take 4 = "CMD:".toList := rfl
  have hdrop : ("CMD:".toList ++ digest.toList).drop 4 = digest.toList := rfl
  unfold matchesEventId
  dsimp only
  rw [hsplit, List.length_append, Nat.add_sub_cancel, List.take_left' rfl, htake, hdrop,
    String.ofList_toList, h, decide_eq_true (List.suffix_append _ _)]
  simp

theorem length_units_le (s : String) :
    s.toList.length ≤ Utf16.length s ∧ Utf16.length s ≤ 2 * s.toList.length := by
  have hchar : ∀ c, 1 ≤ (Utf16.ofChar c).length ∧ (Utf16.ofChar c).length ≤ 2 := by
    intro c
    unfold Utf16.ofChar
    split_ifs <;> simp
  have hlist : ∀ cs : List Char, cs.length ≤ (cs.flatMap Utf16.ofChar).length ∧
      (cs.flatMap Utf16.ofChar).length ≤ 2 * cs.length := by
    intro cs
    induction cs with
    | nil => simp
    | cons c cs ih =>
      have h := hchar c
      rw [List.flatMap_cons, List.length_append, List.length_cons]
      omega
  exact hlist s.toList

/-- The batch of a command is one that the ledger accepts. -/
theorem batchSchema_commandBatch {P : Runtime} {pv asOf : String} {events parsed : List Json}
    (h : ParsedEvents channel events parsed) (hmin : 1 ≤ parsed.length) (hmax : parsed.length ≤ 128)
    (hpv : 1 ≤ Utf16.length pv) (hpv' : Utf16.length pv ≤ 512) (hasOf : 1 ≤ Utf16.length asOf)
    (hasOf' : Utf16.length asOf ≤ 128)
    (hsha : isHexSha256 (commandDigest P channel (parsed.map (projectEvent channel))) = true) :
    (INVESTMENT_LEDGER_BATCH_INPUT_SCHEMA
      (commandBatch P channel pv asOf (parsed.map (projectEvent channel)))).isSome = true := by
  have htext : ∀ {min max : ℕ} {s : String}, min ≤ Utf16.length s → Utf16.length s ≤ max →
      (boundedString min max (.str s)).isSome = true := by
    intro min max s hmin hmax
    simp [boundedString, Schema.text, hmin, hmax]
  have hid : 1 ≤ Utf16.length ("CMD:" ++ commandDigest P channel (parsed.map (projectEvent channel)) ++ "|" ++
        channel.producer ++ "|BATCH") ∧
      Utf16.length ("CMD:" ++ commandDigest P channel (parsed.map (projectEvent channel)) ++ "|" ++
        channel.producer ++ "|BATCH") ≤ 512 := by
    have hlen := length_units_le ("CMD:" ++
      commandDigest P channel (parsed.map (projectEvent channel)) ++ "|" ++ channel.producer ++ "|BATCH")
    have hproducer : channel.producer.toList.length ≤ 18 := by cases channel <;> decide
    have hdigest : (commandDigest P channel (parsed.map (projectEvent channel))).toList.length = 64 := by
      simp only [isHexSha256, Bool.and_eq_true, decide_eq_true_eq] at hsha
      exact hsha.2
    have hcmd : "CMD:".toList.length = 4 := rfl
    have hbar : "|".toList.length = 1 := rfl
    have hbatch : "|BATCH".toList.length = 6 := rfl
    simp only [String.toList_append, List.length_append] at hlen
    omega
  refine Schema.object_isSome ?_ ?_
  · have hnames : ∀ k ∈ ["schema_version", "portfolio_version", "event_id", "as_of", "events"],
        k ∈ INVESTMENT_LEDGER_BATCH_SHAPE.map Schema.Field.name := by
      decide
    intro g hg
    exact hnames g.1 (List.mem_map_of_mem (f := Prod.fst) hg)
  · intro f hf
    simp only [INVESTMENT_LEDGER_BATCH_SHAPE, List.mem_cons, List.not_mem_nil, or_false] at hf
    rcases hf with rfl | rfl | rfl | rfl | rfl
    · exact .inr ⟨_, rfl, by decide⟩
    · exact .inr ⟨_, rfl, htext hpv hpv'⟩
    · exact .inr ⟨_, rfl, htext hid.1 hid.2⟩
    · exact .inr ⟨_, rfl, htext hasOf hasOf'⟩
    · exact .inr ⟨_, rfl, array_events h hmin hmax⟩

end Batch

/-! ## The identity -/

theorem lookup_eq_some_iff_mem {fields : List (String × Json)} (hnodup : (fields.map Prod.fst).Nodup)
    (k : String) (x : Json) : fields.lookup k = some x ↔ (k, x) ∈ fields := by
  induction fields with
  | nil => simp
  | cons f fields ih =>
    obtain ⟨l, y⟩ := f
    obtain ⟨hl, hnodup⟩ := List.nodup_cons.1 hnodup
    by_cases hk : k = l
    · subst hk
      have hnot : (k, x) ∉ fields := fun hmem => hl (List.mem_map.2 ⟨_, hmem, rfl⟩)
      rw [List.lookup_cons_self, List.mem_cons, or_iff_left hnot]
      simp [eq_comm]
    · have hne : (k == l) = false := by simpa using hk
      rw [List.lookup_cons, hne, List.mem_cons, or_iff_right (by simp [hk])]
      exact ih hnodup

/-- Reordering the keys of an event leaves it alike. -/
theorem eventAlike_of_perm (channel : InvestmentCommandChannel) {fields fields' : List (String × Json)}
    (hnodup : (fields.map Prod.fst).Nodup) (h : fields.Perm fields') :
    EventAlike channel (.obj fields) (.obj fields') := by
  have hget : ∀ k, (Json.obj fields).get? k = (Json.obj fields').get? k := by
    intro k
    have hnodup' : (fields'.map Prod.fst).Nodup := (h.map Prod.fst).nodup_iff.1 hnodup
    show fields.lookup k = fields'.lookup k
    refine Option.ext fun x => ?_
    rw [lookup_eq_some_iff_mem hnodup, lookup_eq_some_iff_mem hnodup']
    exact h.mem_iff
  intro f _
  split_ifs
  · intro s
    rw [textsOf_congr (hget f.name)]
  · exact hget f.name

/-- **Command digest identity.** Of an accepted command: every accepted command of its channel that is alike
has its name and its event id; under an injective digest every accepted command with its name is of its
channel and has its projected events; and its batch is one that the ledger's schema and its role's event-id
pattern accept. -/
theorem commandIdentity (P : Runtime) (channel : InvestmentCommandChannel) (command : Json)
    (portfolioVersion : String) (prepared : PreparedCommand)
    (h : buildInvestmentCommandBatch P channel command portfolioVersion = .ok prepared) :
    (∀ command' portfolioVersion' prepared',
      buildInvestmentCommandBatch P channel command' portfolioVersion' = .ok prepared' →
      CommandAlike channel command command' →
        prepared.writeKey = prepared'.writeKey ∧
          prepared.batch.get? "event_id" = prepared'.batch.get? "event_id") ∧
    (Function.Injective P.sha256Hex → ∀ channel' command' portfolioVersion' prepared',
      buildInvestmentCommandBatch P channel' command' portfolioVersion' = .ok prepared' →
      prepared.writeKey = prepared'.writeKey →
        channel = channel' ∧ prepared.batch.get? "events" = prepared'.batch.get? "events") ∧
    (1 ≤ Utf16.length portfolioVersion → Utf16.length portfolioVersion ≤ 512 →
      (∀ text, isHexSha256 (P.sha256Hex text) = true) →
        (INVESTMENT_LEDGER_BATCH_INPUT_SCHEMA prepared.batch).isSome = true ∧
          matchesEventId channel.role.producer (textField prepared.batch "event_id") = true) := by
  refine ⟨fun command' pv' prepared' h' halike => writeKey_congr halike h h',
    fun hsha channel' command' pv' prepared' h' hkey => events_of_writeKey hsha h h' hkey, ?_⟩
  intro hpv hpv' hsha
  obtain ⟨asOf, events, parsed, -, hparsed, hmin, hmax, hasOf, hasOf', hbatch, -⟩ := build_ok h
  rw [hbatch, channel.producer_role]
  exact ⟨batchSchema_commandBatch hparsed hmin hmax hpv hpv' hasOf hasOf' (hsha _),
    matchesEventId_command (hsha _)⟩

/-! ## A command on two days -/

/-- A digest's text. -/
def zeros : String := String.ofList (List.replicate 64 '0')

/-- The clock of the retried command with another digest. -/
def digestRuntime (sha256Hex : String → String) : Runtime :=
  { retryRuntime with sha256Hex := sha256Hex }

def digestPrepared (sha256Hex : String → String) (asOf : String) : PreparedCommand where
  batch := commandBatch (digestRuntime sha256Hex) .INDUSTRY "pv-1" asOf retryEvents
  writeKey := "CMD:INDUSTRY:" ++ commandDigest (digestRuntime sha256Hex) .INDUSTRY retryEvents
  payloadSha256 := commandDigest (digestRuntime sha256Hex) .INDUSTRY retryEvents
  runId := none

theorem build_digestPrepared (sha256Hex : String → String) {asOf : String}
    (h : schemaForChannel retryRuntime .INDUSTRY (retryCommand asOf) =
      some (.obj [("as_of", .str asOf), ("events", .arr retryEvents)])) :
    buildInvestmentCommandBatch (digestRuntime sha256Hex) .INDUSTRY (retryCommand asOf) "pv-1" =
      .ok (digestPrepared sha256Hex asOf) := by
  have hparse : schemaForChannel (digestRuntime sha256Hex) .INDUSTRY (retryCommand asOf) =
      some (.obj [("as_of", .str asOf), ("events", .arr retryEvents)]) := by
    -- the schema looks at the clock alone
    simp only [schemaForChannel, investmentCommandSchema, AS_OF_SCHEMA] at h ⊢
    exact h
  have hparsed : ParsedEvents .INDUSTRY retryEvents retryEvents := .cons (by decide +kernel) .nil
  have hmap : retryEvents.map (projectEvent .INDUSTRY) = retryEvents := by decide +kernel
  have hproject := projectEvents_parsed (digestRuntime sha256Hex) hparsed
  rw [hmap] at hproject
  unfold buildInvestmentCommandBatch parseCommand
  rw [hparse]
  change projectEvents (digestRuntime sha256Hex) .INDUSTRY retryEvents >>= _ = _
  rw [hproject]
  rfl

theorem commandAlike_retryCommand (asOf asOf' : String) :
    CommandAlike .INDUSTRY (retryCommand asOf) (retryCommand asOf') := by
  refine ⟨[exampleEvent [("r_proposal", .str "R1")]], _, rfl, rfl,
    List.forall₂_same.2 fun event _ f _ => ?_⟩
  split_ifs
  · exact fun s => Iff.rfl
  · rfl

/-- One command on two days: one name, the same events under the text itself as digest, and a batch that the
ledger accepts under a digest of zeros. -/
theorem commandIdentity_retryCommand :
    ((digestPrepared id "2026-09-30T01:00:00.000Z").writeKey =
        (digestPrepared id "2026-10-01T01:00:00.000Z").writeKey ∧
      (digestPrepared id "2026-09-30T01:00:00.000Z").batch.get? "event_id" =
        (digestPrepared id "2026-10-01T01:00:00.000Z").batch.get? "event_id") ∧
    (InvestmentCommandChannel.INDUSTRY = .INDUSTRY ∧
      (digestPrepared id "2026-09-30T01:00:00.000Z").batch.get? "events" =
        (digestPrepared id "2026-10-01T01:00:00.000Z").batch.get? "events") ∧
    ((INVESTMENT_LEDGER_BATCH_INPUT_SCHEMA
        (digestPrepared (fun _ => zeros) "2026-09-30T01:00:00.000Z").batch).isSome = true ∧
      matchesEventId InvestmentCommandChannel.INDUSTRY.role.producer
        (textField (digestPrepared (fun _ => zeros) "2026-09-30T01:00:00.000Z").batch "event_id") =
          true) := by
  have hfirst := build_digestPrepared id parse_retryCommand.1
  have hsecond := build_digestPrepared id parse_retryCommand.2
  have hzeros := build_digestPrepared (fun _ => zeros) parse_retryCommand.1
  have hhex : isHexSha256 (zeros) = true := by decide
  exact ⟨(commandIdentity (digestRuntime id) .INDUSTRY _ "pv-1" _ hfirst).1 _ _ _ hsecond
      (commandAlike_retryCommand _ _),
    (commandIdentity (digestRuntime id) .INDUSTRY _ "pv-1" _ hfirst).2.1 Function.injective_id .INDUSTRY _ _ _
      hsecond rfl,
    (commandIdentity (digestRuntime fun _ => zeros) .INDUSTRY _ "pv-1" _
      hzeros).2.2 (by decide) (by decide) fun _ => hhex⟩

end QuantproCollector.StateGateway
