import QuantproCollector.Lib.JsonUnique
import QuantproCollector.StateGateway.Issued
import QuantproCollector.StateGateway.Slots

/-!
# The identities of an envelope

An envelope has its own key, the write key that its append reserves, and the payload hash under which
it is reserved. An investment envelope determines all three. A market envelope determines its write
key, but the hash also covers what the server resolves when the envelope is submitted and the stamp
that the key leaves out.
-/

namespace QuantproCollector.StateGateway

open Json Async

/-! ## Ledger identities -/

/-- What the server resolves for a submission at the time. -/
structure Resolved where
  context : OwnerContext
  state : MarketCheckpointState

/-- The write key of a reservation and the payload hash in its receipt. -/
structure LedgerIdentity where
  writeKey : String
  payloadSha256 : String
deriving DecidableEq

/-- What the append of a submission reserves. -/
def Submission.ledgerIdentity (P : Runtime) (r : Resolved) :
    Submission → Except Thrown LedgerIdentity
  | .investment channel payload => do
    let prepared ← buildInvestmentCommandBatch P channel (investmentCommand payload)
      r.context.portfolioVersion
    return ⟨prepared.writeKey, prepared.payloadSha256⟩
  | .market payload => do
    let parsed ← parseCommand P (MARKET_OBSERVATION_COMMAND_SCHEMA P)
      "MARKET_OBSERVATION_COMMAND_SCHEMA" (marketCommand payload) "MARKET observation"
    let validated ← validateStateBatch P .MARKET (marketBatch parsed r.context.portfolioVersion
      r.context.liveUniverseHash r.state)
    return ⟨validated.write_key, validated.payload_sha256⟩
  | _ => .error .raw

section Reservations

variable {P : Runtime} {ks : List (Call Op World Choice)}

/-- The call reserves a receipt only under the identities. -/
def ReservesOnly (I : StateWriteChannel → LedgerIdentity → Prop) (k : Call Op World Choice) : Prop :=
  ∀ key channel sha now, k.op = .insertReceipt key channel sha now → I channel ⟨key, sha⟩

variable {I : StateWriteChannel → LedgerIdentity → Prop}

theorem reservesOnly_of_not_reserves {k : Call Op World Choice} (h : k.op.reserves = false) :
    ReservesOnly I k := by
  intro key channel sha now hop
  rw [hop] at h
  cases h

theorem reservesOnly_of_issues {α : Type} {s : Program α} {r : Except Thrown α}
    (h : (machine P).Completes s ks r) (hs : s.Issues fun op => op.reserves = false) :
    ∀ k ∈ ks, ReservesOnly I k :=
  fun k hk => reservesOnly_of_not_reserves (h.issues hs k hk)

theorem reservesOnly_append {ks₁ ks₂ : List (Call Op World Choice)}
    (h₁ : ∀ k ∈ ks₁, ReservesOnly I k) (h₂ : ∀ k ∈ ks₂, ReservesOnly I k) :
    ∀ k ∈ ks₁ ++ ks₂, ReservesOnly I k := fun k hk =>
  (List.mem_append.1 hk).elim (h₁ k) (h₂ k)

/-- A program reserves what its first part does, and what the rest does with the part's answer. -/
theorem reservesOnly_bind {α β : Type} {s : Program α} {f : α → Program β} {r : Except Thrown β}
    (h : (machine P).Completes (s >>= f) ks r)
    (hs : ∀ ks r, (machine P).Completes s ks r → ∀ k ∈ ks, ReservesOnly I k)
    (hf : ∀ a ks₀ ks r, (machine P).Completes s ks₀ (.ok a) → (machine P).Completes (f a) ks r →
      ∀ k ∈ ks, ReservesOnly I k) : ∀ k ∈ ks, ReservesOnly I k := by
  rcases Machine.completes_bind.1 h with ⟨e, h, -⟩ | ⟨a, ks₁, ks₂, rfl, h₁, h₂⟩
  · exact hs ks _ h
  · exact reservesOnly_append (hs ks₁ _ h₁) (hf a ks₁ ks₂ r h₁ h₂)

theorem reservesOnly_tryCatch {α : Type} {s : Program α} {f : Thrown → Program α}
    {r : Except Thrown α} (h : (machine P).Completes (tryCatch s f) ks r)
    (hs : ∀ ks r, (machine P).Completes s ks r → ∀ k ∈ ks, ReservesOnly I k)
    (hf : ∀ e, (f e).Issues fun op => op.reserves = false) : ∀ k ∈ ks, ReservesOnly I k := by
  rcases Machine.completes_tryCatch.1 h with ⟨a, h, -⟩ | ⟨e, ks₁, ks₂, rfl, h₁, h₂⟩
  · exact hs ks _ h
  · exact reservesOnly_append (hs ks₁ _ h₁) (reservesOnly_of_issues h₂ (hf e))

theorem completes_validateAppend {input : StateAppendInput} {validated : ValidatedStateBatch}
    (h : (machine P).Completes (validateAppend P input) ks (.ok validated)) :
    validateStateBatch P input.channel input.batch = .ok validated := by
  rcases Machine.completes_bind.1 h with ⟨e, -, he⟩ | ⟨v, ks₁, ks₂, rfl, h₁, h₂⟩
  · cases he
  obtain ⟨-, hv⟩ := Machine.completes_halt.1 h₁
  obtain rfl : v = validated := by
    split at h₂
    · rcases Machine.completes_bind.1 h₂ with ⟨e, -, he⟩ | ⟨u, ks₃, ks₄, rfl, -, h₄⟩
      · cases he
      · exact (Except.ok.inj (Machine.completes_halt.1 h₄).2).symm
    · exact (Except.ok.inj (Machine.completes_halt.1 h₂).2).symm
  exact hv.symm

/-- An append reserves the given identity, or that of its valid batch. -/
theorem reservesOnly_appendStateBatch {input : StateAppendInput}
    {r : Except Thrown StateAppendResult}
    (h : (machine P).Completes (appendStateBatch P input) ks r)
    (hI : ∀ validated, validateStateBatch P input.channel input.batch = .ok validated →
      I input.channel ⟨input.writeKey.getD validated.write_key,
        input.payloadSha256.getD validated.payload_sha256⟩) :
    ∀ k ∈ ks, ReservesOnly I k := by
  refine reservesOnly_bind h (fun ks r h => reservesOnly_of_issues h ?_)
    fun requestId _ ks r _ h => reservesOnly_bind h (fun ks r h => reservesOnly_of_issues h ?_)
      fun now _ ks r _ h => reservesOnly_bind h (fun ks r h => reservesOnly_of_issues h ?_)
        fun validated ks₀ ks r hvalid h k hk => ?_
  · exact issues_givenOr (Script.issues_perform.2 rfl)
  · exact issues_givenOr (Script.issues_perform.2 rfl)
  · exact Script.Issues.tryCatch (issues_validateAppend (fun _ => rfl) _) fun _ => trivial
  · have hok : validateStateBatch P input.channel input.batch = .ok validated := by
      rcases Machine.completes_tryCatch.1 hvalid with ⟨a, hv, ha⟩ | ⟨e, ks₁, ks₂, -, -, he⟩
      · cases ha
        exact completes_validateAppend hv
      · cases (Machine.completes_halt.1 he).2
    have hother : ∀ op : Op, op.onRuns = false → op.reserves = false → ∀ key channel sha now,
        op = .insertReceipt key channel sha now → I channel ⟨key, sha⟩ := by
      rintro op - hop key channel sha now rfl
      cases hop
    refine h.issues (S := fun op => ∀ key channel sha now,
      op = .insertReceipt key channel sha now → I channel ⟨key, sha⟩) ?_ k hk
    refine (issues_reserveStateWrite _ _ _ _ _ ?_ (hother _ rfl rfl)
      fun _ => hother _ rfl rfl).bind fun _ =>
      issues_continueReserved hother _ _ _ _ _ _
    rintro key channel sha now' hop
    obtain ⟨rfl, rfl, rfl, -⟩ := Op.insertReceipt.inj hop
    exact hI validated hok

/-- A built batch links a parsed observation to some state of the ledger. -/
theorem completes_buildMarketObservationBatch {token pv luh : String} {command batch : Json}
    {runId : Option String}
    (h : (machine P).Completes (buildMarketObservationBatch P token command pv luh) ks
      (.ok (batch, runId))) :
    ∃ parsed state, parseCommand P (MARKET_OBSERVATION_COMMAND_SCHEMA P)
      "MARKET_OBSERVATION_COMMAND_SCHEMA" command "MARKET observation" = .ok parsed ∧
        batch = marketBatch parsed pv luh state := by
  rcases Machine.completes_bind.1 h with ⟨e, -, he⟩ | ⟨parsed, ks₁, ks₂, rfl, h₁, h₂⟩
  · cases he
  obtain ⟨-, hparsed⟩ := Machine.completes_halt.1 h₁
  rcases Machine.completes_bind.1 h₂ with ⟨e, -, he⟩ | ⟨state, ks₃, ks₄, rfl, -, h₄⟩
  · cases he
  refine ⟨parsed, state, hparsed.symm, ?_⟩
  split at h₄
  · cases (Machine.completes_halt.1 h₄).2
  · exact (Prod.mk.inj (Except.ok.inj (Machine.completes_halt.1 h₄).2)).1

theorem reservesOnly_executeAppend {input : EnvelopeInput} {eventCount : Option ℕ}
    {append : OwnerContext → Program CommandAppendResult} {o : Except Thrown LedgerOutcome}
    (h : (machine P).Completes (executeAppend input eventCount append) ks o)
    (happ : ∀ context ks r, (machine P).Completes (append context) ks r →
      ∀ k ∈ ks, ReservesOnly I k) : ∀ k ∈ ks, ReservesOnly I k := by
  refine reservesOnly_tryCatch h (fun ks r h => ?_) fun _ => trivial
  split at h
  · exact reservesOnly_of_issues h trivial
  refine reservesOnly_bind h (fun ks r h => reservesOnly_of_issues h (Script.issues_perform.2 rfl))
    fun context _ ks r _ h => reservesOnly_tryCatch h (fun ks r h => ?_) fun _ => trivial
  exact reservesOnly_bind (f := fun a => pure (LedgerOutcome.executed a)) h (happ context)
    fun _ _ _ _ _ h => reservesOnly_of_issues h trivial

/-- **What an envelope reserves is a ledger identity of it**, under whatever the server resolved. -/
theorem reservesOnly_execute {input : EnvelopeInput} {requestId envelopeKey : String}
    {s : Submission} {o : Except Thrown LedgerOutcome}
    (h : (machine P).Completes (execute P input requestId envelopeKey s) ks o) :
    ∀ k ∈ ks, ReservesOnly (fun channel i => s.channel = some channel ∧
      ∃ r, s.ledgerIdentity P r = .ok i) k := by
  have hbuild : ∀ (token : String) (command : Json) (pv luh : String),
      (buildMarketObservationBatch P token command pv luh).Issues fun op => op.reserves = false :=
    fun _ _ _ _ => issues_buildMarketObservationBatch (fun _ => rfl) _ _ _ _
  cases s with
  | blocked code => exact reservesOnly_of_issues h trivial
  | observation n => exact reservesOnly_of_issues h trivial
  | heartbeat => exact reservesOnly_of_issues h trivial
  | market payload =>
    refine reservesOnly_executeAppend h fun context ks r h => ?_
    refine reservesOnly_bind h (fun ks r h => reservesOnly_of_issues h (hbuild _ _ _ _)) ?_
    rintro ⟨batch, runId⟩ ks₀ ks r hbatch h
    obtain ⟨parsed, state, hparsed, rfl⟩ := completes_buildMarketObservationBatch hbatch
    refine reservesOnly_bind h (fun ks r h => reservesOnly_appendStateBatch h fun v hv => ?_)
      fun _ _ _ _ _ h => reservesOnly_of_issues h trivial
    refine ⟨rfl, ⟨context, state⟩, ?_⟩
    simp only [Submission.ledgerIdentity, hparsed]
    change (validateStateBatch P .MARKET _ >>= fun validated => _) = _
    rw [show validateStateBatch P .MARKET (marketBatch parsed context.portfolioVersion
      context.liveUniverseHash state) = .ok v from hv]
    rfl
  | investment channel payload =>
    refine reservesOnly_executeAppend h fun context ks r h => ?_
    refine reservesOnly_bind h (fun ks r h => reservesOnly_of_issues h trivial)
      fun prepared ks₀ ks r hprepared h => ?_
    obtain ⟨-, hprepared⟩ := Machine.completes_halt.1 hprepared
    refine reservesOnly_bind h (fun ks r h => reservesOnly_appendStateBatch h fun v hv => ?_)
      fun _ _ _ _ _ h => reservesOnly_of_issues h trivial
    refine ⟨rfl, ⟨context, ⟨false, none, none, none, none⟩⟩, ?_⟩
    simp only [Submission.ledgerIdentity, ← hprepared]
    rfl

end Reservations

/-! ## Investment identities -/

section Investment

variable {P : Runtime} {channel : InvestmentCommandChannel} {payload : Json} {r : Resolved}
  {received key : String} {i : LedgerIdentity}

/-- The envelope key and the ledger identity of an investment payload hold the same digest. -/
theorem investment_identity
    (hkey : (Submission.investment channel payload).envelopeKey P received = .ok key)
    (hi : (Submission.investment channel payload).ledgerIdentity P r = .ok i) :
    key = "E:" ++ channel.channel.name ++ ":" ++ i.payloadSha256 ∧
      i.writeKey = "CMD:" ++ channel.channel.name ++ ":" ++ i.payloadSha256 := by
  simp only [Submission.envelopeKey, Submission.ledgerIdentity, buildInvestmentCommandBatch]
    at hkey hi
  cases hparse : parseCommand P (schemaForChannel P channel)
      (channel.channel.name ++ "_COMMAND_SCHEMA") (Submission.investmentCommand payload)
      channel.channel.name with
  | error t =>
    rw [hparse] at hi
    cases hi
  | ok parsed =>
    rw [hparse] at hkey hi
    cases hevents : projectEvents P channel (batchEvents parsed) with
    | error t =>
      change (projectEvents P channel (batchEvents parsed) >>= _) >>= _ = _ at hi
      rw [hevents] at hi
      cases hi
    | ok events =>
      change (projectEvents P channel (batchEvents parsed) >>= _) >>= _ = _ at hi hkey
      rw [hevents] at hi hkey
      obtain rfl := Except.ok.inj hi
      obtain rfl := Except.ok.inj hkey
      exact ⟨rfl, rfl⟩

end Investment

/-! ## Market identities -/

/-- The checkpoint of an observation's fields, linked to the state of the ledger. -/
def slotBatch (date asOf slot ref : String) (records : Json) (r : Resolved) : Json :=
  .obj [("schema_version",
      .str (if slot = "09:10" then "premarket_plan_batch_v1" else "market_observation_batch_v1")),
    ("prompt_id", .str HOLDING_ASSISTANT),
    ("production_ref", .str ref),
    ("portfolio_version", .str r.context.portfolioVersion),
    ("event_id", .str (marketEventId date slot)),
    ("idempotency_key", .str (slotKey date slot)),
    ("trading_date", .str date),
    ("as_of", .str asOf),
    ("scheduled_slot", .str slot),
    ("producer", .str HOLDING_ASSISTANT),
    ("observation_type", .str (marketObservationType slot)),
    ("previous_checkpoint_comment_id",
      if slot = "09:10" then .null else linkOf r.state.previousCheckpoint),
    ("preopen_comment_id", if slot = "09:10" then .null else linkOf r.state.preopen),
    ("live_universe_hash", .str r.context.liveUniverseHash),
    ("source_task", .str "持仓助手"),
    ("records", records)]

/-- The fields of a market payload, which its observation keeps. -/
structure MarketFields (payload parsed : Json) (date asOf slot ref : String) (records : Json) :
    Prop where
  identity : Submission.marketIdentity payload =
    .obj [("trading_date", .str date), ("scheduled_slot", .str slot), ("production_ref", .str ref),
      ("records", records)]
  stamp : textField payload "as_of" = asOf
  slot_eq : textField payload "scheduled_slot" = slot
  batch (r : Resolved) : marketBatch parsed r.context.portfolioVersion r.context.liveUniverseHash
    r.state = slotBatch date asOf slot ref records r

section Market

variable {P : Runtime} {payload parsed : Json}

theorem exists_str_of_text {ok : String → Bool} {x y : Json} (h : Schema.text ok x = some y) :
    ∃ s, x = .str s := by
  cases x with
  | str s => exact ⟨s, rfl⟩
  | _ => cases h

theorem marketFields_of_parsed {name label : String}
    (h : parseCommand P (MARKET_OBSERVATION_COMMAND_SCHEMA P) name
      (Submission.marketCommand payload) label = .ok parsed) :
    ∃ date asOf slot ref records, MarketFields payload parsed date asOf slot ref records := by
  have hparsed : MARKET_OBSERVATION_COMMAND_SCHEMA P (Submission.marketCommand payload) =
      some parsed := by
    unfold parseCommand at h
    split at h
    · rename_i v hv
      rw [hv, Except.ok.inj h]
    · cases h
  have hnodup : ["trading_date", "as_of", "scheduled_slot", "production_ref", "records",
      "run_id"].Nodup := by decide
  have hfield : ∀ (k : String) (s : Schema) {x : Json},
      (Submission.marketCommand payload).get? k = some x → s.Exact →
      (⟨k, true, s⟩ : Schema.Field) ∈ [⟨"trading_date", true, .text isTradingDate⟩,
        ⟨"as_of", true, AS_OF_SCHEMA P⟩,
        ⟨"scheduled_slot", true, MARKET_LEDGER_SLOT_SCHEMA⟩,
        ⟨"production_ref", true, .text isProductionRef⟩,
        ⟨"records", true, .array CHECKPOINT_RECORD_SCHEMA 0 512⟩,
        ⟨"run_id", false, RUN_ID_SCHEMA⟩] → parsed.get? k = some x ∧ s x = some x := by
    intro k s x hx hs hmem
    have hkept : ∃ y, parsed.get? k = some y ∧
        (Submission.marketCommand payload).get? k = some y ∧ s y = some y := by
      refine Schema.get?_of_exact ?_ hparsed hmem hs rfl
      exact hnodup
    obtain ⟨y, hy, hy', hsy⟩ := hkept
    obtain rfl : x = y := Option.some.inj (hx.symm.trans hy')
    exact ⟨hy, hsy⟩
  obtain ⟨hdate, hdate'⟩ := hfield "trading_date" (.text isTradingDate) rfl
    (Schema.exact_text _) (by simp)
  obtain ⟨hasOf, hasOf'⟩ := hfield "as_of" (AS_OF_SCHEMA P) rfl
    (Schema.exact_text _) (by simp)
  obtain ⟨hslot, hslot'⟩ := hfield "scheduled_slot" MARKET_LEDGER_SLOT_SCHEMA rfl
    (Schema.exact_text _) (by simp)
  obtain ⟨href, href'⟩ := hfield "production_ref" (.text isProductionRef) rfl
    (Schema.exact_text _) (by simp)
  obtain ⟨hrecords, -⟩ := hfield "records" (.array CHECKPOINT_RECORD_SCHEMA 0 512) rfl
    (Schema.exact_array (Schema.exact_record _) _ _) (by simp)
  obtain ⟨date, hd⟩ := exists_str_of_text hdate'
  obtain ⟨asOf, ha⟩ := exists_str_of_text hasOf'
  obtain ⟨slot, hs⟩ := exists_str_of_text hslot'
  obtain ⟨ref, hr⟩ := exists_str_of_text href'
  rw [hd] at hdate
  rw [ha] at hasOf
  rw [hs] at hslot
  rw [hr] at href
  have htext : ∀ {k s}, (payload.get? k).getD .null = .str s → textField payload k = s := by
    intro k s h
    cases hget : payload.get? k with
    | none => simp [hget] at h
    | some x =>
      rw [hget, Option.getD_some] at h
      rw [textField, hget, h]
      rfl
  refine ⟨date, asOf, slot, ref, (payload.get? "records").getD .null, ?_, htext ha, htext hs,
    fun r => ?_⟩
  · simp only [Submission.marketIdentity, requiredField, hd, hs, hr]
  · simp only [marketBatch, slotBatch, textField, requiredField, hdate, hslot, hasOf, href, hrecords,
      Option.bind_some, str?, Option.getD_some, decide_eq_true_eq]

theorem exact_checkpointSchema : ∀ f ∈ MARKET_CHECKPOINT_BASE_SHAPE, f.schema.Exact := by
  intro f hf
  simp only [MARKET_CHECKPOINT_BASE_SHAPE, List.mem_cons, List.not_mem_nil, or_false] at hf
  rcases hf with rfl | rfl | rfl | rfl | rfl | rfl | rfl | rfl | rfl | rfl | rfl | rfl | rfl |
    rfl | rfl | rfl
  all_goals first
    | exact Schema.exact_text _
    | exact Schema.exact_orNull (Schema.exact_text _)
    | exact Schema.exact_array (Schema.exact_record _) _ _

/-- A checkpoint is validated as it is: its slot is its write key, its whole text is hashed. -/
theorem validate_slotBatch {date asOf slot ref : String} {records : Json} {r : Resolved}
    {v : ValidatedStateBatch}
    (h : validateStateBatch P .MARKET (slotBatch date asOf slot ref records r) = .ok v) :
    v.write_key = slotKey date slot ∧
      v.payload_sha256 = P.sha256Hex (slotBatch date asOf slot ref records r).rebuiltText := by
  change validateMarketBatch P _ = _ at h
  unfold validateMarketBatch at h
  split at h
  · cases h
  · rename_i data hdata
    have hsame : data = slotBatch date asOf slot ref records r := by
      refine Schema.object_exact ?_ exact_checkpointSchema ?_ hdata
      · show ["schema_version", "prompt_id", "production_ref", "portfolio_version", "event_id",
          "idempotency_key", "trading_date", "as_of", "scheduled_slot", "producer",
          "observation_type", "previous_checkpoint_comment_id", "preopen_comment_id",
          "live_universe_hash", "source_task", "records"].Nodup
        decide
      · rfl
    split at h
    · cases h
    · cases h
    · split_ifs at h
      obtain rfl := Except.ok.inj h
      rw [hsame]
      exact ⟨rfl, rfl⟩

/-- The links of a checkpoint to the state of the ledger. -/
def SameLinks (slot : String) (r r' : Resolved) : Prop :=
  slot ≠ "09:10" → linkOf r.state.previousCheckpoint = linkOf r'.state.previousCheckpoint ∧
    linkOf r.state.preopen = linkOf r'.state.preopen

theorem rebuiltText_linkOf {c c' : Option LedgerComment} :
    (linkOf c).rebuiltText = (linkOf c').rebuiltText ↔ linkOf c = linkOf c' := by
  refine ⟨fun h => ?_, fun h => by rw [h]⟩
  cases c with
  | none =>
    cases c' with
    | none => rfl
    | some c' => exact absurd h rebuiltText_null_str
  | some c =>
    cases c' with
    | none => exact absurd h.symm rebuiltText_null_str
    | some c' => exact congrArg Json.str (rebuiltText_str.1 h)

/-- Checkpoints of one slot have one text where their stamps, contexts, links and records agree. -/
theorem rebuiltText_slotBatch {date asOf asOf' slot ref : String} {records records' : Json}
    {r r' : Resolved} :
    (slotBatch date asOf slot ref records r).rebuiltText =
        (slotBatch date asOf' slot ref records' r').rebuiltText ↔
      asOf = asOf' ∧ r.context = r'.context ∧ SameLinks slot r r' ∧
        records.rebuiltText = records'.rebuiltText := by
  let pairs : List (String × Json × Json) := [("schema_version",
      .str (if slot = "09:10" then "premarket_plan_batch_v1" else "market_observation_batch_v1"),
      .str (if slot = "09:10" then "premarket_plan_batch_v1" else "market_observation_batch_v1")),
    ("prompt_id", .str HOLDING_ASSISTANT, .str HOLDING_ASSISTANT),
    ("production_ref", .str ref, .str ref),
    ("portfolio_version", .str r.context.portfolioVersion, .str r'.context.portfolioVersion),
    ("event_id", .str (marketEventId date slot), .str (marketEventId date slot)),
    ("idempotency_key", .str (slotKey date slot), .str (slotKey date slot)),
    ("trading_date", .str date, .str date),
    ("as_of", .str asOf, .str asOf'),
    ("scheduled_slot", .str slot, .str slot),
    ("producer", .str HOLDING_ASSISTANT, .str HOLDING_ASSISTANT),
    ("observation_type", .str (marketObservationType slot), .str (marketObservationType slot)),
    ("previous_checkpoint_comment_id",
      if slot = "09:10" then .null else linkOf r.state.previousCheckpoint,
      if slot = "09:10" then .null else linkOf r'.state.previousCheckpoint),
    ("preopen_comment_id", if slot = "09:10" then .null else linkOf r.state.preopen,
      if slot = "09:10" then .null else linkOf r'.state.preopen),
    ("live_universe_hash", .str r.context.liveUniverseHash, .str r'.context.liveUniverseHash),
    ("source_task", .str "持仓助手", .str "持仓助手"),
    ("records", records, records')]
  have hpaired := rebuiltText_paired pairs
  change (slotBatch date asOf slot ref records r).rebuiltText =
    (slotBatch date asOf' slot ref records' r').rebuiltText ↔ _ at hpaired
  rw [hpaired]
  have hcontext : r.context = r'.context ↔
      r.context.portfolioVersion = r'.context.portfolioVersion ∧
        r.context.liveUniverseHash = r'.context.liveUniverseHash := by
    rw [OwnerContext.mk.injEq]
  have hlinks : SameLinks slot r r' ↔
      ((if slot = "09:10" then Json.null else linkOf r.state.previousCheckpoint).rebuiltText =
        (if slot = "09:10" then Json.null else linkOf r'.state.previousCheckpoint).rebuiltText ∧
      (if slot = "09:10" then Json.null else linkOf r.state.preopen).rebuiltText =
        (if slot = "09:10" then Json.null else linkOf r'.state.preopen).rebuiltText) := by
    unfold SameLinks
    by_cases hslot : slot = "09:10"
    · simp [hslot]
    · simp only [if_neg hslot, rebuiltText_linkOf]
      exact ⟨fun h => h hslot, fun h _ => h⟩
  rw [hcontext, hlinks]
  simp only [pairs, List.forall_mem_cons, rebuiltText_str, true_and]
  constructor
  · rintro ⟨hpv, hasOf, hprevious, hpreopen, hluh, hrecords, -⟩
    exact ⟨hasOf, ⟨hpv, hluh⟩, ⟨hprevious, hpreopen⟩, hrecords⟩
  · rintro ⟨hasOf, ⟨hpv, hluh⟩, ⟨hprevious, hpreopen⟩, hrecords⟩
    exact ⟨hpv, hasOf, hprevious, hpreopen, hluh, hrecords, by simp⟩

/-- The ledger identity of a market payload. -/
theorem market_identity {r : Resolved} {i : LedgerIdentity}
    (hi : (Submission.market payload).ledgerIdentity P r = .ok i) :
    ∃ parsed date asOf slot ref records, MarketFields payload parsed date asOf slot ref records ∧
      i = ⟨slotKey date slot, P.sha256Hex (slotBatch date asOf slot ref records r).rebuiltText⟩ := by
  simp only [Submission.ledgerIdentity] at hi
  cases hparse : parseCommand P (MARKET_OBSERVATION_COMMAND_SCHEMA P)
      "MARKET_OBSERVATION_COMMAND_SCHEMA" (Submission.marketCommand payload)
      "MARKET observation" with
  | error t =>
    rw [hparse] at hi
    cases hi
  | ok parsed =>
    obtain ⟨date, asOf, slot, ref, records, hfields⟩ := marketFields_of_parsed hparse
    rw [hparse] at hi
    change (validateStateBatch P .MARKET _ >>= _) = _ at hi
    rw [hfields.batch r] at hi
    cases hvalid : validateStateBatch P .MARKET (slotBatch date asOf slot ref records r) with
    | error t =>
      rw [hvalid] at hi
      cases hi
    | ok v =>
      rw [hvalid] at hi
      obtain rfl := Except.ok.inj hi
      obtain ⟨hkey, hsha⟩ := validate_slotBatch hvalid
      exact ⟨parsed, date, asOf, slot, ref, records, hfields, by rw [hkey, hsha]⟩

/-- Market envelopes of one key are of one slot, and their records have one text. -/
theorem market_envelopeKey (hsha : Function.Injective P.sha256Hex)
    {payload' parsed' : Json} {date date' asOf asOf' slot slot' ref ref' : String}
    {records records' : Json} {received received' key : String}
    (hfields : MarketFields payload parsed date asOf slot ref records)
    (hfields' : MarketFields payload' parsed' date' asOf' slot' ref' records')
    (hkey : (Submission.market payload).envelopeKey P received = .ok key)
    (hkey' : (Submission.market payload').envelopeKey P received' = .ok key) :
    date = date' ∧ slot = slot' ∧ ref = ref' ∧ records.rebuiltText = records'.rebuiltText := by
  have hdigest : sha256HexOf P (Submission.marketIdentity payload) =
      sha256HexOf P (Submission.marketIdentity payload') := by
    have h : "E:MARKET:" ++ sha256HexOf P (Submission.marketIdentity payload) =
        "E:MARKET:" ++ sha256HexOf P (Submission.marketIdentity payload') :=
      Except.ok.inj (hkey.trans hkey'.symm)
    simpa using h
  have htext := hsha hdigest
  rw [hfields.identity, hfields'.identity] at htext
  have hpaired := rebuiltText_paired [("trading_date", .str date, .str date'),
    ("scheduled_slot", .str slot, .str slot'), ("production_ref", .str ref, .str ref'),
    ("records", records, records')]
  have hall := hpaired.1 htext
  simp only [List.forall_mem_cons, rebuiltText_str] at hall
  exact ⟨hall.1, hall.2.1, hall.2.2.1, hall.2.2.2.1⟩

end Market

/-! ## Refinement -/

/-- The slot of a market submission. -/
def Submission.slot : Submission → String
  | .market payload => textField payload "scheduled_slot"
  | _ => ""

/-- Two submissions carry one stamp and were resolved alike: under one context, and with the same
links to the ledger where the slot has any. -/
structure SameResolution (s s' : Submission) (r r' : Resolved) : Prop where
  asOf : s.asOf = s'.asOf
  context : r.context = r'.context
  links : SameLinks s.slot r r'

/-- **An envelope's key determines its write key, and its payload hash for investment channels.** Two
market envelopes of one key reserve one payload hash exactly where they carry one stamp and were
resolved alike. -/
theorem identity_refines_iff {P : Runtime} (hsha : Function.Injective P.sha256Hex)
    {s s' : Submission} {r r' : Resolved} {received received' key : String}
    {i i' : LedgerIdentity} (hchannel : s.channel = s'.channel)
    (hkey : s.envelopeKey P received = .ok key) (hkey' : s'.envelopeKey P received' = .ok key)
    (hi : s.ledgerIdentity P r = .ok i) (hi' : s'.ledgerIdentity P r' = .ok i') :
    i.writeKey = i'.writeKey ∧
      (i = i' ↔ (s.channel = some .MARKET → SameResolution s s' r r')) := by
  cases s with
  | blocked code => cases hi
  | observation n => cases hi
  | heartbeat => cases hi
  | market payload =>
    cases s' with
    | blocked code => cases hi'
    | observation n => cases hi'
    | heartbeat => cases hi'
    | investment channel payload' => cases channel <;> cases hchannel
    | market payload' =>
      obtain ⟨parsed, date, asOf, slot, ref, records, hfields, rfl⟩ := market_identity hi
      obtain ⟨parsed', date', asOf', slot', ref', records', hfields', rfl⟩ := market_identity hi'
      obtain ⟨rfl, rfl, rfl, hrecords⟩ := market_envelopeKey hsha hfields hfields' hkey hkey'
      refine ⟨rfl, ?_⟩
      rw [LedgerIdentity.mk.injEq, hsha.eq_iff, rebuiltText_slotBatch]
      constructor
      · rintro ⟨-, hasOf, hcontext, hlinks, -⟩ -
        refine ⟨?_, hcontext, ?_⟩
        · simp only [Submission.asOf, Submission.payload?, Option.map_some, hfields.stamp,
            hfields'.stamp, hasOf]
        · rwa [Submission.slot, hfields.slot_eq]
      · intro hsame
        obtain ⟨hasOf, hcontext, hlinks⟩ := hsame rfl
        rw [Submission.slot, hfields.slot_eq] at hlinks
        simp only [Submission.asOf, Submission.payload?, Option.map_some, hfields.stamp,
          hfields'.stamp, Option.some.injEq] at hasOf
        exact ⟨rfl, hasOf, hcontext, hlinks, hrecords⟩
  | investment channel payload =>
    cases s' with
    | blocked code => cases hi'
    | observation n => cases hi'
    | heartbeat => cases hi'
    | market payload' => cases channel <;> cases hchannel
    | investment channel' payload' =>
      obtain rfl : channel = channel' := by
        cases channel <;> cases channel' <;> first | rfl | cases hchannel
      obtain ⟨hdigest, hwrite⟩ := investment_identity hkey hi
      obtain ⟨hdigest', hwrite'⟩ := investment_identity hkey' hi'
      have hsame : i.payloadSha256 = i'.payloadSha256 := by
        have h := hdigest.symm.trans hdigest'
        simpa using h
      have hwrites : i.writeKey = i'.writeKey := by rw [hwrite, hwrite', hsame]
      refine ⟨hwrites, fun _ hmarket => ?_, fun _ => ?_⟩
      · cases channel <;> cases hmarket
      · cases i
        cases i'
        exact LedgerIdentity.mk.injEq .. ▸ ⟨hwrites, hsame⟩

/-! ## A retry under another portfolio version -/

/-- The 09:50 observation of a day. -/
def slotObservation : Json :=
  .obj [("channel", .str "MARKET"), ("trading_date", .str "2026-09-30"),
    ("as_of", .str "2026-09-30T01:50:00.000Z"), ("scheduled_slot", .str "09:50"),
    ("production_ref", .str "0123456789abcdef0123456789abcdef01234567"), ("records", .arr [])]

/-- An empty ledger, and a portfolio version. -/
def resolvedUnder (portfolioVersion : String) : Resolved :=
  ⟨⟨portfolioVersion, "u1"⟩, ⟨false, none, none, none, none⟩⟩

def slotIdentity (portfolioVersion : String) : LedgerIdentity where
  writeKey := slotKey "2026-09-30" "09:50"
  payloadSha256 := (slotBatch "2026-09-30" "2026-09-30T01:50:00.000Z" "09:50"
    "0123456789abcdef0123456789abcdef01234567" (.arr []) (resolvedUnder portfolioVersion)).rebuiltText

def slotEnvelopeKey : String :=
  "E:MARKET:" ++ (Submission.marketIdentity slotObservation).rebuiltText

theorem isTradingDate_example : isTradingDate "2026-09-30" = true := by
  decide

theorem isProductionRef_example :
    isProductionRef "0123456789abcdef0123456789abcdef01234567" = true := by
  decide

theorem length_stamp : Utf16.length "2026-09-30T01:50:00.000Z" = 24 := by
  decide

/-- The command of the observation is parsed to itself. -/
theorem parse_slotObservation :
    MARKET_OBSERVATION_COMMAND_SCHEMA slotRuntime (Submission.marketCommand slotObservation) =
      some (Submission.marketCommand slotObservation) := by
  have htime : (slotRuntime.dateParse "2026-09-30T01:50:00.000Z").isSome = true := by decide
  simp [MARKET_OBSERVATION_COMMAND_SCHEMA, Schema.object, Schema.parseFields, Submission.marketCommand,
    slotObservation, requiredField, Json.get?, List.lookup_cons, Schema.text, Schema.oneOf, Schema.array,
    AS_OF_SCHEMA, MARKET_LEDGER_SLOT_SCHEMA, MARKET_LEDGER_SLOTS, isTradingDate_example,
    isProductionRef_example, length_stamp, htime]

/-- The checkpoint of the observation is parsed to itself. -/
theorem parse_slotBatch {portfolioVersion : String} (h : 1 ≤ Utf16.length portfolioVersion)
    (h' : Utf16.length portfolioVersion ≤ 512) :
    MARKET_CHECKPOINT_INPUT_SCHEMA (slotBatch "2026-09-30" "2026-09-30T01:50:00.000Z" "09:50"
        "0123456789abcdef0123456789abcdef01234567" (.arr []) (resolvedUnder portfolioVersion)) =
      some (slotBatch "2026-09-30" "2026-09-30T01:50:00.000Z" "09:50"
        "0123456789abcdef0123456789abcdef01234567" (.arr []) (resolvedUnder portfolioVersion)) := by
  have hevent : Utf16.length (marketEventId "2026-09-30" "09:50") = 42 := by decide
  have hkey : Utf16.length (slotKey "2026-09-30" "09:50") = 34 := by decide
  have hhash : Utf16.length "u1" = 2 := by decide
  have htask : Utf16.length "持仓助手" = 4 := by decide
  simp [MARKET_CHECKPOINT_INPUT_SCHEMA, MARKET_CHECKPOINT_BASE_SHAPE, slotBatch, resolvedUnder,
    linkOf, Schema.object, Schema.parseFields, Json.get?, List.lookup_cons, Schema.oneOf, Schema.text,
    Schema.orNull, Schema.array, boundedString, HOLDING_ASSISTANT, MARKET_LEDGER_SLOT_SCHEMA,
    MARKET_LEDGER_SLOTS, marketObservationType, isTradingDate_example, isProductionRef_example,
    length_stamp, h, h', hevent, hkey, hhash, htask]

theorem ledgerIdentity_slotObservation {portfolioVersion : String}
    (h : 1 ≤ Utf16.length portfolioVersion) (h' : Utf16.length portfolioVersion ≤ 512) :
    (Submission.market slotObservation).ledgerIdentity slotRuntime (resolvedUnder portfolioVersion) =
      .ok (slotIdentity portfolioVersion) := by
  have hparse : parseCommand slotRuntime (MARKET_OBSERVATION_COMMAND_SCHEMA slotRuntime)
      "MARKET_OBSERVATION_COMMAND_SCHEMA" (Submission.marketCommand slotObservation)
      "MARKET observation" = .ok (Submission.marketCommand slotObservation) := by
    rw [parseCommand, parse_slotObservation]
  have hbatch : marketBatch (Submission.marketCommand slotObservation)
      (resolvedUnder portfolioVersion).context.portfolioVersion
      (resolvedUnder portfolioVersion).context.liveUniverseHash
      (resolvedUnder portfolioVersion).state =
      slotBatch "2026-09-30" "2026-09-30T01:50:00.000Z" "09:50"
        "0123456789abcdef0123456789abcdef01234567" (.arr []) (resolvedUnder portfolioVersion) := by
    simp [marketBatch, slotBatch, Submission.marketCommand, slotObservation, requiredField, textField,
      Json.get?, List.lookup_cons, Json.str?]
  have hvalid : validateStateBatch slotRuntime .MARKET
      (slotBatch "2026-09-30" "2026-09-30T01:50:00.000Z" "09:50"
        "0123456789abcdef0123456789abcdef01234567" (.arr []) (resolvedUnder portfolioVersion)) =
      .ok ⟨slotKey "2026-09-30" "09:50", (slotIdentity portfolioVersion).payloadSha256,
        "market_observation_batch_v1", slotBatch "2026-09-30" "2026-09-30T01:50:00.000Z" "09:50"
        "0123456789abcdef0123456789abcdef01234567" (.arr []) (resolvedUnder portfolioVersion)⟩ := by
    have htime : (slotRuntime.dateParse "2026-09-30T01:50:00.000Z").isSome = true := by
      decide
    have hrelations : validateCheckpointRelations slotRuntime
        (slotBatch "2026-09-30" "2026-09-30T01:50:00.000Z" "09:50"
          "0123456789abcdef0123456789abcdef01234567" (.arr [])
          (resolvedUnder portfolioVersion)) = .ok () := by
      simp [validateCheckpointRelations, slotBatch, textField, Json.get?, List.lookup_cons, Json.str?,
        marketObservationType, Option.isSome_iff_ne_none.1 htime]
    change validateMarketBatch slotRuntime _ = _
    simp only [validateMarketBatch, parse_slotBatch h h', hrelations]
    simp [slotBatch, textField, Json.get?, List.lookup_cons, Json.str?, slotIdentity, sha256HexOf,
      slotRuntime]
  simp only [Submission.ledgerIdentity, hparse]
  change (validateStateBatch slotRuntime .MARKET _ >>= _) = _
  rw [hbatch, hvalid]
  rfl

/-- **A retry is refused by its own first attempt.** The same market envelope, submitted again after
the portfolio version has changed, has the same envelope key and write key and another payload hash,
so the receipt that the first submission reserved answers the second one with a conflict. -/
theorem retry_conflicts :
    Function.Injective slotRuntime.sha256Hex ∧
      (Submission.market slotObservation).envelopeKey slotRuntime "" = .ok slotEnvelopeKey ∧
      (Submission.market slotObservation).ledgerIdentity slotRuntime (resolvedUnder "p1") =
        .ok (slotIdentity "p1") ∧
      (Submission.market slotObservation).ledgerIdentity slotRuntime (resolvedUnder "p2") =
        .ok (slotIdentity "p2") ∧
      (slotIdentity "p1").writeKey = (slotIdentity "p2").writeKey ∧
      (slotIdentity "p1").payloadSha256 ≠ (slotIdentity "p2").payloadSha256 ∧
      (reservationAt (World.empty.insertReceipt (slotIdentity "p1").writeKey .MARKET
          (slotIdentity "p1").payloadSha256 "2026-09-30T01:50:00.000Z")
        ⟨(slotIdentity "p2").writeKey, .MARKET, (slotIdentity "p2").payloadSha256, "r2",
          "2026-09-30T01:57:00.000Z", "2026-09-30T01:55:00.000Z"⟩).receipt.status = .CONFLICT := by
  have hne : (slotIdentity "p1").payloadSha256 ≠ (slotIdentity "p2").payloadSha256 := by
    intro h
    have hcontext := (rebuiltText_slotBatch.1 h).2.1
    exact absurd hcontext (by decide)
  refine ⟨fun _ _ h => h, rfl, ledgerIdentity_slotObservation (by decide) (by decide),
    ledgerIdentity_slotObservation (by decide) (by decide), rfl, hne, ?_⟩
  have hreceipt : receiptFor (World.empty.insertReceipt (slotIdentity "p1").writeKey .MARKET
      (slotIdentity "p1").payloadSha256 "2026-09-30T01:50:00.000Z") (slotIdentity "p2").writeKey =
        some (freshReceipt (slotIdentity "p1").writeKey .MARKET (slotIdentity "p1").payloadSha256
          "2026-09-30T01:50:00.000Z") := receiptFor_insertReceipt
  unfold reservationAt
  simp only [hreceipt, Option.getD_some]
  rw [if_pos (.inl hne)]

/-- The envelope under its two portfolio versions. -/
theorem identity_refines_iff_slot :
    (slotIdentity "p1").writeKey = (slotIdentity "p2").writeKey ∧
      (slotIdentity "p1" = slotIdentity "p2" ↔
        ((Submission.market slotObservation).channel = some .MARKET →
          SameResolution (.market slotObservation) (.market slotObservation) (resolvedUnder "p1")
            (resolvedUnder "p2"))) :=
  have hkey : (Submission.market slotObservation).envelopeKey slotRuntime "" = .ok slotEnvelopeKey :=
    rfl
  identity_refines_iff (fun _ _ h => h) rfl hkey hkey (ledgerIdentity_slotObservation (by decide) (by decide))
    (ledgerIdentity_slotObservation (by decide) (by decide))

end QuantproCollector.StateGateway
