import QuantproCollector.StateGateway.Reading

/-!
# Replaying a persisted write

A settled receipt answers its write again, with the stored comment and without a post. The receipt is
consulted after the validation, though, and the validation of a close batch reads what the industry,
company and market roles have recorded by then: a persisted close batch replays exactly as long as
its dependencies are met by the ledgers at the time of the replay.
-/

namespace QuantproCollector.StateGateway

open Relational Async

/-! ## Checks of the world -/

/-- The program changes nothing, and passes exactly where the condition holds. -/
def Decides (P : Runtime) (w : World) (s : Program Unit) (condition : Prop) : Prop :=
  ∃ r, Answers P w s r ∧ (r = .ok () ↔ condition)

section Decides

variable {P : Runtime} {w : World} {A B : Prop}

theorem decides_halt {r : Except Thrown Unit} (h : r = .ok () ↔ A) :
    Decides P w (Script.halt r) A :=
  ⟨r, rfl, h⟩

theorem Decides.seq {s s' : Program Unit} (h : Decides P w s A) (h' : Decides P w s' B) :
    Decides P w (do s; s') (A ∧ B) := by
  obtain ⟨r, hs, hr⟩ := h
  obtain ⟨r', hs', hr'⟩ := h'
  cases r with
  | ok a =>
    refine ⟨r', hs.bind_ok hs', ?_⟩
    rw [hr', ← hr]
    simp
  | error t =>
    refine ⟨.error t, hs.bind_error, ?_⟩
    rw [← hr]
    simp

/-- A check on what a read returns passes where the read succeeds and the check does. -/
theorem decides_bind {α : Type} {s : Program α} {f : α → Program Unit} {r : Except Thrown α}
    (hs : Answers P w s r) {C : α → Prop} (hf : ∀ a, r = .ok a → Decides P w (f a) (C a)) :
    Decides P w (s >>= f) (∃ a, r = .ok a ∧ C a) := by
  cases r with
  | ok a =>
    obtain ⟨r', hs', hr'⟩ := hf a rfl
    refine ⟨r', hs.bind_ok hs', ?_⟩
    rw [hr']
    simp
  | error t => exact ⟨.error t, hs.bind_error, by simp⟩

theorem Decides.congr {s : Program Unit} (h : Decides P w s A) (hAB : A ↔ B) : Decides P w s B := by
  obtain ⟨r, hs, hr⟩ := h
  exact ⟨r, hs, hr.trans hAB⟩

end Decides

/-! ## Dependencies of a close batch -/

/-- The latest event that the role recorded about a symbol proposes the state. -/
def Proposed (P : Runtime) (w : World) (role : InvestmentLedgerRole) (proposal symbol : String) :
    Prop :=
  ∃ latest, latestBySymbol (recordedEvents P w role) symbol = some latest ∧
    textField latest "r_proposal" = proposal

/-- Each dependent's symbol has its proposal from the role, in a ledger that can be read. -/
def ProposalsMet (P : Runtime) (w : World) (token : String) (role : InvestmentLedgerRole)
    (dependents : List Json) (proposal : String) : Prop :=
  dependents ≠ [] → Readable w token .investment ∧
    ∀ event ∈ dependents, Proposed P w role proposal (textField event "symbol")

/-- The market's close of the batch's day confirms each dependent. -/
def MarketMet (P : Runtime) (w : World) (token : String) (batch : Json) : Prop :=
  marketDependents batch ≠ [] → token ≠ "" ∧
    ∃ state, marketState P w (tradingDateOf batch) "16:45" = .ok state ∧
      checkMarketDependents state (marketDependents batch) = .ok ()

/-- What a close batch depends on holds in the ledgers as they are. -/
structure DependenciesMet (P : Runtime) (w : World) (token : String) (batch : Json) : Prop where
  industry : ProposalsMet P w token .industry (industryDependents batch) "R1"
  company : ProposalsMet P w token .company (companyDependents batch) "R2"
  market : MarketMet P w token batch

section Dependencies

variable {P : Runtime} {w : World} {token : String}

theorem checkProposals_eq_ok {events dependents : List Json} {proposal : String}
    {message : String → String} :
    checkProposals events dependents proposal message = .ok () ↔
      ∀ event ∈ dependents, ∃ latest,
        latestBySymbol events (textField event "symbol") = some latest ∧
          textField latest "r_proposal" = proposal := by
  unfold checkProposals
  split
  · rename_i hnone
    refine ⟨fun _ event hevent => ?_, fun _ => rfl⟩
    simpa [Option.any_eq_true] using List.find?_eq_none.1 hnone event hevent
  · rename_i event hsome
    refine ⟨fun h => by simp at h, fun h => ?_⟩
    have hnot := List.find?_some hsome
    have hmet : (latestBySymbol events (textField event "symbol")).any
        (fun latest => textField latest "r_proposal" = proposal) = true := by
      simpa [Option.any_eq_true] using h event (List.mem_of_find?_eq_some hsome)
    rw [hmet] at hnot
    cases hnot

theorem decides_validateProposals {role : InvestmentLedgerRole} {dependents : List Json}
    {proposal : String} {message : String → String} (hlen : dependents.length ≤ 128)
    (hkey : ∀ event ∈ dependents, isInstrumentKey (textField event "symbol") = true) :
    Decides P w (validateProposals P token role dependents proposal message)
      (ProposalsMet P w token role dependents proposal) := by
  unfold validateProposals ProposalsMet
  by_cases hne : dependents = []
  · rw [if_neg (by simpa using hne)]
    exact decides_halt (by simp [hne])
  rw [if_pos hne]
  by_cases htoken : token = ""
  · refine ⟨.error (investmentErrors.unavailable "RESEARCH GitHub credential is unavailable" none),
      ?_, ?_⟩
    · unfold getInvestmentLedgerState
      rw [if_pos htoken]
      rfl
    · simp [Readable, htoken, hne]
  have hstate : Answers P w (getInvestmentLedgerState P token role (symbolsOf dependents))
      (do
        let raw ← readComments P w investmentErrors none
        let comments ← validRoleComments P raw role
        return (roleEvents role comments).filter fun event =>
          (symbolsOf dependents).eraseDups.contains (textField event "symbol")) := by
    unfold getInvestmentLedgerState
    rw [if_neg htoken]
    dsimp only
    rw [if_neg (by rw [symbolsOf_ok hne hlen hkey]; decide)]
    refine (answers_fetchAllComments (e := investmentErrors) none).bind fun raw _ => ?_
    exact Machine.Reads.bind (s := Script.halt (validRoleComments P raw role)) rfl fun _ _ => rfl
  refine (decides_bind hstate fun events _ => decides_halt checkProposals_eq_ok).congr ?_
  rw [readComments_none]
  by_cases hcount : (w.comments .investment).length ≤ MAX_COMMENTS
  · rw [if_pos (show (w.comments investmentErrors.ledger).length ≤ MAX_COMMENTS from hcount)]
    have hok : (do
        let raw ← (.ok ((w.comments investmentErrors.ledger).map Comment.json) :
          Except Thrown (List Json))
        let comments ← validRoleComments P raw role
        return (roleEvents role comments).filter fun event =>
          (symbolsOf dependents).eraseDups.contains (textField event "symbol")) =
        (.ok ((recordedEvents P w role).filter fun event =>
          (symbolsOf dependents).eraseDups.contains (textField event "symbol")) :
          Except Thrown (List Json)) := by
      show (validRoleComments P (w.investment.map Comment.json) role >>= fun comments => _) = _
      rw [validRoleComments_json]
      rfl
    have hlatest : ∀ event ∈ dependents, latestBySymbol ((recordedEvents P w role).filter
        fun event => (symbolsOf dependents).eraseDups.contains (textField event "symbol"))
          (textField event "symbol") =
        latestBySymbol (recordedEvents P w role) (textField event "symbol") := by
      intro event hevent
      refine latestBySymbol_filter ?_
      simp only [symbolsOf, List.mem_eraseDups]
      exact List.mem_map_of_mem hevent
    constructor
    · rintro ⟨events, hevents, hall⟩ -
      rw [hok] at hevents
      obtain rfl := Except.ok.inj hevents
      refine ⟨⟨htoken, hcount⟩, fun event hevent => ?_⟩
      obtain ⟨latest, h1, h2⟩ := hall event hevent
      exact ⟨latest, (hlatest event hevent).symm.trans h1, h2⟩
    · intro h
      refine ⟨_, hok, fun event hevent => ?_⟩
      obtain ⟨latest, h1, h2⟩ := (h hne).2 event hevent
      exact ⟨latest, (hlatest event hevent).trans h1, h2⟩
  · rw [if_neg (show ¬ (w.comments investmentErrors.ledger).length ≤ MAX_COMMENTS from hcount)]
    constructor
    · rintro ⟨events, hevents, -⟩
      cases hevents
    · intro h
      exact absurd (h hne).1.2 hcount

theorem decides_validateMarketDependents (batch : Json) :
    Decides P w (validateMarketDependents P token batch) (MarketMet P w token batch) := by
  unfold validateMarketDependents MarketMet
  by_cases hne : marketDependents batch = []
  · rw [if_neg (by simpa using hne)]
    exact decides_halt (by simp [hne])
  rw [if_pos hne]
  by_cases htoken : token = ""
  · refine ⟨.error (marketErrors.unavailable "GitHub ledger credential is not configured" none),
      ?_, ?_⟩
    · unfold getMarketCheckpoints
      rw [if_pos htoken]
      rfl
    · simp [htoken, hne]
  have hstate := answers_getMarketCheckpoints (P := P) (w := w) htoken (tradingDateOf batch) "16:45"
  refine (decides_bind hstate fun state _ => decides_halt Iff.rfl).congr ?_
  exact ⟨fun h _ => ⟨htoken, h⟩, fun h => (h hne).2⟩

theorem decides_validateCloseDependencies {batch : Json} (hlen : (batchEvents batch).length ≤ 128)
    (hkey : ∀ event ∈ batchEvents batch, isInstrumentKey (textField event "symbol") = true) :
    Decides P w (validateCloseDependencies P token batch) (DependenciesMet P w token batch) := by
  have hfilter : ∀ p : Json → Bool, ((batchEvents batch).filter p).length ≤ 128 := fun p =>
    (List.length_filter_le p _).trans hlen
  have hsub : ∀ p : Json → Bool, ∀ event ∈ (batchEvents batch).filter p,
      isInstrumentKey (textField event "symbol") = true := fun p event hevent =>
    hkey event (List.mem_filter.1 hevent).1
  have hindustry : Decides P w (validateProposals P token .industry (industryDependents batch) "R1"
      industryMessage) (ProposalsMet P w token .industry (industryDependents batch) "R1") :=
    decides_validateProposals (hfilter _) (hsub _)
  have hcompany : Decides P w (validateProposals P token .company (companyDependents batch) "R2"
      companyMessage) (ProposalsMet P w token .company (companyDependents batch) "R2") :=
    decides_validateProposals (hfilter _) (hsub _)
  have hmarket : Decides P w (validateMarketDependents P token batch) (MarketMet P w token batch) :=
    decides_validateMarketDependents batch
  refine (hindustry.seq (hcompany.seq hmarket)).congr ?_
  exact ⟨fun ⟨h1, h2, h3⟩ => ⟨h1, h2, h3⟩, fun h => ⟨h.1, h.2, h.3⟩⟩

end Dependencies

/-! ## Validation -/

/-- An admitted investment batch is what its schema parsed. -/
theorem schema_of_validateInvestmentBatch {P : Runtime} {role : InvestmentLedgerRole} {batch : Json}
    {validated : ValidatedStateBatch} (h : validateInvestmentBatch P role batch = .ok validated) :
    INVESTMENT_LEDGER_BATCH_INPUT_SCHEMA batch = some validated.normalized_batch ∧
      validated.write_key = textField validated.normalized_batch "event_id" ∧
      validateRoleSemantics P role validated.normalized_batch = .ok () := by
  unfold validateInvestmentBatch at h
  split at h
  · cases h
  · rename_i data hdata
    split at h
    · cases h
    · cases h
    · rename_i hrole
      obtain rfl := Except.ok.inj h
      exact ⟨hdata, rfl, hrole⟩

section Replay

variable {P : Runtime} {w : World} {input : StateAppendInput} {validated : ValidatedStateBatch}

/-- What a batch depends on beyond itself: nothing, but for close batches. -/
def Admissible (P : Runtime) (w : World) (input : StateAppendInput) (batch : Json) : Prop :=
  input.channel = .CLOSE → DependenciesMet P w input.token batch

/-- A valid batch is admitted exactly where its dependencies are met. -/
theorem answers_validateAppend
    (hvalid : validateStateBatch P input.channel input.batch = .ok validated) :
    ∃ r, Answers P w (validateAppend P input) r ∧ (∀ v, r = .ok v → v = validated) ∧
      ((∃ v, r = .ok v) ↔ Admissible P w input validated.normalized_batch) := by
  unfold validateAppend Admissible
  rw [hvalid]
  by_cases hclose : input.channel = .CLOSE
  · rw [hclose] at hvalid
    obtain ⟨hlen, hkey⟩ :=
      batchEvents_of_batchSchema (schema_of_validateInvestmentBatch hvalid).1
    have hdecides : Decides P w (validateCloseDependencies P input.token validated.normalized_batch)
        (DependenciesMet P w input.token validated.normalized_batch) :=
      decides_validateCloseDependencies hlen hkey
    obtain ⟨r, hr, hmet⟩ := hdecides
    cases r with
    | ok a =>
      refine ⟨.ok validated, ?_, fun v hv => (Except.ok.inj hv).symm, ?_⟩
      · show Answers P w (if input.channel = .CLOSE then _ else _) _
        rw [if_pos hclose]
        exact hr.bind_ok rfl
      · exact ⟨fun _ _ => hmet.1 rfl, fun _ => ⟨validated, rfl⟩⟩
    | error t =>
      refine ⟨.error t, ?_, by simp, ?_⟩
      · show Answers P w (if input.channel = .CLOSE then _ else _) _
        rw [if_pos hclose]
        exact hr.bind_error
      · exact ⟨by simp, fun h => absurd (hmet.2 (h hclose)) (by simp)⟩
  · refine ⟨.ok validated, ?_, fun v hv => (Except.ok.inj hv).symm, ?_⟩
    · show Answers P w (if input.channel = .CLOSE then _ else _) _
      rw [if_neg hclose]
      rfl
    · exact ⟨fun _ h => absurd h hclose, fun _ => ⟨validated, rfl⟩⟩

/-- The answer of a write whose receipt is settled. -/
def replayOf (input : StateAppendInput) (validated : ValidatedStateBatch) (r : StateWriteReceipt) :
    StateAppendResult where
  status := .IDEMPOTENT_REPLAY
  channel := input.channel
  write_key := input.writeKey.getD validated.write_key
  payload_sha256 := input.payloadSha256.getD validated.payload_sha256
  comment_id := r.comment_id.getD ""
  url := r.comment_url.getD ""
  receipt := r

variable {r : StateWriteReceipt}

/-- A settled receipt of the same channel and payload answers the reservation. -/
theorem answers_reserveStateWrite {writeKey : String} {channel : StateWriteChannel}
    {sha requestId now : String} (hr : receiptFor w writeKey = some r) (hsettled : r.settled = true)
    (hchannel : r.channel = channel) (hsha : r.payload_sha256 = sha) :
    Answers P w (reserveStateWrite P writeKey channel sha requestId now) (.ok ⟨false, r⟩) := by
  unfold reserveStateWrite
  refine (answers_insertReceipt hr).bind_ok ?_
  refine (answers_selectReceipt writeKey).bind_ok ?_
  rw [hr]
  show Answers P w (if r.payload_sha256 ≠ sha ∨ r.channel ≠ channel then _ else _) _
  rw [if_neg (by simp [hchannel, hsha]), if_pos hsettled]
  rfl

/-- **A persisted write replays where its dependencies are met.** -/
theorem answers_appendStateBatch
    (hvalid : validateStateBatch P input.channel input.batch = .ok validated)
    (hr : receiptFor w (input.writeKey.getD validated.write_key) = some r)
    (hsettled : r.settled = true) (hchannel : r.channel = input.channel)
    (hsha : r.payload_sha256 = input.payloadSha256.getD validated.payload_sha256) :
    ∃ result, Answers P w (appendStateBatch P input) result ∧
      (result = .ok (replayOf input validated r) ↔
        Admissible P w input validated.normalized_batch) := by
  obtain ⟨answer, hanswer, hsame, hadmissible⟩ := answers_validateAppend (w := w) hvalid
  rw [← hadmissible]
  have hmapped : Answers P w (tryCatch (validateAppend P input) fun t => throw (.gateway (mapDomainError t)))
      (tryCatch answer fun t => .error (.gateway (mapDomainError t))) :=
    hanswer.tryCatch fun t _ => rfl
  cases answer with
  | error t =>
    refine ⟨.error (.gateway (mapDomainError t)), ?_, by simp⟩
    refine answers_givenOr (.inr rfl) fun requestId => ?_
    refine answers_givenOr (.inl rfl) fun now => ?_
    exact Machine.Reads.bind_error hmapped
  | ok v =>
    obtain rfl := hsame v rfl
    refine ⟨.ok (replayOf input v r), ?_, by simp⟩
    refine answers_givenOr (.inr rfl) fun requestId => ?_
    refine answers_givenOr (.inl rfl) fun now => ?_
    refine Machine.Reads.bind_ok hmapped ?_
    refine (answers_reserveStateWrite hr hsettled hchannel hsha).bind_ok ?_
    have hconflict : r.status ≠ .CONFLICT := by
      intro h
      simp [StateWriteReceipt.settled, h] at hsettled
    unfold continueReserved
    rw [if_neg hconflict]
    simp only [Bool.not_false, if_true, hsettled]
    rfl

/-- **A persisted write always replays**, but for close batches whose dependencies are not met at
the time: whatever the ledgers have become and whatever the clock reads. -/
theorem persisted_write_replays_iff
    (hvalid : validateStateBatch P input.channel input.batch = .ok validated)
    (hr : receiptFor w (input.writeKey.getD validated.write_key) = some r)
    (hsettled : r.settled = true) (hchannel : r.channel = input.channel)
    (hsha : r.payload_sha256 = input.payloadSha256.getD validated.payload_sha256)
    (choices : ℕ → {ch : Choice // ch.Calm}) :
    let run := (calm P).run 0 choices (appendStateBatch P input) 0 [] w
    (run.1 = .ok (replayOf input validated r) ∧ (∀ call ∈ run.2.1, call.op.posts = false) ∧
        run.2.2 = w) ↔
      (input.channel = .CLOSE → DependenciesMet P w input.token validated.normalized_batch) := by
  obtain ⟨result, hanswers, hresult⟩ :=
    answers_appendStateBatch hvalid hr hsettled hchannel hsha
  obtain ⟨h1, h2, h3⟩ := hanswers.run (t := 0) choices 0
  intro run
  constructor
  · rintro ⟨hrun, -, -⟩
    exact hresult.1 (h1.symm.trans hrun)
  · intro hmet
    exact ⟨h1.trans (hresult.2 hmet), h2, h3⟩

end Replay

/-! ## A close batch that no longer replays -/

def exampleEvent (fields : List (String × Json)) : Json :=
  .obj ([("symbol", .str "CN:600000"), ("event_type", .str "STATE_SET")] ++ fields ++
    [("evidence_types", .arr []), ("evidence_keys", .arr []), ("counter_evidence", .arr []),
      ("confidence", .num (.ofInt 1)), ("next_validation", .null)])

def exampleBatch (eventId asOf : String) (fields : List (String × Json)) : Json :=
  .obj [("schema_version", .str "investment_state_batch_v1"), ("portfolio_version", .str "pv-1"),
    ("event_id", .str eventId), ("as_of", .str asOf), ("events", .arr [exampleEvent fields])]

/-- The industry role proposes R1. -/
def industryR1 : Json :=
  exampleBatch "20260930T090000+08|industry_trend|BATCH" "2026-09-30T01:00:00.000Z"
    [("r_proposal", .str "R1")]

/-- The close role sets R1. -/
def closeR1 : Json :=
  exampleBatch "20260930T170000+08|close_review|BATCH" "2026-09-30T09:00:00.000Z"
    [("effective_r_state", .str "R1")]

/-- The industry role records an event without a proposal. -/
def industryLater : Json :=
  exampleBatch "20261001T090000+08|industry_trend|BATCH" "2026-10-01T01:00:00.000Z" []

def closeDigest : String := "d62c609f265a03f13edeed45980485aef6d260de587df28c9d45f206a2e98ff2"

def replayRuntime : Runtime :=
  tableRuntime
    [(industryR1.rebuiltText, "969d05b41cccb7c6079c26da0b3e0c7756dc6fc50f4a423d4064fd859e6f0686"),
      (closeR1.rebuiltText, closeDigest)]
    [("2026-09-30T01:00:00.000Z", 1790730000000), ("2026-09-30T09:00:00.000Z", 1790758800000),
      ("2026-10-01T01:00:00.000Z", 1790816400000)]
    []

def investmentComment (id : ℕ) (createdAt : String) (payload : Json) : Comment :=
  ⟨id, commentUrl .investment id, createdAt, String.ofList (ledgerBody payload)⟩

/-- The receipt of a persisted write. -/
def persistedReceipt (writeKey : String) (channel : StateWriteChannel) (sha now : String)
    (comment : ℕ) : StateWriteReceipt :=
  { freshReceipt writeKey channel sha now with
    status := .PERSISTED
    comment_id := some (String.ofList (Decimal.ofInt comment).text)
    comment_url := some (commentUrl .investment comment)
    attempt_count := 1 }

def oneReceipt (r : StateWriteReceipt) : Table StateWriteReceipt String receiptIndexes :=
  ⟨[r], fun _ _ => List.pairwise_singleton _ _⟩

def closeReceipt : StateWriteReceipt :=
  persistedReceipt "20260930T170000+08|close_review|BATCH" .CLOSE closeDigest
    "2026-09-30T09:00:00.000Z" 2

/-- The close batch was persisted after the industry's R1; then the industry recorded another. -/
def laterWorld : World where
  receipts := oneReceipt closeReceipt
  runs := Table.empty
  market := []
  investment :=
    [investmentComment 1 "2026-09-30T01:00:01Z" (enrichBatch .industry industryR1),
      investmentComment 2 "2026-09-30T09:00:01Z" (enrichBatch .close closeR1),
      investmentComment 3 "2026-10-01T01:00:01Z" (enrichBatch .industry industryLater)]
  nextCommentId := 4

def plainInput (channel : StateWriteChannel) (batch : Json) : StateAppendInput where
  token := "token"
  channel := channel
  batch := batch
  now := none
  requestId := none
  writeKey := none
  payloadSha256 := none
  envelopeKey := none
  eventCount := none

def closeValidated : ValidatedStateBatch :=
  ⟨"20260930T170000+08|close_review|BATCH", closeDigest, "investment_state_batch_v1", closeR1⟩

/-- The three batches are read back from the texts of their comments. -/
theorem payloadOfText_batches :
    payloadOfText (ledgerBody (enrichBatch .industry industryR1)) =
        some (enrichBatch .industry industryR1) ∧
      payloadOfText (ledgerBody (enrichBatch .close closeR1)) = some (enrichBatch .close closeR1) ∧
      payloadOfText (ledgerBody (enrichBatch .industry industryLater)) =
        some (enrichBatch .industry industryLater) := by
  decide +kernel

/-- The batches differ as texts: it is enough to compare their characters. -/
theorem rebuiltText_closeR1_ne : closeR1.rebuiltText ≠ industryR1.rebuiltText := by
  intro h
  have hchars : (closeR1.canonicalize Json.propertyLe).chars ≠
      (industryR1.canonicalize Json.propertyLe).chars := by decide
  exact hchars (String.ofList_inj.1 h)

theorem lookup_first {k d : String} {rest : List (String × String)} :
    (((k, d) :: rest).lookup k).getD "" = d := by
  simp

theorem lookup_second {k l d e : String} (h : k ≠ l) :
    ([(l, d), (k, e)].lookup k).getD "" = e := by
  simp [List.lookup_cons, beq_false_of_ne h]

theorem sha256HexOf_closeR1 : sha256HexOf replayRuntime closeR1 = closeDigest := by
  simp only [sha256HexOf, replayRuntime, tableRuntime]
  exact lookup_second rebuiltText_closeR1_ne

theorem sha256HexOf_industryR1 : sha256HexOf replayRuntime industryR1 =
    "969d05b41cccb7c6079c26da0b3e0c7756dc6fc50f4a423d4064fd859e6f0686" := by
  simp only [sha256HexOf, replayRuntime, tableRuntime]
  exact lookup_first

/-- A batch that is parsed to itself and meets its role's rules is valid. -/
theorem validateInvestmentBatch_of {P : Runtime} {role : InvestmentLedgerRole} {batch : Json}
    (hschema : INVESTMENT_LEDGER_BATCH_INPUT_SCHEMA batch = some batch)
    (hrole : validateRoleSemantics P role batch = .ok ()) :
    validateInvestmentBatch P role batch =
      .ok ⟨textField batch "event_id", sha256HexOf P batch, textField batch "schema_version",
        batch⟩ := by
  unfold validateInvestmentBatch
  rw [hschema]
  dsimp only
  rw [hrole]

/-- Two of them are parsed to themselves and meet their roles' rules. -/
theorem batches_valid :
    (INVESTMENT_LEDGER_BATCH_INPUT_SCHEMA closeR1 = some closeR1 ∧
        validateRoleSemantics replayRuntime .close closeR1 = .ok ()) ∧
      INVESTMENT_LEDGER_BATCH_INPUT_SCHEMA industryR1 = some industryR1 ∧
        validateRoleSemantics replayRuntime .industry industryR1 = .ok () := by
  decide +kernel

theorem validate_closeR1 : validateStateBatch replayRuntime .CLOSE closeR1 = .ok closeValidated := by
  have hbatch : validateInvestmentBatch replayRuntime .close closeR1 = _ :=
    validateInvestmentBatch_of batches_valid.1.1 batches_valid.1.2
  rw [sha256HexOf_closeR1] at hbatch
  exact hbatch

theorem validate_industryR1 : validateStateBatch replayRuntime .INDUSTRY industryR1 =
    .ok ⟨"20260930T090000+08|industry_trend|BATCH",
      "969d05b41cccb7c6079c26da0b3e0c7756dc6fc50f4a423d4064fd859e6f0686",
      "investment_state_batch_v1", industryR1⟩ := by
  have hbatch : validateInvestmentBatch replayRuntime .industry industryR1 = _ :=
    validateInvestmentBatch_of batches_valid.2.1 batches_valid.2.2
  rw [sha256HexOf_industryR1] at hbatch
  exact hbatch

theorem roleComments_laterWorld :
    roleComments replayRuntime laterWorld .industry =
      [⟨"1", commentUrl .investment 1, "2026-09-30T01:00:01Z", enrichBatch .industry industryR1⟩,
        ⟨"3", commentUrl .investment 3, "2026-10-01T01:00:01Z",
          enrichBatch .industry industryLater⟩] := by
  have hread : laterWorld.investment.filterMap (Comment.read parseExistingPayload) =
      [⟨"1", commentUrl .investment 1, "2026-09-30T01:00:01Z", enrichBatch .industry industryR1⟩,
        ⟨"2", commentUrl .investment 2, "2026-09-30T09:00:01Z", enrichBatch .close closeR1⟩,
        ⟨"3", commentUrl .investment 3, "2026-10-01T01:00:01Z",
          enrichBatch .industry industryLater⟩] := by
    have h1 := read_written (c := investmentComment 1 "2026-09-30T01:00:01Z" _) rfl
      (by decide) (by decide) payloadOfText_batches.1
    have h2 := read_written (c := investmentComment 2 "2026-09-30T09:00:01Z" _) rfl
      (by decide) (by decide) payloadOfText_batches.2.1
    have h3 := read_written (c := investmentComment 3 "2026-10-01T01:00:01Z" _) rfl
      (by decide) (by decide) payloadOfText_batches.2.2
    exact (List.filterMap_cons_some h1).trans (congrArg _
      ((List.filterMap_cons_some h2).trans (congrArg _
        ((List.filterMap_cons_some h3).trans rfl))))
  unfold roleComments
  rw [hread]
  decide

/-- **A persisted close batch stops replaying** once the industry role has recorded a later event
about its symbol: its receipt is settled under the same channel and payload, and yet the append
fails, whatever is drawn and whatever the clock reads. -/
theorem persisted_close_write_fails :
    validateStateBatch replayRuntime .CLOSE closeR1 = .ok closeValidated ∧
      receiptFor laterWorld closeValidated.write_key = some closeReceipt ∧
      closeReceipt.status = .PERSISTED ∧ closeReceipt.channel = .CLOSE ∧
      closeReceipt.payload_sha256 = closeValidated.payload_sha256 ∧
      ∀ choices, ((calm replayRuntime).run 0 choices
        (appendStateBatch replayRuntime (plainInput .CLOSE closeR1)) 0 [] laterWorld).1 ≠
          .ok (replayOf (plainInput .CLOSE closeR1) closeValidated closeReceipt) := by
  have hreceipt : receiptFor laterWorld closeValidated.write_key = some closeReceipt := by
    decide
  refine ⟨validate_closeR1, hreceipt, rfl, rfl, rfl, fun choices hrun => ?_⟩
  have hvalid : validateStateBatch replayRuntime (plainInput .CLOSE closeR1).channel
      (plainInput .CLOSE closeR1).batch = .ok closeValidated := validate_closeR1
  obtain ⟨result, hanswers, hresult⟩ :=
    answers_appendStateBatch (w := laterWorld) hvalid hreceipt rfl rfl rfl
  have hmet := hresult.1 ((hanswers.run (t := 0) choices 0).1.symm.trans hrun) rfl
  have hproposed := (hmet.industry (by decide)).2 (exampleEvent
    [("effective_r_state", .str "R1")]) (by decide)
  obtain ⟨latest, hlatest, hstate⟩ := hproposed
  rw [recordedEvents, roleComments_laterWorld] at hlatest
  have hempty : (latestBySymbol (roleEvents .industry
      [⟨"1", commentUrl .investment 1, "2026-09-30T01:00:01Z", enrichBatch .industry industryR1⟩,
        ⟨"3", commentUrl .investment 3, "2026-10-01T01:00:01Z",
          enrichBatch .industry industryLater⟩]) "CN:600000").map (textField · "r_proposal") =
      some "" := by
    decide
  have htext : textField (exampleEvent [("effective_r_state", .str "R1")]) "symbol" = "CN:600000" :=
    rfl
  rw [← htext, hlatest, Option.map_some, hstate] at hempty
  exact absurd hempty (by decide)

def industryReceipt : StateWriteReceipt :=
  persistedReceipt "20260930T090000+08|industry_trend|BATCH" .INDUSTRY
    "969d05b41cccb7c6079c26da0b3e0c7756dc6fc50f4a423d4064fd859e6f0686" "2026-09-30T01:00:00.000Z" 1

def industryValidated : ValidatedStateBatch :=
  ⟨"20260930T090000+08|industry_trend|BATCH",
    "969d05b41cccb7c6079c26da0b3e0c7756dc6fc50f4a423d4064fd859e6f0686",
    "investment_state_batch_v1", industryR1⟩

def industryWorld : World := { laterWorld with receipts := oneReceipt industryReceipt }

def exampleCalm : {ch : Choice // ch.Calm} :=
  ⟨⟨"2026-10-01T02:00:00.000Z", "request", .ok ⟨"pv-1", "hash-1"⟩, .none, .honest, true⟩,
    ⟨rfl, rfl, _, rfl⟩⟩

/-- The industry's own batch replays in the same ledgers. -/
theorem persisted_write_replays_iff_industry :
    let run := (calm replayRuntime).run 0 (fun _ => exampleCalm)
      (appendStateBatch replayRuntime (plainInput .INDUSTRY industryR1)) 0 [] industryWorld
    (run.1 = .ok (replayOf (plainInput .INDUSTRY industryR1) industryValidated industryReceipt) ∧
        (∀ call ∈ run.2.1, call.op.posts = false) ∧ run.2.2 = industryWorld) ↔
      ((plainInput .INDUSTRY industryR1).channel = .CLOSE →
        DependenciesMet replayRuntime industryWorld "token" industryR1) :=
  persisted_write_replays_iff validate_industryR1 (by decide) rfl rfl rfl _

end QuantproCollector.StateGateway
