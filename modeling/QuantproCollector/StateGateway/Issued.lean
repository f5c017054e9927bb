import QuantproCollector.StateGateway.Statements
import QuantproCollector.StateGateway.Envelope

/-!
# What the gateway asks for

The operations that the ledgers, the gateway and the commands can ever call: reading a ledger lists
its comments, an append creates one and gets it, and none of them touches the rows of the runs.
-/

namespace QuantproCollector.StateGateway

open Async

variable {S : Op → Prop} {P : Runtime}

theorem issues_attempt {α : Type} {s : Program α} (h : s.Issues S) : (attempt s).Issues S :=
  (h.map some).tryCatch fun _ => trivial

theorem issues_ite {α : Type} {c : Prop} [Decidable c] {s t : Program α} (hs : s.Issues S)
    (ht : t.Issues S) : (if c then s else t).Issues S := by
  split
  · exact hs
  · exact ht

theorem issues_givenOr {value : Option String} {draw : Program String} (h : draw.Issues S) :
    (givenOr value draw).Issues S := by
  cases value with
  | some v => trivial
  | none => exact h

/-! ## Reading a ledger -/

theorem issues_fetchStateLedgerReadWithRetry {request : Request} (h : S (.fetch request))
    (delays : List ℕ) : (fetchStateLedgerReadWithRetry request delays).Issues S := by
  induction delays with
  | nil => exact Script.issues_perform.2 h
  | cons delay delays ih =>
    refine (issues_attempt (Script.issues_perform.2 h)).bind fun response => ?_
    cases response with
    | none => exact ih
    | some response =>
      dsimp only
      split_ifs
      · trivial
      · exact ih

section Lists

variable (h : ∀ page, S (.fetch (.list page)))

include h

theorem issues_fetchPages (e : LedgerErrors) (pages : ℕ) (page : Page) (comments : List Json) :
    (fetchPages e pages page comments).Issues S := by
  induction pages generalizing page comments with
  | zero => trivial
  | succ pages ih =>
    refine (issues_attempt (issues_fetchStateLedgerReadWithRetry (h page) _)).bind fun answer => ?_
    cases answer with
    | none => trivial
    | some response =>
      refine Script.Issues.bind trivial fun response => ?_
      dsimp only
      split
      · trivial
      · split
        · trivial
        · split
          · trivial
          · exact ih _ _
        · trivial

theorem issues_fetchAllComments (e : LedgerErrors) (since : Option String) :
    (fetchAllComments e since).Issues S :=
  issues_fetchPages h e _ _ _

theorem issues_getMarketCheckpoints (token tradingDate slot : String) :
    (getMarketCheckpoints P token tradingDate slot).Issues S := by
  unfold getMarketCheckpoints
  split
  · trivial
  · refine Script.Issues.bind trivial fun since => ?_
    refine (issues_fetchAllComments h _ _).bind fun recent => ?_
    refine Script.Issues.bind trivial fun state => ?_
    split
    · trivial
    · exact (issues_fetchAllComments h _ _).bind fun _ => trivial

theorem issues_getInvestmentLedgerState (token : String) (role : InvestmentLedgerRole)
    (symbols : List String) : (getInvestmentLedgerState P token role symbols).Issues S := by
  unfold getInvestmentLedgerState
  split
  · trivial
  · dsimp only
    split
    · trivial
    · exact (issues_fetchAllComments h _ _).bind fun _ => Script.Issues.bind trivial fun _ => trivial

theorem issues_validateProposals (token : String) (role : InvestmentLedgerRole)
    (dependents : List Json) (proposal : String) (message : String → String) :
    (validateProposals P token role dependents proposal message).Issues S := by
  unfold validateProposals
  split
  · exact (issues_getInvestmentLedgerState h _ _ _).bind fun _ => trivial
  · trivial

theorem issues_validateMarketDependents (token : String) (batch : Json) :
    (validateMarketDependents P token batch).Issues S := by
  unfold validateMarketDependents
  split
  · exact (issues_getMarketCheckpoints h _ _ _).bind fun _ => trivial
  · trivial

theorem issues_validateAppend (input : StateAppendInput) : (validateAppend P input).Issues S := by
  refine Script.Issues.bind trivial fun validated => ?_
  split
  · refine Script.Issues.bind ?_ fun _ => trivial
    exact (issues_validateProposals h _ _ _ _ _).bind fun _ =>
      (issues_validateProposals h _ _ _ _ _).bind fun _ => issues_validateMarketDependents h _ _
  · trivial

theorem issues_buildMarketObservationBatch (token : String) (command : Json)
    (portfolioVersion liveUniverseHash : String) :
    (buildMarketObservationBatch P token command portfolioVersion liveUniverseHash).Issues S := by
  refine Script.Issues.bind trivial fun parsed => ?_
  refine (issues_getMarketCheckpoints h _ _ _).bind fun state => ?_
  split
  · trivial
  · trivial

end Lists

/-! ## Appending to a ledger -/

section Appends

variable (hcreate : ∀ l body, S (.fetch (.create l body))) (hget : ∀ l id, S (.fetch (.get l id)))

include hcreate hget

theorem issues_createAndReadBack (e : LedgerErrors)
    (parse : Json → Except Thrown (Option LedgerComment)) (payload : Json) :
    (createAndReadBack e parse payload).Issues S := by
  refine (issues_attempt (Script.issues_perform.2 (hcreate _ _))).bind fun answer => ?_
  cases answer with
  | none => trivial
  | some response =>
    refine Script.Issues.bind trivial fun response => ?_
    dsimp only
    split
    · trivial
    · have hread : ∀ createdId, (attempt (fetchStateLedgerReadWithRetry (.get e.ledger createdId)
          STATE_LEDGER_READ_RETRY_DELAYS_MS)).Issues S :=
        fun _ => issues_attempt (issues_fetchStateLedgerReadWithRetry (hget _ _) _)
      split
      · trivial
      · trivial
      · refine Script.Issues.bind trivial fun created => ?_
        split
        · trivial
        · refine (hread _).bind fun answer => ?_
          cases answer with
          | none => trivial
          | some response =>
            refine Script.Issues.bind trivial fun response => ?_
            split
            · trivial
            · split
              · trivial
              · split
                · trivial
                · trivial
                · split
                  · trivial
                  · trivial

variable (hlist : ∀ page, S (.fetch (.list page)))

include hlist

theorem issues_appendMarketCheckpoint (token : String) (checkpoint : Json) :
    (appendMarketCheckpoint P token checkpoint).Issues S := by
  unfold appendMarketCheckpoint
  split
  · trivial
  · refine Script.Issues.bind trivial fun _ => ?_
    refine (issues_getMarketCheckpoints hlist _ _ _).bind fun state => ?_
    dsimp only
    split
    · trivial
    · refine Script.Issues.bind trivial fun checkpoint => Script.Issues.bind trivial fun _ => ?_
      split
      · split
        · trivial
        · trivial
      · split
        · trivial
        · exact issues_ite trivial (issues_createAndReadBack hcreate hget _ _ _)

theorem issues_appendInvestmentLedgerBatch (token : String) (role : InvestmentLedgerRole)
    (batch : Json) : (appendInvestmentLedgerBatch P token role batch).Issues S := by
  unfold appendInvestmentLedgerBatch
  split
  · trivial
  · refine Script.Issues.bind trivial fun _ => ?_
    dsimp only
    split
    · trivial
    · refine (issues_fetchAllComments hlist _ _).bind fun raw => ?_
      refine Script.Issues.bind trivial fun comments => ?_
      split
      · exact issues_createAndReadBack hcreate hget _ _ _
      · split
        · trivial
        · trivial
      · trivial

theorem issues_appendLedger (token : String) (channel : StateWriteChannel) (batch : Json) :
    (appendLedger P token channel batch).Issues S := by
  unfold appendLedger
  split
  · exact issues_appendMarketCheckpoint hcreate hget hlist _ _
  · exact issues_appendInvestmentLedgerBatch hcreate hget hlist _ _ _

end Appends

/-! ## The gateway -/

/-- The operations on the rows of the runs. -/
def Op.onRuns : Op → Bool
  | .selectRun .. | .insertRun _ | .updateRun _ => true
  | _ => false

/-- The operation reserves a receipt. -/
def Op.reserves : Op → Bool
  | .insertReceipt .. => true
  | _ => false

theorem issues_reserveStateWrite (writeKey : String) (channel : StateWriteChannel)
    (payloadSha256 requestId now : String)
    (hinsert : S (.insertReceipt writeKey channel payloadSha256 now))
    (hselect : S (.selectReceipt writeKey)) (hlease : ∀ request, S (.leaseReceipt request)) :
    (reserveStateWrite P writeKey channel payloadSha256 requestId now).Issues S := by
  refine Script.Issues.bind (Script.issues_perform.2 hinsert) fun _ => ?_
  refine Script.Issues.bind (Script.issues_perform.2 hselect) fun receipt => ?_
  refine Script.Issues.bind ?_ fun receipt => ?_
  · cases receipt with
    | none => trivial
    | some receipt => trivial
  · split
    · trivial
    · split
      · trivial
      · split
        · trivial
        · refine Script.Issues.bind (Script.issues_perform.2 (hlease _)) fun _ => ?_
          refine Script.Issues.bind (Script.issues_perform.2 hselect) fun receipt => ?_
          refine Script.Issues.bind ?_ fun _ => trivial
          cases receipt with
          | none => trivial
          | some receipt => trivial

section Settling

variable (h : ∀ op, op.onRuns = false → op.reserves = false → S op)

include h

theorem issues_storedReceipt_select (writeKey : String) :
    (selectReceipt writeKey >>= storedReceipt).Issues S := by
  refine Script.Issues.bind (Script.issues_perform.2 (h _ rfl rfl)) fun receipt => ?_
  cases receipt with
  | none => trivial
  | some receipt => trivial

theorem issues_finalizeStateWriteReceipt (request : FinalizeRequest) :
    (finalizeStateWriteReceipt request).Issues S :=
  Script.Issues.bind (Script.issues_perform.2 (h _ rfl rfl)) fun _ => issues_storedReceipt_select h _

theorem issues_settle (input : StateAppendInput) (validated : ValidatedStateBatch)
    (requestId writeKey payloadSha256 : String) :
    (settle P input validated requestId writeKey payloadSha256).Issues S := by
  refine Script.Issues.tryCatch ?_ fun t => ?_
  · refine (issues_appendLedger (fun _ _ => h _ rfl rfl) (fun _ _ => h _ rfl rfl) (fun _ => h _ rfl rfl) _ _
      _).bind fun result => ?_
    refine Script.Issues.bind (Script.issues_perform.2 (h _ rfl rfl)) fun _ => ?_
    exact (issues_finalizeStateWriteReceipt h _).bind fun _ => trivial
  · refine Script.Issues.bind (Script.issues_perform.2 (h _ rfl rfl)) fun _ => ?_
    exact (issues_finalizeStateWriteReceipt h _).bind fun _ => trivial

theorem issues_continueReserved (input : StateAppendInput) (validated : ValidatedStateBatch)
    (requestId writeKey payloadSha256 : String) (reservation : Reservation) :
    (continueReserved P input validated requestId writeKey payloadSha256 reservation).Issues S := by
  unfold continueReserved
  split
  · trivial
  · split
    · split
      · trivial
      · trivial
    · exact issues_settle h _ _ _ _ _

end Settling

section Gateway

variable (h : ∀ op, op.onRuns = false → S op)

include h

theorem issues_appendStateBatch (input : StateAppendInput) :
    (appendStateBatch P input).Issues S := by
  refine (issues_givenOr (Script.issues_perform.2 (h _ rfl))).bind fun requestId => ?_
  refine (issues_givenOr (Script.issues_perform.2 (h _ rfl))).bind fun now => ?_
  refine Script.Issues.bind (Script.Issues.tryCatch (issues_validateAppend (fun _ => h _ rfl) _)
    fun _ => trivial) fun validated => ?_
  have hother : ∀ op, op.onRuns = false → op.reserves = false → S op := fun op hop _ => h op hop
  exact (issues_reserveStateWrite _ _ _ _ _ (h _ rfl) (h _ rfl) fun _ => h _ rfl).bind fun _ =>
    issues_continueReserved hother _ _ _ _ _ _

theorem issues_appendInvestmentCommand (channel : InvestmentCommandChannel) (input : CommandInput) :
    (appendInvestmentCommand P channel input).Issues S :=
  Script.Issues.bind trivial fun _ => (issues_appendStateBatch h _).bind fun _ => trivial

theorem issues_appendMarketObservation (input : CommandInput) (liveUniverseHash : String) :
    (appendMarketObservation P input liveUniverseHash).Issues S := by
  refine (issues_buildMarketObservationBatch (fun _ => h _ rfl) _ _ _ _).bind fun built => ?_
  obtain ⟨batch, runId⟩ := built
  exact (issues_appendStateBatch h _).bind fun _ => trivial

theorem issues_executeAppend (input : EnvelopeInput) (eventCount : Option ℕ)
    {append : OwnerContext → Program CommandAppendResult} (ha : ∀ context, (append context).Issues S) :
    (executeAppend input eventCount append).Issues S := by
  refine Script.Issues.tryCatch ?_ fun _ => trivial
  split
  · trivial
  · refine Script.Issues.bind (Script.issues_perform.2 (h _ rfl)) fun context => ?_
    exact ((ha context).map _).tryCatch fun _ => trivial

/-- What an envelope executes does not touch the rows of the runs. -/
theorem issues_execute (input : EnvelopeInput) (requestId envelopeKey : String)
    (submission : Submission) : (execute P input requestId envelopeKey submission).Issues S := by
  cases submission with
  | blocked code => trivial
  | observation freshCount => trivial
  | heartbeat => trivial
  | market payload =>
    exact issues_executeAppend h _ _ fun _ => issues_appendMarketObservation h _ _
  | investment channel payload =>
    exact issues_executeAppend h _ _ fun _ => issues_appendInvestmentCommand h _ _

end Gateway

end QuantproCollector.StateGateway
