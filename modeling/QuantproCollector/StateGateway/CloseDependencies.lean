import QuantproCollector.StateGateway.Replay

/-!
# What a close batch must be backed by

`Met` states the dependencies of a close batch by the ledgers' own indexes: the latest proposal of each
role about a symbol, and the close of the day on which the batch's instant falls in Shanghai. The check
looks instead at the latest event of a role, whether it proposes anything or not, and takes the day from
the text of `as_of`. `closeDependencies_iff` says exactly when the two agree.
-/

namespace QuantproCollector.StateGateway

open Relational Async

/-! ## Proposals -/

/-- The event proposes a state. -/
def isRProposal (event : Json) : Bool :=
  ["R0", "R1", "R2"].contains (textField event "r_proposal")

/-- `latest_r_proposal_by_symbol[symbol]`. -/
def latestRProposal (events : List Json) (symbol : String) : Option String :=
  ((events.filter fun event => textField event "symbol" = symbol).filter isRProposal).getLast?.map
    (textField · "r_proposal")

/-- The symbol's latest event proposes nothing, and an earlier one does. -/
def Hides (events : List Json) (symbol : String) : Prop :=
  ∃ latest, latestBySymbol events symbol = some latest ∧ isRProposal latest = false ∧
    (latestRProposal events symbol).isSome

theorem getLast?_filter {α : Type} {p : α → Bool} {xs : List α} {a : α} (h : xs.getLast? = some a)
    (ha : p a = true) : (xs.filter p).getLast? = some a := by
  obtain ⟨ys, rfl⟩ := List.getLast?_eq_some_iff.1 h
  simp [ha]

/-- The latest event proposes the state exactly where the latest proposal is it and is not hidden. -/
theorem latest_proposes_iff {events : List Json} {symbol proposal : String}
    (hp : ["R0", "R1", "R2"].contains proposal = true) :
    (∃ latest, latestBySymbol events symbol = some latest ∧ textField latest "r_proposal" = proposal) ↔
      latestRProposal events symbol = some proposal ∧ ¬ Hides events symbol := by
  have hown : ∀ latest, latestBySymbol events symbol = some latest → isRProposal latest = true →
      latestRProposal events symbol = some (textField latest "r_proposal") := by
    intro latest hlatest hr
    unfold latestRProposal
    rw [getLast?_filter hlatest hr, Option.map_some]
  constructor
  · rintro ⟨latest, hlatest, rfl⟩
    refine ⟨hown latest hlatest hp, ?_⟩
    rintro ⟨x, hx, hnot, -⟩
    obtain rfl : latest = x := Option.some.inj (hlatest.symm.trans hx)
    rw [show isRProposal latest = true from hp] at hnot
    cases hnot
  · rintro ⟨hproposal, hhides⟩
    cases hlatest : latestBySymbol events symbol with
    | none =>
      have hempty := List.getLast?_eq_none_iff.1 hlatest
      rw [latestRProposal, hempty] at hproposal
      cases hproposal
    | some latest =>
      cases hr : isRProposal latest with
      | false => exact absurd ⟨latest, hlatest, hr, by rw [hproposal]; rfl⟩ hhides
      | true =>
        exact ⟨latest, rfl, Option.some.inj ((hown latest hlatest hr).symm.trans hproposal)⟩

/-! ## The dependencies -/

/-- The instant of `asOf` falls on the date in Shanghai. -/
def IsShanghaiDate (P : Runtime) (asOf date : String) : Prop :=
  isTradingDate date = true ∧ ∃ instant midnight, P.dateParse asOf = some instant ∧
    P.dateParse (date ++ "T00:00:00+08:00") = some midnight ∧
    midnight ≤ instant ∧ instant < midnight + 86400000

/-- The market's close of the date confirms the event's symbol, and for R4 the close before it too. -/
def Confirmed (P : Runtime) (w : World) (date : String) (event : Json) : Prop :=
  ∃ state close, marketState P w date "16:45" = .ok state ∧ state.currentSlot = some close ∧
    textField close.payload "observation_type" = "CLOSE" ∧
    checkpointHasConfirmedSymbol (checkpointRecords close.payload) (textField event "symbol") = true ∧
    (effectiveState event = "R4" → ∃ previous, state.previousClose = some previous ∧
      checkpointHasConfirmedSymbol (checkpointRecords previous.payload) (textField event "symbol") = true)

/-- The market confirms every event that needs it, on a date `day` admits. -/
def MarketConfirms (P : Runtime) (w : World) (batch : Json) (day : String → Prop) : Prop :=
  ∀ event ∈ batchEvents batch, effectiveState event = "R4" ∨ isTrue event "r4_candidate" = true →
    ∃ date, day date ∧ Confirmed P w date event

/-- The latest proposals of the industry and the company role are the ones that the events need. -/
structure Backed (P : Runtime) (w : World) (batch : Json) : Prop where
  industry : ∀ event ∈ batchEvents batch, effectiveState event = "R1" →
    latestRProposal (recordedEvents P w .industry) (textField event "symbol") = some "R1"
  company : ∀ event ∈ batchEvents batch, effectiveState event = "R2" ∨ effectiveState event = "R3" ∨
      effectiveState event = "R4" ∨ isTrue event "r4_candidate" = true →
    latestRProposal (recordedEvents P w .company) (textField event "symbol") = some "R2"

/-- What a close batch depends on. -/
structure Met (P : Runtime) (w : World) (batch : Json) : Prop where
  backed : Backed P w batch
  market : MarketConfirms P w batch (IsShanghaiDate P (textField batch "as_of"))

/-- No proposal that an event needs is hidden by a later event. -/
structure NoneHidden (P : Runtime) (w : World) (batch : Json) : Prop where
  industry : ∀ event ∈ batchEvents batch, effectiveState event = "R1" →
    ¬ Hides (recordedEvents P w .industry) (textField event "symbol")
  company : ∀ event ∈ batchEvents batch, effectiveState event = "R2" ∨ effectiveState event = "R3" ∨
      effectiveState event = "R4" ∨ isTrue event "r4_candidate" = true →
    ¬ Hides (recordedEvents P w .company) (textField event "symbol")

/-- The check passes, as long as nothing fails on the way to the ledgers. -/
def Accepts (P : Runtime) (w : World) (token : String) (batch : Json) : Prop :=
  Answers P w (validateCloseDependencies P token batch) (.ok ())

section Checks

variable {P : Runtime} {w : World} {token : String} {batch : Json}

theorem mem_industryDependents {event : Json} :
    event ∈ industryDependents batch ↔ event ∈ batchEvents batch ∧ effectiveState event = "R1" := by
  simp [industryDependents]

theorem mem_companyDependents {event : Json} :
    event ∈ companyDependents batch ↔ event ∈ batchEvents batch ∧
      (effectiveState event = "R2" ∨ effectiveState event = "R3" ∨ effectiveState event = "R4" ∨
        isTrue event "r4_candidate" = true) := by
  simp [companyDependents, or_assoc]

theorem mem_marketDependents {event : Json} :
    event ∈ marketDependents batch ↔ event ∈ batchEvents batch ∧
      (effectiveState event = "R4" ∨ isTrue event "r4_candidate" = true) := by
  simp [marketDependents]

/-- A role's part of the check, by its latest proposals. -/
theorem proposalsMet_iff {role : InvestmentLedgerRole} {dependents : List Json} {proposal : String}
    (hp : ["R0", "R1", "R2"].contains proposal = true) (hread : Readable w token .investment) :
    ProposalsMet P w token role dependents proposal ↔
      (∀ event ∈ dependents,
        latestRProposal (recordedEvents P w role) (textField event "symbol") = some proposal) ∧
      ∀ event ∈ dependents, ¬ Hides (recordedEvents P w role) (textField event "symbol") := by
  unfold ProposalsMet Proposed
  constructor
  · intro h
    have hall : ∀ event ∈ dependents, _ := fun event hevent =>
      (latest_proposes_iff hp).1 ((h (List.ne_nil_of_mem hevent)).2 event hevent)
    exact ⟨fun event hevent => (hall event hevent).1, fun event hevent => (hall event hevent).2⟩
  · rintro ⟨hproposal, hhides⟩ -
    exact ⟨hread, fun event hevent =>
      (latest_proposes_iff hp).2 ⟨hproposal event hevent, hhides event hevent⟩⟩

theorem marketDependencyError_eq_none {current : Json} {previousClose : Option Json} {event : Json} :
    marketDependencyError current previousClose event = none ↔
      checkpointHasConfirmedSymbol (checkpointRecords current) (textField event "symbol") = true ∧
        (effectiveState event = "R4" → ∃ close, previousClose = some close ∧
          checkpointHasConfirmedSymbol (checkpointRecords close) (textField event "symbol") = true) := by
  unfold marketDependencyError
  dsimp only
  split_ifs with hcurrent hstate hprevious
  · simp only [false_iff]
    rintro ⟨h, -⟩
    rw [h] at hcurrent
    cases hcurrent
  · exact ⟨fun _ => ⟨by simpa using hcurrent, fun h => absurd h hstate⟩, fun _ => rfl⟩
  · refine ⟨fun _ => ⟨by simpa using hcurrent, fun _ => ?_⟩, fun _ => rfl⟩
    simpa [Option.any_eq_true] using hprevious
  · simp only [false_iff]
    rintro ⟨-, h⟩
    obtain ⟨close, rfl, hclose⟩ := h (not_not.1 hstate)
    exact hprevious (by simpa using hclose)

theorem checkMarketDependents_eq_ok {state : MarketCheckpointState} {dependents : List Json} :
    checkMarketDependents state dependents = .ok () ↔
      ∃ close, state.currentSlot = some close ∧ textField close.payload "observation_type" = "CLOSE" ∧
        ∀ event ∈ dependents, marketDependencyError close.payload
          (state.previousClose.map LedgerComment.payload) event = none := by
  unfold checkMarketDependents
  cases hslot : state.currentSlot with
  | none => simp
  | some close =>
    simp only [Option.map_some, Option.some.injEq, exists_eq_left']
    split_ifs with htype
    · simp [htype]
    · cases hfind : dependents.findSome?
        (marketDependencyError close.payload (state.previousClose.map LedgerComment.payload)) with
      | none => simpa [not_not.1 htype] using List.findSome?_eq_none_iff.1 hfind
      | some t =>
        obtain ⟨event, hevent, ht⟩ := List.exists_of_findSome?_eq_some hfind
        simp only [reduceCtorEq, false_iff]
        rintro ⟨-, hall⟩
        rw [hall event hevent] at ht
        cases ht

/-- The market's part of the check: the closes of the date that begins the text of `as_of`. -/
theorem marketMet_iff (htoken : token ≠ "") :
    MarketMet P w token batch ↔ MarketConfirms P w batch (· = tradingDateOf batch) := by
  unfold MarketMet MarketConfirms
  simp only [checkMarketDependents_eq_ok, marketDependencyError_eq_none, exists_eq_left]
  constructor
  · intro h event hevent hdependent
    have hmem := mem_marketDependents.2 ⟨hevent, hdependent⟩
    obtain ⟨-, state, hstate, close, hslot, htype, hall⟩ := h (List.ne_nil_of_mem hmem)
    obtain ⟨hcurrent, hprevious⟩ := hall event hmem
    refine ⟨state, close, hstate, hslot, htype, hcurrent, fun hr4 => ?_⟩
    obtain ⟨payload, hpayload, hconfirmed⟩ := hprevious hr4
    obtain ⟨previous, hclose, rfl⟩ := Option.map_eq_some_iff.1 hpayload
    exact ⟨previous, hclose, hconfirmed⟩
  · intro h hne
    obtain ⟨first, hfirst⟩ := List.exists_mem_of_ne_nil _ hne
    obtain ⟨hfirst, hneeds⟩ := mem_marketDependents.1 hfirst
    obtain ⟨state, close, hstate, hslot, htype, -⟩ := h first hfirst hneeds
    refine ⟨htoken, state, hstate, close, hslot, htype, fun event hmem => ?_⟩
    obtain ⟨hevent, hdependent⟩ := mem_marketDependents.1 hmem
    obtain ⟨state', close', hstate', hslot', -, hcurrent, hprevious⟩ := h event hevent hdependent
    obtain rfl : state = state' := Except.ok.inj (hstate.symm.trans hstate')
    obtain rfl : close = close' := Option.some.inj (hslot.symm.trans hslot')
    refine ⟨hcurrent, fun hr4 => ?_⟩
    obtain ⟨previous, hclose, hconfirmed⟩ := hprevious hr4
    exact ⟨previous.payload, by rw [hclose]; rfl, hconfirmed⟩

/-- A check that decides a condition accepts exactly where it holds. -/
theorem accepts_of_decides {s : Program Unit} {condition : Prop} (h : Decides P w s condition) :
    Answers P w s (.ok ()) ↔ condition := by
  obtain ⟨r, hr, hcondition⟩ := h
  rw [← hcondition]
  constructor
  · intro hok
    have h1 := (hr.run (t := 0) (fun _ => exampleCalm) 0).1
    have h2 := (hok.run (t := 0) (fun _ => exampleCalm) 0).1
    exact h1.symm.trans h2
  · rintro rfl
    exact hr

/-- The check by the ledgers' own indexes. -/
theorem accepts_iff (hlen : (batchEvents batch).length ≤ 128)
    (hkey : ∀ event ∈ batchEvents batch, isInstrumentKey (textField event "symbol") = true)
    (hread : Readable w token .investment) :
    Accepts P w token batch ↔ Backed P w batch ∧ NoneHidden P w batch ∧
      MarketConfirms P w batch (· = tradingDateOf batch) := by
  have haccepts : Accepts P w token batch ↔ DependenciesMet P w token batch :=
    accepts_of_decides (decides_validateCloseDependencies hlen hkey)
  rw [haccepts, ← marketMet_iff hread.1]
  have hindustry : ProposalsMet P w token .industry (industryDependents batch) "R1" ↔ _ :=
    proposalsMet_iff (by decide) hread
  have hcompany : ProposalsMet P w token .company (companyDependents batch) "R2" ↔ _ :=
    proposalsMet_iff (by decide) hread
  simp only [mem_industryDependents, and_imp] at hindustry
  simp only [mem_companyDependents, and_imp] at hcompany
  constructor
  · intro h
    obtain ⟨h1, h2⟩ := hindustry.1 h.industry
    obtain ⟨h3, h4⟩ := hcompany.1 h.company
    exact ⟨⟨h1, h3⟩, ⟨h2, h4⟩, h.market⟩
  · rintro ⟨hbacked, hnone, hmarket⟩
    exact ⟨hindustry.2 ⟨hbacked.industry, hnone.industry⟩,
      hcompany.2 ⟨hbacked.company, hnone.company⟩, hmarket⟩

end Checks

/-- **Close dependencies.** The check of a valid close batch accepts exactly what is met if and only if,
for a batch that the proposals back: the market confirms it on its Shanghai date exactly where it does on
the date that begins the text of `as_of` and no proposal is hidden. -/
theorem closeDependencies_iff (P : Runtime) (w : World) (token : String) (input : Json)
    (validated : ValidatedStateBatch) (hvalid : validateStateBatch P .CLOSE input = .ok validated)
    (hread : Readable w token .investment) :
    (Accepts P w token validated.normalized_batch ↔ Met P w validated.normalized_batch) ↔
      (Backed P w validated.normalized_batch →
        (MarketConfirms P w validated.normalized_batch
            (IsShanghaiDate P (textField validated.normalized_batch "as_of")) ↔
          NoneHidden P w validated.normalized_batch ∧
            MarketConfirms P w validated.normalized_batch
              (· = tradingDateOf validated.normalized_batch))) := by
  obtain ⟨hlen, hkey⟩ := batchEvents_of_batchSchema (schema_of_validateInvestmentBatch hvalid).1
  have hmet : Met P w validated.normalized_batch ↔ Backed P w validated.normalized_batch ∧
      MarketConfirms P w validated.normalized_batch
        (IsShanghaiDate P (textField validated.normalized_batch "as_of")) :=
    ⟨fun h => ⟨h.backed, h.market⟩, fun h => ⟨h.1, h.2⟩⟩
  rw [accepts_iff hlen hkey hread, hmet, and_congr_right_iff]
  exact forall_congr' fun _ => Iff.comm

/-! ## A hidden proposal -/

theorem readable_laterWorld : Readable laterWorld "token" .investment :=
  ⟨by decide, by decide⟩

/-- The close R1 is backed by the latest industry proposal, and it is refused: a later industry event
without a proposal hides it. -/
theorem hidden_proposal_refused :
    validateStateBatch replayRuntime .CLOSE closeR1 = .ok closeValidated ∧
      Readable laterWorld "token" .investment ∧ Met replayRuntime laterWorld closeR1 ∧
      ¬ Accepts replayRuntime laterWorld "token" closeR1 := by
  have hevents : batchEvents closeR1 = [exampleEvent [("effective_r_state", .str "R1")]] := rfl
  have hlatest : latestRProposal (roleEvents .industry
      [⟨"1", commentUrl .investment 1, "2026-09-30T01:00:01Z", enrichBatch .industry industryR1⟩,
        ⟨"3", commentUrl .investment 3, "2026-10-01T01:00:01Z",
          enrichBatch .industry industryLater⟩]) "CN:600000" = some "R1" := by
    decide
  have hlast : (latestBySymbol (roleEvents .industry
      [⟨"1", commentUrl .investment 1, "2026-09-30T01:00:01Z", enrichBatch .industry industryR1⟩,
        ⟨"3", commentUrl .investment 3, "2026-10-01T01:00:01Z",
          enrichBatch .industry industryLater⟩]) "CN:600000").map isRProposal = some false := by
    decide
  rw [← roleComments_laterWorld] at hlatest hlast
  have hindustry : latestRProposal (recordedEvents replayRuntime laterWorld .industry) "CN:600000" =
      some "R1" := hlatest
  refine ⟨validate_closeR1, readable_laterWorld, ⟨⟨?_, ?_⟩, ?_⟩, ?_⟩
  · intro event hevent _
    obtain rfl := List.mem_singleton.1 (hevents ▸ hevent)
    exact hindustry
  · intro event hevent hstate
    obtain rfl := List.mem_singleton.1 (hevents ▸ hevent)
    exact absurd hstate (by decide)
  · intro event hevent hstate
    obtain rfl := List.mem_singleton.1 (hevents ▸ hevent)
    exact absurd hstate (by decide)
  · obtain ⟨hlen, hkey⟩ := batchEvents_of_batchSchema
      (schema_of_validateInvestmentBatch validate_closeR1).1
    intro haccepts
    have hnone := ((accepts_iff hlen hkey readable_laterWorld).1 haccepts).2.1
    obtain ⟨latest, hbySymbol, hr⟩ := Option.map_eq_some_iff.1 hlast
    have hmem : exampleEvent [("effective_r_state", .str "R1")] ∈ batchEvents closeR1 := by
      rw [hevents]
      exact List.mem_singleton_self _
    exact hnone.industry _ hmem rfl ⟨latest, hbySymbol, hr, Option.isSome_iff_exists.2 ⟨_, hindustry⟩⟩

/-- The refused close R1. -/
theorem closeDependencies_iff_closeR1 :
    (Accepts replayRuntime laterWorld "token" closeR1 ↔ Met replayRuntime laterWorld closeR1) ↔
      (Backed replayRuntime laterWorld closeR1 →
        (MarketConfirms replayRuntime laterWorld closeR1
            (IsShanghaiDate replayRuntime (textField closeR1 "as_of")) ↔
          NoneHidden replayRuntime laterWorld closeR1 ∧
            MarketConfirms replayRuntime laterWorld closeR1 (· = tradingDateOf closeR1))) :=
  closeDependencies_iff replayRuntime laterWorld "token" closeR1 closeValidated validate_closeR1
    readable_laterWorld

end QuantproCollector.StateGateway
