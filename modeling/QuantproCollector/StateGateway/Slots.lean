import QuantproCollector.StateGateway.Commands
import QuantproCollector.StateGateway.Reading

/-!
# Attempts at one market slot

The first reservation of a slot's write key fixes the payload hash of its receipt, whatever becomes
of the attempt. A later attempt goes on to the append if and only if the receipt is not there, or
carries its own hash, is not settled or refused, and is not leased to another attempt.
-/

namespace QuantproCollector.StateGateway

open Relational Async

/-- The reservation of an attempt that nothing disturbs. -/
def reservationAt (w : World) (l : LeaseRequest) : Reservation :=
  let r := (receiptFor w l.writeKey).getD
    (freshReceipt l.writeKey l.channel l.payloadSha256 l.now)
  if r.payload_sha256 ≠ l.payloadSha256 ∨ r.channel ≠ l.channel then
    ⟨false, { r with status := .CONFLICT }⟩
  else if r.settled then ⟨false, r⟩
  else
    let leased := if l.applies r then l.apply r else r
    ⟨decide (leased.lease_owner = some l.requestId), leased⟩

section Reservation

variable {P : Runtime} {t : ℕ} {tr : List (Call Op World {ch : Choice // ch.Calm})} {w : World}

/-- Undisturbed, a reservation is a function of the receipt. -/
theorem ensures_reserveStateWrite {writeKey sha requestId now leaseUntil : String}
    {channel : StateWriteChannel} (hlease : P.addSeconds now LEASE_SECONDS = some leaseUntil) :
    (calm P).Ensures t Eq
      (fun r _ _ => r = .ok (reservationAt w ⟨writeKey, channel, sha, requestId, leaseUntil, now⟩))
      (reserveStateWrite P writeKey channel sha requestId now) tr w := by
  obtain ⟨r, hr⟩ : ∃ r, (receiptFor w writeKey).getD (freshReceipt writeKey channel sha now) = r :=
    ⟨_, rfl⟩
  have hfor : receiptFor (w.insertReceipt writeKey channel sha now) writeKey = some r := by
    rw [receiptFor_insertReceipt, hr]
  unfold reserveStateWrite
  rintro _ rfl ch
  rw [calm_insertReceipt]
  rintro _ rfl ch
  rw [calm_selectReceipt, hfor]
  unfold reservationAt
  simp only [hr]
  change (calm P).Ensures t Eq _ (if r.payload_sha256 ≠ sha ∨ r.channel ≠ channel then _ else
    if r.settled = true then _ else _) _ (w.insertReceipt writeKey channel sha now)
  by_cases hconflict : r.payload_sha256 ≠ sha ∨ r.channel ≠ channel
  · rw [if_pos hconflict, if_pos hconflict]
    exact fun _ _ => rfl
  · rw [if_neg hconflict, if_neg hconflict]
    by_cases hsettled : r.settled = true
    · rw [if_pos hsettled, if_pos hsettled]
      exact fun _ _ => rfl
    · rw [if_neg hsettled, if_neg hsettled, hlease]
      rintro _ rfl ch
      rw [calm_leaseReceipt]
      rintro _ rfl ch
      rw [calm_selectReceipt, receiptFor_leaseReceipt, hfor]
      exact fun _ _ => rfl

end Reservation

/-! ## The append step -/

section Append

variable {P : Runtime} {input : StateAppendInput} {validated : ValidatedStateBatch}
  {requestId writeKey sha : String}

/-- The append of a reserved write makes at least one call. -/
theorem settle_ne_halt (r : Except Thrown StateAppendResult) :
    settle P input validated requestId writeKey sha ≠ Script.halt r := by
  unfold settle
  cases h : appendLedger P input.token input.channel validated.normalized_batch with
  | halt result =>
    cases result with
    | ok result => exact fun heq => nomatch heq
    | error t => exact fun heq => nomatch heq
  | call op next => exact fun heq => nomatch heq

/-- A reservation goes on to the append where it was acquired and its receipt is not refused. -/
theorem continueReserved_eq_settle_iff {reservation : Reservation} :
    continueReserved P input validated requestId writeKey sha reservation =
        settle P input validated requestId writeKey sha ↔
      reservation.receipt.status ≠ .CONFLICT ∧ reservation.acquired = true := by
  unfold continueReserved
  by_cases hstatus : reservation.receipt.status = .CONFLICT
  · rw [if_pos hstatus]
    exact ⟨fun h => absurd h.symm (settle_ne_halt _), fun h => absurd hstatus h.1⟩
  · rw [if_neg hstatus]
    cases hacq : reservation.acquired with
    | true => simp [hstatus]
    | false =>
      simp only [Bool.not_false, if_true]
      refine ⟨fun h => ?_, fun h => absurd h.2 (by simp)⟩
      split_ifs at h
      · exact absurd h.symm (settle_ne_halt _)
      · exact absurd h.symm (settle_ne_halt _)

/-- An attempt at a market slot whose checkpoint is valid: its id, the clock, its reservation and what
follows. -/
def attemptAt (P : Runtime) (input : StateAppendInput) (validated : ValidatedStateBatch) :
    Program StateAppendResult := do
  let writeKey := input.writeKey.getD validated.write_key
  let sha := input.payloadSha256.getD validated.payload_sha256
  let requestId ← givenOr input.requestId randomHex
  let now ← givenOr input.now clock
  let reservation ← reserveStateWrite P writeKey .MARKET sha requestId now
  continueReserved P input validated requestId writeKey sha reservation

theorem appendStateBatch_market (hchannel : input.channel = .MARKET)
    (hvalid : validateStateBatch P .MARKET input.batch = .ok validated) :
    appendStateBatch P input = attemptAt P input validated := by
  have hanswer : validateAppend P input = pure validated := by
    simp [validateAppend, hchannel, hvalid, Script.pure_eq]
  unfold appendStateBatch
  rw [hanswer, hchannel]
  rfl

end Append

/-- The reservation that an undisturbed attempt gets. -/
def reserveAlone (P : Runtime) (w : World) (writeKey sha requestId now : String)
    (choices : ℕ → {ch : Choice // ch.Calm}) : Except Thrown Reservation :=
  ((calm P).run 0 choices (reserveStateWrite P writeKey .MARKET sha requestId now) 0 [] w).1

/-- The attempt is not answered by the receipt layer, and goes on to the append. -/
def ReachesAppend (P : Runtime) (w : World) (input : StateAppendInput)
    (validated : ValidatedStateBatch) (requestId now : String)
    (choices : ℕ → {ch : Choice // ch.Calm}) : Prop :=
  let writeKey := input.writeKey.getD validated.write_key
  let sha := input.payloadSha256.getD validated.payload_sha256
  ∃ reservation, reserveAlone P w writeKey sha requestId now choices = .ok reservation ∧
    continueReserved P input validated requestId writeKey sha reservation =
      settle P input validated requestId writeKey sha

/-- No receipt of the write key stands against an attempt: one that is there carries the attempt's
payload hash, is neither settled nor refused, and is not leased to another attempt. -/
def SlotFree (w : World) (writeKey sha requestId now : String) : Prop :=
  ∀ r, receiptFor w writeKey = some r → r.payload_sha256 = sha ∧ r.channel = .MARKET ∧
    r.settled = false ∧ r.status ≠ .CONFLICT ∧ r.leaseFree requestId now

theorem slotFree_iff {w : World} {writeKey sha requestId now : String} (leaseUntil : String) :
    ((reservationAt w ⟨writeKey, .MARKET, sha, requestId, leaseUntil, now⟩).receipt.status ≠
        .CONFLICT ∧
      (reservationAt w ⟨writeKey, .MARKET, sha, requestId, leaseUntil, now⟩).acquired = true) ↔
      SlotFree w writeKey sha requestId now := by
  unfold reservationAt SlotFree
  cases hfor : receiptFor w writeKey with
  | none => simp [freshReceipt, StateWriteReceipt.settled, LeaseRequest.applies, LeaseRequest.apply,
      StateWriteReceipt.leaseFree]
  | some r =>
    have hkey : r.write_key = writeKey := (receiptFor_eq_some.1 hfor).2
    by_cases hconflict : r.payload_sha256 ≠ sha ∨ r.channel ≠ .MARKET
    · simp only [Option.getD_some, if_pos hconflict]
      rcases hconflict with h | h
      · simp [h]
      · simp [h]
    · rw [not_or, not_ne_iff, not_ne_iff] at hconflict
      obtain ⟨hsha, hchannel⟩ := hconflict
      by_cases hsettled : r.settled = true
      · simp [hsha, hchannel, hsettled]
      · obtain ⟨hpersisted, hreplay⟩ : r.status ≠ .PERSISTED ∧ r.status ≠ .IDEMPOTENT_REPLAY := by
          simpa [StateWriteReceipt.settled] using hsettled
        by_cases happ : r.status ≠ .CONFLICT ∧ r.leaseFree requestId now
        · have happlies : LeaseRequest.applies ⟨writeKey, .MARKET, sha, requestId, leaseUntil, now⟩ r =
              true := decide_eq_true ⟨hkey, hsha, hchannel, ⟨hpersisted, hreplay, happ.1⟩, happ.2⟩
          simp [hsha, hchannel, hsettled, happlies, LeaseRequest.apply, happ]
        · have hnot : LeaseRequest.applies ⟨writeKey, .MARKET, sha, requestId, leaseUntil, now⟩ r =
              false := decide_eq_false fun h => happ ⟨h.2.2.2.1.2.2, h.2.2.2.2⟩
          have howner : r.status ≠ .CONFLICT → r.lease_owner ≠ some requestId :=
            fun hs ho => happ ⟨hs, .inr (.inr (.inr ho))⟩
          simp only [Option.getD_some, hsha, hchannel, hsettled, hnot, ne_eq, not_true, or_self,
            if_false, Bool.false_eq_true, decide_eq_true_eq, Option.some.injEq, forall_eq',
            true_and]
          constructor
          · rintro ⟨hs, ho⟩
            exact absurd ho (howner hs)
          · rintro ⟨hs, hf⟩
            exact absurd ⟨hs, hf⟩ happ

/-! ## Runs of attempts -/

/-- The call leaves nothing against an attempt with the hash at the time: the reservations of the
write key carry the hash, its leases run out before, and its finalisations neither settle the
receipt nor refuse it. -/
def LeavesFree (writeKey sha now : String) (k : Call Op World Choice) : Prop :=
  match k.op with
  | .insertReceipt key channel sha' _ => key = writeKey → sha' = sha ∧ channel = .MARKET
  | .leaseReceipt l => l.writeKey = writeKey → l.leaseUntil < now
  | .finalizeReceipt f => f.writeKey = writeKey →
    f.status ≠ .PERSISTED ∧ f.status ≠ .IDEMPOTENT_REPLAY ∧ f.status ≠ .CONFLICT
  | _ => True

/-- The slot is free for whoever asks at the time. -/
def SlotOpen (w : World) (writeKey sha now : String) : Prop :=
  ∀ requestId, SlotFree w writeKey sha requestId now

theorem slotOpen_of_receipts {w w' : World} {writeKey sha now : String}
    (h : SlotOpen w writeKey sha now) (heq : w'.receipts = w.receipts) :
    SlotOpen w' writeKey sha now := by
  intro requestId r hr
  refine h requestId r ?_
  rw [← hr, receiptFor, receiptFor, heq]

theorem slotOpen_insertReceipt {w : World} {writeKey sha now key sha' at_ : String}
    {channel : StateWriteChannel} (h : SlotOpen w writeKey sha now)
    (hkey : key = writeKey → sha' = sha ∧ channel = .MARKET) :
    SlotOpen (w.insertReceipt key channel sha' at_) writeKey sha now := by
  intro requestId r hr
  obtain ⟨hmem, hk⟩ := receiptFor_eq_some.1 hr
  have hrow : r ∈ w.receipts.upsert (freshReceipt key channel sha' at_) id (fun _ => rfl) := hmem
  rcases Table.mem_upsert.1 hrow with ⟨hr', -⟩ | ⟨a, ha, -, rfl⟩ | ⟨rfl, -⟩
  · exact h requestId r (receiptFor_eq_some.2 ⟨hr', hk⟩)
  · exact h requestId a (receiptFor_eq_some.2 ⟨ha, hk⟩)
  · obtain ⟨rfl, rfl⟩ := hkey hk
    exact ⟨rfl, rfl, rfl, by simp [freshReceipt], .inl rfl⟩

theorem slotOpen_leaseReceipt {w : World} {writeKey sha now : String} {l : LeaseRequest}
    (h : SlotOpen w writeKey sha now) (hlease : l.writeKey = writeKey → l.leaseUntil < now) :
    SlotOpen (w.leaseReceipt l) writeKey sha now := by
  intro requestId r hr
  rw [receiptFor_leaseReceipt] at hr
  obtain ⟨a, ha, rfl⟩ := Option.map_eq_some_iff.1 hr
  obtain ⟨hsha, hchannel, hrest⟩ := h requestId a ha
  split_ifs with happ
  · have hkey : l.writeKey = writeKey :=
      (of_decide_eq_true happ).1.symm.trans (receiptFor_eq_some.1 ha).2
    exact ⟨hsha, hchannel, rfl, by simp [LeaseRequest.apply],
      .inr (.inr (.inl ⟨l.leaseUntil, rfl, hlease hkey⟩))⟩
  · exact ⟨hsha, hchannel, hrest⟩

theorem slotOpen_finalizeReceipt {w : World} {writeKey sha now : String} {f : FinalizeRequest}
    (h : SlotOpen w writeKey sha now) (hstatus : f.writeKey = writeKey →
      f.status ≠ .PERSISTED ∧ f.status ≠ .IDEMPOTENT_REPLAY ∧ f.status ≠ .CONFLICT) :
    SlotOpen (w.finalizeReceipt f) writeKey sha now := by
  intro requestId r hr
  rw [receiptFor_finalizeReceipt] at hr
  obtain ⟨a, ha, rfl⟩ := Option.map_eq_some_iff.1 hr
  obtain ⟨hsha, hchannel, hrest⟩ := h requestId a ha
  split_ifs with happ
  · have hkey : f.writeKey = writeKey :=
      (of_decide_eq_true happ).1.symm.trans (receiptFor_eq_some.1 ha).2
    obtain ⟨hp, hi, hc⟩ := hstatus hkey
    exact ⟨hsha, hchannel, by simp [StateWriteReceipt.settled, FinalizeRequest.apply, hp, hi], hc,
      .inl rfl⟩
  · exact ⟨hsha, hchannel, hrest⟩

theorem slotOpen_statement {α : Type} {f : Fault} {w : World} {r : Except Thrown α × World}
    {writeKey sha now : String} (h : SlotOpen w writeKey sha now)
    (h' : SlotOpen r.2 writeKey sha now) : SlotOpen (f.statement w r).2 writeKey sha now := by
  cases f
  · exact h'
  · exact h
  · exact h'

/-- A call that leaves nothing against the slot keeps it open. -/
theorem slotOpen_call {P : Runtime} {k : Call Op World Choice} {writeKey sha now : String}
    (h : SlotOpen k.before writeKey sha now) (hk : LeavesFree writeKey sha now k) :
    SlotOpen ((machine P).after k) writeKey sha now := by
  obtain ⟨t, op, ch, w⟩ := k
  cases op with
  | insertReceipt key channel sha' at_ =>
    exact slotOpen_statement h (slotOpen_insertReceipt h hk)
  | leaseReceipt l => exact slotOpen_statement h (slotOpen_leaseReceipt h hk)
  | finalizeReceipt f => exact slotOpen_statement h (slotOpen_finalizeReceipt h hk)
  | fetch request =>
    refine slotOpen_of_receipts h ?_
    cases request with
    | create l body =>
      change (if ch.accepted then w.addComment l _ else w).receipts = w.receipts
      split_ifs
      · exact World.addComment_receipts ..
      · rfl
    | _ => rfl
  | insertRun row =>
    refine slotOpen_statement h (slotOpen_of_receipts h ?_)
    unfold World.insertRun
    split
    · rfl
    · split
      · rfl
      · rfl
  | updateRun u => exact slotOpen_statement h (slotOpen_of_receipts h rfl)
  | selectReceipt key => exact slotOpen_statement h h
  | selectRun task key => exact slotOpen_statement h h
  | _ => exact h

/-- The threads of some attempts. -/
def attempts (P : Runtime) (inputs : List StateAppendInput) (t : ℕ) : Program StateAppendResult :=
  (inputs[t]?).elim (throw .raw) (appendStateBatch P)

/-- A slot that was never reserved stays open in every run whose calls leave nothing against it. -/
theorem slotOpen_run {P : Runtime} {inputs : List StateAppendInput} {w : World}
    {writeKey sha now : String} (h0 : receiptFor w writeKey = none) (es : List (ℕ × Choice))
    (hlog : ∀ k ∈ ((machine P).exec (Config.start w (attempts P inputs)) es).log,
      LeavesFree writeKey sha now k) :
    SlotOpen ((machine P).exec (Config.start w (attempts P inputs)) es).world writeKey sha now := by
  refine Machine.exec_induction (M := machine P) (P := fun c =>
    (∀ k ∈ c.log, LeavesFree writeKey sha now k) → SlotOpen c.world writeKey sha now) ?_ es ?_ hlog
  · intro c e ih hlog
    rcases Machine.step_cases (M := machine P) c e with hs | ⟨op, next, -, hs⟩
    · rw [hs] at hlog ⊢
      exact ih hlog
    · rw [hs] at hlog ⊢
      have hc := ih fun k hk => hlog k (List.mem_cons_of_mem _ hk)
      exact slotOpen_call (k := ⟨e.1, op, e.2, c.world⟩) hc (hlog _ List.mem_cons_self)
  · intro _ requestId r hr
    rw [show receiptFor (Config.start w (attempts P inputs) :
      Config Thrown Op Res World Choice StateAppendResult).world writeKey = none from h0] at hr
    cases hr

/-- A runtime whose digest is the text itself, on one morning. -/
def slotRuntime : Runtime :=
  { tableRuntime [] [("2026-09-30T01:50:00.000Z", 1790733000000)]
      [("2026-09-30T01:50:00.000Z", "2026-09-30T01:52:00.000Z"),
        ("2026-09-30T01:55:00.000Z", "2026-09-30T01:57:00.000Z")] with
    sha256Hex := id
    daysBefore := fun _ _ => some "2026-08-01T00:00:00.000Z" }

/-- The 09:50 checkpoint of a day, with its link to an earlier one. -/
def slotCheckpoint (previous : Json) : Json :=
  .obj [("schema_version", .str "market_observation_batch_v1"), ("prompt_id", .str HOLDING_ASSISTANT),
    ("production_ref", .str "0123456789abcdef0123456789abcdef01234567"),
    ("portfolio_version", .str "p1"), ("event_id", .str (marketEventId "2026-09-30" "09:50")),
    ("idempotency_key", .str (slotKey "2026-09-30" "09:50")), ("trading_date", .str "2026-09-30"),
    ("as_of", .str "2026-09-30T01:50:00.000Z"), ("scheduled_slot", .str "09:50"),
    ("producer", .str HOLDING_ASSISTANT), ("observation_type", .str "INTRADAY"),
    ("previous_checkpoint_comment_id", previous), ("preopen_comment_id", .null),
    ("live_universe_hash", .str "u1"), ("source_task", .str "持仓助手"), ("records", .arr [])]

def slotInput (previous : Json) (now requestId : String) : StateAppendInput where
  token := "t"
  channel := .MARKET
  batch := slotCheckpoint previous
  now := some now
  requestId := some requestId
  writeKey := none
  payloadSha256 := none
  envelopeKey := none
  eventCount := none

def calmChoice : Choice :=
  ⟨"2026-09-30T01:50:00.000Z", "", .ok ⟨"p1", "u1"⟩, .none, .honest, true⟩

def slotValidated (previous : Json) : ValidatedStateBatch :=
  ⟨slotKey "2026-09-30" "09:50", (slotCheckpoint previous).rebuiltText,
    "market_observation_batch_v1", slotCheckpoint previous⟩

theorem calm_calmChoice : calmChoice.Calm := ⟨rfl, rfl, ⟨_, rfl⟩⟩

theorem validate_slotCheckpoint_of {previous : Json}
    (hschema : MARKET_CHECKPOINT_INPUT_SCHEMA (slotCheckpoint previous) =
      some (slotCheckpoint previous))
    (hrelations : validateCheckpointRelations slotRuntime (slotCheckpoint previous) = .ok ()) :
    validateStateBatch slotRuntime .MARKET (slotCheckpoint previous) =
      .ok (slotValidated previous) := by
  have hproducer : ¬ (textField (slotCheckpoint previous) "prompt_id" ≠ HOLDING_ASSISTANT ∨
      textField (slotCheckpoint previous) "producer" ≠ HOLDING_ASSISTANT ∨
        textField (slotCheckpoint previous) "source_task" ≠ "持仓助手") := by
    rintro (h | h | h)
    · exact h rfl
    · exact h rfl
    · exact h rfl
  change validateMarketBatch slotRuntime (slotCheckpoint previous) = _
  simp only [validateMarketBatch, hschema, hrelations, if_neg hproducer]
  rfl

theorem validate_slotCheckpoint :
    validateStateBatch slotRuntime .MARKET (slotCheckpoint .null) = .ok (slotValidated .null) :=
  validate_slotCheckpoint_of (by decide) (by decide)

/-- The receipt that the first attempt at a slot leases. -/
def slotReceipt (sha : String) : StateWriteReceipt :=
  (LeaseRequest.mk (slotKey "2026-09-30" "09:50") .MARKET sha "r1" "2026-09-30T01:52:00.000Z"
    "2026-09-30T01:50:00.000Z").apply
    (freshReceipt (slotKey "2026-09-30" "09:50") .MARKET sha "2026-09-30T01:50:00.000Z")

def slotWorld (sha : String) : World :=
  { World.empty with
    receipts := ⟨[slotReceipt sha], fun _ _ => List.pairwise_singleton _ _⟩ }

theorem leaseReceipt_slot (sha : String) :
    (World.empty.insertReceipt (slotKey "2026-09-30" "09:50") .MARKET sha
      "2026-09-30T01:50:00.000Z").leaseReceipt
        ⟨slotKey "2026-09-30" "09:50", .MARKET, sha, "r1", "2026-09-30T01:52:00.000Z",
          "2026-09-30T01:50:00.000Z"⟩ = slotWorld sha := by
  have happ : LeaseRequest.applies ⟨slotKey "2026-09-30" "09:50", .MARKET, sha, "r1",
      "2026-09-30T01:52:00.000Z", "2026-09-30T01:50:00.000Z"⟩
      (freshReceipt (slotKey "2026-09-30" "09:50") .MARKET sha "2026-09-30T01:50:00.000Z") = true :=
    decide_eq_true ⟨rfl, rfl, rfl, by simp [freshReceipt], .inl rfl⟩
  have hrows : ((World.empty.insertReceipt (slotKey "2026-09-30" "09:50") .MARKET sha
      "2026-09-30T01:50:00.000Z").leaseReceipt
        ⟨slotKey "2026-09-30" "09:50", .MARKET, sha, "r1", "2026-09-30T01:52:00.000Z",
          "2026-09-30T01:50:00.000Z"⟩).receipts.rows = [slotReceipt sha] := by
    change [if _ then _ else _] = _
    rw [if_pos happ]
    rfl
  unfold World.leaseReceipt slotWorld
  congr 1
  exact Table.ext' hrows


/-- The slot's first attempt reserves it. -/
theorem run_reserveStateWrite_slot (sha : String) :
    let r := (machine slotRuntime).run 0 (fun _ => calmChoice)
        (reserveStateWrite slotRuntime (slotKey "2026-09-30" "09:50") .MARKET sha "r1"
          "2026-09-30T01:50:00.000Z") 0 [] World.empty
    r.1 = .ok ⟨true, slotReceipt sha⟩ ∧ r.2.2 = slotWorld sha ∧ ∀ k ∈ r.2.1, k.op.posts = false := by
  have hfresh : ¬ (sha ≠ sha ∨ StateWriteChannel.MARKET ≠ .MARKET) := by simp
  have hrun : (machine slotRuntime).run 0 (fun _ => calmChoice)
      (reserveStateWrite slotRuntime (slotKey "2026-09-30" "09:50") .MARKET sha "r1"
        "2026-09-30T01:50:00.000Z") 0 [] World.empty =
      (machine slotRuntime).run 0 (fun _ => calmChoice) (do
        let receipt ← storedReceipt (← selectReceipt (slotKey "2026-09-30" "09:50"))
        return ⟨receipt.lease_owner = some "r1", receipt⟩) 3
        [⟨0, .leaseReceipt ⟨slotKey "2026-09-30" "09:50", .MARKET, sha, "r1",
            "2026-09-30T01:52:00.000Z", "2026-09-30T01:50:00.000Z"⟩, calmChoice,
            World.empty.insertReceipt (slotKey "2026-09-30" "09:50") .MARKET sha
              "2026-09-30T01:50:00.000Z"⟩,
          ⟨0, .selectReceipt (slotKey "2026-09-30" "09:50"), calmChoice,
            World.empty.insertReceipt (slotKey "2026-09-30" "09:50") .MARKET sha
              "2026-09-30T01:50:00.000Z"⟩,
          ⟨0, .insertReceipt (slotKey "2026-09-30" "09:50") .MARKET sha
            "2026-09-30T01:50:00.000Z", calmChoice, World.empty⟩] (slotWorld sha) := by
    unfold reserveStateWrite
    change (machine slotRuntime).run 0 (fun _ => calmChoice)
      (if sha ≠ sha ∨ StateWriteChannel.MARKET ≠ .MARKET then _ else _) _ _ _ = _
    rw [if_neg hfresh, ← leaseReceipt_slot]
    rfl
  rw [hrun]
  exact ⟨rfl, rfl, List.forall_mem_cons.2 ⟨rfl, List.forall_mem_cons.2
    ⟨rfl, List.forall_mem_cons.2 ⟨rfl, List.forall_mem_cons.2 ⟨rfl, by simp⟩⟩⟩⟩⟩

/-- What follows the reservation fails without a post, and keeps the payload of the receipt. -/
theorem run_settle_linked (sha : String) :
    let r := (machine slotRuntime).run 0 (fun _ => calmChoice)
      (continueReserved slotRuntime (slotInput (.str "5") "2026-09-30T01:50:00.000Z" "r1")
        (slotValidated (.str "5")) "r1" (slotKey "2026-09-30" "09:50") sha ⟨true, slotReceipt sha⟩)
      0 [] (slotWorld sha)
    (r.2.1.all (fun k => !k.op.posts), r.2.2.market,
        r.2.2.receipts.rows.map fun r => (r.write_key, r.payload_sha256)) =
      (true, [], [(slotKey "2026-09-30" "09:50", sha)]) := by
  rfl

theorem rebuiltText_slotCheckpoint_ne :
    (slotCheckpoint (.str "5")).rebuiltText ≠ (slotCheckpoint .null).rebuiltText := by
  intro h
  have hchars : ((slotCheckpoint (.str "5")).canonicalize Json.propertyLe).chars ≠
      ((slotCheckpoint .null).canonicalize Json.propertyLe).chars := by decide +kernel
  exact hchars (String.ofList_inj.1 h)

theorem appendStateBatch_slot {previous : Json} {now requestId : String}
    (hvalid : validateStateBatch slotRuntime .MARKET (slotCheckpoint previous) =
      .ok (slotValidated previous)) :
    appendStateBatch slotRuntime (slotInput previous now requestId) =
      reserveStateWrite slotRuntime (slotKey "2026-09-30" "09:50") .MARKET
          (slotCheckpoint previous).rebuiltText requestId now >>=
        continueReserved slotRuntime (slotInput previous now requestId) (slotValidated previous)
          requestId (slotKey "2026-09-30" "09:50") (slotCheckpoint previous).rebuiltText := by
  have hattempt : appendStateBatch slotRuntime (slotInput previous now requestId) = attemptAt _ _ _ :=
    appendStateBatch_market rfl hvalid
  rw [hattempt]
  rfl

/-- The first attempt posts nothing, and its receipt keeps its payload. -/
theorem run_linked :
    let r := (machine slotRuntime).run 0 (fun _ => calmChoice)
      (appendStateBatch slotRuntime (slotInput (.str "5") "2026-09-30T01:50:00.000Z" "r1")) 0 []
      World.empty
    (∀ k ∈ r.2.1, k.op.posts = false) ∧ r.2.2.market = [] ∧
      r.2.2.receipts.rows.map (fun r => (r.write_key, r.payload_sha256)) =
        [(slotKey "2026-09-30" "09:50", (slotCheckpoint (.str "5")).rebuiltText)] := by
  have hvalid : validateStateBatch slotRuntime .MARKET (slotCheckpoint (.str "5")) =
      .ok (slotValidated (.str "5")) :=
    validate_slotCheckpoint_of (by decide) (by decide)
  obtain ⟨hres, hworld, hposts⟩ :=
    run_reserveStateWrite_slot (slotCheckpoint (.str "5")).rebuiltText
  have hsettle := run_settle_linked (slotCheckpoint (.str "5")).rebuiltText
  have hrun := Machine.run_constant_bind calmChoice (continueReserved slotRuntime
    (slotInput (.str "5") "2026-09-30T01:50:00.000Z" "r1") (slotValidated (.str "5")) "r1"
    (slotKey "2026-09-30" "09:50") (slotCheckpoint (.str "5")).rebuiltText) _ hres hworld
  rw [← appendStateBatch_slot hvalid] at hrun
  generalize (machine slotRuntime).run 0 (fun _ => calmChoice) (continueReserved ..) 0 [] _ = x
    at hrun hsettle
  obtain ⟨answer, new, w⟩ := x
  simp only [Prod.mk.injEq, List.all_eq_true] at hsettle
  obtain ⟨hposts', hmarket, hrows⟩ := hsettle
  rw [hrun]
  refine ⟨?_, hmarket, hrows⟩
  intro k hk
  rcases List.mem_append.1 hk with hk | hk
  · simpa using hposts' k hk
  · exact hposts k hk

/-- An attempt is refused by the receipt of another payload. -/
theorem run_refused {w : World} {sha : String} (hne : sha ≠ (slotCheckpoint .null).rebuiltText)
    (hrows : w.receipts.rows.map (fun r => (r.write_key, r.payload_sha256)) =
      [(slotKey "2026-09-30" "09:50", sha)]) :
    ((machine slotRuntime).run 0 (fun _ => calmChoice)
      (appendStateBatch slotRuntime (slotInput .null "2026-09-30T01:55:00.000Z" "r2")) 0 [] w).1 =
      .error (.refusal .STATE_CONFLICT .RECONCILE
        "write_key already exists with different channel or payload") := by
  obtain ⟨r, hr, hkey⟩ := List.map_eq_singleton_iff.1 hrows
  obtain ⟨hkey, rfl⟩ := Prod.mk.inj hkey
  have hfor : receiptFor w (slotKey "2026-09-30" "09:50") = some r := by
    unfold receiptFor Table.find?
    rw [hr, List.find?_cons_of_pos (by simpa using hkey)]
  have hreserve : ((machine slotRuntime).run 0 (fun _ => calmChoice)
      (reserveStateWrite slotRuntime (slotKey "2026-09-30" "09:50") .MARKET
        (slotCheckpoint .null).rebuiltText "r2" "2026-09-30T01:55:00.000Z") 0 [] w).1 =
      .ok ⟨false, { r with status := .CONFLICT }⟩ := by
    have hens : (calm slotRuntime).Ensures 0 Eq
        (fun r _ _ => r = .ok (reservationAt w ⟨slotKey "2026-09-30" "09:50", .MARKET,
          (slotCheckpoint .null).rebuiltText, "r2", "2026-09-30T01:57:00.000Z",
          "2026-09-30T01:55:00.000Z"⟩))
        (reserveStateWrite slotRuntime (slotKey "2026-09-30" "09:50") .MARKET
          (slotCheckpoint .null).rebuiltText "r2" "2026-09-30T01:55:00.000Z") [] w :=
      ensures_reserveStateWrite (show slotRuntime.addSeconds "2026-09-30T01:55:00.000Z" LEASE_SECONDS =
        some "2026-09-30T01:57:00.000Z" by decide)
    have hans := hens.run (fun _ => ⟨calmChoice, calm_calmChoice⟩) 0
    rw [reservationAt, hfor, Option.getD_some, if_pos (.inl hne)] at hans
    rw [← hans]
    exact (Machine.run_among (M := machine slotRuntime)
      (fun _ => ⟨calmChoice, calm_calmChoice⟩) _ 0 [] [] w).1.symm
  rw [appendStateBatch_slot validate_slotCheckpoint, Machine.run_constant_bind calmChoice _ _ hreserve rfl]
  rfl

end QuantproCollector.StateGateway
