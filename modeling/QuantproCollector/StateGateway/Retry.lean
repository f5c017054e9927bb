import QuantproCollector.Lib.JsonUnique
import QuantproCollector.StateGateway.Replay
import QuantproCollector.StateGateway.Slots

/-!
# Retrying an investment command

A command is resubmitted after its comment was written. Where the receipt is settled, the receipt
answers. Where it is not, the ledger does: it knows the batch by the digest in its event id, and
replays it only if the whole stored batch is the submitted one, stamps included.
-/

namespace QuantproCollector.StateGateway

open Json Relational Async

/-! ## The ledger's answer -/

/-- The comments of the role under the event id of a batch. -/
def commentsUnder (P : Runtime) (w : World) (role : InvestmentLedgerRole) (batch : Json) :
    List LedgerComment :=
  (roleComments P w role).filter fun c =>
    textField c.payload "event_id" = textField (enrichBatch role batch) "event_id"

/-- The ledger answers the batch with the comment: it can be read, the comment is the only one under
the batch's event id, and it holds the batch as submitted. -/
def AnsweredBy (P : Runtime) (w : World) (token : String) (role : InvestmentLedgerRole)
    (batch : Json) (id : String) : Prop :=
  Readable w token .investment ∧ ∃ existing, commentsUnder P w role batch = [existing] ∧
    existing.comment_id = id ∧ samePayload existing.payload (enrichBatch role batch) = true

section Ledger

variable {P : Runtime} {w : World} {token : String} {role : InvestmentLedgerRole} {batch : Json}

/-- The append of a valid batch reads the ledger, and decides by the comments under its event id. -/
def appendRead (role : InvestmentLedgerRole) (batch : Json)
    (comments : List LedgerComment) : Program AppendResult :=
  match comments.filter fun c =>
      textField c.payload "event_id" = textField (enrichBatch role batch) "event_id" with
  | [] => createAndReadBack investmentErrors toLedgerComment (enrichBatch role batch)
  | [existing] =>
    if samePayload existing.payload (enrichBatch role batch) then
      return ⟨.IDEMPOTENT_REPLAY, existing.comment_id, existing.url, existing.created_at,
        existing.payload⟩
    else
      throw (.investment .INVESTMENT_LEDGER_EVENT_ID_CONFLICT
        "event_id already exists with different or duplicate content" none)
  | _ =>
    throw (.investment .INVESTMENT_LEDGER_EVENT_ID_CONFLICT
      "event_id already exists with different or duplicate content" none)

theorem appendInvestmentLedgerBatch_eq (htoken : token ≠ "")
    (hschema : INVESTMENT_LEDGER_BATCH_INPUT_SCHEMA batch = some batch)
    (hrole : validateRoleSemantics P role batch = .ok ()) :
    appendInvestmentLedgerBatch P token role batch =
      fetchAllComments investmentErrors none >>= fun raw =>
        Script.halt (validRoleComments P raw role) >>= appendRead role batch := by
  unfold appendInvestmentLedgerBatch
  rw [hschema]
  dsimp only
  rw [hrole, if_neg htoken]
  rfl

/-- Where some comment is under the event id, the append only reads, and never persists. -/
theorem answers_appendInvestmentLedgerBatch (token id : String)
    (hschema : INVESTMENT_LEDGER_BATCH_INPUT_SCHEMA batch = some batch)
    (hrole : validateRoleSemantics P role batch = .ok ())
    (hsome : Readable w token .investment → commentsUnder P w role batch ≠ []) :
    ∃ answer, Answers P w (appendInvestmentLedgerBatch P token role batch) answer ∧
      (∀ a, answer = .ok a → a.status = .IDEMPOTENT_REPLAY) ∧
      (AnsweredBy P w token role batch id ↔ ∃ a, answer = .ok a ∧ a.comment_id = id) := by
  by_cases htoken : token = ""
  · refine ⟨.error (investmentErrors.unavailable "RESEARCH GitHub credential is unavailable" none),
      ?_, by simp, ?_⟩
    · unfold appendInvestmentLedgerBatch
      rw [hschema]
      dsimp only
      rw [hrole, if_pos htoken]
      rfl
    · simp [AnsweredBy, Readable, htoken]
  rw [appendInvestmentLedgerBatch_eq htoken hschema hrole]
  have hfetch := answers_fetchAllComments (P := P) (w := w) (e := investmentErrors) none
  rw [readComments_none] at hfetch
  by_cases hcount : (w.comments .investment).length ≤ MAX_COMMENTS
  · rw [if_pos (show (w.comments investmentErrors.ledger).length ≤ MAX_COMMENTS from hcount)] at hfetch
    have hread : Readable w token .investment := ⟨htoken, hcount⟩
    have hcomments : Script.halt (validRoleComments P
        ((w.comments investmentErrors.ledger).map Comment.json) role) >>= appendRead role batch =
        appendRead role batch (roleComments P w role) := by
      rw [show validRoleComments P ((w.comments investmentErrors.ledger).map Comment.json) role =
        .ok (roleComments P w role) from validRoleComments_json]
      rfl
    have hanswers : ∀ {answer : Except Thrown AppendResult},
        appendRead role batch (roleComments P w role) = Script.halt answer →
        Answers P w (fetchAllComments investmentErrors none >>= fun raw =>
          Script.halt (validRoleComments P raw role) >>= appendRead role batch) answer := by
      intro answer h
      refine hfetch.bind_ok ?_
      rw [hcomments, h]
      rfl
    unfold AnsweredBy
    have hmatch : (roleComments P w role).filter (fun c =>
      textField c.payload "event_id" = textField (enrichBatch role batch) "event_id") =
        commentsUnder P w role batch := rfl
    cases hunder : commentsUnder P w role batch with
    | nil => exact absurd hunder (hsome hread)
    | cons existing rest =>
      cases rest with
      | nil =>
        by_cases hsame : samePayload existing.payload (enrichBatch role batch) = true
        · refine ⟨.ok ⟨.IDEMPOTENT_REPLAY, existing.comment_id, existing.url, existing.created_at,
            existing.payload⟩, hanswers ?_, ?_, ?_⟩
          · unfold appendRead
            rw [hmatch, hunder]
            dsimp only
            rw [if_pos hsame]
            rfl
          · intro a ha
            rw [← Except.ok.inj ha]
          · simp [hread, hsame]
        · refine ⟨.error (.investment .INVESTMENT_LEDGER_EVENT_ID_CONFLICT
            "event_id already exists with different or duplicate content" none), hanswers ?_, by simp,
            ?_⟩
          · unfold appendRead
            rw [hmatch, hunder]
            dsimp only
            rw [if_neg hsame]
            rfl
          · simp [hsame]
      | cons other rest =>
        refine ⟨.error (.investment .INVESTMENT_LEDGER_EVENT_ID_CONFLICT
          "event_id already exists with different or duplicate content" none), hanswers ?_, by simp,
          by simp⟩
        unfold appendRead
        rw [hmatch, hunder]
        rfl
  · rw [if_neg (show ¬ (w.comments investmentErrors.ledger).length ≤ MAX_COMMENTS from hcount)] at hfetch
    refine ⟨_, hfetch.bind_error, by simp, ?_⟩
    simp [AnsweredBy, Readable, hcount]

/-- Where no comment is under the event id, the append posts. -/
theorem posts_appendInvestmentLedgerBatch {t : ℕ} {tr : List (Call Op World {ch : Choice // ch.Calm})}
    (hschema : INVESTMENT_LEDGER_BATCH_INPUT_SCHEMA batch = some batch)
    (hrole : validateRoleSemantics P role batch = .ok ()) (hread : Readable w token .investment)
    (hnone : commentsUnder P w role batch = []) :
    (calm P).Ensures t Eq (fun _ tr' _ => ∃ k ∈ tr', k.op.posts = true)
      (appendInvestmentLedgerBatch P token role batch) tr w := by
  rw [appendInvestmentLedgerBatch_eq hread.1 hschema hrole]
  have hfetch := answers_fetchAllComments (P := P) (w := w) (e := investmentErrors) none
  rw [readComments_none, if_pos (show (w.comments investmentErrors.ledger).length ≤ MAX_COMMENTS
    from hread.2)] at hfetch
  refine .bind (fun _ => rfl) (hfetch.ensures fun new _ => ?_)
  dsimp only
  rw [show validRoleComments P ((w.comments investmentErrors.ledger).map Comment.json) role =
    .ok (roleComments P w role) from validRoleComments_json]
  change (calm P).Ensures t Eq _ (appendRead role batch (roleComments P w role)) _ w
  unfold appendRead
  rw [show (roleComments P w role).filter (fun c => textField c.payload "event_id" =
    textField (enrichBatch role batch) "event_id") = [] from hnone]
  rintro _ rfl ch
  exact Machine.ensures_of_call (p := fun k : Call Op World {ch : Choice // ch.Calm} => k.op.posts = true)
    ⟨_, List.mem_cons_self, rfl⟩ _ _

end Ledger

/-! ## The gateway's answer -/

/-- The append ends in a replay of the comment without a post exactly where the condition holds. -/
def ReplaysUnder (id : String) (condition : Prop) (r : Except Thrown StateAppendResult)
    (tr : List (Call Op World {ch : Choice // ch.Calm})) : Prop :=
  ((∃ a, r = .ok a ∧ a.status = .IDEMPOTENT_REPLAY ∧ a.comment_id = id) ∧
    ∀ k ∈ tr, k.op.posts = false) ↔ condition

section Settle

variable {P : Runtime} {w : World} {t : ℕ} {tr : List (Call Op World {ch : Choice // ch.Calm})}
  {id : String} {condition : Prop}

theorem replays_of_error {r : Except Thrown StateAppendResult} (hr : ∃ e, r = .error e)
    (h : ¬ condition) : ReplaysUnder id condition r tr := by
  obtain ⟨e, rfl⟩ := hr
  exact ⟨fun h' => by simp at h', fun h' => absurd h' h⟩

theorem replays_of_post {r : Except Thrown StateAppendResult} (hpost : ∃ k ∈ tr, k.op.posts = true)
    (h : ¬ condition) : ReplaysUnder id condition r tr := by
  obtain ⟨k, hk, hpost⟩ := hpost
  refine ⟨fun h' => ?_, fun h' => absurd h' h⟩
  have hno := h'.2 k hk
  rw [hpost] at hno
  cases hno

/-- What ends in a raise ends in an error. -/
theorem ensures_throw {α β : Type} {s : Program β} {e : Thrown} :
    (calm P).Ensures t Eq (fun r _ _ => ∃ e, r = .error e) (s >>= fun _ => (throw e : Program α)) tr
      w := by
  refine .bind (fun _ => rfl) (Machine.Ensures.of_forall (fun r tr' w' => ?_) s tr w)
  cases r with
  | ok b => exact fun _ _ => ⟨e, rfl⟩
  | error e' => exact ⟨e', rfl⟩

/-- A write that holds its lease is answered as its ledger answers it. -/
theorem ensures_settle (id : String) {input : StateAppendInput} {validated : ValidatedStateBatch}
    {role : InvestmentLedgerRole} {requestId writeKey sha : String} {r : StateWriteReceipt}
    (hchannel : roleForChannel input.channel = some role)
    (hschema : INVESTMENT_LEDGER_BATCH_INPUT_SCHEMA validated.normalized_batch =
      some validated.normalized_batch)
    (hrole : validateRoleSemantics P role validated.normalized_batch = .ok ())
    (hr : receiptFor w writeKey = some r) (htr : ∀ k ∈ tr, k.op.posts = false) :
    (calm P).Ensures t Eq
      (fun result tr' _ => ReplaysUnder id (AnsweredBy P w input.token role validated.normalized_batch id)
        result tr')
      (settle P input validated requestId writeKey sha) tr w := by
  have hledger : appendLedger P input.token input.channel validated.normalized_batch =
      appendInvestmentLedgerBatch P input.token role validated.normalized_batch := by
    unfold appendLedger
    rw [hchannel]
  unfold settle
  rw [hledger]
  by_cases hpost : Readable w input.token .investment ∧
      commentsUnder P w role validated.normalized_batch = []
  · have hposts : (calm P).Ensures t Eq (fun _ tr' _ => ∃ k ∈ tr', k.op.posts = true)
        (appendInvestmentLedgerBatch P input.token role validated.normalized_batch) tr w :=
      posts_appendInvestmentLedgerBatch hschema hrole hpost.1 hpost.2
    refine ((hposts.bind_call).tryCatch_call).mono fun result tr' w' h => replays_of_post h ?_
    rintro ⟨-, existing, hexisting, -⟩
    rw [hpost.2] at hexisting
    cases hexisting
  · obtain ⟨answer, hanswer, hstatus, hiff⟩ :=
      answers_appendInvestmentLedgerBatch (P := P) (w := w) input.token id hschema hrole
        fun hread hnone => hpost ⟨hread, hnone⟩
    refine .tryCatch (fun _ => rfl) (.bind (fun _ => rfl) (hanswer.ensures fun new hnew => ?_))
    cases answer with
    | error e =>
      have hcond : ¬ AnsweredBy P w input.token role validated.normalized_batch id := by
        rw [hiff]
        simp
      rintro _ rfl ch
      exact ensures_throw.mono fun result tr' w' h => replays_of_error h hcond
    | ok a =>
      have hno : ∀ k ∈ new ++ tr, k.op.posts = false := fun k hk =>
        (List.mem_append.1 hk).elim (hnew k) (htr k)
      rintro _ rfl ch
      rintro _ rfl ch'
      rw [calm_finalizeReceipt]
      rintro _ rfl ch''
      have hclock : receiptFor ((calm P).perform ch .clock w).2 writeKey = some r := hr
      rw [calm_selectReceipt, receiptFor_finalizeReceipt, hclock]
      rintro _ -
      refine ⟨fun h => hiff.2 ⟨a, rfl, ?_⟩, fun h => ⟨⟨_, rfl, hstatus a rfl, ?_⟩, ?_⟩⟩
      · obtain ⟨⟨result, hresult, -, hid⟩, -⟩ := h
        rw [← hid, ← Except.ok.inj hresult]
      · obtain ⟨a', ha', hid⟩ := hiff.1 h
        rw [← hid, Except.ok.inj ha']
      · simp only [List.forall_mem_cons]
        exact ⟨rfl, rfl, rfl, hno⟩

end Settle

section Attempt

variable {P : Runtime} {w : World} {t : ℕ} {tr : List (Call Op World {ch : Choice // ch.Calm})}
  {id : String} {r : StateWriteReceipt}

/-- The reservation of a receipt that is there and not settled. -/
theorem ensures_reserve_unsettled {writeKey sha requestId now leaseUntil : String}
    {channel : StateWriteChannel}
    {Q : Except Thrown Reservation → List (Call Op World {ch : Choice // ch.Calm}) → World → Prop}
    (hr : receiptFor w writeKey = some r) (hchannel : r.channel = channel)
    (hsha : r.payload_sha256 = sha) (hunsettled : r.settled = false)
    (hlease : P.addSeconds now LEASE_SECONDS = some leaseUntil) (htr : ∀ k ∈ tr, k.op.posts = false)
    (hQ : ∀ tr', (∀ k ∈ tr', k.op.posts = false) →
      let l : LeaseRequest := ⟨writeKey, channel, sha, requestId, leaseUntil, now⟩
      let leased := if l.applies r then l.apply r else r
      Q (.ok ⟨decide (leased.lease_owner = some requestId), leased⟩) tr' (w.leaseReceipt l)) :
    (calm P).Ensures t Eq Q (reserveStateWrite P writeKey channel sha requestId now) tr w := by
  unfold reserveStateWrite
  rintro _ rfl ch
  rw [calm_insertReceipt, insertReceipt_of_receiptFor hr]
  rintro _ rfl ch
  rw [calm_selectReceipt, hr]
  change (calm P).Ensures t Eq _ (if r.payload_sha256 ≠ sha ∨ r.channel ≠ channel then _ else
    if r.settled = true then _ else _) _ w
  rw [if_neg (by simp [hchannel, hsha]), if_neg (by simp [hunsettled]), hlease]
  rintro _ rfl ch
  rw [calm_leaseReceipt]
  rintro _ rfl ch
  rw [calm_selectReceipt, receiptFor_leaseReceipt, hr]
  rintro _ rfl
  refine hQ _ ?_
  simp only [List.forall_mem_cons]
  exact ⟨rfl, rfl, rfl, rfl, htr⟩

theorem ensures_reserve_noClock {writeKey sha requestId now : String} {channel : StateWriteChannel}
    (hr : receiptFor w writeKey = some r) (hchannel : r.channel = channel)
    (hsha : r.payload_sha256 = sha) (hunsettled : r.settled = false)
    (hlease : P.addSeconds now LEASE_SECONDS = none) :
    (calm P).Ensures t Eq (fun result _ _ => result = .error .raw)
      (reserveStateWrite P writeKey channel sha requestId now) tr w := by
  unfold reserveStateWrite
  rintro _ rfl ch
  rw [calm_insertReceipt, insertReceipt_of_receiptFor hr]
  rintro _ rfl ch
  rw [calm_selectReceipt, hr]
  change (calm P).Ensures t Eq _ (if r.payload_sha256 ≠ sha ∨ r.channel ≠ channel then _ else
    if r.settled = true then _ else _) _ w
  rw [if_neg (by simp [hchannel, hsha]), if_neg (by simp [hunsettled]), hlease]
  exact fun _ _ => rfl

/-- The receipt can be leased, and the ledger answers the batch with the comment. -/
structure Recoverable (P : Runtime) (w : World) (token : String) (role : InvestmentLedgerRole)
    (batch : Json) (id : String) (r : StateWriteReceipt) (requestId now : String) : Prop where
  leased : r.leaseFree requestId now
  clock : (P.addSeconds now LEASE_SECONDS).isSome = true
  answered : AnsweredBy P w token role batch id

/-- An attempt after its id and its time are drawn. -/
def attemptFrom (P : Runtime) (input : StateAppendInput) (requestId now : String) :
    Program StateAppendResult := do
  let validated ← tryCatch (validateAppend P input) fun t => throw (.gateway (mapDomainError t))
  let writeKey := input.writeKey.getD validated.write_key
  let payloadSha256 := input.payloadSha256.getD validated.payload_sha256
  let reservation ← reserveStateWrite P writeKey input.channel payloadSha256 requestId now
  continueReserved P input validated requestId writeKey payloadSha256 reservation

theorem ensures_attemptFrom {input : StateAppendInput} {validated : ValidatedStateBatch}
    {role : InvestmentLedgerRole} {requestId now : String}
    (hrole : roleForChannel input.channel = some role)
    (hvalid : validateStateBatch P input.channel input.batch = .ok validated)
    (hr : receiptFor w (input.writeKey.getD validated.write_key) = some r)
    (hchannel : r.channel = input.channel)
    (hsha : r.payload_sha256 = input.payloadSha256.getD validated.payload_sha256)
    (hstatus : r.status ≠ .CONFLICT) (hcomment : r.settled = true → r.comment_id = some id)
    (htr : ∀ k ∈ tr, k.op.posts = false) :
    (calm P).Ensures t Eq
      (fun result tr' _ => ReplaysUnder id (Admissible P w input validated.normalized_batch ∧
        (r.settled = true ∨ Recoverable P w input.token role validated.normalized_batch id r
          requestId now)) result tr')
      (attemptFrom P input requestId now) tr w := by
  have hvalid' : validateInvestmentBatch P role input.batch = .ok validated := by
    simpa [validateStateBatch, hrole] using hvalid
  obtain ⟨hparse, -, hsemantics⟩ := schema_of_validateInvestmentBatch hvalid'
  have hschema := stable_batchSchema _ _ hparse
  obtain ⟨answer, hanswer, hsame, hadmissible⟩ := answers_validateAppend (w := w) hvalid
  have hmapped : Answers P w
      (tryCatch (validateAppend P input) fun t => throw (.gateway (mapDomainError t)))
      (tryCatch answer fun t => .error (.gateway (mapDomainError t))) :=
    hanswer.tryCatch fun t _ => rfl
  refine .bind (fun _ => rfl) (hmapped.ensures fun new hnew => ?_)
  have hno : ∀ k ∈ new ++ tr, k.op.posts = false := fun k hk =>
    (List.mem_append.1 hk).elim (hnew k) (htr k)
  cases answer with
  | error e =>
    refine replays_of_error ⟨_, rfl⟩ fun h => ?_
    simpa using hadmissible.2 h.1
  | ok v =>
    obtain rfl := hsame v rfl
    have hadmitted : Admissible P w input v.normalized_batch := hadmissible.1 ⟨v, rfl⟩
    refine .bind (fun _ => rfl) ?_
    by_cases hsettled : r.settled = true
    · have hreserve : Answers P w (reserveStateWrite P (input.writeKey.getD v.write_key) input.channel
          (input.payloadSha256.getD v.payload_sha256) requestId now) (.ok ⟨false, r⟩) :=
        answers_reserveStateWrite hr hsettled hchannel hsha
      refine hreserve.ensures fun new' hnew' => ?_
      unfold continueReserved
      dsimp only
      rw [if_neg hstatus]
      simp only [Bool.not_false, if_true, hsettled]
      rintro _ -
      refine ⟨fun _ => ⟨hadmitted, .inl trivial⟩, fun _ => ⟨⟨_, rfl, rfl, ?_⟩, ?_⟩⟩
      · simp [hcomment hsettled]
      · exact fun k hk => (List.mem_append.1 hk).elim (hnew' k) (hno k)
    have hunsettled : r.settled = false := by simpa using hsettled
    obtain ⟨hpersisted, hreplay⟩ : r.status ≠ .PERSISTED ∧ r.status ≠ .IDEMPOTENT_REPLAY := by
      simpa [StateWriteReceipt.settled] using hunsettled
    cases hlease : P.addSeconds now LEASE_SECONDS with
    | none =>
      refine (ensures_reserve_noClock hr hchannel hsha hunsettled hlease).mono fun result tr' w' h => ?_
      obtain rfl : result = .error .raw := h
      refine replays_of_error ⟨_, rfl⟩ fun h => ?_
      simpa [hunsettled, hlease] using h.2.imp_right Recoverable.clock
    | some leaseUntil =>
      refine ensures_reserve_unsettled hr hchannel hsha hunsettled hlease hno fun tr' htr' => ?_
      have hkey : r.write_key = input.writeKey.getD v.write_key := (receiptFor_eq_some.1 hr).2
      by_cases hfree : r.leaseFree requestId now
      · have happlies : LeaseRequest.applies ⟨input.writeKey.getD v.write_key, input.channel,
            input.payloadSha256.getD v.payload_sha256, requestId, leaseUntil, now⟩ r = true :=
          decide_eq_true ⟨hkey, hsha, hchannel, ⟨hpersisted, hreplay, hstatus⟩, hfree⟩
        simp only [happlies, if_true]
        unfold continueReserved
        rw [if_neg (by simp [LeaseRequest.apply])]
        simp only [LeaseRequest.apply, decide_true, Bool.not_true, Bool.false_eq_true, if_false]
        have hleased := receiptFor_leaseReceipt w ⟨input.writeKey.getD v.write_key, input.channel,
          input.payloadSha256.getD v.payload_sha256, requestId, leaseUntil, now⟩
          (input.writeKey.getD v.write_key)
        rw [hr] at hleased
        refine (ensures_settle id hrole hschema hsemantics hleased htr').mono fun result tr'' w' h => ?_
        refine Iff.trans h ⟨fun hanswered => ⟨hadmitted, .inr ⟨hfree, by simp [hlease], hanswered⟩⟩,
          fun hcond => ?_⟩
        exact (hcond.2.resolve_left hsettled).answered
      · have hnot : LeaseRequest.applies ⟨input.writeKey.getD v.write_key, input.channel,
            input.payloadSha256.getD v.payload_sha256, requestId, leaseUntil, now⟩ r = false :=
          decide_eq_false fun h => hfree h.2.2.2.2
        have howner : r.lease_owner ≠ some requestId := fun h => hfree (.inr (.inr (.inr h)))
        simp only [hnot, Bool.false_eq_true, if_false]
        unfold continueReserved
        dsimp only
        rw [if_neg hstatus]
        simp only [howner, decide_false, Bool.not_false, if_true, hunsettled, Bool.false_eq_true,
          if_false]
        rintro _ -
        refine replays_of_error ⟨_, rfl⟩ fun h => ?_
        exact hfree (h.2.resolve_left (by simp)).leased

end Attempt

/-! ## Batches of one command -/

section Batches

variable {P : Runtime} {channel : InvestmentCommandChannel}

/-- A prepared command is made of its events, a stamp and the portfolio version. -/
theorem prepared_of_build {command : Json} {pv : String} {prepared : PreparedCommand}
    (h : buildInvestmentCommandBatch P channel command pv = .ok prepared) :
    ∃ asOf, prepared.batch = commandBatch P channel pv asOf (batchEvents prepared.batch) ∧
      prepared.writeKey = "CMD:" ++ channel.channel.name ++ ":" ++
        commandDigest P channel (batchEvents prepared.batch) ∧
      prepared.payloadSha256 = commandDigest P channel (batchEvents prepared.batch) := by
  unfold buildInvestmentCommandBatch at h
  cases hparse : parseCommand P (schemaForChannel P channel)
      (channel.channel.name ++ "_COMMAND_SCHEMA") command channel.channel.name with
  | error t =>
    rw [hparse] at h
    cases h
  | ok parsed =>
    rw [hparse] at h
    change projectEvents P channel (batchEvents parsed) >>= _ = _ at h
    cases hevents : projectEvents P channel (batchEvents parsed) with
    | error t =>
      rw [hevents] at h
      cases h
    | ok events =>
      rw [hevents] at h
      obtain rfl := Except.ok.inj h
      exact ⟨textField parsed "as_of", rfl, rfl, rfl⟩

/-- The batch of a command that the ledger's schema parsed. -/
def ledgerBatch (pv eventId asOf : String) (events : Json) : Json :=
  .obj [("schema_version", .str INVESTMENT_STATE_BATCH_V1), ("portfolio_version", .str pv),
    ("event_id", .str eventId), ("as_of", .str asOf), ("events", events)]

theorem parse_commandBatch {pv asOf : String} {events : List Json} {data : Json}
    (h : INVESTMENT_LEDGER_BATCH_INPUT_SCHEMA (commandBatch P channel pv asOf events) = some data) :
    ∃ parsed, Schema.array INVESTMENT_LEDGER_EVENT_INPUT_SCHEMA 1 128 (.arr events) = some (.arr parsed) ∧
      data = ledgerBatch pv ("CMD:" ++ commandDigest P channel events ++ "|" ++ channel.producer ++
        "|BATCH") asOf (.arr parsed) := by
  simp only [INVESTMENT_LEDGER_BATCH_INPUT_SCHEMA, commandBatch, Schema.object] at h
  split_ifs at h
  obtain ⟨ys, hys, rfl⟩ := Option.map_eq_some_iff.1 h
  obtain ⟨y₁, zs₁, h₁, ht₁, rfl⟩ := Schema.parseFields_cons rfl hys
  obtain ⟨y₂, zs₂, h₂, ht₂, rfl⟩ := Schema.parseFields_cons rfl ht₁
  obtain ⟨y₃, zs₃, h₃, ht₃, rfl⟩ := Schema.parseFields_cons rfl ht₂
  obtain ⟨y₄, zs₄, h₄, ht₄, rfl⟩ := Schema.parseFields_cons rfl ht₃
  obtain ⟨y₅, zs₅, h₅, ht₅, rfl⟩ := Schema.parseFields_cons rfl ht₄
  obtain rfl : [] = zs₅ := Option.some.inj ht₅
  have hevents : Schema.array INVESTMENT_LEDGER_EVENT_INPUT_SCHEMA 1 128 (.arr events) = some y₅ := h₅
  obtain ⟨parsed, rfl, -⟩ := Schema.elements_of_array hevents
  have hexact : ∀ min max, (boundedString min max).Exact := fun _ _ => Schema.exact_text _
  change Schema.oneOf [INVESTMENT_STATE_BATCH_V1] (.str INVESTMENT_STATE_BATCH_V1) = some y₁ at h₁
  change boundedString 1 512 (.str pv) = some y₂ at h₂
  change boundedString 1 512 (.str _) = some y₃ at h₃
  change boundedString 1 128 (.str asOf) = some y₄ at h₄
  rw [Schema.exact_oneOf _ _ _ h₁, hexact _ _ _ _ h₂, hexact _ _ _ _ h₃, hexact _ _ _ _ h₄]
  exact ⟨parsed, hevents, rfl⟩

theorem enrichBatch_ledgerBatch (role : InvestmentLedgerRole) (pv eventId asOf : String)
    (events : List Json) :
    enrichBatch role (ledgerBatch pv eventId asOf (.arr events)) =
      .obj [("schema_version", .str INVESTMENT_STATE_BATCH_V1), ("portfolio_version", .str pv),
        ("event_id", .str eventId), ("as_of", .str asOf),
        ("events", .arr (events.map fun event => withField event "dimension" (.str role.dimension))),
        ("producer", .str role.producer), ("source_task", .str role.sourceTask)] := by
  simp [enrichBatch, ledgerBatch, withField, Json.setField, batchEvents, Json.get?, List.lookup_cons]

/-- The stored batches of one command's events are the same exactly where their stamps are. -/
theorem samePayload_ledgerBatch {role : InvestmentLedgerRole} {pv pv' eventId asOf asOf' : String}
    {events : List Json} :
    samePayload (enrichBatch role (ledgerBatch pv eventId asOf (.arr events)))
        (enrichBatch role (ledgerBatch pv' eventId asOf' (.arr events))) = true ↔
      pv = pv' ∧ asOf = asOf' := by
  let dimensions : Json :=
    .arr (events.map fun event => withField event "dimension" (.str role.dimension))
  have hpaired := rebuiltText_paired [
    ("schema_version", .str INVESTMENT_STATE_BATCH_V1, .str INVESTMENT_STATE_BATCH_V1),
    ("portfolio_version", .str pv, .str pv'), ("event_id", .str eventId, .str eventId),
    ("as_of", .str asOf, .str asOf'), ("events", dimensions, dimensions),
    ("producer", .str role.producer, .str role.producer),
    ("source_task", .str role.sourceTask, .str role.sourceTask)]
  rw [samePayload, decide_eq_true_eq, enrichBatch_ledgerBatch, enrichBatch_ledgerBatch]
  refine hpaired.trans ?_
  simp

/-- Two valid batches of one command's events differ in their stamps alone. -/
theorem batches_of_events {pv pv' : String} {command command' : Json}
    {prepared prepared' : PreparedCommand} {validated validated' : ValidatedStateBatch}
    (hbuild : buildInvestmentCommandBatch P channel command pv = .ok prepared)
    (hbuild' : buildInvestmentCommandBatch P channel command' pv' = .ok prepared')
    (hvalid : validateStateBatch P channel.channel prepared.batch = .ok validated)
    (hvalid' : validateStateBatch P channel.channel prepared'.batch = .ok validated')
    (hevents : batchEvents prepared.batch = batchEvents prepared'.batch) :
    prepared.writeKey = prepared'.writeKey ∧ prepared.payloadSha256 = prepared'.payloadSha256 ∧
      (samePayload (enrichBatch channel.role validated.normalized_batch)
          (enrichBatch channel.role validated'.normalized_batch) = true ↔
        pv = pv' ∧ textField prepared.batch "as_of" = textField prepared'.batch "as_of") := by
  have hparsed : ∀ {batch v}, validateStateBatch P channel.channel batch = .ok v →
      INVESTMENT_LEDGER_BATCH_INPUT_SCHEMA batch = some v.normalized_batch := by
    intro batch v h
    have hinvestment : validateInvestmentBatch P channel.role batch = .ok v := by
      simpa [validateStateBatch] using h
    exact (schema_of_validateInvestmentBatch hinvestment).1
  obtain ⟨asOf, hbatch, hkey, hsha⟩ := prepared_of_build hbuild
  obtain ⟨asOf', hbatch', hkey', hsha'⟩ := prepared_of_build hbuild'
  refine ⟨by rw [hkey, hkey', hevents], by rw [hsha, hsha', hevents], ?_⟩
  have hdata := hparsed hvalid
  have hdata' := hparsed hvalid'
  rw [hbatch] at hdata
  rw [hbatch', ← hevents] at hdata'
  obtain ⟨parsed, harray, hdata⟩ := parse_commandBatch hdata
  obtain ⟨parsed', harray', hdata'⟩ := parse_commandBatch hdata'
  obtain rfl : parsed = parsed' := Json.arr.inj (Option.some.inj (harray.symm.trans harray'))
  rw [hdata, hdata', samePayload_ledgerBatch, hbatch, hbatch']
  exact Iff.rfl

end Batches

/-! ## Retries -/

/-- The first attempt of a command was accepted and its comment written; its receipt records that, or
that the outcome is unknown, or nothing yet. -/
structure Written (P : Runtime) (w : World) (channel : InvestmentCommandChannel)
    (prepared : PreparedCommand) (validated : ValidatedStateBatch) (c : Comment)
    (r : StateWriteReceipt) : Prop where
  accepted : validateStateBatch P channel.channel prepared.batch = .ok validated
  listed : c ∈ w.investment
  body : c.body = String.ofList (ledgerBody (enrichBatch channel.role validated.normalized_batch))
  receipt : receiptFor w prepared.writeKey = some r
  channel_eq : r.channel = channel.channel
  sha_eq : r.payload_sha256 = prepared.payloadSha256
  recorded : r.status = .PERSISTED ∧ r.comment_id = some (commentId c.json) ∨
    r.status = .OUTCOME_UNKNOWN ∨ r.status = .PENDING

/-- The request id of an append, given or drawn first. -/
def requestIdOf (input : CommandInput) (choices : ℕ → {ch : Choice // ch.Calm}) : String :=
  input.requestId.getD (choices 0).1.hex

/-- The time of an append, given or drawn after the request id. -/
def timeOf (input : CommandInput) (choices : ℕ → {ch : Choice // ch.Calm}) : String :=
  input.now.getD (choices (if input.requestId.isSome then 0 else 1)).1.clock

/-- The append that a prepared command makes. -/
def CommandInput.append (input : CommandInput) (channel : InvestmentCommandChannel)
    (prepared : PreparedCommand) : StateAppendInput where
  token := input.token
  channel := channel.channel
  batch := prepared.batch
  now := input.now
  requestId := input.requestId
  writeKey := some prepared.writeKey
  payloadSha256 := some prepared.payloadSha256
  envelopeKey := input.envelopeKey
  eventCount := input.eventCount

section Retries

variable {P : Runtime} {w : World} {channel : InvestmentCommandChannel}

theorem appendInvestmentCommand_eq {input : CommandInput} {prepared : PreparedCommand}
    (h : buildInvestmentCommandBatch P channel input.command input.portfolioVersion =
      .ok prepared) :
    appendInvestmentCommand P channel input =
      appendStateBatch P (input.append channel prepared) >>= fun result =>
        pure { result with run_id := prepared.runId } := by
  unfold appendInvestmentCommand
  rw [h]
  rfl

/-- Once its id and its time are drawn, an append runs as an attempt from them. -/
theorem run_appendInvestmentCommand {input : CommandInput} {prepared : PreparedCommand}
    (h : buildInvestmentCommandBatch P channel input.command input.portfolioVersion =
      .ok prepared) (choices : ℕ → {ch : Choice // ch.Calm}) :
    ∃ k tr, (∀ call ∈ tr, call.op.posts = false) ∧
      (calm P).run 0 choices (appendInvestmentCommand P channel input) 0 [] w =
        (calm P).run 0 choices (attemptFrom P (input.append channel prepared)
          (requestIdOf input choices) (timeOf input choices) >>= fun result =>
            pure { result with run_id := prepared.runId }) k tr w := by
  rw [appendInvestmentCommand_eq h]
  obtain ⟨token, command, pv, now, requestId, envelopeKey, eventCount⟩ := input
  cases requestId with
  | some requestId =>
    cases now with
    | some now => exact ⟨0, [], by simp, rfl⟩
    | none => exact ⟨1, [⟨0, .clock, choices 0, w⟩], by simp [Op.posts], rfl⟩
  | none =>
    cases now with
    | some now => exact ⟨1, [⟨0, .randomHex, choices 0, w⟩], by simp [Op.posts], rfl⟩
    | none =>
      exact ⟨2, [⟨0, .clock, choices 1, w⟩, ⟨0, .randomHex, choices 0, w⟩], by simp [Op.posts], rfl⟩

/-- A resubmitted command is replayed where its receipt is settled, or else where it can be leased and
the ledger answers with the comment; a close batch needs its dependencies besides. -/
theorem replays_resubmission {prepared : PreparedCommand} {validated : ValidatedStateBatch}
    {input : CommandInput} {r : StateWriteReceipt} {id : String}
    (hbuild : buildInvestmentCommandBatch P channel input.command input.portfolioVersion =
      .ok prepared)
    (hvalid : validateStateBatch P channel.channel prepared.batch = .ok validated)
    (hr : receiptFor w prepared.writeKey = some r) (hchannel : r.channel = channel.channel)
    (hsha : r.payload_sha256 = prepared.payloadSha256)
    (hrecorded : r.status = .PERSISTED ∧ r.comment_id = some id ∨
      r.status = .OUTCOME_UNKNOWN ∨ r.status = .PENDING)
    (choices : ℕ → {ch : Choice // ch.Calm}) :
    let run := (calm P).run 0 choices (appendInvestmentCommand P channel input) 0 [] w
    ((∃ a, run.1 = .ok a ∧ a.status = .IDEMPOTENT_REPLAY ∧ a.comment_id = id) ∧
        ∀ call ∈ run.2.1, call.op.posts = false) ↔
      (channel = .CLOSE → DependenciesMet P w input.token validated.normalized_batch) ∧
        (r.status = .PERSISTED ∨ Recoverable P w input.token channel.role
          validated.normalized_batch id r (requestIdOf input choices) (timeOf input choices)) := by
  intro run
  obtain ⟨k, tr, htr, hrun⟩ := run_appendInvestmentCommand (w := w) hbuild choices
  have hstatus : r.status ≠ .CONFLICT := by
    rcases hrecorded with ⟨h, -⟩ | h | h <;> simp [h]
  have hsettled : r.settled = true ↔ r.status = .PERSISTED := by
    rcases hrecorded with ⟨h, -⟩ | h | h <;> simp [StateWriteReceipt.settled, h]
  have hcomment : r.settled = true → r.comment_id = some id := by
    intro h
    rcases hrecorded with ⟨-, hid⟩ | h' | h'
    · exact hid
    · simp [hsettled, h'] at h
    · simp [hsettled, h'] at h
  have hattempt : (calm P).Ensures 0 Eq
      (fun result tr' _ => ReplaysUnder id (Admissible P w (input.append channel prepared)
          validated.normalized_batch ∧ (r.settled = true ∨ Recoverable P w input.token channel.role
            validated.normalized_batch id r (requestIdOf input choices) (timeOf input choices)))
        result tr')
      (attemptFrom P (input.append channel prepared) (requestIdOf input choices)
        (timeOf input choices)) tr w :=
    ensures_attemptFrom (InvestmentCommandChannel.roleForChannel_channel channel) hvalid hr hchannel
      hsha hstatus hcomment htr
  have hclose : Admissible P w (input.append channel prepared) validated.normalized_batch ↔
      (channel = .CLOSE → DependenciesMet P w input.token validated.normalized_batch) := by
    cases channel <;> simp [Admissible, CommandInput.append, InvestmentCommandChannel.channel]
  rw [hclose, hsettled] at hattempt
  have hcommand : (calm P).Ensures 0 Eq
      (fun (result : Except Thrown CommandAppendResult) tr' _ =>
        ((∃ a, result = .ok a ∧ a.status = .IDEMPOTENT_REPLAY ∧ a.comment_id = id) ∧
          ∀ call ∈ tr', call.op.posts = false) ↔
        (channel = .CLOSE → DependenciesMet P w input.token validated.normalized_batch) ∧
          (r.status = .PERSISTED ∨ Recoverable P w input.token channel.role
            validated.normalized_batch id r (requestIdOf input choices) (timeOf input choices)))
      (attemptFrom P (input.append channel prepared) (requestIdOf input choices)
        (timeOf input choices) >>= fun result => pure { result with run_id := prepared.runId })
      tr w := by
    refine .bind (fun _ => rfl) (hattempt.mono fun result tr' w' h => ?_)
    cases result with
    | ok a =>
      rintro _ -
      simpa [ReplaysUnder] using h
    | error e => simpa [ReplaysUnder] using h
  have hresult := hcommand.run choices k
  rw [← hrun] at hresult
  exact hresult

/-- **The retry law of an investment command.** After its comment was written, a command with the same
events is replayed without a post exactly where the receipt records the comment, or the receipt can be
leased and the ledger answers; a close batch needs its dependencies besides. And the ledger, where the
comment is read back as it was written and stands alone under its event id, answers exactly the
commands with the same portfolio version and the same `as_of`. -/
theorem retry_replays_iff {command : Json} {pv : String} {prepared prepared' : PreparedCommand}
    {validated validated' : ValidatedStateBatch} {input : CommandInput} {c : Comment}
    {r : StateWriteReceipt}
    (hbuild : buildInvestmentCommandBatch P channel command pv = .ok prepared)
    (hwritten : Written P w channel prepared validated c r)
    (hbuild' : buildInvestmentCommandBatch P channel input.command input.portfolioVersion =
      .ok prepared')
    (hvalid' : validateStateBatch P channel.channel prepared'.batch = .ok validated')
    (hevents : batchEvents prepared.batch = batchEvents prepared'.batch)
    (choices : ℕ → {ch : Choice // ch.Calm}) :
    let run := (calm P).run 0 choices (appendInvestmentCommand P channel input) 0 [] w
    (((∃ a, run.1 = .ok a ∧ a.status = .IDEMPOTENT_REPLAY ∧ a.comment_id = commentId c.json) ∧
        ∀ call ∈ run.2.1, call.op.posts = false) ↔
      (channel = .CLOSE → DependenciesMet P w input.token validated'.normalized_batch) ∧
        (r.status = .PERSISTED ∨ Recoverable P w input.token channel.role
          validated'.normalized_batch (commentId c.json) r (requestIdOf input choices)
          (timeOf input choices))) ∧
    ∀ read, commentsUnder P w channel.role validated'.normalized_batch = [read] →
      read.comment_id = commentId c.json →
      read.payload = enrichBatch channel.role validated.normalized_batch →
      (AnsweredBy P w input.token channel.role validated'.normalized_batch (commentId c.json) ↔
        Readable w input.token .investment ∧ pv = input.portfolioVersion ∧
          textField prepared.batch "as_of" = textField prepared'.batch "as_of") := by
  obtain ⟨hkey, hsha, hsame⟩ :=
    batches_of_events hbuild hbuild' hwritten.accepted hvalid' hevents
  refine ⟨?_, fun read hread hid hpayload => ?_⟩
  · exact replays_resubmission hbuild' hvalid' (hkey ▸ hwritten.receipt) hwritten.channel_eq
      (hwritten.sha_eq.trans hsha) hwritten.recorded choices
  · unfold AnsweredBy
    rw [hread, ← hsame]
    constructor
    · rintro ⟨hreadable, existing, hexisting, -, hstored⟩
      obtain rfl : read = existing := by simpa using hexisting
      exact ⟨hreadable, hpayload ▸ hstored⟩
    · rintro ⟨hreadable, hstored⟩
      exact ⟨hreadable, read, rfl, hid, hpayload ▸ hstored⟩

end Retries

/-! ## A retry that conflicts with its own comment -/

/-- The industry role proposes R1. -/
def retryCommand (asOf : String) : Json :=
  .obj [("as_of", .str asOf), ("events", .arr [exampleEvent [("r_proposal", .str "R1")]])]

def retryDigest : String := "32e0663d04ebffe3baa12ac6d9bda6f17c6eecda98406acc5158bb699fdd379d"

def retryEvents : List Json :=
  [.obj [("symbol", .str "CN:600000"), ("event_type", .str "STATE_SET"), ("evidence_types", .arr []),
    ("evidence_keys", .arr []), ("counter_evidence", .arr []), ("confidence", .num (.ofInt 1)),
    ("next_validation", .null), ("r_proposal", .str "R1")]]

/-- The events as the ledger's schema orders them. -/
def storedEvents : List Json :=
  [.obj [("symbol", .str "CN:600000"), ("event_type", .str "STATE_SET"), ("r_proposal", .str "R1"),
    ("evidence_types", .arr []), ("evidence_keys", .arr []), ("counter_evidence", .arr []),
    ("confidence", .num (.ofInt 1)), ("next_validation", .null)]]

def retryBatch (asOf : String) : Json :=
  ledgerBatch "pv-1" ("CMD:" ++ retryDigest ++ "|industry_trend|BATCH") asOf (.arr storedEvents)

def retryRuntime : Runtime :=
  tableRuntime
    [((normalizedCommand .INDUSTRY retryEvents).rebuiltText, retryDigest),
      ((retryBatch "2026-09-30T01:00:00.000Z").rebuiltText,
        "1f7e2c873264a00c5e8fd899e20a7e7bf76ea87d2cd3adfd9934c0bf651e6e19"),
      ((retryBatch "2026-10-01T01:00:00.000Z").rebuiltText,
        "4ff8b7af124ddd680a4419b52f6a8c41b38cccaa505a1810c3cba5fb4d58ee86")]
    [("2026-09-30T01:00:00.000Z", 1790730000000), ("2026-10-01T01:00:00.000Z", 1790816400000)]
    [("2026-10-01T02:00:00.000Z", "2026-10-01T02:02:00.000Z")]

def retryPrepared (asOf : String) : PreparedCommand where
  batch := commandBatch retryRuntime .INDUSTRY "pv-1" asOf retryEvents
  writeKey := "CMD:INDUSTRY:" ++ retryDigest
  payloadSha256 := retryDigest
  runId := none

def retryValidated (asOf : String) : ValidatedStateBatch :=
  ⟨"CMD:" ++ retryDigest ++ "|industry_trend|BATCH", sha256HexOf retryRuntime (retryBatch asOf),
    INVESTMENT_STATE_BATCH_V1, retryBatch asOf⟩

theorem parse_retryCommand :
    schemaForChannel retryRuntime .INDUSTRY (retryCommand "2026-09-30T01:00:00.000Z") =
        some (.obj [("as_of", .str "2026-09-30T01:00:00.000Z"), ("events", .arr retryEvents)]) ∧
      schemaForChannel retryRuntime .INDUSTRY (retryCommand "2026-10-01T01:00:00.000Z") =
        some (.obj [("as_of", .str "2026-10-01T01:00:00.000Z"), ("events", .arr retryEvents)]) := by
  decide +kernel

/-- The command's projection keeps the events, and the ledger's schema orders them. -/
theorem parse_retryEvents :
    projectEvents retryRuntime .INDUSTRY retryEvents = .ok retryEvents ∧
      Schema.array INVESTMENT_LEDGER_EVENT_INPUT_SCHEMA 1 128 (.arr retryEvents) =
        some (.arr storedEvents) := by
  decide +kernel

theorem digest_retryEvents : commandDigest retryRuntime .INDUSTRY retryEvents = retryDigest := by
  simp only [commandDigest, sha256HexOf, retryRuntime, tableRuntime]
  exact lookup_first

theorem matchesEventId_retry :
    matchesEventId "industry_trend" ("CMD:" ++ retryDigest ++ "|industry_trend|BATCH") = true := by
  decide

theorem validate_retryBatch_of {asOf : String} (h : 1 ≤ Utf16.length asOf)
    (h' : Utf16.length asOf ≤ 128) (htime : retryRuntime.dateParse asOf ≠ none) :
    validateStateBatch retryRuntime .INDUSTRY (retryPrepared asOf).batch =
      .ok (retryValidated asOf) := by
  have hpv : Utf16.length "pv-1" = 4 := by decide
  have hid : Utf16.length ("CMD:" ++ retryDigest ++ "|industry_trend|BATCH") = 89 := by
    decide
  have hname : "CMD:" ++ retryDigest ++ "|" ++ "industry_trend" ++ "|BATCH" =
      "CMD:" ++ retryDigest ++ "|industry_trend|BATCH" := by
    decide
  have hschema : INVESTMENT_LEDGER_BATCH_INPUT_SCHEMA (retryPrepared asOf).batch =
      some (retryBatch asOf) := by
    simp [INVESTMENT_LEDGER_BATCH_INPUT_SCHEMA, INVESTMENT_LEDGER_BATCH_SHAPE, retryPrepared,
      retryBatch, ledgerBatch, commandBatch, Schema.object, Schema.parseFields, Json.get?,
      List.lookup_cons, Schema.oneOf, Schema.text, boundedString, digest_retryEvents, parse_retryEvents.2,
      InvestmentCommandChannel.producer, h, h', hpv, hid, hname]
  have hrole : validateRoleSemantics retryRuntime .industry (retryBatch asOf) = .ok () := by
    have hevents : (batchEvents (retryBatch asOf)).findSome? (eventRoleError .industry) = none := by
      change storedEvents.findSome? (eventRoleError .industry) = none
      decide
    unfold validateRoleSemantics
    rw [if_neg (by simpa [textField, retryBatch, ledgerBatch, Json.get?, List.lookup_cons, Json.str?]
      using htime)]
    rw [if_neg (by simpa [textField, retryBatch, ledgerBatch, Json.get?, List.lookup_cons, Json.str?,
      InvestmentLedgerRole.producer] using matchesEventId_retry), hevents]
  have hinvestment : ∀ batch, validateStateBatch retryRuntime .INDUSTRY batch =
      validateInvestmentBatch retryRuntime .industry batch := fun _ => rfl
  have heventId : textField (retryBatch asOf) "event_id" =
      "CMD:" ++ retryDigest ++ "|industry_trend|BATCH" := by
    simp [retryBatch, ledgerBatch, textField, Json.get?, List.lookup_cons, Json.str?]
  have hversion : textField (retryBatch asOf) "schema_version" = INVESTMENT_STATE_BATCH_V1 := by
    simp [retryBatch, ledgerBatch, textField, Json.get?, Json.str?]
  rw [hinvestment]
  unfold validateInvestmentBatch
  rw [hschema]
  dsimp only
  rw [hrole, heventId, hversion, retryValidated]

theorem validate_retryBatch :
    validateStateBatch retryRuntime .INDUSTRY (retryPrepared "2026-09-30T01:00:00.000Z").batch =
        .ok (retryValidated "2026-09-30T01:00:00.000Z") ∧
      validateStateBatch retryRuntime .INDUSTRY (retryPrepared "2026-10-01T01:00:00.000Z").batch =
        .ok (retryValidated "2026-10-01T01:00:00.000Z") :=
  ⟨validate_retryBatch_of (by decide) (by decide) (by decide),
    validate_retryBatch_of (by decide) (by decide) (by decide)⟩

def retryComment : Comment :=
  investmentComment 1 "2026-09-30T01:00:01Z"
    (enrichBatch .industry (retryBatch "2026-09-30T01:00:00.000Z"))

/-- The first attempt wrote its comment and could not tell. -/
def unknownReceipt : StateWriteReceipt :=
  { freshReceipt ("CMD:INDUSTRY:" ++ retryDigest) .INDUSTRY retryDigest "2026-09-30T01:00:00.000Z" with
    status := .OUTCOME_UNKNOWN
    attempt_count := 1
    last_error_code := some .STATE_OUTCOME_UNKNOWN
    last_error_phase := some .WRITE }

def retryWorld : World where
  receipts := oneReceipt unknownReceipt
  runs := Table.empty
  market := []
  investment := [retryComment]
  nextCommentId := 2

/-- The command again, a day later. -/
def restampedInput : CommandInput where
  token := "token"
  command := retryCommand "2026-10-01T01:00:00.000Z"
  portfolioVersion := "pv-1"
  now := none
  requestId := none
  envelopeKey := none
  eventCount := none

theorem build_retryCommand :
    buildInvestmentCommandBatch retryRuntime .INDUSTRY (retryCommand "2026-09-30T01:00:00.000Z")
        "pv-1" = .ok (retryPrepared "2026-09-30T01:00:00.000Z") ∧
      buildInvestmentCommandBatch retryRuntime .INDUSTRY restampedInput.command
        restampedInput.portfolioVersion = .ok (retryPrepared "2026-10-01T01:00:00.000Z") := by
  have hbuild : ∀ asOf, schemaForChannel retryRuntime .INDUSTRY (retryCommand asOf) =
      some (.obj [("as_of", .str asOf), ("events", .arr retryEvents)]) →
      buildInvestmentCommandBatch retryRuntime .INDUSTRY (retryCommand asOf) "pv-1" =
        .ok (retryPrepared asOf) := by
    intro asOf hparse
    unfold buildInvestmentCommandBatch parseCommand
    rw [hparse]
    change projectEvents retryRuntime .INDUSTRY retryEvents >>= _ = _
    rw [parse_retryEvents.1]
    change Except.ok _ = _
    rw [digest_retryEvents]
    rfl
  exact ⟨hbuild _ parse_retryCommand.1, hbuild _ parse_retryCommand.2⟩

theorem payloadOfText_retryBatch :
    payloadOfText (ledgerBody (enrichBatch .industry (retryBatch "2026-09-30T01:00:00.000Z"))) =
      some (enrichBatch .industry (retryBatch "2026-09-30T01:00:00.000Z")) := by
  decide +kernel

theorem roleComments_retryWorld :
    roleComments retryRuntime retryWorld .industry =
      [⟨"1", commentUrl .investment 1, "2026-09-30T01:00:01Z",
        enrichBatch .industry (retryBatch "2026-09-30T01:00:00.000Z")⟩] := by
  have hread := read_written (c := retryComment) rfl (by decide) (by decide)
    payloadOfText_retryBatch
  unfold roleComments
  rw [show retryWorld.investment.filterMap (Comment.read parseExistingPayload) = _ from
    List.filterMap_cons_some hread]
  rfl

theorem written_retryWorld :
    Written retryRuntime retryWorld .INDUSTRY (retryPrepared "2026-09-30T01:00:00.000Z")
      (retryValidated "2026-09-30T01:00:00.000Z") retryComment unknownReceipt where
  accepted := validate_retryBatch.1
  listed := List.mem_singleton.2 rfl
  body := rfl
  receipt := by decide
  channel_eq := rfl
  sha_eq := rfl
  recorded := .inr (.inl rfl)

/-- **A restamped retry conflicts with its own comment.** The comment of the first attempt is in the
ledger and read back, and its receipt says that the outcome is unknown; the same events under a later
`as_of` have the same write key, and yet are not replayed, whatever is drawn. -/
theorem restamped_retry_conflicts :
    Written retryRuntime retryWorld .INDUSTRY (retryPrepared "2026-09-30T01:00:00.000Z")
        (retryValidated "2026-09-30T01:00:00.000Z") retryComment unknownReceipt ∧
      buildInvestmentCommandBatch retryRuntime .INDUSTRY restampedInput.command
        restampedInput.portfolioVersion = .ok (retryPrepared "2026-10-01T01:00:00.000Z") ∧
      batchEvents (retryPrepared "2026-09-30T01:00:00.000Z").batch =
        batchEvents (retryPrepared "2026-10-01T01:00:00.000Z").batch ∧
      ∀ choices,
        let run := (calm retryRuntime).run 0 choices
          (appendInvestmentCommand retryRuntime .INDUSTRY restampedInput) 0 [] retryWorld
        ¬ ((∃ a, run.1 = .ok a ∧ a.status = .IDEMPOTENT_REPLAY ∧
            a.comment_id = commentId retryComment.json) ∧
          ∀ call ∈ run.2.1, call.op.posts = false) := by
  refine ⟨written_retryWorld, build_retryCommand.2, rfl, fun choices hreplay => ?_⟩
  have hcondition := (replays_resubmission build_retryCommand.2 validate_retryBatch.2
    written_retryWorld.receipt rfl rfl (.inr (.inl rfl)) choices).1 hreplay
  have hrecoverable := hcondition.2.resolve_left (by decide)
  obtain ⟨-, existing, hexisting, -, hsame⟩ := hrecoverable.answered
  have hmem : existing ∈ roleComments retryRuntime retryWorld .industry :=
    List.mem_of_mem_filter (hexisting ▸ List.mem_singleton_self existing)
  rw [roleComments_retryWorld, List.mem_singleton] at hmem
  rw [hmem] at hsame
  exact absurd (samePayload_ledgerBatch.1 hsame).2 (by decide)

/-- The industry's command against the ledger that holds its comment. -/
theorem retry_replays_iff_restamped :
    let run := (calm retryRuntime).run 0 (fun _ => exampleCalm)
      (appendInvestmentCommand retryRuntime .INDUSTRY restampedInput) 0 [] retryWorld
    (((∃ a, run.1 = .ok a ∧ a.status = .IDEMPOTENT_REPLAY ∧
        a.comment_id = commentId retryComment.json) ∧
        ∀ call ∈ run.2.1, call.op.posts = false) ↔
      (InvestmentCommandChannel.INDUSTRY = .CLOSE → DependenciesMet retryRuntime retryWorld "token"
        (retryBatch "2026-10-01T01:00:00.000Z")) ∧
        (unknownReceipt.status = .PERSISTED ∨ Recoverable retryRuntime retryWorld "token" .industry
          (retryBatch "2026-10-01T01:00:00.000Z") (commentId retryComment.json) unknownReceipt
          (requestIdOf restampedInput fun _ => exampleCalm)
          (timeOf restampedInput fun _ => exampleCalm))) ∧
    ∀ read, commentsUnder retryRuntime retryWorld .industry
        (retryBatch "2026-10-01T01:00:00.000Z") = [read] →
      read.comment_id = commentId retryComment.json →
      read.payload = enrichBatch .industry (retryBatch "2026-09-30T01:00:00.000Z") →
      (AnsweredBy retryRuntime retryWorld "token" .industry (retryBatch "2026-10-01T01:00:00.000Z")
          (commentId retryComment.json) ↔
        Readable retryWorld "token" .investment ∧ "pv-1" = restampedInput.portfolioVersion ∧
          textField (retryPrepared "2026-09-30T01:00:00.000Z").batch "as_of" =
            textField (retryPrepared "2026-10-01T01:00:00.000Z").batch "as_of") :=
  retry_replays_iff build_retryCommand.1 written_retryWorld build_retryCommand.2
    validate_retryBatch.2 rfl _

end QuantproCollector.StateGateway
