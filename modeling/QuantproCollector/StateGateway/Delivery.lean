import QuantproCollector.StateGateway.Outcome

/-!
# What comes of an accepted POST

A submission whose POST GitHub has accepted records one fresh delta, or an error that is worth a retry
(`delivers_execute`): the append answers `PERSISTED`, breaks, or leaves the outcome open. The error after a
POST is not worth a retry only where GitHub answers 401 or 403 to the POST that it accepts.
-/

namespace QuantproCollector.StateGateway

open Async

/-- GitHub accepts the POST, and answers that it is not allowed. -/
def Disowned (P : Runtime) (k : Call Op World Choice) : Prop :=
  Posted k ∧ ∃ l body response, k.op = .fetch (.create l body) ∧
    k.choice.response P k.before (.create l body) = .ok response ∧
      (response.status = 401 ∨ response.status = 403)

/-- The program returned what is good, or raised what is bad. -/
def Ends {α : Type} (good : α → Prop) (bad : Thrown → Prop) : Except Thrown α → Prop
  | .ok a => good a
  | .error t => bad t

/-- How the program ends where its POST was accepted. -/
def Delivers {α : Type} (P : Runtime) (good : α → Prop) (bad : Thrown → Prop) (s : Program α) : Prop :=
  ∀ ks r, (machine P).Completes s ks r → (∃ p ∈ ks, Posted p) → (∀ p ∈ ks, ¬ Disowned P p) →
    Ends good bad r

section Programs

variable {P : Runtime} {α β : Type} {good : α → Prop} {good' : β → Prop} {bad bad' : Thrown → Prop}

theorem no_post_of_issues {s : Program α} {ks : List (Call Op World Choice)} {r : Except Thrown α}
    (hc : (machine P).Completes s ks r) (h : s.Issues fun op => op.posts = false) :
    ¬ ∃ p ∈ ks, Posted p := by
  rintro ⟨p, hp, hposted⟩
  exact not_posted (hc.issues h p hp) hposted

theorem Delivers.of_issues {s : Program α} (h : s.Issues fun op => op.posts = false) :
    Delivers P good bad s :=
  fun _ _ hc hp _ => absurd hp (no_post_of_issues hc h)

theorem Delivers.ite {c : Prop} [Decidable c] {s t : Program α} (hs : Delivers P good bad s)
    (ht : Delivers P good bad t) : Delivers P good bad (if c then s else t) := by
  split_ifs
  · exact hs
  · exact ht

/-- What comes before the POST does not matter. -/
theorem Delivers.bind {s : Program β} {f : β → Program α} (hs : s.Issues fun op => op.posts = false)
    (hf : ∀ b, Delivers P good bad (f b)) : Delivers P good bad (s >>= f) := by
  intro ks r h hposted hallowed
  rcases Machine.completes_bind.1 h with ⟨t, hc, rfl⟩ | ⟨b, ks₁, ks₂, rfl, hc, hrest⟩
  · exact absurd hposted (no_post_of_issues hc hs)
  · obtain ⟨p, hp, hpost⟩ := hposted
    have hp : p ∈ ks₂ := (List.mem_append.1 hp).resolve_left fun hp =>
      no_post_of_issues hc hs ⟨p, hp, hpost⟩
    exact hf b ks₂ r hrest ⟨p, hp, hpost⟩ fun p hp => hallowed p (List.mem_append_right _ hp)

/-- What follows the POST goes on from how the program ended. -/
theorem Delivers.andThen {s : Program α} {f : α → Program β} (hs : Delivers P good bad s)
    (hf : ∀ a, (f a).Issues fun op => op.posts = false)
    (hgood : ∀ a, good a → ∀ ks r, (machine P).Completes (f a) ks r → Ends good' bad' r)
    (hbad : ∀ t, bad t → bad' t) : Delivers P good' bad' (s >>= f) := by
  intro ks r h hposted hallowed
  rcases Machine.completes_bind.1 h with ⟨t, hc, rfl⟩ | ⟨a, ks₁, ks₂, rfl, hc, hrest⟩
  · exact hbad t (hs ks _ hc hposted hallowed)
  · obtain ⟨p, hp, hpost⟩ := hposted
    have hp : p ∈ ks₁ := (List.mem_append.1 hp).resolve_right fun hp =>
      no_post_of_issues hrest (hf a) ⟨p, hp, hpost⟩
    exact hgood a (hs ks₁ _ hc ⟨p, hp, hpost⟩ fun p hp => hallowed p (List.mem_append_left _ hp)) ks₂ r hrest

theorem Delivers.tryCatch {s : Program α} {f : Thrown → Program α} (hs : Delivers P good bad s)
    (hf : ∀ t, (f t).Issues fun op => op.posts = false)
    (hbad : ∀ t, bad t → ∀ ks r, (machine P).Completes (f t) ks r → Ends good bad' r) :
    Delivers P good bad' (tryCatch s f) := by
  intro ks r h hposted hallowed
  rcases Machine.completes_tryCatch.1 h with ⟨a, hc, rfl⟩ | ⟨t, ks₁, ks₂, rfl, hc, hrest⟩
  · exact hs ks _ hc hposted hallowed
  · obtain ⟨p, hp, hpost⟩ := hposted
    have hp : p ∈ ks₁ := (List.mem_append.1 hp).resolve_right fun hp =>
      no_post_of_issues hrest (hf t) ⟨p, hp, hpost⟩
    exact hbad t (hs ks₁ _ hc ⟨p, hp, hpost⟩ fun p hp => hallowed p (List.mem_append_left _ hp)) ks₂ r hrest

end Programs

/-! ## The ledgers -/

/-- The gateway's form of the error is worth a retry. -/
def Retryable (t : Thrown) : Prop :=
  (mapDomainError t).retryable = true

def Persisted (a : AppendResult) : Prop :=
  a.status = .PERSISTED

section Ledgers

variable {P : Runtime} {e : LedgerErrors} {parseBody : Option String → Option Json} {payload : Json}

theorem ends_checkReadBack (hreadback : ∀ message status, Retryable (e.readbackFailed message status))
    (response : HttpResponse) :
    Ends Persisted Retryable (checkReadBack e (toComment parseBody) payload response) := by
  unfold checkReadBack
  split_ifs
  · exact hreadback _ _
  · split
    · rfl
    · split
      · rename_i t herror
        obtain rfl := toComment_error herror
        rfl
      · exact hreadback _ _
      · split_ifs
        · rfl
        · exact hreadback _ _

theorem ends_readBack (hreadback : ∀ message status, Retryable (e.readbackFailed message status))
    {createdId : String} {ks : List (Call Op World Choice)} {r : Except Thrown AppendResult}
    (h : (machine P).Completes (readBack e (toComment parseBody) payload createdId) ks r) :
    Ends Persisted Retryable r := by
  rcases Machine.completes_bind.1 h with ⟨t, hfetch, -⟩ | ⟨answer, ks₁, ks₂, rfl, -, hrest⟩
  · rcases completes_attempt.1 hfetch with ⟨a, -, hr⟩ | ⟨-, hr⟩ <;> cases hr
  cases answer with
  | some response =>
    obtain ⟨-, rfl⟩ := Machine.completes_halt.1 hrest
    exact ends_checkReadBack hreadback response
  | none =>
    obtain ⟨-, rfl⟩ := Machine.completes_halt.1 hrest
    exact hreadback _ _

theorem delivers_createAndReadBack
    (hunavailable : ∀ message status, status ≠ some 401 → status ≠ some 403 →
      Retryable (e.unavailable message status))
    (hreadback : ∀ message status, Retryable (e.readbackFailed message status)) :
    Delivers P Persisted Retryable (createAndReadBack e (toComment parseBody) payload) := by
  intro ks r h hposted hallowed
  unfold createAndReadBack at h
  rcases Machine.completes_bind.1 h with ⟨t, hfetch, -⟩ | ⟨answer, ks₁, ks₂, rfl, hfetch, hrest⟩
  · rcases completes_attempt.1 hfetch with ⟨a, -, hr⟩ | ⟨-, hr⟩ <;> cases hr
  clear h
  rcases completes_attempt.1 hfetch with ⟨response, hresp, hr⟩ | ⟨-, hr⟩
  · obtain rfl := Except.ok.inj hr
    obtain ⟨post, rfl, hop, hpost⟩ := completes_fetch hresp
    simp only [Script.pure_eq, Script.halt_ok_bind] at hrest
    split_ifs at hrest with hok
    · simp only [Script.throw_eq, Script.halt_error_bind, Machine.completes_halt] at hrest
      obtain ⟨rfl, rfl⟩ := hrest
      obtain ⟨p, hp, haccepted⟩ := hposted
      obtain rfl := List.mem_singleton.1 hp
      have hstatus : ¬ (response.status = 401 ∨ response.status = 403) := fun hs =>
        hallowed p hp ⟨haccepted, _, _, response, hop, hpost, hs⟩
      exact hunavailable _ _ (fun hs => hstatus (.inl (Option.some.inj hs)))
        fun hs => hstatus (.inr (Option.some.inj hs))
    · split at hrest
      · obtain ⟨-, rfl⟩ := Machine.completes_halt.1 hrest
        rfl
      · obtain ⟨-, rfl⟩ := Machine.completes_halt.1 hrest
        rfl
      · rename_i created _ _
        split_ifs at hrest
        · simp only [Script.throw_eq, Script.halt_error_bind, Machine.completes_halt] at hrest
          obtain ⟨-, rfl⟩ := hrest
          exact hreadback _ _
        · have heq := readBack_eq e (toComment parseBody) payload (commentId created)
          exact ends_readBack hreadback (heq ▸ hrest)
  · obtain rfl := Except.ok.inj hr
    obtain ⟨-, rfl⟩ := Machine.completes_halt.1 hrest
    exact hunavailable _ _ (by simp) (by simp)

theorem retryable_marketErrors (message : String) (status : Option ℕ) :
    (status ≠ some 401 → status ≠ some 403 → Retryable (marketErrors.unavailable message status)) ∧
      Retryable (marketErrors.readbackFailed message status) :=
  ⟨fun h401 h403 => decide_eq_true ⟨h401, h403⟩, rfl⟩

theorem retryable_investmentErrors (message : String) (status : Option ℕ) :
    (status ≠ some 401 → status ≠ some 403 → Retryable (investmentErrors.unavailable message status)) ∧
      Retryable (investmentErrors.readbackFailed message status) :=
  ⟨fun h401 h403 => decide_eq_true ⟨h401, h403⟩, rfl⟩

theorem delivers_appendMarketCheckpoint (token : String) (checkpoint : Json) :
    Delivers P Persisted Retryable (appendMarketCheckpoint P token checkpoint) := by
  unfold appendMarketCheckpoint
  split
  · exact .of_issues trivial
  · refine .bind trivial fun _ => ?_
    refine .bind (issues_getMarketCheckpoints (fun _ => rfl) _ _ _) fun state => ?_
    dsimp only
    split
    · exact .of_issues trivial
    · refine .bind trivial fun checkpoint => .bind trivial fun _ => ?_
      split
      · split
        · exact .of_issues trivial
        · exact .of_issues trivial
      · split
        · exact .of_issues trivial
        · exact .ite (.of_issues trivial) (delivers_createAndReadBack
            (fun m s => (retryable_marketErrors m s).1) fun m s => (retryable_marketErrors m s).2)

theorem delivers_appendInvestmentLedgerBatch (token : String) (role : InvestmentLedgerRole) (batch : Json) :
    Delivers P Persisted Retryable (appendInvestmentLedgerBatch P token role batch) := by
  unfold appendInvestmentLedgerBatch
  split
  · exact .of_issues trivial
  · refine .bind trivial fun _ => ?_
    dsimp only
    split
    · exact .of_issues trivial
    · refine .bind (issues_fetchAllComments (fun _ => rfl) _ _) fun raw => ?_
      refine .bind trivial fun comments => ?_
      split
      · exact delivers_createAndReadBack (fun m s => (retryable_investmentErrors m s).1)
          fun m s => (retryable_investmentErrors m s).2
      · split
        · exact .of_issues trivial
        · exact .of_issues trivial
      · exact .of_issues trivial

theorem delivers_appendLedger (token : String) (channel : StateWriteChannel) (batch : Json) :
    Delivers P Persisted Retryable (appendLedger P token channel batch) := by
  unfold appendLedger
  split
  · exact delivers_appendMarketCheckpoint _ _
  · exact delivers_appendInvestmentLedgerBatch _ _ _

end Ledgers

/-! ## The gateway and the execution -/

/-- What the execution of an envelope makes of the error is worth a retry. -/
def Retried (t : Thrown) : Prop :=
  (gatewayErrorOf t).retryable = true

/-- The run stays `UNKNOWN`, or is `COMPLETED` with one fresh delta. -/
def RecordsDelta (o : LedgerOutcome) : Prop :=
  ∀ n, (terminalOf n o).outcome = .UNKNOWN ∨
    (terminalOf n o).outcome = .COMPLETED ∧ (terminalOf n o).freshDeltaCount = some 1

section Gateway

variable {P : Runtime}

theorem delivers_settle {input : StateAppendInput} {validated : ValidatedStateBatch}
    {requestId writeKey payloadSha256 : String} :
    Delivers P (fun a => a.status = .PERSISTED) Retried
      (settle P input validated requestId writeKey payloadSha256) := by
  have hfinal : ∀ request : FinalizeRequest,
      (finalizeStateWriteReceipt request).Issues fun op => op.posts = false := fun request => by
    refine Script.Issues.bind (Script.issues_perform.2 rfl) fun _ => ?_
    refine Script.Issues.bind (Script.issues_perform.2 rfl) fun receipt => ?_
    cases receipt with
    | none => trivial
    | some receipt => trivial
  refine @Delivers.tryCatch P _ _ Retryable _ _ _ ?_ (fun t => ?_) fun t ht ks r h => ?_
  · refine (delivers_appendLedger _ _ _).andThen (fun result => ?_) (fun result hresult ks r h => ?_)
      fun _ ht => ht
    · exact Script.Issues.bind (Script.issues_perform.2 rfl) fun _ => (hfinal _).bind fun _ => trivial
    · obtain ⟨broken, -, ⟨-, rfl⟩ | ⟨-, receipt, rfl⟩⟩ :=
        completes_finalizing result.status.receiptStatus (fun _ => rfl) h
      · rfl
      · exact hresult
  · exact Script.Issues.bind (Script.issues_perform.2 rfl) fun _ => (hfinal _).bind fun _ => trivial
  · obtain ⟨broken, -, ⟨-, rfl⟩ | ⟨-, receipt, rfl⟩⟩ :=
      completes_finalizing (failedStatus (mapDomainError t).code) (fun _ => rfl) h
    · rfl
    · exact ht

theorem delivers_appendStateBatch (input : StateAppendInput) :
    Delivers P (fun a => a.status = .PERSISTED) Retried (appendStateBatch P input) := by
  refine .bind (issues_givenOr (Script.issues_perform.2 rfl)) fun requestId => ?_
  refine .bind (issues_givenOr (Script.issues_perform.2 rfl)) fun now => ?_
  refine .bind (Script.Issues.tryCatch (issues_validateAppend (fun _ => rfl) _) fun _ => trivial)
    fun validated => ?_
  refine .bind (issues_reserveStateWrite _ _ _ _ _ rfl rfl fun _ => rfl) fun reservation => ?_
  unfold continueReserved
  split_ifs
  · exact .of_issues trivial
  · exact .of_issues trivial
  · exact .of_issues trivial
  · exact delivers_settle

theorem delivers_executeAppend {input : EnvelopeInput} {eventCount : Option ℕ}
    {append : OwnerContext → Program CommandAppendResult}
    (happend : ∀ context, Delivers P (fun a => a.status = .PERSISTED) Retried (append context)) :
    Delivers P RecordsDelta Retried (executeAppend input eventCount append) := by
  have hcatch : ∀ (n : Option ℕ) (t : Thrown), Retried t → ∀ ks r,
      (machine P).Completes (return .error (gatewayErrorOf t) n : Program LedgerOutcome) ks r →
        Ends RecordsDelta Retried r := by
    intro n t ht ks r h
    obtain ⟨-, rfl⟩ := Machine.completes_halt.1 h
    exact fun _ => .inl (if_pos ht)
  refine Delivers.tryCatch ?_ (fun _ => trivial) (hcatch none)
  refine .ite (.of_issues trivial) (.bind (Script.issues_perform.2 rfl) fun context => ?_)
  refine Delivers.tryCatch ?_ (fun _ => trivial) (hcatch eventCount)
  refine (happend context).andThen (fun _ => trivial) (fun a ha ks r h => ?_) fun _ ht => ht
  obtain ⟨-, rfl⟩ := Machine.completes_halt.1 h
  refine fun _ => .inr ?_
  simp only [terminalOf, ha, and_self]

/-- An envelope whose append has posted records its delta, or stays open. -/
theorem delivers_execute (input : EnvelopeInput) (requestId envelopeKey : String)
    (submission : Submission) :
    Delivers P RecordsDelta Retried (execute P input requestId envelopeKey submission) := by
  have hresult : ∀ (a : StateAppendResult) (id : Option String), a.status = .PERSISTED → ∀ ks r,
      (machine P).Completes (return { a with run_id := id } : Program CommandAppendResult) ks r →
        Ends (fun a : CommandAppendResult => a.status = .PERSISTED) Retried r := by
    intro a id ha ks r h
    obtain ⟨-, rfl⟩ := Machine.completes_halt.1 h
    exact ha
  cases submission with
  | blocked code => exact .of_issues trivial
  | observation freshCount => exact .of_issues trivial
  | heartbeat => exact .of_issues trivial
  | market payload =>
    refine delivers_executeAppend fun context => ?_
    refine .bind (issues_buildMarketObservationBatch (fun _ => rfl) _ _ _ _) fun built => ?_
    exact (delivers_appendStateBatch _).andThen (fun _ => trivial) (fun a => hresult a built.2) fun _ ht => ht
  | investment channel payload =>
    refine delivers_executeAppend fun context => .bind trivial fun prepared => ?_
    exact (delivers_appendStateBatch _).andThen (fun _ => trivial) (fun a => hresult a prepared.runId)
      fun _ ht => ht

end Gateway

end QuantproCollector.StateGateway
