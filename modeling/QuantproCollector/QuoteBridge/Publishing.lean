import QuantproCollector.QuoteBridge.Bridge

/-!
# What the bridge publishes

The worker publishes only what `assertPublicQuotePrivacy` accepts; the manual script also what an
earlier body held (`quote_only_iff`). A public snapshot is no catalog snapshot, so the worker cannot
carry one over: a run that fails while one is published ends before it writes. `last_good_kept` says
when the body records every attempt.
-/

namespace QuantproCollector.QuoteBridge

open LiveUniverse Portfolio
open Fallible (bind_eq_ok)

/-! ## Quote-only bodies -/

/-- A snapshot that may be published. -/
def QuoteOnly (snapshot : Json) : Prop :=
  snapshot = .null ∨ assertPublicQuotePrivacy snapshot = .ok ()

theorem quoteOnly_attempt {run : BridgeRun} {snapshot : Json} (h : run.attempt = .ok snapshot) :
    QuoteOnly snapshot := by
  unfold BridgeRun.attempt at h
  split at h
  · cases h
  · split at h
    · cases h
    · rename_i hprojection
      obtain rfl := Except.ok.inj h
      exact .inr (assert_of_toPublicQuoteSnapshot hprojection)

theorem quoteOnly_carriedOver {previous : Previous} {snapshot : Json}
    (h : carriedOver previous = .ok snapshot) : QuoteOnly snapshot := by
  unfold carriedOver at h
  split_ifs at h
  · exact .inr (assert_of_toPublicQuoteSnapshot h)
  · exact .inl (Except.ok.inj h).symm

/-- The worker's payload, whatever it read and however its attempt went. -/
theorem quoteOnly_bridgePayload {body : Option String} {run : BridgeRun} {payload : BridgePayload}
    (h : bridgePayload body run = .ok payload) : QuoteOnly payload.snapshot := by
  unfold bridgePayload at h
  cases hattempt : run.attempt with
  | ok snapshot =>
    rw [hattempt] at h
    obtain rfl := Except.ok.inj h
    exact quoteOnly_attempt hattempt
  | error e =>
    simp only [hattempt, bind_eq_ok] at h
    obtain ⟨snapshot, hcarried, hpayload⟩ := h
    obtain rfl := Except.ok.inj hpayload
    exact quoteOnly_carriedOver hcarried

theorem assert_of_fetchFirst {sources : List (String × Except FetchFailure Json)}
    {found : String × Json} (h : fetchFirst sources = .ok found) :
    assertPublicQuotePrivacy found.2 = .ok () := by
  induction sources with
  | nil => cases h
  | cons entry rest ih =>
    obtain ⟨source, answer⟩ := entry
    rw [fetchFirst] at h
    split at h
    · rename_i candidate hcandidate
      obtain rfl := Except.ok.inj h
      obtain ⟨a, -, hvalid⟩ := bind_eq_ok.1 hcandidate
      unfold validateFetchedSnapshot at hvalid
      split at hvalid
      · rename_i hassert
        obtain rfl := Except.ok.inj hvalid
        exact hassert
      · cases hvalid
    · split_ifs at h
      exact ih h

/-- **Quote-only content.** Both programs publish only quote-only content if and only if the manual
run fetches a snapshot, or the previous body holds nothing else. -/
theorem quote_only_iff (body : Option String) (run : BridgeRun) (manual : ManualRun) :
    ((∀ payload, bridgePayload body run = .ok payload → QuoteOnly payload.snapshot) ∧
        QuoteOnly (manualPayload body manual).snapshot) ↔
      (∃ found, fetchFirst manual.sources = .ok found) ∨
        QuoteOnly (parsePreviousBridge body).snapshot := by
  have hworker : ∀ payload, bridgePayload body run = .ok payload → QuoteOnly payload.snapshot :=
    fun payload h => quoteOnly_bridgePayload h
  cases hfetch : fetchFirst manual.sources with
  | ok found =>
    have hmanual : (manualPayload body manual).snapshot = found.2 := by
      simp only [manualPayload, hfetch]
    exact ⟨fun _ => .inl ⟨found, rfl⟩,
      fun _ => ⟨hworker, hmanual ▸ .inr (assert_of_fetchFirst hfetch)⟩⟩
  | error text =>
    have hmanual : (manualPayload body manual).snapshot = (parsePreviousBridge body).snapshot := by
      simp only [manualPayload, hfetch]
    rw [hmanual]
    constructor
    · exact fun h => .inr h.2
    · rintro (⟨found, h⟩ | h)
      · cases h
      · exact ⟨hworker, h⟩

def manualNow : String := "2026-09-30T02:00:00.000Z"

/-- A body that an older version wrote. -/
def legacyBody : String :=
  "```json\n\x7b\"schema_version\":\"1.0\",\"snapshot\":\x7b\"portfolio_version\":\"4\",\"stocks\":[\x7b\"code\":\"002466\",\"holding_status\":\"ACTIVE\",\"position_qty\":1200\x7d]\x7d\x7d\n```"

def failedManualRun : ManualRun :=
  ⟨[("https://quotes.example/api/public/quotes", .error ⟨"Error: HTTP 503: ", false⟩)], manualNow,
    "1", "1"⟩

/-- A manual run that fails publishes the holdings of a legacy body. -/
theorem legacy_republished :
    ¬ ∀ (body : Option String) (run : BridgeRun) (manual : ManualRun),
      (∀ payload, bridgePayload body run = .ok payload → QuoteOnly payload.snapshot) ∧
        QuoteOnly (manualPayload body manual).snapshot := by
  intro h
  have hmanual := (h (some legacyBody) ⟨.error (.bridge "TIMEOUT"), manualNow, "1", "1"⟩
    failedManualRun).2
  have hsnapshot : ¬ ((manualPayload (some legacyBody) failedManualRun).snapshot = .null ∨
      (assertPublicQuotePrivacy (manualPayload (some legacyBody) failedManualRun).snapshot).toOption =
        some ()) := by decide +kernel
  refine hsnapshot (hmanual.imp id fun hassert => ?_)
  rw [hassert]
  rfl

/-! ## The last good snapshot -/

/-- A snapshot in the form that the worker publishes. -/
def published (snapshot : Json) : Json :=
  match toPublicQuoteSnapshot snapshot with
  | .ok projection => projection
  | .error _ => snapshot

/-- The last success: that of the latest run that succeeded, before it what the first body holds. -/
def lastGood (body : Option String) : List BridgeRun → Previous
  | [] => ⟨published (parsePreviousBridge body).snapshot, (parsePreviousBridge body).lastSuccessAt⟩
  | run :: earlier =>
    match run.attempt with
    | .ok snapshot => ⟨snapshot, .str run.now⟩
    | .error _ => lastGood body earlier

/-- The body after runs, the latest first. -/
def bodyAfter (body : Option String) : List BridgeRun → Option String
  | [] => body
  | run :: earlier => updateQuoteBridge (bodyAfter body earlier) run

/-- The payload that was written last. -/
def lastWritten (body : Option String) : List BridgeRun → Option BridgePayload
  | [] => none
  | run :: earlier =>
    match bridgePayload (bodyAfter body earlier) run with
    | .ok payload => some payload
    | .error _ => lastWritten body earlier

/-- The status of a run's attempt. -/
def BridgeRun.status (run : BridgeRun) : AttemptStatus :=
  match run.attempt with
  | .ok _ => .SUCCESS
  | .error _ => .FAIL

/-- The body records the latest run's attempt, and the last success. -/
structure Records (body : Option String) (run : BridgeRun) (earlier : List BridgeRun)
    (payload : BridgePayload) : Prop where
  written : lastWritten body (run :: earlier) = some payload
  text : bodyAfter body (run :: earlier) = some (createIssueBody payload)
  last_attempt_at : payload.last_attempt_at = run.now
  last_attempt_status : payload.last_attempt_status = run.status
  snapshot : payload.snapshot = (lastGood body (run :: earlier)).snapshot
  last_success_at : payload.last_success_at = (lastGood body (run :: earlier)).lastSuccessAt

/-- The body has no snapshot, or still that of a private catalog, and reads back as it was written. -/
structure CarriesOver (body : Option String) (earlier : List BridgeRun) : Prop where
  snapshot : (parsePreviousBridge (bodyAfter body earlier)).snapshot = .null ∨
    ∃ projection, toPublicQuoteSnapshot (parsePreviousBridge (bodyAfter body earlier)).snapshot =
      .ok projection
  intact : ∀ payload, lastWritten body earlier = some payload →
    parsePreviousBridge (bodyAfter body earlier) = ⟨payload.snapshot, payload.last_success_at⟩

/-- Every run succeeds, or fails over a body that it can carry over. -/
def CarriesThroughout (body : Option String) : List BridgeRun → Prop
  | [] => True
  | run :: earlier =>
    CarriesThroughout body earlier ∧ (run.status = .SUCCESS ∨ CarriesOver body earlier)

/-- A projection has no `portfolio_version`, so it is not itself accepted. -/
theorem not_projected_twice {catalog projection again : Json}
    (h : toPublicQuoteSnapshot catalog = .ok projection) :
    toPublicQuoteSnapshot projection ≠ .ok again := by
  intro hagain
  simp only [toPublicQuoteSnapshot, bind_eq_ok] at hagain
  obtain ⟨_, hvalid, -⟩ := hagain
  have hversion := (validateSnapshot_ok.1 hvalid).version
  have hforbidden : "portfolio_version" ∈ FORBIDDEN_KEYS := by decide
  have hnone := not_hasKey_of_privacy (assert_of_toPublicQuoteSnapshot h) hforbidden
  cases projection with
  | obj fields =>
    cases hlookup : fields.lookup "portfolio_version" with
    | none => simp [Json.get?, hlookup, isNonEmptyString] at hversion
    | some v =>
      obtain ⟨before, after, rfl, -⟩ := List.lookup_eq_some_iff.1 hlookup
      exact hnone (.here (List.mem_append_right before List.mem_cons_self))
  | _ => simp [Json.get?, isNonEmptyString] at hversion

theorem published_not_projected (snapshot projection : Json) :
    toPublicQuoteSnapshot (published snapshot) ≠ .ok projection := by
  unfold published
  cases h : toPublicQuoteSnapshot snapshot with
  | ok q => exact not_projected_twice h
  | error e =>
    simp only [h]
    exact nofun

theorem attempt_not_projected {run : BridgeRun} {snapshot : Json} (h : run.attempt = .ok snapshot)
    (projection : Json) : toPublicQuoteSnapshot snapshot ≠ .ok projection := by
  unfold BridgeRun.attempt at h
  split at h
  · cases h
  · split at h
    · cases h
    · rename_i hprojection
      obtain rfl := Except.ok.inj h
      exact not_projected_twice hprojection

theorem lastGood_not_projected (body : Option String) (runs : List BridgeRun) (projection : Json) :
    toPublicQuoteSnapshot (lastGood body runs).snapshot ≠ .ok projection := by
  induction runs with
  | nil => exact published_not_projected _ projection
  | cons run earlier ih =>
    unfold lastGood
    cases h : run.attempt with
    | ok snapshot => exact attempt_not_projected h projection
    | error e => exact ih

theorem carriedOver_null {previous : Previous} (h : previous.snapshot = .null) :
    carriedOver previous = .ok .null := by
  simp [carriedOver, h, truthy]

theorem carriedOver_projection {previous : Previous} {projection : Json}
    (h : toPublicQuoteSnapshot previous.snapshot = .ok projection) :
    carriedOver previous = .ok projection := by
  have hvalid : Snapshot .none previous.snapshot := by
    simp only [toPublicQuoteSnapshot, bind_eq_ok] at h
    obtain ⟨_, hvalid, -⟩ := h
    exact validateSnapshot_ok.1 hvalid
  have htruthy : truthy (some previous.snapshot) = true := by
    have hrecord := hvalid.record
    cases hsnapshot : previous.snapshot with
    | obj fields => rfl
    | _ => simp [hsnapshot, isRecord] at hrecord
  rw [carriedOver, if_pos htruthy, h]

/-- What a failed run carries over is the last good snapshot. -/
theorem carriedOver_lastGood {body : Option String} {earlier : List BridgeRun}
    (h : CarriesOver body earlier)
    (hkept : ∀ run rest, earlier = run :: rest → ∃ payload, Records body run rest payload) :
    (parsePreviousBridge (bodyAfter body earlier)).lastSuccessAt = (lastGood body earlier).lastSuccessAt ∧
      carriedOver (parsePreviousBridge (bodyAfter body earlier)) =
        .ok (lastGood body earlier).snapshot := by
  cases earlier with
  | nil =>
    refine ⟨rfl, ?_⟩
    rcases h.snapshot with hnull | ⟨projection, hprojection⟩
    · rw [carriedOver_null hnull]
      change _ = Except.ok (published (parsePreviousBridge body).snapshot)
      change (parsePreviousBridge body).snapshot = .null at hnull
      rw [hnull]
      rfl
    · rw [carriedOver_projection hprojection]
      change _ = Except.ok (published (parsePreviousBridge body).snapshot)
      change toPublicQuoteSnapshot (parsePreviousBridge body).snapshot = _ at hprojection
      simp only [published, hprojection]
  | cons run rest =>
    obtain ⟨payload, hrecords⟩ := hkept run rest rfl
    have hintact := h.intact payload hrecords.written
    have hsnapshot : (parsePreviousBridge (bodyAfter body (run :: rest))).snapshot =
        (lastGood body (run :: rest)).snapshot := by rw [hintact, ← hrecords.snapshot]
    refine ⟨by rw [hintact, ← hrecords.last_success_at], ?_⟩
    rcases h.snapshot with hnull | ⟨projection, hprojection⟩
    · rw [carriedOver_null hnull, ← hsnapshot, hnull]
    · rw [hsnapshot] at hprojection
      exact absurd hprojection (lastGood_not_projected body (run :: rest) projection)

/-- A run that writes a payload records it. -/
theorem written_of_payload {body : Option String} {run : BridgeRun} {earlier : List BridgeRun}
    {payload : BridgePayload} (h : bridgePayload (bodyAfter body earlier) run = .ok payload) :
    lastWritten body (run :: earlier) = some payload ∧
      bodyAfter body (run :: earlier) = some (createIssueBody payload) := by
  simp only [lastWritten, bodyAfter, updateQuoteBridge, h, and_self]

theorem records_step {body : Option String} {run : BridgeRun} {earlier : List BridgeRun}
    (h : run.status = .SUCCESS ∨ CarriesOver body earlier)
    (hkept : ∀ run rest, earlier = run :: rest → ∃ payload, Records body run rest payload) :
    ∃ payload, Records body run earlier payload := by
  cases hattempt : run.attempt with
  | ok snapshot =>
    obtain ⟨payload, hpayload⟩ : ∃ payload, payload = (⟨run.now, .SUCCESS, .str run.now,
      run.workflowRunId, run.workflowRunAttempt, "PRIVATE_KV_DIRECT_TENCENT", none, snapshot⟩ :
        BridgePayload) := ⟨_, rfl⟩
    have hbridge : bridgePayload (bodyAfter body earlier) run = .ok payload := by
      rw [hpayload, bridgePayload, hattempt]
    obtain ⟨hwritten, htext⟩ := written_of_payload hbridge
    subst hpayload
    refine ⟨_, hwritten, htext, rfl, ?_, ?_, ?_⟩
    · simp only [BridgeRun.status, hattempt]
    · simp only [lastGood, hattempt]
    · simp only [lastGood, hattempt]
  | error e =>
    have hfail : run.status = .FAIL := by simp only [BridgeRun.status, hattempt]
    obtain ⟨hlast, hover⟩ := carriedOver_lastGood (h.resolve_left (by rw [hfail]; decide)) hkept
    obtain ⟨payload, hpayload⟩ : ∃ payload, payload = (⟨run.now, .FAIL,
      (parsePreviousBridge (bodyAfter body earlier)).lastSuccessAt, run.workflowRunId,
      run.workflowRunAttempt, "PRIVATE_KV_DIRECT_TENCENT", some e.recorded,
      (lastGood body earlier).snapshot⟩ : BridgePayload) := ⟨_, rfl⟩
    have hbridge : bridgePayload (bodyAfter body earlier) run = .ok payload := by
      simp only [bridgePayload, hattempt, hover, hpayload]
      rfl
    obtain ⟨hwritten, htext⟩ := written_of_payload hbridge
    subst hpayload
    refine ⟨_, hwritten, htext, rfl, hfail.symm, ?_, ?_⟩
    · simp only [lastGood, hattempt]
    · simp only [lastGood, hattempt, hlast]

/-- **The last good snapshot is kept.** Where every run succeeds or can carry over what the body
holds, the body after each run records its attempt, and the snapshot and time of the last success. -/
theorem last_good_kept (body : Option String) (run : BridgeRun) (earlier : List BridgeRun)
    (h : CarriesThroughout body (run :: earlier)) : ∃ payload, Records body run earlier payload := by
  induction earlier generalizing run with
  | nil => exact records_step h.2 nofun
  | cons previous earlier ih =>
    refine records_step h.2 fun run rest heq => ?_
    obtain ⟨rfl, rfl⟩ := List.cons.inj heq
    exact ih previous h.1

/-- A run that fails over a body with a public snapshot writes nothing. -/
theorem bridgePayload_of_published {body : Option String} {run : BridgeRun} {catalog : Json}
    (hbody : toPublicQuoteSnapshot catalog = .ok (parsePreviousBridge body).snapshot)
    (hrun : run.status = .FAIL) (payload : BridgePayload) : bridgePayload body run ≠ .ok payload := by
  intro h
  unfold bridgePayload at h
  cases hattempt : run.attempt with
  | ok snapshot => simp [BridgeRun.status, hattempt] at hrun
  | error e =>
    simp only [hattempt, bind_eq_ok] at h
    obtain ⟨snapshot, hcarried, -⟩ := h
    have hrecord := assert_of_toPublicQuoteSnapshot hbody
    unfold carriedOver at hcarried
    split_ifs at hcarried with htruthy
    · exact not_projected_twice hbody hcarried
    · simp only [assertPublicQuotePrivacy, bind_ok, require_ok] at hrecord
      cases hsnapshot : (parsePreviousBridge body).snapshot with
      | obj fields => simp [hsnapshot, truthy] at htruthy
      | _ => simp [hsnapshot, isRecord] at hrecord

/-- A failure alone writes no payload where the body has a projection. -/
theorem lastWritten_of_published {body : Option String} {run : BridgeRun} {catalog : Json}
    (hbody : toPublicQuoteSnapshot catalog = .ok (parsePreviousBridge body).snapshot)
    (hrun : run.status = .FAIL) (payload : BridgePayload) : lastWritten body [run] ≠ some payload := by
  intro h
  unfold lastWritten at h
  split at h
  · rename_i hpayload
    exact bridgePayload_of_published hbody hrun _ hpayload
  · cases h

theorem ok_of_toOption {ε α : Type} {x : Except ε α} {a : α} (h : x.toOption = some a) : x = .ok a := by
  cases x with
  | ok b =>
    cases h
    rfl
  | error e => cases h

/-! ## A failure after a success -/

/-- A snapshot of an empty catalog. -/
def emptySnapshot : Json :=
  .obj [("portfolio_version", .str "catalog:1"), ("snapshot_time", .str "2026-09-29T06:30:07+08:00"),
    ("system_quality", .str "OK"), ("summary", .obj [("total", .num (.ofInt 0))]),
    ("portfolio_universe", .arr []), ("stocks", .arr [])]

/-- The block of a body that a successful run left. -/
def successBody : String :=
  "```json\n\x7b\"schema_version\":\"1.0\",\"bridge\":\x7b\"last_attempt_status\":\"SUCCESS\"\x7d,\"snapshot\":\x7b\"schema_version\":\"public_quote_snapshot/1\",\"snapshot_time\":\"2026-09-29T06:30:07+08:00\",\"system_quality\":\"OK\",\"summary\":\x7b\"total\":0\x7d,\"stocks\":[]\x7d\x7d\n```"

def succeedingRun : BridgeRun := ⟨.ok emptySnapshot, manualNow, "1", "1"⟩

def failingRun : BridgeRun := ⟨.error (.bridge "TIMEOUT"), manualNow, "2", "1"⟩

theorem last_good_kept_success :
    ∃ payload, Records none succeedingRun [failingRun] payload :=
  last_good_kept none succeedingRun [failingRun]
    ⟨⟨trivial, .inr ⟨.inl rfl, nofun⟩⟩, .inl (by decide)⟩

/-- A run that fails after one that succeeded leaves the body as it is. -/
theorem failure_unrecorded :
    ¬ ∀ (body : Option String) (run : BridgeRun) (earlier : List BridgeRun),
      ∃ payload, Records body run earlier payload := by
  intro h
  have hpublic : (toPublicQuoteSnapshot emptySnapshot).toOption =
      some (parsePreviousBridge (some successBody)).snapshot := by decide +kernel
  obtain ⟨payload, hrecords⟩ := h (some successBody) failingRun []
  exact lastWritten_of_published (ok_of_toOption hpublic) (rfl : failingRun.status = .FAIL) payload
    hrecords.written

end QuantproCollector.QuoteBridge
