import QuantproCollector.Lib.JsonText
import QuantproCollector.QuoteBridge.Projection

/-!
# The quote bridge

Two programs write the issue that carries the public quotes: the worker's `updateQuoteBridge` and the
manual script. Each reads the JSON block of the issue's body, attempts a new snapshot, and writes the
body anew; where the attempt fails it carries over what the block held. The worker projects what it
carries over, and writes nothing where that cannot be projected; the script carries it over as it is.
-/

namespace QuantproCollector.QuoteBridge

open LiveUniverse Portfolio

/-! ## Bodies -/

/-- What the JSON block of a body holds of the last success. -/
structure Previous where
  snapshot : Json
  lastSuccessAt : Json
deriving DecidableEq

def previousOf (payload : Json) : Previous where
  snapshot := (payload.get? "snapshot").getD .null
  lastSuccessAt := ((payload.get? "bridge").bind (·.get? "last_success_at")).getD .null

def parsePreviousBridge (body : Option String) : Previous :=
  match body.bind fun text => (Json.fenced? isSpace text.toList).bind Json.parse with
  | none => ⟨.null, .null⟩
  | some payload => previousOf payload

inductive AttemptStatus where
  | SUCCESS
  | FAIL
deriving DecidableEq

def AttemptStatus.text : AttemptStatus → String
  | .SUCCESS => "SUCCESS"
  | .FAIL => "FAIL"

structure BridgePayload where
  last_attempt_at : String
  last_attempt_status : AttemptStatus
  last_success_at : Json
  workflow_run_id : String
  workflow_run_attempt : String
  source : String
  error : Option String
  snapshot : Json
deriving DecidableEq

def BridgePayload.json (p : BridgePayload) : Json :=
  .obj [("schema_version", .str "1.0"),
    ("bridge", .obj [("last_attempt_at", .str p.last_attempt_at),
      ("last_attempt_status", .str p.last_attempt_status.text),
      ("last_success_at", p.last_success_at), ("workflow_run_id", .str p.workflow_run_id),
      ("workflow_run_attempt", .str p.workflow_run_attempt), ("source", .str p.source),
      ("error", (p.error.map Json.str).getD .null)]),
    ("snapshot", p.snapshot)]

/-- The body with a title and a note. -/
def issueBody (title note : String) (payload : BridgePayload) : String :=
  "\n".intercalate [title, "", note, "", "```json", String.ofList (Json.pretty payload.json), "```"]

/-! ## The worker -/

def createIssueBody (payload : BridgePayload) : String :=
  issueBody "# A/H 行情计划任务数据桥"
    "> 机器数据。由 Cloudflare Worker Cron 自动刷新；GitHub Actions 仅用于手工补跑。本载荷为 quote-only（public_quote_snapshot/1），不含任何持仓身份/数量字段；LIVE 持仓真相由受鉴权 quote-universe/1 动态层承接；请勿手工编辑 JSON 区域。"
    payload

/-- The rest of a text after a word, in either case. -/
def afterWord (word : String) (s : List Char) : Option (List Char) :=
  if (s.take word.length).map Char.toLower = word.toList then some (s.drop word.length) else none

/-- The rest after one character of the class or more. -/
def afterSome (p : Char → Bool) (s : List Char) : Option (List Char) :=
  if s.takeWhile p = [] then none else some (s.dropWhile p)

/-- A match of `/authorization\s*:\s*[^,\s]+/i` at the head of a text: what follows it. -/
def authorization? (s : List Char) : Option (List Char) := do
  let s ← afterWord "authorization" s
  let s ← afterWord ":" (s.dropWhile isSpace)
  afterSome (fun c => c ≠ ',' && !isSpace c) (s.dropWhile isSpace)

/-- A match of `/bearer\s+[^\s]+/i` at the head of a text: what follows it. -/
def bearer? (s : List Char) : Option (List Char) := do
  let s ← afterWord "bearer" s
  let s ← afterSome isSpace s
  afterSome (fun c => !isSpace c) s

/-- The replacement of every match; a text of that many characters is read. -/
def replaceAll (rest? : List Char → Option (List Char)) (replacement : String) :
    ℕ → List Char → List Char
  | 0, s => s
  | _ + 1, [] => []
  | n + 1, c :: s =>
    match rest? (c :: s) with
    | some rest => replacement.toList ++ replaceAll rest? replacement n rest
    | none => c :: replaceAll rest? replacement n s

/-- As many of the characters as fit in the UTF-16 units. -/
def takeUnits : ℕ → List Char → List Char
  | _, [] => []
  | n, c :: s =>
    if (Utf16.ofChar c).length ≤ n then c :: takeUnits (n - (Utf16.ofChar c).length) s else []

def safeErrorMessage (message : String) : String :=
  let s := message.toList
  let s := replaceAll authorization? "authorization: [REDACTED]" s.length s
  let s := replaceAll bearer? "Bearer [REDACTED]" s.length s
  String.ofList (takeUnits 500 s)

/-- What an attempt throws: a `BridgeError`, with its message, or any other error. -/
inductive UpstreamError where
  | bridge (message : String)
  | other (message : String)

/-- The text of the error that a failed attempt records. -/
def UpstreamError.recorded : UpstreamError → String
  | .bridge message => "BridgeError: " ++ message
  | .other message => "BridgeError: " ++ safeErrorMessage message

/-- A run of the bridge: what the provider answers, the clock, and the run's identifiers. -/
structure BridgeRun where
  upstream : Except UpstreamError Json
  now : String
  workflowRunId : String
  workflowRunAttempt : String

/-- The snapshot of the attempt, projected. -/
def BridgeRun.attempt (run : BridgeRun) : Except UpstreamError Json :=
  match run.upstream with
  | .error e => .error e
  | .ok snapshot =>
    match toPublicQuoteSnapshot snapshot with
    | .error message => .error (.other message)
    | .ok projection => .ok projection

/-- What a failed run carries over. -/
def carriedOver (previous : Previous) : Except String Json :=
  if truthy (some previous.snapshot) then toPublicQuoteSnapshot previous.snapshot else .ok .null

/-- The payload of a run, or the error with which it ends before it writes. -/
def bridgePayload (body : Option String) (run : BridgeRun) : Except String BridgePayload :=
  let previous := parsePreviousBridge body
  match run.attempt with
  | .ok snapshot => .ok
      { last_attempt_at := run.now
        last_attempt_status := .SUCCESS
        last_success_at := .str run.now
        workflow_run_id := run.workflowRunId
        workflow_run_attempt := run.workflowRunAttempt
        source := "PRIVATE_KV_DIRECT_TENCENT"
        error := none
        snapshot := snapshot }
  | .error e => do
    let snapshot ← carriedOver previous
    return {
      last_attempt_at := run.now
      last_attempt_status := .FAIL
      last_success_at := previous.lastSuccessAt
      workflow_run_id := run.workflowRunId
      workflow_run_attempt := run.workflowRunAttempt
      source := "PRIVATE_KV_DIRECT_TENCENT"
      error := some e.recorded
      snapshot := snapshot }

/-- The body after a run, GitHub's answers being successes. -/
def updateQuoteBridge (body : Option String) (run : BridgeRun) : Option String :=
  match bridgePayload body run with
  | .ok payload => some (createIssueBody payload)
  | .error _ => body

/-! ## The manual script -/

/-- What the fetch of a source throws: its text, and whether it carries the status 404. -/
structure FetchFailure where
  text : String
  notFound : Bool

structure ManualRun where
  /-- The sources, with what each of them answers. -/
  sources : List (String × Except FetchFailure Json)
  now : String
  workflowRunId : String
  workflowRunAttempt : String

def validateFetchedSnapshot (candidate : Json) : Except FetchFailure Json :=
  match assertPublicQuotePrivacy candidate with
  | .ok () => .ok candidate
  | .error message => .error ⟨"Error: " ++ message, false⟩

/-- The loop over the sources: one that is not found is passed over, unless it is the last. -/
def fetchFirst : List (String × Except FetchFailure Json) → Except String (String × Json)
  | [] => .error "Error: all upstream sources failed"
  | (source, answer) :: rest =>
    match answer >>= validateFetchedSnapshot with
    | .ok candidate => .ok (source, candidate)
    | .error e => if e.notFound && !rest.isEmpty then fetchFirst rest else .error e.text

/-- The script's `createIssueBody`. -/
def createManualIssueBody (payload : BridgePayload) : String :=
  issueBody "# QuantPro Collector A/H 行情计划任务数据桥"
    "> 机器数据。由 Cloudflare Worker Cron 自动刷新；GitHub Actions 仅用于手工补跑。本载荷为 quote-only（public_quote_snapshot/1），不含任何持仓身份/数量字段；请勿手工编辑 JSON 区域。"
    payload

def manualPayload (body : Option String) (run : ManualRun) : BridgePayload :=
  let previous := parsePreviousBridge body
  match fetchFirst run.sources with
  | .ok (source, candidate) =>
    { last_attempt_at := run.now
      last_attempt_status := .SUCCESS
      last_success_at := .str run.now
      workflow_run_id := run.workflowRunId
      workflow_run_attempt := run.workflowRunAttempt
      source := source
      error := none
      snapshot := candidate }
  | .error text =>
    { last_attempt_at := run.now
      last_attempt_status := .FAIL
      last_success_at := previous.lastSuccessAt
      workflow_run_id := run.workflowRunId
      workflow_run_attempt := run.workflowRunAttempt
      source := (run.sources.map Prod.fst).headD "unknown"
      error := some text
      snapshot := previous.snapshot }

def runManualQuoteBridge (body : Option String) (run : ManualRun) : Option String :=
  some (createManualIssueBody (manualPayload body run))

end QuantproCollector.QuoteBridge
