import QuantproCollector.StateGateway.World

/-!
# Reading and appending ledger comments

What the two ledgers share: reads are retried (`fetchStateLedgerReadWithRetry`), a listing follows
its pages (`fetchAllComments`), and an append creates a comment and reads it back
(`createAndReadBack`). The ledgers differ in their error classes and texts, which `LedgerErrors`
holds, and in what they accept as the comment they wrote.
-/

namespace QuantproCollector.StateGateway

open Async

/-- The errors of one ledger. -/
structure LedgerErrors where
  ledger : Ledger
  unavailable : String → Option ℕ → Thrown
  readbackFailed : String → Option ℕ → Thrown
  /-- What the read-back error texts call the ledger. -/
  subject : String
  mismatch : String

/-! ## Reads -/

def STATE_LEDGER_READ_RETRY_DELAYS_MS : List ℕ := [100, 250]

def isRetryableStateLedgerReadStatus (status : ℕ) : Bool :=
  status = 408 || status = 425 || status = 429 || (decide (500 ≤ status) && decide (status ≤ 599))

/-- Read, and after a delay once more for each of the delays, until the answer is final. -/
def fetchStateLedgerReadWithRetry (request : Request) : List ℕ → Program HttpResponse
  | [] => fetch request
  | _ :: delays => do
    match ← attempt (fetch request) with
    | some response =>
      if response.ok || !isRetryableStateLedgerReadStatus response.status then return response
      else fetchStateLedgerReadWithRetry request delays
    | none => fetchStateLedgerReadWithRetry request delays

def MAX_COMMENT_PAGES : ℕ := 100

/-- The comments from a page on, of at most as many pages. -/
def fetchPages (e : LedgerErrors) : ℕ → Page → List Json → Program (List Json)
  | 0, _, _ =>
    throw (e.unavailable "GitHub issue comment pagination exceeded the safety limit" none)
  | pages + 1, page, comments => do
    let response ←
      match ← attempt (fetchStateLedgerReadWithRetry (.list page)
        STATE_LEDGER_READ_RETRY_DELAYS_MS) with
      | some response => pure response
      | none => throw (e.unavailable "GitHub issue comment read request failed" none)
    if !response.ok then
      throw (e.unavailable s!"GitHub issue comment read failed with HTTP {response.status}"
        (some response.status))
    match response.body with
    | none => throw .raw
    | some (.arr items) =>
      match response.next with
      | none => return comments ++ items
      | some next => fetchPages e pages next (comments ++ items)
    | some _ => throw (e.unavailable "GitHub issue comment response is not an array" none)

/-- All comments of the ledger, or those since a time. -/
def fetchAllComments (e : LedgerErrors) (since : Option String) : Program (List Json) :=
  fetchPages e MAX_COMMENT_PAGES ⟨e.ledger, since, 1⟩ []

/-! ## Comments -/

/-- `comment.body` as both parsers treat it: none, a text, or a value without `match`. -/
def commentBody (comment : Json) : Except Thrown (Option String) :=
  match comment with
  | .null => .error .raw
  | _ =>
    match comment.get? "body" with
    | none | some .null | some (.bool false) => .ok none
    | some (.str s) => .ok (if s = "" then none else some s)
    | some (.num x) => if x.mantissa = 0 then .ok none else .error .raw
    | some _ => .error .raw

/-- `String(comment.id)`, or the empty text. -/
def commentId (comment : Json) : String :=
  match comment.get? "id" with
  | none | some .null => ""
  | some v => v.text

/-- A text field, or the empty text. -/
def textField (v : Json) (k : String) : String :=
  ((v.get? k).bind Json.str?).getD ""

/-- The page URL of a comment, or else its API URL. -/
def commentLink (comment : Json) : String :=
  match comment.get? "html_url" with
  | some (.str s) => s
  | _ => textField comment "url"

structure LedgerComment where
  comment_id : String
  url : String
  created_at : String
  payload : Json
deriving DecidableEq

/-- A comment whose body a ledger parses to a payload. -/
def toComment (parseBody : Option String → Option Json) (comment : Json) :
    Except Thrown (Option LedgerComment) := do
  let body ← commentBody comment
  match parseBody body with
  | none => return none
  | some payload =>
    let c : LedgerComment :=
      ⟨commentId comment, commentLink comment, textField comment "created_at", payload⟩
    return if c.comment_id = "" ∨ c.created_at = "" ∨ c.url = "" then none else some c

/-- Equality up to the order of keys. -/
def samePayload (left right : Json) : Bool :=
  left.rebuiltText = right.rebuiltText

/-! ## Appends -/

inductive AppendStatus where
  | PERSISTED
  | IDEMPOTENT_REPLAY
deriving DecidableEq

structure AppendResult where
  status : AppendStatus
  comment_id : String
  url : String
  created_at : String
  payload : Json
deriving DecidableEq

/-- The Markdown body of a payload. -/
def ledgerBody (payload : Json) : List Char :=
  Json.fence ++ "json\n".toList ++ payload.pretty ++ '\n' :: Json.fence

/-- Create a comment with the payload, read it back and compare. -/
def createAndReadBack (e : LedgerErrors)
    (parse : Json → Except Thrown (Option LedgerComment)) (payload : Json) :
    Program AppendResult := do
  let createResponse ←
    match ← attempt (fetch (.create e.ledger (ledgerBody payload))) with
    | some response => pure response
    | none => throw (e.unavailable "GitHub issue comment append request failed" none)
  if !createResponse.ok then
    throw (e.unavailable s!"GitHub issue comment append failed with HTTP {createResponse.status}"
      (some createResponse.status))
  let created ←
    match createResponse.body with
    | none | some .null => throw Thrown.raw
    | some created => pure created
  let createdId := commentId created
  if createdId = "" then
    throw (e.readbackFailed "GitHub append response did not contain a comment id" none)
  let readbackResponse ←
    match ← attempt (fetchStateLedgerReadWithRetry (.get e.ledger createdId)
      STATE_LEDGER_READ_RETRY_DELAYS_MS) with
    | some response => pure response
    | none => throw (e.readbackFailed s!"GitHub {e.subject} readback request failed" none)
  if !readbackResponse.ok then
    throw (e.readbackFailed
      s!"GitHub {e.subject} readback failed with HTTP {readbackResponse.status}"
      (some readbackResponse.status))
  match readbackResponse.body with
  | none => throw .raw
  | some comment =>
    match parse comment with
    | .error t => throw t
    | .ok none => throw (e.readbackFailed e.mismatch none)
    | .ok (some readback) =>
      if samePayload readback.payload payload then
        return ⟨.PERSISTED, readback.comment_id, readback.url, readback.created_at,
          readback.payload⟩
      else throw (e.readbackFailed e.mismatch none)

end QuantproCollector.StateGateway
