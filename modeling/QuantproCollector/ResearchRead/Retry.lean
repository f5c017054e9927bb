import QuantproCollector.QuoteBridge.Bridge

/-!
# Retries of research reads

Model of `src/src/research-read-retry.ts`: how a failure of a research read is classified by its texts, and
the loop that reads again. The outcome of the `i`-th call of the operation is any function of `i`; the sleep
and the report of a failure do not throw.

* `read_retried`: which calls a read makes, after which delays, what it reports and what it answers.
* `read_undisclosed`: of a failure that is no boundary error, only its class, its code and its name are told.
-/

namespace QuantproCollector.ResearchRead

open QuoteBridge

/-! ## Errors -/

inductive ResearchErrorCode where
  | NOT_FOUND
  | FILTERED
  | STORE_UNAVAILABLE
  | INTEGRITY_FAILED
  | UNSUPPORTED_OPERATION
  | RATE_LIMITED
deriving DecidableEq

def ResearchErrorCode.text : ResearchErrorCode → String
  | .NOT_FOUND => "NOT_FOUND"
  | .FILTERED => "FILTERED"
  | .STORE_UNAVAILABLE => "STORE_UNAVAILABLE"
  | .INTEGRITY_FAILED => "INTEGRITY_FAILED"
  | .UNSUPPORTED_OPERATION => "UNSUPPORTED_OPERATION"
  | .RATE_LIMITED => "RATE_LIMITED"

structure ResearchBoundaryError where
  error_code : ResearchErrorCode
  request_id : String
  retryable : Bool
  safe_message : String
deriving DecidableEq

inductive ResearchReadFailureClass where
  | TRANSIENT
  | DETERMINISTIC
  | UNKNOWN
deriving DecidableEq

structure ResearchReadBackendError where
  failure_class : ResearchReadFailureClass
  diagnostic_code : String
  source_error_name : String
deriving DecidableEq

/-- Any other value that is thrown; the name and the message of an object are their texts, and empty where
there is none. -/
inductive Value where
  /-- `null` or `undefined`. -/
  | absent
  | primitive
  | object (name message : String) (cause : Value)

inductive Thrown where
  | boundary (error : ResearchBoundaryError)
  | backend (error : ResearchReadBackendError)
  | value (value : Value)

/-! ## Classification -/

def SAFE_SOURCE_ERROR_NAMES : List String :=
  ["Error", "TypeError", "RangeError", "DOMException", "NetworkError", "AbortError", "D1Error"]

def safeErrorName : Value → String
  | .object name _ _ => if SAFE_SOURCE_ERROR_NAMES.contains name then name else "Error"
  | _ => "Error"

/-- The messages of a value and of its causes, of at most so many. -/
def messages : ℕ → Value → List (List Char)
  | 0, _ => []
  | depth + 1, .object _ message cause =>
    let message := trimEnd (message.toList.dropWhile isSpace)
    (if message = [] then [] else [message]) ++ messages depth cause
  | _ + 1, _ => []

def errorMessage (error : Value) : List Char :=
  takeUnits 2048 (['\n'].intercalate (messages 3 error))

/-- A test for the words, in either case. -/
def hasWord (words : List String) (s : List Char) : Bool :=
  s.tails.any fun t => words.any fun word => (afterWord word t).isSome

/-- What `.` does not match. -/
def isLineTerminator (c : Char) : Bool :=
  [0xA, 0xD, 0x2028, 0x2029].contains c.toNat

/-- A test for one of the first words and after it, on the same line, one of the second. -/
def hasWords (first second : List String) (s : List Char) : Bool :=
  s.tails.any fun t => first.any fun word =>
    (afterWord word t).any fun rest => hasWord second (rest.takeWhile fun c => !isLineTerminator c)

/-- A test for `timed?\s*out`. -/
def hasTimeout (s : List Char) : Bool :=
  s.tails.any fun t => (afterWord "time" t).any fun rest =>
    (afterWord "out" (((afterWord "d" rest).getD rest).dropWhile isSpace)).isSome

def isDeterministic (message : List Char) : Bool :=
  hasWord ["no such table", "no such column", "syntax error", "malformed database schema", "invalid sql",
    "sql logic error", "misuse of", "not configured"] message ||
  hasWords ["binding"] ["missing", "not found", "undefined"] message

def isTransient (message : List Char) : Bool :=
  hasWords ["network", "socket", "fetch", "connection"] ["fail", "lost", "reset", "closed"] message ||
  hasTimeout message ||
  hasWord ["temporary", "temporarily", "service unavailable", "database is locked", "database is busy",
    "reset by peer"] message

def classifyValue (error : Value) : ResearchReadBackendError :=
  if isDeterministic (errorMessage error) then
    ⟨.DETERMINISTIC, "DETERMINISTIC_BACKEND_QUERY_OR_CONFIG", safeErrorName error⟩
  else if isTransient (errorMessage error) then
    ⟨.TRANSIENT, "TRANSIENT_BACKEND_IO", safeErrorName error⟩
  else ⟨.UNKNOWN, "UNKNOWN_BACKEND_READ_ERROR", safeErrorName error⟩

/-- A boundary error is an object as any other. -/
def classifyResearchReadBackendError : Thrown → ResearchReadBackendError
  | .boundary error => classifyValue (.object "ResearchBoundaryError" error.safe_message .absent)
  | .backend error => error
  | .value error => classifyValue error

def failureMetadata : Thrown → ResearchReadBackendError
  | .boundary error =>
    ⟨if error.error_code = .STORE_UNAVAILABLE && error.retryable then .TRANSIENT else .DETERMINISTIC,
      "BOUNDARY_" ++ error.error_code.text, "ResearchBoundaryError"⟩
  | error => classifyResearchReadBackendError error

def shouldRetryResearchRead : Thrown → Bool
  | .boundary error => decide (error.error_code = .STORE_UNAVAILABLE) && error.retryable
  | error => decide ((classifyResearchReadBackendError error).failure_class ≠ .DETERMINISTIC)

/-! ## The loop -/

def RESEARCH_READ_RETRY_DELAYS_MS : List ℕ := [500, 1500]

/-- The report of a failure; its stage is always `research_read`. -/
structure ResearchReadFailureEvent where
  request_id : String
  tool : String
  attempt : ℕ
  max_attempts : ℕ
  will_retry : Bool
  failure_class : ResearchReadFailureClass
  diagnostic_code : String
  source_error_name : String
deriving DecidableEq

structure ResearchReadRetryOptions where
  delaysMs : List ℕ := RESEARCH_READ_RETRY_DELAYS_MS
  requestId : String
  tool : String := "research_read"

inductive Step where
  | onFailure (event : ResearchReadFailureEvent)
  | sleep (delayMs : ℕ)
deriving DecidableEq

namespace ResearchReadRetryOptions

variable (o : ResearchReadRetryOptions)

def event (attemptIndex : ℕ) (willRetry : Bool) (error : Thrown) : ResearchReadFailureEvent where
  request_id := o.requestId
  tool := o.tool
  attempt := attemptIndex + 1
  max_attempts := o.delaysMs.length + 1
  will_retry := willRetry
  failure_class := (failureMetadata error).failure_class
  diagnostic_code := (failureMetadata error).diagnostic_code
  source_error_name := (failureMetadata error).source_error_name

/-- What a read throws that does not retry. -/
def finalError : Thrown → ResearchBoundaryError
  | .boundary error =>
    if error.error_code = .STORE_UNAVAILABLE then
      ⟨.STORE_UNAVAILABLE, o.requestId, error.retryable, error.safe_message⟩
    else error
  | error =>
    let retryable := decide ((classifyResearchReadBackendError error).failure_class ≠ .DETERMINISTIC)
    ⟨.STORE_UNAVAILABLE, o.requestId, retryable,
      if retryable then "research read backend unavailable; retry later"
      else "research read backend failed; retry is not advised"⟩

end ResearchReadRetryOptions

/-- Whether a failure is retried, as long as there is a delay left. -/
def retries (attemptIndex : ℕ) (error : Thrown) : Bool :=
  shouldRetryResearchRead error &&
    (decide ((failureMetadata error).failure_class ≠ .UNKNOWN) || decide (attemptIndex = 0))

section Loop

variable {α : Type} (o : ResearchReadRetryOptions) (operation : ℕ → Except Thrown α)

/-- The calls from a number on, with the delays that are left. -/
def retryLoop : ℕ → List ℕ → List Step × Except ResearchBoundaryError α
  | attemptIndex, [] =>
    match operation attemptIndex with
    | .ok a => ([], .ok a)
    | .error error => ([.onFailure (o.event attemptIndex false error)], .error (o.finalError error))
  | attemptIndex, delayMs :: delays =>
    match operation attemptIndex with
    | .ok a => ([], .ok a)
    | .error error =>
      if retries attemptIndex error then
        let rest := retryLoop (attemptIndex + 1) delays
        (.onFailure (o.event attemptIndex true error) :: .sleep delayMs :: rest.1, rest.2)
      else ([.onFailure (o.event attemptIndex false error)], .error (o.finalError error))

def withResearchReadRetry : List Step × Except ResearchBoundaryError α :=
  retryLoop o operation 0 o.delaysMs

end Loop

/-! ## Calls -/

/-- The classes that are retried. -/
theorem retries_iff {attemptIndex : ℕ} {error : Thrown} : retries attemptIndex error = true ↔
    (failureMetadata error).failure_class = .TRANSIENT ∨
      (failureMetadata error).failure_class = .UNKNOWN ∧ attemptIndex = 0 := by
  cases error with
  | boundary error =>
    cases hcode : decide (error.error_code = .STORE_UNAVAILABLE) <;> cases hretryable : error.retryable <;>
      simp [retries, shouldRetryResearchRead, failureMetadata, hcode, hretryable]
  | backend error =>
    cases hclass : error.failure_class <;>
      simp [retries, shouldRetryResearchRead, failureMetadata, classifyResearchReadBackendError, hclass]
  | value error =>
    cases hclass : (classifyValue error).failure_class <;>
      simp [retries, shouldRetryResearchRead, failureMetadata, classifyResearchReadBackendError, hclass]

/-- What is thrown for an unavailable store tells whether the failure may pass. -/
theorem finalError_spec (o : ResearchReadRetryOptions) (error : Thrown) :
    (o.finalError error).error_code = .STORE_UNAVAILABLE ∧ (o.finalError error).request_id = o.requestId ∧
        ((o.finalError error).retryable = true ↔ (failureMetadata error).failure_class ≠ .DETERMINISTIC) ∨
      (o.finalError error).error_code ≠ .STORE_UNAVAILABLE ∧ error = .boundary (o.finalError error) := by
  cases error with
  | boundary error =>
    by_cases hcode : error.error_code = .STORE_UNAVAILABLE
    · left
      simp only [ResearchReadRetryOptions.finalError, failureMetadata, hcode, if_true, true_and]
      cases error.retryable <;> simp
    · right
      simp [ResearchReadRetryOptions.finalError, hcode]
  | backend error => exact .inl ⟨rfl, rfl, decide_eq_true_iff⟩
  | value error => exact .inl ⟨rfl, rfl, decide_eq_true_iff⟩

section Calls

variable {α : Type} (o : ResearchReadRetryOptions) (operation : ℕ → Except Thrown α)

/-- What is reported and slept after a call that is retried. -/
def retriedSteps (call : ℕ × ℕ) : List Step :=
  match operation call.2 with
  | .ok _ => []
  | .error error => [.onFailure (o.event call.2 true error), .sleep call.1]

/-- The calls from the number `i` on: `n` that are retried, and the last one. -/
structure Retried (i : ℕ) (delays : List ℕ) (n : ℕ) (r : List Step × Except ResearchBoundaryError α) :
    Prop where
  within : n ≤ delays.length
  retried : ∀ j < n, ∃ error, operation (i + j) = .error error ∧ retries (i + j) error = true
  answered : ∀ a, operation (i + n) = .ok a →
    r = (((delays.take n).zipIdx i).flatMap (retriedSteps o operation), .ok a)
  failed : ∀ error, operation (i + n) = .error error → (n < delays.length → retries (i + n) error = false) ∧
    r = (((delays.take n).zipIdx i).flatMap (retriedSteps o operation) ++
      [.onFailure (o.event (i + n) false error)], .error (o.finalError error))

/-- A loop that ends with its first call. -/
theorem retried_zero {i : ℕ} {delays : List ℕ} {r : List Step × Except ResearchBoundaryError α}
    (hok : ∀ a, operation i = .ok a → r = ([], .ok a))
    (herror : ∀ error, operation i = .error error → (0 < delays.length → retries i error = false) ∧
      r = ([.onFailure (o.event i false error)], .error (o.finalError error))) :
    Retried o operation i delays 0 r where
  within := Nat.zero_le _
  retried _ hj := absurd hj (Nat.not_lt_zero _)
  answered a h := hok a h
  failed error h := herror error h

theorem retried_retryLoop (i : ℕ) (delays : List ℕ) :
    ∃ n, Retried o operation i delays n (retryLoop o operation i delays) := by
  induction delays generalizing i with
  | nil =>
    refine ⟨0, retried_zero o operation ?_ ?_⟩
    · intro a h
      simp [retryLoop, h]
    · intro error h
      simp [retryLoop, h]
  | cons delayMs delays ih =>
    cases hcall : operation i with
    | ok a =>
      refine ⟨0, retried_zero o operation ?_ ?_⟩
      · intro a' h
        simp [retryLoop, h]
      · intro error h
        cases hcall.symm.trans h
    | error error =>
      cases hretries : retries i error with
      | false =>
        refine ⟨0, retried_zero o operation ?_ ?_⟩
        · intro a h
          cases hcall.symm.trans h
        · intro error' h
          cases hcall.symm.trans h
          simp [retryLoop, hcall, hretries]
      | true =>
        obtain ⟨n, hrest⟩ := ih (i + 1)
        have hnext : ∀ j, i + 1 + j = i + (j + 1) := by
          intro j
          omega
        have hloop : retryLoop o operation i (delayMs :: delays) =
            (retriedSteps o operation (delayMs, i) ++ (retryLoop o operation (i + 1) delays).1,
              (retryLoop o operation (i + 1) delays).2) := by
          simp [retryLoop, retriedSteps, hcall, hretries]
        refine ⟨n + 1, ?_, ?_, ?_, ?_⟩
        · simpa using hrest.within
        · intro j hj
          cases j with
          | zero => exact ⟨error, hcall, hretries⟩
          | succ j =>
            rw [← hnext]
            exact hrest.retried j (by omega)
        · intro a h
          rw [hloop, hrest.answered a (by rwa [hnext])]
          simp
        · intro error' h
          obtain ⟨hstopped, hr⟩ := hrest.failed error' (by rwa [hnext])
          rw [hnext] at hstopped hr
          rw [hloop, hr]
          refine ⟨fun hlt => hstopped (by simpa using hlt), ?_⟩
          simp

/-- A read calls until it is answered or fails with what is not retried, at most once more than it has
delays: a transient failure is retried, an unknown one only as the first. It reports each failure and sleeps
between two calls, and what it throws at last tells whether the failure may pass. -/
theorem read_retried :
    ∃ n ≤ o.delaysMs.length,
      (∀ j < n, ∃ error, operation j = .error error ∧
        ((failureMetadata error).failure_class = .TRANSIENT ∨
          (failureMetadata error).failure_class = .UNKNOWN ∧ j = 0)) ∧
      (∀ a, operation n = .ok a → withResearchReadRetry o operation =
        ((o.delaysMs.take n).zipIdx.flatMap (retriedSteps o operation), .ok a)) ∧
      ∀ error, operation n = .error error →
        (n < o.delaysMs.length → (failureMetadata error).failure_class ≠ .TRANSIENT ∧
          ((failureMetadata error).failure_class = .UNKNOWN → n ≠ 0)) ∧
        ∃ thrown, withResearchReadRetry o operation =
            ((o.delaysMs.take n).zipIdx.flatMap (retriedSteps o operation) ++
              [.onFailure (o.event n false error)], .error thrown) ∧
          (thrown.error_code = .STORE_UNAVAILABLE ∧ thrown.request_id = o.requestId ∧
              (thrown.retryable = true ↔ (failureMetadata error).failure_class ≠ .DETERMINISTIC) ∨
            thrown.error_code ≠ .STORE_UNAVAILABLE ∧ error = .boundary thrown) := by
  obtain ⟨n, hrun⟩ := retried_retryLoop o operation 0 o.delaysMs
  have hretried := hrun.retried
  have hanswered := hrun.answered
  have hfailed := hrun.failed
  simp only [Nat.zero_add] at hretried hanswered hfailed
  refine ⟨n, hrun.within, ?_, hanswered, ?_⟩
  · intro j hj
    obtain ⟨error, herror, hretries⟩ := hretried j hj
    exact ⟨error, herror, retries_iff.1 hretries⟩
  · intro error herror
    obtain ⟨hstopped, hr⟩ := hfailed error herror
    refine ⟨?_, o.finalError error, hr, finalError_spec o error⟩
    intro hlt
    have hnot : ¬ retries n error = true := by simp [hstopped hlt]
    rw [retries_iff] at hnot
    exact ⟨fun h => hnot (.inl h), fun h hn => hnot (.inr ⟨h, hn⟩)⟩

end Calls

/-! ## Disclosure -/

section Disclosure

variable {α : Type}

/-- What a read may tell of a call: its answer, a boundary error, or of another failure its metadata. -/
def told : Except Thrown α → Except (ResearchBoundaryError ⊕ ResearchReadBackendError) α
  | .ok a => .ok a
  | .error (.boundary error) => .error (.inl error)
  | .error error => .error (.inr (failureMetadata error))

/-- Two failures that a read treats alike. -/
structure Alike (e e' : Thrown) : Prop where
  event : ∀ (o : ResearchReadRetryOptions) i willRetry, o.event i willRetry e = o.event i willRetry e'
  retries : ∀ i, retries i e = retries i e'
  finalError : ∀ o : ResearchReadRetryOptions, o.finalError e = o.finalError e'

theorem Alike.refl (e : Thrown) : Alike e e :=
  ⟨fun _ _ _ => rfl, fun _ => rfl, fun _ => rfl⟩

/-- The metadata of failures that are no boundary errors is all that a read looks at. -/
theorem Alike.of_native {e e' : Thrown} (he : ∀ b, e ≠ .boundary b) (he' : ∀ b, e' ≠ .boundary b)
    (h : failureMetadata e = failureMetadata e') : Alike e e' := by
  have hclassify : ∀ e : Thrown, (∀ b, e ≠ .boundary b) →
      shouldRetryResearchRead e = decide ((failureMetadata e).failure_class ≠ .DETERMINISTIC) ∧
      ∀ o : ResearchReadRetryOptions, o.finalError e =
        ⟨.STORE_UNAVAILABLE, o.requestId, decide ((failureMetadata e).failure_class ≠ .DETERMINISTIC),
          if decide ((failureMetadata e).failure_class ≠ .DETERMINISTIC) = true then
            "research read backend unavailable; retry later"
          else "research read backend failed; retry is not advised"⟩ := by
    intro e he
    cases e with
    | boundary b => exact absurd rfl (he b)
    | backend error => exact ⟨rfl, fun _ => rfl⟩
    | value error => exact ⟨rfl, fun _ => rfl⟩
  refine ⟨?_, ?_, ?_⟩
  · intro o i willRetry
    simp only [ResearchReadRetryOptions.event, h]
  · intro i
    simp only [ResearchRead.retries, (hclassify e he).1, (hclassify e' he').1, h]
  · intro o
    rw [(hclassify e he).2, (hclassify e' he').2, h]

/-- Calls of which the same may be told have one answer, or failures that are treated alike. -/
theorem told_cases {x y : Except Thrown α} (h : told x = told y) :
    (∃ a, x = .ok a ∧ y = .ok a) ∨ ∃ e e', x = .error e ∧ y = .error e' ∧ Alike e e' := by
  cases x with
  | ok a =>
    cases y with
    | ok a' =>
      cases h
      exact .inl ⟨a, rfl, rfl⟩
    | error e' => cases e' <;> cases h
  | error e =>
    cases y with
    | ok a' => cases e <;> cases h
    | error e' =>
      right
      refine ⟨e, e', rfl, rfl, ?_⟩
      cases e with
      | boundary b =>
        cases e' with
        | boundary b' =>
          cases h
          exact .refl _
        | backend error => cases h
        | value error => cases h
      | backend error =>
        cases e' with
        | boundary b' => cases h
        | backend error' => exact .of_native (by simp) (by simp) (by simpa [told] using h)
        | value error' => exact .of_native (by simp) (by simp) (by simpa [told] using h)
      | value error =>
        cases e' with
        | boundary b' => cases h
        | backend error' => exact .of_native (by simp) (by simp) (by simpa [told] using h)
        | value error' => exact .of_native (by simp) (by simp) (by simpa [told] using h)

/-- Two runs of calls of which the same may be told have the same steps and the same answer: of a failure
that is no boundary error nothing is disclosed but its metadata. -/
theorem read_undisclosed (o : ResearchReadRetryOptions) (operation operation' : ℕ → Except Thrown α)
    (h : ∀ i, told (operation i) = told (operation' i)) :
    withResearchReadRetry o operation = withResearchReadRetry o operation' := by
  have hloop : ∀ delays i, retryLoop o operation i delays = retryLoop o operation' i delays := by
    intro delays
    induction delays with
    | nil =>
      intro i
      rcases told_cases (h i) with ⟨a, hx, hy⟩ | ⟨e, e', hx, hy, halike⟩
      · simp only [retryLoop, hx, hy]
      · simp only [retryLoop, hx, hy, halike.event, halike.finalError]
    | cons delayMs delays ih =>
      intro i
      rcases told_cases (h i) with ⟨a, hx, hy⟩ | ⟨e, e', hx, hy, halike⟩
      · simp only [retryLoop, hx, hy]
      · simp only [retryLoop, hx, hy, halike.event, halike.retries, halike.finalError, ih]
  exact hloop o.delaysMs 0

def lostConnection : Value :=
  .object "Error" "D1_ERROR: Network connection lost." .absent

/-- An error and what the adapter makes of it. -/
theorem read_undisclosed_guarded :
    withResearchReadRetry { requestId := "r0" }
        (fun _ => (.error (.value lostConnection) : Except Thrown Unit)) =
      withResearchReadRetry { requestId := "r0" }
        (fun _ => .error (.backend (classifyResearchReadBackendError (.value lostConnection)))) :=
  read_undisclosed _ _ _ fun _ => rfl

end Disclosure

end QuantproCollector.ResearchRead
