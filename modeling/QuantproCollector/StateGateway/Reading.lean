import QuantproCollector.StateGateway.Statements
import QuantproCollector.StateGateway.Gateway

/-!
# Reads as functions of the world

When nothing fails, what the gateway reads of the ledgers is a function of their comments. A listing
holds all of them, as long as they fit the safety limit of its pages.
-/

namespace QuantproCollector.StateGateway

open Relational Async

/-! ## Calm choices -/

/-- Nothing fails: statements take effect, GitHub answers truthfully, the context is resolved. -/
structure Choice.Calm (ch : Choice) : Prop where
  fault : ch.fault = .none
  http : ch.http = .honest
  owner : ∃ context, ch.owner = .ok context

/-- The machine as long as nothing fails. -/
def calm (P : Runtime) : Machine Thrown Op Res World {ch : Choice // ch.Calm} :=
  (machine P).among Choice.Calm

/-- The operation posts a comment. -/
def Op.posts : Op → Bool
  | .fetch (.create ..) => true
  | _ => false

/-- The program halts with `r` without a post or a change of the world. -/
abbrev Answers (P : Runtime) (w : World) {α : Type} (s : Program α) (r : Except Thrown α) : Prop :=
  (calm P).Reads (fun op => op.posts = false) w s r

section Operations

variable {P : Runtime} {w : World}

theorem Choice.Calm.statement {ch : Choice} (h : ch.Calm) {α : Type} (w : World)
    (r : Except Thrown α × World) : ch.fault.statement w r = r := by
  rw [h.fault]
  rfl

theorem calm_list (ch : {ch : Choice // ch.Calm}) (p : Page) :
    (calm P).perform ch (.fetch (.list p)) w = (.ok (listPage P w p), w) := by
  show (ch.1.response P w (.list p), ch.1.afterRequest w (.list p)) = _
  simp only [Choice.response, ch.2.http, githubAnswer, Choice.afterRequest]

theorem calm_selectReceipt (ch : {ch : Choice // ch.Calm}) (writeKey : String) :
    (calm P).perform ch (.selectReceipt writeKey) w = (.ok (receiptFor w writeKey), w) :=
  ch.2.statement w _

theorem calm_insertReceipt (ch : {ch : Choice // ch.Calm}) (writeKey : String)
    (channel : StateWriteChannel) (sha now : String) :
    (calm P).perform ch (.insertReceipt writeKey channel sha now) w =
      (.ok (), w.insertReceipt writeKey channel sha now) :=
  ch.2.statement w _

theorem calm_leaseReceipt (ch : {ch : Choice // ch.Calm}) (l : LeaseRequest) :
    (calm P).perform ch (.leaseReceipt l) w = (.ok (), w.leaseReceipt l) :=
  ch.2.statement w _

theorem calm_finalizeReceipt (ch : {ch : Choice // ch.Calm}) (f : FinalizeRequest) :
    (calm P).perform ch (.finalizeReceipt f) w = (.ok (), w.finalizeReceipt f) :=
  ch.2.statement w _

/-- A drawn value does not matter to what answers alike whatever is drawn. -/
theorem answers_givenOr {α : Type} {value : Option String} {draw : Program String}
    (hdraw : draw = clock ∨ draw = randomHex) {f : String → Program α} {r : Except Thrown α}
    (hf : ∀ x, Answers P w (f x) r) : Answers P w (givenOr value draw >>= f) r := by
  cases value with
  | some v => exact hf v
  | none =>
    rcases hdraw with rfl | rfl
    · exact ⟨rfl, fun ch => ⟨rfl, hf ch.1.clock⟩⟩
    · exact ⟨rfl, fun ch => ⟨rfl, hf ch.1.hex⟩⟩

theorem answers_selectReceipt (writeKey : String) :
    Answers P w (selectReceipt writeKey) (.ok (receiptFor w writeKey)) :=
  ⟨rfl, fun ch => by rw [calm_selectReceipt]; exact ⟨rfl, rfl⟩⟩

/-- Inserting a receipt that is there answers as if it were not tried. -/
theorem answers_insertReceipt {writeKey : String} {channel : StateWriteChannel} {sha now : String}
    {r : StateWriteReceipt} (h : receiptFor w writeKey = some r) :
    Answers P w (insertReceipt writeKey channel sha now) (.ok ()) :=
  ⟨rfl, fun ch => by
    rw [calm_insertReceipt, insertReceipt_of_receiptFor h]
    exact ⟨rfl, rfl⟩⟩

theorem answers_attempt {α : Type} {s : Program α} {a : α} (h : Answers P w s (.ok a)) :
    Answers P w (attempt s) (.ok (some a)) := by
  have hmap : Answers P w (some <$> s) (.ok (some a)) :=
    h.bind (f := fun a => pure (some a)) (g := fun a => .ok (some a)) fun _ _ => rfl
  exact hmap.tryCatch (g := fun _ => .ok none) fun e he => absurd he (by simp)

end Operations

/-! ## Listings -/

/-- The most comments that a listing reads. -/
def MAX_COMMENTS : ℕ := MAX_COMMENT_PAGES * PAGE_SIZE

/-- What a listing reads. -/
def readComments (P : Runtime) (w : World) (e : LedgerErrors) (since : Option String) :
    Except Thrown (List Json) :=
  if (listed P w e.ledger since).length ≤ MAX_COMMENTS then
    .ok ((listed P w e.ledger since).map Comment.json)
  else .error (e.unavailable "GitHub issue comment pagination exceeded the safety limit" none)

section Listings

variable {P : Runtime} {w : World} {e : LedgerErrors}

theorem answers_readPage (p : Page) :
    Answers P w (fetchStateLedgerReadWithRetry (.list p) STATE_LEDGER_READ_RETRY_DELAYS_MS)
      (.ok (listPage P w p)) := by
  have hfetch : Answers P w (fetch (.list p)) (.ok (listPage P w p)) :=
    ⟨rfl, fun ch => by rw [calm_list]; exact ⟨rfl, rfl⟩⟩
  exact (answers_attempt hfetch).bind_ok rfl

/-- From page `n + 1` on: the rest of the comments, where the pages suffice for them. -/
theorem answers_fetchPages (pages : ℕ) (since : Option String) (n : ℕ) (comments : List Json)
    (hrest : 0 < pages ∨ 0 < ((listed P w e.ledger since).drop (n * PAGE_SIZE)).length) :
    Answers P w (fetchPages e pages ⟨e.ledger, since, n + 1⟩ comments)
      (if ((listed P w e.ledger since).drop (n * PAGE_SIZE)).length ≤ pages * PAGE_SIZE then
        .ok (comments ++ ((listed P w e.ledger since).drop (n * PAGE_SIZE)).map Comment.json)
      else .error (e.unavailable "GitHub issue comment pagination exceeded the safety limit"
        none)) := by
  induction pages generalizing n comments with
  | zero =>
    rw [if_neg (by omega)]
    rfl
  | succ pages ih =>
    have hpage := answers_attempt (answers_readPage (P := P) (w := w) ⟨e.ledger, since, n + 1⟩)
    set rest := (listed P w e.ledger since).drop (n * PAGE_SIZE) with hrestdef
    have hlist : listPage P w ⟨e.ledger, since, n + 1⟩ =
        ⟨200, some (.arr ((rest.take PAGE_SIZE).map Comment.json)),
          if PAGE_SIZE < rest.length then some ⟨e.ledger, since, n + 1 + 1⟩ else none⟩ := rfl
    rw [hlist] at hpage
    have hdrop : (listed P w e.ledger since).drop ((n + 1) * PAGE_SIZE) = rest.drop PAGE_SIZE := by
      rw [hrestdef, List.drop_drop]
      congr 1
      ring
    by_cases hmore : PAGE_SIZE < rest.length
    · rw [if_pos hmore] at hpage
      refine hpage.bind_ok ?_
      have h := ih (n + 1) (comments ++ (rest.take PAGE_SIZE).map Comment.json)
        (.inr (by rw [hdrop, List.length_drop]; omega))
      rw [hdrop, List.length_drop] at h
      have hcond : rest.length - PAGE_SIZE ≤ pages * PAGE_SIZE ↔
          rest.length ≤ (pages + 1) * PAGE_SIZE := by
        rw [Nat.add_mul]
        omega
      simp only [hcond, List.append_assoc, ← List.map_append, List.take_append_drop] at h
      exact h
    · rw [if_neg hmore] at hpage
      refine hpage.bind_ok ?_
      rw [if_pos (by rw [Nat.add_mul]; omega), List.take_of_length_le (by omega)]
      rfl

theorem answers_fetchAllComments (since : Option String) :
    Answers P w (fetchAllComments e since) (readComments P w e since) := by
  have h := answers_fetchPages (P := P) (w := w) (e := e) MAX_COMMENT_PAGES since 0 []
    (.inl (by decide))
  rw [Nat.zero_mul, List.drop_zero, List.nil_append] at h
  exact h

end Listings

/-! ## Comments -/

/-- A comment as a ledger reads it. -/
def Comment.read (parseBody : Option String → Option Json) (c : Comment) : Option LedgerComment :=
  (parseBody (if c.body = "" then none else some c.body)).bind fun payload =>
    if c.created_at = "" ∨ c.url = "" then none
    else some ⟨String.ofList (Decimal.ofInt c.id).text, c.url, c.created_at, payload⟩

theorem toComment_json (parseBody : Option String → Option Json) (c : Comment) :
    toComment parseBody c.json = .ok (c.read parseBody) := by
  have hbody : commentBody c.json = .ok (if c.body = "" then none else some c.body) := rfl
  have hid : commentId c.json = String.ofList (Decimal.ofInt c.id).text := rfl
  have hne : String.ofList (Decimal.ofInt c.id).text ≠ "" := by
    simp [Decimal.text_ne_nil]
  have hlink : commentLink c.json = c.url := rfl
  have hcreated : textField c.json "created_at" = c.created_at := rfl
  unfold toComment Comment.read
  rw [hbody]
  dsimp only [bind, Except.bind]
  cases parseBody (if c.body = "" then none else some c.body) with
  | none => rfl
  | some payload =>
    simp only [hid, hlink, hcreated, hne, false_or, Option.bind_some]
    rfl

theorem mapM_toComment (parseBody : Option String → Option Json) (cs : List Comment) :
    (cs.map Comment.json).mapM (toComment parseBody) = .ok (cs.map (Comment.read parseBody)) := by
  induction cs with
  | nil => rfl
  | cons c cs ih =>
    rw [List.map_cons, List.mapM_cons, toComment_json, ih]
    rfl

/-- A comment that holds a payload's body is read as what the ledger makes of that text. -/
theorem read_written {ofText : List Char → Option Json} {payload read : Json} {c : Comment}
    (hbody : c.body = String.ofList (ledgerBody payload)) (hcreated : c.created_at ≠ "")
    (hurl : c.url ≠ "") (hread : ofText (ledgerBody payload) = some read) :
    c.read (fun body => body.bind fun body => ofText body.toList) =
      some ⟨String.ofList (Decimal.ofInt c.id).text, c.url, c.created_at, read⟩ := by
  have hne : c.body ≠ "" := by
    rw [hbody]
    simp [ledgerBody, Json.fence]
  unfold Comment.read
  rw [if_neg hne]
  show ((some c.body).bind fun body => ofText body.toList).bind _ = _
  rw [Option.bind_some, hbody, String.toList_ofList, hread, Option.bind_some,
    if_neg (by simp [hcreated, hurl])]

/-! ## The investment ledger -/

/-- The comments of a role, in order. -/
def roleComments (P : Runtime) (w : World) (role : InvestmentLedgerRole) : List LedgerComment :=
  ((w.investment.filterMap (Comment.read parseExistingPayload)).filter fun c =>
    textField c.payload "producer" = role.producer).insertionSort fun a b =>
      (compareLedgerComments P a b).isLE = true

/-- The role's events, in the order in which they apply. -/
def recordedEvents (P : Runtime) (w : World) (role : InvestmentLedgerRole) : List Json :=
  roleEvents role (roleComments P w role)

/-- The ledger's comments fit a listing, and there is a credential to read them with. -/
def Readable (w : World) (token : String) (l : Ledger) : Prop :=
  token ≠ "" ∧ (w.comments l).length ≤ MAX_COMMENTS

section Investment

variable {P : Runtime} {w : World} {token : String} {role : InvestmentLedgerRole}

theorem listed_none (l : Ledger) : listed P w l none = w.comments l :=
  List.filter_eq_self.2 fun _ _ => rfl

theorem validRoleComments_json :
    validRoleComments P (w.investment.map Comment.json) role = .ok (roleComments P w role) := by
  unfold validRoleComments toLedgerComment
  rw [mapM_toComment]
  show Except.ok _ = _
  rw [List.filterMap_map]
  rfl

theorem readComments_none (e : LedgerErrors) :
    readComments P w e none =
      if (w.comments e.ledger).length ≤ MAX_COMMENTS then
        .ok ((w.comments e.ledger).map Comment.json)
      else .error (e.unavailable "GitHub issue comment pagination exceeded the safety limit" none) := by
  unfold readComments
  rw [listed_none]

theorem length_eraseDups_le (xs : List String) : xs.eraseDups.length ≤ xs.length := by
  match xs with
  | [] => exact Nat.le_refl 0
  | x :: xs =>
    have hfilter := List.length_filter_le (fun y => !y == x) xs
    have ih := length_eraseDups_le (xs.filter fun y => !y == x)
    rw [List.eraseDups_cons, List.length_cons, List.length_cons]
    omega
termination_by xs.length
decreasing_by
  exact Nat.lt_succ_of_le (List.length_filter_le _ xs)

/-- The symbols that a read asks for are distinct, not too many and well formed. -/
theorem symbolsOf_ok {events : List Json} (hne : events ≠ []) (hlen : events.length ≤ 128)
    (hkey : ∀ event ∈ events, isInstrumentKey (textField event "symbol") = true) :
    (decide ((symbolsOf events).eraseDups.length < 1) ||
      decide ((symbolsOf events).eraseDups.length > 512) ||
      (symbolsOf events).eraseDups.any (!isInstrumentKey ·)) = false := by
  have hcount : (symbolsOf events).eraseDups.length ≤ 128 := by
    have h1 := length_eraseDups_le (symbolsOf events)
    have h2 := length_eraseDups_le (events.map fun event => textField event "symbol")
    rw [List.length_map] at h2
    unfold symbolsOf at h1 ⊢
    omega
  have hpos : 1 ≤ (symbolsOf events).eraseDups.length := by
    obtain ⟨event, rest, rfl⟩ := List.exists_cons_of_ne_nil hne
    exact List.length_pos_of_mem (a := textField event "symbol") (by simp [symbolsOf])
  have hall : (symbolsOf events).eraseDups.any (!isInstrumentKey ·) = false := by
    rw [List.any_eq_false]
    intro symbol hsymbol
    simp only [symbolsOf, List.mem_eraseDups, List.mem_map] at hsymbol
    obtain ⟨event, hevent, rfl⟩ := hsymbol
    simp [hkey event hevent]
  rw [hall, decide_eq_false (by omega), decide_eq_false (by omega)]
  rfl

/-- The latest event about a symbol that was asked for is the latest event about it. -/
theorem latestBySymbol_filter {events : List Json} {symbols : List String} {symbol : String}
    (h : symbol ∈ symbols) :
    latestBySymbol (events.filter fun event => symbols.contains (textField event "symbol")) symbol =
      latestBySymbol events symbol := by
  unfold latestBySymbol
  rw [List.filter_filter]
  congr 2
  funext event
  by_cases heq : textField event "symbol" = symbol
  · simp [heq, h]
  · simp [heq]

end Investment

/-! ## The market ledger -/

/-- What a read of the market ledger around a slot returns. -/
def marketState (P : Runtime) (w : World) (tradingDate slot : String) :
    Except Thrown MarketCheckpointState := do
  let since ← recentSince P tradingDate
  let recent ← readComments P w marketErrors (some since)
  let state ← buildState P recent tradingDate slot
  if state.previousClose.isSome then return state
  let all ← readComments P w marketErrors none
  buildState P all tradingDate slot

theorem answers_getMarketCheckpoints {P : Runtime} {w : World} {token : String} (h : token ≠ "")
    (tradingDate slot : String) :
    Answers P w (getMarketCheckpoints P token tradingDate slot)
      (marketState P w tradingDate slot) := by
  unfold getMarketCheckpoints marketState
  rw [if_neg h]
  refine Machine.Reads.bind (s := Script.halt (recentSince P tradingDate)) rfl fun since _ => ?_
  refine (answers_fetchAllComments (e := marketErrors) (some since)).bind fun recent _ => ?_
  refine Machine.Reads.bind (s := Script.halt (buildState P recent tradingDate slot)) rfl
    fun state _ => ?_
  split_ifs
  · rfl
  · exact (answers_fetchAllComments (e := marketErrors) none).bind fun all _ => rfl

end QuantproCollector.StateGateway
