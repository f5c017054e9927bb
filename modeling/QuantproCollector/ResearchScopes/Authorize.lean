import Mathlib.Data.List.GetD
import Mathlib.Data.Nat.Bitwise
import QuantproCollector.D1Kv.Paging
import QuantproCollector.Lib.Base64
import QuantproCollector.Lib.Separated
import QuantproCollector.ResearchScopes.Forwarding

/-!
# The authorization form

Model of `handleAuthorize` of `src/src/oauth-entry.ts` and of the form tokens it signs and checks. The
digests, the provider and the client's requests are given; the HTML of a page is left out, and so a page is
what is put into it.

A run is a sequence of requests, each with its clock readings and its random bytes. A state has the forms
that were signed so far.

* `authorized_exec`: an authorization follows a form that this server has signed for the same action at most
  ten minutes before, where no signature was forged, and grants what the request may ask for.
* `form_accepted`: every form that was handed out is accepted for ten minutes, with the key.
-/

namespace QuantproCollector.ResearchScopes

/-- The characters of a text. -/
abbrev Text : Type := List Char

/-! ## Texts -/

/-- A sign of base64 in its URL form. -/
def urlLetter (c : Char) : Char :=
  if c = '+' then '-' else if c = '/' then '_' else c

/-- `text.replace(/=+$/u, "")`. -/
def stripPadding (text : Text) : Text :=
  (text.reverse.dropWhile fun c => decide (c = '=')).reverse

def base64UrlFromBytes (bytes : List ℕ) : Text :=
  stripPadding ((Base64.encode bytes).map urlLetter)

/-- `Number.parseInt(text, 10)`, or `none` where it is `NaN`. -/
def parseInt (text : Text) : Option ℤ :=
  let read (ds : Text) : Option ℕ :=
    let ds := ds.takeWhile Char.isDigit
    if ds = [] then none else some (Nat.ofDigitChars 10 ds 0)
  match text.dropWhile isSpace with
  | '-' :: rest => (read rest).map fun n => -(n : ℤ)
  | '+' :: rest => (read rest).map fun n => (n : ℤ)
  | rest => (read rest).map fun n => (n : ℤ)

def MAX_SAFE_INTEGER : ℤ := 9007199254740991

def isSafeInteger (n : ℤ) : Bool :=
  decide (-MAX_SAFE_INTEGER ≤ n ∧ n ≤ MAX_SAFE_INTEGER)

/-- `text.length`, in UTF-16 units. -/
def textLength (text : Text) : ℕ :=
  (text.map fun c => if c.toNat < 0x10000 then 1 else 2).sum

/-- A clock reading of a `Date`, in seconds. -/
structure Seconds where
  value : ℕ
  valid : value ≤ 8640000000000

/-- `${seconds}`. -/
def Seconds.text (s : Seconds) : Text :=
  Nat.toDigits 10 s.value

/-! ## Digests -/

/-- SHA-256 and its HMAC. -/
structure Crypto where
  sha256 : Text → List ℕ
  hmac : Text → Text → List ℕ
  length_sha256 : ∀ text, (sha256 text).length = 32
  length_hmac : ∀ secret payload, (hmac secret payload).length = 32

variable (C : Crypto)

/-- The loop over the bytes of two digests. -/
def difference (left right : List ℕ) : ℕ :=
  (left.zip right).foldl (fun d p => d ||| (p.1 ^^^ p.2)) 0

def constantTimeTextEquals (left right : Text) : Bool :=
  difference (C.sha256 left) (C.sha256 right) = 0

def MAX_OWNER_KEY_LENGTH : ℕ := 512

/-- `!text`, of a text that may be missing. -/
def isMissing (text : Option Text) : Bool :=
  text.getD [] = []

def constantTimeSecretEquals (candidate : Text) (configured : Option Text) : Bool :=
  if isMissing configured || candidate = [] || decide (MAX_OWNER_KEY_LENGTH < textLength candidate) then false
  else constantTimeTextEquals C candidate (configured.getD [])

def authFormSignature (secret payload : Text) : Text :=
  base64UrlFromBytes (C.hmac secret payload)

/-! ## Forms -/

def AUTH_FORM_MAX_AGE_SECONDS : ℤ := 10 * 60

def AUTH_FORM_FUTURE_TOLERANCE_SECONDS : ℤ := 60

/-- A form that is signed: when, with which random bytes, and for which action. -/
structure Form where
  issuedAt : Seconds
  nonce : Text
  action : Text

def Form.payload (f : Form) : Text :=
  Separated.join '.' f.issuedAt.text f.nonce f.action

def Form.token (f : Form) (secret : Text) : Text :=
  Separated.join '.' f.issuedAt.text f.nonce (authFormSignature C secret f.payload)

/-- The form of a new token, or `none` without a secret. -/
def createAuthFormToken (action : Text) (secret : Option Text) (now : Seconds) (random : List ℕ) :
    Option Form :=
  if isMissing secret then none else some ⟨now, base64UrlFromBytes random, action⟩

/-- The parts of a token. -/
def tokenParts (token : Text) : Option (Text × Text × Text) :=
  match token.splitOn '.' with
  | [issuedAtRaw, nonce, signature] => some (issuedAtRaw, nonce, signature)
  | _ => none

/-- The token is neither too old nor from the future. -/
def inWindow (now : Seconds) (issuedAt : ℤ) : Bool :=
  decide ((now.value : ℤ) - issuedAt ≤ AUTH_FORM_MAX_AGE_SECONDS ∧
    -AUTH_FORM_FUTURE_TOLERANCE_SECONDS ≤ (now.value : ℤ) - issuedAt)

def validateAuthFormToken (token action : Text) (secret : Option Text) (now : Seconds) : Bool :=
  if isMissing secret then false
  else
    match tokenParts token with
    | none => false
    | some (issuedAtRaw, nonce, providedSignature) =>
      match parseInt issuedAtRaw with
      | none => false
      | some issuedAt =>
        if !isSafeInteger issuedAt || decide (textLength nonce < 12) ||
            decide (textLength providedSignature < 32) then false
        else if !inWindow now issuedAt then false
        else constantTimeTextEquals C providedSignature
          (authFormSignature C (secret.getD []) (Separated.join '.' issuedAtRaw nonce action))

/-! ## Requests -/

def OFFLINE_ACCESS_SCOPE : String := "offline_access"

def SUPPORTED_SCOPES : List String :=
  [MARKET_READ_SCOPE, RESEARCH_CLAIM_SCOPE, RESEARCH_SUBMIT_SCOPE, "state:read", "state:write",
    OFFLINE_ACCESS_SCOPE]

/-- What the provider reads from an authorization request. -/
structure AuthRequest where
  clientId : Text
  scope : List String
deriving DecidableEq

/-- The scopes that are requested, each once, or `none` where one is not permitted. -/
def validRequestedScopes (authRequest : AuthRequest) : Option (List String) :=
  let requested := authRequest.scope.eraseDups
  if !requested.contains MARKET_READ_SCOPE then none
  else if requested.any fun scope => !SUPPORTED_SCOPES.contains scope then none
  else some requested

inductive Method where
  | GET
  | POST
  | other
deriving DecidableEq

/-- A request to authorize, with what the provider and the runtime answer while it is handled; `none` is an
exception. -/
structure AuthorizeRequest where
  method : Method
  action : Text
  csrf : Text
  owner_key : Text
  parsed : Option AuthRequest
  client : Option (Option Text)
  redirectTo : Option Text
  now : Seconds
  /-- The clock when a page is made, and its random bytes. -/
  pageAt : Seconds
  random : { bytes : List ℕ // bytes.length = 18 }

/-- What a page is made of; `form` is the signed form, or `none` where the token is empty. -/
structure Page where
  action : Text
  clientName : Text
  scopes : List String
  form : Option Form
  error : Option String

/-- What the provider is asked to grant. -/
structure Grant where
  request : AuthRequest
  userId : String
  principal : Text
  scope : List String

inductive Response where
  | text (status : ℕ) (body : String)
  | page (status : ℕ) (page : Page)
  | redirect (grant : Grant) (location : Text)
  | raised

/-- `COLLECTOR_MCP_CLIENT_TOKEN`, and `COLLECTOR_MCP_CLIENT_ID` without its surrounding blanks. -/
structure OwnerEnv where
  ownerSecret : Option Text
  clientId : Option Text

def OwnerEnv.principal (env : OwnerEnv) : Text :=
  if isMissing env.clientId then productionPrincipal.toList else env.clientId.getD []

def parseAuthorizationRequest (request : AuthorizeRequest) : Except Response (AuthRequest × List String) :=
  match request.parsed with
  | none => .error (.text 400 "Invalid OAuth authorization request")
  | some authRequest =>
    match validRequestedScopes authRequest with
    | none => .error (.text 400 "OAuth scope request is not permitted")
    | some scopes => .ok (authRequest, scopes)

/-- `client?.clientName || "ChatGPT"`. -/
def clientNameOf (name : Option Text) : Text :=
  if isMissing name then "ChatGPT".toList else name.getD []

def notConfigured : String := "服务端授权密钥尚未配置，请稍后重试。"
def sessionInvalid : String := "授权会话已过期或无效，请返回 ChatGPT 重新发起授权。"
def keyMismatch : String := "授权密钥不匹配，请确认使用当前生效的授权密钥。"

variable (env : OwnerEnv)

def renderAuthorizationError (request : AuthorizeRequest) (clientName : Text) (scopes : List String)
    (error : String) (status : ℕ) : Response :=
  .page status ⟨request.action, clientName, scopes,
    createAuthFormToken request.action env.ownerSecret request.pageAt request.random.1, some error⟩

/-- The page of a `GET`. -/
def showForm (request : AuthorizeRequest) (clientName : Text) (scopes : List String) : Response :=
  match createAuthFormToken request.action env.ownerSecret request.pageAt request.random.1 with
  | none => renderAuthorizationError env request clientName scopes notConfigured 503
  | some form => .page 200 ⟨request.action, clientName, scopes, some form, none⟩

/-- The grant of a `POST`. -/
def grantOf (authRequest : AuthRequest) (scopes : List String) : Grant :=
  ⟨authRequest, OWNER_USER_ID, env.principal, scopes⟩

def submitForm (request : AuthorizeRequest) (authRequest : AuthRequest) (clientName : Text)
    (scopes : List String) : Response :=
  if isMissing env.ownerSecret then renderAuthorizationError env request clientName scopes notConfigured 503
  else if !validateAuthFormToken C request.csrf request.action env.ownerSecret request.now then
    renderAuthorizationError env request clientName scopes sessionInvalid 400
  else if !constantTimeSecretEquals C request.owner_key env.ownerSecret then
    renderAuthorizationError env request clientName scopes keyMismatch 401
  else
    match request.redirectTo with
    | none => .raised
    | some location => .redirect (grantOf env authRequest scopes) location

def handleAuthorize (request : AuthorizeRequest) : Response :=
  if request.method = .other then .text 405 "Method Not Allowed"
  else
    match parseAuthorizationRequest request with
    | .error response => response
    | .ok (authRequest, scopes) =>
      match request.client with
      | none => .raised
      | some name =>
        if request.method = .GET then showForm env request (clientNameOf name) scopes
        else submitForm C env request authRequest (clientNameOf name) scopes

/-! ## Runs -/

/-- The form that a response hands out. -/
def Response.form (response : Response) : Option Form :=
  match response with
  | .page _ shown => shown.form
  | _ => none

/-- The forms that the requests have had signed, oldest first. -/
def signed (requests : List AuthorizeRequest) : List Form :=
  requests.filterMap fun request => (handleAuthorize C env request).form

/-! ## Letters -/

theorem digit_mem_letters (n : ℕ) : Base64.digit n ∈ Base64.letters := by
  unfold Base64.digit
  by_cases hn : n < Base64.letters.length
  · rw [List.getD_eq_getElem _ _ hn]
    exact List.getElem_mem hn
  · rw [List.getD_eq_default _ _ (Nat.le_of_not_lt hn)]
    decide

theorem dot_notMem_encode (bytes : List ℕ) : '.' ∉ (Base64.encode bytes).map urlLetter := by
  have hletters : ∀ c ∈ Base64.letters, urlLetter c ≠ '.' := List.forall_iff_forall_mem.1 (by decide)
  intro hdot
  obtain ⟨c, hc, hdot⟩ := List.mem_map.1 hdot
  rcases List.mem_append.1 hc with hc | hc
  · obtain ⟨n, -, rfl⟩ := List.mem_map.1 hc
    exact hletters _ (digit_mem_letters n) hdot
  · rw [(List.mem_replicate.1 hc).2] at hdot
    exact absurd hdot (by decide)

theorem stripPadding_sublist (text : Text) : (stripPadding text).Sublist text := by
  have h : (stripPadding text).Sublist text.reverse.reverse := List.Sublist.reverse (List.dropWhile_sublist _)
  rwa [List.reverse_reverse] at h

theorem dot_notMem_base64Url (bytes : List ℕ) : '.' ∉ base64UrlFromBytes bytes :=
  fun hdot => dot_notMem_encode bytes ((stripPadding_sublist _).subset hdot)

/-- Padding is all that is stripped. -/
theorem stripPadding_append {text : Text} (h : ∀ c ∈ text, c ≠ '=') (n : ℕ) :
    stripPadding (text ++ List.replicate n '=') = text := by
  have hpadding : ∀ c ∈ List.replicate n '=', decide (c = '=') = true := by
    intro c hc
    simpa using (List.mem_replicate.1 hc).2
  have hletters : text.reverse.dropWhile (fun c => decide (c = '=')) = text.reverse := by
    cases hr : text.reverse with
    | nil => rfl
    | cons c rest =>
      have hc : c ∈ text := List.mem_reverse.1 (hr ▸ List.mem_cons_self)
      exact List.dropWhile_cons_of_neg (by simpa using h c hc)
  unfold stripPadding
  rw [List.reverse_append, List.reverse_replicate, List.dropWhile_append_of_pos hpadding, hletters,
    List.reverse_reverse]

theorem length_le_sextets (bytes : List ℕ) : bytes.length ≤ (Base64.sextets bytes).length := by
  fun_induction Base64.sextets bytes with
  | case1 a b c rest ih =>
    simp only [List.length_cons]
    omega
  | case2 a b => simp
  | case3 a => simp
  | case4 => simp

theorem urlLetter_digit_ne (n : ℕ) : urlLetter (Base64.digit n) ≠ '=' := by
  have hletters : ∀ c ∈ Base64.letters, urlLetter c ≠ '=' := List.forall_iff_forall_mem.1 (by decide)
  exact hletters _ (digit_mem_letters n)

theorem length_le_base64Url (bytes : List ℕ) : bytes.length ≤ (base64UrlFromBytes bytes).length := by
  have hmap : (Base64.encode bytes).map urlLetter = ((Base64.sextets bytes).map Base64.digit).map urlLetter ++
      List.replicate ((3 - bytes.length % 3) % 3) '=' := by
    rw [Base64.encode, List.map_append, List.map_replicate]
    rfl
  have hne : ∀ c ∈ ((Base64.sextets bytes).map Base64.digit).map urlLetter, c ≠ '=' := by
    intro c hc
    obtain ⟨d, hd, rfl⟩ := List.mem_map.1 hc
    obtain ⟨n, -, rfl⟩ := List.mem_map.1 hd
    exact urlLetter_digit_ne n
  rw [base64UrlFromBytes, hmap, stripPadding_append hne, List.length_map, List.length_map]
  exact length_le_sextets bytes

theorem length_le_textLength (text : Text) : text.length ≤ textLength text := by
  induction text with
  | nil => simp [textLength]
  | cons c text ih =>
    simp only [textLength, List.map_cons, List.sum_cons, List.length_cons] at ih ⊢
    split_ifs <;> omega

theorem dot_notMem_digits (s : Seconds) : '.' ∉ s.text := by
  intro hdot
  have hdigit := Nat.isDigit_of_mem_toDigits (by decide) (by decide) hdot
  exact absurd hdigit (by decide)

/-- A printed time reads as itself. -/
theorem parseInt_text (s : Seconds) : parseInt s.text = some (s.value : ℤ) := by
  have hdigit : ∀ c ∈ s.text, c.isDigit = true := fun c hc =>
    Nat.isDigit_of_mem_toDigits (by decide) (by decide) hc
  have hne : s.text ≠ [] := Nat.toDigits_ne_nil
  have hvalue : Nat.ofDigitChars 10 s.text 0 = s.value := Nat.ofDigitChars_ten_toDigits
  unfold parseInt
  generalize s.text = ds at hdigit hne hvalue
  obtain ⟨d, ds, rfl⟩ := List.exists_cons_of_ne_nil hne
  have hd := hdigit d List.mem_cons_self
  have hminus : d ≠ '-' := by
    rintro rfl
    exact absurd hd (by decide)
  have hplus : d ≠ '+' := by
    rintro rfl
    exact absurd hd (by decide)
  have htake : (d :: ds).takeWhile Char.isDigit = d :: ds := List.takeWhile_eq_self_iff.2 hdigit
  rw [List.dropWhile_cons_of_neg (by simp [D1Kv.not_isSpace_of_isDigit hd])]
  simp [hminus, hplus, htake, hvalue]

theorem xor_eq_zero_iff (a b : ℕ) : a ^^^ b = 0 ↔ a = b := by
  constructor
  · intro h
    calc a = a ^^^ b ^^^ b := by rw [Nat.xor_xor_cancel_right]
      _ = b := by rw [h, Nat.zero_xor]
  · rintro rfl
    exact Nat.xor_self a

/-- The loop finds no difference exactly between equal digests. -/
theorem difference_eq_zero {left right : List ℕ} (h : left.length = right.length) :
    difference left right = 0 ↔ left = right := by
  have hfold : ∀ (left right : List ℕ) (d : ℕ), left.length = right.length →
      ((left.zip right).foldl (fun d p => d ||| (p.1 ^^^ p.2)) d = 0 ↔ d = 0 ∧ left = right) := by
    intro left
    induction left with
    | nil =>
      intro right d hlength
      obtain rfl := List.length_eq_zero_iff.1 hlength.symm
      simp
    | cons a left ih =>
      intro right d hlength
      cases right with
      | nil => simp at hlength
      | cons b right =>
        simp only [List.zip_cons_cons, List.foldl_cons]
        rw [ih right _ (by simpa using hlength), Nat.or_eq_zero_iff, xor_eq_zero_iff, List.cons.injEq,
          and_assoc]
  rw [difference, hfold left right 0 h]
  simp

theorem constantTimeTextEquals_iff {left right : Text} :
    constantTimeTextEquals C left right = true ↔ C.sha256 left = C.sha256 right := by
  rw [constantTimeTextEquals, decide_eq_true_eq]
  exact difference_eq_zero ((C.length_sha256 left).trans (C.length_sha256 right).symm)

/-! ## Tokens -/

theorem tokenParts_eq_some {token a b c : Text} (h : tokenParts token = some (a, b, c)) :
    token = Separated.join '.' a b c ∧ '.' ∉ a ∧ '.' ∉ b ∧ '.' ∉ c := by
  unfold tokenParts at h
  split at h
  · rename_i a' b' c' hsplit
    cases h
    exact Separated.join_of_splitOn hsplit
  · cases h

theorem tokenParts_token (f : Form) (hnonce : '.' ∉ f.nonce) (secret : Text) :
    tokenParts (f.token C secret) =
      some (f.issuedAt.text, f.nonce, authFormSignature C secret f.payload) := by
  have hsplit := Separated.splitOn_join (dot_notMem_digits f.issuedAt) hnonce
    (dot_notMem_base64Url (C.hmac secret f.payload))
  unfold tokenParts Form.token
  rw [show authFormSignature C secret f.payload = base64UrlFromBytes (C.hmac secret f.payload) from rfl,
    hsplit]

/-- What a token that is accepted has been found to be. -/
theorem validate_eq_true {token action : Text} {secret : Option Text} {now : Seconds}
    (h : validateAuthFormToken C token action secret now = true) : ∃ raw nonce signature issuedAt,
      tokenParts token = some (raw, nonce, signature) ∧ parseInt raw = some issuedAt ∧
        inWindow now issuedAt = true ∧ C.sha256 signature =
          C.sha256 (authFormSignature C (secret.getD []) (Separated.join '.' raw nonce action)) := by
  unfold validateAuthFormToken at h
  split_ifs at h
  split at h
  · cases h
  · rename_i raw nonce signature hparts
    split at h
    · cases h
    · rename_i issuedAt hissued
      split_ifs at h with hsmall hwindow
      refine ⟨raw, nonce, signature, issuedAt, hparts, hissued, by simpa using hwindow, ?_⟩
      exact (constantTimeTextEquals_iff C).1 h

/-! ## Responses -/

section Responses

variable {C env} {request : AuthorizeRequest} {clientName : Text} {scopes : List String}
  {authRequest : AuthRequest} {grant : Grant} {location : Text} {response : Response}

theorem parse_error (h : parseAuthorizationRequest request = .error response) :
    ∃ status body, response = .text status body := by
  unfold parseAuthorizationRequest at h
  split at h
  · cases h
    exact ⟨_, _, rfl⟩
  · split at h
    · cases h
      exact ⟨_, _, rfl⟩
    · cases h

theorem parse_ok (h : parseAuthorizationRequest request = .ok (authRequest, scopes)) :
    request.parsed = some authRequest ∧ validRequestedScopes authRequest = some scopes := by
  unfold parseAuthorizationRequest at h
  split at h
  · cases h
  · rename_i parsed hparsed
    split at h
    · cases h
    · rename_i valid hvalid
      cases h
      exact ⟨hparsed, hvalid⟩

/-- The form that the page of a request would have signed. -/
def freshForm (env : OwnerEnv) (request : AuthorizeRequest) : Option Form :=
  createAuthFormToken request.action env.ownerSecret request.pageAt request.random.1

theorem freshForm_eq_some {form : Form} (h : freshForm env request = some form) :
    form = ⟨request.pageAt, base64UrlFromBytes request.random.1, request.action⟩ ∧
      isMissing env.ownerSecret = false := by
  unfold freshForm createAuthFormToken at h
  split_ifs at h with hmissing
  exact ⟨(Option.some.inj h).symm, by simpa using hmissing⟩

theorem form_showForm : (showForm env request clientName scopes).form = freshForm env request := by
  unfold showForm
  split
  · rfl
  · rename_i form hform
    exact hform.symm

/-- A submitted form is answered by a page with a new one, or by a redirect. -/
theorem submitForm_cases (C : Crypto) (env : OwnerEnv) (request : AuthorizeRequest)
    (authRequest : AuthRequest) (clientName : Text) (scopes : List String) :
    (submitForm C env request authRequest clientName scopes).form = freshForm env request ∨
      (submitForm C env request authRequest clientName scopes).form = none := by
  unfold submitForm
  split_ifs
  · exact .inl rfl
  · exact .inl rfl
  · exact .inl rfl
  · cases request.redirectTo <;> exact .inr rfl

/-- What a request is answered with. -/
theorem handleAuthorize_cases (C : Crypto) (env : OwnerEnv) (request : AuthorizeRequest) :
    (∃ status body, handleAuthorize C env request = .text status body) ∨
      handleAuthorize C env request = .raised ∨
      ∃ authRequest clientName scopes, request.parsed = some authRequest ∧
        validRequestedScopes authRequest = some scopes ∧
        (handleAuthorize C env request = showForm env request clientName scopes ∨
          request.method = .POST ∧
            handleAuthorize C env request = submitForm C env request authRequest clientName scopes) := by
  unfold handleAuthorize
  by_cases hother : request.method = .other
  · rw [if_pos hother]
    exact .inl ⟨_, _, rfl⟩
  · rw [if_neg hother]
    split
    · rename_i response hparse
      exact .inl (parse_error hparse)
    · rename_i authRequest scopes hparse
      obtain ⟨hparsed, hvalid⟩ := parse_ok hparse
      split
      · exact .inr (.inl rfl)
      · rename_i name hname
        refine .inr (.inr ⟨authRequest, clientNameOf name, scopes, hparsed, hvalid, ?_⟩)
        cases hmethod : request.method with
        | GET => exact .inl rfl
        | POST => exact .inr ⟨rfl, rfl⟩
        | other => exact absurd hmethod hother

/-- A form is handed out for the action of its request, at the time of its page. -/
theorem form_of_response {form : Form} (h : (handleAuthorize C env request).form = some form) :
    form = ⟨request.pageAt, base64UrlFromBytes request.random.1, request.action⟩ ∧
      isMissing env.ownerSecret = false := by
  apply freshForm_eq_some
  rcases handleAuthorize_cases C env request with ⟨status, body, hr⟩ | hr |
    ⟨authRequest, clientName, scopes, -, -, hr | ⟨-, hr⟩⟩
  · rw [hr] at h
    cases h
  · rw [hr] at h
    cases h
  · rwa [hr, form_showForm] at h
  · rw [hr] at h
    rcases submitForm_cases C env request authRequest clientName scopes with hform | hform
    · exact hform.symm.trans h
    · cases hform.symm.trans h

theorem redirect_of_submitForm
    (h : submitForm C env request authRequest clientName scopes = .redirect grant location) :
    grant = grantOf env authRequest scopes ∧ isMissing env.ownerSecret = false ∧
      validateAuthFormToken C request.csrf request.action env.ownerSecret request.now = true ∧
      constantTimeSecretEquals C request.owner_key env.ownerSecret = true := by
  unfold submitForm at h
  split_ifs at h with hsecret hcsrf hkey
  · cases h
  · cases h
  · cases h
  · split at h
    · cases h
    · cases h
      exact ⟨rfl, by simpa using hsecret, by simpa using hcsrf, by simpa using hkey⟩

/-- A redirect answers a `POST` that passed every check. -/
theorem redirect_of_response (h : handleAuthorize C env request = .redirect grant location) :
    ∃ authRequest scopes, request.method = .POST ∧ request.parsed = some authRequest ∧
      validRequestedScopes authRequest = some scopes ∧ grant = grantOf env authRequest scopes ∧
      isMissing env.ownerSecret = false ∧
      validateAuthFormToken C request.csrf request.action env.ownerSecret request.now = true ∧
      constantTimeSecretEquals C request.owner_key env.ownerSecret = true := by
  rcases handleAuthorize_cases C env request with ⟨status, body, hr⟩ | hr |
    ⟨authRequest, clientName, scopes, hparsed, hvalid, hr | ⟨hpost, hr⟩⟩
  · cases hr.symm.trans h
  · cases hr.symm.trans h
  · have hpage := hr.symm.trans h
    unfold showForm at hpage
    split at hpage <;> cases hpage
  · exact ⟨authRequest, scopes, hpost, hparsed, hvalid, redirect_of_submitForm (hr.symm.trans h)⟩

end Responses

/-! ## Scopes -/

theorem validRequestedScopes_eq_some {authRequest : AuthRequest} {scopes : List String}
    (h : validRequestedScopes authRequest = some scopes) :
    MARKET_READ_SCOPE ∈ scopes ∧ (∀ scope ∈ scopes, scope ∈ SUPPORTED_SCOPES) ∧
      ∀ scope, scope ∈ scopes ↔ scope ∈ authRequest.scope := by
  simp only [validRequestedScopes] at h
  split_ifs at h with hread hany
  obtain rfl := Option.some.inj h
  refine ⟨by simpa using hread, ?_, fun scope => List.mem_eraseDups⟩
  intro scope hscope
  by_contra hnot
  exact hany (List.any_eq_true.2 ⟨scope, hscope, by simpa using hnot⟩)

/-! ## Authorizations -/

/-- Whoever submits the request has no signature of their own: the payload of a signature that is accepted
has been signed for one of the forms. -/
def Unforged (C : Crypto) (env : OwnerEnv) (forms : List Form) (request : AuthorizeRequest) : Prop :=
  ∀ raw nonce signature, tokenParts request.csrf = some (raw, nonce, signature) →
    C.sha256 signature = C.sha256 (authFormSignature C (env.ownerSecret.getD [])
      (Separated.join '.' raw nonce request.action)) →
    ∃ form ∈ forms, form.payload = Separated.join '.' raw nonce request.action

/-- An authorization follows a page for the same action, shown at most ten minutes before and at most one
after, and the key; it grants the supported scopes that the request names. -/
theorem authorized_exec (C : Crypto) (env : OwnerEnv) (requests : List AuthorizeRequest)
    (request : AuthorizeRequest) (hunforged : Unforged C env (signed C env requests) request) (grant : Grant)
    (location : Text) (h : handleAuthorize C env request = .redirect grant location) :
    (∃ shown ∈ requests, (∃ form, (handleAuthorize C env shown).form = some form) ∧
      shown.action = request.action ∧
      ((request.now.value : ℤ) - shown.pageAt.value ≤ 600 ∧
        -60 ≤ (request.now.value : ℤ) - shown.pageAt.value)) ∧
    (request.owner_key ≠ [] ∧ textLength request.owner_key ≤ MAX_OWNER_KEY_LENGTH ∧
      C.sha256 request.owner_key = C.sha256 (env.ownerSecret.getD [])) ∧
    grant.userId = OWNER_USER_ID ∧ grant.principal = env.principal ∧
    request.parsed = some grant.request ∧ MARKET_READ_SCOPE ∈ grant.scope ∧
    (∀ scope ∈ grant.scope, scope ∈ SUPPORTED_SCOPES) ∧
    ∀ scope, scope ∈ grant.scope ↔ scope ∈ grant.request.scope := by
  obtain ⟨authRequest, scopes, -, hparsed, hvalid, rfl, hsecret, hcsrf, hkey⟩ := redirect_of_response h
  have hscopes := validRequestedScopes_eq_some hvalid
  refine ⟨?_, ?_, rfl, rfl, hparsed, hscopes⟩
  · obtain ⟨raw, nonce, signature, issuedAt, hparts, hissued, hwindow, hdigest⟩ := validate_eq_true C hcsrf
    obtain ⟨form, hform, hpayload⟩ := hunforged raw nonce signature hparts hdigest
    obtain ⟨shown, hshown, hshownForm⟩ := List.mem_filterMap.1 hform
    obtain ⟨rfl, -⟩ := form_of_response hshownForm
    obtain ⟨-, hraw, hnonce, -⟩ := tokenParts_eq_some hparts
    -- A payload has its three parts in one way, although the action may contain dots.
    obtain ⟨htime, -, haction⟩ := Separated.join_inj (dot_notMem_digits shown.pageAt)
      (dot_notMem_base64Url shown.random.1) hraw hnonce hpayload
    rw [← htime, parseInt_text] at hissued
    obtain rfl := Option.some.inj hissued
    exact ⟨shown, hshown, ⟨_, hshownForm⟩, haction, of_decide_eq_true hwindow⟩
  · unfold constantTimeSecretEquals at hkey
    split_ifs at hkey with hsmall
    rw [Bool.or_eq_true, Bool.or_eq_true, not_or, not_or] at hsmall
    exact ⟨by simpa using hsmall.1.2, by simpa using hsmall.2, (constantTimeTextEquals_iff C).1 hkey⟩

/-- Digests and signatures of zeros. -/
def zeroCrypto : Crypto where
  sha256 _ := List.replicate 32 0
  hmac _ _ := List.replicate 32 0
  length_sha256 _ := rfl
  length_hmac _ _ := rfl

def keyEnv : OwnerEnv := ⟨some "key".toList, none⟩

def shownAt : Seconds := ⟨100, by decide⟩

def answeredAt : Seconds := ⟨700, by decide⟩

def shownRequest : AuthorizeRequest where
  method := .GET
  action := "/authorize?a.b".toList
  csrf := []
  owner_key := []
  parsed := some ⟨"chatgpt".toList, ["market:read", "state:read", "market:read"]⟩
  client := some none
  redirectTo := none
  now := shownAt
  pageAt := shownAt
  random := ⟨List.replicate 18 0, rfl⟩

def shownForm : Form := ⟨shownAt, base64UrlFromBytes (List.replicate 18 0), "/authorize?a.b".toList⟩

/-- The page is answered after ten minutes. -/
def answeredRequest : AuthorizeRequest :=
  { shownRequest with
    method := .POST
    csrf := shownForm.token zeroCrypto "key".toList
    owner_key := "key".toList
    redirectTo := some "https://chatgpt.com/cb".toList
    now := answeredAt }

def answeredGrant : Grant :=
  ⟨⟨"chatgpt".toList, ["market:read", "state:read", "market:read"]⟩, OWNER_USER_ID,
    productionPrincipal.toList, ["market:read", "state:read"]⟩

/-- The token of the page has been signed for its form. -/
theorem unforged_answered :
    Unforged zeroCrypto keyEnv (signed zeroCrypto keyEnv [shownRequest]) answeredRequest := by
  intro raw nonce signature hparts _
  have htoken : tokenParts answeredRequest.csrf =
      some (shownForm.issuedAt.text, shownForm.nonce,
        authFormSignature zeroCrypto "key".toList shownForm.payload) :=
    tokenParts_token zeroCrypto shownForm (dot_notMem_base64Url _) _
  cases htoken.symm.trans hparts
  exact ⟨shownForm, List.mem_cons_self, rfl⟩

theorem authorized_exec_answered :
    (∃ shown ∈ [shownRequest], (∃ form, (handleAuthorize zeroCrypto keyEnv shown).form = some form) ∧
      shown.action = answeredRequest.action ∧
      ((answeredRequest.now.value : ℤ) - shown.pageAt.value ≤ 600 ∧
        -60 ≤ (answeredRequest.now.value : ℤ) - shown.pageAt.value)) ∧
    (answeredRequest.owner_key ≠ [] ∧ textLength answeredRequest.owner_key ≤ MAX_OWNER_KEY_LENGTH ∧
      zeroCrypto.sha256 answeredRequest.owner_key = zeroCrypto.sha256 (keyEnv.ownerSecret.getD [])) ∧
    answeredGrant.userId = OWNER_USER_ID ∧ answeredGrant.principal = keyEnv.principal ∧
    answeredRequest.parsed = some answeredGrant.request ∧ MARKET_READ_SCOPE ∈ answeredGrant.scope ∧
    (∀ scope ∈ answeredGrant.scope, scope ∈ SUPPORTED_SCOPES) ∧
    ∀ scope, scope ∈ answeredGrant.scope ↔ scope ∈ answeredGrant.request.scope :=
  authorized_exec zeroCrypto keyEnv [shownRequest] answeredRequest unforged_answered answeredGrant
    "https://chatgpt.com/cb".toList rfl

/-- The owner answers a page: the same action with the token of the page and the key, at any time. -/
structure Answers (C : Crypto) (env : OwnerEnv) (form : Form) (request : AuthorizeRequest) : Prop where
  method : request.method = .POST
  action : request.action = form.action
  csrf : request.csrf = form.token C (env.ownerSecret.getD [])
  owner_key : request.owner_key = env.ownerSecret.getD []

theorem safe_seconds (s : Seconds) : isSafeInteger (s.value : ℤ) = true := by
  have hvalid := s.valid
  refine decide_eq_true (p := -MAX_SAFE_INTEGER ≤ (s.value : ℤ) ∧ (s.value : ℤ) ≤ MAX_SAFE_INTEGER) ?_
  unfold MAX_SAFE_INTEGER
  omega

/-- The token of a page is valid for its action as long as the window lasts. -/
theorem validate_token {shown : AuthorizeRequest} {form : Form}
    (hform : (handleAuthorize C env shown).form = some form) (now : Seconds) :
    validateAuthFormToken C (form.token C (env.ownerSecret.getD [])) form.action env.ownerSecret now =
      inWindow now form.issuedAt.value := by
  obtain ⟨rfl, hsecret⟩ := form_of_response hform
  have hnonce : ¬ textLength (base64UrlFromBytes shown.random.1) < 12 := by
    have hbytes := length_le_base64Url shown.random.1
    have hlength := length_le_textLength (base64UrlFromBytes shown.random.1)
    have hrandom := shown.random.2
    omega
  have hsignature : ∀ payload, ¬ textLength (authFormSignature C (env.ownerSecret.getD []) payload) < 32 := by
    intro payload
    have hbytes := length_le_base64Url (C.hmac (env.ownerSecret.getD []) payload)
    have hlength := length_le_textLength (authFormSignature C (env.ownerSecret.getD []) payload)
    rw [C.length_hmac] at hbytes
    unfold authFormSignature at hlength ⊢
    omega
  unfold validateAuthFormToken
  rw [hsecret, if_neg (by simp), tokenParts_token C _ (dot_notMem_base64Url _)]
  simp only [parseInt_text, safe_seconds, hnonce, hsignature, decide_false, Bool.not_true, Bool.or_false,
    Bool.false_eq_true, if_false]
  cases hwindow : inWindow now shown.pageAt.value with
  | false => rfl
  | true => exact (constantTimeTextEquals_iff C).2 rfl

/-- A page that is answered with the key is accepted as long as its window lasts, and after it a new page is
shown. -/
theorem form_accepted (C : Crypto) (env : OwnerEnv) (shown request : AuthorizeRequest) (form : Form)
    (hform : (handleAuthorize C env shown).form = some form) (hanswers : Answers C env form request)
    (hlength : textLength (env.ownerSecret.getD []) ≤ MAX_OWNER_KEY_LENGTH) (authRequest : AuthRequest)
    (scopes : List String) (hparsed : parseAuthorizationRequest request = .ok (authRequest, scopes))
    (name : Option Text) (hclient : request.client = some name) (location : Text)
    (hredirect : request.redirectTo = some location) :
    handleAuthorize C env request =
      if inWindow request.now form.issuedAt.value then .redirect (grantOf env authRequest scopes) location
      else renderAuthorizationError env request (clientNameOf name) scopes sessionInvalid 400 := by
  have hsecret := (form_of_response hform).2
  have hvalid := validate_token C env hform request.now
  have hkey : constantTimeSecretEquals C request.owner_key env.ownerSecret = true := by
    have hne : ¬ env.ownerSecret.getD [] = [] := by simpa [isMissing] using hsecret
    unfold constantTimeSecretEquals
    rw [hanswers.owner_key, hsecret]
    simp only [hne, Nat.not_lt.2 hlength, decide_false, Bool.or_false, Bool.false_eq_true, if_false]
    exact (constantTimeTextEquals_iff C).2 rfl
  have hhandle : handleAuthorize C env request =
      submitForm C env request authRequest (clientNameOf name) scopes := by
    unfold handleAuthorize
    rw [if_neg (by simp [hanswers.method]), hparsed]
    simp only [hclient]
    rw [if_neg (by simp [hanswers.method])]
  rw [hhandle, submitForm, hsecret, if_neg (by simp), hanswers.csrf, hanswers.action, hvalid, hkey, hredirect]
  cases inWindow request.now form.issuedAt.value <;> rfl

theorem form_accepted_answered :
    handleAuthorize zeroCrypto keyEnv answeredRequest =
      if inWindow answeredRequest.now shownForm.issuedAt.value then
        .redirect (grantOf keyEnv ⟨"chatgpt".toList, ["market:read", "state:read", "market:read"]⟩
          ["market:read", "state:read"]) "https://chatgpt.com/cb".toList
      else renderAuthorizationError keyEnv answeredRequest (clientNameOf none) ["market:read", "state:read"]
        sessionInvalid 400 :=
  form_accepted zeroCrypto keyEnv shownRequest answeredRequest shownForm rfl ⟨rfl, rfl, rfl, rfl⟩ (by decide)
    _ _ rfl none rfl _ rfl

end QuantproCollector.ResearchScopes
