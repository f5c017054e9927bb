import QuantproCollector.ResearchScopes.Resolve

/-!
# Requests between the OAuth bridge and the core worker

Model of `handleMcp` and the routes around it in `src/src/oauth-entry.ts`, and of what `src/src/index.ts`
resolves from the request it is handed (`researchIdentity`). The token store and `new URL` are parameters.

A request with an accepted token reaches the core with the credential of the bridge and with the scopes, the
principal and the origin written over whatever the client sent under those names, so what the core resolves
depends on the token and the URL alone (`identity_of_grant`). A request with neither a token nor the
credential resolves to nothing (`identity_of_unauthenticated`).
-/

namespace QuantproCollector.ResearchScopes

/-! ## The bridge -/

def MCP_RESOURCE : String := "https://cn-hk-quotes-mcp.zhushihao710.workers.dev/mcp"
def MARKET_READ_SCOPE : String := "market:read"
def OWNER_USER_ID : String := "quantpro-owner"
def productionPrincipal : String := "chatgpt-production"

/-- What the bridge reads of a token: the audience is a list where the store keeps a single text too, the
principal of the grant is `none` where it is not a text, and its scopes are `none` where they are no array. -/
structure TokenSummary where
  userId : String
  audience : List String
  scope : List String
  principal : Option String
  scopes : Option (List String)

/-- The configuration, and the token store: `unwrapToken` throws, finds nothing, or finds a token. -/
structure OAuthEnv where
  COLLECTOR_MCP_CLIENT_TOKEN : Option String
  COLLECTOR_MCP_CLIENT_SCOPES : Option String
  COLLECTOR_FORWARDABLE_PRINCIPALS : Option String
  COLLECTOR_STATIC_CLIENT_PRINCIPAL : Option String
  COLLECTOR_STATIC_CLIENT_ISSUER : Option String
  unwrapToken : String → Except Unit (Option TokenSummary)

structure Request where
  url : String
  headers : Headers

/-- The `new URL` of the runtime. -/
abbrev ParseUrl : Type := String → Option Url

inductive Outcome where
  /-- `coreWorker.fetch(request)`. -/
  | core (request : Request)
  /-- `oauthChallenge`. -/
  | challenge (error : String) (status : ℕ)
  /-- `handleAuthorize`. -/
  | authorize
  /-- An exception. -/
  | threw

/-- `bearerToken`: `none` without a header or with an empty one, empty where it is not `Bearer `. -/
def bearerToken (request : Request) : Option String :=
  match request.headers.get "Authorization" with
  | none => none
  | some authorization =>
    if authorization = "" then none
    else if "Bearer ".toList.isPrefixOf authorization.toList then
      some (String.ofList (authorization.toList.drop "Bearer ".toList.length))
    else some ""

/-- `withAuthorization`. -/
def withAuthorization (request : Request) (authorization : Option String) : Option Request :=
  match authorization with
  | none => some { request with headers := request.headers.delete "Authorization" }
  | some value => (request.headers.set "Authorization" value).map fun h => { request with headers := h }

def audienceMatches (audience : List String) : Bool :=
  audience.contains MCP_RESOURCE

def tokenHasMarketRead (summary : TokenSummary) : Bool :=
  summary.userId == OWNER_USER_ID && audienceMatches summary.audience &&
    summary.scope.contains MARKET_READ_SCOPE && summary.principal == some productionPrincipal &&
    (summary.scopes.any fun scopes => scopes.contains MARKET_READ_SCOPE)

/-- The configured `COLLECTOR_MCP_CLIENT_TOKEN`, where it is not empty. -/
def bridgeSecret (env : OAuthEnv) : Option String :=
  env.COLLECTOR_MCP_CLIENT_TOKEN.filter (· != "")

/-- The deletion of the forwarded headers that the client sent. -/
def withoutForwarded (headers : Headers) : Headers :=
  (((headers.delete FORWARDED_SCOPES_HEADER).delete FORWARDED_PRINCIPAL_HEADER).delete
    FORWARDED_CLIENT_ID_HEADER).delete FORWARDED_ISSUER_HEADER

/-- The principal of the grant and the origin of the request. -/
def stampPrincipal (parse : ParseUrl) (request : Request) (principal : Option String) (headers : Headers) :
    Option Headers :=
  match principal with
  | none => some headers
  | some p =>
    if isPrincipal p then
      (headers.set FORWARDED_PRINCIPAL_HEADER p).bind fun headers =>
        (parse request.url).bind fun url => headers.set FORWARDED_ISSUER_HEADER url.origin
    else some headers

/-- The request that is forwarded for an accepted token, or `none` where a header cannot be set. -/
def scopeStamped (parse : ParseUrl) (env : OAuthEnv) (request : Request) (summary : TokenSummary) :
    Option Request :=
  ((withoutForwarded request.headers).set FORWARDED_SCOPES_HEADER (" ".intercalate summary.scope)).bind
    fun headers => (stampPrincipal parse request summary.principal headers).bind
      fun headers => withAuthorization { request with headers := headers } ((bridgeSecret env).map bearer)

def handleMcp (parse : ParseUrl) (env : OAuthEnv) (request : Request) : Outcome :=
  match bearerToken request with
  | none =>
    match withAuthorization request none with
    | some forwarded => .core forwarded
    | none => .threw
  | some token =>
    if token = "" then .challenge "invalid_token" 401
    else if bridgeSecret env = some token then .core request
    else match env.unwrapToken token with
      | .error _ => .challenge "invalid_token" 401
      | .ok none => .challenge "invalid_token" 401
      | .ok (some summary) =>
        if !summary.scope.contains MARKET_READ_SCOPE then .challenge "insufficient_scope" 403
        else if !tokenHasMarketRead summary then .challenge "invalid_token" 401
        else match scopeStamped parse env request summary with
          | some forwarded => .core forwarded
          | none => .threw

/-- The `fetch` of `defaultHandler`. -/
def fetch (parse : ParseUrl) (env : OAuthEnv) (request : Request) : Outcome :=
  match parse request.url with
  | none => .threw
  | some url =>
    if url.pathname = "/authorize" then .authorize
    else if url.pathname = "/mcp" then handleMcp parse env request
    else .core request

/-! ## The core -/

/-- What the core knows a research client by. -/
structure Identity where
  scopes : Finset String
  principal : Option String
  issuer : Option String
deriving DecidableEq

/-- The scopes, principal and issuer that the server of a request is created with. -/
def researchIdentity (parse : ParseUrl) (env : OAuthEnv) (request : Request) : Identity where
  scopes := resolveResearchScopes (request.headers.get "Authorization")
    (request.headers.get FORWARDED_SCOPES_HEADER) env.COLLECTOR_MCP_CLIENT_TOKEN
    env.COLLECTOR_MCP_CLIENT_SCOPES
  principal := resolveResearchPrincipal (request.headers.get "Authorization")
    (request.headers.get FORWARDED_PRINCIPAL_HEADER) env.COLLECTOR_MCP_CLIENT_TOKEN
    env.COLLECTOR_FORWARDABLE_PRINCIPALS env.COLLECTOR_STATIC_CLIENT_PRINCIPAL
  issuer := resolveResearchIssuer parse (request.headers.get "Authorization")
    (request.headers.get FORWARDED_ISSUER_HEADER) env.COLLECTOR_MCP_CLIENT_TOKEN
    env.COLLECTOR_STATIC_CLIENT_ISSUER

/-- What the core resolves from a request that reaches it. -/
def resolved (parse : ParseUrl) (env : OAuthEnv) (request : Request) : Option Identity :=
  match fetch parse env request with
  | .core forwarded => some (researchIdentity parse env forwarded)
  | _ => none

/-- No scope, no principal, no issuer. -/
def nobody : Identity := ⟨∅, none, none⟩

/-! ## Who is asking -/

section Clients

variable (parse : ParseUrl) (env : OAuthEnv) (request : Request)

/-- The client holds the credential of the bridge itself. -/
def CarriesSecret : Prop :=
  ∃ secret, bridgeSecret env = some secret ∧ request.headers.get "Authorization" = some (bearer secret)

/-- The request is for the MCP endpoint, with a token that the bridge accepts. -/
structure OAuthPath (url : Url) (summary : TokenSummary) (token : String) : Prop where
  url_parses : parse request.url = some url
  endpoint : url.pathname = "/mcp"
  presented : bearerToken request = some token
  nonempty : token ≠ ""
  not_secret : bridgeSecret env ≠ some token
  unwrapped : env.unwrapToken token = .ok (some summary)
  accepted : tokenHasMarketRead summary = true

/-- The client presents neither the credential nor an accepted token. -/
def Unauthenticated : Prop :=
  ¬ CarriesSecret env request ∧ ∀ url summary token, ¬ OAuthPath parse env request url summary token

/-- The configured ceiling of the scopes. -/
def ceiling : Finset String :=
  parseScopeList env.COLLECTOR_MCP_CLIENT_SCOPES

/-- The principal of a grant, unless a list of principals is configured that leaves it out. -/
def registered (principal : String) : Option String :=
  if parsePrincipalList env.COLLECTOR_FORWARDABLE_PRINCIPALS = ∅ ∨
      principal ∈ parsePrincipalList env.COLLECTOR_FORWARDABLE_PRINCIPALS then some principal
  else none

/-- The origin of a request, unless it has more than 512 code units. -/
def shortOrigin (url : Url) : Option String :=
  if utf16Length url.origin ≤ 512 then some url.origin else none

/-- What the URL standard says of the origin of an HTTP URL: it is a text without blanks and control
characters, and is itself a URL with this origin and nothing after it. -/
structure UrlStandard : Prop where
  origin_parses : ∀ text url, parse text = some url → (url.protocol = "https:" ∨ url.protocol = "http:") →
    parse url.origin = some ⟨url.protocol, "/", "", "", url.origin⟩
  origin_plain : ∀ text url, parse text = some url → (url.protocol = "https:" ∨ url.protocol = "http:") →
    isPlain url.origin = true

end Clients

/-! ## Headers of the forwarded request -/

section Stamped

variable {parse : ParseUrl} {env : OAuthEnv} {request core : Request} {summary : TokenSummary} {url : Url}
  {secret token : String}

theorem principal_of_accepted (h : tokenHasMarketRead summary = true) :
    summary.principal = some productionPrincipal := by
  simp only [tokenHasMarketRead, Bool.and_eq_true, beq_iff_eq] at h
  exact h.1.2

theorem isPrincipal_production : isPrincipal productionPrincipal = true := by decide

theorem headerValue_production : headerValue productionPrincipal = some productionPrincipal :=
  headerValue_of_plain (by decide)

theorem resolved_of_no_credential
    (h : isCredential (core.headers.get "Authorization") env.COLLECTOR_MCP_CLIENT_TOKEN = false) :
    researchIdentity parse env core = nobody := by
  simp [researchIdentity, resolveResearchScopes, resolveResearchPrincipal, resolveResearchIssuer, h, nobody]

/-- The headers that the core reads from a stamped request are those of the token and the URL. -/
theorem scopeStamped_spec (hprincipal : summary.principal = some productionPrincipal)
    (hurl : parse request.url = some url) (h : scopeStamped parse env request summary = some core) :
    core.headers.get "Authorization" = (bridgeSecret env).bind (fun s => headerValue (bearer s)) ∧
      core.headers.get FORWARDED_SCOPES_HEADER = headerValue (" ".intercalate summary.scope) ∧
      core.headers.get FORWARDED_PRINCIPAL_HEADER = some productionPrincipal ∧
      core.headers.get FORWARDED_ISSUER_HEADER = headerValue url.origin := by
  obtain ⟨h₁, hscopes, h⟩ := Option.bind_eq_some_iff.1 h
  obtain ⟨h₃, hstamp, h⟩ := Option.bind_eq_some_iff.1 h
  simp only [stampPrincipal, hprincipal, isPrincipal_production, if_true, hurl, Option.bind_some] at hstamp
  obtain ⟨h₂, hp, hissuer⟩ := Option.bind_eq_some_iff.1 hstamp
  have hbefore : h₃.get FORWARDED_SCOPES_HEADER = headerValue (" ".intercalate summary.scope) ∧
      h₃.get FORWARDED_PRINCIPAL_HEADER = some productionPrincipal ∧
      h₃.get FORWARDED_ISSUER_HEADER = headerValue url.origin := by
    refine ⟨?_, ?_, Headers.get_set_self hissuer⟩
    · exact ((Headers.get_set_of_ne hissuer (by decide)).trans (Headers.get_set_of_ne hp (by decide))).trans
        (Headers.get_set_self hscopes)
    · exact ((Headers.get_set_of_ne hissuer (by decide)).trans (Headers.get_set_self hp)).trans
        headerValue_production
  obtain ⟨hs, hprinc, hiss⟩ := hbefore
  cases hsecret : bridgeSecret env with
  | none =>
    rw [hsecret] at h
    cases h
    exact ⟨Headers.get_delete_self, (Headers.get_delete_of_ne (by decide)).trans hs,
      (Headers.get_delete_of_ne (by decide)).trans hprinc, (Headers.get_delete_of_ne (by decide)).trans hiss⟩
  | some secret =>
    rw [hsecret] at h
    obtain ⟨h₄, hauth, rfl⟩ := Option.map_eq_some_iff.1 h
    exact ⟨Headers.get_set_self hauth, (Headers.get_set_of_ne hauth (by decide)).trans hs,
      (Headers.get_set_of_ne hauth (by decide)).trans hprinc,
      (Headers.get_set_of_ne hauth (by decide)).trans hiss⟩

/-- The request is not stamped where one of the values cannot be a header. -/
theorem scopeStamped_eq_none_iff (hprincipal : summary.principal = some productionPrincipal)
    (hurl : parse request.url = some url) : scopeStamped parse env request summary = none ↔
      headerValue (" ".intercalate summary.scope) = none ∨ headerValue url.origin = none ∨
        ∃ secret, bridgeSecret env = some secret ∧ headerValue (bearer secret) = none := by
  unfold scopeStamped stampPrincipal
  simp only [hprincipal, isPrincipal_production, if_true, hurl, Option.bind_some, Headers.set,
    headerValue_production, Option.map_some]
  cases headerValue (" ".intercalate summary.scope) with
  | none => simp
  | some scopes =>
    cases headerValue url.origin with
    | none => simp
    | some origin =>
      cases bridgeSecret env with
      | none => simp [withAuthorization]
      | some secret => simp [withAuthorization, Headers.set]

theorem exists_scopeStamped (hprincipal : summary.principal = some productionPrincipal)
    (hurl : parse request.url = some url) (hscopes : headerValue (" ".intercalate summary.scope) ≠ none)
    (horigin : headerValue url.origin ≠ none) (hsecret : bridgeSecret env = some secret)
    (hvalue : headerValue (bearer secret) ≠ none) :
    ∃ core, scopeStamped parse env request summary = some core := by
  rw [← Option.ne_none_iff_exists', ne_eq, scopeStamped_eq_none_iff hprincipal hurl]
  rintro (h | h | ⟨s, hs, h⟩)
  · exact hscopes h
  · exact horigin h
  · cases hsecret.symm.trans hs
    exact hvalue h

theorem isCredential_stamped (hauth : core.headers.get "Authorization" =
    (bridgeSecret env).bind (fun s => headerValue (bearer s))) :
    isCredential (core.headers.get "Authorization") env.COLLECTOR_MCP_CLIENT_TOKEN = true ↔
      ∃ secret, bridgeSecret env = some secret ∧ headerValue (bearer secret) = some (bearer secret) := by
  rw [isCredential_iff, hauth]
  constructor
  · rintro ⟨secret, hsecret, hvalue⟩
    rw [bridgeSecret, hsecret] at hvalue
    exact ⟨secret, hsecret, hvalue⟩
  · rintro ⟨secret, hsecret, hvalue⟩
    exact ⟨secret, hsecret, by rw [hsecret]; exact hvalue⟩

theorem normalizeIssuerOrigin_origin (hstd : UrlStandard parse) (hurl : parse request.url = some url)
    (hhttp : url.protocol = "https:" ∨ url.protocol = "http:") :
    normalizeIssuerOrigin parse url.origin = shortOrigin url := by
  have hparse := hstd.origin_parses _ _ hurl hhttp
  unfold normalizeIssuerOrigin shortOrigin
  by_cases hlong : utf16Length url.origin ≤ 512
  · rw [if_neg (by omega), hparse, if_pos hlong]
    rcases hhttp with h | h <;> simp [h]
  · rw [if_pos (by omega), if_neg hlong]

/-- Scopes without separators, read back under the ceiling. -/
theorem filter_parseScopeList {scopes : List String} {joined : String}
    (hplain : ∀ scope ∈ scopes, ∀ c ∈ scope.toList, isSeparator c = false)
    (hjoined : headerValue (" ".intercalate scopes) = some joined) :
    (parseScopeList (some joined)).filter (· ∈ ceiling env) = scopes.toFinset ∩ ceiling env := by
  ext s
  rw [Finset.mem_filter, Finset.mem_inter, parseScopeList_headerValue hjoined,
    mem_parseScopeList_join hplain, List.mem_toFinset]
  constructor
  · exact fun h => ⟨h.1.1, h.2⟩
  · rintro ⟨hs, hc⟩
    exact ⟨⟨hs, by rintro rfl; exact empty_notMem_parseScopeList _ hc⟩, hc⟩

/-- **The core resolves the grant.** -/
theorem researchIdentity_stamped (hstd : UrlStandard parse)
    (hprincipal : summary.principal = some productionPrincipal) (hurl : parse request.url = some url)
    (hhttp : url.protocol = "https:" ∨ url.protocol = "http:")
    (hsecret : bridgeSecret env = some secret) (hcarried : headerValue (bearer secret) = some (bearer secret))
    (hplain : ∀ scope ∈ summary.scope, ∀ c ∈ scope.toList, isSeparator c = false)
    (h : scopeStamped parse env request summary = some core) :
    researchIdentity parse env core =
      ⟨summary.scope.toFinset ∩ ceiling env, registered env productionPrincipal, shortOrigin url⟩ := by
  obtain ⟨hauth, hscopes, hprinc, hissuer⟩ := scopeStamped_spec hprincipal hurl h
  have hcredential := (isCredential_stamped hauth).2 ⟨secret, hsecret, hcarried⟩
  rw [headerValue_of_plain (hstd.origin_plain _ _ hurl hhttp)] at hissuer
  obtain ⟨joined, hjoined⟩ : ∃ joined, headerValue (" ".intercalate summary.scope) = some joined := by
    by_contra hnone
    rw [not_exists, ← Option.eq_none_iff_forall_ne_some] at hnone
    rw [(scopeStamped_eq_none_iff hprincipal hurl).2 (.inl hnone)] at h
    cases h
  rw [hjoined] at hscopes
  unfold researchIdentity resolveResearchScopes resolveResearchPrincipal resolveResearchIssuer
  simp only [hcredential, hscopes, hprinc, hissuer, isPrincipal_production, Bool.not_true,
    Bool.false_eq_true, if_false, Identity.mk.injEq]
  refine ⟨filter_parseScopeList hplain hjoined, ?_, normalizeIssuerOrigin_origin hstd hurl hhttp⟩
  unfold registered
  split_ifs <;> simp_all

end Stamped

/-! ## What a request resolves to -/

section Resolved

variable {parse : ParseUrl} {env : OAuthEnv} {request r₁ r₂ core : Request} {summary : TokenSummary}
  {url : Url} {token : String}

theorem authorization_of_bearerToken (h : bearerToken request = some token) (hne : token ≠ "") :
    request.headers.get "Authorization" = some (bearer token) := by
  unfold bearerToken at h
  cases hget : request.headers.get "Authorization" with
  | none => simp [hget] at h
  | some authorization =>
    rw [hget] at h
    dsimp only at h
    split_ifs at h with hempty hbearer
    · obtain ⟨rest, hrest⟩ := List.isPrefixOf_iff_prefix.1 hbearer
      rw [← hrest, List.drop_left] at h
      cases h
      have hlist : (bearer (String.ofList rest)).toList = "Bearer ".toList ++ rest :=
        String.toList_append.trans (congrArg _ String.toList_ofList)
      exact congrArg some (String.toList_inj.1 (hrest.symm.trans hlist.symm))
    · exact absurd (Option.some.inj h).symm hne

theorem bearerToken_congr (h : r₁.headers.get "Authorization" = r₂.headers.get "Authorization") :
    bearerToken r₁ = bearerToken r₂ := by
  unfold bearerToken
  rw [h]

/-- An accepted token has the scope that is asked for first. -/
theorem contains_of_accepted (h : tokenHasMarketRead summary = true) :
    summary.scope.contains MARKET_READ_SCOPE = true := by
  simp only [tokenHasMarketRead, Bool.and_eq_true] at h
  exact h.1.1.2

theorem fetch_of_grant (h : OAuthPath parse env request url summary token) :
    fetch parse env request =
      match scopeStamped parse env request summary with
      | some forwarded => .core forwarded
      | none => .threw := by
  have hmcp : ¬ url.pathname = "/authorize" := by
    rw [h.endpoint]
    decide
  simp only [fetch, h.url_parses, if_neg hmcp, if_pos h.endpoint, handleMcp, h.presented, if_neg h.nonempty,
    if_neg h.not_secret, h.unwrapped, contains_of_accepted h.accepted, h.accepted, Bool.not_true,
    Bool.false_eq_true, if_false]

theorem researchIdentity_of_not_carries (h : ¬ CarriesSecret env request) :
    researchIdentity parse env request = nobody :=
  resolved_of_no_credential (Bool.eq_false_iff.2 fun hc => h (isCredential_iff.1 hc))

theorem researchIdentity_of_deleted (request : Request) :
    researchIdentity parse env { request with headers := request.headers.delete "Authorization" } =
      nobody := by
  refine researchIdentity_of_not_carries ?_
  rintro ⟨secret, -, h⟩
  rw [Headers.get_delete_self] at h
  cases h

/-- Where a request without token and credential reaches the core: outside the two endpoints, and at the MCP
endpoint without an `Authorization` header. -/
def Passes (parse : ParseUrl) (request : Request) : Prop :=
  ∃ url, parse request.url = some url ∧ url.pathname ≠ "/authorize" ∧
    (url.pathname = "/mcp" → bearerToken request = none)

theorem resolvedMcp_of_unauthenticated (h : Unauthenticated parse env request)
    (hurl : parse request.url = some url) (hmcp : url.pathname = "/mcp") :
    (bearerToken request = none ∧ ∃ core, handleMcp parse env request = .core core ∧
        researchIdentity parse env core = nobody) ∨
      (bearerToken request ≠ none ∧ ∀ core, handleMcp parse env request ≠ .core core) := by
  obtain ⟨hsecret, hgrant⟩ := h
  cases htoken : bearerToken request with
  | none => exact .inl ⟨rfl, _, by rw [handleMcp, htoken]; rfl, researchIdentity_of_deleted request⟩
  | some token =>
    refine .inr ⟨Option.some_ne_none token, fun core hcore => ?_⟩
    rw [handleMcp, htoken] at hcore
    dsimp only at hcore
    split_ifs at hcore with hempty hstatic
    · exact hsecret ⟨token, hstatic, authorization_of_bearerToken htoken hempty⟩
    · rcases hunwrap : env.unwrapToken token with _ | _ | summary
      · simp [hunwrap] at hcore
      · simp [hunwrap] at hcore
      · rw [hunwrap] at hcore
        dsimp only at hcore
        split_ifs at hcore with hscope haccepted
        exact hgrant url summary token
          ⟨hurl, hmcp, htoken, hempty, hstatic, hunwrap, by simpa using haccepted⟩

theorem resolved_of_unauthenticated (h : Unauthenticated parse env request) :
    (Passes parse request ∧ resolved parse env request = some nobody) ∨
      (¬ Passes parse request ∧ resolved parse env request = none) := by
  unfold resolved fetch
  cases hurl : parse request.url with
  | none => exact .inr ⟨by simp [Passes, hurl], rfl⟩
  | some url =>
    dsimp only
    split_ifs with hauthorize hmcp
    · exact .inr ⟨by simp [Passes, hurl, hauthorize], rfl⟩
    · rcases resolvedMcp_of_unauthenticated h hurl hmcp with ⟨htoken, core, hcore, hnobody⟩ | ⟨htoken, hcore⟩
      · refine .inl ⟨⟨url, hurl, hauthorize, fun _ => htoken⟩, ?_⟩
        rw [hcore]
        exact congrArg some hnobody
      · refine .inr ⟨?_, ?_⟩
        · rintro ⟨url', hurl', -, hnone⟩
          cases hurl.symm.trans hurl'
          exact htoken (hnone hmcp)
        · cases houtcome : handleMcp parse env request with
          | core core => exact absurd houtcome (hcore core)
          | challenge error status => rfl
          | authorize => rfl
          | threw => rfl
    · exact .inl ⟨⟨url, hurl, hauthorize, fun hm => absurd hm hmcp⟩,
        congrArg some (researchIdentity_of_not_carries h.1)⟩

/-- A request that presents neither a token nor the credential resolves to nothing. -/
theorem identity_of_unauthenticated (h : Unauthenticated parse env request)
    (hcore : fetch parse env request = .core core) : researchIdentity parse env core = nobody := by
  have hresolved : resolved parse env request = some (researchIdentity parse env core) := by
    rw [resolved, hcore]
  rcases resolved_of_unauthenticated h with ⟨-, hsome⟩ | ⟨-, hnone⟩
  · exact Option.some.inj (hresolved.symm.trans hsome)
  · cases hresolved.symm.trans hnone

/-! ## Two runs -/

/-- The core reads the same of two stamped requests. -/
theorem researchIdentity_two_stamped {c₁ c₂ : Request} (hurl : r₁.url = r₂.url)
    (hprincipal : summary.principal = some productionPrincipal) (hparse : parse r₂.url = some url)
    (h₁ : scopeStamped parse env r₁ summary = some c₁) (h₂ : scopeStamped parse env r₂ summary = some c₂) :
    researchIdentity parse env c₁ = researchIdentity parse env c₂ := by
  obtain ⟨ha₁, hs₁, hp₁, hi₁⟩ := scopeStamped_spec hprincipal (hurl ▸ hparse) h₁
  obtain ⟨ha₂, hs₂, hp₂, hi₂⟩ := scopeStamped_spec hprincipal hparse h₂
  unfold researchIdentity
  rw [ha₁, hs₁, hp₁, hi₁, ha₂, hs₂, hp₂, hi₂]

theorem resolved_two_grants (hurl : r₁.url = r₂.url) (h₁ : OAuthPath parse env r₁ url summary token)
    (h₂ : OAuthPath parse env r₂ url summary token) : resolved parse env r₁ = resolved parse env r₂ := by
  have hprincipal := principal_of_accepted h₂.accepted
  have hnone : scopeStamped parse env r₁ summary = none ↔ scopeStamped parse env r₂ summary = none :=
    (scopeStamped_eq_none_iff hprincipal h₁.url_parses).trans
      (scopeStamped_eq_none_iff hprincipal h₂.url_parses).symm
  unfold resolved
  rw [fetch_of_grant h₁, fetch_of_grant h₂]
  cases hc₁ : scopeStamped parse env r₁ summary with
  | none => rw [hnone.1 hc₁]
  | some c₁ =>
    cases hc₂ : scopeStamped parse env r₂ summary with
    | none =>
      rw [hnone.2 hc₂] at hc₁
      cases hc₁
    | some c₂ => exact congrArg some (researchIdentity_two_stamped hurl hprincipal h₂.url_parses hc₁ hc₂)

/-- **Noninterference.** Unless the client holds the credential of the bridge, what the core resolves depends
on the URL and the `Authorization` header alone. -/
theorem resolved_two_runs (hurl : r₁.url = r₂.url)
    (hauth : r₁.headers.get "Authorization" = r₂.headers.get "Authorization")
    (hsecret : ¬ CarriesSecret env r₁) : resolved parse env r₁ = resolved parse env r₂ := by
  have hsecret₂ : ¬ CarriesSecret env r₂ := by
    rintro ⟨secret, hs, h⟩
    exact hsecret ⟨secret, hs, hauth.trans h⟩
  by_cases hgrant : ∃ url summary token, OAuthPath parse env r₁ url summary token
  · obtain ⟨url, summary, token, h⟩ := hgrant
    exact resolved_two_grants hurl h ⟨hurl ▸ h.url_parses, h.endpoint, bearerToken_congr hauth ▸ h.presented,
      h.nonempty, h.not_secret, h.unwrapped, h.accepted⟩
  · have hnone₁ : Unauthenticated parse env r₁ :=
      ⟨hsecret, fun url summary token h => hgrant ⟨url, summary, token, h⟩⟩
    have hnone₂ : Unauthenticated parse env r₂ := by
      refine ⟨hsecret₂, fun url summary token h => hgrant ⟨url, summary, token, ?_⟩⟩
      exact ⟨hurl ▸ h.url_parses, h.endpoint, bearerToken_congr hauth ▸ h.presented, h.nonempty, h.not_secret,
        h.unwrapped, h.accepted⟩
    have hpasses : Passes parse r₁ ↔ Passes parse r₂ := by
      rw [Passes, hurl, bearerToken_congr hauth, Passes]
    rcases resolved_of_unauthenticated hnone₁ with ⟨hp, h₁⟩ | ⟨hp, h₁⟩
    · rcases resolved_of_unauthenticated hnone₂ with ⟨-, h₂⟩ | ⟨hnot, -⟩
      · exact h₁.trans h₂.symm
      · exact absurd (hpasses.1 hp) hnot
    · rcases resolved_of_unauthenticated hnone₂ with ⟨hyes, -⟩ | ⟨-, h₂⟩
      · exact absurd (hpasses.2 hyes) hp
      · exact h₁.trans h₂.symm

/-- **Scopes and identity of a request.** For an accepted token the core resolves the scopes of the token that
are configured, the principal of the grant where the configured list has it, and the origin of the request;
without token and credential it resolves nothing. No header but `Authorization` changes what is resolved,
unless the client holds the credential itself, and then no header takes it beyond the configured scopes. -/
theorem identity_within_grant {parse : ParseUrl} (hstd : UrlStandard parse) (env : OAuthEnv) :
    (∀ request url summary token secret, OAuthPath parse env request url summary token →
        (url.protocol = "https:" ∨ url.protocol = "http:") → bridgeSecret env = some secret →
        headerValue (bearer secret) = some (bearer secret) →
        (∀ scope ∈ summary.scope, ∀ c ∈ scope.toList, isSeparator c = false) →
        (headerValue (" ".intercalate summary.scope) = none → fetch parse env request = .threw) ∧
        (headerValue (" ".intercalate summary.scope) ≠ none → ∃ core, fetch parse env request = .core core ∧
          core.headers.get FORWARDED_PRINCIPAL_HEADER = summary.principal ∧
          core.headers.get FORWARDED_ISSUER_HEADER = some url.origin ∧
          researchIdentity parse env core =
            ⟨summary.scope.toFinset ∩ ceiling env, summary.principal.bind (registered env),
              shortOrigin url⟩)) ∧
      (∀ request core, Unauthenticated parse env request → fetch parse env request = .core core →
        researchIdentity parse env core = nobody) ∧
      (∀ r₁ r₂ : Request, r₁.url = r₂.url →
        r₁.headers.get "Authorization" = r₂.headers.get "Authorization" → ¬ CarriesSecret env r₁ →
        resolved parse env r₁ = resolved parse env r₂) ∧
      ∀ request core, fetch parse env request = .core core →
        (researchIdentity parse env core).scopes ⊆ ceiling env := by
  refine ⟨fun request url summary token secret hgrant hhttp hsecret hcarried hplain => ⟨fun hnone => ?_,
    fun hsome => ?_⟩, fun request core h hcore => identity_of_unauthenticated h hcore,
    fun r₁ r₂ hurl hauth hsecret => resolved_two_runs hurl hauth hsecret,
    fun request core _ => resolveResearchScopes_subset _ _ _ _⟩
  · rw [fetch_of_grant hgrant,
      (scopeStamped_eq_none_iff (principal_of_accepted hgrant.accepted) hgrant.url_parses).2 (.inl hnone)]
  · have hprincipal := principal_of_accepted hgrant.accepted
    have horigin := headerValue_of_plain (hstd.origin_plain _ _ hgrant.url_parses hhttp)
    obtain ⟨core, hcore⟩ := exists_scopeStamped hprincipal hgrant.url_parses hsome (by simp [horigin])
      hsecret (by simp [hcarried])
    obtain ⟨-, -, hprinc, hissuer⟩ := scopeStamped_spec hprincipal hgrant.url_parses hcore
    refine ⟨core, by rw [fetch_of_grant hgrant, hcore], hprinc.trans hprincipal.symm,
      hissuer.trans horigin, ?_⟩
    rw [hprincipal]
    exact researchIdentity_stamped hstd hprincipal hgrant.url_parses hhttp hsecret hcarried hplain hcore

/-! ## A grant and the limits of what the core sees -/

/-- The URLs of one host, over HTTPS. -/
def parseAt (origin : String) : ParseUrl := fun text =>
  if text = origin then some ⟨"https:", "/", "", "", origin⟩
  else if text = origin ++ "/mcp" then some ⟨"https:", "/mcp", "", "", origin⟩
  else none

def productionToken : TokenSummary :=
  ⟨OWNER_USER_ID, [MCP_RESOURCE], [MARKET_READ_SCOPE, RESEARCH_CLAIM_SCOPE], some productionPrincipal,
    some [MARKET_READ_SCOPE]⟩

def productionEnv (secret : String) (forwardable : Option String) : OAuthEnv where
  COLLECTOR_MCP_CLIENT_TOKEN := some secret
  COLLECTOR_MCP_CLIENT_SCOPES := some "market:read research:claim research:submit"
  COLLECTOR_FORWARDABLE_PRINCIPALS := forwardable
  COLLECTOR_STATIC_CLIENT_PRINCIPAL := some "zcode-research-machine"
  COLLECTOR_STATIC_CLIENT_ISSUER := none
  unwrapToken token := .ok (if token = "t" then some productionToken else none)

/-- A credential, with a principal and scopes of the client's own. -/
def forgedHeaders (token : String) : Headers :=
  [(byteLowercase "Authorization", bearer token),
    (byteLowercase FORWARDED_PRINCIPAL_HEADER, productionPrincipal),
    (byteLowercase FORWARDED_SCOPES_HEADER, RESEARCH_SUBMIT_SCOPE)]

def forgedRequest (origin : String) : Request :=
  ⟨origin ++ "/mcp", forgedHeaders "t"⟩

theorem append_mcp_ne (origin : String) : origin ++ "/mcp" ≠ origin := by
  intro h
  have hlength := congrArg String.length h
  simp at hlength

theorem urlStandard_parseAt {origin : String} (hplain : isPlain origin = true) :
    UrlStandard (parseAt origin) := by
  refine ⟨fun text url h _ => ?_, fun text url h _ => ?_⟩
  · unfold parseAt at h ⊢
    split_ifs at h <;> cases h <;> simp
  · unfold parseAt at h
    split_ifs at h <;> cases h <;> exact hplain

theorem oauthPath_forged (origin : String) (secret : String) (hsecret : secret ≠ "t")
    (forwardable : Option String) :
    OAuthPath (parseAt origin) (productionEnv secret forwardable) (forgedRequest origin)
      ⟨"https:", "/mcp", "", "", origin⟩ productionToken "t" where
  url_parses := by simp [parseAt, forgedRequest]
  endpoint := rfl
  presented := by
    have hget : (forgedHeaders "t").get "Authorization" = some "Bearer t" := by decide
    simp only [bearerToken, forgedRequest, hget]
    decide
  nonempty := by decide
  not_secret := by
    intro h
    exact hsecret (Option.some.inj (Option.filter_eq_some_iff.1 h).1)
  unwrapped := by simp [productionEnv]
  accepted := by decide

theorem plain_a : isPlain "https://a" = true := by decide

theorem carried_s : headerValue (bearer "s") = some (bearer "s") := by decide

theorem plain_productionToken :
    ∀ scope ∈ productionToken.scope, ∀ c ∈ scope.toList, isSeparator c = false := by
  have hall : productionToken.scope.all (fun s => s.toList.all fun c => !isSeparator c) = true := by
    decide
  simpa only [List.all_eq_true, Bool.not_eq_true'] using hall

theorem joined_productionToken : headerValue (" ".intercalate productionToken.scope) ≠ none := by
  decide

/-- The forged request reaches the core as the grant. -/
theorem identity_within_grant_forged :
    ∃ core, fetch (parseAt "https://a") (productionEnv "s" none) (forgedRequest "https://a") = .core core ∧
      core.headers.get FORWARDED_PRINCIPAL_HEADER = productionToken.principal ∧
      core.headers.get FORWARDED_ISSUER_HEADER = some "https://a" ∧
      researchIdentity (parseAt "https://a") (productionEnv "s" none) core =
        ⟨productionToken.scope.toFinset ∩ ceiling (productionEnv "s" none),
          productionToken.principal.bind (registered (productionEnv "s" none)),
          shortOrigin ⟨"https:", "/mcp", "", "", "https://a"⟩⟩ :=
  ((identity_within_grant (urlStandard_parseAt plain_a) (productionEnv "s" none)).1 _ _ _ _ "s"
    (oauthPath_forged "https://a" "s" (by decide) none) (.inl rfl) rfl carried_s plain_productionToken).2
      joined_productionToken

theorem exists_forged {origin : String} (hplain : isPlain origin = true) (secret : String)
    (hsecret : secret ≠ "t") (hne : secret ≠ "") (hvalue : headerValue (bearer secret) ≠ none)
    (forwardable : Option String) :
    ∃ core, scopeStamped (parseAt origin) (productionEnv secret forwardable) (forgedRequest origin)
        productionToken = some core ∧
      fetch (parseAt origin) (productionEnv secret forwardable) (forgedRequest origin) = .core core := by
  have hgrant := oauthPath_forged origin secret hsecret forwardable
  have hbridge : bridgeSecret (productionEnv secret forwardable) = some secret := by
    simp [bridgeSecret, productionEnv, hne]
  obtain ⟨core, hcore⟩ := exists_scopeStamped (principal_of_accepted hgrant.accepted) hgrant.url_parses
    joined_productionToken (by simp [headerValue_of_plain hplain]) hbridge hvalue
  exact ⟨core, hcore, by rw [fetch_of_grant hgrant, hcore]⟩

/-- The core sees every grant as it is. -/
def SeesGrant (parse : ParseUrl) (env : OAuthEnv) : Prop :=
  ∀ request url summary token core, OAuthPath parse env request url summary token →
    (∀ scope ∈ summary.scope, ∀ c ∈ scope.toList, isSeparator c = false) →
    fetch parse env request = .core core →
    researchIdentity parse env core =
      ⟨summary.scope.toFinset ∩ ceiling env, summary.principal, some url.origin⟩

/-- No header but `Authorization` matters. -/
def IgnoresHeaders (parse : ParseUrl) (env : OAuthEnv) : Prop :=
  ∀ r₁ r₂ : Request, r₁.url = r₂.url →
    r₁.headers.get "Authorization" = r₂.headers.get "Authorization" →
    resolved parse env r₁ = resolved parse env r₂

/-- An origin of `n` characters. -/
def longOrigin (n : ℕ) : String := String.ofList (List.replicate n 'a')

theorem plain_longOrigin (n : ℕ) : isPlain (longOrigin n) = true := by
  rw [isPlain, longOrigin, String.toList_ofList, List.all_eq_true]
  intro c hc
  rw [List.eq_of_mem_replicate hc]
  decide

theorem utf16Length_longOrigin (n : ℕ) : utf16Length (longOrigin n) = n := by
  rw [utf16Length, longOrigin, String.toList_ofList, List.map_replicate, List.sum_replicate_nat]
  exact mul_one n

/-- The core does not see a principal that the configured list leaves out, nothing where a header changes the
credential, and no origin of more than 512 characters; and the holder of the credential names a principal. -/
theorem grant_not_always_seen :
    ¬ SeesGrant (parseAt "https://a") (productionEnv "s" (some "zcode-research-machine")) ∧
      ¬ SeesGrant (parseAt "https://a") (productionEnv "s " none) ∧
      ¬ SeesGrant (parseAt (longOrigin 513)) (productionEnv "s" none) ∧
      ¬ IgnoresHeaders (parseAt "https://a") (productionEnv "s" none) := by
  refine ⟨fun h => ?_, fun h => ?_, fun h => ?_, fun h => ?_⟩
  · obtain ⟨core, hcore, hfetch⟩ := exists_forged plain_a "s" (by decide) (by decide) (by simp [carried_s])
      (some "zcode-research-machine")
    have hgrant := oauthPath_forged "https://a" "s" (by decide) (some "zcode-research-machine")
    have hseen := h _ _ _ _ _ hgrant plain_productionToken hfetch
    rw [researchIdentity_stamped (urlStandard_parseAt plain_a) rfl hgrant.url_parses (.inl rfl) rfl carried_s
      plain_productionToken hcore] at hseen
    have hprincipal := congrArg Identity.principal hseen
    revert hprincipal
    decide
  · obtain ⟨core, hcore, hfetch⟩ := exists_forged plain_a "s " (by decide) (by decide)
      (by decide) none
    have hgrant := oauthPath_forged "https://a" "s " (by decide) none
    have hseen := h _ _ _ _ _ hgrant plain_productionToken hfetch
    have hcredential := isCredential_stamped (scopeStamped_spec rfl hgrant.url_parses hcore).1
    rw [resolved_of_no_credential (Bool.eq_false_iff.2 fun hc => ?_)] at hseen
    · have hprincipal := congrArg Identity.principal hseen
      cases hprincipal
    · obtain ⟨secret, hsecret, hvalue⟩ := hcredential.1 hc
      cases hsecret
      revert hvalue
      decide
  · obtain ⟨core, hcore, hfetch⟩ := exists_forged (plain_longOrigin 513) "s" (by decide) (by decide)
      (by simp [carried_s]) none
    have hgrant := oauthPath_forged (longOrigin 513) "s" (by decide) none
    have hseen := h _ _ _ _ _ hgrant plain_productionToken hfetch
    rw [researchIdentity_stamped (urlStandard_parseAt (plain_longOrigin 513)) rfl hgrant.url_parses (.inl rfl)
      rfl carried_s plain_productionToken hcore] at hseen
    have hissuer := congrArg Identity.issuer hseen
    simp only [shortOrigin, utf16Length_longOrigin] at hissuer
    cases hissuer
  · have hsame := congrArg (Option.map Identity.principal)
      (h ⟨"https://a/mcp", forgedHeaders "s"⟩ ⟨"https://a/mcp", [(byteLowercase "Authorization", bearer "s")]⟩
        rfl (by decide))
    revert hsame
    decide

end Resolved

end QuantproCollector.ResearchScopes
