import Mathlib.Data.Finset.Basic
import QuantproCollector.Lib.HeaderFields
import QuantproCollector.Platform

/-!
# Effective scopes and identity of a research client

Model of `src/src/research-scopes.ts`, with the request headers that it is given and the `URL` it parses an
issuer with. The header values are texts; a name is known by its characters in lower case, a value is stored
without the blanks at its ends, and the values of one name are read as one, joined by commas.
-/

namespace QuantproCollector.ResearchScopes

/-! ## Headers -/

/-- The names of header fields, as `Headers` compares them. -/
def byteLowercase (name : String) : List Char :=
  name.toList.map Char.toLower

/-- A `Headers` object: the fields with their names in lower case. -/
abbrev Headers : Type := List (List Char × String)

/-- `headers.get(name)`. -/
def Headers.get (headers : Headers) (name : String) : Option String :=
  match HeaderFields.values headers (byteLowercase name) with
  | [] => none
  | v :: vs => some (", ".intercalate (v :: vs))

/-- `headers.delete(name)`. -/
def Headers.delete (headers : Headers) (name : String) : Headers :=
  HeaderFields.delete headers (byteLowercase name)

/-- Tab, line feed, carriage return and space, which a header value loses at its ends. -/
def isHttpBlank (c : Char) : Bool :=
  [0x9, 0xA, 0xD, 0x20].contains c.toNat

/-- A header value as it is stored, or `none` where `set` throws a `TypeError`: at a character of more than
one byte, and at one that ends a line or the text. -/
def headerValue (value : String) : Option String :=
  let trimmed := HeaderFields.trim isHttpBlank value.toList
  if value.toList.all (fun c => decide (c.toNat ≤ 0xFF)) &&
      trimmed.all (fun c => !([0x0, 0xA, 0xD].contains c.toNat)) then
    some (String.ofList trimmed)
  else none

/-- `headers.set(name, value)`. -/
def Headers.set (headers : Headers) (name value : String) : Option Headers :=
  (headerValue value).map fun v => HeaderFields.set headers (byteLowercase name) v

/-- A text of one byte a character, without blanks and control characters: it is stored as it is. -/
def isPlain (s : String) : Bool :=
  s.toList.all fun c => decide (0x20 < c.toNat) && decide (c.toNat ≤ 0xFF)

section Headers

variable {headers h : Headers} {name other value v : String}

theorem Headers.get_delete_self : (headers.delete name).get name = none := by
  rw [Headers.get, Headers.delete, HeaderFields.values_delete_self]

theorem Headers.get_delete_of_ne (hne : byteLowercase other ≠ byteLowercase name) :
    (headers.delete name).get other = headers.get other := by
  rw [Headers.get, Headers.delete, HeaderFields.values_delete_of_ne _ hne, Headers.get]

theorem Headers.get_set_self (hset : headers.set name value = some h) : h.get name = headerValue value := by
  obtain ⟨v, hv, rfl⟩ := Option.map_eq_some_iff.1 hset
  rw [Headers.get, HeaderFields.values_set_self, hv]
  exact congrArg some String.intercalate_singleton

theorem Headers.get_set_of_ne (hset : headers.set name value = some h)
    (hne : byteLowercase other ≠ byteLowercase name) : h.get other = headers.get other := by
  obtain ⟨v, -, rfl⟩ := Option.map_eq_some_iff.1 hset
  rw [Headers.get, HeaderFields.values_set_of_ne _ _ hne, Headers.get]

theorem Headers.exists_set (headers : Headers) (name : String) (hv : headerValue value = some v) :
    ∃ h, headers.set name value = some h :=
  ⟨_, by rw [Headers.set, hv]; rfl⟩

theorem headerValue_of_plain (h : isPlain value = true) : headerValue value = some value := by
  have hplain : ∀ c ∈ value.toList, 0x20 < c.toNat ∧ c.toNat ≤ 0xFF := by
    simpa [isPlain] using h
  have htrim : HeaderFields.trim isHttpBlank value.toList = value.toList := by
    refine HeaderFields.trim_of_forall fun c hc => ?_
    have := (hplain c hc).1
    simp only [isHttpBlank, List.contains_eq_mem, List.mem_cons, List.not_mem_nil, or_false,
      decide_eq_false_iff_not]
    omega
  have hbyte : value.toList.all (fun c => decide (c.toNat ≤ 0xFF)) = true :=
    List.all_eq_true.2 fun c hc => decide_eq_true (hplain c hc).2
  have hline : value.toList.all (fun c => !([0x0, 0xA, 0xD].contains c.toNat)) = true := by
    refine List.all_eq_true.2 fun c hc => ?_
    have := (hplain c hc).1
    simp only [List.contains_eq_mem, List.mem_cons, List.not_mem_nil, or_false, Bool.not_eq_true',
      decide_eq_false_iff_not]
    omega
  rw [headerValue]
  simp only [htrim, hbyte, hline, Bool.and_self, if_true, String.ofList_toList]

end Headers

/-! ## Scopes and principals -/

def RESEARCH_CLAIM_SCOPE : String := "research:claim"
def RESEARCH_SUBMIT_SCOPE : String := "research:submit"

def FORWARDED_SCOPES_HEADER : String := "X-QuantPro-Client-Scopes"
def FORWARDED_PRINCIPAL_HEADER : String := "X-QuantPro-Principal"
def FORWARDED_CLIENT_ID_HEADER : String := "X-QuantPro-Client-Id"
def FORWARDED_ISSUER_HEADER : String := "X-QuantPro-OAuth-Issuer"

/-- The separators `[\s,]` of a list of scopes or principals. -/
def isSeparator (c : Char) : Bool :=
  isSpace c || c = ','

/-- `parseScopeList`. The pattern splits at runs of separators and not at each of them, but what is empty
between two separators is dropped either way, and what is not has no white space to `trim`. -/
def parseScopeList (value : Option String) : Finset String :=
  ((HeaderFields.words isSeparator (value.getD "").toList).map String.ofList).toFinset

/-- `parsePrincipalList`, which reads its list as `parseScopeList` does. -/
def parsePrincipalList (value : Option String) : Finset String :=
  parseScopeList value

section Scopes

variable {value joined : String} {scopes : List String}

theorem mem_parseScopeList {value : Option String} {s : String} :
    s ∈ parseScopeList value ↔ s.toList ∈ HeaderFields.words isSeparator (value.getD "").toList := by
  simp only [parseScopeList, List.mem_toFinset, List.mem_map]
  constructor
  · rintro ⟨w, hw, rfl⟩
    rwa [String.toList_ofList]
  · exact fun h => ⟨s.toList, h, String.ofList_toList⟩

theorem empty_notMem_parseScopeList (value : Option String) : "" ∉ parseScopeList value := by
  rw [mem_parseScopeList]
  simp [HeaderFields.words]

/-- A header keeps the words of its value. -/
theorem parseScopeList_headerValue (h : headerValue value = some joined) :
    parseScopeList (some joined) = parseScopeList (some value) := by
  have hblank : ∀ c, isHttpBlank c = true → isSeparator c = true := by
    intro c hc
    simp only [isHttpBlank, List.contains_eq_mem, List.mem_cons, List.not_mem_nil, or_false,
      decide_eq_true_eq] at hc
    rcases hc with hc | hc | hc | hc <;> simp [isSeparator, isSpace, hc]
  simp only [headerValue, Option.ite_none_right_eq_some, Option.some.injEq] at h
  obtain ⟨-, rfl⟩ := h
  ext s
  rw [mem_parseScopeList, mem_parseScopeList, Option.getD_some, Option.getD_some, String.toList_ofList,
    HeaderFields.words_trim hblank]

/-- Scopes put together with blanks are read back, the empty ones aside. -/
theorem mem_parseScopeList_join (h : ∀ scope ∈ scopes, ∀ c ∈ scope.toList, isSeparator c = false)
    (s : String) : s ∈ parseScopeList (some (" ".intercalate scopes)) ↔ s ∈ scopes ∧ s ≠ "" := by
  have hwords : ∀ w ∈ scopes.map String.toList, ∀ c ∈ w, isSeparator c = false := by
    intro w hw
    obtain ⟨scope, hscope, rfl⟩ := List.mem_map.1 hw
    exact h scope hscope
  rw [mem_parseScopeList, Option.getD_some, String.toList_intercalate,
    show " ".toList = [' '] from rfl, HeaderFields.words_intercalate (by decide) hwords, List.mem_filter,
    List.mem_map]
  constructor
  · rintro ⟨⟨t, ht, heq⟩, hne⟩
    rw [String.toList_inj.1 heq] at ht
    exact ⟨ht, by rintro rfl; simp at hne⟩
  · rintro ⟨hs, hne⟩
    exact ⟨⟨s, hs, rfl⟩, by simpa using hne⟩

end Scopes

/-- The characters `[A-Za-z0-9._:-]`. -/
def isPrincipalChar (c : Char) : Bool :=
  isAsciiLetter c || c.isDigit || ['.', '_', ':', '-'].contains c

/-- A text matching `PRINCIPAL_PATTERN`. -/
def isPrincipal (s : String) : Bool :=
  s.toList.all isPrincipalChar && decide (1 ≤ s.toList.length) && decide (s.toList.length ≤ 256)

/-- The header value that the credential of the bridge makes. -/
def bearer (token : String) : String :=
  "Bearer " ++ token

/-- `!configuredToken || authorizationHeader !== "Bearer " + configuredToken`, negated. -/
def isCredential (authorizationHeader configuredToken : Option String) : Bool :=
  match configuredToken with
  | none => false
  | some token => token != "" && authorizationHeader == some (bearer token)

def resolveResearchScopes (authorizationHeader forwardedScopesHeader configuredToken
    configuredScopes : Option String) : Finset String :=
  if !isCredential authorizationHeader configuredToken then ∅
  else match forwardedScopesHeader with
    | none => parseScopeList configuredScopes
    | some forwarded => (parseScopeList (some forwarded)).filter (· ∈ parseScopeList configuredScopes)

def resolveResearchPrincipal (authorizationHeader forwardedPrincipal configuredToken forwardablePrincipals
    staticPrincipal : Option String) : Option String :=
  if !isCredential authorizationHeader configuredToken then none
  else match forwardedPrincipal with
    | some principal =>
      if !isPrincipal principal then none
      else if parsePrincipalList forwardablePrincipals = ∅ then some principal
      else if principal ∈ parsePrincipalList forwardablePrincipals then some principal
      else none
    | none => staticPrincipal.filter fun p => p != "" && isPrincipal p

/-! ## Issuers -/

/-- What the worker reads of a `URL`. -/
structure Url where
  protocol : String
  pathname : String
  search : String
  hash : String
  origin : String
deriving DecidableEq

/-- The `length` of a text, in code units of 16 bits. -/
def utf16Length (s : String) : ℕ :=
  (s.toList.map fun c => if c.toNat ≤ 0xFFFF then 1 else 2).sum

/-- `normalizeIssuerOrigin`; `parse` is `new URL(value)`, or `none` where that throws. -/
def normalizeIssuerOrigin (parse : String → Option Url) (value : String) : Option String :=
  if utf16Length value > 512 then none
  else match parse value with
    | none => none
    | some issuer =>
      if issuer.protocol ≠ "https:" ∧ issuer.protocol ≠ "http:" then none
      else if issuer.pathname ≠ "/" ∨ issuer.search ≠ "" ∨ issuer.hash ≠ "" then none
      else some issuer.origin

def resolveResearchIssuer (parse : String → Option Url) (authorizationHeader forwardedIssuer configuredToken
    staticIssuer : Option String) : Option String :=
  if !isCredential authorizationHeader configuredToken then none
  else match forwardedIssuer with
    | some issuer => normalizeIssuerOrigin parse issuer
    | none => (staticIssuer.filter (· != "")).bind (normalizeIssuerOrigin parse)

/-! ## Without the credential, and with it -/

section Credential

variable {parse : String → Option Url} {authorization configured : Option String}

theorem isCredential_iff : isCredential authorization configured = true ↔
    ∃ secret, configured.filter (· != "") = some secret ∧ authorization = some (bearer secret) := by
  cases configured with
  | none => simp [isCredential]
  | some token =>
    simp only [isCredential, Bool.and_eq_true, bne_iff_ne, beq_iff_eq, Option.filter_eq_some_iff,
      Option.some.injEq]
    constructor
    · exact fun h => ⟨token, ⟨rfl, h.1⟩, h.2⟩
    · rintro ⟨secret, ⟨rfl, hne⟩, h⟩
      exact ⟨hne, h⟩

/-- No scope exceeds the configured ones. -/
theorem resolveResearchScopes_subset (authorization forwarded configured scopes : Option String) :
    resolveResearchScopes authorization forwarded configured scopes ⊆ parseScopeList scopes := by
  unfold resolveResearchScopes
  split_ifs with h
  · exact Finset.empty_subset _
  · cases forwarded with
    | none => exact subset_rfl
    | some f => exact fun s hs => (Finset.mem_filter.1 hs).2

end Credential

end QuantproCollector.ResearchScopes
