import QuantproCollector.Lib.JsonText
import QuantproCollector.Lib.Moment
import QuantproCollector.LiveUniverse.Validity
import QuantproCollector.Portfolio.Reducer

/-!
# Dynamic quotes

The identities of instruments, the rows that a provider's quotes become, and a batch of them: one row for
each requested identity, or none at all. What a quote says apart from its finite numbers, texts and
flags is a value that no check accepts, as a JSON value of another kind is.
-/

namespace QuantproCollector.LiveUniverse

open Portfolio (isRecord)
open Fallible (bind_eq_ok)

/-- What the rows take from the runtime: the arithmetic of numbers, `none` where a result is not
finite, and the reading of dates. -/
structure QuoteRuntime where
  /-- `left - right`. -/
  minus : Decimal → Decimal → Option Decimal
  /-- `(part / whole) * 100`. -/
  percent : Decimal → Decimal → Option Decimal
  /-- `Date.parse(text)`, or `none` where it is `NaN`. -/
  dateParse : String → Option ℤ

inductive SupportedExchange where
  | SH
  | SZ
  | HK
deriving DecidableEq

def SupportedExchange.text : SupportedExchange → String
  | .SH => "SH"
  | .SZ => "SZ"
  | .HK => "HK"

def SupportedExchange.lowerText : SupportedExchange → String
  | .SH => "sh"
  | .SZ => "sz"
  | .HK => "hk"

structure CanonicalIdentity where
  market : Market
  exchange : SupportedExchange
  code : String
deriving DecidableEq

inductive DynamicQuoteErrorCode where
  | INVALID_IDENTITY
  | UNSUPPORTED_EXCHANGE
  | PROVIDER_UNAVAILABLE
  | PARTIAL_PROVIDER_FAILURE
  | INVALID_PROVIDER_QUOTE
deriving DecidableEq

structure DynamicQuoteFailure where
  identity : Option CanonicalIdentity
  symbol : Option String
  code : DynamicQuoteErrorCode
  message : String
deriving DecidableEq

structure DynamicQuoteError where
  code : DynamicQuoteErrorCode
  message : String
  failures : List DynamicQuoteFailure
deriving DecidableEq

structure DynamicQuoteBatch where
  identities : List CanonicalIdentity
  symbols : List String
  rows : List Json
deriving DecidableEq

def identityFailure (code : DynamicQuoteErrorCode) (message : String)
    (identity : Option CanonicalIdentity) (symbol : Option String) : DynamicQuoteError :=
  ⟨code, message, [⟨identity, symbol, code, message⟩]⟩

def invalidIdentity (message : String) : DynamicQuoteError :=
  identityFailure .INVALID_IDENTITY message none none

/-! ## Identities -/

def trimText (text : String) : String :=
  String.ofList (Json.trimChars isSpace text.toList)

/-- `String.prototype.toUpperCase`, as far as one letter's result is a letter of ASCII: the long s and
the dotless i are the characters outside ASCII with such a result. -/
def toUpperCase (s : String) : String :=
  String.ofList (s.toList.map fun c =>
    if c.toNat = 0x17F then 'S' else if c.toNat = 0x131 then 'I' else c.toUpper)

def marketOf : String → Option Market
  | "CN" => some .CN
  | "HK" => some .HK
  | _ => none

def exchangeOf : String → Option SupportedExchange
  | "SH" => some .SH
  | "SZ" => some .SZ
  | "HK" => some .HK
  | _ => none

/-- `/^\d{n}$/`. -/
def isDigits (n : ℕ) (s : String) : Bool :=
  s.toList.all Char.isDigit && decide (s.toList.length = n)

/-- The identity of three texts. -/
def canonicalizeTexts (market exchange code : String) :
    Except DynamicQuoteError CanonicalIdentity :=
  if exchange = "BJ" then
    .error (identityFailure .UNSUPPORTED_EXCHANGE
      "BJ is not supported by the current QuoteStock contract" none none)
  else
    match marketOf market with
    | none => .error (invalidIdentity "market must be CN or HK")
    | some market =>
      match exchangeOf exchange with
      | none => .error (invalidIdentity "exchange must be SH, SZ, or HK")
      | some exchange =>
        if (market = .HK ∧ exchange ≠ .HK) ∨ (market = .CN ∧ exchange = .HK) then
          .error (invalidIdentity "market and exchange are inconsistent")
        else if market = .CN ∧ isDigits 6 code = false then
          .error (invalidIdentity "CN code must be a six-digit string")
        else if market = .HK ∧ isDigits 5 code = false then
          .error (invalidIdentity "HK code must be a five-digit string")
        else .ok ⟨market, exchange, code⟩

def canonicalizeIdentity (input : Json) : Except DynamicQuoteError CanonicalIdentity :=
  if !isRecord input then .error (invalidIdentity "identity must be an object")
  else
    match (input.get? "market").bind Json.str?, (input.get? "exchange").bind Json.str?,
        (input.get? "code").bind Json.str? with
    | some rawMarket, some rawExchange, some rawCode =>
      canonicalizeTexts (toUpperCase (trimText rawMarket)) (toUpperCase (trimText rawExchange))
        (trimText rawCode)
    | _, _, _ => .error (invalidIdentity "identity requires market, exchange, and code strings")

/-- The Tencent symbol of an identity, which is canonical already. -/
def resolveTencentSymbol (identity : CanonicalIdentity) : String :=
  identity.exchange.lowerText ++ identity.code

def CanonicalIdentity.key (identity : CanonicalIdentity) : String :=
  identity.market.text ++ ":" ++ identity.code

/-! ## Rows -/

def quoteFailure (code : DynamicQuoteErrorCode) (message : String)
    (identity : CanonicalIdentity) : DynamicQuoteError :=
  identityFailure code message (some identity) (some (resolveTencentSymbol identity))

def finiteField (quote : Json) (field : String) (identity : CanonicalIdentity) :
    Except DynamicQuoteError Decimal :=
  match quote.get? field with
  | some (.num x) => .ok x
  | _ => .error (quoteFailure .INVALID_PROVIDER_QUOTE
      s!"provider quote is missing numeric field {field}" identity)

def optionalFiniteField (quote : Json) (field : String) : Option Decimal :=
  match quote.get? field with
  | some (.num x) => some x
  | _ => none

def nonEmptyString (value : Option Json) (fallback : String) : String :=
  match value with
  | some (.str s) => if trimText s = "" then fallback else s
  | _ => fallback

/-- A text that is not blank. -/
def marketDataTimeOf (quote : Json) (identity : CanonicalIdentity) :
    Except DynamicQuoteError String :=
  match quote.get? "market_data_time" with
  | some (.str s) =>
    if trimText s = "" then
      .error (quoteFailure .INVALID_PROVIDER_QUOTE "provider quote is missing market_data_time" identity)
    else .ok s
  | _ =>
    .error (quoteFailure .INVALID_PROVIDER_QUOTE "provider quote is missing market_data_time" identity)

def marketStatusOf (quote : Json) (identity : CanonicalIdentity) :
    Except DynamicQuoteError String :=
  match quote.get? "market_status" with
  | none => .ok "CLOSED"
  | some (.str "OPEN") => .ok "OPEN"
  | some (.str "CLOSED") => .ok "CLOSED"
  | _ =>
    .error (quoteFailure .INVALID_PROVIDER_QUOTE "provider quote has an invalid market_status" identity)

def deriveAgeSeconds (R : QuoteRuntime) (marketDataTime fetchTime : String) : Decimal :=
  match R.dateParse marketDataTime, R.dateParse fetchTime with
  | some marketTimestamp, some fetchTimestamp =>
    .ofInt (max 0 ((fetchTimestamp - marketTimestamp) / 1000))
  | _, _ => .ofInt 0

/-- A number in a row; one that is not finite is not accepted anywhere, and is written as `null`. -/
def numberField : Option Decimal → Json
  | some x => .num x
  | none => .null

/-- What a normalized quote tells. -/
structure NormalizedQuote where
  name : String
  price : Decimal
  change : Option Decimal
  changePct : Option Decimal
  preClose : Decimal
  previousClose : Decimal
  opening : Decimal
  high : Decimal
  low : Decimal
  pctChange : Option Decimal
  volume : Decimal
  amount : Decimal
  marketStatus : String
  marketDataTime : String
  sourceUpdateTime : String
  quoteTime : String
  fetchTime : String
  ageSeconds : Decimal

/-- The row of a holding that was not in the snapshot. -/
def quoteRow (identity : CanonicalIdentity) (q : NormalizedQuote) : Json :=
  .obj [("code", .str identity.code), ("market", .str identity.market.text),
    ("exchange", .str identity.exchange.text), ("name", .str q.name), ("group", .str "Watch"),
    ("portfolio_group", .str "watch"), ("portfolio_status", .str "WATCH"),
    ("holding_status", .str "ACTIVE"), ("mapping_only", .bool false), ("mapped_to", .null),
    ("mapping_to", .null), ("position_qty", .null), ("is_position", .bool true),
    ("price", .num q.price), ("change", numberField q.change),
    ("change_pct", numberField q.changePct), ("pre_close", .num q.preClose),
    ("prev_close", .num q.previousClose), ("open", .num q.opening), ("high", .num q.high),
    ("low", .num q.low), ("pct_change", numberField q.pctChange), ("volume", .num q.volume),
    ("amount", .num q.amount), ("market_status", .str q.marketStatus),
    ("market_data_time", .str q.marketDataTime), ("source_update_time", .str q.sourceUpdateTime),
    ("freshness_basis", .str "MARKET_DATA"), ("quote_time", .str q.quoteTime),
    ("fetch_time", .str q.fetchTime), ("age_seconds", .num q.ageSeconds),
    ("primary_source", .str "tencent"), ("secondary_source", .null), ("source_status", .str "OK"),
    ("quality", .str "LIVE_QUOTE")]

def readQuote (R : QuoteRuntime) (now : Calendar.Moment) (identity : CanonicalIdentity)
    (quote : Json) : Except DynamicQuoteError NormalizedQuote := do
  let price ← finiteField quote "price" identity
  let preClose ← finiteField quote "pre_close" identity
  let change := (optionalFiniteField quote "change").or (R.minus price preClose)
  let changePct := (optionalFiniteField quote "change_pct").or
    (if preClose = .ofInt 0 then some (.ofInt 0) else change.bind (R.percent · preClose))
  let opening ← finiteField quote "open" identity
  let high ← finiteField quote "high" identity
  let low ← finiteField quote "low" identity
  let volume ← finiteField quote "volume" identity
  let amount ← finiteField quote "amount" identity
  let marketDataTime ← marketDataTimeOf quote identity
  let fetchTime := nonEmptyString (quote.get? "fetch_time") now.toISOString
  let marketStatus ← marketStatusOf quote identity
  return {
    name := nonEmptyString (quote.get? "name") (identity.exchange.text ++ identity.code)
    price := price
    change := change
    changePct := changePct
    preClose := preClose
    previousClose := (optionalFiniteField quote "prev_close").getD preClose
    opening := opening
    high := high
    low := low
    pctChange := (optionalFiniteField quote "pct_change").or changePct
    volume := volume
    amount := amount
    marketStatus := marketStatus
    marketDataTime := marketDataTime
    sourceUpdateTime := nonEmptyString (quote.get? "source_update_time") marketDataTime
    quoteTime := nonEmptyString (quote.get? "quote_time") marketDataTime
    fetchTime := fetchTime
    ageSeconds := (optionalFiniteField quote "age_seconds").getD
      (deriveAgeSeconds R marketDataTime fetchTime) }

def normalizeProviderQuote (R : QuoteRuntime) (now : Calendar.Moment)
    (identity : CanonicalIdentity) (value : Option Json) : Except DynamicQuoteError Json :=
  match value with
  | none | some .null =>
    .error (quoteFailure .PROVIDER_UNAVAILABLE "Tencent quote provider returned no quote" identity)
  | some (.obj fields) => quoteRow identity <$> readQuote R now identity (.obj fields)
  | some _ =>
    .error (quoteFailure .INVALID_PROVIDER_QUOTE
      "Tencent quote provider returned a non-object quote" identity)

/-! ## Batches -/

/-- The identities of the inputs and the failures of those that have none or come again. -/
def requestIdentities : List CanonicalIdentity → List DynamicQuoteFailure → List Json →
    List CanonicalIdentity × List DynamicQuoteFailure
  | identities, failures, [] => (identities, failures)
  | identities, failures, input :: rest =>
    match canonicalizeIdentity input with
    | .error e =>
      requestIdentities identities (failures ++ (if e.failures = [] then
        [⟨none, none, .INVALID_IDENTITY, "invalid active identity"⟩] else e.failures)) rest
    | .ok identity =>
      if identity.key ∈ identities.map CanonicalIdentity.key then
        requestIdentities identities (failures ++ [⟨some identity,
          some (resolveTencentSymbol identity), .INVALID_IDENTITY, "duplicate active identity"⟩]) rest
      else requestIdentities (identities ++ [identity]) failures rest

/-- What a provider's call comes to; a rejection carries the first failure of a `DynamicQuoteError`. -/
inductive ProviderOutcome where
  | rejected (failure : Option DynamicQuoteFailure)
  | fulfilled (value : Option Json)

abbrev QuoteProvider := String → CanonicalIdentity → ProviderOutcome

def asFailure (failure : Option DynamicQuoteFailure) (identity : CanonicalIdentity) :
    DynamicQuoteFailure :=
  failure.getD ⟨some identity, some (resolveTencentSymbol identity), .PROVIDER_UNAVAILABLE,
    "Tencent quote provider request failed"⟩

/-- The row of an identity, or its failure. -/
def settledRow (R : QuoteRuntime) (now : Calendar.Moment) (fetchQuote : QuoteProvider)
    (identity : CanonicalIdentity) : Except DynamicQuoteFailure Json :=
  match fetchQuote (resolveTencentSymbol identity) identity with
  | .rejected failure => .error (asFailure failure identity)
  | .fulfilled value =>
    match normalizeProviderQuote R now identity value with
    | .ok row => .ok row
    | .error e => .error (asFailure e.failures.head? identity)

/-- The rows and the failures of the identities. -/
def settle (R : QuoteRuntime) (now : Calendar.Moment) (fetchQuote : QuoteProvider) :
    List CanonicalIdentity → List Json × List DynamicQuoteFailure
  | [] => ([], [])
  | identity :: rest =>
    match settledRow R now fetchQuote identity with
    | .ok row => (row :: (settle R now fetchQuote rest).1, (settle R now fetchQuote rest).2)
    | .error failure =>
      ((settle R now fetchQuote rest).1, failure :: (settle R now fetchQuote rest).2)

def allUnavailable (failures : List DynamicQuoteFailure) : Bool :=
  failures.all fun failure => decide (failure.code = .PROVIDER_UNAVAILABLE)

def batchErrorCode (failures : List DynamicQuoteFailure) (total : ℕ) : DynamicQuoteErrorCode :=
  if failures.length < total then .PARTIAL_PROVIDER_FAILURE
  else if allUnavailable failures then .PROVIDER_UNAVAILABLE
  else (failures.head?.map (·.code)).getD .PROVIDER_UNAVAILABLE

def fetchDynamicQuoteRows (R : QuoteRuntime) (now : Calendar.Moment)
    (fetchQuote : Option QuoteProvider) (inputs : List Json) :
    Except DynamicQuoteError DynamicQuoteBatch :=
  let requested := requestIdentities [] [] inputs
  let identities := requested.1
  if requested.2 ≠ [] then
    .error ⟨.INVALID_IDENTITY, "active universe contains invalid identities", requested.2⟩
  else if identities = [] then .ok ⟨[], [], []⟩
  else
    let symbols := identities.map resolveTencentSymbol
    match fetchQuote with
    | none =>
      .error ⟨.PROVIDER_UNAVAILABLE, "Tencent quote provider is unavailable",
        identities.map fun identity => ⟨some identity, some (resolveTencentSymbol identity),
          .PROVIDER_UNAVAILABLE, "Tencent quote provider is unavailable"⟩⟩
    | some fetchQuote =>
      let settled := settle R now fetchQuote identities
      if settled.2 ≠ [] then
        .error ⟨batchErrorCode settled.2 identities.length,
          if settled.2.length = identities.length ∧ allUnavailable settled.2 = true then
            "Tencent quote provider is unavailable"
          else "Tencent quote provider failed for one or more active identities", settled.2⟩
      else .ok ⟨identities, symbols, settled.1⟩

/-! ## What an identity is -/

/-- Market, exchange and code fit together. -/
structure CanonicalIdentity.Valid (identity : CanonicalIdentity) : Prop where
  consistent : identity.market = .HK ↔ identity.exchange = .HK
  cnCode : identity.market = .CN → isDigits 6 identity.code = true
  hkCode : identity.market = .HK → isDigits 5 identity.code = true

theorem canonicalizeTexts_ok {market exchange code : String} {identity : CanonicalIdentity} :
    canonicalizeTexts market exchange code = .ok identity ↔
      marketOf market = some identity.market ∧ exchangeOf exchange = some identity.exchange ∧
        code = identity.code ∧ identity.Valid := by
  unfold canonicalizeTexts
  split_ifs with hbj
  · subst hbj
    exact iff_of_false nofun fun h => by cases h.2.1
  · cases hmarket : marketOf market with
    | none => exact iff_of_false nofun fun h => by cases h.1
    | some m =>
      cases hexchange : exchangeOf exchange with
      | none => exact iff_of_false nofun fun h => by cases h.2.1
      | some e =>
        dsimp only
        have hparts : ∀ {p : Prop}, ((some m = some identity.market ∧
            some e = some identity.exchange ∧ code = identity.code ∧ p) ↔
            (⟨m, e, code⟩ : CanonicalIdentity) = identity ∧ p) := by
          intro p
          constructor
          · rintro ⟨hm, he, hcode, hp⟩
            rw [Option.some.inj hm, Option.some.inj he, hcode]
            exact ⟨rfl, hp⟩
          · rintro ⟨rfl, hp⟩
            exact ⟨rfl, rfl, rfl, hp⟩
        rw [hparts]
        split_ifs with hinconsistent hcn hhk
        · refine iff_of_false nofun ?_
          rintro ⟨rfl, hvalid⟩
          have hiff := hvalid.consistent
          rcases hinconsistent with ⟨rfl, he⟩ | ⟨rfl, rfl⟩
          · exact he (hiff.1 rfl)
          · cases hiff.2 rfl
        · refine iff_of_false nofun ?_
          rintro ⟨rfl, hvalid⟩
          exact absurd (hvalid.cnCode hcn.1) (by rw [hcn.2]; decide)
        · refine iff_of_false nofun ?_
          rintro ⟨rfl, hvalid⟩
          exact absurd (hvalid.hkCode hhk.1) (by rw [hhk.2]; decide)
        · refine ⟨fun h => ?_, fun h => congrArg Except.ok h.1⟩
          obtain rfl := Except.ok.inj h
          refine ⟨rfl, ?_, fun hm => ?_, fun hm => ?_⟩
          · constructor
            · intro hm
              by_contra he
              exact hinconsistent (.inl ⟨hm, he⟩)
            · intro he
              cases m with
              | HK => rfl
              | CN => exact absurd (.inr ⟨rfl, he⟩) hinconsistent
          · exact Bool.not_eq_false _ ▸ fun hcode => hcn ⟨hm, hcode⟩
          · exact Bool.not_eq_false _ ▸ fun hcode => hhk ⟨hm, hcode⟩

theorem valid_of_canonicalize {input : Json} {identity : CanonicalIdentity}
    (h : canonicalizeIdentity input = .ok identity) : identity.Valid := by
  unfold canonicalizeIdentity at h
  split_ifs at h
  split at h
  · exact (canonicalizeTexts_ok.1 h).2.2.2
  · cases h

theorem CanonicalIdentity.Valid.code_ne {identity : CanonicalIdentity} (h : identity.Valid) :
    identity.code ≠ "" := by
  intro hempty
  have hnone : ∀ n, isDigits (n + 1) "" = false := fun n => rfl
  cases hmarket : identity.market with
  | CN =>
    have hcode := h.cnCode hmarket
    rw [hempty, hnone] at hcode
    cases hcode
  | HK =>
    have hcode := h.hkCode hmarket
    rw [hempty, hnone] at hcode
    cases hcode

/-! ## What a row is -/

/-- The texts of a quote that was read, and its percentages. -/
structure NormalizedQuote.Valid (q : NormalizedQuote) : Prop where
  name : q.name ≠ ""
  fetchTime : q.fetchTime ≠ ""
  marketStatus : q.marketStatus = "OPEN" ∨ q.marketStatus = "CLOSED"
  pctChange : q.pctChange = none → q.changePct = none

theorem nonEmptyString_ne (value : Option Json) {fallback : String} (h : fallback ≠ "") :
    nonEmptyString value fallback ≠ "" := by
  unfold nonEmptyString
  split
  · split_ifs with hblank
    · exact h
    · rintro rfl
      exact hblank rfl
  · exact h

theorem toISOString_ne (now : Calendar.Moment) : now.toISOString ≠ "" := by
  intro hempty
  have hchars : now.toISOChars = [] := by
    have hlist := congrArg String.toList hempty
    rwa [Calendar.Moment.toISOString, String.toList_ofList] at hlist
  unfold Calendar.Moment.toISOChars at hchars
  split_ifs at hchars
  exact absurd (List.append_eq_nil_iff.1 hchars).2 (List.cons_ne_nil _ _)

theorem marketStatusOf_ok {quote : Json} {identity : CanonicalIdentity} {status : String}
    (h : marketStatusOf quote identity = .ok status) : status = "OPEN" ∨ status = "CLOSED" := by
  unfold marketStatusOf at h
  split at h
  · exact .inr (Except.ok.inj h).symm
  · exact .inl (Except.ok.inj h).symm
  · exact .inr (Except.ok.inj h).symm
  · cases h

theorem readQuote_valid {R : QuoteRuntime} {now : Calendar.Moment} {identity : CanonicalIdentity}
    {quote : Json} {q : NormalizedQuote} (h : readQuote R now identity quote = .ok q) : q.Valid := by
  simp only [readQuote, bind_eq_ok] at h
  obtain ⟨price, -, preClose, -, opening, -, high, -, low, -, volume, -, amount, -, marketDataTime, -,
    marketStatus, hstatus, hq⟩ := h
  obtain rfl := Except.ok.inj hq
  refine ⟨nonEmptyString_ne _ ?_, nonEmptyString_ne _ (toISOString_ne now), marketStatusOf_ok hstatus,
    fun hnone => (Option.or_eq_none_iff.1 hnone).2⟩
  cases identity.exchange <;> simp [SupportedExchange.text]

/-- What is settled is the row of a quote that was read. -/
theorem settledRow_ok {R : QuoteRuntime} {now : Calendar.Moment} {fetchQuote : QuoteProvider}
    {identity : CanonicalIdentity} {row : Json} :
    settledRow R now fetchQuote identity = .ok row ↔
      ∃ value, fetchQuote (resolveTencentSymbol identity) identity = .fulfilled value ∧
        normalizeProviderQuote R now identity value = .ok row := by
  unfold settledRow
  cases houtcome : fetchQuote (resolveTencentSymbol identity) identity with
  | rejected failure => simp
  | fulfilled value =>
    cases hrow : normalizeProviderQuote R now identity value with
    | error e => simp [hrow]
    | ok r => simp [hrow]

theorem normalize_ok {R : QuoteRuntime} {now : Calendar.Moment} {identity : CanonicalIdentity}
    {value : Option Json} {row : Json} (h : normalizeProviderQuote R now identity value = .ok row) :
    ∃ q : NormalizedQuote, q.Valid ∧ row = quoteRow identity q := by
  unfold normalizeProviderQuote at h
  split at h
  · cases h
  · cases h
  · rename_i fields
    cases hread : readQuote R now identity (.obj fields) with
    | error e =>
      rw [hread] at h
      cases h
    | ok q =>
      rw [hread] at h
      exact ⟨q, readQuote_valid hread, (Except.ok.inj h).symm⟩
  · cases h

/-- The numbers of a row that the provider need not give are finite. -/
def FiniteChange (row : Json) : Prop :=
  isFiniteNumber (row.get? "change") = true ∧ isFiniteNumber (row.get? "change_pct") = true

theorem numberField_finite {x : Option Decimal} (h : isFiniteNumber (some (numberField x)) = true) :
    ∃ y, x = some y := by
  cases x with
  | none => cases h
  | some y => exact ⟨y, rfl⟩

theorem isSome_of_mem_keys {row : Json} {key : String} (h : key ∈ row.keys) :
    (row.get? key).isSome = true := by
  cases row with
  | obj fields =>
    have hany := Json.lookup_isSome_iff fields key
    obtain ⟨f, hf, rfl⟩ := List.mem_map.1 h
    exact hany.trans (List.any_eq_true.2 ⟨f, hf, beq_self_eq_true _⟩)
  | _ => cases h

theorem classified_quoteRow {identity : CanonicalIdentity} (hidentity : identity.Valid)
    (q : NormalizedQuote) : Classified (quoteRow identity q) := by
  obtain ⟨market, exchange, code⟩ := identity
  have hiff := hidentity.consistent
  dsimp only at hiff
  refine ⟨?_, ?_, ?_, rfl, rfl, rfl, rfl, rfl, rfl, rfl, rfl, rfl, rfl, rfl⟩
  · cases market <;> rfl
  · cases exchange <;> rfl
  · cases market <;> cases exchange <;>
      first | rfl | exact absurd (hiff.1 rfl) (by decide) | exact absurd (hiff.2 rfl) (by decide)

/-- The row of a valid quote of a valid identity is accepted. -/
theorem row_quoteRow {identity : CanonicalIdentity} (hidentity : identity.Valid) {q : NormalizedQuote}
    (hq : q.Valid) (hfinite : FiniteChange (quoteRow identity q)) : Row (quoteRow identity q) := by
  obtain ⟨change, hchange⟩ := numberField_finite hfinite.1
  obtain ⟨changePct, hchangePct⟩ := numberField_finite hfinite.2
  obtain ⟨pctChange, hpctChange⟩ : ∃ y, q.pctChange = some y := by
    refine Option.ne_none_iff_exists'.1 fun hnone => ?_
    rw [hq.pctChange hnone] at hchangePct
    cases hchangePct
  have hkeys : (quoteRow identity q).keys = REQUIRED_STOCK_FIELDS.take 13 ++
      ["price", "change", "change_pct", "pre_close", "prev_close", "open", "high", "low",
        "pct_change", "volume", "amount", "market_status", "market_data_time", "source_update_time",
        "freshness_basis", "quote_time", "fetch_time", "age_seconds", "primary_source",
        "secondary_source", "source_status", "quality"] := rfl
  have hsome : ∀ field ∈ REQUIRED_STOCK_FIELDS, ((quoteRow identity q).get? field).isSome = true :=
    fun field hfield => isSome_of_mem_keys (hkeys ▸ hfield)
  refine ⟨⟨rfl, fun field hfield => hsome field (List.mem_append_left _ hfield), ?_, ?_,
    classified_quoteRow hidentity q, holdingRules_held.2 ?_⟩, hsome, ?_, ?_⟩
  · exact decide_eq_true hidentity.code_ne
  · exact decide_eq_true hq.name
  · exact fun h => absurd (Json.str.inj (Option.some.inj h)) (by decide)
  · have hnumbers : ∀ field ∈ NUMERIC_FIELDS,
        isFiniteNumber ((quoteRow identity q).get? field) = true := by
      unfold quoteRow
      rw [hchange, hchangePct, hpctChange]
      intro field hfield
      simp only [NUMERIC_FIELDS, List.mem_cons, List.not_mem_nil, or_false] at hfield
      rcases hfield with rfl | rfl | rfl | rfl | rfl | rfl | rfl | rfl | rfl | rfl | rfl | rfl <;> rfl
    exact fun field hfield => .inl (hnumbers field hfield)
  · have hstatus : (quoteRow identity q).get? "market_status" = some (.str q.marketStatus) := rfl
    refine ⟨fun field hfield => ?_, ?_, fun field hfield => ?_, decide_eq_true hq.fetchTime,
      fun field hfield => ?_⟩
    · simp only [List.mem_cons, List.not_mem_nil, or_false] at hfield
      rcases hfield with rfl | rfl | rfl | rfl
      · rw [hstatus]
        rcases hq.marketStatus with h | h <;> rw [h] <;> rfl
      · rfl
      · rfl
      · rfl
    · rw [hstatus]
      rcases hq.marketStatus with h | h <;> rw [h] <;> rfl
    · simp only [List.mem_cons, List.not_mem_nil, or_false] at hfield
      rcases hfield with rfl | rfl | rfl <;> rfl
    · simp only [List.mem_cons, List.not_mem_nil, or_false] at hfield
      rcases hfield with rfl | rfl <;> rfl

/-! ## What a batch is -/

/-- Failures are never taken back. -/
theorem requestIdentities_failures {identities : List CanonicalIdentity}
    {failures : List DynamicQuoteFailure} {inputs : List Json}
    (h : (requestIdentities identities failures inputs).2 = []) : failures = [] := by
  induction inputs generalizing identities failures with
  | nil => exact h
  | cons input rest ih =>
    unfold requestIdentities at h
    split at h
    · exact (List.append_eq_nil_iff.1 (ih h)).1
    · split_ifs at h
      · exact (List.append_eq_nil_iff.1 (ih h)).1
      · exact ih h

/-- Without failures the identities are those of the inputs, with distinct keys. -/
theorem requestIdentities_ok {identities : List CanonicalIdentity}
    {failures : List DynamicQuoteFailure} {inputs : List Json}
    (hnodup : (identities.map CanonicalIdentity.key).Nodup)
    (h : (requestIdentities identities failures inputs).2 = []) :
    ∃ requested : List CanonicalIdentity,
      inputs.map canonicalizeIdentity = requested.map .ok ∧
        (requestIdentities identities failures inputs).1 = identities ++ requested ∧
        ((identities ++ requested).map CanonicalIdentity.key).Nodup := by
  induction inputs generalizing identities failures with
  | nil => exact ⟨[], rfl, (List.append_nil _).symm, by rwa [List.append_nil]⟩
  | cons input rest ih =>
    unfold requestIdentities at h ⊢
    cases hinput : canonicalizeIdentity input with
    | error e =>
      rw [hinput] at h
      have hgrown := (List.append_eq_nil_iff.1 (requestIdentities_failures h)).2
      split_ifs at hgrown with hnone
      exact absurd hgrown hnone
    | ok identity =>
      rw [hinput] at h
      dsimp only at h ⊢
      split_ifs at h ⊢ with hseen
      · have hgrown := (List.append_eq_nil_iff.1 (requestIdentities_failures h)).2
        cases hgrown
      · have hnext : ((identities ++ [identity]).map CanonicalIdentity.key).Nodup := by
          rw [List.map_append]
          exact List.Nodup.append hnodup (List.nodup_singleton _) (List.disjoint_singleton.2 hseen)
        obtain ⟨requested, hmap, hids, hkeys⟩ := ih hnext h
        refine ⟨identity :: requested, ?_, ?_, ?_⟩
        · rw [List.map_cons, hinput, hmap, List.map_cons]
        · rw [hids, List.append_assoc, List.singleton_append]
        · rwa [List.append_assoc, List.singleton_append] at hkeys

theorem requestIdentities_of_ok {identities requested : List CanonicalIdentity}
    {failures : List DynamicQuoteFailure} {inputs : List Json}
    (hinputs : inputs.map canonicalizeIdentity = requested.map .ok)
    (hnodup : ((identities ++ requested).map CanonicalIdentity.key).Nodup) :
    requestIdentities identities failures inputs = (identities ++ requested, failures) := by
  induction inputs generalizing identities requested with
  | nil =>
    obtain rfl := List.map_eq_nil_iff.1 hinputs.symm
    rw [List.append_nil]
    rfl
  | cons input rest ih =>
    cases requested with
    | nil => cases hinputs
    | cons identity requested =>
      rw [List.map_cons, List.map_cons, List.cons.injEq] at hinputs
      have hfresh : identity.key ∉ identities.map CanonicalIdentity.key := by
        rw [List.map_append, List.map_cons] at hnodup
        exact fun hmem => (List.disjoint_of_nodup_append hnodup) hmem List.mem_cons_self
      unfold requestIdentities
      rw [hinputs.1]
      dsimp only
      rw [if_neg hfresh]
      have hgrown : (((identities ++ [identity]) ++ requested).map CanonicalIdentity.key).Nodup := by
        rwa [List.append_assoc, List.singleton_append]
      rw [ih hinputs.2 hgrown, List.append_assoc, List.singleton_append]

/-- Without failures there is a row for each identity. -/
theorem settle_ok {R : QuoteRuntime} {now : Calendar.Moment} {fetchQuote : QuoteProvider}
    {identities : List CanonicalIdentity} {rows : List Json} :
    settle R now fetchQuote identities = (rows, []) ↔
      List.Forall₂ (fun identity row => settledRow R now fetchQuote identity = .ok row)
        identities rows := by
  induction identities generalizing rows with
  | nil =>
    constructor
    · intro h
      obtain rfl : [] = rows := (Prod.mk.inj h).1
      exact .nil
    · rintro ⟨⟩
      rfl
  | cons identity rest ih =>
    unfold settle
    cases hrow : settledRow R now fetchQuote identity with
    | error failure =>
      refine iff_of_false (fun h => by cases (Prod.mk.inj h).2) ?_
      rintro (_ | ⟨hhead, -⟩)
      rw [hrow] at hhead
      cases hhead
    | ok row =>
      dsimp only
      constructor
      · intro h
        obtain ⟨hrows, hfailures⟩ := Prod.mk.inj h
        subst hrows
        exact .cons hrow (ih.1 (Prod.ext rfl hfailures))
      · rintro (_ | ⟨hhead, htail⟩)
        obtain rfl := Except.ok.inj (hrow.symm.trans hhead)
        rw [ih.2 htail]

/-- A batch: the identities of the inputs, each with the row of its quote. -/
theorem fetch_ok {R : QuoteRuntime} {now : Calendar.Moment} {fetchQuote : Option QuoteProvider}
    {inputs : List Json} {batch : DynamicQuoteBatch}
    (h : fetchDynamicQuoteRows R now fetchQuote inputs = .ok batch) :
    inputs.map canonicalizeIdentity = batch.identities.map .ok ∧
      (batch.identities.map CanonicalIdentity.key).Nodup ∧
      List.Forall₂ (fun identity row => ∃ q : NormalizedQuote, q.Valid ∧ row = quoteRow identity q)
        batch.identities batch.rows := by
  have hstart : (([] : List CanonicalIdentity).map CanonicalIdentity.key).Nodup := List.nodup_nil
  unfold fetchDynamicQuoteRows at h
  dsimp only at h
  split_ifs at h with hfailures hempty
  · obtain rfl := Except.ok.inj h
    obtain ⟨requested, hmap, hids, hkeys⟩ := requestIdentities_ok hstart (not_not.1 hfailures)
    rw [hids, List.nil_append] at hempty
    subst hempty
    exact ⟨hmap, hkeys, .nil⟩
  · obtain ⟨requested, hmap, hids, hkeys⟩ := requestIdentities_ok hstart (not_not.1 hfailures)
    rw [List.nil_append] at hids hkeys
    rw [hids] at h
    cases fetchQuote with
    | none => cases h
    | some fetchQuote =>
      dsimp only at h
      split_ifs at h with hsettled
      obtain rfl := Except.ok.inj h
      refine ⟨hmap, hkeys, ?_⟩
      have hrows := settle_ok.1 (Prod.ext rfl (not_not.1 hsettled) :
        settle R now fetchQuote requested = ((settle R now fetchQuote requested).1, []))
      refine hrows.imp fun identity row hrow => ?_
      obtain ⟨value, -, hnormal⟩ := settledRow_ok.1 hrow
      exact normalize_ok hnormal

/-- Quotes that can be read make a batch. -/
theorem fetch_of_settled {R : QuoteRuntime} {now : Calendar.Moment} {fetchQuote : QuoteProvider}
    {inputs rows : List Json} {identities : List CanonicalIdentity}
    (hinputs : inputs.map canonicalizeIdentity = identities.map .ok)
    (hkeys : (identities.map CanonicalIdentity.key).Nodup)
    (hrows : List.Forall₂ (fun identity row => settledRow R now fetchQuote identity = .ok row)
      identities rows) :
    fetchDynamicQuoteRows R now (some fetchQuote) inputs =
      .ok ⟨identities, identities.map resolveTencentSymbol, rows⟩ := by
  have hrequested : requestIdentities [] [] inputs = ([] ++ identities, []) :=
    requestIdentities_of_ok hinputs hkeys
  unfold fetchDynamicQuoteRows
  rw [hrequested, List.nil_append]
  dsimp only
  rw [if_neg (fun h => h rfl), settle_ok.2 hrows]
  split_ifs with hempty hfailed
  · subst hempty
    obtain rfl := List.forall₂_nil_left_iff.1 hrows
    rfl
  · exact absurd rfl hfailed
  · rfl

end QuantproCollector.LiveUniverse
