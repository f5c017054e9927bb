import QuantproCollector.Lib.Assignments
import QuantproCollector.LiveUniverse.QuoteCatalog

/-!
# The Tencent quotes

The provider behind a batch of quotes: one request for each symbol, answered by lines such as
`v_sh600000="1~name~600000~…";`, whose record has the fields of the quote between tildes.

The runtime is a parameter: the reading of numbers, and the calendar of Shanghai. So is the service, which
answers each request in any way.

* `tencent_batch`: a batch is there exactly when the answer to each symbol's own request assigns that symbol
  a record of its own code, and its rows tell what these records tell.
* `tencent_table`: where the answers are lines of a table, the rows are those of the first record that the
  table has for each symbol, whatever else it has.
-/

namespace QuantproCollector.LiveUniverse

open Portfolio (isRecord)
open Fallible (bind_eq_ok)
open Assignments (exec Assigns LineStart Letters Entry tableText)

/-- The parts of a moment in Shanghai; what is numeric there has two digits, and four in the year. -/
structure DateParts where
  year : String
  month : String
  day : String
  weekday : String
  hour : ℕ
  minute : ℕ

/-- What the provider takes from the runtime. -/
structure TencentRuntime extends QuoteRuntime where
  /-- `Number(text)`, or `none` where it is not finite. -/
  number : String → Option Decimal
  /-- `formatToParts` for `Asia/Shanghai`. -/
  formatToParts : Calendar.Moment → DateParts

/-! ## Symbols -/

/-- `/^(sh|sz|hk)(\d{5,6})$/`, with the exchange in capitals. -/
def symbolMatch (symbol : String) : Option (SupportedExchange × String) :=
  let code := String.ofList (symbol.toList.drop 2)
  if isDigits 5 code || isDigits 6 code then
    ([.SH, .SZ, .HK].find? fun exchange : SupportedExchange =>
      decide (symbol.toList.take 2 = exchange.lowerText.toList)).map fun exchange => (exchange, code)
  else none

def identityFromTencentSymbol (symbol : String) : Except DynamicQuoteError CanonicalIdentity :=
  match symbolMatch (toLowerCase (trimText symbol)) with
  | none =>
    .error (identityFailure .INVALID_IDENTITY "Tencent symbol is not a supported SH/SZ/HK symbol" none none)
  | some (exchange, code) =>
    canonicalizeIdentity (.obj [("market", .str (if exchange = .HK then "HK" else "CN")),
      ("exchange", .str exchange.text), ("code", .str code)])

/-! ## Times -/

/-- The text has a digit where the pattern has `d`, and the signs of the pattern elsewhere. -/
def hasForm (pattern text : List Char) : Bool :=
  decide (pattern.length = text.length) &&
    (pattern.zip text).all fun (p, c) => if p = 'd' then c.isDigit else decide (p = c)

def slice (text : List Char) (start stop : ℕ) : List Char :=
  (text.take stop).drop start

/-- `YYYYMMDDHHmmss` or `YYYY/MM/DD HH:mm:ss`, as a time of Shanghai. -/
def tencentTimeToIso (value : String) : Option String :=
  let compact := (trimText value).toList
  if hasForm "dddddddddddddd".toList compact then
    some (String.ofList (slice compact 0 4 ++ '-' :: (slice compact 4 6 ++ '-' :: (slice compact 6 8 ++
      'T' :: (slice compact 8 10 ++ ':' :: (slice compact 10 12 ++ ':' :: (slice compact 12 14 ++
        "+08:00".toList)))))))
  else if hasForm "dddd/dd/dd dd:dd:dd".toList compact then
    some (String.ofList (slice compact 0 4 ++ '-' :: (slice compact 5 7 ++ '-' :: (slice compact 8 10 ++
      'T' :: (slice compact 11 19 ++ "+08:00".toList)))))
  else none

structure ShanghaiClock where
  day : String
  weekday : ℕ
  minutes : ℕ

def weekdayNumber : String → ℕ
  | "Mon" => 1
  | "Tue" => 2
  | "Wed" => 3
  | "Thu" => 4
  | "Fri" => 5
  | "Sat" => 6
  | "Sun" => 7
  | _ => 0

variable (T : TencentRuntime)

def shanghaiClock (now : Calendar.Moment) : ShanghaiClock :=
  let parts := T.formatToParts now
  ⟨parts.year ++ "-" ++ parts.month ++ "-" ++ parts.day, weekdayNumber parts.weekday,
    parts.hour * 60 + parts.minute⟩

/-- The minutes of the day at which a session starts and ends. -/
def sessions : Market → List (ℕ × ℕ)
  | .HK => [(9 * 60 + 30, 12 * 60), (13 * 60, 16 * 60)]
  | .CN => [(9 * 60 + 30, 11 * 60 + 30), (13 * 60, 15 * 60)]

def inferMarketStatus (identity : CanonicalIdentity) (quoteTime : String) (now : Calendar.Moment) :
    String :=
  let clock := shanghaiClock T now
  if clock.weekday < 1 ∨ 5 < clock.weekday ∨ quoteTime.toList.take 10 ≠ clock.day.toList then "CLOSED"
  else if (sessions identity.market).any fun session =>
      decide (session.1 ≤ clock.minutes) && decide (clock.minutes ≤ session.2) then "OPEN"
  else "CLOSED"

/-! ## Records -/

/-- What reading throws: a failure of the quote, or an error of another kind. -/
abbrev Thrown := Option DynamicQuoteError

def invalidQuote (message : String) (identity : CanonicalIdentity) : Thrown :=
  some (quoteFailure .INVALID_PROVIDER_QUOTE message identity)

/-- A field that is not there has no `trim`. -/
def providerNumber (value : Option String) (field : String) (identity : CanonicalIdentity) :
    Except Thrown Decimal :=
  match value with
  | none => .error none
  | some value =>
    match T.number value with
    | none => .error (invalidQuote s!"Tencent quote has an invalid {field}" identity)
    | some parsed =>
      if trimText value = "" then
        .error (invalidQuote s!"Tencent quote has an invalid {field}" identity)
      else .ok parsed

def quoteTimeOf (value : Option String) (identity : CanonicalIdentity) : Except Thrown String :=
  match value.bind tencentTimeToIso with
  | none => .error (invalidQuote "Tencent quote has an invalid quote time" identity)
  | some quoteTime => .ok quoteTime

/-- A quote of Tencent, without the fields that repeat another. -/
structure ProviderQuote where
  name : String
  price : Decimal
  change : Decimal
  changePct : Decimal
  preClose : Decimal
  opening : Decimal
  high : Decimal
  low : Decimal
  volume : Decimal
  amount : Decimal
  marketStatus : String
  quoteTime : String
  fetchTime : String

def ProviderQuote.json (q : ProviderQuote) : Json :=
  .obj [("name", .str q.name), ("price", .num q.price), ("change", .num q.change),
    ("change_pct", .num q.changePct), ("pre_close", .num q.preClose), ("prev_close", .num q.preClose),
    ("open", .num q.opening), ("high", .num q.high), ("low", .num q.low),
    ("pct_change", .num q.changePct), ("volume", .num q.volume), ("amount", .num q.amount),
    ("market_status", .str q.marketStatus), ("market_data_time", .str q.quoteTime),
    ("source_update_time", .str q.quoteTime), ("quote_time", .str q.quoteTime),
    ("fetch_time", .str q.fetchTime)]

/-- `record.split("~")`. -/
def fieldsOf (record : List Char) : List String :=
  (record.splitOn '~').map String.ofList

/-- The turnover: a field of its own in Hong Kong, else the third part of `price/volume/turnover`. -/
def amountField (identity : CanonicalIdentity) (fields : List String) : Option String :=
  match identity.market with
  | .HK => fields[37]?
  | .CN => fields[35]?.bind fun text => ((text.toList.splitOn '/').map String.ofList)[2]?

def readRecord (identity : CanonicalIdentity) (fields : List String) (now : Calendar.Moment) :
    Except Thrown ProviderQuote := do
  let price ← providerNumber T fields[3]? "price" identity
  let preClose ← providerNumber T fields[4]? "pre_close" identity
  let opening ← providerNumber T fields[5]? "open" identity
  let volume ← providerNumber T fields[6]? "volume" identity
  let quoteTime ← quoteTimeOf fields[30]? identity
  let amount ← providerNumber T (amountField identity fields) "amount" identity
  let change ← providerNumber T fields[31]? "change" identity
  let changePct ← providerNumber T fields[32]? "change_pct" identity
  let high ← providerNumber T fields[33]? "high" identity
  let low ← providerNumber T fields[34]? "low" identity
  return {
    name := (fields[1]?).getD ""
    price := price
    change := change
    changePct := changePct
    preClose := preClose
    opening := opening
    high := high
    low := low
    volume := volume
    amount := amount
    marketStatus := inferMarketStatus T identity quoteTime now
    quoteTime := quoteTime
    fetchTime := now.toISOString }

/-- Letters are compared without their case, as far as they are of ASCII. -/
def sameLetter (n c : Char) : Bool :=
  decide (n.toUpper = c.toUpper)

/-- The name that a body assigns the record of an identity to. -/
def recordName (identity : CanonicalIdentity) : List Char :=
  ("v_" ++ resolveTencentSymbol identity).toList

def parseTencentQuoteResponse (symbol body : String) (now : Calendar.Moment) :
    Except Thrown ProviderQuote :=
  match identityFromTencentSymbol symbol with
  | .error e => .error (some e)
  | .ok identity =>
    let record := (exec isSpace sameLetter (recordName identity) body.toList).getD []
    if record = [] then
      .error (some (quoteFailure .PROVIDER_UNAVAILABLE
        "Tencent quote response did not contain the requested symbol" identity))
    else
      let fields := fieldsOf record
      if fields.length < 35 ∨ fields[2]? ≠ some identity.code then
        .error (invalidQuote "Tencent quote response has an invalid record" identity)
      else readRecord T identity fields now

/-! ## Requests -/

/-- What a request comes to; the body is decoded from GB 18030. -/
inductive HttpAnswer where
  | failed
  | response (ok : Bool) (body : String)

/-- The service, and when each symbol is read. -/
structure TencentService where
  endpoint : String
  requestFetch : String → HttpAnswer
  readAt : String → Calendar.Moment

def unavailable (message : String) (identity : CanonicalIdentity) : ProviderOutcome :=
  .rejected (quoteFailure .PROVIDER_UNAVAILABLE message identity).failures.head?

/-- A symbol has nothing to encode in a URL. -/
def fetchTencentQuote (S : TencentService) (symbol : String) : ProviderOutcome :=
  match identityFromTencentSymbol symbol with
  | .error e => .rejected e.failures.head?
  | .ok identity =>
    match S.requestFetch (S.endpoint ++ resolveTencentSymbol identity) with
    | .failed => unavailable "Tencent quote provider request failed" identity
    | .response false _ =>
      unavailable "Tencent quote provider returned an unavailable response" identity
    | .response true body =>
      match parseTencentQuoteResponse T (resolveTencentSymbol identity) body (S.readAt symbol) with
      | .ok quote => .fulfilled (some quote.json)
      | .error (some e) => .rejected e.failures.head?
      | .error none => unavailable "Tencent quote provider request failed" identity

def createTencentQuoteProvider (S : TencentService) : QuoteProvider :=
  fun symbol _ => fetchTencentQuote T S symbol

/-! ## What a record tells -/

/-- The field spells the number. -/
def Spells (field : Option String) (x : Decimal) : Prop :=
  ∃ text, field = some text ∧ trimText text ≠ "" ∧ T.number text = some x

/-- The market trades at the moment, on the day of the quote. -/
def InSession (market : Market) (quoteTime : String) (now : Calendar.Moment) : Prop :=
  1 ≤ (shanghaiClock T now).weekday ∧ (shanghaiClock T now).weekday ≤ 5 ∧
    quoteTime.toList.take 10 = (shanghaiClock T now).day.toList ∧
    ∃ session ∈ sessions market,
      session.1 ≤ (shanghaiClock T now).minutes ∧ (shanghaiClock T now).minutes ≤ session.2

/-- What a record tells of an identity when it is read. -/
structure Tells (identity : CanonicalIdentity) (readAt : Calendar.Moment) (record : List Char)
    (q : ProviderQuote) : Prop where
  complete : 35 ≤ (fieldsOf record).length
  code : (fieldsOf record)[2]? = some identity.code
  name : (fieldsOf record)[1]? = some q.name
  price : Spells T (fieldsOf record)[3]? q.price
  preClose : Spells T (fieldsOf record)[4]? q.preClose
  opening : Spells T (fieldsOf record)[5]? q.opening
  volume : Spells T (fieldsOf record)[6]? q.volume
  change : Spells T (fieldsOf record)[31]? q.change
  changePct : Spells T (fieldsOf record)[32]? q.changePct
  high : Spells T (fieldsOf record)[33]? q.high
  low : Spells T (fieldsOf record)[34]? q.low
  amount : Spells T (amountField identity (fieldsOf record)) q.amount
  quoteTime : ((fieldsOf record)[30]?).bind tencentTimeToIso = some q.quoteTime
  opened : InSession T identity.market q.quoteTime readAt → q.marketStatus = "OPEN"
  closed : ¬ InSession T identity.market q.quoteTime readAt → q.marketStatus = "CLOSED"
  fetchTime : q.fetchTime = readAt.toISOString

variable {T}

theorem providerNumber_ok {value : Option String} {field : String} {identity : CanonicalIdentity}
    {x : Decimal} : providerNumber T value field identity = .ok x ↔ Spells T value x := by
  unfold providerNumber Spells
  cases value with
  | none => simp
  | some text =>
    cases hnumber : T.number text with
    | none => simp [hnumber]
    | some parsed =>
      by_cases hblank : trimText text = ""
      · simp [hnumber, hblank]
      · simp [hnumber, hblank]

theorem quoteTimeOf_ok {value : Option String} {identity : CanonicalIdentity} {time : String} :
    quoteTimeOf value identity = .ok time ↔ value.bind tencentTimeToIso = some time := by
  unfold quoteTimeOf
  cases value.bind tencentTimeToIso <;> simp

theorem inferMarketStatus_open {identity : CanonicalIdentity} {quoteTime : String}
    {now : Calendar.Moment} (h : InSession T identity.market quoteTime now) :
    inferMarketStatus T identity quoteTime now = "OPEN" := by
  obtain ⟨hlow, hhigh, hday, session, hsession, hstart, hstop⟩ := h
  have hclock : ¬ ((shanghaiClock T now).weekday < 1 ∨ 5 < (shanghaiClock T now).weekday ∨
      quoteTime.toList.take 10 ≠ (shanghaiClock T now).day.toList) := by
    rintro (h | h | h)
    · omega
    · omega
    · exact h hday
  unfold inferMarketStatus
  dsimp only
  rw [if_neg hclock, if_pos (List.any_eq_true.2 ⟨session, hsession, by simp [hstart, hstop]⟩)]

theorem inferMarketStatus_closed {identity : CanonicalIdentity} {quoteTime : String}
    {now : Calendar.Moment} (h : ¬ InSession T identity.market quoteTime now) :
    inferMarketStatus T identity quoteTime now = "CLOSED" := by
  unfold inferMarketStatus
  dsimp only
  split_ifs with hclock hsession
  · rfl
  · rw [not_or, not_or, not_not] at hclock
    obtain ⟨session, hmem, htimes⟩ := List.any_eq_true.1 hsession
    rw [Bool.and_eq_true, decide_eq_true_eq, decide_eq_true_eq] at htimes
    exact absurd ⟨by omega, by omega, hclock.2.2, session, hmem, htimes⟩ h
  · rfl

/-- A complete record of the code is read exactly as it tells. -/
theorem readRecord_ok {identity : CanonicalIdentity} {record : List Char} {now : Calendar.Moment}
    {q : ProviderQuote} (hcomplete : 35 ≤ (fieldsOf record).length)
    (hcode : (fieldsOf record)[2]? = some identity.code) :
    readRecord T identity (fieldsOf record) now = .ok q ↔ Tells T identity now record q := by
  obtain ⟨name, hname⟩ : ∃ name, (fieldsOf record)[1]? = some name :=
    ⟨(fieldsOf record)[1], List.getElem?_eq_getElem _⟩
  simp only [readRecord, bind_eq_ok, providerNumber_ok, quoteTimeOf_ok]
  constructor
  · rintro ⟨price, hprice, preClose, hpreClose, opening, hopening, volume, hvolume, quoteTime, htime,
      amount, hamount, change, hchange, changePct, hchangePct, high, hhigh, low, hlow, hq⟩
    obtain rfl := Except.ok.inj hq
    exact ⟨hcomplete, hcode, by rw [hname]; rfl, hprice, hpreClose, hopening, hvolume, hchange, hchangePct,
      hhigh, hlow, hamount, htime, inferMarketStatus_open, inferMarketStatus_closed, rfl⟩
  · intro h
    refine ⟨q.price, h.price, q.preClose, h.preClose, q.opening, h.opening, q.volume, h.volume,
      q.quoteTime, h.quoteTime, q.amount, h.amount, q.change, h.change, q.changePct, h.changePct,
      q.high, h.high, q.low, h.low, ?_⟩
    have hstatus : inferMarketStatus T identity q.quoteTime now = q.marketStatus := by
      by_cases hin : InSession T identity.market q.quoteTime now
      · rw [inferMarketStatus_open hin, h.opened hin]
      · rw [inferMarketStatus_closed hin, h.closed hin]
    have htold : ((fieldsOf record)[1]?).getD "" = q.name := by rw [h.name]; rfl
    rw [hstatus, htold, ← h.fetchTime]
    rfl

/-! ## What a symbol's own answer is -/

theorem space_of_trimmed {p : Char → Bool} {text : List Char} (h : Json.trimChars p text = []) :
    ∀ c ∈ text, p c = true := by
  rw [Json.trimChars, List.reverse_eq_nil_iff, List.dropWhile_eq_nil_iff] at h
  intro c hc
  rw [← List.takeWhile_append_dropWhile (p := p) (l := text), List.mem_append] at hc
  rcases hc with hc | hc
  · exact List.mem_takeWhile_imp hc
  · exact h c (List.mem_reverse.2 hc)

/-- A text with a character that is no white space is not blank. -/
theorem trimText_ne {text : String} {c : Char} (hc : c ∈ text.toList) (hdark : isSpace c = false) :
    trimText text ≠ "" := by
  intro hblank
  have hnil : Json.trimChars isSpace text.toList = [] := by
    have hlist := congrArg String.toList hblank
    rwa [trimText, String.toList_ofList] at hlist
  rw [space_of_trimmed hnil c hc] at hdark
  cases hdark

theorem trimText_quoteTime {value time : String} (h : tencentTimeToIso value = some time) :
    trimText time ≠ "" := by
  have hdash : '-' ∈ time.toList := by
    unfold tencentTimeToIso at h
    dsimp only at h
    split_ifs at h <;> obtain rfl := Option.some.inj h <;> simp
  exact trimText_ne hdash (by decide)

theorem trimText_toISOString (now : Calendar.Moment) : trimText now.toISOString ≠ "" := by
  have hdash : '-' ∈ now.toISOString.toList := by
    rw [Calendar.Moment.toISOString, String.toList_ofList, Calendar.Moment.toISOChars]
    split_ifs <;> simp [Calendar.Moment.isoLayout, Calendar.Moment.millisecond,
      Calendar.Moment.civil, FixedWidth.line]
  exact trimText_ne hdash (by decide)

/-- The symbol of digits is in lower case, without white space. -/
theorem normalized_symbol (exchange : SupportedExchange) {code : String}
    (h : code.toList.all Char.isDigit = true) :
    toLowerCase (trimText (exchange.lowerText ++ code)) =
      String.ofList (exchange.lowerText.toList ++ code.toList) := by
  have hdigit : ∀ c ∈ code.toList, isSpace c = false ∧ c.toLower = c ∧ c.toNat ≠ 0x212A := by
    intro c hc
    have hc' : c.isDigit = true := List.all_eq_true.1 h c hc
    have hrange : 48 ≤ c.toNat ∧ c.toNat ≤ 57 := by
      simpa [Char.isDigit, UInt32.le_iff_toNat_le] using hc'
    refine ⟨isSpace_of_isDigit hc', ?_, by omega⟩
    delta Char.toLower
    rw [dif_neg]
    simp only [UInt32.le_iff_toNat_le, not_and, not_le]
    intro hupper
    have hnat : 65 ≤ c.toNat := hupper
    omega
  have hexchange : ∀ c ∈ exchange.lowerText.toList,
      isSpace c = false ∧ c.toLower = c ∧ c.toNat ≠ 0x212A := by
    have hletters : exchange.lowerText.toList.all (fun c =>
        !isSpace c && decide (c.toLower = c) && decide (c.toNat ≠ 0x212A)) = true := by
      cases exchange <;> decide
    intro c hc
    simpa [and_assoc] using List.all_eq_true.1 hletters c hc
  have hall : ∀ c ∈ exchange.lowerText.toList ++ code.toList,
      isSpace c = false ∧ c.toLower = c ∧ c.toNat ≠ 0x212A :=
    fun c hc => (List.mem_append.1 hc).elim (hexchange c) (hdigit c)
  have htrim : trimText (exchange.lowerText ++ code) =
      String.ofList (exchange.lowerText.toList ++ code.toList) := by
    have hchars : (exchange.lowerText ++ code).toList = exchange.lowerText.toList ++ code.toList :=
      String.toList_append
    rw [trimText, Json.trimChars, hchars, dropWhile_eq_self fun c hc => (hall c hc).1,
      dropWhile_eq_self fun c hc => (hall c (List.mem_reverse.1 hc)).1, List.reverse_reverse]
  rw [htrim, toLowerCase, String.toList_ofList]
  refine congrArg String.ofList ((List.map_congr_left fun c hc => ?_).trans (List.map_id _))
  rw [if_neg (hall c hc).2.2, (hall c hc).2.1, id]

theorem symbolMatch_symbol (exchange : SupportedExchange) {code : String}
    (h : isDigits 5 code = true ∨ isDigits 6 code = true) :
    symbolMatch (String.ofList (exchange.lowerText.toList ++ code.toList)) = some (exchange, code) := by
  have hlength : exchange.lowerText.toList.length = 2 := by
    cases exchange <;> decide
  have hfind : ([.SH, .SZ, .HK].find? fun e : SupportedExchange =>
      decide (exchange.lowerText.toList = e.lowerText.toList)) = some exchange := by
    cases exchange <;> decide
  have hcode : (isDigits 5 code || isDigits 6 code) = true := by
    rwa [Bool.or_eq_true]
  unfold symbolMatch
  dsimp only
  rw [String.toList_ofList, List.drop_left' hlength, List.take_left' hlength, String.ofList_toList,
    if_pos hcode, hfind, Option.map_some]

theorem canonicalizeIdentity_texts (market exchange code : String) :
    canonicalizeIdentity (.obj [("market", .str market), ("exchange", .str exchange),
      ("code", .str code)]) =
        canonicalizeTexts (toUpperCase (trimText market)) (toUpperCase (trimText exchange))
          (trimText code) := by
  have hrecord : isRecord (.obj [("market", .str market), ("exchange", .str exchange),
    ("code", .str code)]) = true := rfl
  have hmarket : (Json.obj [("market", .str market), ("exchange", .str exchange),
    ("code", .str code)]).get? "market" = some (.str market) := rfl
  have hexchange : (Json.obj [("market", .str market), ("exchange", .str exchange),
    ("code", .str code)]).get? "exchange" = some (.str exchange) := rfl
  have hcode : (Json.obj [("market", .str market), ("exchange", .str exchange),
    ("code", .str code)]).get? "code" = some (.str code) := rfl
  unfold canonicalizeIdentity
  rw [hrecord, hmarket, hexchange, hcode]
  simp only [Option.bind_some, Json.str?, Bool.not_true, Bool.false_eq_true, if_false]

/-- The symbol of an identity that fits together names it. -/
theorem identityFromTencentSymbol_resolve {identity : CanonicalIdentity} (h : identity.Valid) :
    identityFromTencentSymbol (resolveTencentSymbol identity) = .ok identity := by
  obtain ⟨market, exchange, code⟩ := identity
  have hcode : isDigits 5 code = true ∨ isDigits 6 code = true := by
    cases market with
    | CN => exact .inr (h.cnCode rfl)
    | HK => exact .inl (h.hkCode rfl)
  have hdigits : code.toList.all Char.isDigit = true := by
    simp only [isDigits, Bool.and_eq_true] at hcode
    exact hcode.elim And.left And.left
  have hmarketOf : (if exchange = .HK then "HK" else "CN") = market.text := by
    have hiff : market = .HK ↔ exchange = .HK := h.consistent
    cases market with
    | CN => exact if_neg fun he => absurd (hiff.2 he) (by decide)
    | HK => exact if_pos (hiff.1 rfl)
  have hmarket : toUpperCase (trimText market.text) = market.text := by
    cases market <;> decide
  have hexchange : toUpperCase (trimText exchange.text) = exchange.text := by
    cases exchange <;> decide
  have hsymbol : symbolMatch (toLowerCase (trimText (exchange.lowerText ++ code))) =
      some (exchange, code) := by
    rw [normalized_symbol exchange hdigits, symbolMatch_symbol exchange hcode]
  dsimp only [resolveTencentSymbol, identityFromTencentSymbol]
  rw [hsymbol]
  dsimp only
  rw [hmarketOf, canonicalizeIdentity_texts, hmarket, hexchange, trimText_of_digits hdigits,
    canonicalizeTexts_ok]
  exact ⟨marketOf_eq.2 rfl, exchangeOf_eq.2 rfl, rfl, h⟩

/-- What is parsed from the answer to a symbol is what the record of the symbol tells. -/
theorem parseTencentQuoteResponse_ok {identity : CanonicalIdentity} (h : identity.Valid) {body : String}
    {now : Calendar.Moment} {q : ProviderQuote} :
    parseTencentQuoteResponse T (resolveTencentSymbol identity) body now = .ok q ↔
      ∃ record, exec isSpace sameLetter (recordName identity) body.toList = some record ∧
        Tells T identity now record q := by
  unfold parseTencentQuoteResponse
  rw [identityFromTencentSymbol_resolve h]
  dsimp only
  cases hexec : exec isSpace sameLetter (recordName identity) body.toList with
  | none => simp
  | some record =>
    have hempty : ¬ Tells T identity now [] q := fun htells =>
      absurd htells.complete (by decide)
    rw [Option.getD_some]
    split_ifs with hrecord hincomplete
    · subst hrecord
      refine iff_of_false (fun h => by cases h) ?_
      rintro ⟨record, hrecord, htells⟩
      exact hempty (Option.some.inj hrecord ▸ htells)
    · refine iff_of_false (fun h => by cases h) ?_
      rintro ⟨record', hrecord', htells⟩
      obtain rfl := Option.some.inj hrecord'
      rcases hincomplete with hshort | hcode
      · exact absurd htells.complete (not_le.2 hshort)
      · exact hcode htells.code
    · rw [not_or, not_lt, not_not] at hincomplete
      rw [readRecord_ok hincomplete.1 hincomplete.2]
      simp

/-! ## The rows -/

/-- The quote of a row. -/
def ProviderQuote.normalized (R : QuoteRuntime) (identity : CanonicalIdentity) (q : ProviderQuote) :
    NormalizedQuote where
  name := nonEmptyString (some (.str q.name)) (identity.exchange.text ++ identity.code)
  price := q.price
  change := some q.change
  changePct := some q.changePct
  preClose := q.preClose
  previousClose := q.preClose
  opening := q.opening
  high := q.high
  low := q.low
  pctChange := some q.changePct
  volume := q.volume
  amount := q.amount
  marketStatus := q.marketStatus
  marketDataTime := q.quoteTime
  sourceUpdateTime := q.quoteTime
  quoteTime := q.quoteTime
  fetchTime := q.fetchTime
  ageSeconds := deriveAgeSeconds R q.quoteTime q.fetchTime

/-- A quote with a status, a time and a fetch time is complete: nothing is made up for it. -/
theorem readQuote_json {R : QuoteRuntime} {now : Calendar.Moment} {identity : CanonicalIdentity}
    {q : ProviderQuote} (hstatus : q.marketStatus = "OPEN" ∨ q.marketStatus = "CLOSED")
    (htime : trimText q.quoteTime ≠ "") (hfetch : trimText q.fetchTime ≠ "") :
    readQuote R now identity q.json = .ok (q.normalized R identity) := by
  have hmarket : marketStatusOf q.json identity = .ok q.marketStatus := by
    have hfield : q.json.get? "market_status" = some (.str q.marketStatus) := rfl
    unfold marketStatusOf
    rw [hfield]
    rcases hstatus with h | h <;> rw [h] <;> rfl
  have hdataTime : marketDataTimeOf q.json identity = .ok q.quoteTime := if_neg htime
  have hfetchTime : nonEmptyString (q.json.get? "fetch_time") now.toISOString = q.fetchTime :=
    if_neg hfetch
  have hsource : nonEmptyString (q.json.get? "source_update_time") q.quoteTime = q.quoteTime :=
    if_neg htime
  have hquote : nonEmptyString (q.json.get? "quote_time") q.quoteTime = q.quoteTime := if_neg htime
  have hnumbers : ∀ field x, q.json.get? field = some (.num x) →
      finiteField q.json field identity = .ok x := by
    intro field x hfield
    rw [finiteField, hfield]
  simp only [readQuote, hnumbers "price" q.price rfl, hnumbers "pre_close" q.preClose rfl,
    hnumbers "open" q.opening rfl, hnumbers "high" q.high rfl, hnumbers "low" q.low rfl,
    hnumbers "volume" q.volume rfl, hnumbers "amount" q.amount rfl, hdataTime, hmarket, hfetchTime,
    Fallible.ok_bind, hsource, hquote]
  rfl

/-- The row of an identity tells what the answer to its own symbol assigns to it first, at the start of a
line. -/
def QuotedRow (T : TencentRuntime) (S : TencentService) (identity : CanonicalIdentity) (row : Json) :
    Prop :=
  ∃ body front rest record q,
    S.requestFetch (S.endpoint ++ resolveTencentSymbol identity) = .response true body ∧
      body.toList = front ++ rest ∧ LineStart front ∧
      Assigns isSpace sameLetter (recordName identity) record rest ∧
      exec isSpace sameLetter (recordName identity) body.toList = some record ∧
      Tells T identity (S.readAt (resolveTencentSymbol identity)) record q ∧
      row = quoteRow identity (q.normalized T.toQuoteRuntime identity)

theorem normalize_json {now readAt : Calendar.Moment} {identity : CanonicalIdentity}
    {record : List Char} {q : ProviderQuote} (h : Tells T identity readAt record q) :
    normalizeProviderQuote T.toQuoteRuntime now identity (some q.json) =
      .ok (quoteRow identity (q.normalized T.toQuoteRuntime identity)) := by
  have hstatus : q.marketStatus = "OPEN" ∨ q.marketStatus = "CLOSED" :=
    (em _).imp h.opened h.closed
  obtain ⟨text, -, htime⟩ := Option.bind_eq_some_iff.1 h.quoteTime
  have hread : readQuote T.toQuoteRuntime now identity q.json =
      .ok (q.normalized T.toQuoteRuntime identity) :=
    readQuote_json hstatus (trimText_quoteTime htime) (h.fetchTime ▸ trimText_toISOString readAt)
  change quoteRow identity <$> readQuote T.toQuoteRuntime now identity q.json = _
  rw [hread]
  rfl

theorem fetchTencentQuote_fulfilled {S : TencentService} {identity : CanonicalIdentity}
    (h : identity.Valid) {value : Option Json} :
    fetchTencentQuote T S (resolveTencentSymbol identity) = .fulfilled value ↔
      ∃ body q, S.requestFetch (S.endpoint ++ resolveTencentSymbol identity) = .response true body ∧
        parseTencentQuoteResponse T (resolveTencentSymbol identity) body
          (S.readAt (resolveTencentSymbol identity)) = .ok q ∧ value = some q.json := by
  unfold fetchTencentQuote
  rw [identityFromTencentSymbol_resolve h]
  dsimp only
  cases hanswer : S.requestFetch (S.endpoint ++ resolveTencentSymbol identity) with
  | failed => simp [unavailable]
  | response ok body =>
    cases ok with
    | false => simp [unavailable]
    | true =>
      cases hparse : parseTencentQuoteResponse T (resolveTencentSymbol identity) body
          (S.readAt (resolveTencentSymbol identity)) with
      | ok q => simp [hparse, eq_comm]
      | error e => cases e <;> simp [hparse, unavailable]

theorem settledRow_tencent {S : TencentService} {now : Calendar.Moment} {identity : CanonicalIdentity}
    (h : identity.Valid) {row : Json} :
    settledRow T.toQuoteRuntime now (createTencentQuoteProvider T S) identity = .ok row ↔
      QuotedRow T S identity row := by
  rw [settledRow_ok]
  constructor
  · rintro ⟨value, hvalue, hrow⟩
    obtain ⟨body, q, hanswer, hparse, rfl⟩ := (fetchTencentQuote_fulfilled h).1 hvalue
    obtain ⟨record, hrecord, htells⟩ := (parseTencentQuoteResponse_ok h).1 hparse
    rw [normalize_json htells] at hrow
    obtain ⟨front, rest, hbody, hstart, hassigns⟩ := Assignments.exec_eq_some hrecord
    exact ⟨body, front, rest, record, q, hanswer, hbody, hstart, hassigns, hrecord, htells,
      (Except.ok.inj hrow).symm⟩
  · rintro ⟨body, front, rest, record, q, hanswer, -, -, -, hrecord, htells, rfl⟩
    have hparse := (parseTencentQuoteResponse_ok h).2 ⟨record, hrecord, htells⟩
    exact ⟨some q.json, (fetchTencentQuote_fulfilled h).2 ⟨body, q, hanswer, hparse, rfl⟩,
      normalize_json htells⟩

/-! ## Batches of quotes -/

/-- A batch has the row of each identity, or there is none. -/
theorem fetch_iff {R : QuoteRuntime} {now : Calendar.Moment} {fetchQuote : QuoteProvider}
    {inputs : List Json} {batch : DynamicQuoteBatch} :
    fetchDynamicQuoteRows R now (some fetchQuote) inputs = .ok batch ↔
      inputs.map canonicalizeIdentity = batch.identities.map .ok ∧
        (batch.identities.map CanonicalIdentity.key).Nodup ∧
        batch.symbols = batch.identities.map resolveTencentSymbol ∧
        List.Forall₂ (fun identity row => settledRow R now fetchQuote identity = .ok row)
          batch.identities batch.rows := by
  constructor
  · intro h
    obtain ⟨hinputs, hkeys, -⟩ := fetch_ok h
    have hrequested : requestIdentities [] [] inputs = ([] ++ batch.identities, []) :=
      requestIdentities_of_ok hinputs hkeys
    unfold fetchDynamicQuoteRows at h
    rw [hrequested, List.nil_append] at h
    dsimp only at h
    rw [if_neg fun hne => hne rfl] at h
    split_ifs at h with hempty hfailed
    · obtain rfl := Except.ok.inj h
      exact ⟨hinputs, hkeys, rfl, .nil⟩
    · refine ⟨hinputs, hkeys, (congrArg DynamicQuoteBatch.symbols (Except.ok.inj h)).symm, ?_⟩
      rw [← congrArg DynamicQuoteBatch.rows (Except.ok.inj h)]
      exact settle_ok.1 (Prod.ext rfl (not_not.1 hfailed))
  · obtain ⟨identities, symbols, rows⟩ := batch
    rintro ⟨hinputs, hkeys, hsymbols, hrows⟩
    rw [fetch_of_settled hinputs hkeys hrows, ← hsymbols]

theorem valid_of_inputs {inputs : List Json} {identities : List CanonicalIdentity}
    (h : inputs.map canonicalizeIdentity = identities.map .ok) :
    ∀ identity ∈ identities, identity.Valid := by
  intro identity hmem
  obtain ⟨input, -, hinput⟩ : ∃ input ∈ inputs, canonicalizeIdentity input = .ok identity :=
    List.mem_map.1 (h ▸ List.mem_map_of_mem hmem)
  exact valid_of_canonicalize hinput

/-- What is the same of identities that fit together is the same of the rows of a batch. -/
theorem rows_congr {P Q : CanonicalIdentity → Json → Prop} {identities : List CanonicalIdentity}
    {rows : List Json} (hvalid : ∀ identity ∈ identities, identity.Valid)
    (h : ∀ identity row, identity.Valid → (P identity row ↔ Q identity row)) :
    List.Forall₂ P identities rows ↔ List.Forall₂ Q identities rows := by
  constructor
  · intro hrows
    exact ((List.forall₂_and_left _ _).2 ⟨hvalid, hrows⟩).imp fun i r hr => (h i r hr.1).1 hr.2
  · intro hrows
    exact ((List.forall₂_and_left _ _).2 ⟨hvalid, hrows⟩).imp fun i r hr => (h i r hr.1).2 hr.2

/-- A batch of Tencent's quotes: every row is read from the answer to the request for its own symbol, from
a record that is assigned to that symbol and has the code of the identity, and tells what stands there.
Where that is so for every identity the batch is there. -/
theorem tencent_batch (T : TencentRuntime) (S : TencentService) (now : Calendar.Moment)
    (inputs : List Json) (batch : DynamicQuoteBatch) :
    fetchDynamicQuoteRows T.toQuoteRuntime now (some (createTencentQuoteProvider T S)) inputs =
        .ok batch ↔
      inputs.map canonicalizeIdentity = batch.identities.map .ok ∧
        (batch.identities.map CanonicalIdentity.key).Nodup ∧
        batch.symbols = batch.identities.map resolveTencentSymbol ∧
        List.Forall₂ (QuotedRow T S) batch.identities batch.rows := by
  rw [fetch_iff]
  refine and_congr_right fun hinputs => and_congr_right fun _ => and_congr_right fun _ => ?_
  exact rows_congr (valid_of_inputs hinputs) fun _ _ h => settledRow_tencent h

/-! ## Tables of quotes -/

/-- The letters of the names in a table. -/
def nameLetters : List Char :=
  "_0123456789abcdefghijklmnopqrstuvwxyz".toList

def nameLetter (c : Char) : Bool :=
  nameLetters.contains c

theorem nameLetter_letters : Letters isSpace sameLetter nameLetter where
  dark := by
    have hall : nameLetters.all (fun c => !isSpace c) = true := by decide +kernel
    intro c hc
    simpa using List.all_eq_true.1 hall c (List.contains_iff_mem.1 hc)
  compared := by
    have hall : nameLetters.all (fun c => nameLetters.all fun d =>
        sameLetter c d == decide (c = d)) = true := by decide +kernel
    intro c d hc hd
    have hpair := List.all_eq_true.1 (List.all_eq_true.1 hall c (List.contains_iff_mem.1 hc)) d
      (List.contains_iff_mem.1 hd)
    rw [beq_iff_eq.1 hpair, decide_eq_true_eq]
  equals := by
    have hall : nameLetters.all (fun c => !sameLetter c '=' && decide (c ≠ '=')) = true := by
      decide +kernel
    intro c hc
    simpa using List.all_eq_true.1 hall c (List.contains_iff_mem.1 hc)
  unbroken := by decide +kernel
  signs := by decide

theorem nameLetter_of_isDigit {c : Char} (h : c.isDigit = true) : nameLetter c = true := by
  have hrange : 48 ≤ c.toNat ∧ c.toNat ≤ 57 := by
    simpa [Char.isDigit, UInt32.le_iff_toNat_le] using h
  obtain ⟨hlow, hhigh⟩ := hrange
  rw [← Char.ofNat_toNat c]
  interval_cases c.toNat <;> decide +kernel

theorem nameLetter_recordName {identity : CanonicalIdentity} (h : identity.Valid) :
    ∀ c ∈ recordName identity, nameLetter c = true := by
  obtain ⟨market, exchange, code⟩ := identity
  have hdigits : code.toList.all Char.isDigit = true := by
    cases market with
    | CN => exact ((Bool.and_eq_true _ _).mp (h.cnCode rfl)).1
    | HK => exact ((Bool.and_eq_true _ _).mp (h.hkCode rfl)).1
  have hexchange : ("v_" ++ exchange.lowerText).toList.all nameLetter = true := by
    cases exchange <;> decide +kernel
  intro c hc
  rw [recordName, resolveTencentSymbol, ← String.append_assoc, String.toList_append] at hc
  rcases List.mem_append.1 hc with hc | hc
  · exact List.all_eq_true.1 hexchange c hc
  · exact nameLetter_of_isDigit (List.all_eq_true.1 hdigits c hc)

/-- A service that answers every request with the lines of a table. -/
def tableService (endpoint : String) (readAt : String → Calendar.Moment)
    (table : List (Entry nameLetter)) : TencentService where
  endpoint := endpoint
  requestFetch _ := .response true (String.ofList (tableText table))
  readAt := readAt

/-- The row of an identity tells what the table has first under its symbol. -/
def TabledRow (T : TencentRuntime) (readAt : String → Calendar.Moment) (table : List (Entry nameLetter))
    (identity : CanonicalIdentity) (row : Json) : Prop :=
  ∃ e q, (table.find? fun e => decide (recordName identity = e.name)) = some e ∧
    Tells T identity (readAt (resolveTencentSymbol identity)) e.value q ∧
    row = quoteRow identity (q.normalized T.toQuoteRuntime identity)

theorem quotedRow_table {endpoint : String} {readAt : String → Calendar.Moment}
    {table : List (Entry nameLetter)} {identity : CanonicalIdentity} (h : identity.Valid) {row : Json} :
    QuotedRow T (tableService endpoint readAt table) identity row ↔
      TabledRow T readAt table identity row := by
  have hexec := Assignments.exec_table nameLetter_letters (nameLetter_recordName h) table
  constructor
  · rintro ⟨body, -, -, record, q, hanswer, -, -, -, hrecord, htells, hrow⟩
    obtain ⟨-, rfl⟩ := HttpAnswer.response.inj hanswer
    rw [String.toList_ofList, hexec] at hrecord
    obtain ⟨e, he, rfl⟩ := Option.map_eq_some_iff.1 hrecord
    exact ⟨e, q, he, htells, hrow⟩
  · rintro ⟨e, q, he, htells, hrow⟩
    have hrecord : exec isSpace sameLetter (recordName identity)
        (String.ofList (tableText table)).toList = some e.value := by
      rw [String.toList_ofList, hexec, he, Option.map_some]
    obtain ⟨front, rest, hbody, hstart, hassigns⟩ := Assignments.exec_eq_some hrecord
    exact ⟨_, front, rest, e.value, q, rfl, hbody, hstart, hassigns, hrecord, htells, hrow⟩

/-- Against a table of records the batch is the one of the records themselves: the lines of other symbols,
before or after, change nothing. -/
theorem tencent_table (T : TencentRuntime) (endpoint : String) (readAt : String → Calendar.Moment)
    (table : List (Entry nameLetter)) (now : Calendar.Moment) (inputs : List Json)
    (batch : DynamicQuoteBatch) :
    fetchDynamicQuoteRows T.toQuoteRuntime now
        (some (createTencentQuoteProvider T (tableService endpoint readAt table))) inputs = .ok batch ↔
      inputs.map canonicalizeIdentity = batch.identities.map .ok ∧
        (batch.identities.map CanonicalIdentity.key).Nodup ∧
        batch.symbols = batch.identities.map resolveTencentSymbol ∧
        List.Forall₂ (TabledRow T readAt table) batch.identities batch.rows := by
  rw [fetch_iff]
  refine and_congr_right fun hinputs => and_congr_right fun _ => and_congr_right fun _ => ?_
  exact rows_congr (valid_of_inputs hinputs) fun _ _ h =>
    (settledRow_tencent h).trans (quotedRow_table h)

end QuantproCollector.LiveUniverse
