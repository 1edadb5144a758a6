import PortfolioHub.FxRestart

namespace PortfolioHub

/-- The attribute `pair` of a contract; a method is given by the text it returns, if it returns
one and does not raise. -/
inductive PairField where
  | absent
  | text (pair : String)
  | method (pair : Option String)
  | other
deriving DecidableEq, Repr

/-- What the service reads of a forex contract. -/
structure ForexContract where
  pair : PairField
  symbol : String
  currency : String
deriving DecidableEq, Repr

/-- `_contract_quotes_usd_base`. -/
def contractQuotesUsdBase (currency : String) (contract : ForexContract) : Bool :=
  let pair := match contract.pair with
    | .text pair => pair
    | .method (some pair) => pair
    | .method none => ""
    | .absent => ""
    | .other => ""
  let pair :=
    if pair = "" ∧ contract.symbol ≠ "" ∧ contract.currency ≠ "" then
      contract.symbol ++ contract.currency
    else pair
  decide (pair = "USD" ++ currency)

def ibDirectUsdTerms : List String := ["AUD", "EUR", "GBP"]

def ibFxUnsupported : List String := ["TWD"]

/-- `_ib_pair_for`. -/
def ibPairFor (currency : String) : String × Bool :=
  if currency ∈ ibDirectUsdTerms then (pairFor currency, false) else ("USD" ++ currency, true)

/-- A payload of the API, as `json` decodes it. -/
inductive Json where
  | null
  | bool (b : Bool)
  | number (x : Python.Float)
  | text (s : String)
  | array (items : List Json)
  | object (fields : List (String × Json))

/-- `isinstance(x, (int, float))`: a truth value is an integer too. -/
def Json.number? : Json → Option Python.Float
  | .number x => some x
  | .bool b => some (if b then 1 else 0)
  | _ => none

/-- The numbers of `payload["rates"]`, when `refresh_from_api` goes on. -/
def apiRates (payload : Json) : Option (String → Option Python.Float) :=
  match payload with
  | .object fields =>
    match fields.lookup "rates" with
    | some (.object rates) => some fun currency => (rates.lookup currency).bind Json.number?
    | _ => none
  | _ => none

/-- The rate a quote writes, with the division of Python. -/
def FxService.writtenDiv (fx : FxService) : FxQuote → Except Python.Error (Option (String × FxRate))
  | .ibTick now currency invert ticker =>
    match extractForexPrice ticker with
    | none => .ok none
    | some quoted =>
      (if invert then Python.Float.div 1 quoted else .ok quoted).map fun price =>
        if (fx.ibRates.get? currency).any fun existing => existing.rate.equal price then none
        else some (currency, ⟨pairFor currency, price, now, false, .ib⟩)
  | .apiRate quotedAt rates currency =>
    if currency = "CNH" ∨ currency ∉ supportedFx then .ok none
    else
      match rates currency with
      | none => .ok none
      | some inverse =>
        if inverse ≤ 0 then .ok none
        else (Python.Float.div 1 inverse).map fun usdPerNative =>
          some (currency, ⟨pairFor currency, usdPerNative, quotedAt, false, .apiFallback⟩)

/-- A closure of `_make_ticker_handler`, on a ticker of the instance. -/
structure FxHandler where
  ib : ℕ
  currency : String
  contract : ForexContract
  invert : Bool
deriving DecidableEq, Repr

/-- A call of `ensure_subscribed` that waits for the contract of a currency. -/
structure SubscribeCall where
  id : ℕ
  currency : String
  rest : List String
deriving DecidableEq, Repr

/-- The service with its subscriptions. -/
structure FxProgram where
  runtime : FxRuntime
  ib : Option ℕ
  tickers : OrderedDict String ℕ
  handlers : List FxHandler
  calls : List SubscribeCall
  unsupportedSeen : List String
  raised : List Python.Error
  nextId : ℕ

inductive FxProgramEvent where
  | ensureSubscribed (currencies : List String)
  /-- What the contract becomes, if anything, and whether `reqMktData` takes it. -/
  | qualified (id : ℕ) (reply : String → Option ForexContract) (subscribed : Bool)
  | attachIb
  | tick (now : Instant) (handler : FxHandler) (ticker : ForexTicker)
  | payload (quotedAt : Instant) (payload : Json) (currency : String)
  | persist (source : FxSource) (ok : Bool)
  | restart

namespace FxProgram

def init (cache : FxCache) : FxProgram := ⟨.start cache, none, .empty, [], [], [], [], 0⟩

/-- The loop of `ensure_subscribed` up to its next `await`. -/
def ensureFrom (s : FxProgram) (id : ℕ) : List String → FxProgram
  | [] => s
  | currency :: rest =>
    if currency = "USD" ∨ currency ∈ s.tickers.keys then s.ensureFrom id rest
    else
      match validateCurrency currency with
      | .error e => { s with raised := s.raised ++ [e] }
      | .ok () =>
        if currency ∈ ibFxUnsupported then
          { s with unsupportedSeen :=
            if currency ∈ s.unsupportedSeen then s.unsupportedSeen
            else s.unsupportedSeen ++ [currency] }.ensureFrom id rest
        else { s with calls := s.calls ++ [⟨id, currency, rest⟩] }

def ensureSubscribed (s : FxProgram) (currencies : List String) : FxProgram :=
  if s.ib = none then s
  else { s with nextId := s.nextId + 1 }.ensureFrom s.nextId currencies

/-- `reqMktData` on the instance of the moment, and the handler on the ticker it gives. -/
def subscribe (s : FxProgram) (currency : String) (contract : ForexContract) : FxProgram :=
  match s.ib with
  | none => s
  | some ib =>
    { s with
      handlers := s.handlers ++
        [⟨ib, currency, contract, contractQuotesUsdBase currency contract⟩]
      tickers := s.tickers.insert currency ib }

/-- `_qualify_forex_contract` returns, and the loop goes on. -/
def qualified (s : FxProgram) (id : ℕ) (reply : String → Option ForexContract)
    (subscribed : Bool) : FxProgram :=
  match s.calls.find? fun call => call.id = id with
  | none => s
  | some call =>
    let s := { s with calls := s.calls.filter fun other => other.id ≠ id }
    match reply call.currency with
    | none => s.ensureFrom id call.rest
    | some contract =>
      if subscribed then (s.subscribe call.currency contract).ensureFrom id call.rest
      else s.ensureFrom id call.rest

def attachIb (s : FxProgram) : FxProgram :=
  { s with ib := some s.nextId, nextId := s.nextId + 1, tickers := .empty }

def quote (s : FxProgram) (q : FxQuote) : FxProgram :=
  match s.runtime.service.writtenDiv q with
  | .error e => { s with raised := s.raised ++ [e] }
  | .ok _ => { s with runtime := s.runtime.quote q }

/-- A new service on the same cache. -/
def restart (s : FxProgram) : FxProgram :=
  { init s.runtime.cache with
    runtime := { s.runtime with service := .start s.runtime.cache }
    raised := s.raised
    nextId := s.nextId }

def step (s : FxProgram) : FxProgramEvent → FxProgram
  | .ensureSubscribed currencies => s.ensureSubscribed currencies
  | .qualified id reply subscribed => s.qualified id reply subscribed
  | .attachIb => s.attachIb
  | .tick now handler ticker =>
    if handler ∈ s.handlers then s.quote (.ibTick now handler.currency handler.invert ticker)
    else s
  | .payload quotedAt payload currency =>
    match apiRates payload with
    | none => s
    | some rates => s.quote (.apiRate quotedAt rates currency)
  | .persist source ok => { s with runtime := s.runtime.persist source ok }
  | .restart => s.restart

def run (cache : FxCache) (events : List FxProgramEvent) : FxProgram :=
  events.foldl step (init cache)

end FxProgram

theorem positive?_eq_some {value : Option Python.Float} {x : Python.Float}
    (h : positive? value = some x) :
    value = some x ∧ ((∃ q : ℚ, 0 < q ∧ x = .finite q) ∨ x = .inf false) := by
  obtain ⟨y, rfl, hy⟩ := Option.bind_eq_some_iff.mp h
  obtain ⟨hpos, hxy⟩ := Option.ite_none_right_eq_some.mp hy
  obtain rfl := Option.some.inj hxy
  refine ⟨rfl, ?_⟩
  cases y with
  | finite q =>
    have hq : 0 < q := by simpa [LT.lt, Python.Float.lt, OfNat.ofNat] using hpos
    exact Or.inl ⟨q, hq, rfl⟩
  | inf negative =>
    cases negative with
    | false => exact Or.inr rfl
    | true => exact absurd hpos (by decide)
  | nan => exact absurd hpos (by decide)

/-- No price of the ticker is infinite; one that is not a number is no price. -/
def ForexTicker.NoInf (ticker : ForexTicker) : Prop :=
  ∀ price ∈ [ticker.bid, ticker.ask, ticker.last, ticker.marketPrice], price ≠ some (.inf false)

/-- The price a tick quotes is positive. -/
theorem extractForexPrice_pos {ticker : ForexTicker} {price : Python.Float}
    (h : extractForexPrice ticker = some price) :
    (∃ q : ℚ, 0 < q ∧ price = .finite q) ∨ price = .inf false ∧ ¬ ticker.NoInf := by
  have hfield : ∀ value ∈ [ticker.bid, ticker.ask, ticker.last, ticker.marketPrice],
      ∀ x, positive? value = some x →
        (∃ q : ℚ, 0 < q ∧ x = .finite q) ∨ x = .inf false ∧ ¬ ticker.NoInf := by
    intro value hvalue x hx
    obtain ⟨hsome, hfinite | rfl⟩ := positive?_eq_some hx
    · exact Or.inl hfinite
    · exact Or.inr ⟨rfl, fun hno => hno value hvalue hsome⟩
  unfold extractForexPrice at h
  split at h
  next bid ask hbid hask =>
    obtain rfl := Option.some.inj h
    have hbid := hfield _ (by simp) bid hbid
    have hask := hfield _ (by simp) ask hask
    rcases hbid with ⟨b, hb, rfl⟩ | ⟨rfl, hno⟩
    · rcases hask with ⟨a, ha, rfl⟩ | ⟨rfl, hno⟩
      · exact Or.inl ⟨(b + a) / 2, by positivity, rfl⟩
      · exact Or.inr ⟨rfl, hno⟩
    · rcases hask with ⟨a, ha, rfl⟩ | ⟨rfl, -⟩
      · exact Or.inr ⟨rfl, hno⟩
      · exact Or.inr ⟨rfl, hno⟩
  next =>
    rcases Option.or_eq_some_iff.mp h with hlast | ⟨-, hmarket⟩
    · exact hfield _ (by simp) price hlast
    · exact hfield _ (by simp) price hmarket

/-- No division is by zero. -/
theorem FxService.writtenDiv_eq (fx : FxService) (q : FxQuote) :
    fx.writtenDiv q = .ok (fx.written q) := by
  cases q with
  | ibTick now currency invert ticker =>
    cases hquoted : extractForexPrice ticker with
    | none => simp only [writtenDiv, written, hquoted, Option.bind_none]
    | some quoted =>
      have hne : quoted ≠ 0 := by
        rcases extractForexPrice_pos hquoted with ⟨q, hq, rfl⟩ | ⟨rfl, -⟩
        · intro hzero
          have hzero : q = ((0 : ℕ) : ℚ) := Python.Float.finite.inj hzero
          exact absurd hq (by simp [hzero])
        · decide
      have hprice : (if invert then Python.Float.div 1 quoted else .ok quoted) =
          .ok (if invert then Python.Float.quot 1 quoted else quoted) := by
        rw [Python.Float.div_of_ne_zero hne]
        split
        next => rfl
        next => rfl
      simp only [writtenDiv, written, hquoted, hprice, Except.map, Option.bind_some]
  | apiRate quotedAt rates currency =>
    simp only [writtenDiv, written, apiRate]
    by_cases hcnh : currency = "CNH"
    · simp [hcnh]
    · by_cases hsupported : currency ∈ supportedFx
      · cases hrate : rates currency with
        | none => simp [hcnh, hsupported]
        | some inverse =>
          by_cases hpos : inverse ≤ 0
          · simp [hcnh, hsupported, hpos]
          · simp [hcnh, hsupported, hpos, Except.map,
              Python.Float.div_of_ne_zero (Python.Float.ne_zero_of_not_le_zero hpos)]
      · simp [hcnh, hsupported]

end PortfolioHub
